import ThemeLint.Proofs.Json.Scalar

namespace ThemeLint

open Bytes

namespace Json

-- From a text that starts like this, perhaps behind space, a value is read, and nothing
-- that follows the text is touched. Nothing that is written starts like a closing bracket.
structure ReadsAs {α : Type} (item : Bytes → Option (α × Bytes)) (written : Bytes) (meant : α) :
    Prop where
  reads : ∀ blanks rest, (∀ b ∈ blanks, isSpace b = true) → Stops rest →
    item (blanks ++ written ++ rest) = some (meant, rest)
  starts : ∃ first others, written = first :: others ∧ isSpace first = false ∧
    first ≠ byte ']' ∧ first ≠ 0x7D

theorem trim_of_not_isSpace {blanks : Bytes} (hblanks : ∀ b ∈ blanks, isSpace b = true) {b : UInt8}
    (hb : isSpace b = false) (rest : Bytes) : trim (blanks ++ b :: rest) = b :: rest :=
  dropWhile_append_stop hblanks (by simpa using hb)

theorem trim_cons {b : UInt8} (hb : isSpace b = false) (rest : Bytes) :
    trim (b :: rest) = b :: rest := by
  simp [trim, hb]

theorem isSpace_indent (level : Nat) : ∀ b ∈ JsonValue.indent level, isSpace b = true := by
  intro b hb
  rw [List.eq_of_mem_replicate hb]
  decide

theorem isSpace_singleton {b : UInt8} (h : isSpace b = true) : ∀ c ∈ [b], isSpace c = true :=
  List.forall_mem_singleton.mpr h

-- One step of reading items, by what follows the first of them.
section Steps

variable {α : Type} {item : Bytes → Option (α × Bytes)} {closing : UInt8} {bound : Nat}
  {text rest after : Bytes} {first : α}

theorem list?_last (hitem : item text = some (first, rest)) (htrim : trim rest = closing :: after) :
    list? item closing (bound + 1) text = some ([first], after) := by
  simp [list?, hitem, htrim]

theorem list?_more (hitem : item text = some (first, rest)) (htrim : trim rest = byte ',' :: after)
    (hclosing : closing ≠ byte ',') {others : List α} {remaining : Bytes}
    (hothers : list? item closing bound after = some (others, remaining)) :
    list? item closing (bound + 1) text = some (first :: others, remaining) := by
  simp [list?, hitem, htrim, Ne.symm hclosing, hothers]

end Steps

def lines (inner outer : Nat) (closing : UInt8) (written : List Bytes) : Bytes :=
  joinWith [byte ',', lf] (written.map (JsonValue.indent inner ++ ·)) ++
    lf :: (JsonValue.indent outer ++ [closing])

theorem lines_singleton (inner outer : Nat) (closing : UInt8) (line : Bytes) :
    lines inner outer closing [line] =
      JsonValue.indent inner ++ line ++ lf :: (JsonValue.indent outer ++ [closing]) := by
  simp [lines]

theorem lines_cons_cons (inner outer : Nat) (closing : UInt8) (line next : Bytes)
    (others : List Bytes) :
    lines inner outer closing (line :: next :: others) =
      JsonValue.indent inner ++ line ++
        byte ',' :: lf :: lines inner outer closing (next :: others) := by
  simp [lines, joinWith_cons_cons]

theorem lines_cons (inner outer : Nat) (closing : UInt8) (line : Bytes) (others : List Bytes) :
    ∃ behind, lines inner outer closing (line :: others) = JsonValue.indent inner ++ line ++ behind := by
  cases others with
  | nil => exact ⟨_, lines_singleton inner outer closing line⟩
  | cons next others => exact ⟨_, lines_cons_cons inner outer closing line next others⟩

-- The search for items goes from comma to comma, and the line feed behind a comma is space
-- before the next item.
theorem list?_lines {α β : Type} {item : Bytes → Option (α × Bytes)} {written : β → Bytes}
    {meant : β → α} {closing : UInt8} (hspace : isSpace closing = false)
    (hcomma : closing ≠ byte ',') (inner outer : Nat) (rest : Bytes) {first : β} {others : List β}
    (hreads : ∀ x ∈ first :: others, ReadsAs item (written x) (meant x)) {blanks : Bytes}
    (hblanks : ∀ b ∈ blanks, isSpace b = true) {bound : Nat} (hbound : others.length < bound) :
    list? item closing bound
        (blanks ++ lines inner outer closing ((first :: others).map written) ++ rest) =
      some ((first :: others).map meant, rest) := by
  induction others generalizing first blanks bound with
  | nil =>
      obtain ⟨bound, rfl⟩ : ∃ more, bound = more + 1 := ⟨bound - 1, by omega⟩
      have hend : ∀ b ∈ lf :: JsonValue.indent outer, isSpace b = true :=
        List.forall_mem_cons.mpr ⟨by decide, isSpace_indent outer⟩
      have hitem := (hreads first List.mem_cons_self).reads (blanks ++ JsonValue.indent inner)
        (lf :: JsonValue.indent outer ++ closing :: rest)
        (List.forall_mem_append.mpr ⟨hblanks, isSpace_indent inner⟩) (stops_lf _)
      have hlast : list? item closing (bound + 1) _ = _ :=
        list?_last hitem (trim_of_not_isSpace hend hspace rest)
      simpa [lines_singleton] using hlast
  | cons next others ih =>
      obtain ⟨bound, rfl⟩ : ∃ more, bound = more + 1 := ⟨bound - 1, by omega⟩
      have hlf : ∀ b ∈ [lf], isSpace b = true := isSpace_singleton (by decide)
      have hlt : others.length < bound := by simpa using hbound
      have hothers := ih (fun x hx => hreads x (List.mem_cons_of_mem first hx)) hlf hlt
      have hitem := (hreads first List.mem_cons_self).reads (blanks ++ JsonValue.indent inner)
        (byte ',' :: ([lf] ++ lines inner outer closing ((next :: others).map written) ++ rest))
        (List.forall_mem_append.mpr ⟨hblanks, isSpace_indent inner⟩) (stops_comma _)
      have hmore := list?_more hitem (trim_cons (by decide) _) hcomma hothers
      simpa [lines_cons_cons] using hmore

theorem length_lt_lines (inner outer : Nat) (closing : UInt8) (written : List Bytes) :
    written.length < (lines inner outer closing written).length := by
  induction written with
  | nil =>
      simp only [lines, List.length_append, List.length_cons, List.length_nil]
      omega
  | cons line others ih =>
      cases others with
      | nil =>
          simp only [lines_singleton, List.length_append, List.length_cons]
          omega
      | cons next others =>
          simp only [lines_cons_cons, List.length_append, List.length_cons] at ih ⊢
          omega

theorem brackets?_bracket {α β : Type} {item : Bytes → Option (α × Bytes)} {written : β → Bytes}
    {meant : β → α} {opening closing : UInt8} (hclosing : closing = byte ']' ∨ closing = 0x7D)
    (level : Nat) {items : List β} (hreads : ∀ x ∈ items, ReadsAs item (written x) (meant x)) :
    ∃ inside, JsonValue.bracket opening closing level (items.map written) = opening :: inside ∧
      ∀ rest, brackets? item closing (inside ++ rest) = some (items.map meant, rest) := by
  have hspace : isSpace closing = false := by rcases hclosing with rfl | rfl <;> decide
  have hcomma : closing ≠ byte ',' := by rcases hclosing with rfl | rfl <;> decide
  cases items with
  | nil =>
      refine ⟨[closing], by simp [JsonValue.bracket], fun rest => ?_⟩
      simp [brackets?, trim_cons hspace]
  | cons x items =>
      refine ⟨[lf] ++ lines (level + 1) level closing ((x :: items).map written),
        by simp [JsonValue.bracket, lines], fun rest => ?_⟩
      have hlf : ∀ b ∈ [lf], isSpace b = true := isSpace_singleton (by decide)
      have hbound : items.length <
          ([lf] ++ lines (level + 1) level closing ((x :: items).map written) ++ rest).length := by
        have hlength := length_lt_lines (level + 1) level closing ((x :: items).map written)
        simp only [List.length_map, List.length_cons, List.length_append] at hlength ⊢
        omega
      -- the first byte that is no space belongs to the first item and closes nothing
      obtain ⟨b, others, hwritten, hb, hbracket, hbrace⟩ := (hreads x List.mem_cons_self).starts
      obtain ⟨behind, hlines⟩ := lines_cons (level + 1) level closing (written x) (items.map written)
      have htrim : trim ([lf] ++ lines (level + 1) level closing ((x :: items).map written) ++ rest) =
          b :: (others ++ behind ++ rest) := by
        have hblanks : ∀ b ∈ [lf] ++ JsonValue.indent (level + 1), isSpace b = true :=
          List.forall_mem_append.mpr ⟨hlf, isSpace_indent _⟩
        have htext := trim_of_not_isSpace hblanks hb (others ++ behind ++ rest)
        rw [List.map_cons, hlines, hwritten]
        simpa using htext
      have hopen : b ≠ closing := by
        rcases hclosing with rfl | rfl
        · exact hbracket
        · exact hbrace
      simp only [brackets?, htrim, beq_eq_false_iff_ne.mpr hopen, Bool.false_eq_true, if_false]
      exact list?_lines hspace hcomma (level + 1) level rest hreads hlf hbound

theorem readsAs_string (text : Bytes) (depth : Nat) :
    ReadsAs (value? (depth + 1)) (JsonValue.renderString text) (string (Utf8.repair text)) where
  reads blanks rest hblanks _ := by
    have htrim := trim_of_not_isSpace hblanks (by decide : isSpace 0x22 = false)
      ((Utf8.pieces text).flatMap JsonValue.escapePiece ++ 0x22 :: rest)
    have htext : blanks ++ JsonValue.renderString text ++ rest =
        blanks ++ 0x22 :: ((Utf8.pieces text).flatMap JsonValue.escapePiece ++ 0x22 :: rest) := by
      simp [JsonValue.renderString]
    simp [value?, htext, htrim, string?_renderString]
  starts := ⟨0x22, _, rfl, by decide, by decide, by decide⟩

theorem ofInt_cons (n : Int) :
    ∃ first others, ofInt n = first :: others ∧ (first = byte '-' ∨ isDigit first = true) := by
  cases n with
  | negSucc n => exact ⟨byte '-', _, rfl, .inl rfl⟩
  | ofNat n =>
      obtain ⟨first, others, hdigits⟩ := List.exists_cons_of_ne_nil (ofNat_ne_nil n)
      exact ⟨first, others, hdigits, .inr (isDigit_ofNat n first (by simp [hdigits]))⟩

theorem literal?_eq_none {b : UInt8} (hn : b ≠ byte 'n') (ht : b ≠ byte 't') (hf : b ≠ byte 'f')
    (rest : Bytes) : literal? (b :: rest) = none := by
  have hwords : utf8 "null" = byte 'n' :: utf8 "ull" ∧ utf8 "true" = byte 't' :: utf8 "rue" ∧
      utf8 "false" = byte 'f' :: utf8 "alse" := by decide
  simp [literal?, literals, hwords, afterStart?, Ne.symm hn, Ne.symm ht, Ne.symm hf]

theorem readsAs_number (n : Int) (depth : Nat) :
    ReadsAs (value? (depth + 1)) (ofInt n) (number n 0) := by
  obtain ⟨first, others, hnumber, hfirst⟩ := ofInt_cons n
  have hne : ∀ c, c ≠ byte '-' → isDigit c = false → first ≠ c := by
    intro c hsign hdigit
    rcases hfirst with rfl | hfirst
    · exact Ne.symm hsign
    · exact ne_of_isDigit hfirst hdigit
  have hspace : isSpace first = false := by
    rw [Bool.eq_false_iff]
    intro hspace
    rcases isSpace_iff.mp hspace with h | h | h | h <;> exact hne _ (by decide) (by decide) h
  refine ⟨fun blanks rest hblanks hrest => ?_,
    ⟨first, others, hnumber, hspace, hne _ (by decide) (by decide), hne _ (by decide) (by decide)⟩⟩
  have hread := number?_ofInt n hrest
  have htrim := trim_of_not_isSpace hblanks hspace (others ++ rest)
  have hliteral := literal?_eq_none (hne _ (by decide) (by decide)) (hne _ (by decide) (by decide))
    (hne _ (by decide) (by decide)) (others ++ rest)
  rw [hnumber] at hread ⊢
  simp only [List.append_assoc, List.cons_append] at hread ⊢
  simp [value?, htrim, hliteral, hread, hne 0x22 (by decide) (by decide),
    hne (byte '[') (by decide) (by decide), hne 0x7B (by decide) (by decide)]

theorem readsAs_field {value : Bytes → Option (Json × Bytes)} {written : Bytes} {meant : Json}
    (h : ReadsAs value written meant) (name : Bytes) :
    ReadsAs (field? value) (JsonValue.renderString name ++ utf8 ": " ++ written)
      (Utf8.repair name, meant) where
  reads blanks rest hblanks hrest := by
    have hcolon : utf8 ": " = [byte ':', space] := by decide
    have htext : blanks ++ (JsonValue.renderString name ++ utf8 ": " ++ written) ++ rest =
        blanks ++ 0x22 :: ((Utf8.pieces name).flatMap JsonValue.escapePiece ++
          0x22 :: (byte ':' :: ([space] ++ written ++ rest))) := by
      simp [JsonValue.renderString, hcolon]
    have htrim := trim_of_not_isSpace hblanks (by decide : isSpace 0x22 = false)
      ((Utf8.pieces name).flatMap JsonValue.escapePiece ++
          0x22 :: (byte ':' :: ([space] ++ written ++ rest)))
    have hvalue := h.reads [space] rest (isSpace_singleton (by decide)) hrest
    rw [htext, field?, htrim]
    have hcolonTrim := trim_cons (by decide : isSpace (byte ':') = false) ([space] ++ written ++ rest)
    simp only [beq_self_eq_true, if_true, string?_renderString, hcolonTrim, hvalue, Option.map_some]
  starts := ⟨0x22, _, rfl, by decide, by decide, by decide⟩

-- Brackets are a value once the byte that opens them says what they hold.
theorem readsAs_bracket {α β : Type} {item : Bytes → Option (α × Bytes)} {make : List α → Json}
    {opening closing : UInt8} {depth : Nat} (hspace : isSpace opening = false)
    (hopening : opening ≠ byte ']' ∧ opening ≠ 0x7D) (hclosing : closing = byte ']' ∨ closing = 0x7D)
    (hvalue : ∀ text rest, trim text = opening :: rest →
      value? (depth + 1) text =
        (brackets? item closing rest).map fun (found, rest) => (make found, rest))
    (level : Nat) {written : β → Bytes} {meant : β → α} {items : List β}
    (hreads : ∀ x ∈ items, ReadsAs item (written x) (meant x)) :
    ReadsAs (value? (depth + 1)) (JsonValue.bracket opening closing level (items.map written))
      (make (items.map meant)) := by
  obtain ⟨inside, hbracket, hinside⟩ : ∃ inside,
      JsonValue.bracket opening closing level (items.map written) = opening :: inside ∧
        ∀ rest, brackets? item closing (inside ++ rest) = some (items.map meant, rest) :=
    brackets?_bracket hclosing level hreads
  refine ⟨fun blanks rest hblanks _ => ?_, ⟨opening, inside, hbracket, hspace, hopening⟩⟩
  have htrim := trim_of_not_isSpace hblanks hspace (inside ++ rest)
  rw [hbracket, List.append_assoc, List.cons_append, hvalue _ _ htrim, hinside, Option.map_some]

theorem readsAs_array {β : Type} {depth : Nat} (level : Nat) {written : β → Bytes} {meant : β → Json}
    {items : List β} (hreads : ∀ x ∈ items, ReadsAs (value? depth) (written x) (meant x)) :
    ReadsAs (value? (depth + 1)) (JsonValue.bracket (byte '[') (byte ']') level (items.map written))
      (array (items.map meant)) := by
  refine readsAs_bracket (by decide) (by decide) (.inl rfl) (fun text rest htrim => ?_) level hreads
  have hquote : (byte '[' == 0x22) = false := by decide
  simp only [value?, htrim, hquote, beq_self_eq_true, Bool.false_eq_true, if_true, if_false]

theorem readsAs_object {β : Type} {depth : Nat} (level : Nat) {written : β → Bytes}
    {meant : β → Bytes × Json} {fields : List β}
    (hreads : ∀ x ∈ fields, ReadsAs (field? (value? depth)) (written x) (meant x)) :
    ReadsAs (value? (depth + 1)) (JsonValue.bracket 0x7B 0x7D level (fields.map written))
      (object (fields.map meant)) := by
  refine readsAs_bracket (by decide) (by decide) (.inr rfl) (fun text rest htrim => ?_) level hreads
  have hquote : ((0x7B : UInt8) == 0x22) = false := by decide
  have hbracket : ((0x7B : UInt8) == byte '[') = false := by decide
  simp only [value?, htrim, hquote, hbracket, beq_self_eq_true, Bool.false_eq_true, if_true, if_false]

end Json

namespace JsonValue

-- What holds of brackets once it holds of what is inside them holds of all values.
theorem induction {motive : JsonValue → Prop} (string : ∀ text, motive (.string text))
    (number : ∀ n, motive (.number n))
    (array : ∀ items, (∀ item ∈ items, motive item) → motive (.array items))
    (object : ∀ fields, (∀ field ∈ fields, motive field.2) → motive (.object fields))
    (value : JsonValue) : motive value :=
  @JsonValue.rec motive (fun items => ∀ item ∈ items, motive item)
    (fun fields => ∀ field ∈ fields, motive field.2) (fun field => motive field.2)
    string number array object
    (List.forall_mem_nil _) (fun _ _ hitem hitems => List.forall_mem_cons.mpr ⟨hitem, hitems⟩)
    (List.forall_mem_nil _) (fun _ _ hfield hfields => List.forall_mem_cons.mpr ⟨hfield, hfields⟩)
    (fun _ _ hvalue => hvalue) value

def renderField (level : Nat) (field : Bytes × JsonValue) : Bytes :=
  renderString field.1 ++ utf8 ": " ++ field.2.render level

theorem renderItems_eq_map (level : Nat) (items : List JsonValue) :
    renderItems level items = items.map (render level) := by
  induction items with
  | nil => rfl
  | cons item items ih => rw [renderItems, ih, List.map_cons]

theorem renderFields_eq_map (level : Nat) (fields : List (Bytes × JsonValue)) :
    renderFields level fields = fields.map (renderField level) := by
  induction fields with
  | nil => rfl
  | cons field fields ih => rw [renderFields, ih, List.map_cons, renderField]

theorem render_array (level : Nat) (items : List JsonValue) :
    (array items).render level =
      bracket (byte '[') (byte ']') level (items.map (render (level + 1))) := by
  rw [render, renderItems_eq_map]

theorem render_object (level : Nat) (fields : List (Bytes × JsonValue)) :
    (object fields).render level = bracket 0x7B 0x7D level (fields.map (renderField (level + 1))) := by
  rw [render, renderFields_eq_map]

mutual

-- What a value says to a reader. Only characters can be said.
def meaning : JsonValue → Json
  | string text => .string (Utf8.repair text)
  | number value => .number value 0
  | array items => .array (meanings items)
  | object fields => .object (fieldMeanings fields)

def meanings : List JsonValue → List Json
  | [] => []
  | item :: rest => meaning item :: meanings rest

def fieldMeanings : List (Bytes × JsonValue) → List (Bytes × Json)
  | [] => []
  | (name, value) :: rest => (Utf8.repair name, meaning value) :: fieldMeanings rest

end

@[simp] theorem meanings_eq_map (items : List JsonValue) : meanings items = items.map meaning := by
  induction items with
  | nil => rfl
  | cons item items ih => rw [meanings, ih, List.map_cons]

@[simp] theorem fieldMeanings_eq_map (fields : List (Bytes × JsonValue)) :
    fieldMeanings fields = fields.map fun field => (Utf8.repair field.1, field.2.meaning) := by
  induction fields with
  | nil => rfl
  | cons field fields ih => rw [fieldMeanings, ih, List.map_cons]

-- Brackets are longer than what is inside them, so that what is nested in a text is no
-- deeper than the text is long.
theorem length_lt_bracket (opening closing : UInt8) (level : Nat) {items : List Bytes} {item : Bytes}
    (h : item ∈ items) : item.length < (bracket opening closing level items).length := by
  have hne : items.isEmpty = false := by
    cases items with
    | nil => simp at h
    | cons => rfl
  have hle := length_le_joinWith [byte ',', lf]
    (List.mem_map_of_mem (f := (indent (level + 1) ++ ·)) h)
  simp only [bracket, hne, Bool.false_eq_true, if_false, List.length_append, List.length_cons] at hle ⊢
  omega

-- The induction is on the value: one level of brackets takes one level of the reader.
theorem readsAs_render (value : JsonValue) (level : Nat) {depth : Nat}
    (hdepth : (value.render level).length ≤ depth) :
    Json.ReadsAs (Json.value? (depth + 1)) (value.render level) value.meaning := by
  induction value using JsonValue.induction generalizing level depth with
  | string text => exact Json.readsAs_string text depth
  | number n => exact Json.readsAs_number n depth
  | array items ih =>
      rw [render_array] at hdepth ⊢
      rw [meaning, meanings_eq_map]
      apply Json.readsAs_array
      intro item hitem
      have hlt := length_lt_bracket (byte '[') (byte ']') level
        (List.mem_map_of_mem (f := render (level + 1)) hitem)
      obtain ⟨depth, rfl⟩ : ∃ less, depth = less + 1 := ⟨depth - 1, by omega⟩
      exact ih item hitem (level + 1) (by omega)
  | object fields ih =>
      rw [render_object] at hdepth ⊢
      rw [meaning, fieldMeanings_eq_map]
      apply Json.readsAs_object
      intro field hfield
      have hlt := length_lt_bracket 0x7B 0x7D level
        (List.mem_map_of_mem (f := renderField (level + 1)) hfield)
      have hle : (field.2.render (level + 1)).length ≤ (renderField (level + 1) field).length := by
        simp only [renderField, List.length_append]
        omega
      obtain ⟨depth, rfl⟩ : ∃ less, depth = less + 1 := ⟨depth - 1, by omega⟩
      exact Json.readsAs_field (ih field hfield (level + 1) (by omega)) field.1

-- Everything around the characters of a text is ASCII.
theorem valid_escapePiece (text : Bytes) :
    ∀ piece ∈ Utf8.pieces text, Utf8.valid (escapePiece piece) = true := by
  refine Utf8.pieces_induction ?_ ?_ text
  · intro b
    exact (by decide : Utf8.valid (utf8 "\\ufffd") = true)
  · intro text code width h
    rw [escapePiece]
    rcases Json.escapeChar_cases code (text.take width) with
      ⟨letter, meant, hescape, hascii, -⟩ | ⟨hescape, -⟩ | ⟨hescape, -⟩
    · rw [hescape]
      exact Utf8.valid_of_ascii (List.forall_mem_cons.mpr ⟨by decide, by simpa using hascii⟩)
    · rw [hescape]
      exact Utf8.valid_append (by decide) (Utf8.valid_hex 4 code)
    · rw [hescape]
      exact Utf8.valid_iff.mpr (Utf8.foldl_step_of_head? h)

theorem valid_renderString (text : Bytes) : Utf8.valid (renderString text) = true := by
  have hpieces : Utf8.valid ((Utf8.pieces text).flatMap escapePiece) = true := by
    rw [List.flatMap_def]
    exact Utf8.valid_flatten (List.forall_mem_map.mpr (valid_escapePiece text))
  exact Utf8.valid_append (Utf8.valid_append (by decide) hpieces) (by decide)

theorem valid_ofInt (n : Int) : Utf8.valid (ofInt n) = true := by
  have hdigits : ∀ n, Utf8.valid (ofNat n) = true := by
    intro n
    apply Utf8.valid_of_ascii
    intro b hb
    have hdigit := isDigit_ofNat n b hb
    simp only [isDigit, Bool.and_eq_true, decide_eq_true_eq] at hdigit
    exact UInt8.lt_of_le_of_lt hdigit.2 (by decide)
  cases n with
  | ofNat n => exact hdigits n
  | negSucc n => exact Utf8.valid_append (by decide : Utf8.valid [byte '-'] = true) (hdigits (n + 1))

theorem valid_indent (level : Nat) : Utf8.valid (indent level) = true :=
  Utf8.valid_of_ascii fun b hb => Json.isSpace_lt (Json.isSpace_indent level b hb)

theorem valid_bracket {opening closing : UInt8} (hopening : opening < 0x80) (hclosing : closing < 0x80)
    (level : Nat) {items : List Bytes} (h : ∀ item ∈ items, Utf8.valid item = true) :
    Utf8.valid (bracket opening closing level items) = true := by
  unfold bracket
  split
  · exact Utf8.valid_of_ascii (by simp [hopening, hclosing])
  · have hitems : ∀ item ∈ items.map (indent (level + 1) ++ ·), Utf8.valid item = true :=
      List.forall_mem_map.mpr fun item hitem => Utf8.valid_append (valid_indent _) (h item hitem)
    refine Utf8.valid_append (Utf8.valid_append (Utf8.valid_append (Utf8.valid_append ?_
      (Utf8.valid_joinWith (by decide) hitems)) (by decide)) (valid_indent level)) ?_
    · exact Utf8.valid_of_ascii (by simp [hopening]; decide)
    · exact Utf8.valid_of_ascii (by simp [hclosing])

theorem valid_render (value : JsonValue) (level : Nat) : Utf8.valid (value.render level) = true := by
  induction value using JsonValue.induction generalizing level with
  | string text => exact valid_renderString text
  | number n => exact valid_ofInt n
  | array items ih =>
      rw [render_array]
      apply valid_bracket (by decide) (by decide)
      exact List.forall_mem_map.mpr fun item hitem => ih item hitem (level + 1)
  | object fields ih =>
      rw [render_object]
      apply valid_bracket (by decide) (by decide)
      refine List.forall_mem_map.mpr fun field hfield => ?_
      exact Utf8.valid_append (Utf8.valid_append (valid_renderString field.1) (by decide))
        (ih field hfield (level + 1))

theorem read_append {value : JsonValue} {blanks : Bytes}
    (hblanks : ∀ b ∈ blanks, Json.isSpace b = true) :
    Json.read (value.render 0 ++ blanks) = some value.meaning := by
  have hvalid : Utf8.valid (value.render 0 ++ blanks) = true :=
    Utf8.valid_append (value.valid_render 0)
      (Utf8.valid_of_ascii fun b hb => Json.isSpace_lt (hblanks b hb))
  have hlength : (value.render 0).length ≤ (value.render 0 ++ blanks).length := by
    simp only [List.length_append]
    omega
  have hstops : Json.Stops blanks :=
    Json.stops_of_isSpace fun b hb => hblanks b (List.mem_of_mem_head? hb)
  have hread := (value.readsAs_render 0 hlength).reads [] blanks (by simp) hstops
  have htrim : Json.trim blanks = [] := by
    have hnil : (blanks ++ []).dropWhile Json.isSpace = [] :=
      dropWhile_append_stop hblanks (by simp)
    rwa [List.append_nil] at hnil
  rw [List.nil_append] at hread
  simp only [Json.read, hvalid, hread, htrim, List.isEmpty_nil, if_true]

-- A document is read as what its value says, and so is the value without the line feed.
theorem read_document (value : JsonValue) : Json.read value.document = some value.meaning :=
  read_append (Json.isSpace_singleton (by decide))

theorem read_render (value : JsonValue) : Json.read (value.render 0) = some value.meaning := by
  rw [← List.append_nil (value.render 0)]
  exact read_append (List.forall_mem_nil _)

theorem getLast?_bracket (opening closing : UInt8) (level : Nat) (items : List Bytes) :
    (bracket opening closing level items).getLast? = some closing := by
  unfold bracket
  split
  · rfl
  · exact List.getLast?_concat

theorem eachAt?_array {α β : Type} {report : Json} {names : List String} {items : List β}
    {written : β → JsonValue} {item? : Json → Option α} {meant : β → α}
    (hreport : report.at? names = some (array (items.map written)).meaning)
    (hitem : ∀ x, item? (written x).meaning = some (meant x)) :
    report.eachAt? names item? = some (items.map meant) := by
  have hitems : (items.map fun x => (written x).meaning).mapM item? = some (items.map meant) := by
    rw [List.mapM_map]
    have hpure : item? ∘ (fun x => (written x).meaning) = fun x => pure (meant x) := funext hitem
    rw [hpure]
    exact List.mapM_pure
  simp [Json.eachAt?, hreport, meaning, Json.items?, Function.comp_def, hitems]

end JsonValue

end ThemeLint
