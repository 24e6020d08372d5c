import ThemeLint.Proofs.ThemeVariable.Assignment

namespace ThemeLint.ThemeVariable

open Bytes

-- A string between two equal quotes, the second of which is the nearest.
def IsQuoted (found : Bytes) : Prop :=
  ∃ quote body, found = quote :: body ++ [quote] ∧ isQuote quote = true ∧ quote ∉ body

def QuotedAt (text : Bytes) : Match → Prop := Match.Stands (fun _ found _ => IsQuoted found) text

-- A reference as far as no byte stops it: its start, a name, and whatever follows.
structure IsUnstopped (read : Bytes) : Prop where
  starts : ∃ name, ReferenceAt read 0 name
  not_isStop : ∀ b ∈ read, isStop b = false

-- A reference up to the first byte that stops it, or to the end of the text. A closing
-- parenthesis belongs to it, a quote stays behind.
inductive IsReference : Bytes → Bytes → Prop
  | closed {read after : Bytes} (h : IsUnstopped read) : IsReference (read ++ [byte ')']) after
  | stopped {read after : Bytes} (h : IsUnstopped read)
      (hstop : ∀ b ∈ after.head?, isQuote b = true) : IsReference read after

def ReferenceIn (text : Bytes) : Match → Prop :=
  Match.Stands (fun _ found after => IsReference found after) text

theorem quotedString_reads : quotedString.Reads fun _ found _ => IsQuoted found where
  eq_some_iff before rest length := by
    simp only [quotedString, quotedLength, Option.map_eq_some_iff, quotedBody?_eq_some]
    constructor
    · rintro ⟨body, ⟨quote, after, rfl, hquote, hnot⟩, rfl⟩
      exact ⟨quote :: body ++ [quote], after, by simp, ⟨quote, body, rfl, hquote, hnot⟩, by simp⟩
    · rintro ⟨_, after, rfl, ⟨quote, body, rfl, hquote, hnot⟩, rfl⟩
      exact ⟨body, ⟨quote, after, by simp, hquote, hnot⟩, by simp⟩
  ne_nil := by
    rintro before _ after ⟨quote, body, rfl, _⟩
    exact List.cons_ne_nil _ _

theorem IsUnstopped.ne_nil {read : Bytes} (h : IsUnstopped read) : read ≠ [] := by
  obtain ⟨name, href⟩ := h.starts
  rintro rfl
  have hlen := href.written.length_le
  simp at hlen

-- The name and what follows it are read in one run, since no byte of a name stops it.
theorem IsUnstopped.exists_rest {read : Bytes} (h : IsUnstopped read) (behind : Bytes) :
    ∃ rest, read = spelling rest ∧ nameAfter? (read ++ behind) = some (rest ++ behind) := by
  obtain ⟨name, hne, hname, tail, hread⟩ := h.starts
  rw [List.drop_zero] at hread
  obtain ⟨b, others, rfl⟩ := List.exists_cons_of_ne_nil hne
  refine ⟨b :: others ++ tail, by rw [← hread]; simp [spelling], nameAfter?_eq_some.mpr ⟨?_, ?_⟩⟩
  · rw [← hread]
    simp [spelling]
  · exact ⟨b, others ++ tail ++ behind, by simp, hname b (by simp)⟩

theorem isUnstopped_spelling {rest : Bytes} {b : UInt8} {tail : Bytes} (hrest : rest = b :: tail)
    (hb : isNameByte b = true) : IsUnstopped (spelling (rest.takeWhile (!isStop ·))) := by
  have hrun : rest.takeWhile (!isStop ·) = b :: tail.takeWhile (!isStop ·) := by
    rw [hrest, List.takeWhile_cons_of_pos (by simp [isStop_of_isNameByte hb])]
  have href : ReferenceAt (spelling (rest.takeWhile (!isStop ·))) 0 [b] := by
    refine ⟨by simp, by simpa using hb, ?_⟩
    rw [hrun]
    exact ⟨tail.takeWhile (!isStop ·), by simp [spelling]⟩
  refine ⟨⟨[b], href⟩, fun c hc => ?_⟩
  rcases List.mem_append.mp hc with hstart | hname
  · simpa using href.not_isStop c (List.mem_append_left _ hstart)
  · simpa using (cut (!isStop ·) rest).2.1 c hname

theorem referenceLength_iff {text : Bytes} {length : Nat} :
    referenceLength text = some length ↔
      ∃ read behind, text = read ++ behind ∧ IsUnstopped read ∧
        (∀ b ∈ behind.head?, isStop b = true) ∧
        length = read.length + if behind.head? == some (byte ')') then 1 else 0 := by
  rw [referenceLength_eq_some]
  constructor
  · rintro ⟨rest, hrest, rfl⟩
    obtain ⟨rfl, b, tail, hcons, hb⟩ := nameAfter?_eq_some.mp hrest
    obtain ⟨hcut, _, hstop⟩ := cut (!isStop ·) rest
    refine ⟨_, rest.dropWhile (!isStop ·), ?_, isUnstopped_spelling hcons hb, ?_, ?_⟩
    · rw [spelling, spelling, List.append_assoc, ← hcut]
    · simpa using hstop
    · rw [length_spelling]
  · rintro ⟨read, behind, rfl, hread, hstop, rfl⟩
    obtain ⟨rest, hspelling, hname⟩ := hread.exists_rest behind
    have hrun : (∀ b ∈ rest, (!isStop b) = true) ∧ ∀ b ∈ behind.head?, (!isStop b) = false := by
      constructor
      · intro b hb
        have hmem : b ∈ read := hspelling ▸ List.mem_append_right _ hb
        simp [hread.not_isStop b hmem]
      · intro b hb
        simp [hstop b hb]
    obtain ⟨htake, hdrop⟩ := eq_of_cut rfl hrun
    refine ⟨rest ++ behind, hname, ?_⟩
    rw [← htake, ← hdrop, hspelling, length_spelling]

theorem reference_reads : reference.Reads fun _ found after => IsReference found after where
  eq_some_iff before rest length := by
    rw [reference, referenceLength_iff]
    constructor
    · rintro ⟨read, behind, rfl, hread, hstop, rfl⟩
      by_cases hclosed : behind.head? = some (byte ')')
      · obtain ⟨after, rfl⟩ := List.head?_eq_some_iff.mp hclosed
        exact ⟨read ++ [byte ')'], after, by simp, .closed hread, by simp⟩
      · refine ⟨read, behind, rfl, .stopped hread fun b hb => ?_, by simp [hclosed]⟩
        have hne : b ≠ byte ')' := by
          rintro rfl
          exact hclosed hb
        simpa [isStop, hne] using hstop b hb
    · rintro ⟨_, after, rfl, hreference, rfl⟩
      cases hreference with
      | @closed read _ hread =>
          refine ⟨read, byte ')' :: after, by simp, hread, ?_, by simp⟩
          simp only [List.head?_cons, Option.mem_def, Option.some.injEq, forall_eq']
          decide
      | stopped hread hstop =>
          refine ⟨_, after, rfl, hread, fun b hb => by simp [isStop, hstop b hb], ?_⟩
          have hopen : after.head? ≠ some (byte ')') := by
            intro hclosed
            exact absurd (hstop _ hclosed) (by decide)
          simp [hopen]
  ne_nil := by
    intro before found after hreference
    cases hreference with
    | closed hread => simp
    | stopped hread => exact hread.ne_nil

theorem IsReference.not_isQuote {found after : Bytes} (h : IsReference found after) :
    ∀ b ∈ found, isQuote b = false := by
  have hfree : ∀ {read : Bytes}, IsUnstopped read → ∀ b ∈ read, isQuote b = false := by
    intro read hread b hb
    have hstop := hread.not_isStop b hb
    rw [isStop, Bool.or_eq_false_iff] at hstop
    exact hstop.2
  cases h with
  | closed hread =>
      intro b hb
      rcases List.mem_append.mp hb with hb | hb
      · exact hfree hread b hb
      · obtain rfl := List.mem_singleton.mp hb
        decide
  | stopped hread => exact hfree hread

-- A quote at the offset of a byte of a match would be one of its bytes, and no reference has
-- one. So references keep clear of both quotes of their string.
theorem ReferenceIn.between {string : Bytes} {m : Match} (hm : ReferenceIn string m)
    (hquoted : IsQuoted string) : 0 < m.start ∧ m.stop < string.length := by
  have hlies := reference_reads.liesIn hm
  have hlt := hlies.start_lt_stop
  have hle := hlies.stop_le
  obtain ⟨_, _, _, _, hreference⟩ := hm
  have hclear : ∀ offset quote, string[offset]? = some quote → isQuote quote = true →
      m.start ≤ offset → m.stop ≤ offset := by
    intro offset quote hbyte hquote hstart
    by_contra hstop
    rw [hlies.getElem? hstart (by omega)] at hbyte
    simp [hreference.not_isQuote quote (List.mem_of_getElem? hbyte)] at hquote
  obtain ⟨quote, body, rfl, hquote, _⟩ := hquoted
  have hfirst := hclear 0 quote rfl hquote
  have hlast := hclear (body.length + 1) quote (by simp) hquote
  have hlength : (quote :: body ++ [quote]).length = body.length + 2 := by simp
  omega

-- No covered range reaches into the string.
def IsApart (covered : List Span) (string : Match) : Prop :=
  ∀ c ∈ covered, ¬((string.start : Int) < c.stop ∧ c.start < string.stop)

instance (covered : List Span) : DecidablePred (IsApart covered) :=
  fun _ => inferInstanceAs (Decidable (∀ c ∈ covered, ¬_))

theorem any_overlaps_iff {covered : List Span} {string : Match} :
    covered.any string.span.overlaps = true ↔ ¬IsApart covered string := by
  simp [IsApart, Match.span, Span.overlaps]

theorem findInString_eq (text : Bytes) (covered : List Span) :
    findInString text covered =
      ((quotedString.findAll text).filter (IsApart covered ·)).flatMap fun string =>
        (reference.findAll string.text).map (·.shift string.start) := by
  rw [findInString]
  induction quotedString.findAll text with
  | nil => rfl
  | cons string strings ih =>
      rw [List.flatMap_cons, ih]
      by_cases hapart : IsApart covered string
      · have hkept : ¬covered.any string.span.overlaps = true :=
          fun hany => any_overlaps_iff.mp hany hapart
        simp [hkept, hapart]
      · have hdropped : covered.any string.span.overlaps = true := any_overlaps_iff.mpr hapart
        simp [hdropped, hapart]

theorem findInString_apart {text : Bytes} {m other : Match}
    (hm : m ∈ findInString text ((findInStyle text).map Match.span))
    (hother : other ∈ findInStyle text) : m.stop ≤ other.start ∨ other.stop ≤ m.start := by
  obtain ⟨string, _, hfree, inner, hinner, rfl⟩ := mem_findInString.mp hm
  have hapart := (Match.apart_iff string _).mp hfree other hother
  have hstop := Pattern.shift_stop_le_of_mem_findAll hinner
  have hstart : string.start ≤ (inner.shift string.start).start := by simp
  omega

-- Quoted strings are found as a chain, and so are the references in each of them. The strings
-- that no covered range reaches into give what is found, from left to right, and each
-- reference lies between the quotes of its string and outside all assignments to styles.
theorem findInString_exact (text : Bytes) (covered : List Span) :
    ∃ (strings : List Match) (references : Match → List Match),
      (∀ others, Match.Chain (QuotedAt text) 0 others ↔ others = strings) ∧
      (∀ string others, Match.Chain (ReferenceIn string.text) 0 others ↔
        others = references string) ∧
      findInString text covered = (strings.filter (IsApart covered ·)).flatMap (fun string =>
        (references string).map (·.shift string.start)) ∧
      (findInString text covered).Pairwise (fun a b => a.start < b.start ∧ a.stop ≤ b.start) ∧
      (∀ string ∈ strings, ∀ m ∈ (references string).map (·.shift string.start),
        string.start < m.start ∧ m.stop < string.stop) ∧
      ∀ m ∈ findInString text ((findInStyle text).map Match.span), ∀ other ∈ findInStyle text,
        m.stop ≤ other.start ∨ other.stop ≤ m.start := by
  refine ⟨quotedString.findAll text, fun string => reference.findAll string.text,
    fun others => ?_, fun string others => ?_, findInString_eq text covered, ?_, ?_,
    fun m hm other hother => findInString_apart hm hother⟩
  · exact quotedString_reads.findAll_eq_iff.symm.trans eq_comm
  · exact reference_reads.findAll_eq_iff.symm.trans eq_comm
  · refine (findInString_ordered text covered).imp_of_mem fun {a b} ha _ hle => ?_
    exact ⟨Nat.lt_of_lt_of_le (findInString_liesIn ha).start_lt_stop hle, hle⟩
  · intro string hstring m hm
    obtain ⟨inner, hinner, rfl⟩ := List.mem_map.mp hm
    obtain ⟨_, _, _, _, hquoted⟩ := quotedString_reads.stands_of_mem hstring
    have hbetween := ReferenceIn.between (reference_reads.stands_of_mem hinner) hquoted
    have hstop : string.stop = string.start + string.text.length := rfl
    rw [Match.shift_start, Match.shift_stop]
    omega

-- The apostrophe has no partner, the second string holds two references, and the third is
-- part of an assignment.
example : let text := utf8 "don't \"var(--a), var(--b, 'c')\" .style.x = `var(--d)`"
    findInString text ((findInStyle text).map Match.span) =
      [⟨utf8 "var(--a)", 7⟩, ⟨utf8 "var(--b, ", 17⟩] := by decide

end ThemeLint.ThemeVariable
