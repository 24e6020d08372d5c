import ThemeLint.Proofs.Yaml.Quoted

namespace ThemeLint.Yaml

open Bytes Utf8

variable {piece : Piece} {code before : Nat} {codes : List Nat}

-- A text that misleads no reader has no comment and no key in it, up to its end.
theorem isPlainRest_of_hasPair (hbreaks : ∀ code ∈ codes, isBreak code = false)
    (hkey : hasPair (· == 0x3A) isGap (before :: codes) = false)
    (hcomment : hasPair (fun a => isGap a || isBreak a || a == 0) (· == 0x23)
      (before :: codes) = false)
    (hlast : ∀ code ∈ (before :: codes).getLast?, isGap code = false ∧ code ≠ 0x3A) :
    isPlainRest before codes = true := by
  induction codes generalizing before with
  | nil =>
      obtain ⟨hgap, hcolon⟩ := hlast before rfl
      simp [isPlainRest, hgap, hcolon]
  | cons code codes ih =>
      obtain ⟨hbreak, hbreaks⟩ := List.forall_mem_cons.mp hbreaks
      have hrest := ih hbreaks (hasPair_tail hkey) (hasPair_tail hcomment) hlast
      have hnoKey : (before == 0x3A && isGap code) = false := (Bool.or_eq_false_iff.mp hkey).1
      have hnoComment : (isGap before && code == 0x23) = false := by
        have hpair := (Bool.or_eq_false_iff.mp hcomment).1
        cases hgap : isGap before with
        | false => rfl
        | true => simpa [hgap] using hpair
      simp [isPlainRest, hbreak, hnoKey, hnoComment, hrest]

theorem isIndicator_of_mark {mark : UInt8} (h : mark ∈ marks) : isIndicator mark.toNat = true := by
  have hmarks : (marks.all fun mark => isIndicator mark.toNat) = true := by decide
  exact List.all_eq_true.mp hmarks mark h

-- A list item or a key opens only in front of a space, or at the end.
theorem head?_of_opener {first : Nat} (hopens : openers.any (·.toNat == first) = true)
    (hitem : ((first == 0x2D || first == 0x3F) && codes.head?.all isGap) = false)
    (hkey : hasPair (· == 0x3A) isGap (first :: codes) = false)
    (hlast : ∀ code ∈ (first :: codes).getLast?, code ≠ 0x3A) :
    codes.head?.any (!isGap ·) = true := by
  have hcases : first = 0x2D ∨ first = 0x3F ∨ first = 0x3A := by
    have hopeners : (openers.all fun opener => decide
        (opener.toNat = 0x2D ∨ opener.toNat = 0x3F ∨ opener.toNat = 0x3A)) = true := by
      decide
    obtain ⟨opener, hopener, heq⟩ := List.any_eq_true.mp hopens
    rw [← eq_of_beq heq]
    exact of_decide_eq_true (List.all_eq_true.mp hopeners opener hopener)
  cases codes with
  | nil =>
      have hcolon := hlast first rfl
      rcases hcases with rfl | rfl | rfl
      · simp at hitem
      · simp at hitem
      · exact absurd rfl hcolon
  | cons next codes =>
      have hgap := (Bool.or_eq_false_iff.mp hkey).1
      rcases hcases with rfl | rfl | rfl
      · simpa using hitem
      · simpa using hitem
      · simpa using hgap

theorem isPlain_of_shape {first : Nat} (hclear : ∀ code ∈ first :: codes, isClear code = true)
    (hbounds : (Shape.of (first :: codes)).bounds = false)
    (hmisleads : misleads (first :: codes) = false) : isPlain (first :: codes) = true := by
  simp only [Shape.of, Bool.or_eq_false_iff, List.any_eq_false, Bool.not_eq_true] at hbounds
  obtain ⟨⟨hspace, hspaceAtEnd⟩, hbreaks⟩ := hbounds
  obtain ⟨hbreak, hbreaks⟩ := List.forall_mem_cons.mp hbreaks
  simp only [misleads, Bool.or_eq_false_iff] at hmisleads
  obtain ⟨⟨⟨⟨-, hindicator, hitem⟩, hcolonAtEnd⟩, hkey⟩, hcomment⟩ := hmisleads
  have hgap : isGap first = false := by
    rw [isGap_of_isClear (hclear first (by simp))]
    exact hspace
  have hmark : marks.any (·.toNat == first) = false := by
    rw [List.any_eq_false]
    intro mark hmark heq
    rw [← eq_of_beq heq, isIndicator_of_mark hmark] at hindicator
    simp at hindicator
  have hlast : ∀ code ∈ (first :: codes).getLast?, isGap code = false ∧ code ≠ 0x3A := by
    intro code hcode
    rw [isGap_of_isClear (hclear code (List.mem_of_getLast? hcode))]
    rw [Option.mem_def.mp hcode] at hspaceAtEnd hcolonAtEnd
    simpa using And.intro hspaceAtEnd hcolonAtEnd
  have hrest := isPlainRest_of_hasPair hbreaks hkey hcomment hlast
  cases hopens : openers.any (·.toNat == first) with
  | false => simp [isPlain, hgap, hbreak, hmark, hopens, hrest]
  | true =>
      have hnext := head?_of_opener hopens hitem hkey fun code hcode => (hlast code hcode).2
      simp [isPlain, hgap, hbreak, hmark, hopens, hnext, hrest]

theorem isPlain_mark {mark : UInt8} (h : mark ∈ marks) (codes : List Nat) :
    isPlain (mark.toNat :: codes) = false := by
  have hmark : marks.any (·.toNat == mark.toNat) = true :=
    List.any_eq_true.mpr ⟨mark, h, beq_self_eq_true _⟩
  simp [isPlain, hmark]

theorem text?_of_isPlain {text : Bytes} (hplain : isPlain ((pieces text).map codeOf) = true)
    (hother : isOtherType text = false) : text? text = some text := by
  cases text with
  | nil => simp [isPlain] at hplain
  | cons b rest =>
      have hfirst : ∀ mark ∈ marks, mark < 0x80 → b ≠ mark := by
        rintro mark hmark hascii rfl
        have hpieces := pieces_append (Piece.isCharacter_ascii hascii) rest
        rw [Piece.text, List.singleton_append] at hpieces
        rw [hpieces, List.map_cons, codeOf_char, isPlain_mark hmark] at hplain
        simp at hplain
      have hdouble := hfirst 0x22 (by decide) (by decide)
      have hsingle := hfirst 0x27 (by decide) (by decide)
      simp [text?, hdouble, hsingle, hplain, hother]

-- On one line a text is written between double quotes, unless its characters allow others.
theorem style_cases (text : Bytes) {shape : Shape} (hlines : shape.lines = false) :
    ScalarStyle.of text shape = .double ∨
    (shape.special = false ∧ shape.tabs = false ∧ shape.spaceBreak = false ∧
      shape.breakSpace = false) ∧
      (ScalarStyle.of text shape = .single ∨ ScalarStyle.of text shape = .plain ∧
        isOtherType text = false ∧ shape.bounds = false ∧ shape.misleads = false) := by
  simp only [ScalarStyle.of, hlines, Bool.false_eq_true, if_false]
  by_cases hother : isOtherType text = true
  · exact .inl (if_pos hother)
  rw [if_neg hother]
  split
  · exact .inl rfl
  rename_i hquotable
  refine .inr ⟨by simpa [and_assoc] using hquotable, ?_⟩
  split
  · exact .inl rfl
  · rename_i hplain
    rw [Bool.or_eq_true, not_or, Bool.not_eq_true, Bool.not_eq_true] at hplain
    exact .inr ⟨rfl, by simpa using hother, hplain⟩

theorem isQuotable_of_shape (hlines : ∀ code ∈ codes, code ≠ 0x0A)
    (h : (Shape.of codes).special = false ∧ (Shape.of codes).tabs = false ∧
      (Shape.of codes).spaceBreak = false ∧ (Shape.of codes).breakSpace = false) :
    IsQuotable codes where
  clear := by
    intro code hcode
    obtain ⟨hspecial, htabs, -, -⟩ := h
    simp only [Shape.of, List.any_eq_false, List.contains_eq_mem, decide_eq_false_iff_not]
      at hspecial htabs
    have htab : code ≠ 0x09 := fun heq => htabs (heq ▸ hcode)
    have hclear := hspecial code hcode
    exact ⟨by simpa [htab] using hclear, hlines code hcode⟩
  spaceBreak := h.2.2.1
  breakSpace := h.2.2.2

-- Text in UTF-8 that stays on one line.
def IsLine (text : Bytes) : Prop := valid text = true ∧ lf ∉ text

variable {text : Bytes}

theorem lf_notMem_text (h : lf ∉ text) (hpiece : piece ∈ pieces text) :
    lf ∉ piece.text := by
  intro hmem
  apply h
  rw [← flatMap_text_pieces text, List.mem_flatMap]
  exact ⟨piece, hpiece, hmem⟩

theorem ne_lf_of_mem_codes (h : IsLine text) (hcode : code ∈ (pieces text).map codeOf) :
    code ≠ 0x0A := by
  rintro rfl
  obtain ⟨piece, hpiece, heq⟩ := List.mem_map.mp hcode
  obtain ⟨code, rfl, -⟩ := (isCharacter_of_valid h.1 piece hpiece).exists_code
  obtain rfl : code = 0x0A := heq
  exact lf_notMem_text h.2 hpiece (List.mem_singleton.mpr rfl)

-- The empty text would be read as a null, so that a string has a first character.
theorem codes_ne_nil (hother : isOtherType text = false) : (pieces text).map codeOf ≠ [] := by
  intro hnil
  have hempty : text = [] := by
    rw [← flatMap_text_pieces text, List.map_eq_nil_iff.mp hnil, List.flatMap_nil]
  rw [hempty] at hother
  exact absurd hother (by decide)

theorem scalar_cases (h : IsLine text) (indent : Nat) :
    (scalar indent text = (text, false) ∧ isOtherType text = false ∧
      isPlain ((pieces text).map codeOf) = true) ∨
    (scalar indent text = (singleQuoted indent (pieces text), false) ∧
      IsQuotable ((pieces text).map codeOf)) ∨
    scalar indent text = (doubleQuoted (pieces text), false) := by
  have hcodes : ∀ code ∈ (pieces text).map codeOf, code ≠ 0x0A :=
    fun code hcode => ne_lf_of_mem_codes h hcode
  have hlines : (Shape.of ((pieces text).map codeOf)).lines = false := by
    simpa only [Shape.of, List.contains_eq_mem, decide_eq_false_iff_not] using
      fun hmem => hcodes _ hmem rfl
  rw [scalar, if_pos h.1, textScalar]
  rcases style_cases text hlines with
    hstyle | ⟨hshape, hstyle | ⟨hstyle, hother, hbounds, hmisleads⟩⟩
  · refine .inr (.inr ?_)
    simp only [hstyle]
  · refine .inr (.inl ⟨?_, isQuotable_of_shape hcodes hshape⟩)
    simp only [hstyle]
  · refine .inl ⟨?_, hother, ?_⟩
    · simp only [hstyle]
    · have hclear : ∀ code ∈ (pieces text).map codeOf, isClear code = true :=
        fun code hcode => ((isQuotable_of_shape hcodes hshape).clear code hcode).1
      obtain ⟨first, others, hcons⟩ := List.exists_cons_of_ne_nil (codes_ne_nil hother)
      rw [hcons] at hclear hbounds hmisleads ⊢
      exact isPlain_of_shape hclear hbounds hmisleads

theorem scalar_oneLine (h : IsLine text) (indent : Nat) :
    (scalar indent text).2 = false ∧ lf ∉ (scalar indent text).1 := by
  have hpieces := isCharacter_of_valid h.1
  have htexts : ∀ piece ∈ pieces text, lf ∉ piece.text := fun _ => lf_notMem_text h.2
  rcases scalar_cases h indent with ⟨hscalar, -⟩ | ⟨hscalar, -⟩ | hscalar
  · rw [hscalar]
    exact ⟨rfl, h.2⟩
  · rw [hscalar]
    exact ⟨rfl, lf_notMem_singleQuoted indent htexts⟩
  · rw [hscalar]
    exact ⟨rfl, lf_notMem_doubleQuoted hpieces htexts⟩

-- A text on one line is read as it was written, in whatever style.
theorem text?_scalar (h : IsLine text) (indent : Nat) :
    text? (scalar indent text).1 = some text := by
  have hpieces := isCharacter_of_valid h.1
  rcases scalar_cases h indent with
    ⟨hscalar, hother, hplain⟩ | ⟨hscalar, hcodes⟩ | hscalar
  · rw [hscalar]
    exact text?_of_isPlain hplain hother
  · rw [hscalar, text?_singleQuoted indent hpieces hcodes, flatMap_text_pieces]
  · rw [hscalar, text?_doubleQuoted hpieces, flatMap_text_pieces]

theorem integer?_ofInt (n : Int) : integer? (ofInt n) = some n := by
  cases n with
  | ofNat n =>
      cases hdigits : ofNat n with
      | nil => exact absurd hdigits (ofNat_ne_nil n)
      | cons first others =>
          have hfirst : first ≠ byte '-' := by
            rintro rfl
            have hdigit := isDigit_ofNat n (byte '-') (by simp [hdigits])
            exact absurd hdigit (by decide)
          have hread := Numeral.natOf?_ofNat n
          rw [hdigits] at hread
          simp [ofInt, hdigits, integer?, hfirst, hread]
  | negSucc n =>
      have hread := Numeral.natOf?_ofNat (n + 1)
      simp only [ofInt, integer?, beq_self_eq_true, if_true, hread]
      rfl

end ThemeLint.Yaml
