import ThemeLint.Proofs.Bytes.Numeral
import ThemeLint.Proofs.Bytes.Utf8
import ThemeLint.Proofs.Yaml.Reader

namespace ThemeLint.Yaml

open Bytes Utf8

variable {piece : Piece} {characters : List Piece} {code : Nat}

@[simp] theorem codeOf_char (code : Nat) (text : Bytes) : codeOf (.char code text) = code := rfl

-- A digit of an escape is a letter or digit of ASCII that has the value of the digit.
theorem digit?_upper : ∀ n, n < 16 → Numeral.digit? (toUpper (hexDigit n)) = some n := by decide

theorem upper_bounds :
    ∀ n, n < 16 → toUpper (hexDigit n) < 0x80 ∧ toUpper (hexDigit n) ≠ lf := by decide

theorem upperHex_bounds {width n : Nat} {b : UInt8} (h : b ∈ (hex width n).map toUpper) :
    b < 0x80 ∧ b ≠ lf := by
  obtain ⟨digit, hdigit, rfl⟩ := List.mem_map.mp h
  obtain ⟨d, hd, rfl⟩ := mem_hex hdigit
  exact upper_bounds d hd

theorem escapeLetter?_eq_some {letter : UInt8} (h : escapeLetter? code = some letter) :
    letter < 0x80 ∧ letter ≠ lf ∧ numbers.lookup letter.toNat = none ∧
      letters.lookup letter.toNat = some code := by
  have hletters : ∀ code ∈ letters.map Prod.snd, (escapeLetter? code).all (fun letter =>
      decide (letter < 0x80 ∧ letter ≠ lf ∧ numbers.lookup letter.toNat = none ∧
        letters.lookup letter.toNat = some code)) = true := by
    decide
  by_cases hcode : code ∈ letters.map Prod.snd
  · have hletter := hletters code hcode
    rw [h] at hletter
    exact of_decide_eq_true hletter
  · have hnone : escapeLetter? code = none := by
      simp only [letters, List.map_cons, List.map_nil, List.mem_cons, List.not_mem_nil, or_false,
        not_or] at hcode
      simp [escapeLetter?, hcode]
    simp [hnone] at h

-- A character is escaped by a letter, or by a letter and its number in as many digits as the
-- letter says.
theorem escape_cases (hcode : code < 0x200000) :
    (∃ letter, escape code = [0x5C, letter] ∧ letter < 0x80 ∧ letter ≠ lf ∧
      numbers.lookup letter.toNat = none ∧ letters.lookup letter.toNat = some code) ∨
    ∃ letter width, escape code = 0x5C :: letter :: (hex (width + 1) code).map toUpper ∧
      letter < 0x80 ∧ letter ≠ lf ∧ numbers.lookup letter.toNat = some (width + 1) ∧
      code < Nat.pow 16 (width + 1) := by
  cases hletter : escapeLetter? code with
  | some letter =>
      refine .inl ⟨letter, ?_, escapeLetter?_eq_some hletter⟩
      simp only [escape, hletter]
      rfl
  | none =>
      simp only [escape, hletter]
      by_cases hbyte : code ≤ 0xFF
      · have hlt : code < Nat.pow 16 (1 + 1) := Nat.lt_succ_of_le hbyte
        rw [if_pos hbyte]
        exact .inr ⟨byte 'x', 1, rfl, by decide, by decide, by decide, hlt⟩
      by_cases hunit : code ≤ 0xFFFF
      · have hlt : code < Nat.pow 16 (3 + 1) := Nat.lt_succ_of_le hunit
        rw [if_neg hbyte, if_pos hunit]
        exact .inr ⟨byte 'u', 3, rfl, by decide, by decide, by decide, hlt⟩
      · have hlt : code < Nat.pow 16 (7 + 1) := Nat.lt_trans hcode (by decide)
        rw [if_neg hbyte, if_neg hunit]
        exact .inr ⟨byte 'U', 7, rfl, by decide, by decide, by decide, hlt⟩

-- One step of reading between double quotes, by what stands there.
theorem double?_cons (hquote : codeOf piece ≠ 0x22) (hescape : codeOf piece ≠ 0x5C)
    (hbreak : isBreak (codeOf piece) = false) (rest : List Piece) :
    double? (piece :: rest) = (double? rest).map (piece.text ++ ·) := by
  rw [double?.eq_def]
  simp [hquote, hescape, hbreak]

theorem double?_letter {backslash letter : Piece} (hbackslash : codeOf backslash = 0x5C)
    (hnumber : numbers.lookup (codeOf letter) = none)
    (hletter : letters.lookup (codeOf letter) = some code) (rest : List Piece) :
    double? (backslash :: letter :: rest) = (double? rest).map (encode code ++ ·) := by
  rw [double?.eq_def]
  simp [hbackslash, hnumber, hletter, isBreak]

theorem double?_number {backslash letter : Piece} {digits : List Piece}
    (hbackslash : codeOf backslash = 0x5C)
    (hnumber : numbers.lookup (codeOf letter) = some digits.length)
    (hdigits : Numeral.natOf? 16 (digits.flatMap Piece.text) = some code) (rest : List Piece) :
    double? (backslash :: letter :: (digits ++ rest)) = (double? rest).map (encode code ++ ·) := by
  rw [double?.eq_def]
  simp [hbackslash, hnumber, hdigits, isBreak]

theorem double?_escape (hcode : code < 0x200000) (rest : Bytes) :
    double? (pieces (escape code ++ rest)) =
      (double? (pieces rest)).map (encode code ++ ·) := by
  rcases escape_cases hcode with ⟨letter, hescape, hascii, -, hnumber, hletter⟩ |
    ⟨letter, width, hescape, hascii, -, hnumber, hlt⟩
  · have hbytes : ∀ b ∈ [0x5C, letter], b < 0x80 := by simp [hascii]
    rw [hescape, pieces_append_ascii hbytes]
    apply double?_letter rfl
    · exact hnumber
    · exact hletter
  · have hbytes : ∀ b ∈ 0x5C :: letter :: (hex (width + 1) code).map toUpper, b < 0x80 := by
      refine List.forall_mem_cons.mpr ⟨by decide, List.forall_mem_cons.mpr ⟨hascii, ?_⟩⟩
      exact fun b hb => (upperHex_bounds hb).1
    have hdigits : Numeral.natOf? 16 ((hex (width + 1) code).map toUpper) = some code := by
      rw [Numeral.natOf?_map_hex digit?_upper, Nat.mod_eq_of_lt hlt]
    rw [hescape, pieces_append_ascii hbytes, List.map_cons, List.map_cons, List.cons_append,
      List.cons_append]
    apply double?_number rfl
    · rw [List.length_map, List.length_map, length_hex]
      exact hnumber
    · rw [List.flatMap_map]
      simpa [Piece.text] using hdigits

-- A character that needs no escape is no quote, backslash or break.
theorem needsEscape_eq_false (h : needsEscape code = false) :
    code ≠ 0x22 ∧ code ≠ 0x5C ∧ isBreak code = false := by
  simp only [needsEscape, Bool.or_eq_false_iff, beq_eq_false_iff_ne] at h
  exact ⟨h.1.2, h.2, h.1.1.2⟩

theorem double?_escapePiece (all : Bool) (h : piece.IsCharacter) (rest : Bytes) :
    double? (pieces (escapePiece all piece ++ rest)) =
      (double? (pieces rest)).map (piece.text ++ ·) := by
  obtain ⟨code, rfl, hcode⟩ := h.exists_code
  rw [escapePiece]
  split
  · exact double?_escape hcode rest
  · rename_i hkept
    simp only [Bool.or_eq_true, not_or, Bool.not_eq_true] at hkept
    obtain ⟨hquote, hbackslash, hbreak⟩ := needsEscape_eq_false hkept.2
    have hpieces := pieces_append h rest
    rw [Piece.text] at hpieces
    rw [hpieces]
    apply double?_cons
    · exact hquote
    · exact hbackslash
    · exact hbreak

theorem double?_escaped (all : Bool) (h : ∀ piece ∈ characters, piece.IsCharacter) :
    double? (pieces (characters.flatMap (escapePiece all) ++ [0x22])) =
      some (characters.flatMap Piece.text) := by
  induction characters with
  | nil =>
      rw [double?.eq_def]
      rfl
  | cons piece characters ih =>
      obtain ⟨hpiece, hpieces⟩ := List.forall_mem_cons.mp h
      rw [List.flatMap_cons, List.append_assoc, double?_escapePiece all hpiece, ih hpieces,
        Option.map_some, List.flatMap_cons]

theorem text?_doubleQuoted (h : ∀ piece ∈ characters, piece.IsCharacter) :
    text? (doubleQuoted characters) = some (characters.flatMap Piece.text) := by
  rw [doubleQuoted, List.append_assoc]
  exact double?_escaped _ h

theorem lf_notMem_escape (hcode : code < 0x200000) : lf ∉ escape code := by
  rcases escape_cases hcode with ⟨letter, hescape, -, hletter, -⟩ |
    ⟨letter, width, hescape, -, hletter, -⟩
  · rw [hescape]
    simpa using And.intro (by decide) hletter.symm
  · rw [hescape]
    apply List.not_mem_cons_of_ne_of_not_mem (by decide)
    apply List.not_mem_cons_of_ne_of_not_mem hletter.symm
    exact fun hmem => (upperHex_bounds hmem).2 rfl

theorem lf_notMem_doubleQuoted (h : ∀ piece ∈ characters, piece.IsCharacter)
    (hline : ∀ piece ∈ characters, lf ∉ piece.text) : lf ∉ doubleQuoted characters := by
  have hpieces : ∀ all, ∀ piece ∈ characters, lf ∉ escapePiece all piece := by
    intro all piece hpiece
    have htext := hline piece hpiece
    obtain ⟨code, rfl, hcode⟩ := (h piece hpiece).exists_code
    rw [escapePiece]
    split
    · exact lf_notMem_escape hcode
    · exact htext
  have hquote : lf ∉ [0x22] := by decide
  simp only [doubleQuoted, List.mem_append, List.mem_flatMap, hquote, false_or, or_false]
  rintro ⟨piece, hpiece, hmem⟩
  exact hpieces _ piece hpiece hmem

section

variable {first second : Nat → Bool} {codes : List Nat}

theorem hasPair_tail (h : hasPair first second (code :: codes) = false) :
    hasPair first second codes = false := by
  cases codes with
  | nil => rfl
  | cons next codes => exact (Bool.or_eq_false_iff.mp h).2

theorem hasPair_cons (hcode : first code = false) (h : hasPair first second codes = false) :
    hasPair first second (code :: codes) = false := by
  cases codes with
  | nil => rfl
  | cons next codes => simp [hasPair, hcode, h]

end

-- Characters that may stand between single quotes, or without quotes, if they stand on one
-- line: no tab is among them, and no space is next to a break.
structure IsQuotable (codes : List Nat) : Prop where
  clear : ∀ code ∈ codes, isClear code = true ∧ code ≠ 0x0A
  spaceBreak : hasPair isSpace isBreak codes = false
  breakSpace : hasPair isBreak isSpace codes = false

theorem isGap_of_isClear (h : isClear code = true) : isGap code = isSpace code := by
  have htab : code ≠ 0x09 := by
    rintro rfl
    simp [isClear, isOrderMark] at h
  simp [isGap, isSpace, htab]

theorem isSeparator_of_isBreak (hclear : isClear code = true ∧ code ≠ 0x0A)
    (hbreak : isBreak code = true) : isSeparator code = true := by
  simp only [isBreak, Bool.or_eq_true, beq_iff_eq, or_assoc] at hbreak
  rcases hbreak with rfl | rfl | rfl | rfl | rfl
  · exact absurd rfl hclear.2
  · simp [isClear, isOrderMark] at hclear
  · simp [isClear, isOrderMark] at hclear
  · rfl
  · rfl

namespace IsQuotable

variable {before : Nat} {codes : List Nat}

theorem tail (h : IsQuotable (before :: codes)) : IsQuotable codes where
  clear := (List.forall_mem_cons.mp h.clear).2
  spaceBreak := hasPair_tail h.spaceBreak
  breakSpace := hasPair_tail h.breakSpace

theorem quote_cons (h : IsQuotable codes) : IsQuotable (0x27 :: codes) where
  clear := List.forall_mem_cons.mpr ⟨by decide, h.clear⟩
  spaceBreak := hasPair_cons rfl h.spaceBreak
  breakSpace := hasPair_cons rfl h.breakSpace

theorem isGap_before (h : IsQuotable (before :: code :: codes)) (hbreak : isBreak code = true) :
    isGap before = false := by
  have hpair := (Bool.or_eq_false_iff.mp h.spaceBreak).1
  rw [isGap_of_isClear (h.clear before (by simp)).1]
  simpa [hbreak] using hpair

theorem isGap_behind (h : IsQuotable (before :: code :: codes)) (hbreak : isBreak before = true) :
    isGap code = false := by
  have hpair := (Bool.or_eq_false_iff.mp h.breakSpace).1
  rw [isGap_of_isClear (h.clear code (by simp)).1]
  simpa [hbreak] using hpair

end IsQuotable

def singlePiece (indent : Nat) (broken : Bool) (piece : Piece) : Bytes :=
  (if broken && !isBreak (codeOf piece) then padding indent else []) ++
    (if codeOf piece == 0x27 then [0x27] else []) ++ piece.text

theorem singleBody_cons (indent : Nat) (broken : Bool) (piece : Piece) (rest : List Piece) :
    singleBody indent broken (piece :: rest) =
      singlePiece indent broken piece ++ singleBody indent (isBreak (codeOf piece)) rest := by
  rw [singleBody, singlePiece]
  cases hbreak : isBreak (codeOf piece) with
  | false => simp
  | true =>
      have hquote : codeOf piece ≠ 0x27 := by
        intro hquote
        simp [hquote, isBreak] at hbreak
      simp [hquote]

variable {before : Nat}

theorem single?_padding (hbreak : isBreak before = true) (indent : Nat) (rest : Bytes) :
    single? before (pieces (padding indent ++ rest)) = single? before (pieces rest) := by
  have hascii : ∀ b ∈ padding indent, b < 0x80 := by
    intro b hb
    rw [List.eq_of_mem_replicate hb]
    decide
  rw [pieces_append_ascii hascii, padding, List.map_replicate]
  clear hascii
  induction indent with
  | zero => rfl
  | succ indent ih =>
      rw [List.replicate_succ, List.cons_append, single?.eq_def]
      simpa [hbreak, isGap, space] using ih

-- One step of reading between single quotes, by what stands there.
theorem single?_cons (hbehind : isBreak before = true → isGap (codeOf piece) = false)
    (hbreak : isBreak (codeOf piece) = true →
      isGap before = false ∧ isSeparator (codeOf piece) = true)
    (hquote : codeOf piece ≠ 0x27) (rest : List Piece) :
    single? before (piece :: rest) = (single? (codeOf piece) rest).map (piece.text ++ ·) := by
  have hskip : (isBreak before && isGap (codeOf piece)) = false := by
    cases hbefore : isBreak before with
    | false => rfl
    | true => simp [hbehind hbefore]
  have hlost :
      (isBreak (codeOf piece) && (isGap before || !isSeparator (codeOf piece))) = false := by
    cases hcode : isBreak (codeOf piece) with
    | false => rfl
    | true => simp [hbreak hcode]
  rw [single?.eq_def]
  simp [hskip, hlost, hquote]

theorem single?_quotes (before : Nat) (rest : Bytes) :
    single? before (pieces (0x27 :: 0x27 :: rest)) =
      (single? 0x27 (pieces rest)).map (0x27 :: ·) := by
  have hascii : ∀ b ∈ ([0x27, 0x27] : Bytes), b < 0x80 :=
    List.forall_mem_cons.mpr ⟨by decide, List.forall_mem_singleton.mpr (by decide)⟩
  have hquotes := pieces_append_ascii hascii rest
  rw [List.cons_append, List.singleton_append] at hquotes
  rw [hquotes, single?.eq_def]
  simp [isGap, isBreak]

theorem single?_end (before : Nat) : single? before (pieces [0x27]) = some [] := by
  have hquote : pieces [0x27] = [.char 0x27 [0x27]] := rfl
  rw [hquote, single?.eq_def]
  simp [isGap, isBreak]

theorem single?_singlePiece {codes : List Nat} (indent : Nat) (h : piece.IsCharacter)
    (hcodes : IsQuotable (before :: codeOf piece :: codes)) (rest : Bytes) :
    single? before (pieces (singlePiece indent (isBreak before) piece ++ rest)) =
      (single? (codeOf piece) (pieces rest)).map (piece.text ++ ·) := by
  have hpadding : ∀ rest, single? before (pieces
      ((if isBreak before && !isBreak (codeOf piece) then padding indent else []) ++ rest)) =
        single? before (pieces rest) := by
    intro rest
    split
    · rename_i hbroken
      exact single?_padding (Bool.and_eq_true_iff.mp hbroken).1 indent rest
    · rfl
  rw [singlePiece, List.append_assoc, List.append_assoc, hpadding]
  by_cases hquote : codeOf piece = 0x27
  · obtain ⟨code, rfl, -⟩ := h.exists_code
    obtain rfl : code = 0x27 := hquote
    exact single?_quotes before rest
  · rw [if_neg (by simpa using hquote), List.nil_append, pieces_append h]
    apply single?_cons hcodes.isGap_behind ?_ hquote
    intro hbreak
    have hclear := hcodes.clear (codeOf piece) (by simp)
    exact ⟨hcodes.isGap_before hbreak, isSeparator_of_isBreak hclear hbreak⟩

theorem single?_singleBody (indent : Nat) (h : ∀ piece ∈ characters, piece.IsCharacter)
    (hcodes : IsQuotable (before :: characters.map codeOf)) :
    single? before (pieces (singleBody indent (isBreak before) characters ++ [0x27])) =
      some (characters.flatMap Piece.text) := by
  induction characters generalizing before with
  | nil => exact single?_end before
  | cons piece characters ih =>
      obtain ⟨hpiece, hpieces⟩ := List.forall_mem_cons.mp h
      rw [singleBody_cons, List.append_assoc, single?_singlePiece indent hpiece hcodes,
        ih hpieces hcodes.tail, Option.map_some, List.flatMap_cons]

theorem text?_singleQuoted (indent : Nat) (h : ∀ piece ∈ characters, piece.IsCharacter)
    (hcodes : IsQuotable (characters.map codeOf)) :
    text? (singleQuoted indent characters) = some (characters.flatMap Piece.text) := by
  rw [singleQuoted, List.append_assoc]
  exact single?_singleBody indent h hcodes.quote_cons

theorem lf_notMem_singleBody (indent : Nat) (broken : Bool)
    (hline : ∀ piece ∈ characters, lf ∉ piece.text) : lf ∉ singleBody indent broken characters := by
  have hpadding : lf ∉ padding indent := by
    intro hmem
    exact absurd (List.eq_of_mem_replicate hmem) (by decide)
  induction characters generalizing broken with
  | nil => exact List.not_mem_nil
  | cons piece characters ih =>
      obtain ⟨hpiece, hpieces⟩ := List.forall_mem_cons.mp hline
      have hrest := ih (isBreak (codeOf piece)) hpieces
      have hwritten : lf ∉ singlePiece indent broken piece := by
        have hquote : lf ≠ 0x27 := by decide
        rw [singlePiece]
        split <;> split <;> simp [hpadding, hquote, hpiece]
      rw [singleBody_cons, List.mem_append]
      exact not_or.mpr ⟨hwritten, hrest⟩

theorem lf_notMem_singleQuoted (indent : Nat) (hline : ∀ piece ∈ characters, lf ∉ piece.text) :
    lf ∉ singleQuoted indent characters := by
  have hbody := lf_notMem_singleBody indent false hline
  have hquote : lf ≠ 0x27 := by decide
  simp [singleQuoted, hbody, hquote]

end ThemeLint.Yaml
