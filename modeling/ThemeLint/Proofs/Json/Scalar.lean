import ThemeLint.Proofs.Bytes.Numeral
import ThemeLint.Proofs.Bytes.Utf8
import ThemeLint.Proofs.Json.Reader
import ThemeLint.Report.JsonValue

namespace ThemeLint

open Bytes

namespace Json

-- A part that is no first half of a pair is spelled by itself.
def Part.IsWhole (part : Part) : Prop := ∀ next, pair? part next = none

theorem Part.isWhole_plain (b : UInt8) : (Part.plain b).IsWhole := fun _ => rfl

theorem Part.isWhole_unit {code : Nat} (h : Utf8.isScalar code = true) : (Part.unit code).IsWhole := by
  intro next
  cases next with
  | plain b => rfl
  | unit low =>
      have hscalar : code < 0xD800 ∨ 0xE000 ≤ code ∧ code < 0x110000 := by
        simpa [Utf8.isScalar] using h
      have hhalf : ¬(0xD800 ≤ code ∧ code < 0xDC00) := by omega
      simp only [pair?, Bool.and_eq_true, decide_eq_true_eq]
      rw [if_neg]
      rintro ⟨⟨hhigh, -⟩, -⟩
      exact hhalf hhigh

theorem spell_cons {part : Part} (h : part.IsWhole) (rest : List Part) :
    spell (part :: rest) = spellPart part ++ spell rest := by
  cases rest with
  | nil => simp [spell]
  | cons next rest => simp [spell, h next]

theorem spell_append {parts : List Part} (h : ∀ part ∈ parts, part.IsWhole) (rest : List Part) :
    spell (parts ++ rest) = spell parts ++ spell rest := by
  induction parts with
  | nil => rfl
  | cons part parts ih =>
      obtain ⟨hpart, hparts⟩ := List.forall_mem_cons.mp h
      rw [List.cons_append, spell_cons hpart, spell_cons hpart, ih hparts, List.append_assoc]

-- Inside a string, these bytes are read as those, whatever follows.
def Stands (written meant : Bytes) : Prop :=
  ∃ parts : List Part, (∀ part ∈ parts, part.IsWhole) ∧ spell parts = meant ∧
    ∀ rest, parts? (written ++ rest) =
      (parts? rest).map fun (more, rest) => (parts ++ more, rest)

theorem Stands.nil : Stands [] [] := ⟨[], by simp, rfl, fun rest => by simp⟩

theorem Stands.append {written meant written' meant' : Bytes} (h : Stands written meant)
    (h' : Stands written' meant') : Stands (written ++ written') (meant ++ meant') := by
  obtain ⟨parts, hwhole, rfl, hread⟩ := h
  obtain ⟨parts', hwhole', rfl, hread'⟩ := h'
  refine ⟨parts ++ parts', List.forall_mem_append.mpr ⟨hwhole, hwhole'⟩, spell_append hwhole _,
    fun rest => ?_⟩
  rw [List.append_assoc, hread, hread']
  cases parts? rest with
  | none => rfl
  | some found => simp

theorem Stands.flatMap {α : Type} {written meant : α → Bytes} {pieces : List α}
    (h : ∀ piece ∈ pieces, Stands (written piece) (meant piece)) :
    Stands (pieces.flatMap written) (pieces.flatMap meant) := by
  induction pieces with
  | nil => exact .nil
  | cons piece pieces ih =>
      obtain ⟨hpiece, hpieces⟩ := List.forall_mem_cons.mp h
      exact hpiece.append (ih hpieces)

-- One step of reading a string, by what it starts with.
theorem parts?_byte {b : UInt8} (hquote : b ≠ 0x22) (hcontrol : ¬b < 0x20) (hescape : b ≠ 0x5C)
    (rest : Bytes) : parts? (b :: rest) = (parts? rest).map (prepend (.plain b)) := by
  rw [parts?.eq_def]
  simp [hquote, hcontrol, hescape]

theorem parts?_letter {letter meant : UInt8} (hunit : letter ≠ byte 'u')
    (h : letters.lookup letter = some meant) (rest : Bytes) :
    parts? (0x5C :: letter :: rest) = (parts? rest).map (prepend (.plain meant)) := by
  rw [parts?.eq_def]
  simp [hunit, h]

theorem parts?_unit {h₁ h₂ h₃ h₄ : UInt8} {code : Nat}
    (h : Numeral.natOf? 16 [h₁, h₂, h₃, h₄] = some code) (rest : Bytes) :
    parts? (0x5C :: byte 'u' :: h₁ :: h₂ :: h₃ :: h₄ :: rest) =
      (parts? rest).map (prepend (.unit code)) := by
  rw [parts?.eq_def]
  simp [h]

theorem stands_part {part : Part} {written : Bytes} (hwhole : part.IsWhole)
    (h : ∀ rest, parts? (written ++ rest) = (parts? rest).map (prepend part)) :
    Stands written (spellPart part) :=
  ⟨[part], List.forall_mem_singleton.mpr hwhole, rfl, h⟩

theorem stands_bytes {text : Bytes} (h : ∀ b ∈ text, b ≠ 0x22 ∧ ¬b < 0x20 ∧ b ≠ 0x5C) :
    Stands text text := by
  have hbytes : Stands (text.flatMap fun b => [b]) (text.flatMap fun b => [b]) := by
    apply Stands.flatMap
    intro b hb
    obtain ⟨hquote, hcontrol, hescape⟩ := h b hb
    exact stands_part (Part.isWhole_plain b) (parts?_byte hquote hcontrol hescape)
  simpa using hbytes

theorem stands_letter {letter meant : UInt8} (hunit : letter ≠ byte 'u')
    (h : letters.lookup letter = some meant) : Stands [0x5C, letter] [meant] :=
  stands_part (Part.isWhole_plain meant) (parts?_letter hunit h)

theorem stands_unit {code : Nat} (hscalar : Utf8.isScalar code = true) (hlt : code < 0x10000) :
    Stands (utf8 "\\u" ++ hex 4 code) (Utf8.encode code) := by
  have hfits : code < Nat.pow 16 (3 + 1) := hlt
  have hcode : Numeral.natOf? 16 (hex 4 code) = some code := by
    rw [Numeral.natOf?_hex, Nat.mod_eq_of_lt hfits]
  have hspell : spellPart (.unit code) = Utf8.encode code := by simp [spellPart, hscalar]
  rw [← hspell]
  exact stands_part (Part.isWhole_unit hscalar) (parts?_unit hcode)

-- A character is written as a letter behind a backslash, as its number, or as it is.
theorem escapeChar_cases (code : Nat) (text : Bytes) :
    (∃ letter meant, JsonValue.escapeChar code text = [0x5C, letter] ∧ letter < 0x80 ∧
      letter ≠ byte 'u' ∧ letters.lookup letter = some meant ∧ Utf8.encode code = [meant]) ∨
    (JsonValue.escapeChar code text = utf8 "\\u" ++ hex 4 code ∧ code < 0xD800) ∨
    (JsonValue.escapeChar code text = text ∧ code ≠ 0x22 ∧ code ≠ 0x5C ∧ 0x20 ≤ code) := by
  by_cases hletter : code ∈ [0x22, 0x5C, 0x0A, 0x0D, 0x09]
  · refine .inl ?_
    simp only [List.mem_cons, List.not_mem_nil, or_false] at hletter
    rcases hletter with rfl | rfl | rfl | rfl | rfl
    · exact ⟨0x22, 0x22, rfl, by decide⟩
    · exact ⟨0x5C, 0x5C, rfl, by decide⟩
    · exact ⟨byte 'n', lf, rfl, by decide⟩
    · exact ⟨byte 'r', cr, rfl, by decide⟩
    · exact ⟨byte 't', tab, rfl, by decide⟩
  · simp only [List.mem_cons, List.not_mem_nil, or_false, not_or] at hletter
    obtain ⟨hquote, hbackslash, hlf, hcr, htab⟩ := hletter
    simp only [JsonValue.escapeChar, beq_iff_eq, hquote, hbackslash, hlf, hcr, htab, if_false]
    split
    · rename_i hnumber
      simp only [Bool.or_eq_true, decide_eq_true_eq, beq_iff_eq] at hnumber
      exact .inr (.inl ⟨rfl, by omega⟩)
    · rename_i hplain
      simp only [Bool.or_eq_true, decide_eq_true_eq, beq_iff_eq, not_or] at hplain
      exact .inr (.inr ⟨rfl, hquote, hbackslash, by omega⟩)

theorem stands_escapeChar {text : Bytes} {code width : Nat}
    (h : Utf8.head? text = some (code, width)) :
    Stands (JsonValue.escapeChar code (text.take width)) (text.take width) := by
  rcases escapeChar_cases code (text.take width) with
    ⟨letter, meant, hescape, -, hunit, hlookup, hencode⟩ | ⟨hescape, hsmall⟩ |
    ⟨hescape, hquote, hbackslash, hcontrol⟩
  · rw [hescape, Utf8.take_eq_encode h, hencode]
    exact stands_letter hunit hlookup
  · rw [hescape, Utf8.take_eq_encode h]
    exact stands_unit (by simp [Utf8.isScalar, hsmall]) (by omega)
  · rw [hescape]
    -- a byte that would have to be escaped would be the whole character
    apply stands_bytes
    intro b hb
    refine ⟨?_, ?_, ?_⟩
    · rintro rfl
      exact hquote (Utf8.code_of_mem_head? h hb (by decide))
    · intro hlow
      have hcode := Utf8.code_of_mem_head? h hb (UInt8.lt_trans hlow (by decide))
      have hlt : b.toNat < 0x20 := UInt8.lt_iff_toNat_lt.mp hlow
      omega
    · rintro rfl
      exact hbackslash (Utf8.code_of_mem_head? h hb (by decide))

theorem stands_pieces (text : Bytes) :
    Stands ((Utf8.pieces text).flatMap JsonValue.escapePiece) (Utf8.repair text) := by
  apply Stands.flatMap
  refine Utf8.pieces_induction ?_ ?_ text
  · intro b
    exact stands_unit (by decide : Utf8.isScalar 0xFFFD = true) (by decide)
  · intro text code width h
    exact stands_escapeChar h

theorem string?_renderString (text rest : Bytes) :
    string? ((Utf8.pieces text).flatMap JsonValue.escapePiece ++ 0x22 :: rest) =
      some (Utf8.repair text, rest) := by
  obtain ⟨parts, -, hspell, hread⟩ := stands_pieces text
  have hclosing : parts? (0x22 :: rest) = some ([], rest) := by rw [parts?.eq_def]; rfl
  simp [string?, hread, hclosing, hspell]

-- What may follow a number so that the number ends there.
def Stops (rest : Bytes) : Prop :=
  ∀ b ∈ rest.head?, isDigit b = false ∧ b ≠ byte '.' ∧ b ≠ byte 'e' ∧ b ≠ byte 'E'

theorem isSpace_iff {b : UInt8} :
    isSpace b = true ↔ b = space ∨ b = tab ∨ b = lf ∨ b = cr := by
  simp [isSpace, or_assoc]

theorem isSpace_lt {b : UInt8} (h : isSpace b = true) : b < 0x80 := by
  rcases isSpace_iff.mp h with rfl | rfl | rfl | rfl <;> decide

theorem stops_of_isSpace {rest : Bytes} (h : ∀ b ∈ rest.head?, isSpace b = true) : Stops rest := by
  intro b hb
  rcases isSpace_iff.mp (h b hb) with rfl | rfl | rfl | rfl <;> decide

theorem stops_lf (rest : Bytes) : Stops (lf :: rest) := stops_of_isSpace (by simp [isSpace])

theorem stops_comma (rest : Bytes) : Stops (byte ',' :: rest) := by
  intro b hb
  obtain rfl : byte ',' = b := by simpa using hb
  decide

theorem Stops.fraction? {rest : Bytes} (h : Stops rest) : fraction? rest = some ([], rest) := by
  cases rest with
  | nil => rfl
  | cons b rest => simp [Json.fraction?, (h b rfl).2.1]

theorem Stops.exponent? {rest : Bytes} (h : Stops rest) : exponent? rest = some (0, rest) := by
  cases rest with
  | nil => rfl
  | cons b rest => simp [Json.exponent?, (h b rfl).2.2]

theorem digits?_ofNat (n : Nat) {rest : Bytes} (h : Stops rest) :
    digits? (ofNat n ++ rest) = some (ofNat n, rest) := by
  have hstop : ∀ b ∈ rest.head?, isDigit b = false := fun b hb => (h b hb).1
  have hne := ofNat_ne_nil n
  simp [digits?, takeWhile_append_stop (isDigit_ofNat n) hstop,
    dropWhile_append_stop (isDigit_ofNat n) hstop, hne]

theorem whole?_ofNat (n : Nat) {rest : Bytes} (h : Stops rest) :
    whole? (ofNat n ++ rest) = some (ofNat n, rest) := by
  have hzeros : (ofNat n).head? = some (byte '0') → (ofNat n).length ≤ 1 := by
    intro hzero
    by_cases hn : n = 0
    · simp [hn, ofNat]
    · exact absurd hzero (head?_ofNat hn)
  simpa [whole?, digits?_ofNat n h] using hzeros

theorem unsigned?_ofNat (n : Nat) {rest : Bytes} (h : Stops rest) :
    unsigned? (ofNat n ++ rest) = some ((n, 0), rest) := by
  simp [unsigned?, whole?_ofNat n h, h.fraction?, h.exponent?, Numeral.natOf?_ofNat]

-- Digits and the sign of a number start nothing else.
theorem ne_of_isDigit {b : UInt8} (h : isDigit b = true) {c : UInt8} (hc : isDigit c = false) :
    b ≠ c := by
  rintro rfl
  simp [h] at hc

theorem number?_ofInt (n : Int) {rest : Bytes} (h : Stops rest) :
    number? (ofInt n ++ rest) = some (number n 0, rest) := by
  cases n with
  | ofNat n =>
      have hnumber := unsigned?_ofNat n h
      cases hdigits : ofNat n with
      | nil => exact absurd hdigits (ofNat_ne_nil n)
      | cons first others =>
          have hfirst : first ≠ byte '-' :=
            ne_of_isDigit (isDigit_ofNat n first (by simp [hdigits])) (by decide)
          rw [hdigits] at hnumber
          rw [ofInt, hdigits]
          simp only [List.cons_append] at hnumber ⊢
          simp [number?, hfirst, hnumber]
  | negSucc n =>
      have hnumber := unsigned?_ofNat (n + 1) h
      simp only [ofInt, List.cons_append, number?, beq_self_eq_true, if_true, hnumber]
      rfl

end Json

end ThemeLint
