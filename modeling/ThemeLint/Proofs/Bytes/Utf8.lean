import ThemeLint.Bytes.Utf8
import ThemeLint.Proofs.Bytes

namespace ThemeLint.Utf8

open Bytes

-- A leading byte is followed by one, two or three others. The range of the second byte is
-- narrower where a wider one would spell a code point that fewer bytes spell.
theorem lead?_cases {b : UInt8} {lead : Lead} (h : lead? b = some lead) :
    (0xC2 ≤ b.toNat ∧ b.toNat ≤ 0xDF ∧ lead.more = 1 ∧ 0x80 ≤ lead.low ∧ lead.high ≤ 0xBF) ∨
    (0xE0 ≤ b.toNat ∧ b.toNat ≤ 0xEF ∧ lead.more = 2 ∧ 0x80 ≤ lead.low ∧ lead.high ≤ 0xBF ∧
      (b.toNat = 0xE0 → 0xA0 ≤ lead.low)) ∨
    (0xF0 ≤ b.toNat ∧ b.toNat ≤ 0xF4 ∧ lead.more = 3 ∧ 0x80 ≤ lead.low ∧ lead.high ≤ 0xBF ∧
      (b.toNat = 0xF0 → 0x90 ≤ lead.low)) := by
  have hrange : ∀ {low high : UInt8}, (low ≤ b && b ≤ high) = true →
      low.toNat ≤ b.toNat ∧ b.toNat ≤ high.toNat := by
    intro low high hb
    simpa [UInt8.le_iff_toNat_le] using hb
  unfold lead? at h
  split at h
  · rename_i hb
    obtain rfl := Option.some.inj h
    exact .inl ⟨(hrange hb).1, (hrange hb).2, by decide⟩
  split at h
  · rename_i hb
    obtain rfl := Option.some.inj h
    obtain rfl := eq_of_beq hb
    exact .inr (.inl (by decide))
  split at h
  · rename_i hb
    obtain rfl := Option.some.inj h
    obtain rfl := eq_of_beq hb
    exact .inr (.inl (by decide))
  split at h
  · rename_i hb
    obtain rfl := Option.some.inj h
    have hlow : 0xE1 ≤ b.toNat := (hrange hb).1
    exact .inr (.inl ⟨by omega, (hrange hb).2, rfl, by decide, by decide, by omega⟩)
  split at h
  · rename_i hb
    obtain rfl := Option.some.inj h
    obtain rfl := eq_of_beq hb
    exact .inr (.inr (by decide))
  split at h
  · rename_i hb
    obtain rfl := Option.some.inj h
    have hlow : 0xF1 ≤ b.toNat := (hrange hb).1
    have hhigh : b.toNat ≤ 0xF3 := (hrange hb).2
    exact .inr (.inr ⟨by omega, by omega, rfl, by decide, by decide, by omega⟩)
  split at h
  · rename_i hb
    obtain rfl := Option.some.inj h
    obtain rfl := eq_of_beq hb
    exact .inr (.inr (by decide))
  · simp at h

theorem low_of_lead? {b : UInt8} {lead : Lead} (h : lead? b = some lead) : 0x80 ≤ lead.low := by
  rcases lead?_cases h with ⟨_, _, _, hlow, _⟩ | ⟨_, _, _, hlow, _⟩ | ⟨_, _, _, hlow, _⟩ <;>
    exact hlow

theorem more_of_lead? {b : UInt8} {lead : Lead} (h : lead? b = some lead) : 0 < lead.more := by
  rcases lead?_cases h with ⟨_, _, hmore, _⟩ | ⟨_, _, hmore, _⟩ | ⟨_, _, hmore, _⟩ <;>
    omega

theorem le_of_mem_complete? {more : Nat} {low high : UInt8} {code found : Nat} {text : Bytes}
    {b : UInt8} (hlow : 0x80 ≤ low) (h : complete? more low high code text = some found)
    (hb : b ∈ text.take more) : 0x80 ≤ b := by
  fun_induction complete? more low high code text with
  | case1 => simp at hb
  | case2 => simp at h
  | case3 low high code more c rest hrange ih =>
      simp only [Bool.and_eq_true, decide_eq_true_eq] at hrange
      rcases List.mem_cons.mp hb with rfl | hrest
      · exact UInt8.le_trans hlow hrange.1
      · exact ih (by decide) h hrest
  | case4 => simp at h

-- A character is one byte of ASCII, or a leading byte and the bytes that complete it.
theorem head?_cases {text : Bytes} {code width : Nat} (h : head? text = some (code, width)) :
    (∃ b rest, text = b :: rest ∧ b < 0x80 ∧ code = b.toNat ∧ width = 1) ∨
    ∃ b rest lead, text = b :: rest ∧ ¬b < 0x80 ∧ lead? b = some lead ∧
      complete? lead.more lead.low lead.high (b.toNat % Nat.pow 2 (6 - lead.more)) rest =
        some code ∧
      width = lead.more + 1 := by
  cases text with
  | nil => simp [head?] at h
  | cons b rest =>
      by_cases hb : b < 0x80
      · simp only [head?, hb, if_true, Option.some.injEq, Prod.mk.injEq] at h
        exact .inl ⟨b, rest, rfl, hb, h.1.symm, h.2.symm⟩
      · simp only [head?, hb, if_false] at h
        cases hlead : lead? b with
        | none => simp [hlead] at h
        | some lead =>
            simp only [hlead, Option.map_eq_some_iff, Prod.mk.injEq] at h
            obtain ⟨found, hfound, rfl, rfl⟩ := h
            exact .inr ⟨b, rest, lead, rfl, hb, hlead, hfound, rfl⟩

-- A byte of ASCII is a character by itself and part of no other.
theorem code_of_mem_head? {text : Bytes} {code width : Nat} {b : UInt8}
    (h : head? text = some (code, width)) (hb : b ∈ text.take width) (hascii : b < 0x80) :
    code = b.toNat := by
  rcases head?_cases h with ⟨first, rest, rfl, -, rfl, rfl⟩ |
    ⟨first, rest, lead, rfl, hfirst, hlead, hfound, rfl⟩
  · obtain rfl : b = first := by simpa using hb
    rfl
  · rcases List.mem_cons.mp hb with rfl | hrest
    · exact absurd hascii hfirst
    · have hge := le_of_mem_complete? (low_of_lead? hlead) hfound hrest
      exact absurd hascii (UInt8.not_lt.mpr hge)

-- What holds of stray bytes and of characters holds of all pieces of a text.
theorem piecesFrom_induction {motive : Piece → Prop} (stray : ∀ b, motive (.stray b))
    (char : ∀ text code width, head? text = some (code, width) →
      motive (.char code (text.take width)))
    (skip : Nat) (text : Bytes) (found : List Piece) (hfound : ∀ piece ∈ found, motive piece) :
    ∀ piece ∈ piecesFrom skip text found, motive piece := by
  fun_induction piecesFrom skip text found with
  | case1 => simpa using hfound
  | case2 b rest found skip ih => exact ih hfound
  | case3 b rest found code width hhead ih =>
      exact ih (List.forall_mem_cons.mpr ⟨char _ _ _ hhead, hfound⟩)
  | case4 b rest found hhead ih =>
      exact ih (List.forall_mem_cons.mpr ⟨stray b, hfound⟩)

theorem pieces_induction {motive : Piece → Prop} (stray : ∀ b, motive (.stray b))
    (char : ∀ text code width, head? text = some (code, width) →
      motive (.char code (text.take width)))
    (text : Bytes) : ∀ piece ∈ pieces text, motive piece :=
  piecesFrom_induction stray char 0 text [] (by simp)

-- The two readers of UTF-8 agree on one character: the bytes that complete a code point
-- take the check back to where characters start.
theorem foldl_step_of_complete? {more : Nat} {low high : UInt8} {code found : Nat} {text : Bytes}
    (hmore : 0 < more) (h : complete? more low high code text = some found) :
    (text.take more).foldl step (.inside ⟨more, low, high⟩) = .start := by
  induction more generalizing low high code text with
  | zero => exact absurd hmore (Nat.lt_irrefl 0)
  | succ more ih =>
      cases text with
      | nil => simp [complete?] at h
      | cons b rest =>
          by_cases hrange : (low ≤ b && b ≤ high) = true
          · simp only [complete?, hrange, if_true] at h
            cases more with
            | zero => simp only [List.take_succ_cons, List.take_zero, List.foldl_cons,
                List.foldl_nil, step, hrange, if_true, Nat.le_refl]
            | succ more =>
                have hrest := ih (Nat.succ_pos more) h
                have hlong : ¬more + 1 + 1 ≤ 1 := by omega
                simpa only [List.take_succ_cons, List.foldl_cons, step, hrange, if_true, hlong,
                  if_false, Nat.add_sub_cancel] using hrest
          · simp [complete?, hrange] at h

theorem foldl_step_failed (text : Bytes) : text.foldl step .failed = .failed := by
  induction text with
  | nil => rfl
  | cons b rest ih => exact ih

theorem complete?_of_foldl_step {more : Nat} {low high : UInt8} (code : Nat) {text : Bytes}
    (hmore : 0 < more) (h : text.foldl step (.inside ⟨more, low, high⟩) = .start) :
    ∃ found, complete? more low high code text = some found := by
  induction more generalizing low high code text with
  | zero => exact absurd hmore (Nat.lt_irrefl 0)
  | succ more ih =>
      cases text with
      | nil => simp at h
      | cons b rest =>
          by_cases hrange : (low ≤ b && b ≤ high) = true
          · simp only [complete?, hrange, if_true]
            cases more with
            | zero => exact ⟨_, rfl⟩
            | succ more =>
                have hlong : ¬more + 1 + 1 ≤ 1 := by omega
                simp only [List.foldl_cons, step, hrange, if_true, hlong, if_false,
                  Nat.add_sub_cancel] at h
                exact ih _ (Nat.succ_pos more) h
          · simp [step, hrange, foldl_step_failed] at h

theorem foldl_step_of_head? {text : Bytes} {code width : Nat}
    (h : head? text = some (code, width)) : (text.take width).foldl step .start = .start := by
  rcases head?_cases h with ⟨b, rest, rfl, hb, -, rfl⟩ | ⟨b, rest, lead, rfl, hb, hlead, hfound, rfl⟩
  · simp [step, hb]
  · have hrest := foldl_step_of_complete? (more_of_lead? hlead) hfound
    simpa [step, hb, hlead] using hrest

theorem valid_iff {text : Bytes} : valid text = true ↔ text.foldl step .start = .start := by
  simp [valid]

theorem valid_append {text more : Bytes} (htext : valid text = true) (hmore : valid more = true) :
    valid (text ++ more) = true := by
  rw [valid_iff] at htext hmore ⊢
  rw [List.foldl_append, htext, hmore]

theorem valid_flatten {texts : List Bytes} (h : ∀ text ∈ texts, valid text = true) :
    valid texts.flatten = true := by
  induction texts with
  | nil => rfl
  | cons text others ih =>
      obtain ⟨htext, hothers⟩ := List.forall_mem_cons.mp h
      exact valid_append htext (ih hothers)

theorem valid_joinWith {separator : Bytes} (hseparator : valid separator = true) {parts : List Bytes}
    (h : ∀ part ∈ parts, valid part = true) : valid (joinWith separator parts) = true := by
  cases parts with
  | nil => rfl
  | cons first others =>
      obtain ⟨hfirst, hothers⟩ := List.forall_mem_cons.mp h
      refine valid_append hfirst (valid_flatten (List.forall_mem_map.mpr fun part hpart => ?_))
      exact valid_append hseparator (hothers part hpart)

theorem valid_of_ascii {text : Bytes} (h : ∀ b ∈ text, b < 0x80) : valid text = true := by
  rw [valid_iff]
  induction text with
  | nil => rfl
  | cons b rest ih =>
      obtain ⟨hb, hrest⟩ := List.forall_mem_cons.mp h
      rw [List.foldl_cons, step, if_pos hb, ih hrest]

theorem hexDigit_lt : ∀ n, n < 16 → hexDigit n < 0x80 := by decide

theorem valid_hex (width n : Nat) : valid (hex width n) = true := by
  apply valid_of_ascii
  intro b hb
  obtain ⟨d, hd, rfl⟩ := mem_hex hb
  exact hexDigit_lt d hd

theorem head?_of_valid {b : UInt8} {rest : Bytes} (h : valid (b :: rest) = true) :
    ∃ code width, head? (b :: rest) = some (code, width) ∧
      valid ((b :: rest).drop width) = true := by
  rw [valid_iff] at h
  have hhead : ∃ code width, head? (b :: rest) = some (code, width) := by
    by_cases hb : b < 0x80
    · exact ⟨b.toNat, 1, by simp [head?, hb]⟩
    · cases hlead : lead? b with
      | none => simp [step, hb, hlead, foldl_step_failed] at h
      | some lead =>
          simp only [List.foldl_cons, step, hb, if_false, hlead] at h
          obtain ⟨found, hfound⟩ := complete?_of_foldl_step
            (b.toNat % Nat.pow 2 (6 - lead.more)) (more_of_lead? hlead) h
          exact ⟨found, lead.more + 1, by simp only [head?, hb, if_false, hlead, hfound,
            Option.map_some]⟩
  obtain ⟨code, width, hhead⟩ := hhead
  refine ⟨code, width, hhead, ?_⟩
  rw [← List.take_append_drop width (b :: rest), List.foldl_append, foldl_step_of_head? hhead] at h
  exact valid_iff.mpr h

theorem width_pos {text : Bytes} {code width : Nat} (h : head? text = some (code, width)) :
    0 < width := by
  rcases head?_cases h with ⟨_, _, _, _, _, rfl⟩ | ⟨_, _, _, _, _, _, _, rfl⟩
  · exact Nat.one_pos
  · exact Nat.succ_pos _

-- What holds of the empty text, and of a text if it holds behind its first character, holds
-- of every valid text.
theorem valid_induction {motive : Bytes → Prop} (nil : motive [])
    (char : ∀ text code width, head? text = some (code, width) →
      motive (text.drop width) → motive text)
    {text : Bytes} (h : valid text = true) : motive text := by
  induction hlength : text.length using Nat.strongRecOn generalizing text with
  | ind length ih =>
      cases text with
      | nil => exact nil
      | cons b rest =>
          obtain ⟨code, width, hhead, hvalid⟩ := head?_of_valid h
          have hshorter : ((b :: rest).drop width).length < length := by
            have hpos := width_pos hhead
            rw [List.length_drop, hlength]
            simp only [List.length_cons] at hlength
            omega
          exact char _ code width hhead (ih _ hshorter hvalid rfl)

theorem toUInt8_of_eq_toNat {n : Nat} {b : UInt8} (h : n = b.toNat) : n.toUInt8 = b := by
  rw [h]
  exact UInt8.ofNat_toNat

-- The bytes of a character spell its code point, by the number of bytes.
theorem encode_two {b c : UInt8} (hb : 0xC2 ≤ b.toNat) (hb' : b.toNat ≤ 0xDF)
    (hc : 0x80 ≤ c.toNat) (hc' : c.toNat ≤ 0xBF) :
    encode (b.toNat % 32 * 64 + (c.toNat - 0x80)) = [b, c] := by
  have hlow : ¬b.toNat % 32 * 64 + (c.toNat - 0x80) < 0x80 := by omega
  have hhigh : b.toNat % 32 * 64 + (c.toNat - 0x80) < 0x800 := by omega
  simp only [encode, hlow, hhigh, if_true, if_false]
  rw [toUInt8_of_eq_toNat (b := b) (by omega), toUInt8_of_eq_toNat (b := c) (by omega)]

theorem encode_three {b c d : UInt8} (hb : 0xE0 ≤ b.toNat) (hb' : b.toNat ≤ 0xEF)
    (hc : 0x80 ≤ c.toNat) (hc' : c.toNat ≤ 0xBF) (hd : 0x80 ≤ d.toNat) (hd' : d.toNat ≤ 0xBF)
    (hlong : b.toNat = 0xE0 → 0xA0 ≤ c.toNat) :
    encode ((b.toNat % 16 * 64 + (c.toNat - 0x80)) * 64 + (d.toNat - 0x80)) = [b, c, d] := by
  have hlow : ¬(b.toNat % 16 * 64 + (c.toNat - 0x80)) * 64 + (d.toNat - 0x80) < 0x800 := by omega
  have hascii : ¬(b.toNat % 16 * 64 + (c.toNat - 0x80)) * 64 + (d.toNat - 0x80) < 0x80 := by omega
  have hhigh : (b.toNat % 16 * 64 + (c.toNat - 0x80)) * 64 + (d.toNat - 0x80) < 0x10000 := by omega
  simp only [encode, hlow, hascii, hhigh, if_true, if_false]
  rw [toUInt8_of_eq_toNat (b := b) (by omega), toUInt8_of_eq_toNat (b := c) (by omega),
    toUInt8_of_eq_toNat (b := d) (by omega)]

theorem encode_four {b c d e : UInt8} (hb : 0xF0 ≤ b.toNat) (hb' : b.toNat ≤ 0xF4)
    (hc : 0x80 ≤ c.toNat) (hc' : c.toNat ≤ 0xBF) (hd : 0x80 ≤ d.toNat) (hd' : d.toNat ≤ 0xBF)
    (he : 0x80 ≤ e.toNat) (he' : e.toNat ≤ 0xBF) (hlong : b.toNat = 0xF0 → 0x90 ≤ c.toNat) :
    encode (((b.toNat % 8 * 64 + (c.toNat - 0x80)) * 64 + (d.toNat - 0x80)) * 64 +
      (e.toNat - 0x80)) = [b, c, d, e] := by
  have hlow : ¬((b.toNat % 8 * 64 + (c.toNat - 0x80)) * 64 + (d.toNat - 0x80)) * 64 +
      (e.toNat - 0x80) < 0x10000 := by omega
  have hmid : ¬((b.toNat % 8 * 64 + (c.toNat - 0x80)) * 64 + (d.toNat - 0x80)) * 64 +
      (e.toNat - 0x80) < 0x800 := by omega
  have hascii : ¬((b.toNat % 8 * 64 + (c.toNat - 0x80)) * 64 + (d.toNat - 0x80)) * 64 +
      (e.toNat - 0x80) < 0x80 := by omega
  simp only [encode, hlow, hmid, hascii, if_false]
  rw [toUInt8_of_eq_toNat (b := b) (by omega), toUInt8_of_eq_toNat (b := c) (by omega),
    toUInt8_of_eq_toNat (b := d) (by omega), toUInt8_of_eq_toNat (b := e) (by omega)]

theorem complete?_succ {more : Nat} {low high : UInt8} {code found : Nat} {text : Bytes}
    (hlow : 0x80 ≤ low) (hhigh : high ≤ 0xBF)
    (h : complete? (more + 1) low high code text = some found) :
    ∃ b rest, text = b :: rest ∧ low ≤ b ∧ 0x80 ≤ b.toNat ∧ b.toNat ≤ 0xBF ∧
      complete? more 0x80 0xBF (code * 64 + (b.toNat - 0x80)) rest = some found := by
  cases text with
  | nil => simp [complete?] at h
  | cons b rest =>
      by_cases hrange : (low ≤ b && b ≤ high) = true
      · simp only [complete?, hrange, if_true] at h
        simp only [Bool.and_eq_true, decide_eq_true_eq] at hrange
        have hb := UInt8.le_trans hlow hrange.1
        rw [UInt8.toNat_sub_of_le _ _ hb] at h
        exact ⟨b, rest, rfl, hrange.1, UInt8.le_iff_toNat_le.mp hb,
          UInt8.le_iff_toNat_le.mp (UInt8.le_trans hrange.2 hhigh), h⟩
      · simp [complete?, hrange] at h

theorem take_eq_encode {text : Bytes} {code width : Nat} (h : head? text = some (code, width)) :
    text.take width = encode code := by
  have hnarrow : (0x80 : UInt8) ≤ 0x80 ∧ (0xBF : UInt8) ≤ 0xBF := by decide
  rcases head?_cases h with ⟨b, rest, rfl, hb, rfl, rfl⟩ | ⟨b, rest, lead, rfl, hb, hlead, hfound, rfl⟩
  · have hascii : b.toNat < 0x80 := UInt8.lt_iff_toNat_lt.mp hb
    simp [encode, hascii]
  · rcases lead?_cases hlead with ⟨hb, hb', hmore, hlow, hhigh⟩ |
      ⟨hb, hb', hmore, hlow, hhigh, hlong⟩ | ⟨hb, hb', hmore, hlow, hhigh, hlong⟩
    · rw [hmore] at hfound ⊢
      obtain ⟨c, rest, rfl, -, hc, hc', hfound⟩ := complete?_succ hlow hhigh hfound
      obtain rfl := Option.some.inj hfound
      exact (encode_two hb hb' hc hc').symm
    · rw [hmore] at hfound ⊢
      obtain ⟨c, rest, rfl, hlc, hc, hc', hfound⟩ := complete?_succ hlow hhigh hfound
      obtain ⟨d, rest, rfl, -, hd, hd', hfound⟩ := complete?_succ hnarrow.1 hnarrow.2 hfound
      obtain rfl := Option.some.inj hfound
      exact (encode_three hb hb' hc hc' hd hd' fun heq =>
        UInt8.le_iff_toNat_le.mp (UInt8.le_trans (hlong heq) hlc)).symm
    · rw [hmore] at hfound ⊢
      obtain ⟨c, rest, rfl, hlc, hc, hc', hfound⟩ := complete?_succ hlow hhigh hfound
      obtain ⟨d, rest, rfl, -, hd, hd', hfound⟩ := complete?_succ hnarrow.1 hnarrow.2 hfound
      obtain ⟨e, rest, rfl, -, he, he', hfound⟩ := complete?_succ hnarrow.1 hnarrow.2 hfound
      obtain rfl := Option.some.inj hfound
      exact (encode_four hb hb' hc hc' hd hd' he he' fun heq =>
        UInt8.le_iff_toNat_le.mp (UInt8.le_trans (hlong heq) hlc)).symm

theorem complete?_lt {more : Nat} {low high : UInt8} {code found : Nat} {text : Bytes}
    (hlow : 0x80 ≤ low) (hhigh : high ≤ 0xBF)
    (h : complete? more low high code text = some found) :
    found < (code + 1) * Nat.pow 64 more := by
  induction more generalizing low high code text with
  | zero =>
      obtain rfl := Option.some.inj h
      have hpow : Nat.pow 64 0 = 1 := rfl
      rw [hpow, Nat.mul_one]
      exact Nat.lt_succ_self code
  | succ more ih =>
      obtain ⟨b, rest, rfl, -, hb, hb', hrest⟩ := complete?_succ hlow hhigh h
      have hfound := ih (by decide) (by decide) hrest
      have hcode : code * 64 + (b.toNat - 0x80) + 1 ≤ (code + 1) * 64 := by omega
      have hpow : Nat.pow 64 (more + 1) = 64 * Nat.pow 64 more := Nat.pow_succ'
      calc found < (code * 64 + (b.toNat - 0x80) + 1) * Nat.pow 64 more := hfound
        _ ≤ (code + 1) * 64 * Nat.pow 64 more := Nat.mul_le_mul_right _ hcode
        _ = (code + 1) * Nat.pow 64 (more + 1) := by rw [hpow, Nat.mul_assoc]

-- Four bytes have room for 21 bits of a code point.
theorem code_lt_of_head? {text : Bytes} {code width : Nat} (h : head? text = some (code, width)) :
    code < 0x200000 := by
  rcases head?_cases h with
    ⟨b, rest, rfl, hb, rfl, rfl⟩ | ⟨b, rest, lead, rfl, hb, hlead, hfound, rfl⟩
  · have hlt := b.toNat_lt
    omega
  · rcases lead?_cases hlead with ⟨-, -, hmore, hlow, hhigh⟩ | ⟨-, -, hmore, hlow, hhigh, -⟩ |
      ⟨-, -, hmore, hlow, hhigh, -⟩
    all_goals
      have hlt := complete?_lt hlow hhigh hfound
      simp only [hmore, Nat.pow_eq] at hlt
      omega

theorem complete?_take_append {more : Nat} {low high : UInt8} {code found : Nat} {text : Bytes}
    (h : complete? more low high code text = some found) (rest : Bytes) :
    more ≤ text.length ∧ complete? more low high code (text.take more ++ rest) = some found := by
  fun_induction complete? more low high code text with
  | case1 => exact ⟨Nat.zero_le _, by rw [complete?]; exact h⟩
  | case2 => simp at h
  | case3 low high code more b text hrange ih =>
      obtain ⟨hlength, hcomplete⟩ := ih h
      constructor
      · simp only [List.length_cons]
        omega
      · simp only [List.take_succ_cons, List.cons_append, complete?, hrange, if_true]
        exact hcomplete
  | case4 => simp at h

theorem head?_take_append {text : Bytes} {code width : Nat} (h : head? text = some (code, width))
    (rest : Bytes) :
    width ≤ text.length ∧ head? (text.take width ++ rest) = some (code, width) := by
  rcases head?_cases h with
    ⟨b, more, rfl, hb, rfl, rfl⟩ | ⟨b, more, lead, rfl, hb, hlead, hfound, rfl⟩
  · simp [head?, hb]
  · obtain ⟨hlength, hcomplete⟩ := complete?_take_append hfound rest
    constructor
    · simp only [List.length_cons]
      omega
    · simp only [List.take_succ_cons, List.cons_append, head?, hb, if_false, hlead, hcomplete,
        Option.map_some]

-- The walk over the bytes of a text, with the bytes that still belong to the last character
-- passed over.
theorem piecesFrom_eq (skip : Nat) (text : Bytes) (found : List Piece) :
    piecesFrom skip text found = found.reverse ++ pieces (text.drop skip) := by
  induction text generalizing skip found with
  | nil => simp [piecesFrom, pieces]
  | cons b rest ih =>
      cases skip with
      | succ skip => simp only [piecesFrom, ih, List.drop_succ_cons]
      | zero =>
          cases hhead : head? (b :: rest) with
          | none =>
              have hstep : ∀ found, piecesFrom 0 (b :: rest) found =
                  piecesFrom 0 rest (.stray b :: found) := by
                intro found
                simp only [piecesFrom, hhead]
              rw [List.drop_zero, pieces, hstep, hstep, ih, ih]
              simp
          | some character =>
              have hstep : ∀ found, piecesFrom 0 (b :: rest) found =
                  piecesFrom (character.2 - 1) rest
                    (.char character.1 ((b :: rest).take character.2) :: found) := by
                intro found
                simp only [piecesFrom, hhead]
              rw [List.drop_zero, pieces, hstep, hstep, ih, ih]
              simp

@[simp] theorem pieces_nil : pieces [] = [] := rfl

theorem pieces_of_head? {text : Bytes} {code width : Nat} (h : head? text = some (code, width)) :
    pieces text = .char code (text.take width) :: pieces (text.drop width) := by
  obtain ⟨more, rfl⟩ := Nat.exists_eq_add_of_lt (width_pos h)
  cases text with
  | nil => simp [head?] at h
  | cons b rest =>
      rw [pieces, piecesFrom]
      simp only [h, piecesFrom_eq]
      simp

namespace Piece

def repaired : Piece → Bytes
  | char _ text => text
  | stray _ => encode 0xFFFD

end Piece

def repair (text : Bytes) : Bytes := (pieces text).flatMap Piece.repaired

theorem repair_of_valid {text : Bytes} (h : valid text = true) : repair text = text := by
  apply valid_induction (motive := fun text => repair text = text) rfl ?_ h
  intro text code width hhead hrest
  rw [repair, pieces_of_head? hhead, List.flatMap_cons, ← repair, hrest]
  exact List.take_append_drop width text

namespace Piece

def IsCharacter : Piece → Prop
  | char code text => head? text = some (code, text.length)
  | stray _ => False

end Piece

theorem Piece.IsCharacter.exists_code {piece : Piece} (h : piece.IsCharacter) :
    ∃ code, piece = .char code (encode code) ∧ code < 0x200000 := by
  cases piece with
  | stray b => exact h.elim
  | char code text =>
      have htext : text = encode code := by
        rw [← take_eq_encode h, List.take_length]
      exact ⟨code, by rw [htext], code_lt_of_head? h⟩

theorem Piece.isCharacter_ascii {b : UInt8} (h : b < 0x80) :
    (Piece.char b.toNat [b]).IsCharacter := by
  simp [IsCharacter, head?, h]

theorem isCharacter_of_valid {text : Bytes} (h : valid text = true) :
    ∀ piece ∈ pieces text, piece.IsCharacter := by
  apply valid_induction (motive := fun text => ∀ piece ∈ pieces text, piece.IsCharacter) ?_ ?_ h
  · simp
  · intro text code width hhead hrest
    obtain ⟨hwidth, hcharacter⟩ := head?_take_append hhead []
    rw [pieces_of_head? hhead]
    refine List.forall_mem_cons.mpr ⟨?_, hrest⟩
    rw [List.append_nil] at hcharacter
    rw [Piece.IsCharacter, List.length_take, Nat.min_eq_left hwidth]
    exact hcharacter

theorem pieces_append {piece : Piece} (h : piece.IsCharacter) (rest : Bytes) :
    pieces (piece.text ++ rest) = piece :: pieces rest := by
  cases piece with
  | stray b => exact h.elim
  | char code text =>
      obtain ⟨-, hhead⟩ := head?_take_append h rest
      rw [List.take_length] at hhead
      rw [Piece.text, pieces_of_head? hhead, List.take_left, List.drop_left]

theorem pieces_append_ascii {text : Bytes} (h : ∀ b ∈ text, b < 0x80) (rest : Bytes) :
    pieces (text ++ rest) = text.map (fun b => .char b.toNat [b]) ++ pieces rest := by
  induction text with
  | nil => rfl
  | cons b text ih =>
      obtain ⟨hb, htext⟩ := List.forall_mem_cons.mp h
      have hfirst := pieces_append (Piece.isCharacter_ascii hb) (text ++ rest)
      rw [Piece.text, List.singleton_append] at hfirst
      rw [List.cons_append, hfirst, ih htext, List.map_cons, List.cons_append]

theorem flatMap_text_pieces (text : Bytes) : (pieces text).flatMap Piece.text = text := by
  have hwalk : ∀ skip text found, (piecesFrom skip text found).flatMap Piece.text =
      found.reverse.flatMap Piece.text ++ text.drop skip := by
    intro skip text found
    fun_induction piecesFrom skip text found with
    | case1 => simp
    | case2 b rest found skip ih => exact ih
    | case3 b rest found code width hhead ih =>
        obtain ⟨more, rfl⟩ := Nat.exists_eq_add_of_lt (width_pos hhead)
        rw [ih]
        simp [Piece.text]
    | case4 b rest found hhead ih =>
        rw [ih]
        simp [Piece.text]
  exact hwalk 0 text []

end ThemeLint.Utf8
