import ThemeLint.Bytes.Numeral

namespace ThemeLint

open Bytes

namespace Numeral

variable {base value d : Nat} {digits : Bytes} {b : UInt8}

theorem natOf?_concat (h : natOf? base digits = some value) (hdigit : digit? b = some d)
    (hlt : d < base) : natOf? base (digits ++ [b]) = some (value * base + d) := by
  unfold natOf? at h ⊢
  split at h
  · simp at h
  · rw [if_neg (by simp), List.foldl_append, h]
    simp [hdigit, hlt]

theorem natOf?_singleton (hdigit : digit? b = some d) (hlt : d < base) :
    natOf? base [b] = some d := by
  simp [natOf?, hdigit, hlt]

theorem digit?_hexDigit : ∀ n, n < 16 → digit? (hexDigit n) = some n := by decide

theorem digit?_decimal : ∀ n, n < 10 → digit? (byte '0' + n.toUInt8) = some n := by decide

-- What is written in digits is read back from them, also if the digits are written otherwise.
theorem natOf?_map_hex {spell : UInt8 → UInt8}
    (hspell : ∀ n, n < 16 → digit? (spell (hexDigit n)) = some n) (width n : Nat) :
    natOf? 16 ((hex (width + 1) n).map spell) = some (n % Nat.pow 16 (width + 1)) := by
  have hdigit : ∀ m, digit? (spell (hexDigit (m % 16))) = some (m % 16) :=
    fun m => hspell _ (Nat.mod_lt _ (by decide))
  have hlt : ∀ m, m % 16 < 16 := fun m => Nat.mod_lt _ (by decide)
  induction width generalizing n with
  | zero => simpa [hex] using natOf?_singleton (hdigit n) (hlt n)
  | succ width ih =>
      rw [hex, List.map_append, List.map_singleton, natOf?_concat (ih (n / 16)) (hdigit n) (hlt n)]
      have hpow : Nat.pow 16 (width + 1 + 1) = 16 * Nat.pow 16 (width + 1) := Nat.pow_succ'
      rw [hpow, Nat.mod_mul]
      congr 1
      omega

theorem natOf?_hex (width n : Nat) :
    natOf? 16 (hex (width + 1) n) = some (n % Nat.pow 16 (width + 1)) := by
  simpa only [List.map_id] using @natOf?_map_hex id digit?_hexDigit width n

theorem natOf?_ofNat (n : Nat) : natOf? 10 (ofNat n) = some n := by
  fun_induction ofNat n with
  | case1 n hn => exact natOf?_singleton (digit?_decimal n hn) hn
  | case2 n hn ih =>
      have hlt : n % 10 < 10 := Nat.mod_lt _ (by decide)
      rw [natOf?_concat ih (digit?_decimal _ hlt) hlt]
      congr 1
      omega

end Numeral

namespace Bytes

theorem isDigit_decimal : ∀ n, n < 10 → isDigit (byte '0' + n.toUInt8) = true := by decide

theorem isDigit_ofNat (n : Nat) : ∀ b ∈ ofNat n, isDigit b = true := by
  fun_induction ofNat n with
  | case1 n hn => exact List.forall_mem_singleton.mpr (isDigit_decimal n hn)
  | case2 n hn ih =>
      have hlast := isDigit_decimal (n % 10) (Nat.mod_lt _ (by decide))
      exact List.forall_mem_append.mpr ⟨ih, List.forall_mem_singleton.mpr hlast⟩

theorem ofNat_ne_nil (n : Nat) : ofNat n ≠ [] := by
  fun_induction ofNat n <;> simp

theorem decimal_ne_zero : ∀ n, n < 10 → n ≠ 0 → byte '0' + n.toUInt8 ≠ byte '0' := by decide

theorem head?_ofNat {n : Nat} (h : n ≠ 0) : (ofNat n).head? ≠ some (byte '0') := by
  fun_induction ofNat n with
  | case1 n hn => simpa using decimal_ne_zero n hn h
  | case2 n hn ih =>
      have hpos : n / 10 ≠ 0 := by omega
      cases hdigits : ofNat (n / 10) with
      | nil => exact absurd hdigits (ofNat_ne_nil _)
      | cons first others => simpa [hdigits] using ih hpos

end Bytes

end ThemeLint
