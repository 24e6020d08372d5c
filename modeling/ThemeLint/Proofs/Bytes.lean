import ThemeLint.Bytes

namespace ThemeLint.Bytes

theorem afterStart?_eq_some {expected text rest : Bytes} :
    afterStart? expected text = some rest ↔ text = expected ++ rest := by
  fun_induction afterStart? expected text with
  | case1 text => simp [eq_comm]
  | case2 => simp
  | case3 e expected b text h ih =>
      have heq : e = b := by simpa using h
      simp [ih, heq]
  | case4 e expected b text h =>
      have hne : b ≠ e := by
        rintro rfl
        simp at h
      simp [hne]

theorem startsWith_iff {expected text : Bytes} :
    startsWith expected text = true ↔ expected <+: text := by
  simp only [startsWith, Option.isSome_iff_exists, afterStart?_eq_some]
  exact ⟨fun ⟨rest, h⟩ => ⟨rest, h.symm⟩, fun ⟨rest, h⟩ => ⟨rest, h.symm⟩⟩

@[simp] theorem partsBy_nil (separator : UInt8) : partsBy separator [] = [[]] := rfl

@[simp] theorem partsBy_cons_self (separator : UInt8) (text : Bytes) :
    partsBy separator (separator :: text) = [] :: partsBy separator text := by
  simp [partsBy]

-- There is always a first part, which the next byte in front of the text either
-- lengthens or leaves behind.
theorem partsBy_eq_cons (separator : UInt8) (text : Bytes) :
    ∃ part others, partsBy separator text = part :: others := by
  induction text with
  | nil => exact ⟨[], [], rfl⟩
  | cons b text ih =>
      obtain ⟨part, others, h⟩ := ih
      simp only [partsBy, List.foldr_cons] at h ⊢
      rw [h]
      split <;> exact ⟨_, _, rfl⟩

theorem partsBy_cons_of_ne {separator b : UInt8} {text part : Bytes} {others : List Bytes}
    (hb : b ≠ separator) (h : partsBy separator text = part :: others) :
    partsBy separator (b :: text) = (b :: part) :: others := by
  simp only [partsBy, List.foldr_cons] at h ⊢
  rw [h]
  simp [hb]

theorem partsBy_append_cons (separator : UInt8) (before after : Bytes) :
    partsBy separator (before ++ separator :: after) =
      partsBy separator before ++ partsBy separator after := by
  induction before with
  | nil => simp
  | cons b before ih =>
      by_cases hb : b = separator
      · subst hb
        rw [List.cons_append, partsBy_cons_self, partsBy_cons_self, ih, List.cons_append]
      · obtain ⟨part, others, hparts⟩ := partsBy_eq_cons separator before
        rw [hparts, List.cons_append] at ih
        rw [List.cons_append, partsBy_cons_of_ne hb ih, partsBy_cons_of_ne hb hparts,
          List.cons_append]

theorem partsBy_of_notMem {separator : UInt8} {text : Bytes} (h : separator ∉ text) :
    partsBy separator text = [text] := by
  induction text with
  | nil => rfl
  | cons b text ih =>
      obtain ⟨hb, htext⟩ := List.ne_and_not_mem_of_not_mem_cons h
      exact partsBy_cons_of_ne (Ne.symm hb) (ih htext)

theorem notMem_of_mem_partsBy {separator : UInt8} {text part : Bytes}
    (h : part ∈ partsBy separator text) : separator ∉ part := by
  induction text generalizing part with
  | nil => simp_all
  | cons b text ih =>
      by_cases hb : b = separator
      · subst hb
        rw [partsBy_cons_self] at h
        rcases List.mem_cons.mp h with rfl | h
        · exact List.not_mem_nil
        · exact ih h
      · obtain ⟨first, others, hparts⟩ := partsBy_eq_cons separator text
        rw [partsBy_cons_of_ne hb hparts] at h
        rcases List.mem_cons.mp h with rfl | h
        · exact List.not_mem_cons_of_ne_of_not_mem (Ne.symm hb) (ih (by simp [hparts]))
        · exact ih (by simp [hparts, h])

@[simp] theorem joinWith_singleton (separator part : Bytes) : joinWith separator [part] = part := by
  simp [joinWith]

theorem joinWith_cons_cons (separator part next : Bytes) (others : List Bytes) :
    joinWith separator (part :: next :: others) =
      part ++ separator ++ joinWith separator (next :: others) := by
  simp [joinWith]

theorem mem_joinWith {separator part : Bytes} {parts : List Bytes} {b : UInt8} (hpart : part ∈ parts)
    (hb : b ∈ part) : b ∈ joinWith separator parts := by
  cases parts with
  | nil => simp at hpart
  | cons first others =>
      rw [joinWith, List.mem_append, List.mem_flatMap]
      rcases List.mem_cons.mp hpart with rfl | hothers
      · exact .inl hb
      · exact .inr ⟨part, hothers, List.mem_append_right separator hb⟩

theorem mem_or_mem_of_mem_joinWith {separator : Bytes} {parts : List Bytes} {b : UInt8}
    (hb : b ∈ joinWith separator parts) : b ∈ separator ∨ ∃ part ∈ parts, b ∈ part := by
  cases parts with
  | nil => simp [joinWith] at hb
  | cons first others =>
      rw [joinWith, List.mem_append, List.mem_flatMap] at hb
      rcases hb with hfirst | ⟨part, hpart, hb⟩
      · exact .inr ⟨first, by simp, hfirst⟩
      · rcases List.mem_append.mp hb with hseparator | hb
        · exact .inl hseparator
        · exact .inr ⟨part, List.mem_cons_of_mem first hpart, hb⟩

theorem notMem_joinWith {separator : Bytes} {parts : List Bytes} {b : UInt8}
    (hseparator : b ∉ separator) (hparts : ∀ part ∈ parts, b ∉ part) :
    b ∉ joinWith separator parts := by
  intro hmem
  rcases mem_or_mem_of_mem_joinWith hmem with hmem | ⟨part, hpart, hmem⟩
  · exact hseparator hmem
  · exact hparts part hpart hmem

theorem length_le_joinWith (separator : Bytes) {parts : List Bytes} {part : Bytes}
    (h : part ∈ parts) : part.length ≤ (joinWith separator parts).length := by
  cases parts with
  | nil => simp at h
  | cons first others =>
      rw [joinWith, List.length_append]
      rcases List.mem_cons.mp h with rfl | h
      · omega
      · have hle := (List.sublist_flatten_of_mem (List.mem_map_of_mem (f := (separator ++ ·)) h)).length_le
        simp only [List.length_append, ← List.flatMap_def] at hle
        omega

theorem partsBy_joinWith {separator : UInt8} {parts : List Bytes} (hne : parts ≠ [])
    (h : ∀ part ∈ parts, separator ∉ part) :
    partsBy separator (joinWith [separator] parts) = parts := by
  induction parts with
  | nil => exact absurd rfl hne
  | cons part others ih =>
      obtain ⟨hpart, hothers⟩ := List.forall_mem_cons.mp h
      cases others with
      | nil => rw [joinWith_singleton, partsBy_of_notMem hpart]
      | cons next others =>
          rw [joinWith_cons_cons, List.append_assoc, List.singleton_append, partsBy_append_cons,
            partsBy_of_notMem hpart, ih (by simp) hothers, List.singleton_append]

theorem joinWith_cons_partsBy (separator : UInt8) (text : Bytes) :
    joinWith [separator] ([] :: partsBy separator text) =
      separator :: joinWith [separator] (partsBy separator text) := by
  obtain ⟨part, others, h⟩ := partsBy_eq_cons separator text
  rw [h, joinWith_cons_cons, List.nil_append, List.singleton_append]

theorem joinWith_partsBy (separator : UInt8) (text : Bytes) :
    joinWith [separator] (partsBy separator text) = text := by
  induction text with
  | nil => rfl
  | cons b text ih =>
      by_cases hb : b = separator
      · subst hb
        rw [partsBy_cons_self, joinWith_cons_partsBy, ih]
      · obtain ⟨part, others, h⟩ := partsBy_eq_cons separator text
        rw [partsBy_cons_of_ne hb h]
        rw [h, joinWith] at ih
        rw [joinWith, List.cons_append, ih]

-- The longest run of a class of bytes goes on over every word of such bytes that
-- starts in it or right behind it.
theorem le_length_takeWhile {p : UInt8 → Bool} {text word : Bytes} {offset : Nat}
    (hoffset : offset ≤ (text.takeWhile p).length) (hword : word <+: text.drop offset)
    (hall : ∀ b ∈ word, p b = true) :
    offset + word.length ≤ (text.takeWhile p).length := by
  induction text generalizing offset with
  | nil =>
      have hnil : word = [] := by simpa using hword
      simpa [hnil] using hoffset
  | cons b text ih =>
      cases offset with
      | zero =>
          obtain ⟨rest, hrest⟩ := hword
          simp only [List.drop_zero] at hrest
          rw [← hrest, List.takeWhile_append_of_pos hall]
          simp
      | succ offset =>
          by_cases hb : p b = true
          · simp only [List.takeWhile_cons_of_pos hb, List.length_cons] at hoffset ⊢
            have hrest := ih (by omega) hword
            omega
          · simp [List.takeWhile_cons_of_neg hb] at hoffset

-- A run of a class of bytes that stops where the class ends is the longest one.
theorem takeWhile_append_stop {p : UInt8 → Bool} {run rest : Bytes} (hrun : ∀ b ∈ run, p b = true)
    (hstop : ∀ b ∈ rest.head?, p b = false) : (run ++ rest).takeWhile p = run := by
  rw [List.takeWhile_append_of_pos hrun]
  cases rest with
  | nil => simp
  | cons b rest => simp [hstop b (by simp)]

theorem dropWhile_append_stop {p : UInt8 → Bool} {run rest : Bytes} (hrun : ∀ b ∈ run, p b = true)
    (hstop : ∀ b ∈ rest.head?, p b = false) : (run ++ rest).dropWhile p = rest := by
  rw [List.dropWhile_append_of_pos hrun]
  cases rest with
  | nil => rfl
  | cons b rest => simp [hstop b (by simp)]

theorem cut (p : UInt8 → Bool) (text : Bytes) :
    text = text.takeWhile p ++ text.dropWhile p ∧ (∀ b ∈ text.takeWhile p, p b = true) ∧
      ∀ b ∈ (text.dropWhile p).head?, p b = false := by
  refine ⟨List.takeWhile_append_dropWhile.symm, List.all_eq_true.mp List.all_takeWhile, ?_⟩
  intro b hb
  have hstop := List.head?_dropWhile_not p text
  rw [Option.mem_def.mp hb] at hstop
  simpa using hstop

theorem eq_of_cut {p : UInt8 → Bool} {text run rest : Bytes} (htext : text = run ++ rest)
    (h : (∀ b ∈ run, p b = true) ∧ ∀ b ∈ rest.head?, p b = false) :
    run = text.takeWhile p ∧ rest = text.dropWhile p := by
  subst htext
  exact ⟨(takeWhile_append_stop h.1 h.2).symm, (dropWhile_append_stop h.1 h.2).symm⟩

theorem eq_of_isQuote {b : UInt8} (h : isQuote b = true) : b = 0x27 ∨ b = 0x22 ∨ b = 0x60 := by
  simpa [isQuote, or_assoc] using h

theorem isBlank_of_isQuote {b : UInt8} (h : isQuote b = true) : isBlank b = false := by
  rcases eq_of_isQuote h with rfl | rfl | rfl <;> decide

theorem isWord_of_isBlank {b : UInt8} (h : isBlank b = true) : isWord b = false := by
  simp only [isBlank, Bool.or_eq_true, beq_iff_eq, or_assoc] at h
  rcases h with rfl | rfl | rfl | rfl | rfl <;> decide

-- Numbers are written in digits, none of which ends a line.
theorem hexDigit_ne_lf : ∀ n, n < 16 → hexDigit n ≠ lf := by decide

theorem mem_hex {width n : Nat} {b : UInt8} (h : b ∈ hex width n) :
    ∃ d, d < 16 ∧ b = hexDigit d := by
  induction width generalizing n with
  | zero => simp [hex] at h
  | succ width ih =>
      rw [hex, List.mem_append, List.mem_singleton] at h
      rcases h with h | h
      · exact ih h
      · exact ⟨n % 16, Nat.mod_lt _ (by decide), h⟩

theorem length_hex (width n : Nat) : (hex width n).length = width := by
  induction width generalizing n with
  | zero => rfl
  | succ width ih => rw [hex, List.length_append, ih, List.length_singleton]

theorem lf_notMem_hex (width n : Nat) : lf ∉ hex width n := by
  intro hmem
  obtain ⟨d, hd, heq⟩ := mem_hex hmem
  exact hexDigit_ne_lf d hd heq.symm

theorem digit_ne_lf : ∀ n, n < 10 → byte '0' + n.toUInt8 ≠ lf := by decide

theorem lf_notMem_ofNat (n : Nat) : lf ∉ ofNat n := by
  fun_induction ofNat n with
  | case1 n hn => simpa [eq_comm] using digit_ne_lf n hn
  | case2 n hn ih =>
      have hdigit := digit_ne_lf (n % 10) (Nat.mod_lt _ (by decide))
      simp [ih, hdigit.symm]

theorem lf_notMem_ofInt (n : Int) : lf ∉ ofInt n := by
  cases n with
  | ofNat n => exact lf_notMem_ofNat n
  | negSucc n => exact List.not_mem_cons_of_ne_of_not_mem (by decide) (lf_notMem_ofNat (n + 1))

end ThemeLint.Bytes
