import ThemeLint.Color
import ThemeLint.Proofs.Bytes
import ThemeLint.Proofs.Match

namespace ThemeLint.Color

open Bytes

-- What stands between two texts as a hex color, behind its number sign: the longest run of
-- hex digits. It is no part of a word, and no number of a character entity.
structure IsHex (before digits after : Bytes) : Prop where
  isHexDigit : ∀ b ∈ digits, isHexDigit b = true
  longest : ∀ b ∈ after.head?, Bytes.isHexDigit b = false
  length : digits.length = 3 ∨ digits.length = 6 ∨ digits.length = 8
  apart_before : ∀ b ∈ before.getLast?, b ≠ byte '&' ∧ isWord b = false
  apart_after : ∀ b ∈ after.head?, b ≠ byte '-' ∧ isWord b = false

def openings : List Bytes := [utf8 "rgb(", utf8 "rgba(", utf8 "hsl(", utf8 "hsla("]

-- The opening of a color function, behind a text that does not end in a plain word.
structure IsOpening (before opening : Bytes) : Prop where
  mem : opening ∈ openings
  apart_before : ∀ b ∈ before.getLast?, isPlainWord b = false

inductive IsLiteral (before : Bytes) : Bytes → Bytes → Prop
  | hex {digits after : Bytes} (h : IsHex before digits after) :
      IsLiteral before (byte '#' :: digits) after
  | function {opening after : Bytes} (h : IsOpening before opening) :
      IsLiteral before opening after

theorem isHexLiteral_iff {before after : Option UInt8} {digits : Nat} :
    isHexLiteral before digits after = true ↔
      (digits = 3 ∨ digits = 6 ∨ digits = 8) ∧
        (∀ b ∈ before, b ≠ byte '&' ∧ isWord b = false) ∧
        ∀ b ∈ after, b ≠ byte '-' ∧ isWord b = false := by
  have hdigits : ((digits : Int) == 3 || (digits : Int) == 6 || (digits : Int) == 8) = true ↔
      digits = 3 ∨ digits = 6 ∨ digits = 8 := by
    simp only [Bool.or_eq_true, beq_iff_eq]
    omega
  rw [isHexLiteral, Bool.and_eq_true, Bool.and_eq_true, hdigits, and_assoc]
  simp [Option.all_eq_true]

theorem isHex_iff {before digits after : Bytes} :
    IsHex before digits after ↔
      ((∀ b ∈ digits, isHexDigit b = true) ∧ ∀ b ∈ after.head?, isHexDigit b = false) ∧
        isHexLiteral before.getLast? digits.length after.head? = true := by
  rw [isHexLiteral_iff]
  constructor
  · rintro ⟨hdigits, hlongest, hlength, hbefore, hafter⟩
    exact ⟨⟨hdigits, hlongest⟩, hlength, hbefore, hafter⟩
  · rintro ⟨⟨hdigits, hlongest⟩, hlength, hbefore, hafter⟩
    exact ⟨hdigits, hlongest, hlength, hbefore, hafter⟩

theorem hexLength_eq_some {before rest : Bytes} {length : Nat} :
    hexLength before.getLast? rest = some length ↔
      ∃ digits after, rest = byte '#' :: digits ++ after ∧ IsHex before digits after ∧
        digits.length + 1 = length := by
  cases rest with
  | nil => simp [hexLength]
  | cons b rest =>
      by_cases hb : b = byte '#'
      · subst hb
        simp only [hexLength, bne_self_eq_false, Bool.false_eq_true, if_false,
          Option.ite_none_right_eq_some, Option.some.injEq]
        constructor
        · rintro ⟨hliteral, hlength⟩
          obtain ⟨hrest, hrun⟩ := cut isHexDigit rest
          exact ⟨_, _, congrArg (byte '#' :: ·) hrest, isHex_iff.mpr ⟨hrun, hliteral⟩, hlength⟩
        · rintro ⟨digits, after, hrest, hhex, hlength⟩
          obtain ⟨hrun, hliteral⟩ := isHex_iff.mp hhex
          obtain ⟨hdigits, hafter⟩ := eq_of_cut (List.cons.inj hrest).2 hrun
          rw [← hdigits, ← hafter]
          exact ⟨hliteral, hlength⟩
      · have hne : (b != byte '#') = true := by simpa using hb
        simp [hexLength, hne, hb]

theorem functionLength_eq_some {before rest : Bytes} {length : Nat} :
    functionLength before.getLast? rest = some length ↔
      ∃ opening after, rest = opening ++ after ∧ IsOpening before opening ∧
        opening.length = length := by
  by_cases hbefore : before.getLast?.any isPlainWord = true
  · have hnot : ∀ opening, ¬IsOpening before opening := by
      rintro opening ⟨_, hapart⟩
      obtain ⟨b, hb, hword⟩ := (Option.any_eq_true _ _).mp hbefore
      simp [hapart b hb] at hword
    simp [functionLength, hbefore, hnot]
  · have hapart : ∀ b ∈ before.getLast?, isPlainWord b = false := by
      rw [Option.any_eq_true] at hbefore
      simpa using hbefore
    rw [functionLength, if_neg hbefore]
    constructor
    · intro h
      obtain ⟨opening, hmem, hstarts, hlength⟩ : ∃ opening ∈ openings,
          startsWith opening rest = true ∧ opening.length = length := by
        split at h
        · rename_i hstarts
          rcases Bool.or_eq_true_iff.mp hstarts with hstarts | hstarts
          · exact ⟨_, by decide, hstarts, Option.some.inj h⟩
          · exact ⟨_, by decide, hstarts, Option.some.inj h⟩
        split at h
        · rename_i hstarts
          rcases Bool.or_eq_true_iff.mp hstarts with hstarts | hstarts
          · exact ⟨_, by decide, hstarts, Option.some.inj h⟩
          · exact ⟨_, by decide, hstarts, Option.some.inj h⟩
        · simp at h
      obtain ⟨after, rfl⟩ := startsWith_iff.mp hstarts
      exact ⟨opening, after, rfl, ⟨hmem, hapart⟩, hlength⟩
    · rintro ⟨opening, after, rfl, ⟨hmem, _⟩, rfl⟩
      simp only [openings, List.mem_cons, List.not_mem_nil, or_false] at hmem
      rcases hmem with rfl | rfl | rfl | rfl <;> rfl

-- The bytes that a literal may start with. None of them is a hex digit, and none comes
-- again in the opening of a color function.
def isFirst (b : UInt8) : Bool := b == byte '#' || b == byte 'r' || b == byte 'h'

theorem isFirst_of_isHexDigit {b : UInt8} (h : isHexDigit b = true) : isFirst b = false := by
  rw [Bool.eq_false_iff]
  intro hfirst
  simp only [isFirst, Bool.or_eq_true, beq_iff_eq, or_assoc] at hfirst
  rcases hfirst with rfl | rfl | rfl <;> revert h <;> decide

theorem openings_first {opening : Bytes} (h : opening ∈ openings) :
    ∃ b rest, opening = b :: rest ∧ isFirst b = true ∧ ∀ c ∈ rest, isFirst c = false := by
  have hfirst : ∀ opening ∈ openings,
      opening.head?.any isFirst = true ∧ opening.tail.all (!isFirst ·) = true := by decide
  obtain ⟨hhead, htail⟩ := hfirst opening h
  cases opening with
  | nil => simp at hhead
  | cons b rest => exact ⟨b, rest, rfl, by simpa using hhead, by simpa using htail⟩

theorem head?_openings : ∀ opening ∈ openings, opening.head? ≠ some (byte '#') := by decide

theorem hexLength_of_opening {before opening after : Bytes} (h : opening ∈ openings) :
    hexLength before.getLast? (opening ++ after) = none := by
  rw [Option.eq_none_iff_forall_ne_some]
  intro length hlength
  obtain ⟨digits, other, hrest, _⟩ := hexLength_eq_some.mp hlength
  obtain ⟨b, rest, rfl, _⟩ := openings_first h
  obtain ⟨rfl, _⟩ := List.cons.inj hrest
  exact head?_openings _ h rfl

theorem literal_decides : literal.Decides IsLiteral isFirst where
  eq_some_iff before rest length := by
    rw [literal, Option.or_eq_some_iff, hexLength_eq_some, functionLength_eq_some]
    constructor
    · rintro (⟨digits, after, rfl, hhex, rfl⟩ | ⟨_, opening, after, rfl, hopening, rfl⟩)
      · exact ⟨_, after, rfl, .hex hhex, rfl⟩
      · exact ⟨opening, after, rfl, .function hopening, rfl⟩
    · rintro ⟨found, after, rfl, hliteral, rfl⟩
      cases hliteral with
      | hex hhex => exact .inl ⟨_, after, rfl, hhex, rfl⟩
      | function hopening =>
          exact .inr ⟨hexLength_of_opening hopening.mem, found, after, rfl, hopening, rfl⟩
  first before found after hliteral := by
    cases hliteral with
    | hex hhex =>
        exact ⟨_, _, rfl, by decide, fun c hc => isFirst_of_isHexDigit (hhex.isHexDigit c hc)⟩
    | function hopening => exact openings_first hopening.mem

theorem mem_findAll {text : Bytes} {m : Match} : m ∈ findAll text ↔ m.Stands IsLiteral text :=
  literal_decides.mem_findAll_iff

def hexRun : Pattern := fun _ text =>
  match text with
  | [] => none
  | b :: rest =>
    let digits := rest.takeWhile isHexDigit
    if b == byte '#' && !digits.isEmpty then some (digits.length + 1) else none

-- One walk for runs of hex digits, of which only the colors are kept, and one for color
-- functions, ordered by column.
def findInTwoWalks (text : Bytes) : List Match :=
  ((hexRun.findAll text).filter (isHexColor text ·.span) ++
    Pattern.findAll functionLength text).mergeSort fun a b => decide (a.start ≤ b.start)

def IsHexRun (found after : Bytes) : Prop :=
  ∃ digits, found = byte '#' :: digits ∧ digits ≠ [] ∧ (∀ b ∈ digits, isHexDigit b = true) ∧
    ∀ b ∈ after.head?, isHexDigit b = false

theorem hexRun_decides : hexRun.Decides (fun _ => IsHexRun) isFirst where
  eq_some_iff before rest length := by
    cases rest with
    | nil => simp [hexRun, IsHexRun]
    | cons b rest =>
        simp only [hexRun, Option.ite_none_right_eq_some, Option.some.injEq, Bool.and_eq_true,
          beq_iff_eq, Bool.not_eq_true', List.isEmpty_eq_false_iff]
        constructor
        · rintro ⟨⟨rfl, hne⟩, rfl⟩
          obtain ⟨hrest, hrun⟩ := cut isHexDigit rest
          exact ⟨_, _, congrArg (byte '#' :: ·) hrest, ⟨_, rfl, hne, hrun⟩, rfl⟩
        · rintro ⟨_, after, hrest, ⟨digits, rfl, hne, hrun⟩, rfl⟩
          obtain ⟨rfl, htail⟩ := List.cons.inj hrest
          obtain ⟨hdigits, _⟩ := eq_of_cut htail hrun
          rw [← hdigits]
          exact ⟨⟨rfl, hne⟩, rfl⟩
  first before found after hrun := by
    obtain ⟨digits, rfl, _, hdigits, _⟩ := hrun
    exact ⟨_, _, rfl, by decide, fun c hc => isFirst_of_isHexDigit (hdigits c hc)⟩

theorem functionLength_decides :
    Pattern.Decides functionLength (fun before found _ => IsOpening before found) isFirst where
  eq_some_iff _ _ _ := functionLength_eq_some
  first _ _ _ hopening := openings_first hopening.mem

theorem byteAt_natCast (text : Bytes) (offset : Nat) : byteAt text offset = text[offset]? := by
  rw [byteAt, if_neg (by omega), Int.toNat_natCast]

theorem isHexColor_append (before digits after : Bytes) :
    isHexColor (before ++ byte '#' :: digits ++ after)
        (Match.span ⟨byte '#' :: digits, before.length⟩) =
      isHexLiteral before.getLast? digits.length after.head? := by
  rw [isHexColor]
  congr 1
  · rcases List.eq_nil_or_concat before with rfl | ⟨front, last, rfl⟩
    · rfl
    · simp [Match.span, byteAt]
  · simp only [Match.span, Match.stop, List.length_cons]
    omega
  · rw [Match.span, Match.stop, byteAt_natCast, List.getElem?_append_right (by simp)]
    simp [List.head?_eq_getElem?]

theorem stands_isLiteral_iff {text : Bytes} {m : Match} :
    m.Stands IsLiteral text ↔
      m.Stands (fun _ => IsHexRun) text ∧ isHexColor text m.span = true ∨
        m.Stands (fun before found _ => IsOpening before found) text := by
  obtain ⟨found, start⟩ := m
  constructor
  · rintro ⟨before, after, rfl, rfl, hliteral⟩
    cases hliteral with
    | @hex digits _ hhex =>
        obtain ⟨hrun, hcolor⟩ := isHex_iff.mp hhex
        have hne : digits ≠ [] := by
          rintro rfl
          simpa using hhex.length
        refine .inl ⟨⟨before, after, rfl, rfl, digits, rfl, hne, hrun⟩, ?_⟩
        rwa [isHexColor_append]
    | function hopening => exact .inr ⟨before, after, rfl, rfl, hopening⟩
  · rintro (⟨⟨before, after, rfl, rfl, digits, rfl, _, hrun⟩, hcolor⟩ |
      ⟨before, after, htext, hstart, hopening⟩)
    · rw [isHexColor_append] at hcolor
      exact ⟨before, after, rfl, rfl, .hex (isHex_iff.mpr ⟨hrun, hcolor⟩)⟩
    · exact ⟨before, after, htext, hstart, .function hopening⟩

theorem mem_findInTwoWalks {text : Bytes} {m : Match} :
    m ∈ findInTwoWalks text ↔ m ∈ findAll text := by
  rw [findInTwoWalks, List.mem_mergeSort, List.mem_append, List.mem_filter,
    hexRun_decides.mem_findAll_iff, functionLength_decides.mem_findAll_iff,
    ← stands_isLiteral_iff, mem_findAll]

-- A find of one kind hides none of the other.
theorem findAll_eq_findInTwoWalks (text : Bytes) : findAll text = findInTwoWalks text := by
  have hnodup : ((hexRun.findAll text).filter (isHexColor text ·.span) ++
      Pattern.findAll functionLength text).Nodup := by
    refine List.nodup_append.mpr
      ⟨(Pattern.findAll_nodup _ _).filter _, Pattern.findAll_nodup _ _, ?_⟩
    rintro m hm _ hother rfl
    obtain ⟨_, _, _, _, digits, hhex, _⟩ :=
      hexRun_decides.mem_findAll_iff.mp (List.mem_filter.mp hm).1
    obtain ⟨_, _, _, _, hopening, _⟩ := functionLength_decides.mem_findAll_iff.mp hother
    exact head?_openings _ hopening (by rw [hhex, List.head?_cons])
  have hperm : (findAll text).Perm (findInTwoWalks text) := by
    refine (List.perm_ext_iff_of_nodup (Pattern.findAll_nodup _ _) ?_).mpr
      fun m => mem_findInTwoWalks.symm
    exact (List.mergeSort_perm _ _).nodup_iff.mpr hnodup
  have hsorted : (findInTwoWalks text).Pairwise fun a b => a.start ≤ b.start := by
    refine (List.pairwise_mergeSort ?_ ?_ _).imp of_decide_eq_true
    · intro a b c hab hbc
      simp only [decide_eq_true_eq] at hab hbc ⊢
      omega
    · intro a b
      simp only [Bool.or_eq_true, decide_eq_true_eq]
      omega
  refine hperm.eq_of_pairwise (fun a b ha hb hab hba => ?_)
    ((Pattern.findAll_ascending literal text).imp Nat.le_of_lt) hsorted
  exact Pattern.findAll_eq_of_start ha (mem_findInTwoWalks.mp hb) (Nat.le_antisymm hab hba)

-- The color literals found on a line are exactly those that stand on it, one for each
-- place. They are found from left to right and share no byte, and one walk finds them as
-- well as two that are merged.
theorem findAll_exact (text : Bytes) :
    (∀ m, m ∈ findAll text ↔ m.Stands IsLiteral text) ∧
    (∀ offset, (∃ found, Match.Stands IsLiteral text ⟨found, offset⟩) ↔
      ∃! m, m ∈ findAll text ∧ m.start = offset) ∧
    (findAll text).Pairwise (fun a b => a.start < b.start ∧ a.stop ≤ b.start) ∧
    findAll text = findInTwoWalks text := by
  refine ⟨fun m => mem_findAll, fun offset => ⟨?_, ?_⟩, ?_, findAll_eq_findInTwoWalks text⟩
  · rintro ⟨found, hstands⟩
    have hfound : ⟨found, offset⟩ ∈ findAll text := mem_findAll.mpr hstands
    refine ⟨⟨found, offset⟩, ⟨hfound, rfl⟩, ?_⟩
    rintro other ⟨hother, hstart⟩
    exact Pattern.findAll_eq_of_start hother hfound hstart
  · rintro ⟨m, ⟨hm, rfl⟩, _⟩
    exact ⟨m.text, mem_findAll.mp hm⟩
  · exact (Pattern.findAll_ascending literal text).imp₂ (fun _ _ => And.intro)
      (Pattern.findAll_ordered literal text)

example : findAll (utf8 "a#fff &#123; #fade-in #ABC,#00112233 torgb( rgba(") =
    [⟨utf8 "#ABC", 22⟩, ⟨utf8 "#00112233", 27⟩, ⟨utf8 "rgba(", 44⟩] := by decide

def IsGlued (text : Bytes) (m : Match) : Prop :=
  0 < m.start ∧ ∃ b, text[m.start - 1]? = some b ∧ isWord b = true

theorem isGlued_append {before after : Bytes} {m : Match} (hstart : before.length = m.start) :
    IsGlued (before ++ m.text ++ after) m ↔ ∃ b ∈ before.getLast?, isWord b = true := by
  rw [IsGlued, ← hstart]
  rcases List.eq_nil_or_concat before with rfl | ⟨front, last, rfl⟩
  · simp
  · simp

theorem eq_dollar {b : UInt8} (hword : isWord b = true) (hplain : isPlainWord b = false) :
    b = byte '$' := by
  simpa [isWord, hplain] using hword

-- Only a color function is found at the end of a longer identifier, and only behind a
-- dollar sign, where it always is: its name is kept apart from plain words alone.
theorem found_and_glued_iff (text : Bytes) (m : Match) :
    m ∈ findAll text ∧ IsGlued text m ↔
      m.text ∈ openings ∧ ∃ before after,
        text = before ++ byte '$' :: m.text ++ after ∧ before.length + 1 = m.start := by
  rw [mem_findAll]
  constructor
  · rintro ⟨⟨before, after, rfl, hstart, hliteral⟩, hglued⟩
    obtain ⟨b, hb, hword⟩ := (isGlued_append hstart).mp hglued
    obtain ⟨found, start⟩ := m
    cases hliteral with
    | hex hhex => simp [(hhex.apart_before b hb).2] at hword
    | function hopening =>
        obtain rfl := eq_dollar hword (hopening.apart_before b hb)
        obtain ⟨front, rfl⟩ := List.getLast?_eq_some_iff.mp hb
        exact ⟨hopening.mem, front, after, by simp, by simpa using hstart⟩
  · rintro ⟨hopening, before, after, htext, hstart⟩
    have hcut : text = (before ++ [byte '$']) ++ m.text ++ after := by simp [htext]
    have hlength : (before ++ [byte '$']).length = m.start := by simpa using hstart
    have hplain : ∀ b ∈ (before ++ [byte '$']).getLast?, isPlainWord b = false := by
      simp only [List.getLast?_concat, Option.mem_def, Option.some.injEq, forall_eq']
      decide
    refine ⟨⟨_, after, hcut, hlength, .function ⟨hopening, hplain⟩⟩, ?_⟩
    rw [hcut, isGlued_append hlength]
    exact ⟨byte '$', by simp, by decide⟩

theorem not_every_literal_apart :
    ¬∀ (text : Bytes), ∀ m ∈ findAll text, ¬IsGlued text m := by
  intro hall
  have hfound : ⟨utf8 "rgb(", 1⟩ ∈ findAll (utf8 "$rgb(0)") := by decide
  exact hall _ _ hfound ⟨by decide, byte '$', by decide, by decide⟩

end ThemeLint.Color
