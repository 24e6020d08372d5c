import ThemeLint.Files.NamePattern
import ThemeLint.Proofs.Path
import Mathlib.Data.List.Forall2
import Mathlib.Data.List.TakeWhile

namespace ThemeLint.NamePattern

open Bytes ThemeLint.Path

def star : UInt8 := ThemeLint.byte '*'

-- A pattern in which no character but the star has a meaning of its own.
def IsSimple (text : Bytes) : Prop :=
  ∀ b ∈ text, b ≠ ThemeLint.byte '?' ∧ b ≠ ThemeLint.byte '[' ∧ b ≠ ThemeLint.byte '\\'

instance (text : Bytes) : Decidable (IsSimple text) :=
  inferInstanceAs (Decidable (∀ b ∈ text, _))

-- The names a simple pattern stands for: a star takes any bytes but slashes, and every
-- other byte takes itself.
def Spells : Bytes → Bytes → Prop
  | [], name => name = []
  | b :: text, name =>
    if b = star then ∃ skipped left, name = skipped ++ left ∧ slash ∉ skipped ∧ Spells text left
    else ∃ left, name = b :: left ∧ Spells text left

theorem spells_star {text name : Bytes} :
    Spells (star :: text) name ↔
      ∃ skipped left, name = skipped ++ left ∧ slash ∉ skipped ∧ Spells text left := by
  simp [Spells]

theorem spells_byte {b : UInt8} {text name : Bytes} (hb : b ≠ star) :
    Spells (b :: text) name ↔ ∃ left, name = b :: left ∧ Spells text left := by
  simp [Spells, hb]

theorem spells_append {text more name : Bytes} :
    Spells (text ++ more) name ↔
      ∃ front left, name = front ++ left ∧ Spells text front ∧ Spells more left := by
  induction text generalizing name with
  | nil =>
      constructor
      · intro h
        exact ⟨[], name, rfl, rfl, h⟩
      · rintro ⟨_, left, rfl, rfl, h⟩
        exact h
  | cons b text ih =>
      by_cases hb : b = star
      · subst hb
        simp only [List.cons_append, spells_star, ih]
        constructor
        · rintro ⟨skipped, _, rfl, hskipped, front, left, rfl, hfront, hleft⟩
          exact ⟨skipped ++ front, left, by simp, ⟨skipped, front, rfl, hskipped, hfront⟩, hleft⟩
        · rintro ⟨_, left, rfl, ⟨skipped, front, rfl, hskipped, hfront⟩, hleft⟩
          exact ⟨skipped, front ++ left, by simp, hskipped, front, left, rfl, hfront, hleft⟩
      · simp only [List.cons_append, spells_byte hb, ih]
        constructor
        · rintro ⟨_, rfl, front, left, rfl, hfront, hleft⟩
          exact ⟨b :: front, left, by simp, ⟨front, rfl, hfront⟩, hleft⟩
        · rintro ⟨_, left, rfl, ⟨front, rfl, hfront⟩, hleft⟩
          exact ⟨front ++ left, by simp, front, left, rfl, hfront, hleft⟩

theorem spells_of_notMem {text name : Bytes} (h : star ∉ text) : Spells text name ↔ name = text := by
  induction text generalizing name with
  | nil => simp [Spells]
  | cons b text ih =>
      obtain ⟨hb, htext⟩ := List.ne_and_not_mem_of_not_mem_cons h
      simp [spells_byte (Ne.symm hb), ih htext]

theorem spells_word_append {word text name : Bytes} (h : star ∉ word) :
    Spells (word ++ text) name ↔ ∃ left, name = word ++ left ∧ Spells text left := by
  rw [spells_append]
  constructor
  · rintro ⟨front, left, rfl, hfront, hleft⟩
    exact ⟨left, by rw [(spells_of_notMem h).mp hfront], hleft⟩
  · rintro ⟨left, rfl, hleft⟩
    exact ⟨word, left, rfl, (spells_of_notMem h).mpr rfl, hleft⟩

theorem spells_singleton_star {name : Bytes} : Spells [star] name ↔ slash ∉ name := by
  rw [spells_star]
  constructor
  · rintro ⟨skipped, left, rfl, hskipped, rfl⟩
    simpa using hskipped
  · intro hname
    exact ⟨name, [], by simp, hname, rfl⟩

-- A star at the end leaves open how a name goes on, and one at the start how it begins.
theorem spells_word_star {word name : Bytes} (hword : star ∉ word) (hname : slash ∉ name) :
    Spells (word ++ [star]) name ↔ ∃ rest, name = word ++ rest := by
  rw [spells_word_append hword]
  refine exists_congr fun rest => and_iff_left_of_imp fun heq => ?_
  exact spells_singleton_star.mpr fun hrest => hname (heq ▸ List.mem_append_right word hrest)

theorem spells_star_word {word name : Bytes} (hword : star ∉ word) (hname : slash ∉ name) :
    Spells (star :: word) name ↔ ∃ stem, name = stem ++ word := by
  rw [spells_star]
  refine exists_congr fun stem => ?_
  constructor
  · rintro ⟨left, rfl, -, hleft⟩
    rw [(spells_of_notMem hword).mp hleft]
  · rintro rfl
    exact ⟨word, rfl, fun hstem => hname (List.mem_append_left word hstem),
      (spells_of_notMem hword).mpr rfl⟩

-- A star can take more than it has to.
theorem Spells.extend {text extra left : Bytes} (h : Spells (star :: text) left)
    (hextra : slash ∉ extra) : Spells (star :: text) (extra ++ left) := by
  obtain ⟨skipped, left, rfl, hskipped, hleft⟩ := spells_star.mp h
  have hboth : slash ∉ extra ++ skipped := by simp [hextra, hskipped]
  exact spells_star.mpr ⟨extra ++ skipped, left, by simp, hboth, hleft⟩

-- Stars side by side take no more than one of them.
theorem spells_dropWhile_star {text name : Bytes} :
    Spells (star :: text.dropWhile (· == star)) name ↔ Spells (star :: text) name := by
  induction text with
  | nil => simp
  | cons b text ih =>
      by_cases hb : b = star
      · subst hb
        rw [List.dropWhile_cons_of_pos (by simp), ih]
        constructor
        · intro h
          exact spells_star.mpr ⟨[], name, rfl, List.not_mem_nil, h⟩
        · intro h
          obtain ⟨skipped, left, rfl, hskipped, hleft⟩ := spells_star.mp h
          exact hleft.extend hskipped
      · rw [List.dropWhile_cons_of_neg (by simpa using hb)]

theorem Spells.slash_notMem {text name : Bytes} (h : Spells text name) (htext : slash ∉ text) :
    slash ∉ name := by
  induction text generalizing name with
  | nil =>
      obtain rfl : name = [] := h
      exact List.not_mem_nil
  | cons b text ih =>
      obtain ⟨hb, hrest⟩ := List.ne_and_not_mem_of_not_mem_cons htext
      by_cases hstar : b = star
      · subst hstar
        obtain ⟨skipped, left, rfl, hskipped, hleft⟩ := spells_star.mp h
        simp [hskipped, ih hleft hrest]
      · obtain ⟨left, rfl, hleft⟩ := (spells_byte hstar).mp h
        simp [hb, ih hleft hrest]

-- Below, a pattern is read and held against a name as it is done in practice: chunk by
-- chunk, with every star taking as little as it can.

theorem chunkText_simple {text : Bytes} (h : IsSimple text) :
    chunkText false text = (text.takeWhile (· != star), text.dropWhile (· != star)) := by
  induction text with
  | nil => simp [chunkText]
  | cons b text ih =>
      obtain ⟨⟨-, hbracket, hescape⟩, htext⟩ := List.forall_mem_cons.mp h
      by_cases hb : b = star
      · subst hb
        have hstar : ThemeLint.byte '*' ≠ ThemeLint.byte '\\' := hescape
        rw [chunkText.eq_def]
        simp [star, hstar]
      · have hstar : b ≠ ThemeLint.byte '*' := hb
        rw [chunkText.eq_def]
        simp [hbracket, hescape, hstar, hb, ih htext]

theorem items?_simple {text : Bytes} {fuel : Nat} (h : IsSimple text) (hfuel : text.length ≤ fuel) :
    items? fuel text = some (text.map .byte) := by
  induction text generalizing fuel with
  | nil => cases fuel <;> rfl
  | cons b text ih =>
      obtain ⟨⟨hany, hbracket, hescape⟩, htext⟩ := List.forall_mem_cons.mp h
      cases fuel with
      | zero => simp at hfuel
      | succ fuel =>
          have hrest := ih htext (Nat.le_of_succ_le_succ hfuel)
          simp [items?, hany, hbracket, hescape, hrest]

theorem afterItems?_bytes (word name : Bytes) :
    afterItems? (word.map .byte) name = afterStart? word name := by
  induction word generalizing name with
  | nil => cases name <;> rfl
  | cons b word ih =>
      cases name with
      | nil => rfl
      | cons c name => simp [afterItems?, afterStart?, ih]

-- A word in a name, behind what a star takes. At the end of a pattern nothing is left.
structure Placed (word : Bytes) (isLast : Bool) (name skipped left : Bytes) : Prop where
  name_eq : name = skipped ++ (word ++ left)
  slash_notMem : slash ∉ skipped
  left_eq_nil : isLast = true → left = []

def front? (word : Bytes) (isLast : Bool) (name : Bytes) : Option Bytes :=
  (afterStart? word name).filter fun left => left.isEmpty || !isLast

theorem front?_eq_some {word name left : Bytes} {isLast : Bool} :
    front? word isLast name = some left ↔ Placed word isLast name [] left := by
  rw [front?, Option.filter_eq_some_iff, afterStart?_eq_some]
  constructor
  · rintro ⟨hname, hlast⟩
    exact ⟨hname, List.not_mem_nil, fun h => by simpa [h] using hlast⟩
  · rintro ⟨hname, -, hlast⟩
    exact ⟨hname, by cases isLast <;> simp_all⟩

theorem afterChunk?_false (word : Bytes) (isLast : Bool) (name : Bytes) :
    afterChunk? false (word.map .byte) isLast name = front? word isLast name := by
  simp [afterChunk?, afterItems?_bytes, front?]

theorem afterChunk?_of_front {word name left : Bytes} {isLast : Bool}
    (h : front? word isLast name = some left) :
    afterChunk? true (word.map .byte) isLast name = some left := by
  unfold front? at h
  simp [afterChunk?, afterItems?_bytes, h]

-- Where the word is not at the start, the star takes one more byte.
theorem afterChunk?_cons {word name : Bytes} {isLast : Bool} {b : UInt8} (hb : b ≠ slash)
    (h : front? word isLast (b :: name) = none) :
    afterChunk? true (word.map .byte) isLast (b :: name) =
      afterChunk? true (word.map .byte) isLast name := by
  have hb : b ≠ ThemeLint.byte '/' := hb
  unfold front? at h
  simp only [afterChunk?, afterItems?_bytes, h, Option.isNone_none, Bool.and_true, if_true, seek?,
    beq_iff_eq, hb, if_false]
  cases hstart : afterStart? word name with
  | none => simp
  | some left => cases isLast <;> cases left <;> simp [Option.filter_some]

theorem afterChunk?_slash {word name : Bytes} {isLast : Bool}
    (h : front? word isLast (slash :: name) = none) :
    afterChunk? true (word.map .byte) isLast (slash :: name) = none := by
  unfold front? at h
  simp only [afterChunk?, afterItems?_bytes, h, Option.isNone_none, Bool.and_true, if_true, seek?]
  rfl

theorem afterChunk?_nil {word : Bytes} {isLast : Bool} (h : front? word isLast [] = none) :
    afterChunk? true (word.map .byte) isLast [] = none := by
  unfold front? at h
  simp [afterChunk?, afterItems?_bytes, h, seek?]

structure FirstPlaced (word : Bytes) (isLast : Bool) (name skipped left : Bytes) : Prop
    extends Placed word isLast name skipped left where
  first : ∀ other rest, Placed word isLast name other rest → skipped.length ≤ other.length

theorem Placed.cons {word name skipped left : Bytes} {isLast : Bool} {b : UInt8} (hb : b ≠ slash)
    (h : Placed word isLast name skipped left) :
    Placed word isLast (b :: name) (b :: skipped) left :=
  ⟨by simp [h.name_eq], List.not_mem_cons_of_ne_of_not_mem hb.symm h.slash_notMem, h.left_eq_nil⟩

theorem Placed.of_cons {word name skipped left : Bytes} {isLast : Bool} {b c : UInt8}
    (h : Placed word isLast (b :: name) (c :: skipped) left) :
    b = c ∧ b ≠ slash ∧ Placed word isLast name skipped left := by
  obtain ⟨rfl, hname⟩ := List.cons.inj h.name_eq
  obtain ⟨hb, hskipped⟩ := List.ne_and_not_mem_of_not_mem_cons h.slash_notMem
  exact ⟨rfl, hb.symm, hname, hskipped, h.left_eq_nil⟩

-- Behind a star the word is looked for from left to right, up to the next slash.
theorem afterChunk?_star (word : Bytes) (isLast : Bool) (name : Bytes) :
    (∃ skipped left, afterChunk? true (word.map .byte) isLast name = some left ∧
        FirstPlaced word isLast name skipped left) ∨
      afterChunk? true (word.map .byte) isLast name = none ∧
        ∀ skipped left, ¬Placed word isLast name skipped left := by
  induction name with
  | nil =>
      cases hfront : front? word isLast [] with
      | some left =>
          have hplaced := front?_eq_some.mp hfront
          exact .inl ⟨[], left, afterChunk?_of_front hfront, hplaced, fun _ _ _ => Nat.zero_le _⟩
      | none =>
          refine .inr ⟨afterChunk?_nil hfront, fun skipped left hplaced => ?_⟩
          obtain rfl : skipped = [] := (List.append_eq_nil_iff.mp hplaced.name_eq.symm).1
          simp [front?_eq_some.mpr hplaced] at hfront
  | cons b name ih =>
      cases hfront : front? word isLast (b :: name) with
      | some left =>
          have hplaced := front?_eq_some.mp hfront
          exact .inl ⟨[], left, afterChunk?_of_front hfront, hplaced, fun _ _ _ => Nat.zero_le _⟩
      | none =>
          -- no placement starts here, so every one of them lets the star take the first byte
          have hsome : ∀ skipped left, Placed word isLast (b :: name) skipped left →
              ∃ more, skipped = b :: more ∧ b ≠ slash ∧ Placed word isLast name more left := by
            intro skipped left hplaced
            cases skipped with
            | nil => simp [front?_eq_some.mpr hplaced] at hfront
            | cons c more =>
                obtain ⟨rfl, hb, hmore⟩ := hplaced.of_cons
                exact ⟨more, rfl, hb, hmore⟩
          by_cases hb : b = slash
          · subst hb
            refine .inr ⟨afterChunk?_slash hfront, fun skipped left hplaced => ?_⟩
            obtain ⟨_, _, hne, _⟩ := hsome skipped left hplaced
            exact hne rfl
          · rw [afterChunk?_cons hb hfront]
            rcases ih with ⟨skipped, left, hafter, hplaced, hfirst⟩ | ⟨hafter, hnone⟩
            · refine .inl ⟨b :: skipped, left, hafter, hplaced.cons hb, fun other rest hother => ?_⟩
              obtain ⟨more, rfl, _, hmore⟩ := hsome other rest hother
              exact Nat.succ_le_succ (hfirst more rest hmore)
            · refine .inr ⟨hafter, fun skipped left hplaced => ?_⟩
              obtain ⟨more, rfl, _, hmore⟩ := hsome skipped left hplaced
              exact hnone more left hmore

-- Between two places of a word behind one star there is no slash.
theorem slash_notMem_between {word gap extra : Bytes} (h : word ++ extra = gap ++ word)
    (hgap : slash ∉ gap) : slash ∉ extra := by
  by_cases hword : slash ∈ word
  · -- up to their first slash both sides agree, so that there is no gap
    have hfirst := congrArg (List.takeWhile (· != slash)) h
    have hall : ∀ b ∈ gap, (b != slash) = true := by
      intro b hb
      have hne : b ≠ slash := fun heq => hgap (heq ▸ hb)
      simpa using hne
    have hstop : (word.takeWhile (· != slash)).length ≠ word.length := by
      intro heq
      have hself := (List.takeWhile_prefix (· != slash)).eq_of_length heq
      have hslash := List.mem_takeWhile_imp (hself ▸ hword)
      simp at hslash
    rw [List.takeWhile_append, if_neg hstop, List.takeWhile_append_of_pos hall] at hfirst
    have hlength := congrArg List.length hfirst
    rw [List.length_append] at hlength
    obtain rfl : gap = [] := List.length_eq_zero_iff.mp (by omega)
    obtain rfl : extra = [] := by simpa using h
    exact List.not_mem_nil
  · intro hextra
    have hmem : slash ∈ gap ++ word := h ▸ List.mem_append_right word hextra
    simp [hgap, hword] at hmem

-- If a pattern can go on with a star behind some place of a word, it can go on behind the
-- first place as well, where the star takes what stands between the two.
theorem FirstPlaced.spells {word name skipped left other rest text : Bytes}
    (hfirst : FirstPlaced word false name skipped left) (hother : Placed word false name other rest)
    (h : Spells (star :: text) rest) : Spells (star :: text) left := by
  have hle := hfirst.first other rest hother
  have hname := hfirst.name_eq.symm.trans hother.name_eq
  obtain ⟨gap, rfl⟩ : skipped <+: other :=
    List.prefix_of_prefix_length_le ⟨_, hname⟩ ⟨_, rfl⟩ hle
  rw [List.append_assoc, List.append_right_inj] at hname
  obtain ⟨extra, hextra⟩ : word <+: gap ++ word :=
    List.prefix_of_prefix_length_le ⟨_, hname⟩ ⟨rest, by simp⟩ (by simp)
  have hleft : left = extra ++ rest := by
    rw [← List.append_assoc, ← hextra, List.append_assoc, List.append_right_inj] at hname
    exact hname
  have hgap : slash ∉ gap := fun hmem => hother.slash_notMem (List.mem_append_right _ hmem)
  rw [hleft]
  exact h.extend (slash_notMem_between hextra hgap)

-- The answer to every name is yes or no, and yes exactly for what the text stands for.
def Decides (pattern : NamePattern) (text : Bytes) : Prop :=
  ∀ name, ∃ fit, fits? pattern name = some fit ∧ (fit = true ↔ Spells text name)

theorem decides_nil : Decides [] [] := by
  intro name
  exact ⟨name.isEmpty, rfl, by simp [Spells]⟩

-- A word at the start can stand in one place only.
theorem Decides.word {pattern : NamePattern} {rest word : Bytes} (h : Decides pattern rest)
    (hword : star ∉ word) (hlast : pattern.isEmpty = true → rest = []) :
    Decides (⟨false, some (word.map .byte)⟩ :: pattern) (word ++ rest) := by
  intro name
  simp only [fits?, Bool.false_and, Bool.false_eq_true, if_false, afterChunk?_false]
  cases hfront : front? word pattern.isEmpty name with
  | none =>
      refine ⟨false, rfl, by simp, fun hspells => ?_⟩
      obtain ⟨left, rfl, hleft⟩ := (spells_word_append hword).mp hspells
      have hplaced : Placed word pattern.isEmpty (word ++ left) [] left := by
        refine ⟨rfl, List.not_mem_nil, fun hempty => ?_⟩
        rw [hlast hempty] at hleft
        exact hleft
      simp [front?_eq_some.mpr hplaced] at hfront
  | some left =>
      obtain ⟨fit, hfits, hiff⟩ := h left
      obtain rfl := (front?_eq_some.mp hfront).name_eq
      refine ⟨fit, hfits, hiff.trans ?_⟩
      rw [List.nil_append, spells_word_append hword]
      constructor
      · intro hleft
        exact ⟨left, rfl, hleft⟩
      · rintro ⟨other, heq, hother⟩
        rwa [List.append_cancel_left heq]

theorem decides_star : Decides [⟨true, some []⟩] [star] := by
  intro name
  refine ⟨!name.contains slash, rfl, ?_⟩
  rw [spells_singleton_star]
  simp

-- Behind a star the word may stand in many places. To try the first is enough: either the
-- pattern ends there, or it goes on with a star.
theorem Decides.star_word {pattern : NamePattern} {rest word : Bytes} (h : Decides pattern rest)
    (hword : star ∉ word) (hne : word ≠ [])
    (hrest : pattern.isEmpty = true ∧ rest = [] ∨
      pattern.isEmpty = false ∧ ∃ more, rest = star :: more) :
    Decides (⟨true, some (word.map .byte)⟩ :: pattern) (star :: (word ++ rest)) := by
  intro name
  have hitems : (word.map NameItem.byte).isEmpty = false := by simpa using hne
  simp only [fits?, hitems, Bool.and_false, Bool.false_eq_true, if_false]
  have hspells : Spells (star :: (word ++ rest)) name ↔
      ∃ skipped left, Placed word pattern.isEmpty name skipped left ∧ Spells rest left := by
    rw [spells_star]
    constructor
    · rintro ⟨skipped, _, rfl, hskipped, hbehind⟩
      obtain ⟨left, rfl, hleft⟩ := (spells_word_append hword).mp hbehind
      refine ⟨skipped, left, ⟨rfl, hskipped, fun hempty => ?_⟩, hleft⟩
      rcases hrest with ⟨-, rfl⟩ | ⟨hfalse, -⟩
      · exact hleft
      · simp [hempty] at hfalse
    · rintro ⟨skipped, left, ⟨rfl, hskipped, -⟩, hleft⟩
      exact ⟨skipped, word ++ left, rfl, hskipped, (spells_word_append hword).mpr ⟨left, rfl, hleft⟩⟩
  rcases afterChunk?_star word pattern.isEmpty name with
    ⟨skipped, left, hafter, hfirst⟩ | ⟨hafter, hnone⟩
  · rw [hafter]
    obtain ⟨fit, hfits, hiff⟩ := h left
    refine ⟨fit, hfits, hiff.trans ?_⟩
    rw [hspells]
    constructor
    · intro hleft
      exact ⟨skipped, left, hfirst.toPlaced, hleft⟩
    · rintro ⟨other, after, hother, hafter⟩
      rcases hrest with ⟨hempty, rfl⟩ | ⟨hempty, more, rfl⟩
      · exact hfirst.left_eq_nil hempty
      · rw [hempty] at hfirst hother
        exact hfirst.spells hother hafter
  · rw [hafter]
    refine ⟨false, rfl, by simp, fun hname => ?_⟩
    obtain ⟨skipped, left, hplaced, -⟩ := hspells.mp hname
    exact (hnone skipped left hplaced).elim

theorem isEmpty_chunks {fuel : Nat} (text : Bytes) (hfuel : 0 < fuel) :
    (chunks fuel text).isEmpty = text.isEmpty := by
  obtain ⟨fuel, rfl⟩ := Nat.exists_eq_succ_of_ne_zero hfuel.ne'
  cases text <;> simp [chunks]

def bareText (text : Bytes) : Bytes := text.dropWhile (· == star)
def firstWord (text : Bytes) : Bytes := (bareText text).takeWhile (· != star)
def afterWord (text : Bytes) : Bytes := (bareText text).dropWhile (· != star)

theorem firstWord_append_afterWord (text : Bytes) :
    firstWord text ++ afterWord text = bareText text := List.takeWhile_append_dropWhile

theorem star_notMem_firstWord (text : Bytes) : star ∉ firstWord text := by
  intro hmem
  have hne := List.mem_takeWhile_imp hmem
  simp at hne

theorem afterWord_cases (text : Bytes) :
    afterWord text = [] ∨ ∃ more, afterWord text = star :: more := by
  have hhead := List.head?_dropWhile_not (· != star) (bareText text)
  rw [← afterWord] at hhead
  cases hafter : afterWord text with
  | nil => exact .inl rfl
  | cons b more =>
      rw [hafter] at hhead
      exact .inr ⟨more, by simpa using hhead⟩

theorem firstWord_ne_nil {text : Bytes} (h : bareText text ≠ []) : firstWord text ≠ [] := by
  have hhead := List.head?_dropWhile_not (· == star) text
  rw [← bareText] at hhead
  cases hbare : bareText text with
  | nil => exact absurd hbare h
  | cons b more =>
      rw [hbare] at hhead
      have hb : b ≠ star := by simpa using hhead
      simp [firstWord, hbare, hb]

theorem bareText_star (tail : Bytes) : bareText (star :: tail) = tail.dropWhile (· == star) := by
  simp [bareText]

theorem bareText_of_ne {b : UInt8} (tail : Bytes) (hb : b ≠ star) :
    bareText (b :: tail) = b :: tail := by
  simp [bareText, hb]

theorem length_afterWord_lt {text : Bytes} (hne : text ≠ []) :
    (afterWord text).length < text.length := by
  obtain ⟨b, tail, rfl⟩ := List.exists_cons_of_ne_nil hne
  have hlength := congrArg List.length (firstWord_append_afterWord (b :: tail))
  rw [List.length_append] at hlength
  by_cases hb : b = star
  · subst hb
    have hle : (bareText (star :: tail)).length ≤ tail.length := by
      rw [bareText_star]
      exact (List.dropWhile_suffix _).length_le
    rw [List.length_cons]
    omega
  · have hword : firstWord (b :: tail) ≠ [] := firstWord_ne_nil (by simp [bareText_of_ne tail hb])
    have hpos := List.length_pos_iff.mpr hword
    rw [bareText_of_ne tail hb] at hlength
    omega

-- One chunk more: what holds of the rest of a pattern holds of the whole of it.
theorem Decides.cons {pattern : NamePattern} {text : Bytes} (hne : text ≠ [])
    (h : Decides pattern (afterWord text))
    (hrest : pattern.isEmpty = true ∧ afterWord text = [] ∨
      pattern.isEmpty = false ∧ ∃ more, afterWord text = star :: more) :
    Decides (⟨text.head? == some star, some ((firstWord text).map .byte)⟩ :: pattern) text := by
  have hword := star_notMem_firstWord text
  have happend := firstWord_append_afterWord text
  obtain ⟨b, tail, rfl⟩ := List.exists_cons_of_ne_nil hne
  by_cases hb : b = star
  · subst hb
    have hhead : ((star :: tail).head? == some star) = true := by simp
    intro name
    rw [← spells_dropWhile_star, ← bareText_star, hhead]
    by_cases hbare : bareText (star :: tail) = []
    · -- there is nothing behind the stars
      obtain ⟨hnil, hafter⟩ := List.append_eq_nil_iff.mp (happend.trans hbare)
      obtain rfl : pattern = [] := by simpa [hafter] using hrest
      rw [hbare, hnil]
      exact decides_star name
    · rw [← happend]
      exact h.star_word hword (firstWord_ne_nil hbare) hrest name
  · have hhead : ((b :: tail).head? == some star) = false := by simpa using hb
    have hlast : pattern.isEmpty = true → afterWord (b :: tail) = [] := by
      rcases hrest with ⟨-, hnil⟩ | ⟨hfalse, -⟩
      · exact fun _ => hnil
      · simp [hfalse]
    rw [bareText_of_ne tail hb] at happend
    have hdecides := h.word hword hlast
    rwa [happend, ← hhead] at hdecides

theorem IsSimple.of_subset {text part : Bytes} (h : IsSimple text) (hsub : part ⊆ text) :
    IsSimple part := fun b hb => h b (hsub hb)

theorem bareText_subset (text : Bytes) : bareText text ⊆ text := (List.dropWhile_suffix _).subset

theorem afterWord_subset (text : Bytes) : afterWord text ⊆ text :=
  List.Subset.trans (List.dropWhile_suffix _).subset (bareText_subset text)

theorem chunks_simple {text : Bytes} (fuel : Nat) (hsimple : IsSimple text) (hne : text ≠ []) :
    chunks (fuel + 1) text =
      ⟨text.head? == some star, some ((firstWord text).map .byte)⟩ ::
        chunks fuel (afterWord text) := by
  have hbare := hsimple.of_subset (bareText_subset text)
  have hword : IsSimple (firstWord text) := hbare.of_subset (List.takeWhile_prefix _).subset
  have hitems := items?_simple hword (Nat.le_succ _)
  have hchunk := chunkText_simple hbare
  simp only [bareText, firstWord, star] at hchunk hitems
  simp only [chunks, List.isEmpty_iff, hne, if_false, hchunk, hitems, firstWord, afterWord,
    bareText, star]

theorem decides_chunks {fuel : Nat} {text : Bytes} (hsimple : IsSimple text)
    (hfuel : text.length < fuel) : Decides (chunks fuel text) text := by
  induction fuel generalizing text with
  | zero => simp at hfuel
  | succ fuel ih =>
      by_cases hne : text = []
      · subst hne
        exact decides_nil
      · have hlength := length_afterWord_lt hne
        have hafter := ih (hsimple.of_subset (afterWord_subset text)) (by omega)
        rw [chunks_simple fuel hsimple hne]
        apply Decides.cons hne hafter
        rw [isEmpty_chunks _ (by omega)]
        rcases afterWord_cases text with hnil | ⟨more, hmore⟩
        · exact .inl ⟨by simp [hnil], hnil⟩
        · exact .inr ⟨by simp [hmore], more, hmore⟩

theorem decides_parse {text : Bytes} (hsimple : IsSimple text) : Decides (parse text) text :=
  decides_chunks hsimple (Nat.lt_succ_self _)

theorem fits?_parse_iff {text name : Bytes} (hsimple : IsSimple text) :
    fits? (parse text) name = some true ↔ Spells text name := by
  obtain ⟨fit, hfits, hiff⟩ := decides_parse hsimple name
  rw [hfits, Option.some.injEq]
  exact hiff

-- A star does not cross a slash, so a path is spelled by a pattern part by part.
theorem spells_joinWith {parts place : List Bytes} (hparts : parts ≠ []) (hplace : place ≠ [])
    (hslash : ∀ part ∈ parts, slash ∉ part) (hname : ∀ name ∈ place, slash ∉ name) :
    Spells (joinWith [slash] parts) (joinWith [slash] place) ↔ List.Forall₂ Spells parts place := by
  induction parts generalizing place with
  | nil => exact absurd rfl hparts
  | cons part others ih =>
      obtain ⟨name, place, rfl⟩ := List.exists_cons_of_ne_nil hplace
      obtain ⟨hpart, hothers⟩ := List.forall_mem_cons.mp hslash
      obtain ⟨hfirst, hplace⟩ := List.forall_mem_cons.mp hname
      cases others with
      | nil =>
          rw [joinWith_singleton]
          cases place with
          | nil => simp
          | cons next place =>
              constructor
              · intro h
                have hslash : slash ∈ joinWith [slash] (name :: next :: place) := by
                  simp [joinWith_cons_cons]
                exact absurd hslash (h.slash_notMem hpart)
              · intro h
                simp at h
      | cons second others =>
          rw [joinWith_cons_cons, List.append_assoc, List.singleton_append, spells_append]
          cases place with
          | nil =>
              constructor
              · rintro ⟨front, left, heq, -, hleft⟩
                obtain ⟨left, rfl, -⟩ := (spells_byte (by decide)).mp hleft
                rw [joinWith_singleton] at heq
                simp [heq] at hfirst
              · intro h
                simp at h
          | cons next place =>
              have hrest := ih (by simp) (List.cons_ne_nil next place) hothers hplace
              rw [joinWith_cons_cons, List.append_assoc, List.singleton_append, List.forall₂_cons,
                ← hrest]
              constructor
              · rintro ⟨front, _, heq, hfront, hbehind⟩
                obtain ⟨left, rfl, hleft⟩ := (spells_byte (by decide)).mp hbehind
                -- neither side has a slash before the first one written here
                have hsplit := congrArg (partsBy slash) heq
                rw [partsBy_append_cons, partsBy_append_cons, partsBy_of_notMem hfirst,
                  partsBy_of_notMem (hfront.slash_notMem hpart)] at hsplit
                obtain rfl := (List.cons.inj hsplit).1
                obtain rfl := (List.cons.inj (List.append_cancel_left heq)).2
                exact ⟨hfront, hleft⟩
              · rintro ⟨hfront, hleft⟩
                exact ⟨name, _, rfl, hfront, (spells_byte (by decide)).mpr ⟨_, rfl, hleft⟩⟩

end ThemeLint.NamePattern
