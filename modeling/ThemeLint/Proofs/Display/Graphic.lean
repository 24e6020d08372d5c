import ThemeLint.Proofs.Bytes

namespace ThemeLint.Display

open Bytes

def isParameter (b : UInt8) : Bool := isDigit b || b == byte ';'

-- A sequence that sets a style: an escape, a bracket, parameters, and the letter m.
def IsGraphic (sequence : Bytes) : Prop :=
  ∃ parameters, sequence = 0x1B :: byte '[' :: (parameters ++ [byte 'm']) ∧
    ∀ b ∈ parameters, isParameter b = true

def graphicLength? : Bytes → Option Nat
  | escape :: bracket :: rest =>
    if escape == 0x1B && bracket == byte '['
        && (rest.dropWhile isParameter).head? == some (byte 'm') then
      some ((rest.takeWhile isParameter).length + 3)
    else none
  | _ => none

-- Walks a text once, from left to right, and leaves out every sequence that it comes to.
-- `skip` counts the bytes that are still to be left out.
def eraseFrom : Nat → Bytes → Bytes
  | _, [] => []
  | skip + 1, _ :: rest => eraseFrom skip rest
  | 0, b :: rest =>
    match graphicLength? (b :: rest) with
    | some length => eraseFrom (length - 1) rest
    | none => b :: eraseFrom 0 rest

def eraseGraphics (text : Bytes) : Bytes := eraseFrom 0 text

-- The bytes that come in a sequence behind its escape.
def isInside (b : UInt8) : Bool := b == byte '[' || isParameter b || b == byte 'm'

variable {text rest sequence : Bytes}

theorem IsGraphic.exists_cons (h : IsGraphic sequence) :
    ∃ inside, sequence = 0x1B :: inside ∧ ∀ b ∈ inside, isInside b = true := by
  obtain ⟨parameters, rfl, hparameters⟩ := h
  refine ⟨_, rfl, List.forall_mem_cons.mpr ⟨by decide, List.forall_mem_append.mpr ⟨?_, ?_⟩⟩⟩
  · intro b hb
    simp [isInside, hparameters b hb]
  · exact List.forall_mem_singleton.mpr (by decide)

theorem graphicLength?_eq_some {length : Nat} :
    graphicLength? text = some length ↔
      ∃ sequence after, text = sequence ++ after ∧ IsGraphic sequence ∧
        sequence.length = length := by
  constructor
  · intro h
    unfold graphicLength? at h
    split at h
    case h_2 => simp at h
    case h_1 escape bracket rest =>
      obtain ⟨hcut, hall, -⟩ := cut isParameter rest
      split at h
      case isFalse => simp at h
      case isTrue hmark =>
        simp only [Bool.and_eq_true, beq_iff_eq, List.head?_eq_some_iff] at hmark
        obtain ⟨⟨rfl, rfl⟩, after, hafter⟩ := hmark
        rw [hafter] at hcut
        refine ⟨_, after, ?_, ⟨rest.takeWhile isParameter, rfl, hall⟩, ?_⟩
        · simpa using hcut
        · simpa using h
  · rintro ⟨_, after, rfl, ⟨parameters, rfl, hparameters⟩, rfl⟩
    have hstop : ∀ b ∈ (byte 'm' :: after).head?, isParameter b = false := by
      intro b hb
      obtain rfl : byte 'm' = b := by simpa using hb
      decide
    have hrun := takeWhile_append_stop hparameters hstop
    have hrest := dropWhile_append_stop hparameters hstop
    simp [graphicLength?, hrun, hrest]

theorem graphicLength?_of_ne {b : UInt8} (hb : b ≠ 0x1B) (rest : Bytes) :
    graphicLength? (b :: rest) = none := by
  cases rest <;> simp [graphicLength?, hb]

-- A text behind which no sequence can go on: what follows it starts with no byte that comes
-- inside a sequence.
def IsSeam (rest : Bytes) : Prop := ∀ b ∈ rest.head?, isInside b = false

-- A sequence that starts before a seam ends before it.
theorem graphicLength?_append (hne : text ≠ []) (hseam : IsSeam rest) :
    graphicLength? (text ++ rest) = graphicLength? text := by
  refine Option.ext fun length => ?_
  rw [graphicLength?_eq_some, graphicLength?_eq_some]
  constructor
  · rintro ⟨sequence, after, hsplit, hgraphic, hlength⟩
    rcases List.append_eq_append_iff.mp hsplit with ⟨more, rfl, hrest⟩ | ⟨more, htext, -⟩
    · cases more with
      | nil => exact ⟨text, [], (List.append_nil _).symm, by simpa using hgraphic, by simpa using hlength⟩
      | cons b more =>
          obtain ⟨first, others, rfl⟩ := List.exists_cons_of_ne_nil hne
          obtain ⟨inside, hinside, hall⟩ := hgraphic.exists_cons
          obtain ⟨-, rfl⟩ := List.cons.inj hinside
          have hb : isInside b = true := hall b (by simp)
          have hseam := hseam b (by simp [hrest])
          simp [hb] at hseam
    · exact ⟨sequence, more, htext, hgraphic, hlength⟩
  · rintro ⟨sequence, after, rfl, hgraphic, hlength⟩
    exact ⟨sequence, after ++ rest, List.append_assoc _ _ _, hgraphic, hlength⟩

theorem eraseFrom_eq_drop (skip : Nat) (text : Bytes) :
    eraseFrom skip text = eraseGraphics (text.drop skip) := by
  induction skip generalizing text with
  | zero => rfl
  | succ skip ih =>
      cases text with
      | nil => rfl
      | cons b rest => exact ih rest

theorem eraseFrom_append {skip : Nat} (hskip : skip ≤ text.length) (hseam : IsSeam rest) :
    eraseFrom skip (text ++ rest) = eraseFrom skip text ++ eraseGraphics rest := by
  induction text generalizing skip with
  | nil =>
      obtain rfl : skip = 0 := by simpa using hskip
      rfl
  | cons b text ih =>
      cases skip with
      | succ skip => exact ih (by simpa using hskip)
      | zero =>
          have hlength := graphicLength?_append (List.cons_ne_nil b text) hseam
          rw [List.cons_append] at hlength ⊢
          simp only [eraseFrom, hlength]
          cases hfound : graphicLength? (b :: text) with
          | none => rw [ih (Nat.zero_le _), List.cons_append]
          | some length =>
              obtain ⟨sequence, after, htext, -, rfl⟩ := graphicLength?_eq_some.mp hfound
              have hsum := congrArg List.length htext
              simp only [List.length_cons, List.length_append] at hsum
              exact ih (by omega)

-- Sequences are left out before a seam and behind it, and none is found across.
theorem eraseGraphics_append (hseam : IsSeam rest) :
    eraseGraphics (text ++ rest) = eraseGraphics text ++ eraseGraphics rest :=
  eraseFrom_append (Nat.zero_le _) hseam

theorem eraseGraphics_graphic_append (h : IsGraphic sequence) (rest : Bytes) :
    eraseGraphics (sequence ++ rest) = eraseGraphics rest := by
  obtain ⟨inside, rfl, -⟩ := h.exists_cons
  have hlength : graphicLength? (0x1B :: inside ++ rest) = some (inside.length + 1) :=
    graphicLength?_eq_some.mpr ⟨_, rest, rfl, h, rfl⟩
  rw [List.cons_append] at hlength ⊢
  simp only [eraseGraphics, eraseFrom, hlength]
  rw [Nat.add_sub_cancel, eraseFrom_eq_drop, List.drop_left]
  rfl

theorem eraseGraphics_plain_append {plain : Bytes} (h : 0x1B ∉ plain) (rest : Bytes) :
    eraseGraphics (plain ++ rest) = plain ++ eraseGraphics rest := by
  induction plain with
  | nil => rfl
  | cons b plain ih =>
      obtain ⟨hb, hplain⟩ := List.ne_and_not_mem_of_not_mem_cons h
      have hnone := graphicLength?_of_ne (Ne.symm hb) (plain ++ rest)
      have hrest : eraseFrom 0 (plain ++ rest) = plain ++ eraseGraphics rest := ih hplain
      simp only [eraseGraphics, List.cons_append, eraseFrom, hnone, hrest]

end ThemeLint.Display
