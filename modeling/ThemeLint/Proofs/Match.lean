import ThemeLint.Match
import Mathlib.Data.List.Infix

namespace ThemeLint

namespace Match

-- The bytes of the match are those of the text at its offset, and there are some.
def LiesIn (text : Bytes) (m : Match) : Prop := m.text ≠ [] ∧ m.text <+: text.drop m.start

def Covers (m : Match) (start stop : Nat) : Prop := m.start ≤ start ∧ stop ≤ m.stop

instance (m : Match) (start stop : Nat) : Decidable (m.Covers start stop) :=
  inferInstanceAs (Decidable (_ ∧ _))

theorem LiesIn.start_lt_stop {text : Bytes} {m : Match} (h : m.LiesIn text) :
    m.start < m.stop := by
  have hpos := List.length_pos_iff.mpr h.1
  simp only [stop]
  omega

theorem LiesIn.stop_le {text : Bytes} {m : Match} (h : m.LiesIn text) :
    m.stop ≤ text.length := by
  have hlen := h.2.length_le
  have hpos := List.length_pos_iff.mpr h.1
  simp only [List.length_drop, stop] at hlen ⊢
  omega

@[simp] theorem shift_start (offset : Nat) (m : Match) :
    (m.shift offset).start = offset + m.start := rfl

@[simp] theorem shift_stop (offset : Nat) (m : Match) :
    (m.shift offset).stop = offset + m.stop := by
  simp [stop, shift, Nat.add_assoc]

theorem LiesIn.of_isPrefix {text longer : Bytes} {m : Match} (h : m.LiesIn text)
    (hlonger : text <+: longer) : m.LiesIn longer :=
  ⟨h.1, h.2.trans (hlonger.drop m.start)⟩

theorem LiesIn.getElem? {text : Bytes} {m : Match} (h : m.LiesIn text) {offset : Nat}
    (hstart : m.start ≤ offset) (hstop : offset < m.stop) :
    text[offset]? = m.text[offset - m.start]? := by
  have hlt : offset - m.start < m.text.length := by
    simp only [stop] at hstop
    omega
  have hbyte := List.prefix_iff_getElem?.mp h.2 _ hlt
  rw [List.getElem?_drop, Nat.add_sub_cancel' hstart] at hbyte
  rw [hbyte, List.getElem?_eq_getElem hlt]

-- A word that stands within the bytes of a match can be read off the match.
theorem LiesIn.word_isPrefix {text word : Bytes} {m : Match} {offset : Nat} (h : m.LiesIn text)
    (hm : m.Covers offset (offset + word.length)) (hword : word <+: text.drop offset) :
    word <+: m.text.drop (offset - m.start) := by
  obtain ⟨hstart, hstop⟩ := hm
  have hdrop : m.text.drop (offset - m.start) <+: text.drop offset := by
    have hdrop := List.IsPrefix.drop h.2 (offset - m.start)
    rwa [List.drop_drop, Nat.add_sub_cancel' hstart] at hdrop
  refine List.prefix_of_prefix_length_le hword hdrop ?_
  simp only [stop, List.length_drop] at hstop ⊢
  omega

theorem LiesIn.shift {text : Bytes} {outer inner : Match} (ho : outer.LiesIn text)
    (hi : inner.LiesIn outer.text) : (inner.shift outer.start).LiesIn text := by
  have h := hi.of_isPrefix ho.2
  exact ⟨h.1, by simpa [Match.shift, List.drop_drop] using h.2⟩

theorem span_overlaps_iff (a b : Match) :
    a.span.overlaps b.span = true ↔ a.start < b.stop ∧ b.start < a.stop := by
  simp [span, Span.overlaps]

theorem apart_iff (m : Match) (others : List Match) :
    (∀ span ∈ others.map Match.span, m.span.overlaps span = false) ↔
      ∀ other ∈ others, other.stop ≤ m.start ∨ m.stop ≤ other.start := by
  simp only [List.mem_map, forall_exists_index, and_imp, forall_apply_eq_imp_iff₂,
    Bool.eq_false_iff, ne_eq, span_overlaps_iff]
  refine forall_congr' fun other => imp_congr_right fun _ => ?_
  omega

-- The bytes of the match stand at its offset of the text, and what stands before and
-- behind them is as asked for.
def Stands (Fits : Bytes → Bytes → Bytes → Prop) (text : Bytes) (m : Match) : Prop :=
  ∃ before after, text = before ++ m.text ++ after ∧ before.length = m.start ∧
    Fits before m.text after

theorem Stands.isPrefix {Fits : Bytes → Bytes → Bytes → Prop} {text : Bytes} {m : Match}
    (h : m.Stands Fits text) : m.text <+: text.drop m.start := by
  obtain ⟨before, after, rfl, hstart, _⟩ := h
  rw [← hstart, List.append_assoc, List.drop_left]
  exact List.prefix_append _ _

end Match

namespace Pattern

variable {pattern : Pattern}

def lengthAt (pattern : Pattern) (text : Bytes) (offset : Nat) : Option Nat :=
  pattern (text.take offset).getLast? (text.drop offset)

theorem lengthAt_append (finished rest : Bytes) :
    pattern.lengthAt (finished ++ rest) finished.length =
      pattern finished.getLast? rest := by
  simp [lengthAt]

theorem scan_found (before : Option UInt8) (position skip : Nat) (text : Bytes)
    (found : List Match) :
    pattern.scan before position skip text found =
      found.reverse ++ pattern.scan before position skip text [] := by
  induction text generalizing before position skip found with
  | nil => simp [scan]
  | cons b rest ih =>
      cases skip with
      | succ skip =>
          simp only [scan]
          exact ih _ _ _ _
      | zero =>
          simp only [scan]
          split
          · rw [ih, ih _ _ _ [_]]
            simp
          · exact ih _ _ _ _

section Walk

variable {text : Bytes} {motive : Nat → Nat → List Match → Prop}
  (done : ∀ position skip, text.length ≤ position → motive position skip [])
  (inside : ∀ position skip found, position < text.length →
    motive (position + 1) skip found → motive position (skip + 1) found)
  (hit : ∀ position more found, position < text.length →
    pattern.lengthAt text position = some (more + 1) → motive (position + 1) more found →
    motive position 0 (⟨(text.drop position).take (more + 1), position⟩ :: found))
  (miss : ∀ position found, position < text.length →
    (∀ more, pattern.lengthAt text position ≠ some (more + 1)) →
    motive (position + 1) 0 found → motive position 0 found)

include done inside hit miss

private theorem scan_induction (finished : Bytes) (skip : Nat) (rest : Bytes)
    (htext : text = finished ++ rest) :
    motive finished.length skip
      (pattern.scan finished.getLast? finished.length skip rest []) := by
  induction rest generalizing finished skip with
  | nil => exact done _ _ (by simp [htext])
  | cons b rest ih =>
      have hlt : finished.length < text.length := by simp [htext]
      have hdrop : text.drop finished.length = b :: rest := by simp [htext]
      have hlength : pattern.lengthAt text finished.length =
          pattern finished.getLast? (b :: rest) := by rw [htext, lengthAt_append]
      have hnext (skip : Nat) := ih (finished ++ [b]) skip (by simp [htext])
      simp only [List.getLast?_concat, List.length_append, List.length_singleton] at hnext
      cases skip with
      | succ skip => exact inside _ _ _ hlt (hnext skip)
      | zero =>
          simp only [scan]
          split
          case h_1 more hmore =>
            rw [scan_found, ← hdrop]
            exact hit _ _ _ hlt (hlength.trans hmore) (hnext more)
          case h_2 hnone =>
            exact miss _ _ hlt (fun more => hlength ▸ hnone more) (hnext 0)

-- The walk over a text as an induction from its end: at each position the walk is
-- inside the last match, starts a match or finds nothing.
theorem findAll_induction : motive 0 0 (pattern.findAll text) :=
  scan_induction done inside hit miss [] 0 text rfl

end Walk

-- A match of the walk starts where the pattern fits and is as long as the pattern says.
theorem mem_findAll {text : Bytes} {m : Match} (hm : m ∈ pattern.findAll text) :
    m.start < text.length ∧ ∃ more, pattern.lengthAt text m.start = some (more + 1) ∧
      m.text = (text.drop m.start).take (more + 1) := by
  revert m
  apply findAll_induction (motive := fun _ _ found => ∀ m ∈ found,
    m.start < text.length ∧ ∃ more, pattern.lengthAt text m.start = some (more + 1) ∧
      m.text = (text.drop m.start).take (more + 1))
  case done => simp
  case inside => exact fun _ _ _ _ ih => ih
  case miss => exact fun _ _ _ _ ih => ih
  case hit =>
    intro position more found hlt hmore ih m hm
    rcases List.mem_cons.mp hm with rfl | hm
    · exact ⟨hlt, more, hmore, rfl⟩
    · exact ih m hm

theorem findAll_liesIn {text : Bytes} {m : Match} (hm : m ∈ pattern.findAll text) :
    m.LiesIn text := by
  obtain ⟨hlt, more, _, htext⟩ := mem_findAll hm
  refine ⟨?_, htext ▸ List.take_prefix _ _⟩
  rw [htext, ← List.length_pos_iff, List.length_take, List.length_drop]
  omega

theorem shift_stop_le_of_mem_findAll {outer inner : Match}
    (h : inner ∈ pattern.findAll outer.text) : (inner.shift outer.start).stop ≤ outer.stop := by
  rw [Match.shift_stop]
  exact Nat.add_le_add_left (findAll_liesIn h).stop_le outer.start

-- Matches stand from left to right and share no byte. What carries the induction is
-- that no match starts before the walk has left the one before it.
theorem findAll_ordered (pattern : Pattern) (text : Bytes) :
    (pattern.findAll text).Pairwise fun a b => a.stop ≤ b.start := by
  have h : (∀ m ∈ pattern.findAll text, 0 + 0 ≤ m.start) ∧
      (pattern.findAll text).Pairwise fun a b => a.stop ≤ b.start := by
    apply findAll_induction (motive := fun position skip found =>
      (∀ m ∈ found, position + skip ≤ m.start) ∧ found.Pairwise fun a b => a.stop ≤ b.start)
    case done => simp
    case inside =>
      rintro position skip found _ ⟨hfrom, hpair⟩
      refine ⟨fun m hm => ?_, hpair⟩
      have hlow := hfrom m hm
      omega
    case miss =>
      rintro position found _ _ ⟨hfrom, hpair⟩
      refine ⟨fun m hm => ?_, hpair⟩
      have hlow := hfrom m hm
      omega
    case hit =>
      rintro position more found _ _ ⟨hfrom, hpair⟩
      constructor
      · intro m hm
        rcases List.mem_cons.mp hm with rfl | hm
        · simp
        · have hlow := hfrom m hm
          omega
      · refine List.pairwise_cons.mpr ⟨fun m hm => ?_, hpair⟩
        have hlow := hfrom m hm
        simp only [Match.stop, List.length_take]
        omega
  exact h.2

theorem findAll_ascending (pattern : Pattern) (text : Bytes) :
    (pattern.findAll text).Pairwise fun a b => a.start < b.start := by
  refine (findAll_ordered pattern text).imp_of_mem fun {a b} ha _ hle => ?_
  exact Nat.lt_of_lt_of_le (findAll_liesIn ha).start_lt_stop hle

theorem findAll_nodup (pattern : Pattern) (text : Bytes) : (pattern.findAll text).Nodup := by
  refine (findAll_ascending pattern text).imp ?_
  rintro a b hlt rfl
  exact Nat.lt_irrefl _ hlt

theorem findAll_eq_of_shared {text : Bytes} {a b : Match} (ha : a ∈ pattern.findAll text)
    (hb : b ∈ pattern.findAll text) (hab : a.start < b.stop) (hba : b.start < a.stop) : a = b := by
  have hordered := findAll_ordered pattern text
  have hapart : (pattern.findAll text).Pairwise fun a b =>
      a = b ∨ a.stop ≤ b.start ∨ b.stop ≤ a.start := hordered.imp fun h => .inr (.inl h)
  have hcases := hapart.forall_of_forall_of_flip (fun _ _ => .inl rfl)
    (hordered.imp fun h => .inr (.inr h)) ha hb
  rcases hcases with h | h | h
  · exact h
  · omega
  · omega

theorem findAll_eq_of_start {text : Bytes} {a b : Match} (ha : a ∈ pattern.findAll text)
    (hb : b ∈ pattern.findAll text) (h : a.start = b.start) : a = b := by
  have hastop := (findAll_liesIn ha).start_lt_stop
  have hbstop := (findAll_liesIn hb).start_lt_stop
  exact findAll_eq_of_shared ha hb (by omega) (by omega)

-- Nothing is passed over: wherever the pattern fits, the walk starts a match there or
-- is inside one.
theorem findAll_reaches {text : Bytes} {offset more : Nat} (hlt : offset < text.length)
    (hmore : pattern.lengthAt text offset = some (more + 1)) :
    ∃ m ∈ pattern.findAll text, m.start ≤ offset ∧ offset < m.stop := by
  have h : 0 + 0 ≤ offset → ∃ m ∈ pattern.findAll text, m.start ≤ offset ∧ offset < m.stop := by
    apply findAll_induction (motive := fun position skip found => position + skip ≤ offset →
      ∃ m ∈ found, m.start ≤ offset ∧ offset < m.stop)
    case done =>
      intro position skip hend hle
      omega
    case inside =>
      intro position skip found _ ih hle
      exact ih (by omega)
    case miss =>
      intro position found _ hnone ih hle
      have hne : position ≠ offset := by
        rintro rfl
        exact hnone more hmore
      exact ih (by omega)
    case hit =>
      intro position length found _ _ ih hle
      by_cases hin : position + (length + 1) ≤ offset
      · obtain ⟨m, hm, h⟩ := ih (by omega)
        exact ⟨m, List.mem_cons_of_mem _ hm, h⟩
      · refine ⟨_, List.mem_cons_self, hle, ?_⟩
        simp only [Match.stop, List.length_take, List.length_drop]
        omega
  exact h (Nat.zero_le _)

-- A pattern that reads a rule for what stands between two texts: it finds at each place
-- what the rule asks for there, which is never empty.
structure Reads (pattern : Pattern) (Fits : Bytes → Bytes → Bytes → Prop) : Prop where
  eq_some_iff : ∀ before rest length, pattern before.getLast? rest = some length ↔
    ∃ found after, rest = found ++ after ∧ Fits before found after ∧ found.length = length
  ne_nil : ∀ before found after, Fits before found after → found ≠ []

namespace Reads

variable {Fits : Bytes → Bytes → Bytes → Prop} {text : Bytes} {m : Match}

theorem lengthAt (h : pattern.Reads Fits) (hm : m.Stands Fits text) :
    ∃ more, pattern.lengthAt text m.start = some (more + 1) ∧ m.text.length = more + 1 := by
  obtain ⟨before, after, rfl, hstart, hfits⟩ := hm
  have hpos := List.length_pos_iff.mpr (h.ne_nil _ _ _ hfits)
  obtain ⟨more, hmore⟩ := Nat.exists_eq_add_one_of_ne_zero (Nat.ne_of_gt hpos)
  refine ⟨more, ?_, hmore⟩
  rw [← hstart, List.append_assoc, lengthAt_append, h.eq_some_iff]
  exact ⟨m.text, after, rfl, hfits, hmore⟩

theorem liesIn (h : pattern.Reads Fits) (hm : m.Stands Fits text) : m.LiesIn text := by
  obtain ⟨more, _, hlength⟩ := h.lengthAt hm
  exact ⟨List.length_pos_iff.mp (by omega), hm.isPrefix⟩

theorem stands_of_lengthAt (h : pattern.Reads Fits) {offset length : Nat}
    (hlt : offset < text.length) (hlength : pattern.lengthAt text offset = some length) :
    Match.Stands Fits text ⟨(text.drop offset).take length, offset⟩ ∧
      ((text.drop offset).take length).length = length := by
  obtain ⟨found, after, hrest, hfits, rfl⟩ := (h.eq_some_iff _ _ _).mp hlength
  have htake : (text.drop offset).take found.length = found := by rw [hrest, List.take_left]
  rw [htake]
  refine ⟨⟨text.take offset, after, ?_, List.length_take_of_le (Nat.le_of_lt hlt), hfits⟩, rfl⟩
  rw [List.append_assoc, ← hrest, List.take_append_drop]

theorem stands_of_mem (h : pattern.Reads Fits) (hm : m ∈ pattern.findAll text) :
    m.Stands Fits text := by
  obtain ⟨hlt, more, hmore, htext⟩ := mem_findAll hm
  have hstands := (h.stands_of_lengthAt hlt hmore).1
  rwa [← htext] at hstands

-- The rule asks for one text at most at each place.
theorem eq_of_start (h : pattern.Reads Fits) {other : Match} (hm : m.Stands Fits text)
    (hother : other.Stands Fits text) (hstart : m.start = other.start) : m = other := by
  obtain ⟨more, hmore, hlength⟩ := h.lengthAt hm
  obtain ⟨longer, hlonger, hlengthOther⟩ := h.lengthAt hother
  rw [← hstart, hmore] at hlonger
  have hsame : m.text.length = other.text.length := by
    have heq := Option.some.inj hlonger
    omega
  have htext := List.prefix_iff_eq_take.mp hm.isPrefix
  have htextOther := List.prefix_iff_eq_take.mp hother.isPrefix
  rw [hsame, hstart, ← htextOther] at htext
  exact congrArg₂ Match.mk htext hstart

end Reads

-- A pattern that decides on a rule for what stands between two texts. A byte that a find
-- may start with comes in no find behind its start, so that no find hides another.
structure Decides (pattern : Pattern) (Fits : Bytes → Bytes → Bytes → Prop)
    (isFirst : UInt8 → Bool) : Prop where
  eq_some_iff : ∀ before rest length, pattern before.getLast? rest = some length ↔
    ∃ found after, rest = found ++ after ∧ Fits before found after ∧ found.length = length
  first : ∀ before found after, Fits before found after →
    ∃ b rest, found = b :: rest ∧ isFirst b = true ∧ ∀ c ∈ rest, isFirst c = false

namespace Decides

variable {Fits : Bytes → Bytes → Bytes → Prop} {isFirst : UInt8 → Bool} {text : Bytes} {m : Match}

theorem reads (h : pattern.Decides Fits isFirst) : pattern.Reads Fits where
  eq_some_iff := h.eq_some_iff
  ne_nil before found after hfits := by
    obtain ⟨b, rest, rfl, _⟩ := h.first _ _ _ hfits
    exact List.cons_ne_nil b rest

-- The first byte of what stands at an offset is no later byte of a match, so that a match
-- that holds it starts with it.
theorem start_eq (h : pattern.Decides Fits isFirst) {other : Match} (hm : m.Stands Fits text)
    (hother : other.Stands Fits text) (hstart : other.start ≤ m.start)
    (hstop : m.start < other.stop) : other.start = m.start := by
  have hlies := h.reads.liesIn hm
  have hbyte := (h.reads.liesIn hother).getElem? hstart hstop
  rw [hlies.getElem? (Nat.le_refl _) hlies.start_lt_stop, Nat.sub_self] at hbyte
  obtain ⟨_, _, _, _, hfits⟩ := hm
  obtain ⟨b, rest, htext, hb, _⟩ := h.first _ _ _ hfits
  obtain ⟨_, _, _, _, hfits⟩ := hother
  obtain ⟨first, others, hothers, _, hnot⟩ := h.first _ _ _ hfits
  by_contra hne
  obtain ⟨distance, hdistance⟩ : ∃ distance, m.start - other.start = distance + 1 :=
    Nat.exists_eq_succ_of_ne_zero (by omega)
  rw [htext, hothers, hdistance, List.getElem?_cons_zero, List.getElem?_cons_succ] at hbyte
  have hmem := List.mem_of_getElem? hbyte.symm
  simp [hnot b hmem] at hb

-- The walk finds exactly what the rule asks for, wherever it stands.
theorem mem_findAll_iff (h : pattern.Decides Fits isFirst) :
    m ∈ pattern.findAll text ↔ m.Stands Fits text := by
  refine ⟨h.reads.stands_of_mem, fun hm => ?_⟩
  have hlies := h.reads.liesIn hm
  obtain ⟨more, hmore, _⟩ := h.reads.lengthAt hm
  obtain ⟨other, hother, hstart, hstop⟩ :=
    findAll_reaches (Nat.lt_of_lt_of_le hlies.start_lt_stop hlies.stop_le) hmore
  have hstands := h.reads.stands_of_mem hother
  have heq := h.start_eq hm hstands hstart hstop
  exact h.reads.eq_of_start hstands hm heq ▸ hother

end Decides

end Pattern

end ThemeLint
