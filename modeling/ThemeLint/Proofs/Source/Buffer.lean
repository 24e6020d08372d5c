import ThemeLint.Proofs.Source.Line

namespace ThemeLint.Source

open Bytes

-- A content on its way through a buffer: the bytes that are held, how many can be held, the
-- bytes that are still to be read, and whether their end was met.
structure Buffer where
  held : Bytes
  capacity : Nat
  unread : Bytes
  ended : Bool

def maxCapacity : Nat := 4194304

def Buffer.start (content : Bytes) : Buffer := ⟨[], 65536, content, false⟩

-- Splitting a content that is read piece by piece. A line is taken as soon as its line feed
-- is held. If none is held, bytes are read into what is left of the buffer, as many as there
-- happen to be; a full buffer is doubled, or found too small for the line.
inductive Splits : Buffer → Segments → Prop
  | line {b : Buffer} {segment rest : Bytes} {out : Segments}
      (hheld : b.held = segment ++ lf :: rest) (hline : lf ∉ segment)
      (hrest : Splits { b with held := rest } out) :
      Splits b ⟨segment :: out.lines, out.complete⟩
  | last {b : Buffer} (hline : lf ∉ b.held) (hended : b.ended = true) (hne : b.held ≠ []) :
      Splits b ⟨[b.held], true⟩
  | done {b : Buffer} (hended : b.ended = true) (hnil : b.held = []) : Splits b ⟨[], true⟩
  | tooLong {b : Buffer} (hline : lf ∉ b.held) (hended : b.ended = false)
      (hfull : b.held.length = b.capacity) (hmax : maxCapacity ≤ b.capacity) :
      Splits b ⟨[], false⟩
  | grow {b : Buffer} {out : Segments} (hline : lf ∉ b.held) (hended : b.ended = false)
      (hfull : b.held.length = b.capacity) (hmax : b.capacity < maxCapacity)
      (hrest : Splits { b with capacity := min (2 * b.capacity) maxCapacity } out) : Splits b out
  | read {b : Buffer} {piece rest : Bytes} {out : Segments} (hline : lf ∉ b.held)
      (hended : b.ended = false) (hunread : b.unread = piece ++ rest) (hne : piece ≠ [])
      (hroom : b.held.length + piece.length ≤ b.capacity)
      (hrest : Splits { b with held := b.held ++ piece, unread := rest } out) : Splits b out
  | finish {b : Buffer} {out : Segments} (hline : lf ∉ b.held) (hended : b.ended = false)
      (hunread : b.unread = []) (hroom : b.held.length < b.capacity)
      (hrest : Splits { b with ended := true } out) : Splits b out

-- The buffer never holds more than it can, and the end was met with room for a byte more.
structure Buffer.Valid (b : Buffer) : Prop where
  capacity_pos : 0 < b.capacity
  capacity_le : b.capacity ≤ maxCapacity
  held_le : b.held.length ≤ b.capacity
  ended : b.ended = true → b.unread = [] ∧ b.held.length < maxCapacity

theorem Buffer.start_valid (content : Bytes) : (Buffer.start content).Valid where
  capacity_pos := Nat.succ_pos _
  capacity_le := by simp [Buffer.start, maxCapacity]
  held_le := Nat.zero_le _
  ended h := by simp [Buffer.start] at h

namespace Buffer.Valid

variable {b : Buffer}

theorem afterLine (h : b.Valid) {segment rest : Bytes} (hheld : b.held = segment ++ lf :: rest) :
    Buffer.Valid { b with held := rest } := by
  have hlength : b.held.length = segment.length + (rest.length + 1) := by simp [hheld]
  have hle := h.held_le
  have hshorter : rest.length ≤ b.capacity := by omega
  refine ⟨h.capacity_pos, h.capacity_le, hshorter, fun hended => ?_⟩
  obtain ⟨hunread, hlt⟩ := h.ended hended
  have hroom : rest.length < maxCapacity := by omega
  exact ⟨hunread, hroom⟩

theorem grown (h : b.Valid) (hended : b.ended = false) :
    Buffer.Valid { b with capacity := min (2 * b.capacity) maxCapacity } := by
  have hpos := h.capacity_pos
  have hle := h.capacity_le
  have hheld := h.held_le
  have hmore : b.capacity ≤ min (2 * b.capacity) maxCapacity := by omega
  refine ⟨Nat.lt_of_lt_of_le hpos hmore, Nat.min_le_right _ _, Nat.le_trans hheld hmore, ?_⟩
  intro hstill
  simp [hended] at hstill

theorem afterRead (h : b.Valid) (hended : b.ended = false) {piece : Bytes}
    (hroom : b.held.length + piece.length ≤ b.capacity) (rest : Bytes) :
    Buffer.Valid { b with held := b.held ++ piece, unread := rest } := by
  refine ⟨h.capacity_pos, h.capacity_le, ?_, fun hstill => ?_⟩
  · simpa only [List.length_append] using hroom
  · simp [hended] at hstill

theorem finished (h : b.Valid) (hunread : b.unread = []) (hroom : b.held.length < b.capacity) :
    Buffer.Valid { b with ended := true } :=
  ⟨h.capacity_pos, h.capacity_le, h.held_le,
    fun _ => ⟨hunread, Nat.lt_of_lt_of_le hroom h.capacity_le⟩⟩

end Buffer.Valid

theorem physicalLines_append_lf {segment rest : Bytes} (hline : lf ∉ segment) :
    physicalLines (segment ++ lf :: rest) = segment :: physicalLines rest := by
  obtain ⟨part, others, hparts⟩ := partsBy_eq_cons lf rest
  rw [physicalLines, physicalLines, partsBy_append_cons, partsBy_of_notMem hline, hparts,
    List.singleton_append, terminated_cons_cons]

theorem physicalLines_of_notMem {segment : Bytes} (hline : lf ∉ segment) (hne : segment ≠ []) :
    physicalLines segment = [segment] := by
  rw [physicalLines, partsBy_of_notMem hline, terminated_singleton, if_neg hne]

theorem segments_append_lf {segment rest : Bytes} (hline : lf ∉ segment)
    (hshort : segment.length ≤ maxLineLength) :
    segments (segment ++ lf :: rest) =
      ⟨segment :: (segments rest).lines, (segments rest).complete⟩ := by
  have hisShort : isShort segment = true := decide_eq_true hshort
  rw [segments_eq, segments_eq, physicalLines_append_lf hline]
  simp [hisShort]

theorem segments_of_notMem {segment : Bytes} (hline : lf ∉ segment) (hne : segment ≠ [])
    (hshort : segment.length ≤ maxLineLength) : segments segment = ⟨[segment], true⟩ := by
  have hisShort : isShort segment = true := decide_eq_true hshort
  rw [segments_eq, physicalLines_of_notMem hline hne]
  simp [hisShort]

-- A line that is too long is so whatever follows what is held of it.
theorem segments_of_long {held unread : Bytes} (hline : lf ∉ held)
    (hlong : maxLineLength < held.length) : segments (held ++ unread) = ⟨[], false⟩ := by
  have hnotShort : ∀ rest : Bytes, isShort (held ++ rest) = false := by
    intro rest
    rw [isShort, decide_eq_false_iff_not, List.length_append]
    omega
  have hne : held ≠ [] := List.length_pos_iff.mp (by omega)
  rw [segments_eq]
  by_cases hmem : lf ∈ unread
  · obtain ⟨front, rest, rfl, hfront⟩ := List.eq_append_cons_of_mem hmem
    have hopen : lf ∉ held ++ front := by simp [hline, hfront]
    rw [← List.append_assoc, physicalLines_append_lf hopen]
    simp [hnotShort front]
  · have hopen : lf ∉ held ++ unread := by simp [hline, hmem]
    rw [physicalLines_of_notMem hopen (by simp [hne])]
    simp [hnotShort unread]

-- Whatever pieces the content is read in, a run splits it as a whole.
theorem Splits.eq_segments {b : Buffer} {out : Segments} (h : Splits b out) (hvalid : b.Valid) :
    out = segments (b.held ++ b.unread) := by
  have hmaxCapacity : maxCapacity = maxLineLength + 1 := rfl
  induction h with
  | @line b segment rest out hheld hline hrest ih =>
      have hle := hvalid.held_le
      have hcapacity := hvalid.capacity_le
      have hlength : b.held.length = segment.length + (rest.length + 1) := by simp [hheld]
      rw [hheld, List.append_assoc, List.cons_append, segments_append_lf hline (by omega),
        ih (hvalid.afterLine hheld)]
  | @last b hline hended hne =>
      obtain ⟨hunread, hlt⟩ := hvalid.ended hended
      rw [hunread, List.append_nil, segments_of_notMem hline hne (by omega)]
  | @done b hended hnil =>
      rw [(hvalid.ended hended).1, hnil]
      rfl
  | @tooLong b hline hended hfull hmax => rw [segments_of_long hline (by omega)]
  | grow hline hended hfull hmax hrest ih => exact ih (hvalid.grown hended)
  | read hline hended hunread hne hroom hrest ih =>
      rw [ih (hvalid.afterRead hended hroom _), hunread, List.append_assoc]
  | finish hline hended hunread hroom hrest ih => exact ih (hvalid.finished hunread hroom)

-- A run never gets stuck, and it comes to an end: each move reads a byte or meets the end,
-- makes room for more, or takes a line.
theorem Buffer.Valid.exists_splits {b : Buffer} (hvalid : b.Valid) : ∃ out, Splits b out := by
  by_cases hline : lf ∈ b.held
  · obtain ⟨segment, rest, hheld, hsegment⟩ := List.eq_append_cons_of_mem hline
    obtain ⟨out, hout⟩ := (hvalid.afterLine hheld).exists_splits
    exact ⟨_, .line hheld hsegment hout⟩
  by_cases hended : b.ended = true
  · by_cases hnil : b.held = []
    · exact ⟨_, .done hended hnil⟩
    · exact ⟨_, .last hline hended hnil⟩
  rw [Bool.not_eq_true] at hended
  by_cases hfull : b.held.length = b.capacity
  · by_cases hmax : b.capacity < maxCapacity
    · obtain ⟨out, hout⟩ := (hvalid.grown hended).exists_splits
      exact ⟨out, .grow hline hended hfull hmax hout⟩
    · exact ⟨_, .tooLong hline hended hfull (Nat.le_of_not_lt hmax)⟩
  have hroom : b.held.length < b.capacity := by
    have hle := hvalid.held_le
    omega
  by_cases hunread : b.unread = []
  · obtain ⟨out, hout⟩ := (hvalid.finished hunread hroom).exists_splits
    exact ⟨out, .finish hline hended hunread hroom hout⟩
  · have hpos := List.length_pos_iff.mpr hunread
    have hpiece : (b.unread.take (b.capacity - b.held.length)).length =
        min (b.capacity - b.held.length) b.unread.length := List.length_take
    have hfits : b.held.length + (b.unread.take (b.capacity - b.held.length)).length ≤
        b.capacity := by omega
    have hread := hvalid.afterRead hended hfits (b.unread.drop (b.capacity - b.held.length))
    obtain ⟨out, hout⟩ := hread.exists_splits
    have hne : b.unread.take (b.capacity - b.held.length) ≠ [] := List.length_pos_iff.mp (by omega)
    exact ⟨out, .read hline hended (List.take_append_drop _ _).symm hne hfits hout⟩
termination_by (b.unread.length + if b.ended then 0 else 1, maxCapacity - b.capacity, b.held.length)
decreasing_by
  · have hlength : b.held.length = segment.length + (rest.length + 1) := by simp [hheld]
    exact .right _ (.right _ (by omega))
  · have hpos := hvalid.capacity_pos
    exact .right _ (.left _ _ (by omega))
  · exact .left _ _ (by simp [hended])
  · have hdrop : (b.unread.drop (b.capacity - b.held.length)).length =
        b.unread.length - (b.capacity - b.held.length) := List.length_drop
    exact .left _ _ (by omega)

theorem splits_iff {content : Bytes} {out : Segments} :
    Splits (Buffer.start content) out ↔ out = segments content := by
  have hvalid := Buffer.start_valid content
  constructor
  · intro h
    exact h.eq_segments hvalid
  · rintro rfl
    obtain ⟨out, hout⟩ := hvalid.exists_splits
    have heq : out = segments content := hout.eq_segments hvalid
    exact heq ▸ hout

end ThemeLint.Source
