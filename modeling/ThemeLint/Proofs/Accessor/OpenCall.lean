import ThemeLint.Proofs.Accessor

namespace ThemeLint.Accessors

open Bytes

variable {accessors : Accessors}

-- The parenthesis of an accessor's call at an offset of a text. Right before it, spaces
-- aside, the longest run of identifier bytes is the accessor's name.
def CallAt (accessors : Accessors) (text : Bytes) (offset : Nat) : Prop :=
  ∃ before name spaces after : Bytes,
    text = before ++ name ++ spaces ++ byte '(' :: after ∧
    (before ++ name ++ spaces).length = offset ∧ name ∈ accessors.names ∧
    (∀ b ∈ name, isWord b = true) ∧ (∀ b ∈ before.getLast?, isWord b = false) ∧
    ∀ b ∈ spaces, b = space

-- One byte of a text on the stack of the parentheses that are open, innermost first. A
-- closing one without a partner closes nothing.
def matchByte (stack : List Nat) : UInt8 × Nat → List Nat
  | (b, offset) =>
    if b = byte '(' then offset :: stack else if b = byte ')' then stack.tail else stack

def unclosed (text : Bytes) : List Nat := text.zipIdx.foldl matchByte []

theorem exists_identifierBefore (text : Bytes) :
    ∃ before spaces, text = before ++ identifierBefore text ++ spaces ∧
      (∀ b ∈ identifierBefore text, isWord b = true) ∧
      (∀ b ∈ before.getLast?, isWord b = false) ∧ ∀ b ∈ spaces, b = space := by
  obtain ⟨htext, hspaces, _⟩ := cut (· == space) text.reverse
  obtain ⟨hrest, hname, hstop⟩ := cut isWord (text.reverse.dropWhile (· == space))
  refine ⟨((text.reverse.dropWhile (· == space)).dropWhile isWord).reverse,
    (text.reverse.takeWhile (· == space)).reverse, ?_, ?_, ?_, ?_⟩
  · rw [identifierBefore, nameBehind, ← List.reverse_append, ← hrest, ← List.reverse_append,
      ← htext, List.reverse_reverse]
  · simpa [identifierBefore, nameBehind] using hname
  · rwa [List.getLast?_reverse]
  · simpa using hspaces

theorem callAt_iff {text : Bytes} {offset : Nat} :
    accessors.CallAt text offset ↔
      ∃ front after, text = front ++ byte '(' :: after ∧ front.length = offset ∧
        identifierBefore front ∈ accessors.names := by
  constructor
  · rintro ⟨before, name, spaces, after, htext, hoffset, hmem, hname, hbefore, hspaces⟩
    have hne := (isWord_of_isIdentifier (accessors.isIdentifier name hmem)).1
    refine ⟨_, after, htext, hoffset, ?_⟩
    rwa [identifierBefore_eq hne hname hbefore hspaces]
  · rintro ⟨front, after, htext, hoffset, hmem⟩
    obtain ⟨before, spaces, hfront, hname, hbefore, hspaces⟩ := exists_identifierBefore front
    exact ⟨before, _, spaces, after, hfront ▸ htext, hfront ▸ hoffset, hmem, hname, hbefore,
      hspaces⟩

-- The search from the right ends at the first closing parenthesis and passes every
-- opening one that is no accessor's.
theorem opensCall_iff {reversed : Bytes} :
    accessors.opensCall reversed = true ↔
      ∃ behind ahead, reversed = behind ++ byte '(' :: ahead ∧ byte ')' ∉ behind ∧
        nameBehind ahead ∈ accessors.names := by
  induction reversed with
  | nil => simp [opensCall]
  | cons b rest ih =>
      rw [opensCall_cons, ih]
      constructor
      · rintro ⟨hb, ⟨rfl, hname⟩ | ⟨behind, ahead, rfl, hnot, hname⟩⟩
        · exact ⟨[], rest, rfl, List.not_mem_nil, hname⟩
        · exact ⟨b :: behind, ahead, rfl,
            List.not_mem_cons_of_ne_of_not_mem (Ne.symm hb) hnot, hname⟩
      · rintro ⟨behind, ahead, hcut, hnot, hname⟩
        cases behind with
        | nil =>
            obtain ⟨rfl, rfl⟩ := List.cons.inj hcut
            exact ⟨by decide, .inl ⟨rfl, hname⟩⟩
        | cons first behind =>
            obtain ⟨rfl, rfl⟩ := List.cons.inj hcut
            obtain ⟨hb, hnot⟩ := List.ne_and_not_mem_of_not_mem_cons hnot
            exact ⟨Ne.symm hb, .inr ⟨behind, ahead, rfl, hnot, hname⟩⟩

theorem notMem_iff_getElem? {b c : UInt8} {front after : Bytes} :
    b ∉ after ↔ ∀ later, front.length < later → (front ++ c :: after)[later]? ≠ some b := by
  constructor
  · rintro hnot later hlater hbyte
    obtain ⟨distance, rfl⟩ := Nat.exists_eq_add_of_lt hlater
    rw [Nat.add_assoc, List.getElem?_append_right (by omega), Nat.add_sub_cancel_left,
      List.getElem?_cons_succ] at hbyte
    exact hnot (List.mem_of_getElem? hbyte)
  · intro hall hmem
    obtain ⟨distance, hlt, hbyte⟩ := List.getElem_of_mem hmem
    refine hall (front.length + (distance + 1)) (by omega) ?_
    rw [List.getElem?_append_right (by omega), Nat.add_sub_cancel_left, List.getElem?_cons_succ,
      List.getElem?_eq_getElem hlt, hbyte]

def StaysOpen (text : Bytes) (offset : Nat) : Prop :=
  ∀ later, offset < later → text[later]? ≠ some (byte ')')

theorem insideOpenCall_iff {text : Bytes} :
    accessors.insideOpenCall text = true ↔
      ∃ offset, accessors.CallAt text offset ∧ StaysOpen text offset := by
  rw [insideOpenCall, opensCall_iff]
  constructor
  · rintro ⟨behind, ahead, hcut, hnot, hname⟩
    have htext : text = ahead.reverse ++ byte '(' :: behind.reverse := by
      simpa using congrArg List.reverse hcut
    refine ⟨ahead.reverse.length, callAt_iff.mpr ⟨_, _, htext, rfl, ?_⟩, ?_⟩
    · rwa [identifierBefore, List.reverse_reverse]
    · subst htext
      exact notMem_iff_getElem?.mp (by simpa using hnot)
  · rintro ⟨offset, hcall, hopen⟩
    obtain ⟨front, after, rfl, rfl, hname⟩ := callAt_iff.mp hcall
    refine ⟨after.reverse, front.reverse, by simp, ?_, hname⟩
    simpa using notMem_iff_getElem?.mpr hopen

-- What is on the stack stays on it as long as nothing is closed.
theorem suffix_matchByte {stack : List Nat} {b : UInt8} {offset : Nat} (hb : b ≠ byte ')') :
    stack <:+ matchByte stack (b, offset) := by
  simp only [matchByte, hb, if_false]
  split
  · exact List.suffix_cons _ _
  · exact List.suffix_rfl

theorem suffix_foldl_matchByte {stack : List Nat} {rest : Bytes} {offset : Nat}
    (hrest : byte ')' ∉ rest) : stack <:+ (rest.zipIdx offset).foldl matchByte stack := by
  induction rest generalizing stack offset with
  | nil => exact List.suffix_rfl
  | cons b rest ih =>
      obtain ⟨hb, hrest⟩ := List.ne_and_not_mem_of_not_mem_cons hrest
      rw [List.zipIdx_cons, List.foldl_cons]
      exact (suffix_matchByte (Ne.symm hb)).trans (ih hrest)

theorem mem_unclosed {front after : Bytes} (hafter : byte ')' ∉ after) :
    front.length ∈ unclosed (front ++ byte '(' :: after) := by
  have hopened : front.length ∈ matchByte (unclosed front) (byte '(', front.length) := by
    simp [matchByte]
  rw [unclosed, List.zipIdx_append, List.foldl_append, List.zipIdx_cons, List.foldl_cons,
    Nat.zero_add]
  exact (suffix_foldl_matchByte hafter).subset hopened

example : unclosed (utf8 "a) f(x) + g(h(y), (z") = [18, 11] := by decide

theorem CallAt.mem_unclosed {text : Bytes} {offset : Nat} (h : accessors.CallAt text offset)
    (hopen : StaysOpen text offset) : offset ∈ unclosed text := by
  obtain ⟨front, after, rfl, rfl, _⟩ := callAt_iff.mp h
  exact Accessors.mem_unclosed (notMem_iff_getElem?.mpr hopen)

-- The pattern for a fallback accepts nothing that the search from the right does not.
theorem isFallback_eq_insideOpenCall {line : Bytes} {column : Int} (hpos : 0 < column)
    (hle : column ≤ line.length) :
    accessors.isFallback line column = accessors.insideOpenCall (line.take column.toNat) := by
  have hinside : (decide (column ≤ 0) || decide (column > line.length)) = false := by
    simpa using ⟨hpos, hle⟩
  simp only [isFallback, hinside, Bool.false_eq_true, if_false]
  refine Bool.or_eq_right_iff_imp.mpr fun hpattern => ?_
  obtain ⟨start, htext⟩ := exists_fallbackStart hpattern
  exact htext ▸ start.insideOpenCall_text

theorem range_of_isFallback {line : Bytes} {column : Int}
    (h : accessors.isFallback line column = true) : 0 < column ∧ column ≤ line.length := by
  unfold isFallback at h
  split at h
  · simp at h
  · rename_i hinside
    simpa using hinside

theorem CallAt.mono {more : Accessors} {text : Bytes} {offset : Nat}
    (hnames : accessors.names ⊆ more.names) (h : accessors.CallAt text offset) :
    more.CallAt text offset := by
  obtain ⟨front, after, htext, hoffset, hname⟩ := callAt_iff.mp h
  exact callAt_iff.mpr ⟨front, after, htext, hoffset, hnames hname⟩

theorem isFallback_mono {more : Accessors} {line : Bytes} {column : Int}
    (hnames : accessors.names ⊆ more.names) (h : accessors.isFallback line column = true) :
    more.isFallback line column = true := by
  obtain ⟨hpos, hle⟩ := range_of_isFallback h
  rw [isFallback_eq_insideOpenCall hpos hle, insideOpenCall_iff] at h ⊢
  obtain ⟨offset, hcall, hopen⟩ := h
  exact ⟨offset, hcall.mono hnames, hopen⟩

-- The search from the right finds exactly the accessor's parentheses with nothing closed
-- behind them. So a match is excused only inside a call that is still open when the
-- parentheses before it are matched with a stack, and on a text that closes none it is
-- excused inside every such call.
theorem insideOpenCall_exact (accessors : Accessors) :
    (∀ text, accessors.insideOpenCall text = true ↔
      ∃ offset, accessors.CallAt text offset ∧ StaysOpen text offset) ∧
    ∀ (line : Bytes) (column : Int), 0 < column → column ≤ line.length →
      (accessors.isFallback line column = true →
        ∃ offset ∈ unclosed (line.take column.toNat),
          accessors.CallAt (line.take column.toNat) offset) ∧
      (byte ')' ∉ line.take column.toNat →
        (∃ offset ∈ unclosed (line.take column.toNat),
          accessors.CallAt (line.take column.toNat) offset) →
        accessors.isFallback line column = true) := by
  refine ⟨fun text => insideOpenCall_iff, fun line column hpos hle => ?_⟩
  rw [isFallback_eq_insideOpenCall hpos hle, insideOpenCall_iff]
  constructor
  · rintro ⟨offset, hcall, hopen⟩
    exact ⟨offset, hcall.mem_unclosed hopen, hcall⟩
  · rintro hnone ⟨offset, _, hcall⟩
    exact ⟨offset, hcall, fun _ _ hbyte => hnone (List.mem_of_getElem? hbyte)⟩

-- A color in a call of another function, which is an argument of the accessor.
def nestedLine : Bytes := utf8 "c = getToken ('a', mix('#fff'"

theorem insideOpenCall_exact_nested :
    ∃ accessors : Accessors, byte ')' ∉ nestedLine.take 24 ∧
      accessors.isFallback nestedLine 24 = true ∧
      ∃ offset ∈ unclosed (nestedLine.take 24), accessors.CallAt (nestedLine.take 24) offset := by
  obtain ⟨hsound, hcomplete⟩ := (insideOpenCall_exact
    ⟨[utf8 "getToken"], by decide, by decide⟩).2 nestedLine 24 (by decide) (by decide)
  have hnone : byte ')' ∉ nestedLine.take 24 := by decide
  have hcall := hsound (by decide)
  exact ⟨_, hnone, hcomplete hnone hcall, hcall⟩

end ThemeLint.Accessors
