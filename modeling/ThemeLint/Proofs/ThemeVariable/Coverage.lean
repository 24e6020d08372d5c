import ThemeLint.Proofs.Bytes
import ThemeLint.Proofs.Linter

namespace ThemeLint.ThemeVariable

open Bytes

def spelling (name : Bytes) : Bytes := utf8 "var(--" ++ name

-- A reference that starts at an offset of a text, with some or all bytes of its name.
structure ReferenceAt (text : Bytes) (offset : Nat) (name : Bytes) : Prop where
  name_ne_nil : name ≠ []
  isName : ∀ b ∈ name, isNameByte b = true
  written : spelling name <+: text.drop offset

@[simp] theorem length_spelling (name : Bytes) : (spelling name).length = 6 + name.length := by
  simp [spelling, show (utf8 "var(--").length = 6 from rfl]

theorem isStop_of_isNameByte {b : UInt8} (h : isNameByte b = true) : isStop b = false := by
  rw [Bool.eq_false_iff]
  intro hstop
  simp only [isStop, isQuote, Bool.or_eq_true, beq_iff_eq, or_assoc] at hstop
  rcases hstop with rfl | rfl | rfl | rfl <;> revert h <;> decide

theorem ReferenceAt.not_isStop {text name : Bytes} {offset : Nat}
    (h : ReferenceAt text offset name) : ∀ b ∈ spelling name, (!isStop b) = true := by
  have hstart : (utf8 "var(--").all (!isStop ·) = true := by decide
  intro b hb
  rcases List.mem_append.mp hb with hb | hb
  · exact List.all_eq_true.mp hstart b hb
  · simp [isStop_of_isNameByte (h.isName b hb)]

theorem nameAfter?_eq_some {text rest : Bytes} :
    nameAfter? text = some rest ↔
      text = spelling rest ∧ ∃ b tail, rest = b :: tail ∧ isNameByte b = true := by
  unfold nameAfter?
  split
  · rename_i b tail hstart
    rw [afterStart?_eq_some.mp hstart]
    by_cases hb : isNameByte b = true
    · simp only [hb, if_true, Option.some.injEq, spelling, List.append_cancel_left_eq]
      constructor
      · rintro rfl
        exact ⟨rfl, b, tail, rfl, hb⟩
      · exact And.left
    · simp only [hb, Bool.false_eq_true, if_false, reduceCtorEq, spelling,
        List.append_cancel_left_eq, false_iff]
      rintro ⟨rfl, c, other, heq, hc⟩
      obtain ⟨rfl, rfl⟩ := List.cons.inj heq
      exact hb hc
  · rename_i hnone
    simp only [reduceCtorEq, false_iff]
    rintro ⟨htext, b, tail, rfl, _⟩
    exact hnone b tail (afterStart?_eq_some.mpr htext)

-- A reference never starts inside the first bytes of another.
theorem not_isPrefix_drop (rest : Bytes) {offset : Nat} (hpos : 0 < offset) (hlt : offset < 6) :
    ¬utf8 "var(--" <+: (utf8 "var(--" ++ rest).drop offset := by
  have hbytes : utf8 "var(--" = [0x76, 0x61, 0x72, 0x28, 0x2D, 0x2D] := by decide
  rw [hbytes]
  match offset, hpos, hlt with
  | 1, _, _ | 2, _, _ | 3, _, _ | 4, _, _ | 5, _, _ => simp

-- What is read of a reference, from its name on, holds every reference that starts in
-- it or right behind it: both names are free of bytes that would stop the reading.
theorem spelling_le_run {name rest : Bytes} {distance : Nat}
    (hfree : ∀ b ∈ spelling name, (!isStop b) = true)
    (hwritten : spelling name <+: (spelling rest).drop distance)
    (hdistance : distance ≤ 6 + (rest.takeWhile (!isStop ·)).length) :
    distance + (spelling name).length ≤ 6 + (rest.takeWhile (!isStop ·)).length := by
  have hsix : (utf8 "var(--").length = 6 := rfl
  by_cases hzero : distance = 0
  · have hname : name <+: rest.drop 0 := by
      simpa [hzero, spelling, List.prefix_append_right_inj] using hwritten
    have hrun := le_length_takeWhile (Nat.zero_le _) hname
      fun b hb => hfree b (List.mem_append_right _ hb)
    rw [length_spelling]
    omega
  by_cases hlt : distance < 6
  · exact absurd ((List.prefix_append _ _).trans hwritten)
      (not_isPrefix_drop rest (Nat.pos_of_ne_zero hzero) hlt)
  · have hdrop : (spelling rest).drop distance = rest.drop (distance - 6) := by
      rw [spelling, List.drop_append, List.drop_eq_nil_of_le (by omega), List.nil_append, hsix]
    rw [hdrop] at hwritten
    have hrun := le_length_takeWhile (by omega) hwritten hfree
    omega

theorem referenceLength_eq_some {text : Bytes} {length : Nat} :
    referenceLength text = some length ↔
      ∃ rest, nameAfter? text = some rest ∧
        length = 6 + (rest.takeWhile (!isStop ·)).length +
          if (rest.dropWhile (!isStop ·)).head? == some (byte ')') then 1 else 0 := by
  simp only [referenceLength, Option.map_eq_some_iff]
  exact exists_congr fun rest => and_congr_right fun _ => eq_comm

theorem ReferenceAt.nameAfter? {text name : Bytes} {offset : Nat}
    (h : ReferenceAt text offset name) :
    ∃ rest, nameAfter? (text.drop offset) = some rest := by
  obtain ⟨after, hafter⟩ := h.written
  obtain ⟨b, tail, hname⟩ := List.exists_cons_of_ne_nil h.name_ne_nil
  refine ⟨name ++ after, nameAfter?_eq_some.mpr ⟨?_, b, tail ++ after, ?_, ?_⟩⟩
  · rw [← hafter, spelling, spelling, List.append_assoc]
  · rw [hname, List.cons_append]
  · exact h.isName b (by simp [hname])

theorem ReferenceAt.lengthAt {text name : Bytes} {offset : Nat}
    (h : ReferenceAt text offset name) :
    ∃ more, reference.lengthAt text offset = some (more + 1) := by
  obtain ⟨rest, hrest⟩ := h.nameAfter?
  obtain ⟨more, hmore⟩ : ∃ more, 6 + (rest.takeWhile (!isStop ·)).length +
      (if (rest.dropWhile (!isStop ·)).head? == some (byte ')') then 1 else 0) = more + 1 :=
    Nat.exists_eq_succ_of_ne_zero (by omega)
  exact ⟨more, referenceLength_eq_some.mpr ⟨rest, hrest, hmore.symm⟩⟩

theorem ReferenceAt.le_length {text name : Bytes} {offset : Nat}
    (h : ReferenceAt text offset name) (hlt : offset < text.length) :
    offset + (spelling name).length ≤ text.length := by
  have hlen := h.written.length_le
  rw [List.length_drop] at hlen
  omega

-- A match runs on to the first byte that stops it. A reference has no such byte, so a
-- match that holds its first byte holds all of it.
theorem ReferenceAt.covers {text name : Bytes} {offset : Nat} {m : Match}
    (h : ReferenceAt text offset name) (hm : m ∈ reference.findAll text)
    (hstart : m.start ≤ offset) (hstop : offset < m.stop) :
    m.Covers offset (offset + (spelling name).length) := by
  obtain ⟨hlt, more, hmore, htext⟩ := Pattern.mem_findAll hm
  obtain ⟨rest, hrest, hlength⟩ := referenceLength_eq_some.mp hmore
  obtain ⟨hdrop, _⟩ := nameAfter?_eq_some.mp hrest
  have hend := h.le_length (Nat.lt_of_lt_of_le hstop (Pattern.findAll_liesIn hm).stop_le)
  have hwritten := h.written
  rw [← Nat.add_sub_cancel' hstart, ← List.drop_drop, hdrop] at hwritten
  rw [Match.stop, htext, List.length_take, List.length_drop] at hstop
  have hrun := spelling_le_run h.not_isStop hwritten (by split at hlength <;> omega)
  refine ⟨hstart, ?_⟩
  rw [Match.stop, htext, List.length_take, List.length_drop]
  omega

theorem ReferenceAt.exists_covers {text name : Bytes} {offset : Nat} {string : Match}
    (h : ReferenceAt text offset name) (hstring : string.LiesIn text)
    (hin : string.Covers offset (offset + (spelling name).length)) :
    ∃ inner ∈ reference.findAll string.text,
      (inner.shift string.start).Covers offset (offset + (spelling name).length) := by
  have href : ReferenceAt string.text (offset - string.start) name :=
    ⟨h.name_ne_nil, h.isName, hstring.word_isPrefix hin h.written⟩
  obtain ⟨hstart, hstop⟩ := hin
  simp only [Match.stop, length_spelling] at hstop
  obtain ⟨more, hmore⟩ := href.lengthAt
  obtain ⟨inner, hinner, hle, hlt⟩ := Pattern.findAll_reaches (by omega) hmore
  obtain ⟨_, hend⟩ := href.covers hinner hle hlt
  refine ⟨inner, hinner, ?_, ?_⟩
  · rw [Match.shift_start]
    omega
  · rw [Match.shift_stop]
    omega

def Found (text : Bytes) (start stop : Nat) : Prop :=
  ∃ m ∈ findInStyle text ++ findInString text ((findInStyle text).map Match.span),
    m.Covers start stop

def Reported (accessors : Accessors) (line : Source.Line) (start stop : Nat) : Prop :=
  ∃ v ∈ Linter.checkLine accessors line,
    (v.ruleId = Rule.variableInStyle.id ∨ v.ruleId = Rule.variableInString.id) ∧
      v.column - 1 ≤ start ∧ stop ≤ v.column - 1 + v.found.length

-- The string is kept by the rule for strings only if it stands apart from all style
-- assignments, and a reference in it can be found in no other string.
theorem ReferenceAt.found_iff {text name : Bytes} {offset : Nat} {string : Match}
    (h : ReferenceAt text offset name) (hstring : string ∈ quotedString.findAll text)
    (hin : string.Covers offset (offset + (spelling name).length)) :
    Found text offset (offset + (spelling name).length) ↔
      (∃ m ∈ findInStyle text, m.Covers offset (offset + (spelling name).length)) ∨
        ∀ m ∈ findInStyle text, m.stop ≤ string.start ∨ string.stop ≤ m.start := by
  constructor
  · rintro ⟨m, hm, hcovers⟩
    rcases List.mem_append.mp hm with hm | hm
    · exact .inl ⟨m, hm, hcovers⟩
    · obtain ⟨other, hother, hfree, inner, hinner, rfl⟩ := mem_findInString.mp hm
      -- the string that the reference was found in is the one it stands in
      have hstop := Pattern.shift_stop_le_of_mem_findAll hinner
      obtain ⟨hleft, hright⟩ := hcovers
      obtain ⟨hstart, hend⟩ := hin
      rw [Match.shift_start] at hleft
      rw [length_spelling] at hright hend
      obtain rfl := Pattern.findAll_eq_of_shared hother hstring (by omega) (by omega)
      exact .inr ((Match.apart_iff other _).mp hfree)
  · rintro (⟨m, hm, hcovers⟩ | hfree)
    · exact ⟨m, List.mem_append_left _ hm, hcovers⟩
    · obtain ⟨inner, hinner, hcovers⟩ := h.exists_covers (Pattern.findAll_liesIn hstring) hin
      exact ⟨_, List.mem_append_right _ (mem_findInString.mpr
        ⟨string, hstring, (Match.apart_iff string _).mpr hfree, inner, hinner, rfl⟩), hcovers⟩

theorem reported_iff_found (accessors : Accessors) (line : Source.Line) (start stop : Nat) :
    Reported accessors line start stop ↔ Found line.text start stop := by
  constructor
  · rintro ⟨v, hv, hrule, hstart, hstop⟩
    obtain ⟨rule, hcatalog, hv⟩ := List.mem_flatMap.mp hv
    obtain ⟨m, hm, _, rfl⟩ := Linter.mem_evaluate.mp hv
    simp only [Linter.violation] at hrule hstart hstop
    have hcovers : m.Covers start stop := ⟨by omega, by simp only [Match.stop]; omega⟩
    simp only [Rule.catalog, List.mem_cons, List.not_mem_nil, or_false] at hcatalog
    rcases hcatalog with rfl | rfl | rfl
    · exact absurd hrule (by decide)
    · exact ⟨m, List.mem_append_left _ hm, hcovers⟩
    · exact ⟨m, List.mem_append_right _ hm, hcovers⟩
  · rintro ⟨m, hm, hstart, hstop⟩
    have hreport (rule : Rule) (hcatalog : rule ∈ Rule.catalog)
        (hpolicy : rule.policy = .alwaysViolation) (hm : m ∈ Linter.finds rule.kind line.text) :
        Linter.violation rule line m ∈ Linter.checkLine accessors line := by
      refine List.mem_flatMap.mpr ⟨rule, hcatalog, Linter.mem_evaluate.mpr ⟨m, hm, ?_, rfl⟩⟩
      simp [Linter.isExcused, hpolicy]
    simp only [Match.stop] at hstop
    rcases List.mem_append.mp hm with hm | hm
    · refine ⟨_, hreport Rule.variableInStyle (by decide) rfl hm, .inl rfl, ?_, ?_⟩ <;>
        simp only [Linter.violation] <;> omega
    · refine ⟨_, hreport Rule.variableInString (by decide) rfl hm, .inr rfl, ?_, ?_⟩ <;>
        simp only [Linter.violation] <;> omega

-- A reference that stands in a quoted string is found, and so reported, exactly if a
-- style assignment holds it or no style assignment overlaps the string. An assignment
-- that overlaps the string without holding the reference hides it.
theorem reference_reported_iff (accessors : Accessors) {line : Source.Line} {string : Match}
    {offset : Nat} {name : Bytes} (hstring : string ∈ quotedString.findAll line.text)
    (href : ReferenceAt line.text offset name)
    (hin : string.Covers offset (offset + (spelling name).length)) :
    (Found line.text offset (offset + (spelling name).length) ↔
      (∃ m ∈ findInStyle line.text, m.Covers offset (offset + (spelling name).length)) ∨
        ∀ m ∈ findInStyle line.text, m.stop ≤ string.start ∨ string.stop ≤ m.start) ∧
    (Reported accessors line offset (offset + (spelling name).length) ↔
      (∃ m ∈ findInStyle line.text, m.Covers offset (offset + (spelling name).length)) ∨
        ∀ m ∈ findInStyle line.text, m.stop ≤ string.start ∨ string.stop ≤ m.start) := by
  have hfound := href.found_iff hstring hin
  exact ⟨hfound, (reported_iff_found accessors line _ _).trans hfound⟩

-- The quote that opens the assigned value closes the string before it. The string
-- overlaps the assignment, and the reference to b in front of the assignment is lost.
def hiddenLine : Source.Line := ⟨utf8 "'var(--b) .style.x = 'var(--a)'", 1, utf8 "/w/a", utf8 "a"⟩

def hidingString : Match := ⟨utf8 "'var(--b) .style.x = '", 0⟩

theorem hiddenLine_reference : ReferenceAt hiddenLine.text 1 (utf8 "b") :=
  ⟨by decide, List.all_eq_true.mp (by decide), by decide⟩

theorem reference_reported_iff_hidden :
    hidingString ∈ quotedString.findAll hiddenLine.text ∧ ¬Found hiddenLine.text 1 8 ∧
      ¬Reported ⟨Accessors.builtin, by decide, by decide⟩ hiddenLine 1 8 := by
  have hstring : hidingString ∈ quotedString.findAll hiddenLine.text := by decide
  obtain ⟨hfound, hreported⟩ := reference_reported_iff ⟨Accessors.builtin, by decide, by decide⟩
    hstring hiddenLine_reference (by decide)
  have hlost : ¬((∃ m ∈ findInStyle hiddenLine.text, m.Covers 1 8) ∨
      ∀ m ∈ findInStyle hiddenLine.text,
        m.stop ≤ hidingString.start ∨ hidingString.stop ≤ m.start) := by decide
  exact ⟨hstring, fun h => hlost (hfound.mp h), fun h => hlost (hreported.mp h)⟩

theorem not_every_reference_found :
    ¬∀ (text : Bytes), ∀ string ∈ quotedString.findAll text, ∀ (offset : Nat) (name : Bytes),
      ReferenceAt text offset name → string.Covers offset (offset + (spelling name).length) →
        Found text offset (offset + (spelling name).length) := by
  intro hall
  have hfound : Found hiddenLine.text 1 8 :=
    hall hiddenLine.text hidingString (by decide) 1 (utf8 "b") hiddenLine_reference (by decide)
  unfold Found at hfound
  revert hfound
  decide

end ThemeLint.ThemeVariable
