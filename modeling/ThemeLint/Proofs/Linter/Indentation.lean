import ThemeLint.Proofs.Accessor.OpenCall
import ThemeLint.Proofs.Linter
import ThemeLint.Proofs.Source.Line

namespace ThemeLint

open Bytes

def IsIndent (b : UInt8) : Prop := b = space ∨ b = tab

theorem IsIndent.not_isWord {b : UInt8} (h : IsIndent b) : isWord b = false := by
  rcases h with rfl | rfl <;> decide

namespace Pattern

-- A pattern to which indentation is nothing: it finds nothing that starts with a space or a
-- tab, and it finds behind them what it finds at the start of a text.
structure IgnoresIndent (pattern : Pattern) : Prop where
  at_indent : ∀ before b rest, IsIndent b → pattern before (b :: rest) = none
  behind_indent : ∀ b text, IsIndent b → pattern (some b) text = pattern none text

variable {pattern : Pattern}

theorem scan_shift (pattern : Pattern) (before : Option UInt8) (offset position skip : Nat)
    (text : Bytes) :
    pattern.scan before (offset + position) skip text [] =
      (pattern.scan before position skip text []).map (Match.shift offset) := by
  induction text generalizing before position skip with
  | nil => rfl
  | cons b rest ih =>
      have hnext (skip : Nat) := ih (some b) (position + 1) skip
      simp only [← Nat.add_assoc] at hnext
      cases skip with
      | succ skip => exact hnext skip
      | zero =>
          simp only [scan]
          split
          · rw [scan_found, hnext, scan_found _ _ _ _ [_], List.map_append]
            rfl
          · exact hnext 0

theorem IgnoresIndent.scan_indent (h : pattern.IgnoresIndent) {indent : Bytes}
    (hindent : ∀ b ∈ indent, IsIndent b) (position : Nat) (text : Bytes) :
    pattern.scan none position 0 (indent ++ text) [] =
      pattern.scan none (position + indent.length) 0 text [] := by
  induction indent generalizing position with
  | nil => rfl
  | cons b indent ih =>
      obtain ⟨hb, hindent⟩ := List.forall_mem_cons.mp hindent
      have hbehind : pattern.scan (some b) (position + 1) 0 (indent ++ text) [] =
          pattern.scan none (position + 1) 0 (indent ++ text) [] := by
        cases indent ++ text with
        | nil => rfl
        | cons c rest => simp only [scan, h.behind_indent b (c :: rest) hb]
      have hposition : position + 1 + indent.length = position + (indent.length + 1) := by omega
      rw [List.cons_append, scan, h.at_indent none b (indent ++ text) hb]
      rw [hbehind, ih hindent, List.length_cons, hposition]

-- The walk passes the indentation and finds behind it what it finds without it.
theorem IgnoresIndent.findAll_indent (h : pattern.IgnoresIndent) {indent : Bytes}
    (hindent : ∀ b ∈ indent, IsIndent b) (text : Bytes) :
    pattern.findAll (indent ++ text) = (pattern.findAll text).map (Match.shift indent.length) := by
  have hshift := scan_shift pattern none indent.length 0 0 text
  rw [findAll, h.scan_indent hindent, Nat.add_comm, hshift, findAll]

end Pattern

namespace Color

theorem literal_ignoresIndent : literal.IgnoresIndent where
  at_indent before b rest hb := by
    have hfunction : functionLength before (b :: rest) = none := by
      unfold functionLength
      split
      · rfl
      · rcases hb with rfl | rfl <;> rfl
    have hhex : hexLength before (b :: rest) = none := by
      rcases hb with rfl | rfl <;> rfl
    rw [literal, hhex, hfunction]
    rfl
  behind_indent b text hb := by
    have hfunction : functionLength (some b) text = functionLength none text := by
      rcases hb with rfl | rfl <;> rfl
    have hhex : hexLength (some b) text = hexLength none text := by
      rcases hb with rfl | rfl <;> cases text <;> rfl
    rw [literal, hhex, hfunction]
    rfl

end Color

namespace ThemeVariable

theorem assignment_ignoresIndent : assignment.IgnoresIndent where
  at_indent before b rest hb := by
    rcases hb with rfl | rfl <;> rfl
  behind_indent b text hb := rfl

theorem quotedString_ignoresIndent : quotedString.IgnoresIndent where
  at_indent before b rest hb := by
    rcases hb with rfl | rfl <;> rfl
  behind_indent b text hb := rfl

theorem overlaps_shift (offset : Nat) (a b : Match) :
    (a.shift offset).span.overlaps (b.shift offset).span = a.span.overlaps b.span := by
  rw [Bool.eq_iff_iff, Match.span_overlaps_iff, Match.span_overlaps_iff]
  simp only [Match.shift_start, Match.shift_stop]
  omega

-- Strings and assignments move together, so that the same strings are left out.
theorem findInString_indent {indent : Bytes} (hindent : ∀ b ∈ indent, IsIndent b) (text : Bytes) :
    findInString (indent ++ text) ((findInStyle (indent ++ text)).map Match.span) =
      (findInString text ((findInStyle text).map Match.span)).map (Match.shift indent.length) := by
  rw [findInString, findInString, findInStyle, findInStyle,
    quotedString_ignoresIndent.findAll_indent hindent,
    assignment_ignoresIndent.findAll_indent hindent, List.flatMap_map, List.map_flatMap]
  refine List.flatMap_congr fun string _ => ?_
  have hcovered : (((assignment.findAll text).map (Match.shift indent.length)).map Match.span).any
        (string.shift indent.length).span.overlaps =
      ((assignment.findAll text).map Match.span).any string.span.overlaps := by
    simp only [List.any_map, Function.comp_def, overlaps_shift]
  rw [hcovered]
  split
  · rfl
  · rw [List.map_map]
    refine List.map_congr_left fun m _ => ?_
    simp [Match.shift, Nat.add_assoc]

end ThemeVariable

namespace Accessors

variable {accessors : Accessors} {indent : Bytes}

theorem takeWhile_isWord_append (hindent : ∀ b ∈ indent, IsIndent b) (text : Bytes) :
    (text ++ indent).takeWhile isWord = text.takeWhile isWord := by
  have hnone : indent.takeWhile isWord = [] := by
    cases indent with
    | nil => rfl
    | cons b rest => simp [(hindent b (by simp)).not_isWord]
  rw [List.takeWhile_append, hnone, List.append_nil]
  split
  · rename_i hall
    exact ((List.takeWhile_prefix isWord).eq_of_length hall).symm
  · rfl

-- The spaces before a parenthesis may lead into the indentation, where no word stands.
theorem nameBehind_append (hindent : ∀ b ∈ indent, IsIndent b) (reversed : Bytes) :
    nameBehind (reversed ++ indent) = nameBehind reversed := by
  unfold nameBehind
  congr 1
  induction reversed with
  | nil =>
      have hrest : ∀ b ∈ indent.dropWhile (· == space), IsIndent b :=
        fun b hb => hindent b ((List.dropWhile_sublist _).subset hb)
      simpa using takeWhile_isWord_append hrest []
  | cons b rest ih =>
      by_cases hb : b = space
      · simpa [hb] using ih
      · have hkept : ∀ tail : Bytes, (b :: tail).dropWhile (· == space) = b :: tail := by
          simp [hb]
        rw [List.cons_append, hkept, hkept, ← List.cons_append]
        exact takeWhile_isWord_append hindent (b :: rest)

theorem opensCall_indent (hindent : ∀ b ∈ indent, IsIndent b) :
    accessors.opensCall indent = false := by
  induction indent with
  | nil => rfl
  | cons b rest ih =>
      obtain ⟨hb, hrest⟩ := List.forall_mem_cons.mp hindent
      have hother : (b == byte ')') = false ∧ (b == byte '(') = false := by
        rcases hb with rfl | rfl <;> decide
      simpa [opensCall, hother] using ih hrest

theorem opensCall_append_indent (hindent : ∀ b ∈ indent, IsIndent b) (reversed : Bytes) :
    accessors.opensCall (reversed ++ indent) = accessors.opensCall reversed := by
  induction reversed with
  | nil => exact opensCall_indent hindent
  | cons b rest ih =>
      simp only [List.cons_append, opensCall, nameBehind_append hindent, ih]

theorem insideOpenCall_indent (hindent : ∀ b ∈ indent, IsIndent b) (text : Bytes) :
    accessors.insideOpenCall (indent ++ text) = accessors.insideOpenCall text := by
  have hreverse : ∀ b ∈ indent.reverse, IsIndent b := by simpa using hindent
  rw [insideOpenCall, insideOpenCall, List.reverse_append, opensCall_append_indent hreverse]

-- At the start of a text no call is open, so that the start needs no rule of its own.
theorem isFallback_eq_of_le {line : Bytes} {column : Nat} (hle : column ≤ line.length) :
    accessors.isFallback line column = accessors.insideOpenCall (line.take column) := by
  by_cases hzero : column = 0
  · subst hzero
    rfl
  · have hpos : (0 : Int) < column := by omega
    rw [isFallback_eq_insideOpenCall hpos (by omega), Int.toNat_natCast]

theorem isFallback_indent (hindent : ∀ b ∈ indent, IsIndent b) {text : Bytes} {column : Nat}
    (hle : column ≤ text.length) :
    accessors.isFallback (indent ++ text) (indent.length + column : Nat) =
      accessors.isFallback text column := by
  have hlength : indent.length + column ≤ (indent ++ text).length := by
    rw [List.length_append]
    omega
  rw [isFallback_eq_of_le hlength, isFallback_eq_of_le hle, List.take_length_add_append,
    insideOpenCall_indent hindent]

end Accessors

namespace Source

theorem trimStart_indent {indent : Bytes} (hindent : ∀ b ∈ indent, IsIndent b) (text : Bytes) :
    trimStart (indent ++ text) = trimStart text := by
  induction indent with
  | nil => rfl
  | cons b indent ih =>
      obtain ⟨hb, hindent⟩ := List.forall_mem_cons.mp hindent
      have hspace : isAsciiSpace b = true := by
        rcases hb with rfl | rfl <;> decide
      rw [List.cons_append, trimStart_of_ascii hspace, ih hindent]

theorem isComment_indent {indent : Bytes} (hindent : ∀ b ∈ indent, IsIndent b) (text : Bytes) :
    isComment (indent ++ text) = isComment text := by
  simp only [isComment, trimStart_indent hindent]

end Source

def Violation.moved (offset : Nat) (v : Violation) : Violation :=
  { v with
    column := v.column + offset
    message :=
      match Rule.find? v.ruleId with
      | some rule => rule.kind.message v.found (v.column + offset - 1)
      | none => v.message }

theorem Rule.find?_id : ∀ rule ∈ Rule.catalog, Rule.find? rule.id = some rule := by decide

namespace Linter

open Source

variable {indent : Bytes}

theorem finds_indent (hindent : ∀ b ∈ indent, IsIndent b) (kind : Kind) (text : Bytes) :
    finds kind (indent ++ text) = (finds kind text).map (Match.shift indent.length) := by
  cases kind with
  | hardcodedColor => exact Color.literal_ignoresIndent.findAll_indent hindent text
  | variableInStyle => exact ThemeVariable.assignment_ignoresIndent.findAll_indent hindent text
  | variableInString => exact ThemeVariable.findInString_indent hindent text
  | other code => rfl

theorem isExcused_indent (hindent : ∀ b ∈ indent, IsIndent b) (accessors : Accessors)
    (policy : Policy) {text : Bytes} {m : Match} (hm : m.LiesIn text) :
    isExcused accessors policy (indent ++ text) (m.shift indent.length) =
      isExcused accessors policy text m := by
  have hlt := hm.start_lt_stop
  have hle := hm.stop_le
  rw [isExcused, isExcused, Match.shift_start, Accessors.isFallback_indent hindent (by omega)]

theorem violation_shift {rule : Rule} (hrule : rule ∈ Rule.catalog) (line : Line) (m : Match) :
    violation rule { line with text := indent ++ line.text } (m.shift indent.length) =
      (violation rule line m).moved indent.length := by
  have hstart : ((indent.length + m.start : Nat) : Int) = m.start + 1 + indent.length - 1 := by
    omega
  simp only [violation, Violation.moved, Rule.find?_id rule hrule, Match.shift, hstart,
    Int.sub_add_cancel]

theorem evaluate_indent (hindent : ∀ b ∈ indent, IsIndent b) (accessors : Accessors) {rule : Rule}
    (hrule : rule ∈ Rule.catalog) (line : Line) :
    evaluate accessors rule { line with text := indent ++ line.text } =
      (evaluate accessors rule line).map (Violation.moved indent.length) := by
  have hkept : (finds rule.kind line.text).filter
        ((!isExcused accessors rule.policy (indent ++ line.text) ·) ∘ Match.shift indent.length) =
      (finds rule.kind line.text).filter (!isExcused accessors rule.policy line.text ·) := by
    refine List.filter_congr fun m hm => ?_
    rw [Function.comp_apply, isExcused_indent hindent accessors rule.policy (finds_liesIn hm)]
  rw [evaluate, evaluate, finds_indent hindent, List.filter_map, hkept, List.map_map, List.map_map]
  exact List.map_congr_left fun m _ => violation_shift hrule line m

-- Spaces and tabs in front of a line make it no comment and take nothing from it. What is
-- found on it is found as before, in the same order, as many columns further right as the
-- indentation is long.
theorem checkLine_indent (accessors : Accessors) (line : Line) {indent : Bytes}
    (hindent : ∀ b ∈ indent, b = space ∨ b = tab) :
    isComment (indent ++ line.text) = isComment line.text ∧
    checkLine accessors { line with text := indent ++ line.text } =
      (checkLine accessors line).map (Violation.moved indent.length) ∧
    (checkLine accessors { line with text := indent ++ line.text }).map
        (fun v => (v.ruleId, v.found)) =
      (checkLine accessors line).map fun v => (v.ruleId, v.found) := by
  have hmoved : checkLine accessors { line with text := indent ++ line.text } =
      (checkLine accessors line).map (Violation.moved indent.length) := by
    rw [checkLine, checkLine, List.map_flatMap]
    exact List.flatMap_congr fun rule hrule => evaluate_indent hindent accessors hrule line
  refine ⟨isComment_indent hindent line.text, hmoved, ?_⟩
  rw [hmoved, List.map_map]
  rfl

-- A color at the very start of the line, a fallback behind spaces, and a reference.
def flushLine : Line :=
  ⟨utf8 "#fff; (themeColor ('a', '#000') + 'var(--x)')", 1, utf8 "/w/a", utf8 "a"⟩

def flushAccessors : Accessors := ⟨[utf8 "themeColor"], by decide, by decide⟩

theorem checkLine_indent_flushLine :
    (checkLine flushAccessors flushLine).map (·.column) = [1, 36] ∧
      checkLine flushAccessors { flushLine with text := [tab, space] ++ flushLine.text } =
        (checkLine flushAccessors flushLine).map (Violation.moved 2) := by
  have hindent : ∀ b ∈ [tab, space], b = space ∨ b = tab := by simp
  exact ⟨by decide, (checkLine_indent flushAccessors flushLine hindent).2.1⟩

end Linter

end ThemeLint
