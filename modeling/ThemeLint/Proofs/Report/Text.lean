import ThemeLint.Proofs.Bytes.Numeral
import ThemeLint.Proofs.Display.Graphic
import ThemeLint.Proofs.Report

namespace ThemeLint

open Bytes Display

namespace Bytes

theorem notMem_ofInt {b : UInt8} (hdigit : isDigit b = false) (hsign : b ≠ byte '-') (n : Int) :
    b ∉ ofInt n := by
  have hdigits (n : Nat) : b ∉ ofNat n := by
    intro hmem
    simp [isDigit_ofNat n b hmem] at hdigit
  cases n with
  | ofNat n => exact hdigits n
  | negSucc n => exact List.not_mem_cons_of_ne_of_not_mem hsign (hdigits (n + 1))

end Bytes

namespace Report

namespace Style

variable {text : Bytes}

theorem lf_notMem_expandTabs (h : lf ∉ text) : lf ∉ expandTabs text := by
  intro hmem
  obtain ⟨b, hb, hin⟩ := List.mem_flatMap.mp hmem
  by_cases htab : b = tab
  · simp [htab, lf, space] at hin
  · obtain rfl : lf = b := by simpa [htab] using hin
    exact h hb

theorem expandTabs_of_notMem (h : tab ∉ text) : expandTabs text = text := by
  induction text with
  | nil => rfl
  | cons b text ih =>
      obtain ⟨hb, htext⟩ := List.ne_and_not_mem_of_not_mem_cons h
      have hrest : expandTabs text = text := ih htext
      rw [expandTabs, List.flatMap_cons, ← expandTabs, hrest]
      simp [Ne.symm hb]

theorem unifyBreaks_of_notMem (h : lf ∉ text) : unifyBreaks text = text := by
  induction text with
  | nil => rfl
  | cons b text ih =>
      obtain ⟨-, htext⟩ := List.ne_and_not_mem_of_not_mem_cons h
      have hhead : text.head? ≠ some lf := fun hlf => htext (List.mem_of_head? hlf)
      simp [unifyBreaks, hhead, ih htext]

-- One line is set off as it is, but for its tabs.
theorem render_of_notMem (style : Style) (h : lf ∉ text) :
    style.render text = style.wrap (expandTabs text) := by
  have hline := lf_notMem_expandTabs h
  simp only [render, unifyBreaks_of_notMem hline, partsBy_of_notMem hline, List.map_cons,
    List.map_nil]

def IsGraphic : Style → Prop
  | plain => True
  | graphic codes => ∀ b ∈ codes, isParameter b = true

-- Left out, the sequences of a style leave the text that they set off.
theorem eraseGraphics_wrap {style : Style} (h : style.IsGraphic) {rest : Bytes}
    (hseam : IsSeam rest) :
    eraseGraphics (style.wrap text ++ rest) = eraseGraphics text ++ eraseGraphics rest := by
  cases style with
  | plain => exact eraseGraphics_append hseam
  | graphic codes =>
      have hon : Display.IsGraphic (utf8 "\x1b[" ++ codes ++ utf8 "m") := ⟨codes, rfl, h⟩
      have hzero : ∀ b ∈ [byte '0'], isParameter b = true := List.forall_mem_singleton.mpr rfl
      have hoff : Display.IsGraphic (utf8 "\x1b[0m") := ⟨[byte '0'], rfl, hzero⟩
      have hend : IsSeam (utf8 "\x1b[0m" ++ rest) := by
        intro b hb
        obtain rfl : 0x1B = b := Option.some.inj hb
        decide
      rw [wrap, List.append_assoc _ _ rest, List.append_assoc _ _ (_ ++ rest),
        eraseGraphics_graphic_append hon, eraseGraphics_append hend,
        eraseGraphics_graphic_append hoff]

end Style

structure Styles.AreGraphic (styles : Styles) : Prop where
  location : styles.location.IsGraphic
  rule : styles.rule.IsGraphic
  summary : styles.summary.IsGraphic

theorem Styles.of_areGraphic (colored : Bool) : (Styles.of colored).AreGraphic := by
  cases colored with
  | false => exact ⟨trivial, trivial, trivial⟩
  | true => exact ⟨List.all_eq_true.mp (by decide : (utf8 "1").all isParameter = true),
      List.all_eq_true.mp (by decide : (utf8 "33").all isParameter = true),
      List.all_eq_true.mp (by decide : (utf8 "1;31").all isParameter = true)⟩

variable {styles : Styles} {r : Result} {v : Violation}

-- A violation whose place and rule stand on one line.
def IsOneLine (v : Violation) : Prop := lf ∉ v.relPath ∧ lf ∉ v.ruleId

-- Of a place and of the summary only the path is free.
theorem notMem_location {b : UInt8} (hline : b ∉ ofInt v.line) (hcolon : b ≠ byte ':')
    (h : b ∉ v.relPath) : b ∉ v.location := by
  have hmark : b ∉ utf8 ":" := List.not_mem_cons_of_ne_of_not_mem hcolon List.not_mem_nil
  simp [Violation.location, h, hmark, hline]

theorem notMem_summary {b : UInt8} (hcount : b ∉ ofInt r.count)
    (hword : b ∉ utf8 " violation(s) found.") : b ∉ r.summary := by
  rw [Result.summary, List.mem_append, not_or]
  exact ⟨hcount, hword⟩

theorem lf_notMem_location (h : lf ∉ v.relPath) : lf ∉ v.location :=
  notMem_location (lf_notMem_ofInt _) (by decide) h

theorem lf_notMem_summary (r : Result) : lf ∉ r.summary :=
  notMem_summary (lf_notMem_ofInt _) (by decide)

def erasedLine (v : Violation) : Bytes :=
  eraseGraphics (Style.expandTabs v.location) ++ utf8 "  " ++
    eraseGraphics (Style.expandTabs v.ruleId) ++ utf8 "  " ++ eraseGraphics v.message ++ [lf]

theorem isSeam_gap (rest : Bytes) : IsSeam (utf8 "  " ++ rest) := by
  intro b hb
  obtain rfl : space = b := Option.some.inj hb
  decide

theorem isSeam_lf (rest : Bytes) : IsSeam ([lf] ++ rest) := by
  intro b hb
  obtain rfl : lf = b := Option.some.inj hb
  decide

-- The parts of a line are set apart by gaps and by the line feed, so that no sequence that
-- one of them starts ends in the next.
theorem eraseGraphics_violationLine (hstyles : styles.AreGraphic) (h : IsOneLine v)
    (rest : Bytes) :
    eraseGraphics (violationLine styles v ++ rest) = erasedLine v ++ eraseGraphics rest := by
  have hgap : 0x1B ∉ utf8 "  " := by decide
  have hfeed : 0x1B ∉ [lf] := by decide
  simp only [violationLine, erasedLine, List.append_assoc,
    Style.render_of_notMem _ (lf_notMem_location h.1), Style.render_of_notMem _ h.2]
  rw [Style.eraseGraphics_wrap hstyles.location (isSeam_gap _), eraseGraphics_plain_append hgap,
    Style.eraseGraphics_wrap hstyles.rule (isSeam_gap _), eraseGraphics_plain_append hgap,
    eraseGraphics_append (isSeam_lf rest), eraseGraphics_plain_append hfeed]

theorem eraseGraphics_violationLines (hstyles : styles.AreGraphic) {violations : List Violation}
    (h : ∀ v ∈ violations, IsOneLine v) (rest : Bytes) :
    eraseGraphics ((violations.map (violationLine styles)).flatten ++ rest) =
      violations.flatMap erasedLine ++ eraseGraphics rest := by
  induction violations with
  | nil => rfl
  | cons v violations ih =>
      obtain ⟨hv, hviolations⟩ := List.forall_mem_cons.mp h
      rw [List.map_cons, List.flatten_cons, List.append_assoc,
        eraseGraphics_violationLine hstyles hv, ih hviolations, List.flatMap_cons,
        List.append_assoc]

theorem eraseGraphics_summaryLine (hstyles : styles.AreGraphic) (r : Result) :
    eraseGraphics (summaryLine styles r) =
      [lf] ++ eraseGraphics (Style.expandTabs r.summary) ++ [lf] := by
  have hfeed : 0x1B ∉ [lf] := by decide
  have hend : IsSeam [lf] := isSeam_lf []
  rw [summaryLine, Style.render_of_notMem _ (lf_notMem_summary r), List.append_assoc,
    eraseGraphics_plain_append hfeed, Style.eraseGraphics_wrap hstyles.summary hend]
  rfl

-- What is left of a report in text does not depend on its colors.
theorem eraseGraphics_text (h : ∀ v ∈ r.violations, IsOneLine v) (colored : Bool) :
    eraseGraphics (textChunks colored r).flatten =
      if r.violations = [] then [] else r.violations.flatMap erasedLine ++
        ([lf] ++ eraseGraphics (Style.expandTabs r.summary) ++ [lf]) := by
  have hstyles := Styles.of_areGraphic colored
  rw [textChunks_eq]
  by_cases hclean : r.violations = []
  · simp only [hclean, if_true]
    rfl
  · rw [if_neg hclean, if_neg hclean, List.flatten_append, List.flatten_singleton,
      eraseGraphics_violationLines hstyles h, eraseGraphics_summaryLine hstyles]

theorem violationLine_plain (h : IsOneLine v) (htabs : tab ∉ v.relPath ∧ tab ∉ v.ruleId) :
    violationLine (Styles.of false) v = v.render ++ [lf] := by
  have hline : tab ∉ ofInt v.line := notMem_ofInt (by decide) (by decide) v.line
  have hlocation := Style.expandTabs_of_notMem (notMem_location hline (by decide) htabs.1)
  have hrule := Style.expandTabs_of_notMem htabs.2
  rw [violationLine, Style.render_of_notMem _ (lf_notMem_location h.1),
    Style.render_of_notMem _ h.2, hlocation, hrule]
  rfl

theorem summaryLine_plain (r : Result) :
    summaryLine (Styles.of false) r = [lf] ++ r.summary ++ [lf] := by
  have hcount : tab ∉ ofInt r.count := notMem_ofInt (by decide) (by decide) r.count
  rw [summaryLine, Style.render_of_notMem _ (lf_notMem_summary r),
    Style.expandTabs_of_notMem (notMem_summary hcount (by decide))]
  rfl

-- A report in text says the same with colors and without: the sequences left out of both, the
-- same bytes remain. This holds for any message, also one with sequences of its own, whole or
-- begun. Without colors and tabs, the report is the diagnostic line of each violation and the
-- summary behind an empty line, and it is empty for a clean result.
theorem write_text_erased {r : Result} (h : ∀ v ∈ r.violations, lf ∉ v.relPath ∧ lf ∉ v.ruleId) :
    ∃ colored plain, write .unlimited Format.text.name true r = (colored, none) ∧
      write .unlimited Format.text.name false r = (plain, none) ∧
      eraseGraphics colored = eraseGraphics plain ∧
      ((∀ v ∈ r.violations, tab ∉ v.relPath ∧ tab ∉ v.ruleId) →
        plain = if r.violations = [] then [] else
          r.violations.flatMap (fun v => v.render ++ [lf]) ++ [lf] ++ r.summary ++ [lf]) := by
  refine ⟨_, _, write_unlimited .text true r, write_unlimited .text false r, ?_, fun htabs => ?_⟩
  · exact (eraseGraphics_text h true).trans (eraseGraphics_text h false).symm
  · have hlines : r.violations.map (violationLine (Styles.of false)) =
        r.violations.map fun v => v.render ++ [lf] :=
      List.map_congr_left fun v hv => violationLine_plain (h v hv) (htabs v hv)
    rw [chunks, textChunks_eq, hlines, summaryLine_plain]
    by_cases hclean : r.violations = []
    · simp [hclean]
    · simp [hclean, List.flatMap_def]

-- A path, a rule and a message that end in the start of a sequence, and a message with a tab,
-- a line feed and a whole sequence.
def escapedText : Result where
  root := utf8 "/w"
  files := [utf8 "/w/a.js"]
  violations := [{
    path := utf8 "/w/a.js"
    relPath := utf8 "a\x1b[3"
    line := 3
    column := 7
    ruleId := utf8 "r\x1b["
    found := utf8 "#fff"
    message := utf8 "1m\t\x1b[31mred\n\x1b" }]

theorem write_text_erased_sample :
    (∀ v ∈ escapedText.violations, lf ∉ v.relPath ∧ lf ∉ v.ruleId) ∧
      ∃ colored plain, write .unlimited Format.text.name true escapedText = (colored, none) ∧
        write .unlimited Format.text.name false escapedText = (plain, none) ∧
        eraseGraphics colored = eraseGraphics plain ∧
        plain = utf8 "a\x1b[3:3  r\x1b[  1m\t\x1b[31mred\n\x1b\n\n1 violation(s) found.\n" := by
  have hlines : ∀ v ∈ escapedText.violations, lf ∉ v.relPath ∧ lf ∉ v.ruleId := by decide
  obtain ⟨colored, plain, hcolored, hplain, herased, htext⟩ := write_text_erased hlines
  refine ⟨hlines, colored, plain, hcolored, hplain, herased, (htext (by decide)).trans ?_⟩
  decide +kernel

end Report

end ThemeLint
