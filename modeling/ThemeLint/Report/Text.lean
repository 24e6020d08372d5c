import ThemeLint.Display.Width
import ThemeLint.Violation

namespace ThemeLint.Report

open Bytes

inductive Style where
  | plain
  | graphic (codes : Bytes)
deriving DecidableEq, Repr

namespace Style

def wrap : Style → Bytes → Bytes
  | plain, line => line
  | graphic codes, line =>
    utf8 "\x1b[" ++ codes ++ utf8 "m" ++ line ++ utf8 "\x1b[0m"

def expandTabs (text : Bytes) : Bytes :=
  text.flatMap fun b => if b == tab then List.replicate 4 space else [b]

-- A line feed ends a line, and a carriage return right before it belongs to it.
def unifyBreaks : Bytes → Bytes
  | [] => []
  | b :: rest =>
    if b == cr && rest.head? == some lf then unifyBreaks rest else b :: unifyBreaks rest

-- Every line is set off by itself. Where there are several, they are filled up
-- to the widest one.
def render (style : Style) (text : Bytes) : Bytes :=
  match (partsBy lf (unifyBreaks (expandTabs text))).map style.wrap with
  | [line] => line
  | lines =>
    let widest := (lines.map Display.width).foldl max 0
    joinWith [lf] (lines.map fun line =>
      line ++ List.replicate (widest - Display.width line) space)

end Style

-- The styles of the text report: places are bold, rules yellow, and the
-- summary bold and red.
structure Styles where
  location : Style
  rule : Style
  summary : Style

namespace Styles

def of (colored : Bool) : Styles :=
  if colored then ⟨.graphic (utf8 "1"), .graphic (utf8 "33"), .graphic (utf8 "1;31")⟩
  else ⟨.plain, .plain, .plain⟩

end Styles

def violationLine (styles : Styles) (v : Violation) : Bytes :=
  styles.location.render v.location ++ utf8 "  " ++ styles.rule.render v.ruleId ++ utf8 "  "
    ++ v.message ++ [lf]

def summaryLine (styles : Styles) (r : Result) : Bytes :=
  [lf] ++ styles.summary.render r.summary ++ [lf]

def textChunks (colored : Bool) (r : Result) : List Bytes :=
  let styles := Styles.of colored
  if r.hasViolations then r.violations.map (violationLine styles) ++ [summaryLine styles r]
  else []

end ThemeLint.Report
