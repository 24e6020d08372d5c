import ThemeLint.Accessor
import ThemeLint.Color
import ThemeLint.Rule
import ThemeLint.Source.Line
import ThemeLint.ThemeVariable
import ThemeLint.Violation

namespace ThemeLint.Linter

open Source

-- What a rule of this kind finds on a line. The strings of style assignments
-- belong to the rule for styles and are left out by the rule for strings.
def finds (kind : Kind) (text : Bytes) : List Match :=
  match kind with
  | .hardcodedColor => Color.findAll text
  | .variableInStyle => ThemeVariable.findInStyle text
  | .variableInString =>
    ThemeVariable.findInString text ((ThemeVariable.findInStyle text).map Match.span)
  | .other _ => []

def isExcused (accessors : Accessors) (policy : Policy) (text : Bytes) (m : Match) : Bool :=
  policy == .requiresContextCheck && accessors.isFallback text m.start

def violation (rule : Rule) (line : Line) (m : Match) : Violation where
  path := line.path
  relPath := line.relPath
  line := line.number
  column := m.start + 1
  ruleId := rule.id
  found := m.text
  message := rule.kind.message m.text m.start

def evaluate (accessors : Accessors) (rule : Rule) (line : Line) : List Violation :=
  ((finds rule.kind line.text).filter (!isExcused accessors rule.policy line.text ·)).map
    (violation rule line)

def checkLine (accessors : Accessors) (line : Line) : List Violation :=
  Rule.catalog.flatMap (evaluate accessors · line)

end ThemeLint.Linter
