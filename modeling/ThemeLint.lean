import ThemeLint.Files.Sandbox
import ThemeLint.Main
import ThemeLint.Proofs.ThemeVariable
import ThemeLint.Proofs.Source.Scan
import ThemeLint.Proofs.Run.Outcome
import ThemeLint.Proofs.Linter
import ThemeLint.Proofs.Workspace
import ThemeLint.Proofs.Path
import ThemeLint.Proofs.Files.NamePattern
import ThemeLint.Proofs.Files.Sandbox
import ThemeLint.Proofs.Run.Violations
import ThemeLint.Proofs.ThemeVariable.Coverage
import ThemeLint.Proofs.Files.Glob
import ThemeLint.Proofs.Workspace.Locate
import ThemeLint.Proofs.Workspace.Patterns
import ThemeLint.Proofs.Run.Edit
import ThemeLint.Proofs.Log
import ThemeLint.Proofs.Config
import ThemeLint.Proofs.Command
import ThemeLint.Proofs.Accessor
import ThemeLint.Proofs.Command.Verbosity
import ThemeLint.Proofs.Json.Reader
import ThemeLint.Proofs.Bytes.Numeral
import ThemeLint.Proofs.Json.Document
import ThemeLint.Proofs.Report.Sarif
import ThemeLint.Proofs.Color
import ThemeLint.Proofs.Accessor.OpenCall
import ThemeLint.Proofs.Linter.Exemption
import ThemeLint.Proofs.Match.Chain
import ThemeLint.Proofs.ThemeVariable.Assignment
import ThemeLint.Proofs.ThemeVariable.Reference
import ThemeLint.Proofs.Linter.Indentation
import ThemeLint.Proofs.Source.Buffer
import ThemeLint.Proofs.Source.Visit
import ThemeLint.Proofs.Source.Count
import ThemeLint.Proofs.Report.Sink
import ThemeLint.Proofs.Display.Graphic
import ThemeLint.Proofs.Report.Text
import ThemeLint.Proofs.Config.Merge
import ThemeLint.Proofs.Yaml.Reader
import ThemeLint.Proofs.Yaml.Quoted
import ThemeLint.Proofs.Yaml.Scalar
import ThemeLint.Proofs.Report.Yaml
import ThemeLint.Proofs.Files.Disk
import ThemeLint.Proofs.Workspace.Opened
