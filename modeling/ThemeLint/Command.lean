import ThemeLint.Config
import ThemeLint.Options
import ThemeLint.Run

namespace ThemeLint

open Bytes

structure Outcome where
  exitCode : Nat
  stdout : Bytes
  stderr : Bytes
deriving DecidableEq, Repr

structure Environment where
  -- the value of NO_COLOR, empty if it is not set
  noColor : Bytes
  isTerminal : Bool
  time : Bytes
  -- the order in which the settings of a file are visited
  traversal : Toml.Traversal := .written

inductive CheckError where
  | workDir (cause : OpenError)
  | config (cause : ConfigError)
  | options (cause : InvalidConfig)
  | accessors (cause : AccessorError)
  | run (cause : RunError)
  | report (cause : ReportError)
deriving DecidableEq, Repr

namespace CheckError

def message : CheckError → Bytes
  | workDir cause => cause.message
  | config cause => cause.message
  | options cause => cause.message
  | accessors cause => cause.message
  | run cause => cause.message
  | report cause => cause.message

def entry (e : CheckError) : Log.Entry where
  level := .error
  message := utf8 "style token check failed"
  pairs := [(utf8 "error", .text e.message)]

end CheckError

namespace Config

def withOptions (c : Config) (o : Options) : Config :=
  { c with format := o.format?.getD c.format, color := o.color?.getD c.color }

-- The configuration of a check: options over file over defaults.
def forCheck (traversal : Toml.Traversal) (disk : Disk) (workDir : Bytes) (o : Options) :
    Except CheckError Config :=
  match load disk workDir o.config traversal with
  | .error cause => .error (.config cause)
  | .ok config =>
    match (config.withOptions o).validate with
    | .error cause => .error (.options cause)
    | .ok () => .ok (config.withOptions o)

end Config

namespace Command

def loadedEntries (config : Config) : List Log.Entry :=
  if config.source.isEmpty then []
  else [⟨.debug, utf8 "loaded config", [(utf8 "path", .text config.source)]⟩]

def finishedEntry (r : Result) : Log.Entry where
  level := .debug
  message := utf8 "lint finished"
  pairs := [(utf8 "files", .number r.files.length), (utf8 "violations", .number r.count),
    (utf8 "by_rule", .counts r.countByRule)]

def pass (verbose : Bool) (ws : Workspace) (config : Config) :
    List Log.Entry × Except CheckError Result :=
  match Accessors.ofNames (Accessors.builtin ++ config.accessors) with
  | .error cause => (loadedEntries config, .error (.accessors cause))
  | .ok accessors =>
    match Linter.run accessors verbose ws Workspace.patterns with
    | (entries, .error cause) => (loadedEntries config ++ entries, .error (.run cause))
    | (entries, .ok result) =>
      (loadedEntries config ++ entries ++ [finishedEntry result], .ok result)

def check (traversal : Toml.Traversal) (disk : Disk) (o : Options) :
    List Log.Entry × Except CheckError (Config × Result) :=
  match Workspace.openAt disk o.dir with
  | .error cause => ([], .error (.workDir cause))
  | .ok ws =>
    match Config.forCheck traversal disk ws.root o with
    | .error cause => ([], .error cause)
    | .ok config =>
      let (entries, outcome) := pass o.verbose ws config
      (entries, outcome.map fun result => (config, result))

-- Text is meant for people and goes where messages go, every other format to the
-- output.
def publish (environment : Environment) (log : Bytes) (config : Config) (result : Result) :
    Except CheckError Outcome :=
  let colored := ColorMode.isColored config.color environment.noColor environment.isTerminal
  match Report.write .unlimited config.format colored result with
  | (_, some cause) => .error (.report cause)
  | (report, none) =>
    if config.format = Format.text.name then .ok ⟨result.exitCode, [], log ++ report⟩
    else .ok ⟨result.exitCode, report, log⟩

def runCheck (environment : Environment) (disk : Disk) (o : Options) : Outcome :=
  let (entries, outcome) := check environment.traversal disk o
  let log (entries : List Log.Entry) : Bytes := Log.render o.verbose environment.time entries
  match outcome with
  | .error e => ⟨1, [], log (entries ++ [e.entry])⟩
  | .ok (config, result) =>
    match publish environment (log entries) config result with
    | .ok outcome => outcome
    | .error e => ⟨1, [], log (entries ++ [e.entry])⟩

def helpLines : List Bytes := [
  utf8 "Scans topics/*/interactive.* and topics/*/widgets/*.js under the work dir.",
  utf8 "",
  utf8 "Colors must be read from the theme through an accessor such as",
  utf8 "getToken('token-name', '#fallback'). A color literal is only allowed as the",
  utf8 "fallback argument of such a call. Theme variables (var(--x)) must never be",
  utf8 "written as strings into inline styles or other string literals.",
  utf8 "",
  utf8 "Exits 1 if any violation is found or the run fails.",
  utf8 "",
  utf8 "Usage:",
  utf8 "  check-style-tokens [flags]",
  utf8 "",
  utf8 "Flags:",
  utf8 "      --color string    Color text output: auto, always or never (default \"auto\")",
  utf8 "      --config string   Config file (default: <dir>/.style-tokens.toml if present)",
  utf8 "  -C, --dir string      Work dir to scan (default \".\")",
  utf8 "      --format string   Output format: text, json, sarif or yaml (default \"text\")",
  utf8 "  -h, --help            help for check-style-tokens",
  utf8 "      --list-rules      Print the rule catalog and exit",
  utf8 "  -v, --verbose         Log progress details to stderr"]

def helpText : Bytes := helpLines.flatMap (· ++ [lf])

-- The command as a whole: a wrong command line, help, the catalog or a check. Requests for
-- shell completion are left out: command lines whose first word besides flags, as seen before
-- any flag is read, is `completion`, `__complete` or `__completeNoDesc`.
def run (environment : Environment) (disk : Disk) (arguments : List Bytes) : Outcome :=
  match Options.parse arguments with
  | .error e => ⟨1, [], utf8 "Error: " ++ e.message ++ [lf]⟩
  | .ok o =>
    if o.help then ⟨0, helpText, []⟩
    else if o.listRules then ⟨0, (Report.listRules .unlimited).1, []⟩
    else runCheck environment disk o

end Command

end ThemeLint
