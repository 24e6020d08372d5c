import ThemeLint.Report.Json
import ThemeLint.Report.Sarif
import ThemeLint.Report.Text
import ThemeLint.Report.Yaml

namespace ThemeLint

open Bytes

inductive Format where
  | text
  | json
  | sarif
  | yaml
deriving DecidableEq, Repr

namespace Format

def name : Format → Bytes
  | text => utf8 "text"
  | json => utf8 "json"
  | sarif => utf8 "sarif"
  | yaml => utf8 "yaml"

def all : List Format := [text, json, sarif, yaml]

def ofName? (name : Bytes) : Option Format := all.find? (·.name == name)

end Format

-- Where a report is written to. A sink accepts a number of writes and refuses
-- all others for a reason of its own; without a number it accepts every one.
structure Sink where
  accepts : Option Nat
  refusal : Bytes

namespace Sink

def unlimited : Sink := ⟨none, []⟩

def write (sink : Sink) (chunks : List Bytes) : Bytes × Bool :=
  match sink.accepts with
  | none => (chunks.flatten, true)
  | some n => ((chunks.take n).flatten, chunks.length ≤ n)

end Sink

inductive ReportError where
  | unsupported (format : Bytes)
  | unwritten (format : Format) (cause : Bytes)
  | unlisted (cause : Bytes)
deriving DecidableEq, Repr

namespace ReportError

def message : ReportError → Bytes
  | unsupported format => utf8 "unsupported format: " ++ format
  | unwritten .text cause => utf8 "failed to write text output: " ++ cause
  | unwritten .json cause => utf8 "failed to encode JSON output: " ++ cause
  | unwritten .sarif cause => utf8 "failed to encode SARIF output: " ++ cause
  | unwritten .yaml cause => utf8 "failed to encode YAML output: yaml: write error: " ++ cause
  | unlisted cause => utf8 "failed to write rule list: " ++ cause

end ReportError

namespace Report

def chunks (format : Format) (colored : Bool) (r : Result) : List Bytes :=
  match format with
  | .text => textChunks colored r
  | .json => [(json r).document]
  | .sarif => [(sarif r).document]
  | .yaml => yamlChunks r

def writeAs (sink : Sink) (format : Format) (colored : Bool) (r : Result) :
    Bytes × Option ReportError :=
  let (written, complete) := sink.write (chunks format colored r)
  (written, if complete then none else some (.unwritten format sink.refusal))

-- The format of a name; the empty name stands for text.
def formatOf (name : Bytes) : Except ReportError Format :=
  if name.isEmpty then .ok .text
  else match Format.ofName? name with
    | some format => .ok format
    | none => .error (.unsupported name)

def write (sink : Sink) (format : Bytes) (colored : Bool) (r : Result) :
    Bytes × Option ReportError :=
  match formatOf format with
  | .error e => ([], some e)
  | .ok format => writeAs sink format colored r

def column (width : Nat) (text : Bytes) : Bytes :=
  text ++ List.replicate (width - text.length) space

def ruleLine (rule : Rule) : Bytes :=
  column 18 rule.id ++ [space] ++ column 23 rule.policy.name ++ [space] ++ rule.description ++ [lf]

def listRules (sink : Sink) : Bytes × Option ReportError :=
  let (written, complete) := sink.write (Rule.catalog.map ruleLine)
  (written, if complete then none else some (.unlisted sink.refusal))

end Report

end ThemeLint
