import ThemeLint.Violation
import ThemeLint.Yaml.Scalar

namespace ThemeLint.Report

open Bytes

def yamlText (indent : Nat) (key : String) (text : Bytes) : Bytes :=
  let (value, ended) := Yaml.scalar indent text
  utf8 key ++ utf8 ": " ++ value ++ (if ended then [] else [lf])

def yamlNumber (key : String) (value : Int) : Bytes :=
  utf8 key ++ utf8 ": " ++ ofInt value ++ [lf]

def violationYaml (v : Violation) : Bytes :=
  let first := utf8 "  - "
  let below := utf8 "    "
  first ++ yamlText 6 "path" v.path ++
    below ++ yamlText 6 "rel_path" v.relPath ++
    below ++ yamlNumber "line" v.line ++
    below ++ yamlNumber "column" v.column ++
    below ++ yamlText 6 "rule_id" v.ruleId ++
    below ++ yamlText 6 "match" v.found ++
    below ++ yamlText 6 "message" v.message

def yaml (r : Result) : Bytes :=
  yamlText 2 "root" r.root ++ yamlNumber "files_scanned" r.files.length ++
    yamlNumber "count" r.count ++
    if r.violations.isEmpty then utf8 "violations: []" ++ [lf]
    else utf8 "violations:" ++ [lf] ++ r.violations.flatMap violationYaml

-- The document is written through a buffer, which is emptied before a character
-- once it holds this many bytes.
def yamlBuffer : Nat := 123

-- `held` are the bytes in the buffer, the last first.
def buffered : List Utf8.Piece → Bytes → List Bytes → List Bytes
  | [], held, done => (if held.isEmpty then done else held.reverse :: done).reverse
  | piece :: rest, held, done =>
    if held.length ≥ yamlBuffer then buffered rest piece.text.reverse (held.reverse :: done)
    else buffered rest (piece.text.reverse ++ held) done

def yamlChunks (r : Result) : List Bytes := buffered (Utf8.pieces (yaml r)) [] []

end ThemeLint.Report
