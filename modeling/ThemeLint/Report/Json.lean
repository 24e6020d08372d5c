import ThemeLint.Report.JsonValue
import ThemeLint.Violation

namespace ThemeLint.Report

open Bytes

def violationJson (v : Violation) : JsonValue :=
  .object [
    (utf8 "path", .string v.path),
    (utf8 "rel_path", .string v.relPath),
    (utf8 "line", .number v.line),
    (utf8 "column", .number v.column),
    (utf8 "rule_id", .string v.ruleId),
    (utf8 "match", .string v.found),
    (utf8 "message", .string v.message)]

def json (r : Result) : JsonValue :=
  .object [
    (utf8 "root", .string r.root),
    (utf8 "files_scanned", .number r.files.length),
    (utf8 "count", .number r.count),
    (utf8 "violations", .array (r.violations.map violationJson))]

end ThemeLint.Report
