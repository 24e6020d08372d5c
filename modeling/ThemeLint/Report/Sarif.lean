import ThemeLint.Report.JsonValue
import ThemeLint.Rule
import ThemeLint.Violation

namespace ThemeLint.Report

open Bytes

def toolName : Bytes := utf8 "check-style-tokens"

def sarifSchema : Bytes :=
  utf8 "https://raw.githubusercontent.com/oasis-tcs/sarif-spec/master/Schemata/sarif-schema-2.1.0.json"

def sarifText (text : Bytes) : JsonValue := .object [(utf8 "text", .string text)]

def sarifRule (rule : Rule) : JsonValue :=
  .object [
    (utf8 "id", .string rule.id),
    (utf8 "shortDescription", sarifText rule.description)]

def sarifLocation (v : Violation) : JsonValue :=
  .object [(utf8 "physicalLocation", .object [
    (utf8 "artifactLocation", .object [(utf8 "uri", .string v.relPath)]),
    (utf8 "region", .object [
      (utf8 "startLine", .number v.line),
      (utf8 "startColumn", .number v.column)])])]

def sarifResult (v : Violation) : JsonValue :=
  .object [
    (utf8 "ruleId", .string v.ruleId),
    (utf8 "level", .string (utf8 "error")),
    (utf8 "message", sarifText v.message),
    (utf8 "locations", .array [sarifLocation v])]

def sarif (r : Result) : JsonValue :=
  .object [
    (utf8 "version", .string (utf8 "2.1.0")),
    (utf8 "$schema", .string sarifSchema),
    (utf8 "runs", .array [.object [
      (utf8 "tool", .object [(utf8 "driver", .object [
        (utf8 "name", .string toolName),
        (utf8 "rules", .array (Rule.catalog.map sarifRule))])]),
      (utf8 "results", .array (r.violations.map sarifResult))]])]

end ThemeLint.Report
