import ThemeLint.Proofs.Json.Document
import ThemeLint.Report

namespace ThemeLint

open Bytes

namespace Violation

def texts (v : Violation) : List Bytes := [v.path, v.relPath, v.ruleId, v.found, v.message]

def repaired (v : Violation) : Violation where
  path := Utf8.repair v.path
  relPath := Utf8.repair v.relPath
  line := v.line
  column := v.column
  ruleId := Utf8.repair v.ruleId
  found := Utf8.repair v.found
  message := Utf8.repair v.message

theorem repaired_of_valid {v : Violation} (h : ∀ text ∈ v.texts, Utf8.valid text = true) :
    v.repaired = v := by
  have hrepair : ∀ text ∈ v.texts, Utf8.repair text = text :=
    fun text htext => Utf8.repair_of_valid (h text htext)
  simp only [texts, List.forall_mem_cons] at hrepair
  obtain ⟨hpath, hrelPath, hruleId, hfound, hmessage, -⟩ := hrepair
  simp only [repaired, hpath, hrelPath, hruleId, hfound, hmessage]

-- The violation that an object stands for. All seven fields have to be there.
def ofJson? (value : Json) : Option Violation := do
  some {
    path := ← value.textAt? ["path"]
    relPath := ← value.textAt? ["rel_path"]
    line := ← value.integerAt? ["line"]
    column := ← value.integerAt? ["column"]
    ruleId := ← value.textAt? ["rule_id"]
    found := ← value.textAt? ["match"]
    message := ← value.textAt? ["message"] }

theorem ofJson?_violationJson (v : Violation) :
    ofJson? (Report.violationJson v).meaning = some v.repaired := rfl

end Violation

namespace Result

def texts (r : Result) : List Bytes := r.root :: r.violations.flatMap Violation.texts

end Result

namespace Report

-- A report that may be written without end never fails.
theorem write_unlimited (format : Format) (colored : Bool) (r : Result) :
    write .unlimited format.name colored r = ((chunks format colored r).flatten, none) := by
  cases format <;> rfl

theorem textChunks_eq (colored : Bool) (r : Result) :
    textChunks colored r = if r.violations = [] then [] else
      r.violations.map (violationLine (Styles.of colored)) ++ [summaryLine (Styles.of colored) r] := by
  cases hviolations : r.violations <;> simp [textChunks, Result.hasViolations, hviolations]

theorem write_document {format : Format} {r : Result} {value : JsonValue} (colored : Bool)
    (h : chunks format colored r = [value.document]) :
    write .unlimited format.name colored r = (value.document, none) := by
  rw [write_unlimited, h]
  simp

def violations? (report : Json) : Option (List Violation) :=
  report.eachAt? ["violations"] Violation.ofJson?

theorem violations?_json (r : Result) :
    violations? (json r).meaning = some (r.violations.map Violation.repaired) :=
  JsonValue.eachAt?_array rfl Violation.ofJson?_violationJson

-- A report in JSON is one object with a line feed behind it. It says the whole result, if
-- the texts of the result are made of characters.
theorem read_write_json {r : Result} (colored : Bool)
    (h : ∀ text ∈ r.texts, Utf8.valid text = true) :
    ∃ body report, write .unlimited Format.json.name colored r = (body ++ [lf], none) ∧
      body.getLast? = some 0x7D ∧
      Json.read body = some report ∧ Json.read (body ++ [lf]) = some report ∧
      report.textAt? ["root"] = some r.root ∧
      report.integerAt? ["files_scanned"] = some r.files.length ∧
      report.integerAt? ["count"] = some r.violations.length ∧
      violations? report = some r.violations := by
  simp only [Result.texts, List.forall_mem_cons, List.forall_mem_flatMap] at h
  obtain ⟨hroot, hviolations⟩ := h
  refine ⟨(json r).render 0, (json r).meaning, write_document colored rfl, ?_, (json r).read_render,
    (json r).read_document, ?_, rfl, rfl, ?_⟩
  · rw [json, JsonValue.render_object, JsonValue.getLast?_bracket]
  · have htext : (json r).meaning.textAt? ["root"] = some (Utf8.repair r.root) := rfl
    rw [htext, Utf8.repair_of_valid hroot]
  · have hsame : r.violations.map Violation.repaired = r.violations.map id :=
      List.map_congr_left fun v hv => Violation.repaired_of_valid (hviolations v hv)
    rw [violations?_json, hsame, List.map_id]

-- A message of everything that is escaped, and of characters that are not.
def escapedSample : Result where
  root := utf8 "/w"
  files := [utf8 "/w/a.js"]
  violations := [{
    path := utf8 "/w/a.js"
    relPath := utf8 "a.js"
    line := 3
    column := 7
    ruleId := utf8 "hardcoded-color"
    found := utf8 "#fff"
    message := utf8 "'\"\\\n\r\t\x01<&>\u2028\u2029\u00e9" }]

theorem read_write_json_escaped :
    (∀ text ∈ escapedSample.texts, Utf8.valid text = true) ∧
      ∃ body report, write .unlimited Format.json.name false escapedSample = (body ++ [lf], none) ∧
        Json.read body = some report ∧ report.integerAt? ["count"] = some 1 ∧
        violations? report = some escapedSample.violations := by
  have hvalid : ∀ text ∈ escapedSample.texts, Utf8.valid text = true := by decide
  obtain ⟨body, report, hwrite, -, hbody, -, -, -, hcount, hviolations⟩ := read_write_json false hvalid
  exact ⟨hvalid, body, report, hwrite, hbody, hcount, hviolations⟩

end Report

end ThemeLint
