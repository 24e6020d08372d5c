import ThemeLint.Proofs.Report
import ThemeLint.Proofs.Run.Violations

namespace ThemeLint

structure Finding where
  ruleId : Bytes
  message : Bytes
  relPath : Bytes
  line : Int
  column : Int
deriving DecidableEq, Repr

namespace Violation

def finding (v : Violation) : Finding := ⟨v.ruleId, v.message, v.relPath, v.line, v.column⟩

end Violation

namespace Finding

def ofSarif? (result : Json) : Option Finding := do
  let location ← (← result.get? "locations").only?
  some {
    ruleId := ← result.textAt? ["ruleId"]
    message := ← result.textAt? ["message", "text"]
    relPath := ← location.textAt? ["physicalLocation", "artifactLocation", "uri"]
    line := ← location.integerAt? ["physicalLocation", "region", "startLine"]
    column := ← location.integerAt? ["physicalLocation", "region", "startColumn"] }

theorem ofSarif?_sarifResult (v : Violation) :
    ofSarif? (Report.sarifResult v).meaning = some v.repaired.finding := rfl

end Finding

namespace Report

def run? (log : Json) : Option Json := do (← log.get? "runs").only?

def findings? (log : Json) : Option (List Finding) := do
  (← run? log).eachAt? ["results"] Finding.ofSarif?

def ruleIds? (log : Json) : Option (List Bytes) := do
  (← run? log).eachAt? ["tool", "driver", "rules"] (·.textAt? ["id"])

theorem run?_sarif (r : Result) :
    ∃ run, run? (sarif r).meaning = some run ∧
      run.at? ["results"] = some (JsonValue.array (r.violations.map sarifResult)).meaning ∧
      run.at? ["tool", "driver", "rules"] =
        some (JsonValue.array (Rule.catalog.map sarifRule)).meaning :=
  ⟨_, rfl, rfl, rfl⟩

theorem findings?_sarif (r : Result) :
    findings? (sarif r).meaning = some (r.violations.map fun v => v.repaired.finding) := by
  obtain ⟨run, hrun, hresults, -⟩ := run?_sarif r
  rw [findings?, hrun]
  exact JsonValue.eachAt?_array hresults Finding.ofSarif?_sarifResult

theorem ruleIds?_sarif (r : Result) :
    ruleIds? (sarif r).meaning = some (Rule.catalog.map fun rule => Utf8.repair rule.id) := by
  obtain ⟨run, hrun, -, hrules⟩ := run?_sarif r
  rw [ruleIds?, hrun]
  exact JsonValue.eachAt?_array hrules fun _ => rfl

-- Every rule of the catalog stands there under a name of its own.
theorem count_catalog : ∀ rule ∈ Rule.catalog,
    (Rule.catalog.map fun rule => Utf8.repair rule.id).count (Utf8.repair rule.id) = 1 := by decide

end Report

namespace Linter

theorem rule_of_run {accessors : Accessors} {verbose : Bool} {ws : Workspace}
    {patterns : List Bytes} {result : Result}
    (hrun : (run accessors verbose ws patterns).2 = .ok result) {v : Violation}
    (hv : v ∈ result.violations) : ∃ rule ∈ Rule.catalog, v.ruleId = rule.id := by
  obtain ⟨files, -, -, rfl⟩ := run_eq_ok hrun
  obtain ⟨file, -, hv⟩ := List.mem_flatMap.mp hv
  obtain ⟨line, -, rule, hrule, hv⟩ := mem_fileViolations.mp hv
  exact ⟨rule, hrule, (origin_of_mem_evaluate hv).2.2⟩

end Linter

namespace Report

-- The two kinds of JSON tell the same of every violation, in the same order, whatever bytes
-- its texts are made of. Where the result is that of a run, the log names the rule of every
-- finding exactly once.
theorem findings_write_sarif (r : Result) (colored : Bool) :
    ∃ output log output' report violations ids,
      write .unlimited Format.sarif.name colored r = (output, none) ∧ Json.read output = some log ∧
      write .unlimited Format.json.name colored r = (output', none) ∧
      Json.read output' = some report ∧
      violations? report = some violations ∧ violations.length = r.violations.length ∧
      findings? log = some (violations.map Violation.finding) ∧ ruleIds? log = some ids ∧
      ∀ accessors verbose ws patterns, (Linter.run accessors verbose ws patterns).2 = .ok r →
        ∀ finding ∈ violations.map Violation.finding, ids.count finding.ruleId = 1 := by
  refine ⟨(sarif r).document, (sarif r).meaning, (json r).document, (json r).meaning,
    r.violations.map Violation.repaired, Rule.catalog.map fun rule => Utf8.repair rule.id,
    write_document colored rfl, (sarif r).read_document, write_document colored rfl,
    (json r).read_document, violations?_json r, List.length_map _, ?_, ruleIds?_sarif r, ?_⟩
  · rw [findings?_sarif, List.map_map]
    rfl
  · intro accessors verbose ws patterns hrun finding hfinding
    obtain ⟨said, hsaid, rfl⟩ := List.mem_map.mp hfinding
    obtain ⟨v, hv, rfl⟩ := List.mem_map.mp hsaid
    obtain ⟨rule, hrule, hid⟩ := Linter.rule_of_run hrun hv
    have hname : v.repaired.finding.ruleId = Utf8.repair rule.id := congrArg Utf8.repair hid
    rw [hname]
    exact count_catalog rule hrule

theorem findings_write_sarif_sample :
    ∃ output log findings ids,
      write .unlimited Format.sarif.name false Linter.sampleResult = (output, none) ∧
      Json.read output = some log ∧ findings? log = some findings ∧ findings.length = 3 ∧
      ruleIds? log = some ids ∧ ∀ finding ∈ findings, ids.count finding.ruleId = 1 := by
  obtain ⟨output, log, _, _, violations, ids, hwrite, hread, -, -, -, hlength, hfindings, hids, honce⟩ :=
    findings_write_sarif Linter.sampleResult false
  have hthree : Linter.sampleResult.violations.length = 3 := by
    simpa using congrArg List.length Linter.sample_places
  refine ⟨output, log, violations.map Violation.finding, ids, hwrite, hread, hfindings, ?_, hids,
    honce _ _ _ _ Linter.sample_run⟩
  rw [List.length_map, hlength, hthree]

end Report

end ThemeLint
