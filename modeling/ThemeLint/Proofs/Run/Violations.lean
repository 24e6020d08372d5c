import ThemeLint.Files.Sandbox
import ThemeLint.Proofs.Linter
import ThemeLint.Proofs.Run.Outcome
import ThemeLint.Proofs.Workspace

namespace ThemeLint

namespace Rule

def index (id : Bytes) : Nat := catalog.findIdx (·.id == id)

theorem catalog_ascending : catalog.Pairwise fun a b => index a.id < index b.id := by decide

end Rule

namespace Violation

-- The order of a report: by path, then by line, then by rule, then by column.
def Precedes (v w : Violation) : Prop :=
  v.path < w.path ∨ v.path = w.path ∧
    (v.line < w.line ∨ v.line = w.line ∧
      (Rule.index v.ruleId < Rule.index w.ruleId ∨ Rule.index v.ruleId = Rule.index w.ruleId ∧
        v.column < w.column))

def place (v : Violation) : Bytes × Int × Bytes × Int := (v.path, v.line, v.ruleId, v.column)

theorem Precedes.place_ne {v w : Violation} (h : v.Precedes w) : v.place ≠ w.place := by
  intro heq
  obtain ⟨hpath, hline, hrule, hcolumn⟩ : v.path = w.path ∧ v.line = w.line ∧
      v.ruleId = w.ruleId ∧ v.column = w.column := by simpa [place] using heq
  have hirrefl : ¬w.path < w.path := List.lt_irrefl w.path
  simp [Precedes, hpath, hline, hrule, hcolumn, hirrefl] at h

end Violation

namespace Linter

open Bytes Source

theorem mem_fileViolations {accessors : Accessors} {volume : Volume} {file : File}
    {v : Violation} :
    v ∈ fileViolations accessors volume file ↔
      ∃ line ∈ checkedLines volume file, ∃ rule ∈ Rule.catalog,
        v ∈ evaluate accessors rule line := by
  simp only [fileViolations, List.mem_flatMap]

theorem origin_of_mem_evaluate {accessors : Accessors} {rule : Rule} {line : Line} {v : Violation}
    (hv : v ∈ evaluate accessors rule line) :
    v.path = line.path ∧ v.line = line.number ∧ v.ruleId = rule.id := by
  obtain ⟨m, _, _, rfl⟩ := mem_evaluate.mp hv
  exact ⟨rfl, rfl, rfl⟩

theorem path_of_mem_checkedLines {volume : Volume} {file : File} {line : Line}
    (hline : line ∈ checkedLines volume file) : line.path = file.path := by
  obtain ⟨_, _, _, _, _, _, rfl⟩ := mem_checkedLines hline
  rfl

-- What is found on the text of a line stands at the same offset of its segment.
theorem location_of_mem_evaluate {accessors : Accessors} {rule : Rule} {line : Line}
    {v : Violation} {segment : Bytes} (htext : line.text = lineText segment)
    (hv : v ∈ evaluate accessors rule line) :
    1 ≤ v.column ∧ v.found ≠ [] ∧ v.column - 1 + v.found.length ≤ segment.length ∧
      v.found <+: segment.drop (v.column - 1).toNat := by
  obtain ⟨m, hm, _, rfl⟩ := mem_evaluate.mp hv
  have hlies := (htext ▸ finds_liesIn hm).of_isPrefix (lineText_isPrefix segment)
  have hstop := hlies.stop_le
  simp only [violation, Match.stop] at hstop ⊢
  have hstart : ((m.start : Int) + 1 - 1).toNat = m.start := by omega
  rw [hstart]
  exact ⟨by omega, hlies.1, by omega, hlies.2⟩

-- A violation tells where it was found: the file is one of those located, the line
-- counts the segments between line feeds, the column counts bytes, and what was found
-- stands there, on a line that is no comment.
theorem run_violation_location {accessors : Accessors} {verbose : Bool} {ws : Workspace}
    {patterns : List Bytes} {result : Result}
    (hrun : (run accessors verbose ws patterns).2 = .ok result) :
    ∃ files, ws.locate patterns = .ok files ∧ ∀ v ∈ result.violations,
      ∃ file ∈ files, file.path = v.path ∧ file.relPath = v.relPath ∧
        ∃ content segment, ws.volume.read file.relPath = .ok content ∧
          1 ≤ v.line ∧ (partsBy lf content)[(v.line - 1).toNat]? = some segment ∧
          1 ≤ v.column ∧ v.found ≠ [] ∧ v.column - 1 + v.found.length ≤ segment.length ∧
          v.found <+: segment.drop (v.column - 1).toNat ∧
          isComment (segment.rdropWhile (· == cr)) = false ∧
          v.ruleId ∈ Rule.catalog.map (·.id) := by
  obtain ⟨files, hlocate, _, rfl⟩ := run_eq_ok hrun
  refine ⟨files, hlocate, fun v hv => ?_⟩
  obtain ⟨file, hfile, hv⟩ := List.mem_flatMap.mp hv
  obtain ⟨line, hline, rule, hrule, hv⟩ := mem_fileViolations.mp hv
  obtain ⟨content, segment, index, hread, hsegment, hcomment, rfl⟩ := mem_checkedLines hline
  obtain ⟨hcolumn, hfound, hfits, hthere⟩ := location_of_mem_evaluate rfl hv
  obtain ⟨m, _, _, rfl⟩ := mem_evaluate.mp hv
  have hindex : ((index : Int) + 1 - 1).toNat = index := by omega
  refine ⟨file, hfile, rfl, rfl, content, segment, hread, ?_, ?_, hcolumn, hfound, hfits, hthere,
    ?_, List.mem_map_of_mem hrule⟩
  · simp only [violation]
    omega
  · simpa only [violation, hindex] using hsegment
  · rw [← isComment_lineText]
    exact hcomment

-- A work directory of two files. In the first, two references share a line; the second
-- starts with a comment and ends its lines with carriage returns.
def sample : Workspace where
  root := utf8 "/w"
  volume := Sandbox.volume
    { entries := [([], .directory),
        ([utf8 "b"], .file (utf8 "// #abc\r\nx = '#fff'\r\n")),
        ([utf8 "a"], .file (utf8 "y = 'var(--a) var(--b)'"))]
      unlisted := [] }

def samplePatterns : List Bytes := [utf8 "a", utf8 "b", utf8 "a"]

def sampleFiles : List File := [sample.file (utf8 "a"), sample.file (utf8 "b")]

def sampleAccessors : Accessors := ⟨[utf8 "getToken"], by decide, by decide⟩

def sampleResult : Result :=
  ⟨sample.root, sampleFiles.map (·.path),
    sampleFiles.flatMap (fileViolations sampleAccessors sample.volume)⟩

theorem sample_locate : sample.locate samplePatterns = .ok sampleFiles := by
  have hfound : samplePatterns.mapM sample.matching =
      .ok [[sample.file (utf8 "a")], [sample.file (utf8 "b")], [sample.file (utf8 "a")]] := rfl
  have hdistinct : Workspace.distinct
      [sample.file (utf8 "a"), sample.file (utf8 "b"), sample.file (utf8 "a")] = sampleFiles := by
    decide
  have hsorted : sampleFiles.Pairwise fun a b => decide (a.path ≤ b.path) = true := by decide
  simp only [Workspace.locate, hfound, bind, Except.bind, List.flatten_cons, List.flatten_nil,
    List.cons_append, List.nil_append, hdistinct, List.mergeSort_of_pairwise hsorted]

theorem sample_run : (run sampleAccessors true sample samplePatterns).2 = .ok sampleResult :=
  run_of_scanned sample_locate (by decide)

theorem sample_places : sampleResult.violations.map Violation.place =
    [(utf8 "/w/a", 1, utf8 "css-var-in-string", 6), (utf8 "/w/a", 1, utf8 "css-var-in-string", 15),
      (utf8 "/w/b", 2, utf8 "hardcoded-color", 6)] := by decide

theorem run_violation_location_sample :
    ∃ v ∈ sampleResult.violations, v.place = (utf8 "/w/b", 2, utf8 "hardcoded-color", 6) ∧
      ∃ file ∈ sampleFiles, file.path = v.path ∧
        ∃ content segment, sample.volume.read file.relPath = .ok content ∧
          (partsBy lf content)[(v.line - 1).toNat]? = some segment ∧
          v.found <+: segment.drop (v.column - 1).toNat := by
  obtain ⟨files, hlocate, hlocation⟩ := run_violation_location sample_run
  obtain rfl := Except.ok.inj (sample_locate.symm.trans hlocate)
  obtain ⟨v, hv, hplace⟩ : ∃ v ∈ sampleResult.violations,
      v.place = (utf8 "/w/b", 2, utf8 "hardcoded-color", 6) := by
    rw [← List.mem_map, sample_places]
    decide
  obtain ⟨file, hfile, hpath, _, content, segment, hread, _, hsegment, _, _, _, hthere, _⟩ :=
    hlocation v hv
  exact ⟨v, hv, hplace, file, hfile, hpath, content, segment, hread, hsegment, hthere⟩

theorem evaluate_precedes (accessors : Accessors) (rule : Rule) (line : Line) :
    (evaluate accessors rule line).Pairwise Violation.Precedes := by
  refine (evaluate_ascending accessors rule line).imp_of_mem fun {v w} hv hw hcolumn => ?_
  obtain ⟨hpath, hline, hrule⟩ := origin_of_mem_evaluate hv
  obtain ⟨hpath', hline', hrule'⟩ := origin_of_mem_evaluate hw
  refine .inr ⟨hpath.trans hpath'.symm, .inr ⟨hline.trans hline'.symm, .inr ⟨?_, hcolumn⟩⟩⟩
  rw [hrule, hrule']

theorem checkLine_precedes (accessors : Accessors) (line : Line) :
    (checkLine accessors line).Pairwise Violation.Precedes := by
  refine List.pairwise_flatMap.mpr ⟨fun rule _ => evaluate_precedes accessors rule line, ?_⟩
  refine Rule.catalog_ascending.imp fun {first second} hindex v hv w hw => ?_
  obtain ⟨hpath, hline, hrule⟩ := origin_of_mem_evaluate hv
  obtain ⟨hpath', hline', hrule'⟩ := origin_of_mem_evaluate hw
  refine .inr ⟨hpath.trans hpath'.symm, .inr ⟨hline.trans hline'.symm, .inl ?_⟩⟩
  rwa [hrule, hrule']

theorem fileViolations_precedes (accessors : Accessors) (volume : Volume) (file : File) :
    (fileViolations accessors volume file).Pairwise Violation.Precedes := by
  refine List.pairwise_flatMap.mpr ⟨fun line _ => checkLine_precedes accessors line, ?_⟩
  refine (checkedLines_ascending volume file).imp_of_mem
    fun {first second} hfirst hsecond hnumber v hv w hw => ?_
  obtain ⟨_, _, hv⟩ := List.mem_flatMap.mp hv
  obtain ⟨_, _, hw⟩ := List.mem_flatMap.mp hw
  obtain ⟨hpath, hline, _⟩ := origin_of_mem_evaluate hv
  obtain ⟨hpath', hline', _⟩ := origin_of_mem_evaluate hw
  refine .inr ⟨?_, .inl (by omega)⟩
  rw [hpath, hpath', path_of_mem_checkedLines hfirst, path_of_mem_checkedLines hsecond]

theorem path_of_mem_fileViolations {accessors : Accessors} {volume : Volume} {file : File}
    {v : Violation} (hv : v ∈ fileViolations accessors volume file) : v.path = file.path := by
  obtain ⟨line, hline, rule, _, hv⟩ := mem_fileViolations.mp hv
  exact (origin_of_mem_evaluate hv).1.trans (path_of_mem_checkedLines hline)

-- The violations of a pass stand in strictly ascending order, so that no two of them
-- are reported for the same place under the same rule.
theorem run_violations_ascending {accessors : Accessors} {verbose : Bool} {ws : Workspace}
    {patterns : List Bytes} {result : Result}
    (hrun : (run accessors verbose ws patterns).2 = .ok result) :
    result.violations.Pairwise Violation.Precedes ∧
      (result.violations.map Violation.place).Nodup := by
  have hpairwise : result.violations.Pairwise Violation.Precedes := by
    obtain ⟨files, hlocate, _, rfl⟩ := run_eq_ok hrun
    refine List.pairwise_flatMap.mpr
      ⟨fun file _ => fileViolations_precedes accessors ws.volume file, ?_⟩
    refine (Workspace.locate_ascending hlocate).imp fun {first second} hlt v hv w hw => .inl ?_
    rwa [path_of_mem_fileViolations hv, path_of_mem_fileViolations hw]
  exact ⟨hpairwise, List.pairwise_map.mpr (hpairwise.imp Violation.Precedes.place_ne)⟩

theorem run_violations_ascending_sample :
    sampleResult.violations.length = 3 ∧ sampleResult.violations.Pairwise Violation.Precedes :=
  ⟨by simpa using congrArg List.length sample_places, (run_violations_ascending sample_run).1⟩

end Linter

end ThemeLint
