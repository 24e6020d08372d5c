import ThemeLint.Command
import ThemeLint.Proofs.Config
import ThemeLint.Proofs.Log
import ThemeLint.Proofs.Report
import ThemeLint.Proofs.Run.Outcome

namespace ThemeLint

open Bytes Source

namespace Command

variable {traversal : Toml.Traversal} {disk : Disk} {o : Options} {ws : Workspace} {config : Config}
  {result : Result} {cause : CheckError} {verbose : Bool}

-- The work directory opens, and the configuration in force there is valid: that of the
-- file, with the options in place of its own settings. A file that has no valid
-- configuration is refused first, also where options would take its place.
structure IsReady (traversal : Toml.Traversal) (disk : Disk) (o : Options) (ws : Workspace)
    (config : Config) : Prop where
  opens : Workspace.openAt disk o.dir = .ok ws
  loads : ∃ loaded, Config.load disk ws.root o.config traversal = .ok loaded ∧
    config = loaded.withOptions o
  valid : config.validate = .ok ()

def Completes (traversal : Toml.Traversal) (disk : Disk) (o : Options) (config : Config)
    (result : Result) : Prop :=
  ∃ ws files, ∃ accessors : Accessors, IsReady traversal disk o ws config ∧
    ws.locate Workspace.patterns = .ok files ∧
    (∀ file ∈ files, scanFailure? ws.volume file = none) ∧
    accessors.names = Accessors.builtin ++ config.accessors ∧
    result = ⟨ws.root, files.map (·.path),
      files.flatMap (Linter.fileViolations accessors ws.volume)⟩

theorem pass_eq {accessors : Accessors}
    (hnames : accessors.names = Accessors.builtin ++ config.accessors) :
    (pass verbose ws config).2 =
      (Linter.run accessors verbose ws Workspace.patterns).2.mapError .run := by
  simp only [pass, ← hnames, Accessors.ofNames_names]
  rcases Linter.run accessors verbose ws Workspace.patterns with ⟨entries, cause | result⟩
  · rfl
  · rfl

theorem loadedEntries_notes (config : Config) : ∀ entry ∈ loadedEntries config, entry.IsNote := by
  unfold loadedEntries
  split
  · simp
  · exact List.forall_mem_singleton.mpr ⟨rfl, (by decide : lf ∉ utf8 "loaded config")⟩

theorem finishedEntry_isNote (r : Result) : (finishedEntry r).IsNote :=
  ⟨rfl, (by decide : lf ∉ utf8 "lint finished")⟩

theorem pass_notes (verbose : Bool) (ws : Workspace) (config : Config) :
    ∀ entry ∈ (pass verbose ws config).1, entry.IsNote := by
  have hloaded := loadedEntries_notes config
  unfold pass
  split
  · exact hloaded
  · rename_i accessors _
    have hrun := Linter.run_notes accessors verbose ws Workspace.patterns
    generalize Linter.run accessors verbose ws Workspace.patterns = outcome at hrun ⊢
    rcases outcome with ⟨entries, cause | result⟩
    · exact List.forall_mem_append.mpr ⟨hloaded, hrun⟩
    · refine List.forall_mem_append.mpr ⟨List.forall_mem_append.mpr ⟨hloaded, hrun⟩, ?_⟩
      exact List.forall_mem_singleton.mpr (finishedEntry_isNote result)

theorem check_of_ready (h : IsReady traversal disk o ws config) :
    check traversal disk o = ((pass o.verbose ws config).1,
      (pass o.verbose ws config).2.map fun result => (config, result)) := by
  obtain ⟨hopens, ⟨loaded, hloads, rfl⟩, hvalid⟩ := h
  simp only [check, Config.forCheck, hopens, hloads, hvalid]

theorem check_notes (traversal : Toml.Traversal) (disk : Disk) (o : Options) :
    ∀ entry ∈ (check traversal disk o).1, entry.IsNote := by
  unfold check
  split
  · simp
  split
  · simp
  · exact pass_notes _ _ _

theorem check_of_completes (h : Completes traversal disk o config result) :
    (check traversal disk o).2 = .ok (config, result) := by
  obtain ⟨ws, files, accessors, hready, hlocate, hscanned, hnames, rfl⟩ := h
  rw [check_of_ready hready, pass_eq hnames, Linter.run_of_scanned hlocate hscanned]
  rfl

theorem Completes.exists_format (h : Completes traversal disk o config result) :
    ∃ format, config.format = Format.name format := by
  obtain ⟨_, _, _, hready, -⟩ := h
  exact (Config.validate_eq_ok_iff.mp hready.valid).1

-- Without a request for details nothing is logged on the way.
theorem log_quiet (time : Bytes) (traversal : Toml.Traversal) (disk : Disk) (o : Options) :
    Log.render false time (check traversal disk o).1 = [] :=
  Log.render_quiet (check_notes traversal disk o)

-- What is left of a check that completes: its report, on the stream of its format.
theorem runCheck_of_completes (environment : Environment) (hverbose : o.verbose = false)
    (h : Completes environment.traversal disk o config result) {format : Format}
    (hformat : config.format = format.name) :
    runCheck environment disk o =
      let report := (Report.chunks format (ColorMode.isColored config.color environment.noColor
        environment.isTerminal) result).flatten
      if format = .text then ⟨result.exitCode, [], report⟩ else ⟨result.exitCode, report, []⟩ := by
  have hcheck := check_of_completes h
  have htext : format.name = Format.text.name ↔ format = .text := by cases format <;> decide
  simp only [runCheck, hcheck, hverbose, log_quiet, publish, hformat, Report.write_unlimited, htext,
    List.nil_append]
  by_cases hname : format = .text
  · simp only [hname, if_true]
  · simp only [hname, if_false]

theorem exitCode_of_completes (environment : Environment) (hverbose : o.verbose = false)
    (h : Completes environment.traversal disk o config result) :
    (runCheck environment disk o).exitCode = if result.violations = [] then 0 else 1 := by
  obtain ⟨format, hformat⟩ := h.exists_format
  have hcode : result.exitCode = if result.violations = [] then 0 else 1 := by
    cases hviolations : result.violations <;>
      simp [Result.exitCode, Result.hasViolations, hviolations]
  rw [runCheck_of_completes environment hverbose h hformat, ← hcode]
  dsimp only
  split <;> rfl

def sampleDisk : Disk where
  tree :=
    { entries := [([], .directory), ([utf8 "topics"], .directory),
        ([utf8 "topics", utf8 "a"], .directory),
        ([utf8 "topics", utf8 "a", utf8 "interactive."], .file (utf8 "x = '#fff'"))]
      unlisted := [] }
  current := []

def sampleEnvironment : Environment := ⟨[], false, utf8 "12:00:00.000", .written⟩

def sampleConfig : Config := { Config.default with format := Format.json.name }

def sampleOptions : Options := { Options.default with format? := some Format.json.name }

theorem sampleDisk_locate :
    (Workspace.mk (utf8 "/") (sampleDisk.volume (utf8 "/"))).locate Workspace.patterns =
      .ok [⟨utf8 "/topics/a/interactive.", utf8 "topics/a/interactive."⟩] := by
  decide +kernel

theorem sampleDisk_completes :
    ∃ result, Completes .written sampleDisk sampleOptions sampleConfig result ∧
      result.violations.length = 1 := by
  have hready : IsReady .written sampleDisk sampleOptions ⟨utf8 "/", sampleDisk.volume (utf8 "/")⟩
      sampleConfig := ⟨rfl, ⟨Config.default, rfl, rfl⟩, rfl⟩
  refine ⟨_, ⟨_, _, ⟨Accessors.builtin, by decide, by decide⟩, hready, sampleDisk_locate, ?_, rfl,
    rfl⟩, ?_⟩
  · decide
  · decide

end Command

end ThemeLint
