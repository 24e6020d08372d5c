import ThemeLint.Proofs.Command

namespace ThemeLint

open Bytes Source

def Outcome.after (log : Bytes) (outcome : Outcome) : Outcome :=
  { outcome with stderr := log ++ outcome.stderr }

-- Counting the lines of a file for a note never changes what a pass comes to.
theorem Linter.run_verbosity (accessors : Accessors) (verbose other : Bool) (ws : Workspace)
    (patterns : List Bytes) :
    (run accessors verbose ws patterns).2 = (run accessors other ws patterns).2 := by
  cases hlocate : ws.locate patterns with
  | error cause => rw [run_of_unlocated hlocate, run_of_unlocated hlocate]
  | ok files =>
      rcases firstFailure_or ws.volume files with hscanned | ⟨cause, hfailed⟩
      · rw [run_of_scanned hlocate hscanned, run_of_scanned hlocate hscanned]
      · rw [run_of_failed hlocate hfailed, run_of_failed hlocate hfailed]

namespace Command

theorem pass_verbosity (verbose other : Bool) (ws : Workspace) (config : Config) :
    (pass verbose ws config).2 = (pass other ws config).2 := by
  cases haccessors : Accessors.ofNames (Accessors.builtin ++ config.accessors) with
  | error cause => simp only [pass, haccessors]
  | ok accessors =>
      have hnames := Accessors.names_of_ofNames haccessors
      rw [pass_eq hnames, pass_eq hnames, Linter.run_verbosity accessors verbose other]

theorem check_verbosity (traversal : Toml.Traversal) (disk : Disk) (o : Options) (verbose : Bool) :
    (check traversal disk { o with verbose }).2 = (check traversal disk o).2 := by
  have hconfig : ∀ workDir, Config.forCheck traversal disk workDir { o with verbose } =
      Config.forCheck traversal disk workDir o := fun _ => rfl
  cases hopens : Workspace.openAt disk o.dir with
  | error cause => simp only [check, hopens]
  | ok ws =>
      cases hready : Config.forCheck traversal disk ws.root o with
      | error cause => simp only [check, hopens, hconfig, hready]
      | ok config =>
          simp only [check, hopens, hconfig, hready, pass_verbosity verbose o.verbose ws config]

def settle (environment : Environment) : Except CheckError (Config × Result) → Outcome
  | .error e => ⟨1, [], e.entry.render environment.time⟩
  | .ok (config, result) =>
    match publish environment [] config result with
    | .ok outcome => outcome
    | .error e => ⟨1, [], e.entry.render environment.time⟩

theorem publish_log (environment : Environment) (log : Bytes) (config : Config) (result : Result) :
    publish environment log config result =
      (publish environment [] config result).map (Outcome.after log) := by
  unfold publish
  dsimp only
  split
  · rfl
  · split
    · simp [Except.map, Outcome.after]
    · simp [Except.map, Outcome.after]

-- A failure is written whether or not details are asked for.
theorem render_failure (verbose : Bool) (time : Bytes) (entries : List Log.Entry) (e : CheckError) :
    Log.render verbose time (entries ++ [e.entry]) =
      Log.render verbose time entries ++ e.entry.render time := by
  rw [Log.render_append]
  simp [Log.render, CheckError.entry, Log.Level.isWritten]

-- The log of a check stands in front of all else it writes to the messages, and nothing
-- else depends on it.
theorem runCheck_eq (environment : Environment) (disk : Disk) (o : Options) :
    runCheck environment disk o = (settle environment (check environment.traversal disk o).2).after
      (Log.render o.verbose environment.time (check environment.traversal disk o).1) := by
  unfold runCheck
  rcases check environment.traversal disk o with ⟨entries, cause | ⟨config, result⟩⟩
  · simp only [settle, render_failure, Outcome.after]
  · simp only [settle, publish_log environment (Log.render o.verbose environment.time entries)]
    cases publish environment [] config result with
    | ok outcome => rfl
    | error e => simp only [Except.map, render_failure, Outcome.after]

theorem runCheck_verbose (environment : Environment) (disk : Disk) (o : Options) :
    runCheck environment disk { o with verbose := true } =
      (runCheck environment disk { o with verbose := false }).after
        ((check environment.traversal disk { o with verbose := true }).1.flatMap (Log.Entry.render environment.time)) := by
  have hquiet : runCheck environment disk { o with verbose := false } =
      settle environment (check environment.traversal disk o).2 := by
    rw [runCheck_eq, log_quiet, check_verbosity]
    rfl
  rw [runCheck_eq, check_verbosity, Log.render_verbose, hquiet]

-- A request for details changes neither the exit code nor the output. It only puts notes
-- in front of the messages, each of them one whole line. A pass that succeeds without the
-- request succeeds with it, and with the same result.
theorem run_verbose (environment : Environment) (disk : Disk) {quiet verbose : List Bytes}
    {o : Options} (hquiet : Options.parse quiet = .ok { o with verbose := false })
    (hverbose : Options.parse verbose = .ok { o with verbose := true }) :
    (run environment disk verbose).exitCode = (run environment disk quiet).exitCode ∧
    (run environment disk verbose).stdout = (run environment disk quiet).stdout ∧
    (∃ notes : List Log.Entry,
      (run environment disk verbose).stderr =
        notes.flatMap (Log.Entry.render environment.time) ++ (run environment disk quiet).stderr ∧
      ∀ note ∈ notes, note.level = .debug ∧ ∃ text, lf ∉ text ∧
        note.render environment.time = environment.time ++ utf8 " | DEBUG | " ++ text ++ [lf]) ∧
    ∀ accessors ws patterns,
      (Linter.run accessors true ws patterns).2 = (Linter.run accessors false ws patterns).2 := by
  have hrun : ∃ notes : List Log.Entry, (∀ note ∈ notes, note.IsNote) ∧
      run environment disk verbose =
        (run environment disk quiet).after (notes.flatMap (Log.Entry.render environment.time)) := by
    simp only [run, hquiet, hverbose]
    split
    · exact ⟨[], by simp, rfl⟩
    split
    · exact ⟨[], by simp, rfl⟩
    · exact ⟨_, check_notes _ disk _, runCheck_verbose environment disk o⟩
  obtain ⟨notes, hnotes, hrun⟩ := hrun
  refine ⟨by rw [hrun]; rfl, by rw [hrun]; rfl, ⟨notes, by rw [hrun]; rfl, fun note hnote => ?_⟩,
    fun accessors ws patterns => Linter.run_verbosity accessors true false ws patterns⟩
  exact ⟨(hnotes note hnote).level, (hnotes note hnote).render_eq environment.time⟩

-- A check that finds something, with and without a request for details.
theorem run_verbose_sample :
    (run sampleEnvironment sampleDisk [utf8 "-v", utf8 "--format=json"]).exitCode = 1 ∧
    (run sampleEnvironment sampleDisk [utf8 "-v", utf8 "--format=json"]).stdout =
      (run sampleEnvironment sampleDisk [utf8 "--format=json"]).stdout ∧
    ∃ notes : List Log.Entry,
      (run sampleEnvironment sampleDisk [utf8 "-v", utf8 "--format=json"]).stderr =
        notes.flatMap (Log.Entry.render sampleEnvironment.time) ++
          (run sampleEnvironment sampleDisk [utf8 "--format=json"]).stderr := by
  have hparse : Options.parse [utf8 "--format=json"] = .ok sampleOptions := rfl
  obtain ⟨hcode, hstdout, ⟨notes, hstderr, -⟩, -⟩ := run_verbose sampleEnvironment sampleDisk hparse
    (by rfl : Options.parse [utf8 "-v", utf8 "--format=json"] =
      .ok { sampleOptions with verbose := true })
  obtain ⟨result, hcompletes, hviolations⟩ := sampleDisk_completes
  have hfound : result.violations ≠ [] := fun hnil => by simp [hnil] at hviolations
  have hquiet : (run sampleEnvironment sampleDisk [utf8 "--format=json"]).exitCode = 1 :=
    (exitCode_of_completes sampleEnvironment rfl hcompletes).trans (if_neg hfound)
  exact ⟨hcode.trans hquiet, hstdout, notes, hstderr⟩

end Command

end ThemeLint
