import ThemeLint.Proofs.Log
import ThemeLint.Proofs.Source.Scan
import ThemeLint.Run

namespace ThemeLint.Linter

open Source

-- What a pass reports of one file: the violations of each rule on each line to check.
def fileViolations (accessors : Accessors) (volume : Volume) (file : File) : List Violation :=
  (checkedLines volume file).flatMap fun line =>
    Rule.catalog.flatMap fun rule => evaluate accessors rule line

-- The failure of a file that cannot be scanned, while all files before it can.
def FirstFailure (volume : Volume) (files : List File) (cause : SourceError) : Prop :=
  ∃ before file after, files = before ++ file :: after ∧
    (∀ earlier ∈ before, scanFailure? volume earlier = none) ∧
    scanFailure? volume file = some (.failed cause)

theorem firstFailure_or (volume : Volume) (files : List File) :
    (∀ file ∈ files, scanFailure? volume file = none) ∨
      ∃ cause, FirstFailure volume files cause := by
  induction files with
  | nil => exact .inl (by simp)
  | cons file rest ih =>
      rcases scanFailure?_cases volume file with hfile | ⟨cause, hfile⟩
      · rcases ih with hrest | ⟨cause, before, failing, after, rfl, hbefore, hfailing⟩
        · exact .inl (List.forall_mem_cons.mpr ⟨hfile, hrest⟩)
        · exact .inr ⟨cause, file :: before, failing, after, rfl,
            List.forall_mem_cons.mpr ⟨hfile, hbefore⟩, hfailing⟩
      · exact .inr ⟨cause, [], file, rest, rfl, by simp, hfile⟩

theorem foldl_gather (accessors : Accessors) (lines : List Line) (found : List Violation) :
    lines.foldl (fun found line => (checkLine accessors line).reverse ++ found) found =
      (lines.flatMap (checkLine accessors)).reverse ++ found := by
  induction lines generalizing found with
  | nil => rfl
  | cons line rest ih =>
      rw [List.foldl_cons, ih]
      simp

theorem gather_accepts (accessors : Accessors) :
    Accepts (gather accessors) fun line found => (checkLine accessors line).reverse ++ found :=
  fun _ _ => rfl

theorem checkFile_of_scanned {accessors : Accessors} {volume : Volume} {file : File}
    (h : scanFailure? volume file = none) :
    checkFile accessors volume file = .ok (fileViolations accessors volume file) := by
  have hsnd := (scan_snd (gather_accepts accessors) volume file []).trans h
  have hfst := (scan_fst (gather_accepts accessors) [] h).trans (foldl_gather accessors _ [])
  have hscan : scan volume file (gather accessors) [] =
      ((fileViolations accessors volume file).reverse ++ [], none) := Prod.ext hfst hsnd
  simp only [checkFile, hscan, List.append_nil, List.reverse_reverse]

theorem checkFile_of_failed {accessors : Accessors} {volume : Volume} {file : File}
    {cause : SourceError} (h : scanFailure? volume file = some (.failed cause)) :
    checkFile accessors volume file = .error cause := by
  have hsnd := (scan_snd (gather_accepts accessors) volume file []).trans h
  have hscan : scan volume file (gather accessors) [] =
      ((scan volume file (gather accessors) []).1, some (.failed cause)) := Prod.ext rfl hsnd
  rw [checkFile, hscan]

-- The count that a note asks for never ends a pass: the file was scanned before it.
theorem noteFile_of_scanned {volume : Volume} {file : File} (verbose : Bool)
    (violations : List Violation) (h : scanFailure? volume file = none) :
    ∃ note, noteFile verbose volume file violations = .ok note := by
  cases verbose with
  | false => exact ⟨[], rfl⟩
  | true =>
      have hcount : countLines volume file = ((countLines volume file).1, none) :=
        Prod.ext rfl (countLines_snd h)
      refine ⟨[scannedEntry file (countLines volume file).1 violations], ?_⟩
      rw [noteFile, if_pos rfl, hcount]

theorem checkFiles_cons_of_scanned {accessors : Accessors} {verbose : Bool} {volume : Volume}
    {file : File} (rest : List File) (h : scanFailure? volume file = none) :
    (checkFiles accessors verbose volume (file :: rest)).2 =
      (checkFiles accessors verbose volume rest).2.map
        (fileViolations accessors volume file ++ ·) := by
  obtain ⟨note, hnote⟩ := noteFile_of_scanned verbose (fileViolations accessors volume file) h
  simp only [checkFiles, checkFile_of_scanned h, hnote]

theorem checkFiles_of_scanned {accessors : Accessors} {verbose : Bool} {volume : Volume}
    {files : List File} (h : ∀ file ∈ files, scanFailure? volume file = none) :
    (checkFiles accessors verbose volume files).2 =
      .ok (files.flatMap (fileViolations accessors volume)) := by
  induction files with
  | nil => rfl
  | cons file rest ih =>
      obtain ⟨hfile, hrest⟩ := List.forall_mem_cons.mp h
      rw [checkFiles_cons_of_scanned rest hfile, ih hrest]
      rfl

theorem checkFiles_of_failed {accessors : Accessors} {verbose : Bool} {volume : Volume}
    {files : List File} {cause : SourceError} (h : FirstFailure volume files cause) :
    (checkFiles accessors verbose volume files).2 = .error cause := by
  obtain ⟨before, file, after, rfl, hbefore, hfile⟩ := h
  induction before with
  | nil => simp only [List.nil_append, checkFiles, checkFile_of_failed hfile]
  | cons earlier before ih =>
      obtain ⟨hearlier, hrest⟩ := List.forall_mem_cons.mp hbefore
      rw [List.cons_append, checkFiles_cons_of_scanned _ hearlier, ih hrest]
      rfl

theorem run_of_scanned {accessors : Accessors} {verbose : Bool} {ws : Workspace}
    {patterns : List Bytes} {files : List File} (hlocate : ws.locate patterns = .ok files)
    (h : ∀ file ∈ files, scanFailure? ws.volume file = none) :
    (run accessors verbose ws patterns).2 =
      .ok ⟨ws.root, files.map (·.path), files.flatMap (fileViolations accessors ws.volume)⟩ := by
  simp only [run, hlocate, checkFiles_of_scanned h]

theorem run_of_failed {accessors : Accessors} {verbose : Bool} {ws : Workspace}
    {patterns : List Bytes} {files : List File} {cause : SourceError}
    (hlocate : ws.locate patterns = .ok files) (h : FirstFailure ws.volume files cause) :
    (run accessors verbose ws patterns).2 = .error (.source cause) := by
  simp only [run, hlocate, checkFiles_of_failed h]

theorem run_of_unlocated {accessors : Accessors} {verbose : Bool} {ws : Workspace}
    {patterns : List Bytes} {cause : LocateError} (hlocate : ws.locate patterns = .error cause) :
    (run accessors verbose ws patterns).2 = .error (.locate cause) := by
  simp only [run, hlocate]

theorem run_eq_ok {accessors : Accessors} {verbose : Bool} {ws : Workspace}
    {patterns : List Bytes} {result : Result}
    (h : (run accessors verbose ws patterns).2 = .ok result) :
    ∃ files, ws.locate patterns = .ok files ∧
      (∀ file ∈ files, scanFailure? ws.volume file = none) ∧
      result =
        ⟨ws.root, files.map (·.path), files.flatMap (fileViolations accessors ws.volume)⟩ := by
  cases hlocate : ws.locate patterns with
  | error cause => simp [run_of_unlocated hlocate] at h
  | ok files =>
      rcases firstFailure_or ws.volume files with hscanned | ⟨cause, hfailed⟩
      · rw [run_of_scanned hlocate hscanned] at h
        exact ⟨files, rfl, hscanned, (Except.ok.inj h).symm⟩
      · simp [run_of_failed hlocate hfailed] at h

theorem scannedEntry_isNote (file : File) (lines : Nat) (violations : List Violation) :
    (scannedEntry file lines violations).IsNote :=
  ⟨rfl, (by decide : Bytes.lf ∉ utf8 "scanned file")⟩

theorem locatedEntry_isNote (root : Bytes) (files : List File) : (locatedEntry root files).IsNote :=
  ⟨rfl, (by decide : Bytes.lf ∉ utf8 "located files")⟩

theorem noteFile_notes {verbose : Bool} {volume : Volume} {file : File}
    {violations : List Violation} {note : List Log.Entry}
    (h : noteFile verbose volume file violations = .ok note) :
    ∀ entry ∈ note, entry.IsNote := by
  unfold noteFile at h
  split at h
  · split at h
    · simp at h
    · obtain rfl := Except.ok.inj h
      exact List.forall_mem_singleton.mpr (scannedEntry_isNote _ _ _)
  · obtain rfl := Except.ok.inj h
    simp

theorem checkFiles_notes (accessors : Accessors) (verbose : Bool) (volume : Volume)
    (files : List File) :
    ∀ entry ∈ (checkFiles accessors verbose volume files).1, entry.IsNote := by
  induction files with
  | nil => simp [checkFiles]
  | cons file rest ih =>
      unfold checkFiles
      split
      · simp
      split
      · simp
      rename_i note hnote
      intro entry hentry
      rcases List.mem_append.mp hentry with hmem | hmem
      · exact noteFile_notes hnote entry hmem
      · exact ih entry hmem

theorem run_notes (accessors : Accessors) (verbose : Bool) (ws : Workspace)
    (patterns : List Bytes) :
    ∀ entry ∈ (run accessors verbose ws patterns).1, entry.IsNote := by
  unfold run
  split
  · simp
  · exact List.forall_mem_cons.mpr
      ⟨locatedEntry_isNote _ _, checkFiles_notes accessors verbose ws.volume _⟩

-- The outcome of a pass, whatever its verbosity. It succeeds exactly if the files can
-- be located and each of them can be scanned, and then reports the violations by
-- file, by line and by rule. It fails with the reason why the files cannot be located
-- or, if they can, with that of the first file that cannot be scanned.
theorem run_outcome (accessors : Accessors) (verbose : Bool) (ws : Workspace)
    (patterns : List Bytes) :
    (∀ result, (run accessors verbose ws patterns).2 = .ok result ↔
      ∃ files, ws.locate patterns = .ok files ∧
        (∀ file ∈ files, scanFailure? ws.volume file = none) ∧
        result.root = ws.root ∧
        result.files = files.map (·.path) ∧
        result.violations = files.flatMap fun file =>
          (checkedLines ws.volume file).flatMap fun line =>
            Rule.catalog.flatMap fun rule => evaluate accessors rule line) ∧
    (∀ error, (run accessors verbose ws patterns).2 = .error error ↔
      (∃ cause, ws.locate patterns = .error cause ∧ error = .locate cause) ∨
      ∃ files before file after cause, ws.locate patterns = .ok files ∧
        files = before ++ file :: after ∧
        (∀ earlier ∈ before, scanFailure? ws.volume earlier = none) ∧
        scanFailure? ws.volume file = some (.failed cause) ∧
        error = .source cause) := by
  constructor
  · intro result
    constructor
    · intro h
      obtain ⟨files, hlocate, hscanned, rfl⟩ := run_eq_ok h
      exact ⟨files, hlocate, hscanned, rfl, rfl, rfl⟩
    · rintro ⟨files, hlocate, hscanned, hroot, hfiles, hviolations⟩
      rw [run_of_scanned hlocate hscanned, ← hroot, ← hfiles]
      exact congrArg _ (congrArg (Result.mk result.root result.files) hviolations.symm)
  · intro error
    constructor
    · intro h
      cases hlocate : ws.locate patterns with
      | error cause =>
          rw [run_of_unlocated hlocate] at h
          exact .inl ⟨cause, rfl, (Except.error.inj h).symm⟩
      | ok files =>
          rcases firstFailure_or ws.volume files with hscanned | ⟨cause, hfailed⟩
          · simp [run_of_scanned hlocate hscanned] at h
          · rw [run_of_failed hlocate hfailed] at h
            obtain ⟨before, file, after, hsplit, hbefore, hfile⟩ := hfailed
            exact .inr ⟨files, before, file, after, cause, rfl, hsplit, hbefore, hfile,
              (Except.error.inj h).symm⟩
    · rintro (⟨cause, hlocate, rfl⟩ |
        ⟨files, before, file, after, cause, hlocate, hsplit, hbefore, hfile, rfl⟩)
      · exact run_of_unlocated hlocate
      · exact run_of_failed hlocate ⟨before, file, after, hsplit, hbefore, hfile⟩

end ThemeLint.Linter
