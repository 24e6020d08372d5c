import ThemeLint.Proofs.Run.Violations
import ThemeLint.Proofs.Workspace.Patterns

namespace ThemeLint

open Bytes ThemeLint.Path Source

def Layout.AgreeBut (place : List Bytes) (layout later : Layout) : Prop :=
  ∀ other content, other ≠ place →
    (later other = some (.file content) ↔ layout other = some (.file content))

theorem Tree.IsOpen.agreeBut_written {tree : Tree} {place : List Bytes} (hopen : tree.IsOpen place)
    (content : Bytes) :
    Layout.AgreeBut place tree.get? (Layout.written tree.get? place content) := by
  intro other found hne
  by_cases hle : other <+: place
  · have hfile : tree.get? other ≠ some (.file found) := hopen hle hne
    simp [Layout.written_above hle hne, hfile]
  · simp [Layout.written, hne, hle]

namespace Source

variable {volume other : Volume} {file : File}

theorem scan_congr {σ ε : Type} (h : other.read file.relPath = volume.read file.relPath)
    (visit : Line → σ → Except ε σ) (start : σ) :
    scan other file visit start = scan volume file visit start := by
  simp only [scan, content, h]

theorem countLines_congr (h : other.read file.relPath = volume.read file.relPath) :
    countLines other file = countLines volume file := by
  simp only [countLines, h]

theorem checkedLines_congr (h : other.read file.relPath = volume.read file.relPath) :
    checkedLines other file = checkedLines volume file := by
  simp only [checkedLines, h]

end Source

namespace Workspace

-- Two states of a work directory that have the same files, except perhaps at one place.
structure AgreeBut (place : List Bytes) (ws other : Workspace) (layout later : Layout) : Prop where
  root : other.root = ws.root
  plain : layout.IsPlain
  shows : ws.volume.Shows layout
  plain_later : later.IsPlain
  shows_later : other.volume.Shows later
  agree : layout.AgreeBut place later

variable {ws other : Workspace} {layout later : Layout} {place : List Bytes}
  {files otherFiles : List File}

-- The files that are located elsewhere are the same before and after.
theorem AgreeBut.locate (h : AgreeBut place ws other layout later)
    (hfiles : ws.locate Workspace.patterns = .ok files)
    (hother : other.locate Workspace.patterns = .ok otherFiles) :
    otherFiles.filter (·.relPath ≠ relative place) = files.filter (·.relPath ≠ relative place) := by
  refine eq_of_ascending ((locate_ascending hother).filter _) ((locate_ascending hfiles).filter _)
    fun file => ?_
  simp only [List.mem_filter, mem_locate_patterns h.shows h.plain hfiles,
    mem_locate_patterns h.shows_later h.plain_later hother, decide_eq_true_eq]
  refine and_congr_left fun hne => exists_congr fun elsewhere => exists_congr fun content => ?_
  have hsame (heq : file = ws.file (relative elsewhere)) :
      later elsewhere = some (.file content) ↔ layout elsewhere = some (.file content) :=
    h.agree elsewhere content fun hplace => hne (by rw [heq, hplace]; rfl)
  have hfile : other.file (relative elsewhere) = ws.file (relative elsewhere) := by
    simp only [Workspace.file, h.root]
  rw [hfile]
  constructor
  · rintro ⟨hcontent, hchecked, heq⟩
    exact ⟨(hsame heq).mp hcontent, hchecked, heq⟩
  · rintro ⟨hcontent, hchecked, heq⟩
    exact ⟨(hsame heq).mpr hcontent, hchecked, heq⟩

theorem AgreeBut.read (h : AgreeBut place ws other layout later) {file : File}
    (hfiles : ws.locate Workspace.patterns = .ok files) (hfile : file ∈ files)
    (hne : file.relPath ≠ relative place) :
    other.volume.read file.relPath = ws.volume.read file.relPath := by
  obtain ⟨elsewhere, content, hcontent, -, rfl⟩ :=
    (mem_locate_patterns h.shows h.plain hfiles file).mp hfile
  have hlater : later elsewhere = some (.file content) :=
    (h.agree elsewhere content fun hplace => hne (by rw [hplace]; rfl)).mpr hcontent
  exact (h.shows_later.read hlater).trans (h.shows.read hcontent).symm

-- A located file is told by either of its paths.
theorem path_eq_iff (hshows : ws.volume.Shows layout) (hplain : layout.IsPlain)
    (hplace : IsPlace place) (hfiles : ws.locate Workspace.patterns = .ok files) {file : File}
    (hfile : file ∈ files) :
    file.path = Path.join ws.root (relative place) ↔ file.relPath = relative place := by
  obtain ⟨elsewhere, content, hcontent, -, rfl⟩ :=
    (mem_locate_patterns hshows hplain hfiles file).mp hfile
  have helsewhere := hplain.isPlace hcontent
  exact (join_relative_inj helsewhere hplace).trans (relative_inj helsewhere hplace).symm

theorem relPath_ne_of_not_checked (hshows : ws.volume.Shows layout) (hplain : layout.IsPlain)
    (hplace : IsPlace place) (hchecked : ¬IsChecked place)
    (hfiles : ws.locate Workspace.patterns = .ok files) {file : File} (hfile : file ∈ files) :
    file.relPath ≠ relative place := by
  obtain ⟨elsewhere, content, hcontent, helsewhere, rfl⟩ :=
    (mem_locate_patterns hshows hplain hfiles file).mp hfile
  intro heq
  obtain rfl := (relative_inj (hplain.isPlace hcontent) hplace).mp heq
  exact hchecked helsewhere

end Workspace

namespace Linter

variable {accessors : Accessors} {verbose : Bool} {volume other : Volume} {files : List File}
  {patterns : List Bytes}

theorem checkFiles_congr (h : ∀ file ∈ files, other.read file.relPath = volume.read file.relPath) :
    checkFiles accessors verbose other files = checkFiles accessors verbose volume files := by
  induction files with
  | nil => rfl
  | cons file rest ih =>
      obtain ⟨hfile, hrest⟩ := List.forall_mem_cons.mp h
      simp only [checkFiles, checkFile, noteFile, scan_congr hfile, countLines_congr hfile, ih hrest]

-- Of a store a pass sees which files are located and what they hold.
theorem run_congr {ws other : Workspace} (hroot : other.root = ws.root)
    (hfiles : ws.locate patterns = .ok files) (hother : other.locate patterns = .ok files)
    (hread : ∀ file ∈ files, other.volume.read file.relPath = ws.volume.read file.relPath) :
    run accessors verbose other patterns = run accessors verbose ws patterns := by
  simp only [run, hfiles, hother, hroot, checkFiles_congr hread]

theorem relPath_of_mem_fileViolations {file : File} {v : Violation}
    (hv : v ∈ fileViolations accessors volume file) : v.relPath = file.relPath := by
  obtain ⟨line, hline, rule, _, hv⟩ := mem_fileViolations.mp hv
  obtain ⟨_, _, _, _, _, _, rfl⟩ := mem_checkedLines hline
  obtain ⟨m, _, _, rfl⟩ := mem_evaluate.mp hv
  rfl

-- To leave out the violations of a path is to leave out its file.
theorem filter_violations (accessors : Accessors) (volume : Volume) (files : List File)
    (relPath : Bytes) :
    (files.flatMap (fileViolations accessors volume)).filter (·.relPath ≠ relPath) =
      (files.filter (·.relPath ≠ relPath)).flatMap (fileViolations accessors volume) := by
  induction files with
  | nil => rfl
  | cons file rest ih =>
      rw [List.flatMap_cons, List.filter_append, ih]
      by_cases hfile : file.relPath = relPath
      · have hnone : (fileViolations accessors volume file).filter (·.relPath ≠ relPath) = [] := by
          rw [List.filter_eq_nil_iff]
          intro v hv
          simp [relPath_of_mem_fileViolations hv, hfile]
        rw [hnone, List.nil_append, List.filter_cons_of_neg (by simpa using hfile)]
      · have hall : (fileViolations accessors volume file).filter (·.relPath ≠ relPath) =
            fileViolations accessors volume file := by
          rw [List.filter_eq_self]
          intro v hv
          simpa [relPath_of_mem_fileViolations hv] using hfile
        rw [hall, List.filter_cons_of_pos (by simpa using hfile), List.flatMap_cons]

theorem flatMap_fileViolations_congr
    (h : ∀ file ∈ files, other.read file.relPath = volume.read file.relPath) :
    files.flatMap (fileViolations accessors other) =
      files.flatMap (fileViolations accessors volume) := by
  refine List.flatMap_congr fun file hfile => ?_
  simp only [fileViolations, checkedLines_congr (h file hfile)]

-- A pass does not see a place that is not to be checked.
theorem run_eq_of_agreeBut {place : List Bytes} {ws other : Workspace} {layout later : Layout}
    (h : Workspace.AgreeBut place ws other layout later)
    (hplace : IsPlace place) (hchecked : ¬Workspace.IsChecked place) :
    run accessors verbose other Workspace.patterns = run accessors verbose ws Workspace.patterns := by
  obtain ⟨files, hfiles⟩ := Workspace.exists_locate_patterns h.shows h.plain
  obtain ⟨otherFiles, hother⟩ := Workspace.exists_locate_patterns h.shows_later h.plain_later
  have hkept : ∀ file ∈ files, file.relPath ≠ relative place := fun file =>
    Workspace.relPath_ne_of_not_checked h.shows h.plain hplace hchecked hfiles
  have hkept' : ∀ file ∈ otherFiles, file.relPath ≠ relative place := fun file =>
    Workspace.relPath_ne_of_not_checked h.shows_later h.plain_later hplace hchecked hother
  have hsame := h.locate hfiles hother
  rw [List.filter_eq_self.mpr (by simpa using hkept'),
    List.filter_eq_self.mpr (by simpa using hkept)] at hsame
  subst hsame
  exact run_congr h.root hfiles hother fun file hfile => h.read hfiles hfile (hkept file hfile)

theorem filter_paths {place : List Bytes} {ws : Workspace} {layout : Layout}
    (hshows : ws.volume.Shows layout) (hplain : layout.IsPlain) (hplace : IsPlace place)
    (hfiles : ws.locate Workspace.patterns = .ok files) :
    (files.map (·.path)).filter (· ≠ Path.join ws.root (relative place)) =
      (files.filter (·.relPath ≠ relative place)).map (·.path) := by
  rw [List.filter_map]
  refine congrArg _ (List.filter_congr fun file hfile => ?_)
  simp [Workspace.path_eq_iff hshows hplain hplace hfiles hfile]

theorem result_of_agreeBut {place : List Bytes} {ws other : Workspace} {layout later : Layout}
    (h : Workspace.AgreeBut place ws other layout later) (hplace : IsPlace place)
    {before after : Result} (hbefore : (run accessors verbose ws Workspace.patterns).2 = .ok before)
    (hafter : (run accessors verbose other Workspace.patterns).2 = .ok after) :
    after.files.filter (· ≠ Path.join ws.root (relative place)) =
        before.files.filter (· ≠ Path.join ws.root (relative place)) ∧
      after.violations.filter (·.relPath ≠ relative place) =
        before.violations.filter (·.relPath ≠ relative place) := by
  obtain ⟨files, hfiles, -, rfl⟩ := run_eq_ok hbefore
  obtain ⟨otherFiles, hother, -, rfl⟩ := run_eq_ok hafter
  have hsame := h.locate hfiles hother
  constructor
  · have hpaths := filter_paths h.shows_later h.plain_later hplace hother
    rw [h.root] at hpaths
    rw [hpaths, filter_paths h.shows h.plain hplace hfiles, hsame]
  · rw [filter_violations, filter_violations, hsame]
    refine flatMap_fileViolations_congr fun file hfile => ?_
    obtain ⟨hmem, hne⟩ := List.mem_filter.mp hfile
    exact h.read hfiles hmem (by simpa using hne)

-- A file is written to a place of a tree without links, with the directories above it. A
-- pass that would not look at the place gives what it gave before. In any case the passes
-- before and after, if they succeed, agree on all other files and on what they found there.
theorem run_after_write {tree : Tree} (hplain : tree.IsPlain) {path : Bytes}
    (hclean : Path.clean path = path) (hrooted : Path.isRooted path = false)
    (hup : Path.up ∉ partsBy slash path)
    (hdirectory : tree.get? (Path.fromRoot path) ≠ some .directory)
    (hopen : tree.IsOpen (Path.fromRoot path)) (content root : Bytes) (accessors : Accessors)
    (verbose : Bool) :
    ∃ after, Sandbox.write tree path content = .ok after ∧
      after.get? = Layout.written tree.get? (Path.fromRoot path) content ∧
      ((∀ pattern ∈ Workspace.patterns, (NamePattern.parse pattern).fits? path ≠ some true) →
        run accessors verbose ⟨root, Sandbox.volume after⟩ Workspace.patterns =
          run accessors verbose ⟨root, Sandbox.volume tree⟩ Workspace.patterns) ∧
      ∀ before later,
        (run accessors verbose ⟨root, Sandbox.volume tree⟩ Workspace.patterns).2 = .ok before →
        (run accessors verbose ⟨root, Sandbox.volume after⟩ Workspace.patterns).2 = .ok later →
        later.files.filter (· ≠ Path.join root path) =
          before.files.filter (· ≠ Path.join root path) ∧
        later.violations.filter (·.relPath ≠ path) =
          before.violations.filter (·.relPath ≠ path) := by
  obtain ⟨place, hplace, rfl⟩ := exists_place_of_clean hclean hrooted hup
  rw [fromRoot_relative hplace] at hdirectory hopen ⊢
  obtain ⟨after, hwrite, hafter, hget⟩ :=
    Sandbox.write_relative hplain hplace hdirectory hopen content
  have hagree : Workspace.AgreeBut place ⟨root, Sandbox.volume tree⟩ ⟨root, Sandbox.volume after⟩
      tree.get? after.get? := {
    root := rfl
    plain := hplain.toIsPlain
    shows := Sandbox.shows hplain
    plain_later := hafter.toIsPlain
    shows_later := Sandbox.shows hafter
    agree := hget ▸ hopen.agreeBut_written content }
  refine ⟨after, hwrite, hget, fun hfits => ?_, fun before later hbefore hlater => ?_⟩
  · apply run_eq_of_agreeBut hagree hplace
    rw [← Workspace.fits_patterns_iff hplace]
    rintro ⟨pattern, hpattern, hplace'⟩
    refine hfits pattern hpattern ((Glob.fits_iff ?_ hplace ?_).mp hplace')
    · exact Workspace.patterns_simple pattern hpattern
    · rintro rfl
      exact hdirectory hplain.root
  · exact result_of_agreeBut hagree hplace hbefore hlater

def topicBefore : Tree where
  entries := [([], .directory), ([utf8 "topics"], .directory),
    ([utf8 "topics", utf8 "b"], .directory),
    ([utf8 "topics", utf8 "b", utf8 "interactive."], .file (utf8 "x = '#fff'"))]
  unlisted := []

def topicAfter : Tree where
  entries := topicBefore.entries ++ [([utf8 "topics", utf8 "a"], .directory),
    ([utf8 "topics", utf8 "a", utf8 "interactive."], .file (utf8 "y = '#000'"))]
  unlisted := []

theorem write_topicBefore : Sandbox.write topicBefore (utf8 "topics/a/interactive.")
    (utf8 "y = '#000'") = .ok topicAfter := rfl

theorem locate_topicBefore :
    (Workspace.mk (utf8 "/w") (Sandbox.volume topicBefore)).locate Workspace.patterns =
      .ok [⟨utf8 "/w/topics/b/interactive.", utf8 "topics/b/interactive."⟩] := by
  decide +kernel

theorem locate_topicAfter :
    (Workspace.mk (utf8 "/w") (Sandbox.volume topicAfter)).locate Workspace.patterns =
      .ok [⟨utf8 "/w/topics/a/interactive.", utf8 "topics/a/interactive."⟩,
        ⟨utf8 "/w/topics/b/interactive.", utf8 "topics/b/interactive."⟩] := by
  have hplain : topicAfter.IsPlain := by decide
  have hshows : (Workspace.mk (utf8 "/w") (Sandbox.volume topicAfter)).volume.Shows
      topicAfter.get? := Sandbox.shows hplain
  have hentries : ∀ entry ∈ topicAfter.entries, topicAfter.get? entry.1 = some .directory ∨
      (Workspace.mk (utf8 "/w") (Sandbox.volume topicAfter)).file (relative entry.1) ∈
        [⟨utf8 "/w/topics/a/interactive.", utf8 "topics/a/interactive."⟩,
          ⟨utf8 "/w/topics/b/interactive.", utf8 "topics/b/interactive."⟩] := by decide
  obtain ⟨files, hfiles⟩ := Workspace.exists_locate_patterns hshows hplain.toIsPlain
  rw [hfiles]
  -- both lists are sorted by path, so that it is enough to compare their members
  refine congrArg Except.ok (Workspace.eq_of_ascending (Workspace.locate_ascending hfiles)
    (by decide) fun file => ?_)
  rw [Workspace.mem_locate_patterns hshows hplain.toIsPlain hfiles]
  constructor
  · rintro ⟨place, content, hcontent, -, rfl⟩
    obtain ⟨entry, hentry, rfl⟩ := Tree.isSome_get?.mp (Option.isSome_of_eq_some hcontent)
    rcases hentries entry hentry with hdirectory | hfile
    · simp [hdirectory] at hcontent
    · exact hfile
  · intro hfile
    rcases List.mem_pair.mp hfile with rfl | rfl
    · exact ⟨[utf8 "topics", utf8 "a", utf8 "interactive."], _, rfl, .inl ⟨utf8 "a", [], rfl⟩, rfl⟩
    · exact ⟨[utf8 "topics", utf8 "b", utf8 "interactive."], _, rfl, .inl ⟨utf8 "b", [], rfl⟩, rfl⟩

-- After the write the violation that was there comes second and is otherwise the same. A
-- write beside the files to check makes no difference.
theorem run_after_write_topicBefore :
    (∃ before later,
      (run sampleAccessors true ⟨utf8 "/w", Sandbox.volume topicBefore⟩ Workspace.patterns).2 =
        .ok before ∧
      (run sampleAccessors true ⟨utf8 "/w", Sandbox.volume topicAfter⟩ Workspace.patterns).2 =
        .ok later ∧
      before.violations.length = 1 ∧ later.violations.length = 2 ∧
      later.violations.filter (·.relPath ≠ utf8 "topics/a/interactive.") =
        before.violations.filter (·.relPath ≠ utf8 "topics/a/interactive.")) ∧
    ∃ after, Sandbox.write topicBefore (utf8 "topics/b/widgets/a/b.js") [] = .ok after ∧
      run sampleAccessors true ⟨utf8 "/w", Sandbox.volume after⟩ Workspace.patterns =
        run sampleAccessors true ⟨utf8 "/w", Sandbox.volume topicBefore⟩ Workspace.patterns := by
  have hplain : topicBefore.IsPlain := by decide
  constructor
  · have hclean : Path.clean (utf8 "topics/a/interactive.") = utf8 "topics/a/interactive." := by
      decide
    obtain ⟨after, hwrite, -, -, hresult⟩ := run_after_write hplain hclean (by decide) (by decide)
      (by decide) (by decide) (utf8 "y = '#000'") (utf8 "/w") sampleAccessors true
    obtain rfl := Except.ok.inj (write_topicBefore.symm.trans hwrite)
    have hbefore := @run_of_scanned sampleAccessors true _ _ _ locate_topicBefore (by decide)
    have hlater := @run_of_scanned sampleAccessors true _ _ _ locate_topicAfter (by decide)
    exact ⟨_, _, hbefore, hlater, by decide, by decide, (hresult _ _ hbefore hlater).2⟩
  · have hclean : Path.clean (utf8 "topics/b/widgets/a/b.js") = utf8 "topics/b/widgets/a/b.js" := by
      decide
    obtain ⟨after, hwrite, -, hsame, -⟩ := run_after_write hplain hclean (by decide) (by decide)
      (by decide) (by decide) [] (utf8 "/w") sampleAccessors true
    exact ⟨after, hwrite, hsame (by decide)⟩

end Linter

end ThemeLint
