import ThemeLint.Files.Sandbox
import ThemeLint.Proofs.Files.Glob
import ThemeLint.Proofs.Workspace

namespace ThemeLint.Workspace

open Bytes Source

variable {ws : Workspace} {pattern relPath path : Bytes} {patterns : List Bytes}

def expanded (ws : Workspace) (pattern : Bytes) : List Bytes :=
  match Glob.expand ws.volume pattern with
  | .ok paths => paths
  | .error _ => []

def isFile (ws : Workspace) (relPath : Bytes) : Bool :=
  match ws.volume.isDirectory relPath with
  | .ok isDirectory => !isDirectory
  | .error _ => false

def hits (ws : Workspace) (pattern : Bytes) : List File :=
  ((ws.expanded pattern).filter ws.isFile).map ws.file

-- The store can tell which paths fit a pattern, and of each of them what kind it is.
def Answers (ws : Workspace) (pattern : Bytes) : Prop :=
  ∃ paths, Glob.expand ws.volume pattern = .ok paths ∧
    ∀ relPath ∈ paths, ∃ isDirectory, ws.volume.isDirectory relPath = .ok isDirectory

-- A relative path that leads to the file at an absolute one.
def LeadsTo (ws : Workspace) (relPath path : Bytes) : Prop :=
  ws.volume.isDirectory relPath = .ok false ∧ Path.join ws.root relPath = path

theorem isFile_iff : ws.isFile relPath = true ↔ ws.volume.isDirectory relPath = .ok false := by
  unfold isFile
  cases ws.volume.isDirectory relPath with
  | error cause => simp
  | ok isDirectory => simp

theorem fileAt_eq {isDirectory : Bool} (h : ws.volume.isDirectory relPath = .ok isDirectory) :
    ws.fileAt relPath = .ok (if ws.isFile relPath then some (ws.file relPath) else none) := by
  unfold fileAt isFile
  rw [h]
  cases isDirectory <;> rfl

theorem matching_of_answers (h : ws.Answers pattern) : ws.matching pattern = .ok (ws.hits pattern) := by
  obtain ⟨paths, hexpand, hstat⟩ := h
  have hfiles : paths.mapM ws.fileAt = .ok
      (paths.map fun relPath => if ws.isFile relPath then some (ws.file relPath) else none) := by
    refine mapM_eq_map fun relPath hmem => ?_
    obtain ⟨isDirectory, hdirectory⟩ := hstat relPath hmem
    exact fileAt_eq hdirectory
  simp only [matching, hexpand, hfiles, Except.map, hits, expanded, List.filterMap_map]
  rw [← List.filterMap_eq_map, List.filterMap_filter]
  rfl

theorem matching_of_not_answers (h : ¬ws.Answers pattern) :
    ∃ cause, ws.matching pattern = .error cause := by
  unfold matching
  cases hexpand : Glob.expand ws.volume pattern with
  | error cause => exact ⟨.expand pattern cause, rfl⟩
  | ok paths =>
      obtain ⟨relPath, hmem, cause, hcause⟩ : ∃ relPath ∈ paths, ∃ cause,
          ws.fileAt relPath = .error cause := by
        by_contra hall
        refine h ⟨paths, hexpand, fun relPath hmem => ?_⟩
        cases hstat : ws.volume.isDirectory relPath with
        | ok isDirectory => exact ⟨isDirectory, rfl⟩
        | error cause => exact absurd ⟨relPath, hmem, .stat relPath cause, by simp [fileAt, hstat]⟩ hall
      obtain ⟨cause, hfails⟩ := mapM_eq_error ⟨relPath, hmem, cause, hcause⟩
      exact ⟨cause, by simp [hfails, Except.map]⟩

theorem locate_of_answers (h : ∀ pattern ∈ patterns, ws.Answers pattern) :
    ws.locate patterns = .ok ((distinct (patterns.flatMap ws.hits)).mergeSort
      fun a b => decide (a.path ≤ b.path)) := by
  have hmatching : patterns.mapM ws.matching = .ok (patterns.map ws.hits) :=
    mapM_eq_map fun pattern hmem => matching_of_answers (h pattern hmem)
  simp only [locate, hmatching, bind, Except.bind, List.flatMap]

theorem locate_of_not_answers (h : ∃ pattern ∈ patterns, ¬ws.Answers pattern) :
    ∃ cause, ws.locate patterns = .error cause := by
  obtain ⟨pattern, hmem, hfails⟩ := h
  obtain ⟨cause, hmatching⟩ := mapM_eq_error ⟨pattern, hmem, matching_of_not_answers hfails⟩
  exact ⟨cause, by simp [locate, hmatching, bind, Except.bind]⟩

theorem exists_locate_ok_iff :
    (∃ files, ws.locate patterns = .ok files) ↔ ∀ pattern ∈ patterns, ws.Answers pattern := by
  constructor
  · rintro ⟨files, hfiles⟩ pattern hmem
    by_contra hfails
    obtain ⟨cause, hcause⟩ := locate_of_not_answers ⟨pattern, hmem, hfails⟩
    simp [hfiles] at hcause
  · intro h
    exact ⟨_, locate_of_answers h⟩

theorem mem_distinct {files : List File} {file : File} :
    file ∈ distinct files ↔ files.find? (·.path == file.path) = some file := by
  induction files with
  | nil => simp [distinct]
  | cons first rest ih =>
      rw [distinct, List.mem_cons, List.mem_filter, ih]
      by_cases heq : first.path = file.path
      · rw [List.find?_cons_of_pos (by simpa using heq)]
        simp [heq, eq_comm]
      · have hfile : file ≠ first := fun h => heq (h ▸ rfl)
        rw [List.find?_cons_of_neg (by simpa using heq)]
        simp [hfile, Ne.symm heq]

theorem mem_locate {files : List File} {file : File} (h : ws.locate patterns = .ok files) :
    file ∈ files ↔ (patterns.flatMap ws.hits).find? (·.path == file.path) = some file := by
  rw [locate_of_answers (exists_locate_ok_iff.mp ⟨files, h⟩)] at h
  rw [← Except.ok.inj h, List.mem_mergeSort, mem_distinct]

theorem flatMap_hits (ws : Workspace) (patterns : List Bytes) :
    patterns.flatMap ws.hits = ((patterns.flatMap ws.expanded).filter ws.isFile).map ws.file := by
  rw [List.filter_flatMap, List.map_flatMap]
  rfl

theorem mem_flatMap_hits {file : File} :
    file ∈ patterns.flatMap ws.hits ↔
      ∃ relPath ∈ patterns.flatMap ws.expanded, ws.isFile relPath = true ∧ ws.file relPath = file := by
  rw [flatMap_hits, List.mem_map]
  simp only [List.mem_filter, and_assoc]

theorem mem_expanded_of_answers (h : ∀ pattern ∈ patterns, ws.Answers pattern) :
    relPath ∈ patterns.flatMap ws.expanded ↔ ∃ pattern ∈ patterns, ∃ paths,
      Glob.expand ws.volume pattern = .ok paths ∧ relPath ∈ paths := by
  rw [List.mem_flatMap]
  refine exists_congr fun pattern => and_congr_right fun hmem => ?_
  obtain ⟨paths, hpaths, -⟩ := h pattern hmem
  simp [expanded, hpaths]

-- The paths of the located files are those that some path fitting a pattern leads to.
theorem exists_mem_locate_iff {files : List File} (h : ws.locate patterns = .ok files) :
    (∃ file ∈ files, file.path = path) ↔
      ∃ relPath ∈ patterns.flatMap ws.expanded, ws.LeadsTo relPath path := by
  constructor
  · rintro ⟨file, hfile, rfl⟩
    have hmem := List.mem_of_find?_eq_some ((mem_locate h).mp hfile)
    obtain ⟨relPath, hrel, hisFile, rfl⟩ := mem_flatMap_hits.mp hmem
    exact ⟨relPath, hrel, isFile_iff.mp hisFile, rfl⟩
  · rintro ⟨relPath, hrel, hstat, rfl⟩
    have hhit : ws.file relPath ∈ patterns.flatMap ws.hits :=
      mem_flatMap_hits.mpr ⟨relPath, hrel, isFile_iff.mpr hstat, rfl⟩
    have hsome : ((patterns.flatMap ws.hits).find?
        (·.path == Path.join ws.root relPath)).isSome = true :=
      List.find?_isSome.mpr ⟨_, hhit, by simp [file]⟩
    obtain ⟨file, hfile⟩ := Option.isSome_iff_exists.mp hsome
    have hpath : file.path = Path.join ws.root relPath := by simpa using List.find?_some hfile
    exact ⟨file, (mem_locate h).mpr (hpath ▸ hfile), hpath⟩

-- A located file has the first of the relative paths that lead to it.
theorem first_of_mem_locate {files : List File} {file : File} (h : ws.locate patterns = .ok files)
    (hfile : file ∈ files) :
    ws.LeadsTo file.relPath file.path ∧
      ∃ before after, patterns.flatMap ws.expanded = before ++ file.relPath :: after ∧
        ∀ earlier ∈ before, ¬ws.LeadsTo earlier file.path := by
  have hfind := (mem_locate h).mp hfile
  rw [flatMap_hits, List.find?_map, Option.map_eq_some_iff] at hfind
  obtain ⟨relPath, hfind, rfl⟩ := hfind
  rw [List.find?_filter, List.find?_eq_some_iff_append] at hfind
  obtain ⟨hrel, before, after, hsplit, hbefore⟩ := hfind
  have hstat : ws.isFile relPath = true := by
    have hboth := of_decide_eq_true hrel
    exact hboth.1
  refine ⟨⟨isFile_iff.mp hstat, rfl⟩, before, after, hsplit, fun earlier hearlier hleads => ?_⟩
  have hnot := hbefore earlier hearlier
  simp [isFile_iff.mpr hleads.1, file, hleads.2] at hnot

theorem eq_of_ascending {α : Type} {key : α → Bytes} {as bs : List α}
    (has : as.Pairwise fun a b => key a < key b) (hbs : bs.Pairwise fun a b => key a < key b)
    (h : ∀ a, a ∈ as ↔ a ∈ bs) : as = bs := by
  have hnodup {cs : List α} (hcs : cs.Pairwise fun a b => key a < key b) : cs.Nodup := by
    apply hcs.imp
    rintro a b hlt rfl
    exact List.lt_irrefl _ hlt
  have hperm := (List.perm_ext_iff_of_nodup (hnodup has) (hnodup hbs)).mpr h
  refine hperm.eq_of_pairwise (fun a b _ _ hab hba => ?_) has hbs
  exact absurd hba (List.lt_asymm hab)

theorem paths_eq_of_mem_iff {others : List Bytes} {files otherFiles : List File}
    (h : ws.locate patterns = .ok files) (hother : ws.locate others = .ok otherFiles)
    (hmem : ∀ pattern, pattern ∈ others ↔ pattern ∈ patterns) :
    otherFiles.map (·.path) = files.map (·.path) := by
  have hexpanded (relPath : Bytes) :
      relPath ∈ others.flatMap ws.expanded ↔ relPath ∈ patterns.flatMap ws.expanded := by
    simp only [List.mem_flatMap, hmem]
  have hascending {patterns : List Bytes} {files : List File} (h : ws.locate patterns = .ok files) :
      (files.map (·.path)).Pairwise fun a b => id a < id b :=
    List.pairwise_map.mpr (locate_ascending h)
  refine eq_of_ascending (hascending hother) (hascending h) fun path => ?_
  rw [List.mem_map, List.mem_map, exists_mem_locate_iff hother, exists_mem_locate_iff h]
  simp only [hexpanded]

-- The order of the patterns makes no difference to the paths, nor does their repetition.
theorem locate_paths_congr {others : List Bytes}
    (hmem : ∀ pattern, pattern ∈ others ↔ pattern ∈ patterns) :
    (ws.locate others).toOption.map (·.map (·.path)) =
      (ws.locate patterns).toOption.map (·.map (·.path)) := by
  have hok : (∃ files, ws.locate others = .ok files) ↔ ∃ files, ws.locate patterns = .ok files := by
    simp only [exists_locate_ok_iff, hmem]
  cases h : ws.locate patterns with
  | ok files =>
      obtain ⟨otherFiles, hother⟩ := hok.mpr ⟨files, h⟩
      rw [hother]
      exact congrArg some (paths_eq_of_mem_iff h hother hmem)
  | error cause =>
      cases hother : ws.locate others with
      | ok files =>
          obtain ⟨otherFiles, hfiles⟩ := hok.mp ⟨files, hother⟩
          simp [h] at hfiles
      | error cause => rfl

theorem not_answers_iff : ¬ws.Answers pattern ↔
    (∃ cause, Glob.expand ws.volume pattern = .error cause) ∨
      ∃ paths, Glob.expand ws.volume pattern = .ok paths ∧
        ∃ relPath ∈ paths, ∃ cause, ws.volume.isDirectory relPath = .error cause := by
  unfold Answers
  cases hexpand : Glob.expand ws.volume pattern with
  | error cause => exact ⟨fun _ => .inl ⟨cause, rfl⟩, fun _ => by simp⟩
  | ok paths =>
      have hstat (relPath : Bytes) :
          (¬∃ isDirectory, ws.volume.isDirectory relPath = .ok isDirectory) ↔
            ∃ cause, ws.volume.isDirectory relPath = .error cause := by
        cases ws.volume.isDirectory relPath <;> simp
      simp [← hstat]

theorem exists_locate_error_iff :
    (∃ cause, ws.locate patterns = .error cause) ↔ ∃ pattern ∈ patterns, ¬ws.Answers pattern := by
  refine ⟨fun ⟨cause, hcause⟩ => ?_, locate_of_not_answers⟩
  by_contra hall
  have hanswers : ∀ pattern ∈ patterns, ws.Answers pattern := by simpa using hall
  simp [locate_of_answers hanswers] at hcause

-- What becomes of locating files, for any store and any patterns. It fails exactly if some
-- pattern cannot be expanded or some path that fits one cannot be looked at. Otherwise the
-- paths ascend, they are those of the files that fit some pattern, and each stands with the
-- first relative path that leads to it. The paths do not depend on the order of the
-- patterns, nor on how often each is given.
theorem locate_outcome (ws : Workspace) (patterns : List Bytes) :
    ((∃ cause, ws.locate patterns = .error cause) ↔ ∃ pattern ∈ patterns,
      (∃ cause, Glob.expand ws.volume pattern = .error cause) ∨
        ∃ paths, Glob.expand ws.volume pattern = .ok paths ∧
          ∃ relPath ∈ paths, ∃ cause, ws.volume.isDirectory relPath = .error cause) ∧
    (∀ files, ws.locate patterns = .ok files →
      files.Pairwise (fun a b => a.path < b.path) ∧
      (∀ path, (∃ file ∈ files, file.path = path) ↔ ∃ pattern ∈ patterns, ∃ paths,
        Glob.expand ws.volume pattern = .ok paths ∧ ∃ relPath ∈ paths,
          ws.volume.isDirectory relPath = .ok false ∧ Path.join ws.root relPath = path) ∧
      ∀ file ∈ files, ws.LeadsTo file.relPath file.path ∧
        ∃ before after, patterns.flatMap ws.expanded = before ++ file.relPath :: after ∧
          ∀ earlier ∈ before, ¬ws.LeadsTo earlier file.path) ∧
    ∀ others, (∀ pattern, pattern ∈ others ↔ pattern ∈ patterns) →
      (ws.locate others).toOption.map (·.map (·.path)) =
        (ws.locate patterns).toOption.map (·.map (·.path)) := by
  refine ⟨?_, fun files h => ⟨locate_ascending h, fun path => ?_, fun file hfile => ?_⟩,
    fun others => locate_paths_congr⟩
  · rw [exists_locate_error_iff]
    simp only [not_answers_iff]
  · have hanswers := exists_locate_ok_iff.mp ⟨files, h⟩
    rw [exists_mem_locate_iff h]
    simp only [mem_expanded_of_answers hanswers]
    constructor
    · rintro ⟨relPath, ⟨pattern, hpattern, paths, hpaths, hrel⟩, hleads⟩
      exact ⟨pattern, hpattern, paths, hpaths, relPath, hrel, hleads⟩
    · rintro ⟨pattern, hpattern, paths, hpaths, relPath, hrel, hleads⟩
      exact ⟨relPath, ⟨pattern, hpattern, paths, hpaths, hrel⟩, hleads⟩
  · exact first_of_mem_locate h hfile

-- A work directory with one file, which two patterns spell in different ways.
def spellings : Workspace where
  root := utf8 "/w"
  volume := Sandbox.volume ⟨[([], .directory), ([utf8 "a"], .file [])], []⟩

theorem locate_spellings : spellings.locate [utf8 "./a", utf8 "a"] =
    .ok [⟨utf8 "/w/a", utf8 "./a"⟩] := by
  have hfound : [utf8 "./a", utf8 "a"].mapM spellings.matching =
      .ok [[spellings.file (utf8 "./a")], [spellings.file (utf8 "a")]] := rfl
  have hdistinct : distinct [spellings.file (utf8 "./a"), spellings.file (utf8 "a")] =
      [⟨utf8 "/w/a", utf8 "./a"⟩] := by decide
  simp only [locate, hfound, bind, Except.bind, List.flatten_cons, List.flatten_nil,
    List.cons_append, List.nil_append, hdistinct, List.mergeSort_singleton]

theorem locate_outcome_spellings :
    spellings.locate [utf8 "./a", utf8 "a"] = .ok [⟨utf8 "/w/a", utf8 "./a"⟩] ∧
      spellings.LeadsTo (utf8 "./a") (utf8 "/w/a") ∧
      (spellings.locate [utf8 "a", utf8 "./a", utf8 "a"]).toOption.map (·.map (·.path)) =
        some [utf8 "/w/a"] := by
  obtain ⟨-, hfiles, hothers⟩ := locate_outcome spellings [utf8 "./a", utf8 "a"]
  obtain ⟨-, -, hfirst⟩ := hfiles _ locate_spellings
  have hpaths := hothers [utf8 "a", utf8 "./a", utf8 "a"] (by simp [or_comm])
  rw [locate_spellings] at hpaths
  exact ⟨locate_spellings, (hfirst _ (List.mem_singleton.mpr rfl)).1, hpaths⟩

end ThemeLint.Workspace
