import ThemeLint.Proofs.Files.Sandbox
import ThemeLint.Proofs.Workspace.Locate

namespace ThemeLint.Workspace

open Bytes ThemeLint.Path Source Glob NamePattern

variable {ws : Workspace} {layout : Layout} {place patterns : List Bytes} {pattern : Bytes}

theorem answers_simple (hshows : ws.volume.Shows layout) (hplain : layout.IsPlain)
    (hpattern : IsSimplePattern pattern) : ws.Answers pattern := by
  obtain ⟨paths, hpaths, hiff⟩ := expand_simple hshows hplain hpattern
  refine ⟨paths, hpaths, fun relPath hmem => ?_⟩
  obtain ⟨place, -, hsome, rfl⟩ := (hiff relPath).mp hmem
  obtain ⟨node, hnode⟩ := Option.isSome_iff_exists.mp hsome
  exact ⟨_, hshows.isDirectory hnode⟩

theorem mem_expanded_simple (hshows : ws.volume.Shows layout) (hplain : layout.IsPlain)
    (hpattern : IsSimplePattern pattern) {relPath : Bytes} :
    relPath ∈ ws.expanded pattern ↔
      ∃ place, Fits pattern place ∧ (layout place).isSome = true ∧ relPath = relative place := by
  obtain ⟨paths, hpaths, hiff⟩ := expand_simple hshows hplain hpattern
  simp only [expanded, hpaths, hiff]

theorem isFile_relative (hshows : ws.volume.Shows layout) (hplain : layout.IsPlain)
    (hsome : (layout place).isSome = true) :
    ws.isFile (relative place) = true ↔ ∃ content, layout place = some (.file content) := by
  obtain ⟨node, hnode⟩ := Option.isSome_iff_exists.mp hsome
  rw [isFile_iff, hshows.isDirectory hnode, hnode]
  rcases hplain.directory_or_file hnode with rfl | ⟨content, rfl⟩
  · simp
  · simp

def Chosen (layout : Layout) (patterns place : List Bytes) : Prop :=
  (∃ content, layout place = some (.file content)) ∧ ∃ pattern ∈ patterns, Fits pattern place

theorem mem_hits_simple (hshows : ws.volume.Shows layout) (hplain : layout.IsPlain)
    (hpatterns : ∀ pattern ∈ patterns, IsSimplePattern pattern) {file : File} :
    file ∈ patterns.flatMap ws.hits ↔
      ∃ place, Chosen layout patterns place ∧ file = ws.file (relative place) := by
  rw [mem_flatMap_hits]
  constructor
  · rintro ⟨relPath, hrel, hfile, rfl⟩
    obtain ⟨pattern, hpattern, hrel⟩ := List.mem_flatMap.mp hrel
    obtain ⟨place, hfits, hsome, rfl⟩ :=
      (mem_expanded_simple hshows hplain (hpatterns pattern hpattern)).mp hrel
    have hcontent := (isFile_relative hshows hplain hsome).mp hfile
    exact ⟨place, ⟨hcontent, pattern, hpattern, hfits⟩, rfl⟩
  · rintro ⟨place, ⟨⟨content, hcontent⟩, pattern, hpattern, hfits⟩, rfl⟩
    have hsome : (layout place).isSome = true := by simp [hcontent]
    refine ⟨relative place, List.mem_flatMap.mpr ⟨pattern, hpattern, ?_⟩, ?_, rfl⟩
    · exact (mem_expanded_simple hshows hplain (hpatterns pattern hpattern)).mpr
        ⟨place, hfits, hsome, rfl⟩
    · exact (isFile_relative hshows hplain hsome).mpr ⟨content, hcontent⟩

-- In a plain layout no two places share a path, so that nothing is taken for a repetition.
theorem mem_locate_simple (hshows : ws.volume.Shows layout) (hplain : layout.IsPlain)
    (hpatterns : ∀ pattern ∈ patterns, IsSimplePattern pattern) {files : List File}
    (hfiles : ws.locate patterns = .ok files) (file : File) :
    file ∈ files ↔ ∃ place, Chosen layout patterns place ∧ file = ws.file (relative place) := by
  rw [mem_locate hfiles, ← mem_hits_simple hshows hplain hpatterns]
  refine ⟨List.mem_of_find?_eq_some, fun hmem => ?_⟩
  have hsome : ((patterns.flatMap ws.hits).find? (·.path == file.path)).isSome = true :=
    List.find?_isSome.mpr ⟨file, hmem, by simp⟩
  obtain ⟨other, hother⟩ := Option.isSome_iff_exists.mp hsome
  have hpath : other.path = file.path := by simpa using List.find?_some hother
  obtain ⟨place, ⟨⟨_, hplace⟩, -⟩, rfl⟩ := (mem_hits_simple hshows hplain hpatterns).mp hmem
  obtain ⟨first, ⟨⟨_, hfirst⟩, -⟩, rfl⟩ :=
    (mem_hits_simple hshows hplain hpatterns).mp (List.mem_of_find?_eq_some hother)
  have hsame := (join_relative_inj (hplain.isPlace hfirst) (hplain.isPlace hplace)).mp hpath
  rwa [hsame] at hother

-- The places that are checked: what is called `interactive.` something right below a topic,
-- and what ends in `.js` among the widgets of a topic.
def IsChecked (place : List Bytes) : Prop :=
  (∃ topic rest, place = [utf8 "topics", topic, utf8 "interactive." ++ rest]) ∨
    ∃ topic stem, place = [utf8 "topics", topic, utf8 "widgets", stem ++ utf8 ".js"]

theorem patterns_simple : ∀ pattern ∈ Workspace.patterns, IsSimplePattern pattern := by
  decide +kernel

theorem fits_interactive (hplace : IsPlace place) :
    Fits (utf8 "topics/*/interactive.*") place ↔
      ∃ topic rest, place = [utf8 "topics", topic, utf8 "interactive." ++ rest] := by
  have hparts : partsBy slash (utf8 "topics/*/interactive.*") =
      [utf8 "topics", [star], utf8 "interactive." ++ [star]] := by decide
  rw [Fits, hparts]
  constructor
  · intro h
    obtain ⟨top, _, htop, hbelow, rfl⟩ := List.forall₂_cons_left_iff.mp h
    obtain ⟨topic, _, -, hlast, rfl⟩ := List.forall₂_cons_left_iff.mp hbelow
    obtain ⟨name, _, hname, hnil, rfl⟩ := List.forall₂_cons_left_iff.mp hlast
    obtain rfl := List.forall₂_nil_left_iff.mp hnil
    obtain rfl := (spells_of_notMem (by decide)).mp htop
    obtain ⟨rest, rfl⟩ :=
      (spells_word_star (by decide) (hplace name (by simp)).slash_notMem).mp hname
    exact ⟨topic, rest, rfl⟩
  · rintro ⟨topic, rest, rfl⟩
    have htopic := (hplace topic (by simp)).slash_notMem
    have hname := (hplace (utf8 "interactive." ++ rest) (by simp)).slash_notMem
    refine .cons ((spells_of_notMem (by decide)).mpr rfl)
      (.cons (spells_singleton_star.mpr htopic) (.cons ?_ .nil))
    exact (spells_word_star (by decide) hname).mpr ⟨rest, rfl⟩

theorem fits_widget (hplace : IsPlace place) :
    Fits (utf8 "topics/*/widgets/*.js") place ↔
      ∃ topic stem, place = [utf8 "topics", topic, utf8 "widgets", stem ++ utf8 ".js"] := by
  have hparts : partsBy slash (utf8 "topics/*/widgets/*.js") =
      [utf8 "topics", [star], utf8 "widgets", star :: utf8 ".js"] := by decide
  rw [Fits, hparts]
  constructor
  · intro h
    obtain ⟨top, _, htop, hbelow, rfl⟩ := List.forall₂_cons_left_iff.mp h
    obtain ⟨topic, _, -, htopic, rfl⟩ := List.forall₂_cons_left_iff.mp hbelow
    obtain ⟨widgets, _, hwidgets, hlast, rfl⟩ := List.forall₂_cons_left_iff.mp htopic
    obtain ⟨name, _, hname, hnil, rfl⟩ := List.forall₂_cons_left_iff.mp hlast
    obtain rfl := List.forall₂_nil_left_iff.mp hnil
    obtain rfl := (spells_of_notMem (by decide)).mp htop
    obtain rfl := (spells_of_notMem (by decide)).mp hwidgets
    obtain ⟨stem, rfl⟩ :=
      (spells_star_word (by decide) (hplace name (by simp)).slash_notMem).mp hname
    exact ⟨topic, stem, rfl⟩
  · rintro ⟨topic, stem, rfl⟩
    have htopic := (hplace topic (by simp)).slash_notMem
    have hname := (hplace (stem ++ utf8 ".js") (by simp)).slash_notMem
    refine .cons ((spells_of_notMem (by decide)).mpr rfl)
      (.cons (spells_singleton_star.mpr htopic)
        (.cons ((spells_of_notMem (by decide)).mpr rfl) (.cons ?_ .nil)))
    exact (spells_star_word (by decide) hname).mpr ⟨stem, rfl⟩

theorem fits_patterns_iff (hplace : IsPlace place) :
    (∃ pattern ∈ Workspace.patterns, Fits pattern place) ↔ IsChecked place := by
  simp [Workspace.patterns, fits_interactive hplace, fits_widget hplace, IsChecked]

theorem exists_locate_patterns (hshows : ws.volume.Shows layout) (hplain : layout.IsPlain) :
    ∃ files, ws.locate Workspace.patterns = .ok files :=
  exists_locate_ok_iff.mpr fun pattern hpattern =>
    answers_simple hshows hplain (patterns_simple pattern hpattern)

theorem mem_locate_patterns (hshows : ws.volume.Shows layout) (hplain : layout.IsPlain)
    {files : List File} (hfiles : ws.locate Workspace.patterns = .ok files) (file : File) :
    file ∈ files ↔ ∃ place content, layout place = some (.file content) ∧ IsChecked place ∧
      file = ws.file (relative place) := by
  rw [mem_locate_simple hshows hplain patterns_simple hfiles]
  constructor
  · rintro ⟨place, ⟨⟨content, hcontent⟩, hfits⟩, rfl⟩
    exact ⟨place, content, hcontent, (fits_patterns_iff (hplain.isPlace hcontent)).mp hfits, rfl⟩
  · rintro ⟨place, content, hcontent, hchecked, rfl⟩
    exact ⟨place, ⟨⟨content, hcontent⟩,
      (fits_patterns_iff (hplain.isPlace hcontent)).mpr hchecked⟩, rfl⟩

theorem path_of_mem_locate {files : List File} {file : File} (h : ws.locate patterns = .ok files)
    (hfile : file ∈ files) : file.path = Path.join ws.root file.relPath :=
  (first_of_mem_locate h hfile).1.2.symm

theorem relPaths_nodup {files : List File} (h : ws.locate patterns = .ok files) :
    (files.map (·.relPath)).Nodup := by
  refine List.pairwise_map.mpr ((locate_ascending h).imp_of_mem fun {a b} ha hb hlt heq => ?_)
  rw [path_of_mem_locate h ha, path_of_mem_locate h hb, heq] at hlt
  exact List.lt_irrefl _ hlt

-- In a tree of regular files and directories exactly the files at the places to check are
-- located: each once, sorted by path, under the path it has below the root.
theorem locate_patterns {tree : Tree} (hplain : tree.IsPlain) (root : Bytes) :
    ∃ files, (Workspace.mk root (Sandbox.volume tree)).locate Workspace.patterns = .ok files ∧
      (∀ file, file ∈ files ↔ ∃ place content, tree.get? place = some (.file content) ∧
        IsChecked place ∧ file = ⟨Path.join root (relative place), relative place⟩) ∧
      files.Pairwise (fun a b => a.path < b.path) ∧ (files.map (·.relPath)).Nodup := by
  have hshows : (Workspace.mk root (Sandbox.volume tree)).volume.Shows tree.get? :=
    Sandbox.shows hplain
  obtain ⟨files, hfiles⟩ := exists_locate_patterns hshows hplain.toIsPlain
  exact ⟨files, hfiles, mem_locate_patterns hshows hplain.toIsPlain hfiles,
    locate_ascending hfiles, relPaths_nodup hfiles⟩

-- Two topics with names of which nothing but what the patterns ask for is left, and a
-- directory that is named like a file to check.
def topicTree : Tree where
  entries := [([], .directory), ([utf8 "topics"], .directory),
    ([utf8 "topics", utf8 ".a"], .directory),
    ([utf8 "topics", utf8 ".a", utf8 "interactive."], .file []),
    ([utf8 "topics", utf8 "b"], .directory),
    ([utf8 "topics", utf8 "b", utf8 "interactive.d"], .directory),
    ([utf8 "topics", utf8 "b", utf8 "widgets"], .directory),
    ([utf8 "topics", utf8 "b", utf8 "widgets", utf8 ".js"], .file [])]
  unlisted := []

theorem locate_patterns_topicTree :
    ∃ files, (Workspace.mk (utf8 "/w") (Sandbox.volume topicTree)).locate Workspace.patterns =
        .ok files ∧
      ⟨utf8 "/w/topics/.a/interactive.", utf8 "topics/.a/interactive."⟩ ∈ files ∧
      ⟨utf8 "/w/topics/b/widgets/.js", utf8 "topics/b/widgets/.js"⟩ ∈ files ∧
      ∀ file ∈ files, file.relPath ≠ utf8 "topics/b/interactive.d" := by
  have hplain : topicTree.IsPlain := by decide
  obtain ⟨files, hfiles, hmem, -⟩ := locate_patterns hplain (utf8 "/w")
  refine ⟨files, hfiles, (hmem _).mpr ?_, (hmem _).mpr ?_, fun file hfile heq => ?_⟩
  · exact ⟨[utf8 "topics", utf8 ".a", utf8 "interactive."], [], by decide,
      .inl ⟨utf8 ".a", [], rfl⟩, by decide⟩
  · exact ⟨[utf8 "topics", utf8 "b", utf8 "widgets", utf8 ".js"], [], by decide,
      .inr ⟨utf8 "b", [], rfl⟩, by decide⟩
  · obtain ⟨place, content, hcontent, -, rfl⟩ := (hmem file).mp hfile
    have hplace := congrArg components heq
    rw [components_relative (hplain.isPlace hcontent)] at hplace
    have hdirectory : topicTree.get? (components (utf8 "topics/b/interactive.d")) =
        some .directory := by decide
    simp [hplace, hdirectory] at hcontent

end ThemeLint.Workspace
