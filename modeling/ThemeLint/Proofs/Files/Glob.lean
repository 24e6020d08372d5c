import ThemeLint.Files.Glob
import ThemeLint.Proofs.Files.NamePattern
import ThemeLint.Proofs.Files.Tree

namespace ThemeLint

section Traversal

variable {α β ε : Type}

theorem mapM_cons_ok {f : α → Except ε β} {x : α} {xs : List α} {y : β} {ys : List β}
    (hx : f x = .ok y) (hxs : xs.mapM f = .ok ys) : (x :: xs).mapM f = .ok (y :: ys) := by
  rw [List.mapM_cons, hx, hxs]
  rfl

theorem mapM_eq_map {f : α → Except ε β} {g : α → β} {xs : List α}
    (h : ∀ x ∈ xs, f x = .ok (g x)) : xs.mapM f = .ok (xs.map g) := by
  induction xs with
  | nil => rfl
  | cons x xs ih =>
      obtain ⟨hx, hxs⟩ := List.forall_mem_cons.mp h
      exact mapM_cons_ok hx (ih hxs)

theorem mapM_eq_error {f : α → Except ε β} {xs : List α}
    (h : ∃ x ∈ xs, ∃ cause, f x = .error cause) : ∃ cause, xs.mapM f = .error cause := by
  induction xs with
  | nil => simp at h
  | cons x xs ih =>
      rw [List.mapM_cons]
      cases hx : f x with
      | error cause => exact ⟨cause, rfl⟩
      | ok y =>
          obtain ⟨cause, hxs⟩ := ih (by simpa [hx] using h)
          exact ⟨cause, by rw [hxs]; rfl⟩

theorem mapM_flatten {f : α → Except ε (List β)} {found : α → β → Prop} {xs : List α}
    (h : ∀ x ∈ xs, ∃ ys, f x = .ok ys ∧ ∀ y, y ∈ ys ↔ found x y) :
    ∃ yss, xs.mapM f = .ok yss ∧ ∀ y, y ∈ yss.flatten ↔ ∃ x ∈ xs, found x y := by
  induction xs with
  | nil => exact ⟨[], rfl, by simp⟩
  | cons x xs ih =>
      obtain ⟨⟨ys, hx, hys⟩, hrest⟩ := List.forall_mem_cons.mp h
      obtain ⟨yss, hxs, hyss⟩ := ih hrest
      exact ⟨ys :: yss, mapM_cons_ok hx hxs, fun y => by simp [hys, hyss]⟩

theorem filterAuxM_of_isSome {f : α → Option Bool} {xs : List α} (acc : List α)
    (h : ∀ x ∈ xs, (f x).isSome = true) :
    xs.filterAuxM f acc = some ((xs.filter fun x => f x == some true).reverse ++ acc) := by
  induction xs generalizing acc with
  | nil => rfl
  | cons x xs ih =>
      obtain ⟨hx, hxs⟩ := List.forall_mem_cons.mp h
      obtain ⟨keep, hkeep⟩ := Option.isSome_iff_exists.mp hx
      rw [List.filterAuxM, hkeep]
      cases keep <;> simp [ih _ hxs, hkeep]

theorem filterM_of_isSome {f : α → Option Bool} {xs : List α} (h : ∀ x ∈ xs, (f x).isSome = true) :
    xs.filterM f = some (xs.filter fun x => f x == some true) := by
  simp [List.filterM, filterAuxM_of_isSome [] h]

end Traversal

namespace Glob

open Bytes ThemeLint.Path NamePattern

-- The parts of a path pattern whose names are simple patterns. No part leads up or stays.
def IsSimplePath (parts : List Bytes) : Prop := ∀ part ∈ parts, IsName part ∧ IsSimple part

instance (parts : List Bytes) : Decidable (IsSimplePath parts) :=
  inferInstanceAs (Decidable (∀ part ∈ parts, IsName part ∧ IsSimple part))

variable {volume : Volume} {layout : Layout} {place parts : List Bytes}

theorem inDirectory_simple (hshows : volume.Shows layout) (hplain : layout.IsPlain)
    {node : Node} {pattern : Bytes} (hnode : layout place = some node) (hsimple : IsSimple pattern) :
    ∃ found, inDirectory volume (relative place) pattern = .ok found ∧
      ∀ path, path ∈ found ↔ ∃ name, Spells pattern name ∧
        (layout (place ++ [name])).isSome = true ∧ path = relative (place ++ [name]) := by
  unfold inDirectory
  rw [hshows.isDirectory hnode]
  by_cases hdirectory : node = .directory
  · subst hdirectory
    have hanswers : ∀ name ∈ (volume.names (relative place)).mergeSort fun a b => decide (a ≤ b),
        (fits? (parse pattern) name).isSome = true := by
      intro name _
      obtain ⟨fit, hfit, -⟩ := decides_parse hsimple name
      simp [hfit]
    simp only [beq_self_eq_true, filterM_of_isSome hanswers]
    refine ⟨_, rfl, fun path => ?_⟩
    simp only [List.mem_map, List.mem_filter, List.mem_mergeSort, hshows.mem_names hnode, beq_iff_eq,
      fits?_parse_iff hsimple]
    have hjoin {name : Bytes} (h : (layout (place ++ [name])).isSome = true) :
        join (relative place) name = relative (place ++ [name]) := by
      obtain ⟨child, hchild⟩ := Option.isSome_iff_exists.mp h
      have hplace := isPlace_append.mp (hplain.isPlace hchild)
      exact join_relative_name hplace.1 (isPlace_singleton.mp hplace.2)
    constructor
    · rintro ⟨name, ⟨hname, hspells⟩, rfl⟩
      exact ⟨name, hspells, hname, hjoin hname⟩
    · rintro ⟨name, hspells, hname, rfl⟩
      exact ⟨name, ⟨hname, hspells⟩, hjoin hname⟩
  · have hfalse : (node == Node.directory) = false := by simpa using hdirectory
    simp only [hfalse]
    refine ⟨[], rfl, fun path => ?_⟩
    simp only [List.not_mem_nil, false_iff]
    rintro ⟨name, -, hname, -⟩
    obtain ⟨child, hchild⟩ := Option.isSome_iff_exists.mp hname
    have habove := hplain.above hchild
    rw [hnode, Option.some.injEq] at habove
    exact hdirectory habove

-- A path at which something stands, every name on the way to it fitting its part.
def Reaches (layout : Layout) (parts : List Bytes) (path : Bytes) : Prop :=
  ∃ place, List.Forall₂ Spells parts place ∧ (layout place).isSome = true ∧ path = relative place

theorem forall₂_append_singleton {parents : List Bytes} {last : Bytes} :
    List.Forall₂ Spells (parents ++ [last]) place ↔
      ∃ above name, place = above ++ [name] ∧ List.Forall₂ Spells parents above ∧
        Spells last name := by
  induction parents generalizing place with
  | nil =>
      constructor
      · intro h
        obtain ⟨name, rest, hname, hrest, rfl⟩ := List.forall₂_cons_left_iff.mp h
        obtain rfl := List.forall₂_nil_left_iff.mp hrest
        exact ⟨[], name, rfl, .nil, hname⟩
      · rintro ⟨above, name, rfl, habove, hname⟩
        obtain rfl := List.forall₂_nil_left_iff.mp habove
        exact .cons hname .nil
  | cons part parents ih =>
      constructor
      · intro h
        obtain ⟨first, rest, hfirst, hrest, rfl⟩ := List.forall₂_cons_left_iff.mp h
        obtain ⟨above, name, rfl, habove, hname⟩ := ih.mp hrest
        exact ⟨first :: above, name, rfl, .cons hfirst habove, hname⟩
      · rintro ⟨_, name, rfl, hall, hname⟩
        obtain ⟨first, above, hfirst, habove, rfl⟩ := List.forall₂_cons_left_iff.mp hall
        exact .cons hfirst (ih.mpr ⟨above, name, rfl, habove, hname⟩)

theorem isPlace_of_isSome (hplain : layout.IsPlain) (h : (layout place).isSome = true) :
    IsPlace place := by
  obtain ⟨node, hnode⟩ := Option.isSome_iff_exists.mp h
  exact hplain.isPlace hnode

-- One level further down: the entries of the directories reached so far.
theorem mapM_inDirectory (hshows : volume.Shows layout) (hplain : layout.IsPlain)
    {parents directories : List Bytes} {last : Bytes} (hsimple : IsSimple last)
    (hdirectories : ∀ path, path ∈ directories ↔ Reaches layout parents path) :
    ∃ found, directories.mapM (inDirectory volume · last) = .ok found ∧
      ∀ path, path ∈ found.flatten ↔ Reaches layout (parents ++ [last]) path := by
  have hstep : ∀ directory ∈ directories, ∃ found, inDirectory volume directory last = .ok found ∧
      ∀ path, path ∈ found ↔ ∃ above name, directory = relative above ∧ Spells last name ∧
        (layout (above ++ [name])).isSome = true ∧ path = relative (above ++ [name]) := by
    intro directory hmem
    obtain ⟨above, -, hsome, rfl⟩ := (hdirectories directory).mp hmem
    obtain ⟨node, hnode⟩ := Option.isSome_iff_exists.mp hsome
    obtain ⟨found, hfound, hiff⟩ := inDirectory_simple hshows hplain hnode hsimple
    refine ⟨found, hfound, fun path => (hiff path).trans ?_⟩
    constructor
    · rintro ⟨name, hname⟩
      exact ⟨above, name, rfl, hname⟩
    · rintro ⟨other, name, heq, hspells, hchild, hpath⟩
      have hother := (isPlace_append.mp (isPlace_of_isSome hplain hchild)).1
      obtain rfl := (relative_inj (hplain.isPlace hnode) hother).mp heq
      exact ⟨name, hspells, hchild, hpath⟩
  obtain ⟨found, hfound, hiff⟩ := mapM_flatten hstep
  refine ⟨found, hfound, fun path => (hiff path).trans ?_⟩
  constructor
  · rintro ⟨_, hmem, above, name, rfl, hspells, hchild, rfl⟩
    obtain ⟨other, hfits, hsome, heq⟩ := (hdirectories _).mp hmem
    have habove := (isPlace_append.mp (isPlace_of_isSome hplain hchild)).1
    obtain rfl := (relative_inj habove (isPlace_of_isSome hplain hsome)).mp heq
    exact ⟨above ++ [name], forall₂_append_singleton.mpr ⟨above, name, rfl, hfits, hspells⟩,
      hchild, rfl⟩
  · rintro ⟨_, hfits, hsome, rfl⟩
    obtain ⟨above, name, rfl, habove, hname⟩ := forall₂_append_singleton.mp hfits
    obtain ⟨node, hnode⟩ := Option.isSome_iff_exists.mp hsome
    have hdirectory : (layout above).isSome = true := by simp [hplain.above hnode]
    exact ⟨relative above, (hdirectories _).mpr ⟨above, habove, hdirectory, rfl⟩, above, name, rfl,
      hname, hsome, rfl⟩

theorem forall₂_spells_of_notMem (h : ∀ part ∈ parts, star ∉ part) :
    List.Forall₂ Spells parts place ↔ place = parts := by
  induction parts generalizing place with
  | nil => exact List.forall₂_nil_left_iff
  | cons part parts ih =>
      obtain ⟨hpart, hparts⟩ := List.forall_mem_cons.mp h
      rw [List.forall₂_cons_left_iff]
      constructor
      · rintro ⟨name, rest, hname, hrest, rfl⟩
        rw [(spells_of_notMem hpart).mp hname, (ih hparts).mp hrest]
      · rintro rfl
        exact ⟨part, parts, (spells_of_notMem hpart).mpr rfl, (ih hparts).mpr rfl, rfl⟩

theorem star_notMem_of_hasMeta (hmeta : hasMeta (joinWith [slash] parts) = false) :
    ∀ part ∈ parts, star ∉ part := by
  intro part hpart hstar
  have hnone := List.any_eq_false.mp hmeta star (mem_joinWith hpart hstar)
  exact hnone (by decide)

theorem mem_literal (hshows : volume.Shows layout) (hne : parts ≠ []) (hparts : IsPlace parts)
    (hstar : ∀ part ∈ parts, star ∉ part) (path : Bytes) :
    path ∈ literal volume (joinWith [slash] parts) ↔ Reaches layout parts path := by
  have hrelative : joinWith [slash] parts = relative parts := by simp [relative, hne]
  have hpresent := hshows.isPresent hparts
  unfold literal Reaches
  rw [hrelative, hpresent]
  constructor
  · intro h
    split at h
    · rename_i hsome
      exact ⟨parts, (forall₂_spells_of_notMem hstar).mpr rfl, hsome, List.mem_singleton.mp h⟩
    · simp at h
  · rintro ⟨place, hfits, hsome, rfl⟩
    obtain rfl := (forall₂_spells_of_notMem hstar).mp hfits
    simp [hsome]

theorem mem_literal_here (hshows : volume.Shows layout) (hplain : layout.IsPlain) (path : Bytes) :
    path ∈ literal volume here ↔ Reaches layout [] path := by
  have hpresent : volume.isPresent here = true := by
    have hroot := hshows.isPresent (List.forall_mem_nil _)
    rwa [hplain.root] at hroot
  unfold literal Reaches
  rw [if_pos hpresent, List.mem_singleton]
  constructor
  · rintro rfl
    exact ⟨[], .nil, by simp [hplain.root], rfl⟩
  · rintro ⟨place, hfits, -, rfl⟩
    obtain rfl := List.forall₂_nil_left_iff.mp hfits
    rfl

-- The paths that fit the parts of a pattern, one level of the tree for each part.
theorem expandParts_simple (hshows : volume.Shows layout) (hplain : layout.IsPlain)
    (hne : parts ≠ []) (hparts : IsSimplePath parts) :
    ∃ found, expandParts volume parts.reverse = .ok found ∧
      ∀ path, path ∈ found ↔ Reaches layout parts path := by
  induction parts using List.reverseRecOn with
  | nil => exact absurd rfl hne
  | append_singleton parents last ih =>
      obtain ⟨hparents, hlast⟩ := List.forall_mem_append.mp hparts
      obtain ⟨hname, hsimple⟩ := hlast last (by simp)
      have hplace : IsPlace (parents ++ [last]) := fun part hpart => (hparts part hpart).1
      rw [List.reverse_append, List.reverse_singleton, List.singleton_append, expandParts]
      simp only [List.reverse_cons, List.reverse_reverse]
      cases hmeta : hasMeta (joinWith [slash] (parents ++ [last])) with
      | false => exact ⟨_, rfl, mem_literal hshows hne hplace (star_notMem_of_hasMeta hmeta)⟩
      | true =>
          by_cases hnil : parents = []
          · subst hnil
            obtain ⟨found, hfound, hiff⟩ :=
              mapM_inDirectory hshows hplain hsimple (mem_literal_here hshows hplain)
            exact ⟨found.flatten, by simp [hfound, Except.map], hiff⟩
          · obtain ⟨directories, hexpand, hdirectories⟩ := ih hnil hparents
            obtain ⟨found, hfound, hiff⟩ := mapM_inDirectory hshows hplain hsimple hdirectories
            have hroot : parents.reverse ≠ [[]] := by
              intro heq
              have hempty := hparents [] (List.mem_reverse.mp (heq ▸ by simp))
              exact hempty.1.ne_nil rfl
            refine ⟨found.flatten, ?_, hiff⟩
            simp [hnil, hname.ne_nil, hroot, hexpand, hfound, bind, Except.bind]

-- A pattern for paths below a root: stars aside, every part is the name it is.
def IsSimplePattern (pattern : Bytes) : Prop := IsSimplePath (partsBy slash pattern)

instance (pattern : Bytes) : Decidable (IsSimplePattern pattern) :=
  inferInstanceAs (Decidable (IsSimplePath (partsBy slash pattern)))

-- A place whose names fit the parts of a pattern one by one.
def Fits (pattern : Bytes) (place : List Bytes) : Prop :=
  List.Forall₂ Spells (partsBy slash pattern) place

theorem expand_simple (hshows : volume.Shows layout) (hplain : layout.IsPlain) {pattern : Bytes}
    (hpattern : IsSimplePattern pattern) :
    ∃ found, expand volume pattern = .ok found ∧ ∀ path, path ∈ found ↔
      ∃ place, Fits pattern place ∧ (layout place).isSome = true ∧ path = relative place := by
  obtain ⟨part, others, hparts⟩ := partsBy_eq_cons slash pattern
  exact expandParts_simple hshows hplain (by simp [hparts]) hpattern

theorem IsSimplePattern.isSimple {pattern : Bytes} (h : IsSimplePattern pattern) :
    IsSimple pattern := by
  intro b hb
  rw [← joinWith_partsBy slash pattern] at hb
  rcases mem_or_mem_of_mem_joinWith hb with hslash | ⟨part, hpart, hb⟩
  · rw [List.mem_singleton.mp hslash]
    decide
  · exact (h part hpart).2 b hb

-- To fit a pattern part by part is to fit it as a whole.
theorem fits_iff {pattern : Bytes} (hpattern : IsSimplePattern pattern) (hplace : IsPlace place)
    (hne : place ≠ []) : Fits pattern place ↔ fits? (parse pattern) (relative place) = some true := by
  obtain ⟨part, others, hparts⟩ := partsBy_eq_cons slash pattern
  have hslash : ∀ part ∈ partsBy slash pattern, slash ∉ part :=
    fun part hpart => (hpattern part hpart).1.slash_notMem
  have hname : ∀ name ∈ place, slash ∉ name := fun name hname => (hplace name hname).slash_notMem
  rw [fits?_parse_iff hpattern.isSimple, Fits,
    ← spells_joinWith (by simp [hparts]) hne hslash hname, joinWith_partsBy]
  simp [relative, hne]

end Glob

end ThemeLint
