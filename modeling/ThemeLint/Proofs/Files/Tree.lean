import ThemeLint.Files.Tree
import ThemeLint.Proofs.Path
import Mathlib.Data.List.Induction
import Mathlib.Data.List.TakeWhile

namespace ThemeLint

open Bytes ThemeLint.Path

abbrev Layout := List Bytes → Option Node

namespace Layout

-- Regular files and directories, as a host keeps them: everything stands in a directory
-- under a name of its own, and there are no links.
structure IsPlain (layout : Layout) : Prop where
  root : layout [] = some .directory
  isPlace : ∀ {place node}, layout place = some node → IsPlace place
  above : ∀ {place name node}, layout (place ++ [name]) = some node → layout place = some .directory
  ne_link : ∀ {place target}, layout place ≠ some (.link target)

variable {layout : Layout} {place rest : List Bytes} {node : Node}

-- A directory holds whatever stands further down.
theorem IsPlain.directory_of_append (h : layout.IsPlain) (hnode : layout (place ++ rest) = some node)
    (hrest : rest ≠ []) : layout place = some .directory := by
  induction rest using List.reverseRecOn generalizing node with
  | nil => exact absurd rfl hrest
  | append_singleton rest name ih =>
      rw [← List.append_assoc] at hnode
      have habove := h.above hnode
      by_cases hnil : rest = []
      · simpa [hnil] using habove
      · exact ih habove hnil

theorem IsPlain.directory_of_isPrefix {other : List Bytes} (h : layout.IsPlain)
    (hnode : layout other = some node) (hle : place <+: other) (hne : place ≠ other) :
    layout place = some .directory := by
  obtain ⟨rest, rfl⟩ := hle
  exact h.directory_of_append hnode (by simpa [eq_comm] using hne)

theorem IsPlain.directory_or_file (h : layout.IsPlain) (hnode : layout place = some node) :
    node = .directory ∨ ∃ content, node = .file content := by
  cases node with
  | file content => exact .inr ⟨content, rfl⟩
  | directory => exact .inl rfl
  | link target => exact absurd hnode h.ne_link

def written (layout : Layout) (place : List Bytes) (content : Bytes) : Layout := fun other =>
  if other = place then some (.file content)
  else if other <+: place then some .directory
  else layout other

theorem written_above {content : Bytes} {other : List Bytes} (hle : other <+: place)
    (hne : other ≠ place) : written layout place content other = some .directory := by
  simp [written, hle, hne]

theorem IsPlain.written (h : layout.IsPlain) (hplace : IsPlace place)
    (hdirectory : layout place ≠ some .directory) (content : Bytes) :
    (written layout place content).IsPlain where
  root := by
    apply written_above List.nil_prefix
    rintro rfl
    exact hdirectory h.root
  isPlace {other node} hnode := by
    by_cases hle : other <+: place
    · exact fun name hname => hplace name (hle.subset hname)
    · have hne : other ≠ place := fun heq => hle (heq ▸ List.prefix_rfl)
      simp only [Layout.written, hne, hle, if_false] at hnode
      exact h.isPlace hnode
  above {other name node} hnode := by
    have hshort : other <+: other ++ [name] := List.prefix_append other [name]
    by_cases hle : other ++ [name] <+: place
    · apply written_above (hshort.trans hle)
      rintro rfl
      have hlength := hle.length_le
      rw [List.length_append, List.length_singleton] at hlength
      omega
    · have hne : other ++ [name] ≠ place := fun heq => hle (heq ▸ List.prefix_rfl)
      simp only [Layout.written, hne, hle, if_false] at hnode
      have habove := h.above hnode
      by_cases hother : other <+: place
      · apply written_above hother
        rintro rfl
        exact hdirectory habove
      · have hother' : other ≠ place := fun heq => hother (heq ▸ List.prefix_rfl)
        simp [Layout.written, hother, hother', habove]
  ne_link {other target} := by
    unfold Layout.written
    split
    · simp
    · split
      · simp
      · exact h.ne_link

end Layout

-- A store that answers for every place as a layout has it. What it says of a path that
-- names no place, or of the kind of a node that is missing, is left open.
structure Volume.Shows (volume : Volume) (layout : Layout) : Prop where
  isPresent : ∀ {place}, IsPlace place →
    volume.isPresent (relative place) = (layout place).isSome
  isDirectory : ∀ {place node}, layout place = some node →
    volume.isDirectory (relative place) = .ok (node == .directory)
  mem_names : ∀ {place name}, layout place = some .directory →
    (name ∈ volume.names (relative place) ↔ (layout (place ++ [name])).isSome = true)
  read : ∀ {place content}, layout place = some (.file content) →
    volume.read (relative place) = .ok content

namespace Tree

variable {tree : Tree} {path place : List Bytes} {node : Node}

-- A tree of regular files and directories, in which nothing is kept out of the listings.
structure IsPlain (tree : Tree) : Prop extends Layout.IsPlain tree.get? where
  unlisted : tree.unlisted = []

theorem lookup_cons_of_ne {other : List Bytes} {entries : List (List Bytes × Node)}
    (h : place ≠ other) : ((other, node) :: entries).lookup place = entries.lookup place := by
  simp [List.lookup_cons, beq_false_of_ne h]

theorem isSome_get? : (tree.get? place).isSome = true ↔ ∃ entry ∈ tree.entries, entry.1 = place := by
  unfold get?
  induction tree.entries with
  | nil => simp
  | cons entry rest ih =>
      by_cases heq : place = entry.1
      · simp [heq]
      · rw [lookup_cons_of_ne heq, ih]
        simp [Ne.symm heq]

-- To tell whether a tree is plain, it is enough to look at its entries.
theorem isPlain_iff : tree.IsPlain ↔
    tree.unlisted = [] ∧ tree.get? [] = some .directory ∧ ∀ entry ∈ tree.entries,
      IsPlace entry.1 ∧ (entry.1 ≠ [] → tree.get? entry.1.dropLast = some .directory) ∧
        (tree.get? entry.1 = some .directory ∨
          (tree.get? entry.1).any fun node => node matches .file _) := by
  constructor
  · intro h
    refine ⟨h.unlisted, h.root, fun entry hentry => ?_⟩
    obtain ⟨node, hnode⟩ := Option.isSome_iff_exists.mp (isSome_get?.mpr ⟨entry, hentry, rfl⟩)
    refine ⟨h.isPlace hnode, fun hne => ?_, ?_⟩
    · rw [← List.dropLast_concat_getLast hne] at hnode
      exact h.above hnode
    · rcases h.directory_or_file hnode with rfl | ⟨content, rfl⟩
      · exact .inl hnode
      · exact .inr (by simp [hnode])
  · rintro ⟨hlisted, hroot, hentries⟩
    have hentry {place : List Bytes} {node : Node} (hnode : tree.get? place = some node) :
        ∃ entry ∈ tree.entries, entry.1 = place := isSome_get?.mp (by simp [hnode])
    refine ⟨⟨hroot, fun hnode => ?_, fun hnode => ?_, fun hnode => ?_⟩, hlisted⟩
    · obtain ⟨entry, hmem, rfl⟩ := hentry hnode
      exact (hentries entry hmem).1
    · obtain ⟨entry, hmem, heq⟩ := hentry hnode
      have habove := (hentries entry hmem).2.1 (by simp [heq])
      simpa [heq] using habove
    · obtain ⟨entry, hmem, rfl⟩ := hentry hnode
      have hkind := (hentries entry hmem).2.2
      simp [hnode] at hkind

instance (tree : Tree) : Decidable tree.IsPlain := decidable_of_iff _ isPlain_iff.symm

theorem mem_children (hlisted : tree.unlisted = []) {name : Bytes} :
    name ∈ tree.children place ↔ (tree.get? (place ++ [name])).isSome = true := by
  rw [isSome_get?, children, List.mem_filterMap]
  refine exists_congr fun entry => and_congr_right fun _ => ?_
  obtain ⟨other, node⟩ := entry
  cases other using List.reverseRecOn with
  | nil => simp
  | append_singleton other last => simp [hlisted, and_comm]

theorem lookup_replace (entries : List (List Bytes × Node)) (path place : List Bytes) (node : Node) :
    (entries.map fun entry => if entry.1 = path then (path, node) else entry).lookup place =
      if place = path then (entries.lookup path).map fun _ => node else entries.lookup place := by
  induction entries with
  | nil => simp
  | cons entry rest ih =>
      obtain ⟨other, old⟩ := entry
      rw [List.map_cons]
      by_cases hother : other = path
      · subst hother
        rw [if_pos rfl]
        by_cases hplace : place = other
        · simp [hplace]
        · rw [lookup_cons_of_ne hplace, ih, lookup_cons_of_ne hplace, if_neg hplace, if_neg hplace]
      · rw [if_neg hother]
        by_cases hplace : place = other
        · have hpath : place ≠ path := by simpa [hplace] using hother
          simp [hplace, hother]
        · rw [lookup_cons_of_ne hplace, ih, lookup_cons_of_ne hplace,
            lookup_cons_of_ne (Ne.symm hother)]

theorem get?_put (tree : Tree) (path place : List Bytes) (node : Node) :
    (tree.put path node).get? place = if place = path then some node else tree.get? place := by
  unfold put
  split
  · rename_i hsome
    obtain ⟨old, hold⟩ := Option.isSome_iff_exists.mp hsome
    unfold get? at hold ⊢
    rw [lookup_replace, hold]
    rfl
  · rename_i hnone
    rw [Option.isSome_iff_ne_none, ne_eq, Classical.not_not] at hnone
    unfold get? at hnone ⊢
    rw [List.lookup_append]
    by_cases hplace : place = path
    · subst hplace
      simp [hnone]
    · rw [lookup_cons_of_ne hplace]
      simp [hplace]

@[simp] theorem unlisted_put (tree : Tree) (path : List Bytes) (node : Node) :
    (tree.put path node).unlisted = tree.unlisted := by
  unfold put
  split <;> rfl

theorem get?_foldr_put (tree : Tree) (paths : List (List Bytes)) (place : List Bytes) (node : Node) :
    (paths.foldr (fun path tree => tree.put path node) tree).get? place =
      if place ∈ paths then some node else tree.get? place := by
  induction paths with
  | nil => simp
  | cons path paths ih =>
      rw [List.foldr_cons, get?_put, ih]
      by_cases hplace : place = path <;> simp [hplace]

theorem unlisted_foldr_put (tree : Tree) (paths : List (List Bytes)) (node : Node) :
    (paths.foldr (fun path tree => tree.put path node) tree).unlisted = tree.unlisted := by
  induction paths with
  | nil => rfl
  | cons path paths ih => rw [List.foldr_cons, unlisted_put, ih]

theorem mem_above : place ∈ above path ↔ place <+: path ∧ place ≠ path := by
  unfold above
  simp only [List.mem_map, List.mem_reverse, List.mem_range]
  constructor
  · rintro ⟨n, hn, rfl⟩
    refine ⟨List.take_prefix n path, fun heq => ?_⟩
    have hlength := congrArg List.length heq
    rw [List.length_take] at hlength
    omega
  · rintro ⟨hle, hne⟩
    refine ⟨place.length, ?_, (List.prefix_iff_eq_take.mp hle).symm⟩
    exact Nat.lt_of_le_of_ne hle.length_le fun heq => hne (hle.eq_of_length heq)

theorem above_descending (path : List Bytes) :
    (path :: above path).Pairwise fun a b => b <+: a := by
  refine List.pairwise_cons.mpr ⟨fun place hplace => (mem_above.mp hplace).1, ?_⟩
  unfold above
  rw [List.pairwise_map, List.pairwise_reverse]
  exact List.pairwise_lt_range.imp fun hlt => List.take_prefix_take_left (Nat.le_of_lt hlt)

theorem mem_self_above : place ∈ path :: above path ↔ place <+: path := by
  rw [List.mem_cons, mem_above]
  constructor
  · rintro (rfl | ⟨hle, -⟩)
    · exact List.prefix_rfl
    · exact hle
  · intro hle
    by_cases heq : place = path
    · exact .inl heq
    · exact .inr ⟨hle, heq⟩

-- The search for missing directories goes up until something stands there.
theorem exists_of_notMem_missing (hle : place <+: path) (hmissing : place ∉ tree.missing path) :
    ∃ stop node, tree.get? stop = some node ∧ place <+: stop ∧ stop <+: path := by
  have hmem := mem_self_above.mpr hle
  have hdescending := above_descending path
  have hhead := List.head?_dropWhile_not (fun place => (tree.get? place).isNone)
    (path :: above path)
  rw [← List.takeWhile_append_dropWhile (p := fun place => (tree.get? place).isNone)
    (l := path :: above path)] at hmem hdescending
  have hdrop := (List.mem_append.mp hmem).resolve_left hmissing
  have hpairwise := (List.pairwise_append.mp hdescending).2.1
  have hsub := (List.dropWhile_suffix (l := path :: above path)
    fun place => (tree.get? place).isNone).subset
  cases hstop : (path :: above path).dropWhile fun place => (tree.get? place).isNone with
  | nil => simp [hstop] at hdrop
  | cons stop rest =>
      rw [hstop] at hdrop hhead hpairwise hsub
      obtain ⟨node, hnode⟩ : ∃ node, tree.get? stop = some node := by
        simpa [Option.isNone_eq_false_iff, Option.isSome_iff_exists] using hhead
      refine ⟨stop, node, hnode, ?_, mem_self_above.mp (hsub (by simp))⟩
      rcases List.mem_cons.mp hdrop with rfl | hrest
      · exact List.prefix_rfl
      · exact (List.pairwise_cons.mp hpairwise).1 place hrest

def IsOpen (tree : Tree) (path : List Bytes) : Prop :=
  ∀ {place content}, place <+: path → place ≠ path → tree.get? place ≠ some (.file content)

theorem isOpen_iff : tree.IsOpen path ↔
    ∀ place ∈ above path, (tree.get? place).all fun node => !(node matches .file _) := by
  simp only [mem_above, and_imp]
  constructor
  · intro h place hle hne
    cases hnode : tree.get? place with
    | none => rfl
    | some node =>
        cases node with
        | file content => exact absurd hnode (h hle hne)
        | directory => rfl
        | link target => rfl
  · intro h place content hle hne hfile
    have hkind := h place hle hne
    simp [hfile] at hkind

instance (tree : Tree) (path : List Bytes) : Decidable (tree.IsOpen path) :=
  decidable_of_iff _ isOpen_iff.symm

theorem IsPlain.directory_of_notMem_missing (h : tree.IsPlain) (hopen : tree.IsOpen path)
    (hle : place <+: path) (hne : place ≠ path) (hmissing : place ∉ tree.missing path) :
    tree.get? place = some .directory := by
  obtain ⟨stop, node, hnode, hplace, -⟩ := exists_of_notMem_missing hle hmissing
  by_cases heq : place = stop
  · subst heq
    rcases h.directory_or_file hnode with rfl | ⟨content, rfl⟩
    · exact hnode
    · exact absurd hnode (hopen hle hne)
  · exact h.directory_of_isPrefix hnode hplace heq

theorem IsPlain.ground? (h : tree.IsPlain) (hopen : tree.IsOpen path) :
    tree.ground? path = none ∨ tree.ground? path = some .directory := by
  unfold Tree.ground?
  cases hground : (above path).findSome? tree.get? with
  | none => exact .inl rfl
  | some node =>
      obtain ⟨place, hmem, hnode⟩ := List.exists_of_findSome?_eq_some hground
      obtain ⟨hle, hne⟩ := mem_above.mp hmem
      rcases h.directory_or_file hnode with rfl | ⟨content, rfl⟩
      · exact .inr rfl
      · exact absurd hnode (hopen hle hne)

theorem IsPlain.add_eq (h : tree.IsPlain) (hopen : tree.IsOpen path) (node : Node) :
    tree.add path node =
      (((tree.missing path).drop 1).foldr (fun place tree => tree.put place .directory) tree).put
        path node := by
  rcases h.ground? hopen with hground | hground <;> simp [add, hground]

-- A new node brings the directories above it and changes nothing else.
theorem IsPlain.get?_add (h : tree.IsPlain) (hopen : tree.IsOpen path)
    (hnone : tree.get? path = none) (node : Node) (place : List Bytes) :
    (tree.add path node).get? place =
      if place = path then some node
      else if place <+: path then some .directory
      else tree.get? place := by
  have hmissing : tree.missing path = path :: (tree.missing path).drop 1 := by
    simp [missing, hnone]
  rw [h.add_eq hopen, get?_put, get?_foldr_put]
  by_cases heq : place = path
  · rw [if_pos heq, if_pos heq]
  · rw [if_neg heq, if_neg heq]
    by_cases hle : place <+: path
    · rw [if_pos hle]
      split
      · rfl
      · rename_i hdrop
        apply h.directory_of_notMem_missing hopen hle heq
        rw [hmissing, List.mem_cons, not_or]
        exact ⟨heq, hdrop⟩
    · rw [if_neg hle, if_neg]
      intro hdrop
      have hmem : place ∈ tree.missing path := List.mem_of_mem_drop hdrop
      exact hle (mem_self_above.mp ((List.takeWhile_prefix _).subset hmem))

end Tree

end ThemeLint
