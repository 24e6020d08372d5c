import ThemeLint.Files.Disk
import ThemeLint.Proofs.Files.Tree

namespace ThemeLint

open Bytes

def Layout.below (layout : Layout) (root : List Bytes) : Layout := fun place => layout (root ++ place)

theorem Layout.IsPlain.below {layout : Layout} {root : List Bytes} (h : layout.IsPlain)
    (hroot : layout root = some .directory) : (layout.below root).IsPlain where
  root := by simpa [Layout.below] using hroot
  isPlace hnode := (Path.isPlace_append.mp (h.isPlace hnode)).2
  above hnode := by
    rw [Layout.below, ← List.append_assoc] at hnode
    exact h.above hnode
  ne_link := h.ne_link

namespace Disk

variable {disk : Disk} {tree : Tree} {place root names : List Bytes} {node : Node}
  {followLast : Bool}

-- Regular files and directories, each of them at a path that the host accepts.
structure IsPlain (disk : Disk) : Prop where
  tree : disk.tree.IsPlain
  limits : ∀ entry ∈ disk.tree.entries,
    accept (Path.absolute entry.1) = .ok () ∧ ∀ name ∈ entry.1, name.length ≤ maxName

instance (disk : Disk) : Decidable disk.IsPlain :=
  decidable_of_iff (disk.tree.IsPlain ∧ ∀ entry ∈ disk.tree.entries,
    accept (Path.absolute entry.1) = .ok () ∧ ∀ name ∈ entry.1, name.length ≤ maxName)
    ⟨fun ⟨htree, hlimits⟩ => ⟨htree, hlimits⟩, fun ⟨htree, hlimits⟩ => ⟨htree, hlimits⟩⟩

theorem IsPlain.limits_of_get? (h : disk.IsPlain) (hnode : disk.tree.get? place = some node) :
    accept (Path.absolute place) = .ok () ∧ ∀ name ∈ place, name.length ≤ maxName := by
  obtain ⟨entry, hentry, rfl⟩ := Tree.isSome_get?.mp (Option.isSome_of_eq_some hnode)
  exact h.limits entry hentry

def layoutAt (disk : Disk) (root : Bytes) : Layout :=
  Layout.below disk.tree.get? (Path.components root)

theorem walk_cons {name : Bytes} (hname : Path.IsName name) (hlength : name.length ≤ maxName) :
    walk tree followLast place (name :: names) =
      match tree.get? (place ++ [name]) with
      | none => .refused .notFound
      | some .directory => walk tree followLast (place ++ [name]) names
      | some (.file _) => if names = [] then .reached (place ++ [name]) else .refused .notDirectory
      | some (.link target) =>
        if names = [] ∧ !followLast then .reached (place ++ [name])
        else .linked place target names := by
  have hmoves : ¬(name = [] ∨ name = Path.here) := by simp [hname.ne_nil, hname.ne_here]
  have hshort : ¬name.length > maxName := by omega
  exact (if_neg hmoves).trans ((if_neg hname.ne_up).trans (if_neg hshort))

-- A way leads to what stands at its end, since all that is passed on it are directories.
theorem walk_of_get? (h : tree.IsPlain) (hlength : ∀ name ∈ names, name.length ≤ maxName)
    (hnode : tree.get? (place ++ names) = some node) :
    walk tree followLast place names = .reached (place ++ names) := by
  induction names generalizing place with
  | nil => simp [walk]
  | cons name rest ih =>
      have hname : Path.IsName name := h.isPlace hnode name (by simp)
      obtain ⟨hshort, hrest⟩ := List.forall_mem_cons.mp hlength
      rw [List.append_cons] at hnode ⊢
      rw [walk_cons hname hshort]
      by_cases hlast : rest = []
      · subst hlast
        rw [List.append_nil] at hnode ⊢
        rcases h.directory_or_file hnode with rfl | ⟨content, rfl⟩
        · simp [hnode, walk]
        · simp [hnode]
      · rw [h.directory_of_append hnode hlast]
        exact ih hrest hnode

theorem walk_of_missing (followLast : Bool) (h : tree.IsPlain) (hnames : Path.IsPlace names)
    (hplace : tree.get? place = some .directory) (hnone : tree.get? (place ++ names) = none) :
    ∃ reason, walk tree followLast place names = .refused reason := by
  induction names generalizing place with
  | nil => simp [hplace] at hnone
  | cons name rest ih =>
      obtain ⟨hname, hrest⟩ := List.forall_mem_cons.mp hnames
      by_cases hshort : name.length ≤ maxName
      · rw [List.append_cons] at hnone
        rw [walk_cons hname hshort]
        cases hnode : tree.get? (place ++ [name]) with
        | none => exact ⟨_, rfl⟩
        | some node =>
            rcases h.directory_or_file hnode with rfl | ⟨content, rfl⟩
            · exact ih hrest hnode hnone
            · have hne : rest ≠ [] := by
                rintro rfl
                simp [hnode] at hnone
              simp [hne]
      · refine ⟨.nameTooLong, ?_⟩
        have hlong : name.length > maxName := by omega
        simp only [walk, hname.ne_nil, hname.ne_here, hname.ne_up, or_self, if_false, if_pos hlong]

theorem walk_absolute (hplace : Path.IsPlace place) :
    walk tree followLast [] (partsBy Path.slash (Path.absolute place)) =
      walk tree followLast [] place := by
  by_cases hnil : place = []
  · subst hnil
    rfl
  · have hparts : partsBy Path.slash (Path.absolute place) = [] :: place := by
      rw [Path.absolute, partsBy_cons_self,
        partsBy_joinWith hnil fun part hpart => (hplace part hpart).slash_notMem]
    rw [hparts, walk, if_pos (.inl rfl)]

theorem resolve_absolute (h : disk.IsPlain) (hnode : disk.tree.get? place = some node) :
    disk.resolve followLast (Path.absolute place) = .ok place := by
  obtain ⟨haccept, hnames⟩ := h.limits_of_get? hnode
  have hwalk : walk disk.tree followLast [] place = .reached place :=
    walk_of_get? h.tree hnames hnode
  simp [resolve, haccept, resolveFrom,
    walk_absolute (h.tree.isPlace hnode), hwalk, bind, Except.bind]

theorem resolve_missing (followLast : Bool) (h : disk.IsPlain) (hplace : Path.IsPlace place)
    (hnone : disk.tree.get? place = none) :
    ∃ reason, disk.resolve followLast (Path.absolute place) = .error reason := by
  unfold resolve
  cases haccept : accept (Path.absolute place) with
  | error reason => exact ⟨reason, rfl⟩
  | ok accepted =>
      obtain ⟨reason, hwalk⟩ := walk_of_missing followLast h.tree hplace h.tree.root hnone
      refine ⟨reason, ?_⟩
      simp [resolveFrom, walk_absolute hplace, hwalk, bind, Except.bind]

theorem node_absolute (h : disk.IsPlain) (hnode : disk.tree.get? place = some node) :
    disk.node (Path.absolute place) = .ok node := by
  simp [Disk.node, resolve_absolute h hnode, hnode, bind, Except.bind]

theorem absolute_eq (disk : Disk) (path : Bytes) :
    ∃ place, Path.IsPlace place ∧ disk.absolute path = Path.absolute place := by
  unfold Disk.absolute
  split
  · rename_i hrooted
    exact ⟨_, Path.isPlace_components hrooted, by simp [Path.clean_eq, hrooted]⟩
  · have hne : Path.absolute disk.current ≠ [] := by simp [Path.absolute]
    have hrooted : Path.isRooted (Path.absolute disk.current ++ Path.slash :: path) = true := by
      rw [Path.isRooted_append_cons path hne, Path.isRooted_absolute]
    exact ⟨_, Path.isPlace_components hrooted, by simp [Path.join, hne, Path.clean_eq, hrooted]⟩

theorem get?_of_stat (h : disk.IsPlain) (hplace : Path.IsPlace place)
    (hstat : disk.stat (Path.absolute place) = .ok node) : disk.tree.get? place = some node := by
  cases hnode : disk.tree.get? place with
  | some found => simpa [stat, node_absolute h hnode] using hstat
  | none =>
      obtain ⟨reason, hresolve⟩ := resolve_missing true h hplace hnode
      simp [stat, Disk.node, hresolve, bind, Except.bind] at hstat

theorem below_absolute (hroot : Path.IsPlace root) (hplace : Path.IsPlace place) :
    below (Path.absolute root) (Path.relative place) = .ok (Path.absolute (root ++ place)) := by
  simp [below, Path.leavesRoot_relative hplace, Path.join_relative _ hplace,
    Path.components_absolute hroot]

-- Below a directory of such a disk stands what its tree has there.
theorem shows (h : disk.IsPlain) (hroot : Path.IsPlace root) :
    (disk.volume (Path.absolute root)).Shows (Layout.below disk.tree.get? root) where
  isPresent {place} hplace := by
    cases hnode : disk.tree.get? (root ++ place) with
    | some node =>
        simp [volume, below_absolute hroot hplace, resolve_absolute h hnode, Layout.below, hnode,
          Except.isOk, Except.toBool]
    | none =>
        obtain ⟨reason, hresolve⟩ := resolve_missing false h
          (Path.isPlace_append.mpr ⟨hroot, hplace⟩) hnode
        simp [volume, below_absolute hroot hplace, hresolve, Layout.below, hnode, Except.isOk,
          Except.toBool]
  isDirectory {place node} hnode := by
    have hplace := (Path.isPlace_append.mp (h.tree.isPlace hnode)).2
    simp [volume, below_absolute hroot hplace, stat, node_absolute h hnode, bind, Except.bind]
  mem_names {place name} hdirectory := by
    have hplace := (Path.isPlace_append.mp (h.tree.isPlace hdirectory)).2
    simp only [volume, below_absolute hroot hplace, resolve_absolute h hdirectory]
    rw [Tree.mem_children h.tree.unlisted, List.append_assoc]
    rfl
  read {place content} hfile := by
    have hplace := (Path.isPlace_append.mp (h.tree.isPlace hfile)).2
    simp [volume, below_absolute hroot hplace, Disk.read, node_absolute h hfile, bind, Except.bind]

end Disk

end ThemeLint
