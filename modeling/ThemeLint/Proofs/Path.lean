import ThemeLint.Path
import ThemeLint.Proofs.Bytes

namespace ThemeLint.Path

open Bytes

-- What a file or a directory may be called. A dot and two dots are no names, since they
-- lead to a directory that has a name of its own.
structure IsName (name : Bytes) : Prop where
  ne_nil : name ≠ []
  ne_here : name ≠ here
  ne_up : name ≠ up
  slash_notMem : slash ∉ name

instance (name : Bytes) : Decidable (IsName name) :=
  decidable_of_iff (name ≠ [] ∧ name ≠ here ∧ name ≠ up ∧ slash ∉ name)
    ⟨fun ⟨h, h', h'', h'''⟩ => ⟨h, h', h'', h'''⟩, fun ⟨h, h', h'', h'''⟩ => ⟨h, h', h'', h'''⟩⟩

def IsPlace (place : List Bytes) : Prop := ∀ name ∈ place, IsName name

instance (place : List Bytes) : Decidable (IsPlace place) :=
  inferInstanceAs (Decidable (∀ name ∈ place, IsName name))

def relative (place : List Bytes) : Bytes := if place = [] then here else joinWith [slash] place

theorem isPlace_append {place rest : List Bytes} :
    IsPlace (place ++ rest) ↔ IsPlace place ∧ IsPlace rest := List.forall_mem_append

theorem isPlace_singleton {name : Bytes} : IsPlace [name] ↔ IsName name := List.forall_mem_singleton

@[simp] theorem relative_singleton (name : Bytes) : relative [name] = name := by simp [relative]

theorem partsBy_relative {place : List Bytes} (h : ∀ part ∈ place, slash ∉ part) :
    partsBy slash (relative place) = if place = [] then [here] else place := by
  unfold relative
  split
  · rfl
  · rename_i hne
    exact partsBy_joinWith hne h

theorem push_name {name : Bytes} (rooted : Bool) (stack : List Bytes) (h : IsName name) :
    push rooted stack name = name :: stack := by
  simp [push, h.ne_nil, h.ne_here, h.ne_up]

theorem foldl_push_place {place : List Bytes} (rooted : Bool) (stack : List Bytes)
    (h : IsPlace place) : place.foldl (push rooted) stack = place.reverse ++ stack := by
  induction place generalizing stack with
  | nil => rfl
  | cons name rest ih =>
      obtain ⟨hname, hrest⟩ := List.forall_mem_cons.mp h
      rw [List.foldl_cons, push_name rooted stack hname, ih _ hrest]
      simp

-- Going down a path that names a place adds the names of the place, whatever the way so far.
theorem foldl_push_relative {place : List Bytes} (rooted : Bool) (stack : List Bytes)
    (h : IsPlace place) :
    (partsBy slash (relative place)).foldl (push rooted) stack = place.reverse ++ stack := by
  rw [partsBy_relative fun part hpart => (h part hpart).slash_notMem]
  split
  · rename_i hnil
    simp [hnil, push]
  · exact foldl_push_place rooted stack h

theorem isRooted_relative {place : List Bytes} (h : IsPlace place) :
    isRooted (relative place) = false := by
  cases place with
  | nil => rfl
  | cons name rest =>
      obtain ⟨b, name, rfl⟩ := List.exists_cons_of_ne_nil (h name (by simp)).ne_nil
      have hb : b ≠ slash := by
        rintro rfl
        exact (h (slash :: name) (by simp)).slash_notMem (by simp)
      simp [relative, joinWith, isRooted, hb]

@[simp] theorem isRooted_absolute (place : List Bytes) : isRooted (absolute place) = true := by
  simp [isRooted, absolute]

theorem isRooted_append_cons {root : Bytes} (rest : Bytes) (h : root ≠ []) :
    isRooted (root ++ slash :: rest) = isRooted root := by
  obtain ⟨b, root, rfl⟩ := List.exists_cons_of_ne_nil h
  rfl

theorem components_relative {place : List Bytes} (h : IsPlace place) :
    components (relative place) = place := by
  simp [components, foldl_push_relative _ _ h]

theorem relative_inj {place other : List Bytes} (hplace : IsPlace place) (hother : IsPlace other) :
    relative place = relative other ↔ place = other := by
  refine ⟨fun h => ?_, fun h => h ▸ rfl⟩
  rw [← components_relative hplace, h, components_relative hother]

theorem fromRoot_relative {place : List Bytes} (h : IsPlace place) :
    fromRoot (relative place) = place := by
  have hnil (rooted : Bool) : push rooted [] [] = [] := by simp [push]
  simp [fromRoot, components, hnil, foldl_push_relative _ _ h]

theorem clean_eq (path : Bytes) :
    clean path =
      if isRooted path then absolute (components path) else relative (components path) := by
  simp [clean, relative]

theorem clean_relative {place : List Bytes} (h : IsPlace place) :
    clean (relative place) = relative place := by
  rw [clean_eq, isRooted_relative h, components_relative h]
  rfl

theorem leavesRoot_relative {place : List Bytes} (h : IsPlace place) :
    leavesRoot (relative place) = false := by
  rw [leavesRoot, clean_relative h, Bool.eq_false_iff, ne_eq, startsWith_iff]
  rintro ⟨rest, hrest⟩
  have hrest : relative place = up ++ slash :: rest := hrest.symm
  have hparts := partsBy_relative fun part hpart => (h part hpart).slash_notMem
  rw [hrest, partsBy_append_cons, partsBy_of_notMem (by decide)] at hparts
  split at hparts
  · exact absurd (List.cons.inj hparts).1 (by decide)
  · exact (h up (hparts ▸ by simp)).ne_up rfl

theorem mem_push {rooted : Bool} {stack : List Bytes} {component part : Bytes}
    (h : part ∈ push rooted stack component) :
    part ∈ stack ∨ part = component ∧ component ≠ [] ∧ component ≠ here := by
  unfold push at h
  split at h
  · exact .inl h
  · rename_i hne
    split at h
    · rename_i hup
      cases stack with
      | nil => cases rooted <;> simp_all
      | cons top rest =>
          by_cases htop : top = up
          · simp_all
          · simp only [htop, if_false] at h
            exact .inl (List.mem_cons_of_mem top h)
    · rcases List.mem_cons.mp h with rfl | h
      · exact .inr ⟨rfl, not_or.mp hne⟩
      · exact .inl h

theorem mem_foldl_push {rooted : Bool} {parts stack : List Bytes} {part : Bytes}
    (h : part ∈ parts.foldl (push rooted) stack) :
    part ∈ stack ∨ part ∈ parts ∧ part ≠ [] ∧ part ≠ here := by
  induction parts generalizing stack with
  | nil => exact .inl h
  | cons component rest ih =>
      rcases ih h with hpushed | ⟨hrest, hmoves⟩
      · rcases mem_push hpushed with hstack | ⟨rfl, hmoves⟩
        · exact .inl hstack
        · exact .inr ⟨by simp, hmoves⟩
      · exact .inr ⟨List.mem_cons_of_mem component hrest, hmoves⟩

-- The components of a path are parts of it, and each of them leads somewhere else.
theorem mem_components {path part : Bytes} (h : part ∈ components path) :
    part ∈ partsBy slash path ∧ part ≠ [] ∧ part ≠ here := by
  simpa using mem_foldl_push (List.mem_reverse.mp h)

-- Below a root two dots undo what stands before them, so that none of them stay.
theorem up_notMem_foldl_push {parts stack : List Bytes} (h : up ∉ stack) :
    up ∉ parts.foldl (push true) stack := by
  induction parts generalizing stack with
  | nil => exact h
  | cons component rest ih =>
      apply ih
      unfold push
      split
      · exact h
      split
      · cases stack with
        | nil => simp
        | cons top below =>
            obtain ⟨htop, hbelow⟩ := List.ne_and_not_mem_of_not_mem_cons h
            simpa [Ne.symm htop] using hbelow
      · rename_i hup
        exact List.not_mem_cons_of_ne_of_not_mem (Ne.symm hup) h

theorem isPlace_components {path : Bytes} (h : isRooted path = true) : IsPlace (components path) := by
  intro part hpart
  obtain ⟨hmem, hnil, hhere⟩ := mem_components hpart
  have hup : up ∉ components path := by
    rw [components, h, List.mem_reverse]
    exact up_notMem_foldl_push List.not_mem_nil
  exact ⟨hnil, hhere, fun heq => hup (heq ▸ hpart), notMem_of_mem_partsBy hmem⟩

theorem components_absolute {place : List Bytes} (h : IsPlace place) :
    components (absolute place) = place := by
  by_cases hnil : place = []
  · subst hnil
    decide
  · have hroot := fromRoot_relative h
    rwa [relative, if_neg hnil] at hroot

theorem components_append_relative {root : Bytes} {place : List Bytes} (hroot : root ≠ [])
    (h : IsPlace place) :
    components (root ++ slash :: relative place) = components root ++ place := by
  simp [components, isRooted_append_cons _ hroot, partsBy_append_cons, foldl_push_relative _ _ h]

-- A place below a root is the components of the root with the names behind them.
theorem join_relative (root : Bytes) {place : List Bytes} (h : IsPlace place) :
    join root (relative place) =
      if isRooted root then absolute (components root ++ place)
      else relative (components root ++ place) := by
  by_cases hroot : root = []
  · subst hroot
    have hne : relative place ≠ [] := by
      intro hnil
      have hparts := partsBy_relative fun part hpart => (h part hpart).slash_notMem
      rw [hnil] at hparts
      split at hparts
      · exact absurd hparts (by decide)
      · exact (h [] (hparts ▸ by simp)).ne_nil rfl
    have hcomponents : components [] = [] := by decide
    simp [join, hne, clean_relative h, hcomponents, isRooted]
  · simp only [join, List.isEmpty_iff, hroot, if_false, clean_eq,
      components_append_relative hroot h, isRooted_append_cons _ hroot]

theorem join_relative_name {place : List Bytes} {name : Bytes} (hplace : IsPlace place)
    (hname : IsName name) : join (relative place) name = relative (place ++ [name]) := by
  have h := join_relative (relative place) (isPlace_singleton.mpr hname)
  simpa [isRooted_relative hplace, components_relative hplace] using h

def moves (path : Bytes) : List Bytes :=
  (partsBy slash path).filter fun part => part ≠ [] ∧ part ≠ here

theorem moves_relative {parts : List Bytes}
    (h : ∀ part ∈ parts, part ≠ [] ∧ part ≠ here ∧ slash ∉ part) :
    moves (relative parts) = parts := by
  rw [moves, partsBy_relative fun part hpart => (h part hpart).2.2]
  split
  · rename_i hnil
    simp [hnil]
  · refine List.filter_eq_self.mpr fun part hpart => ?_
    simpa using ⟨(h part hpart).1, (h part hpart).2.1⟩

theorem moves_absolute {parts : List Bytes}
    (h : ∀ part ∈ parts, part ≠ [] ∧ part ≠ here ∧ slash ∉ part) :
    moves (absolute parts) = parts := by
  by_cases hnil : parts = []
  · subst hnil
    decide
  · have hrelative := moves_relative h
    rw [relative, if_neg hnil] at hrelative
    simpa [moves, absolute] using hrelative

theorem join_relative_inj {root : Bytes} {place other : List Bytes} (hplace : IsPlace place)
    (hother : IsPlace other) :
    join root (relative place) = join root (relative other) ↔ place = other := by
  refine ⟨fun h => ?_, fun h => h ▸ rfl⟩
  have hparts {place : List Bytes} (h : IsPlace place) :
      ∀ part ∈ components root ++ place, part ≠ [] ∧ part ≠ here ∧ slash ∉ part := by
    refine List.forall_mem_append.mpr ⟨fun part hpart => ?_, fun part hpart => ?_⟩
    · obtain ⟨hmem, hnil, hhere⟩ := mem_components hpart
      exact ⟨hnil, hhere, notMem_of_mem_partsBy hmem⟩
    · exact ⟨(h part hpart).ne_nil, (h part hpart).ne_here, (h part hpart).slash_notMem⟩
  have hmoves := congrArg moves h
  rw [join_relative root hplace, join_relative root hother] at hmoves
  apply (List.append_right_inj (components root)).mp
  split at hmoves
  · rwa [moves_absolute (hparts hplace), moves_absolute (hparts hother)] at hmoves
  · rwa [moves_relative (hparts hplace), moves_relative (hparts hother)] at hmoves

-- A clean path that does not start at a root and never leads up names a place.
theorem exists_place_of_clean {path : Bytes} (hclean : clean path = path)
    (hrooted : isRooted path = false) (hup : up ∉ partsBy slash path) :
    ∃ place, IsPlace place ∧ path = relative place := by
  refine ⟨components path, fun part hpart => ?_, ?_⟩
  · obtain ⟨hmem, hnil, hhere⟩ := mem_components hpart
    exact ⟨hnil, hhere, fun heq => hup (heq ▸ hmem), notMem_of_mem_partsBy hmem⟩
  · have heq := clean_eq path
    rwa [hclean, hrooted] at heq

end ThemeLint.Path
