import ThemeLint.Files.Sandbox
import ThemeLint.Proofs.Files.Tree

namespace ThemeLint.Sandbox

open Bytes ThemeLint.Path

variable {tree : Tree} {place : List Bytes}

theorem place_relative (h : IsPlace place) : Sandbox.place (relative place) = .ok place := by
  simp [Sandbox.place, leavesRoot_relative h, fromRoot_relative h]

-- Without links a path leads where it says.
theorem resolve_plain (h : tree.IsPlain) (place : List Bytes) : resolve tree place = place := by
  unfold resolve follow
  split
  · rename_i target hlink
    exact absurd hlink h.ne_link
  · rfl

theorem find?_plain (h : tree.IsPlain) (place : List Bytes) : find? tree place = tree.get? place := by
  unfold find?
  rw [resolve_plain h]
  split
  · rename_i target hlink
    exact absurd hlink h.ne_link
  · rfl

theorem shows (h : tree.IsPlain) : (volume tree).Shows tree.get? where
  isPresent hplace := by simp [volume, isPresent, place_relative hplace]
  isDirectory hnode := by
    simp [volume, isDirectory, place_relative (h.isPlace hnode), find?_plain h, hnode, bind,
      Except.bind]
  mem_names hdirectory := by
    simp only [volume, names, place_relative (h.isPlace hdirectory), resolve_plain h]
    exact Tree.mem_children h.unlisted
  read hfile := by
    simp [volume, read, place_relative (h.isPlace hfile), find?_plain h, hfile, bind, Except.bind]

-- A file can be written wherever there is no directory and no other file is in the way.
theorem write_relative (h : tree.IsPlain) (hplace : IsPlace place)
    (hdirectory : tree.get? place ≠ some .directory) (hopen : tree.IsOpen place) (content : Bytes) :
    ∃ after, write tree (relative place) content = .ok after ∧ after.IsPlain ∧
      after.get? = Layout.written tree.get? place content := by
  have hwritten := h.toIsPlain.written hplace hdirectory content
  cases hnode : tree.get? place with
  | none =>
      have hget : (tree.add place (.file content)).get? = Layout.written tree.get? place content :=
        funext (h.get?_add hopen hnode _)
      refine ⟨tree.add place (.file content), ?_, ⟨hget ▸ hwritten, ?_⟩, hget⟩
      · simp [write, place_relative hplace, resolve_plain h, hnode, bind, Except.bind]
      · rw [h.add_eq hopen, Tree.unlisted_put, Tree.unlisted_foldr_put, h.unlisted]
  | some node =>
      rcases h.directory_or_file hnode with rfl | ⟨old, rfl⟩
      · exact absurd hnode hdirectory
      have hget : (tree.put place (.file content)).get? = Layout.written tree.get? place content := by
        funext other
        rw [Tree.get?_put, Layout.written]
        by_cases heq : other = place
        · rw [if_pos heq, if_pos heq]
        · rw [if_neg heq, if_neg heq]
          by_cases hle : other <+: place
          · rw [if_pos hle, h.directory_of_isPrefix hnode hle heq]
          · rw [if_neg hle]
      refine ⟨tree.put place (.file content), ?_, ⟨hget ▸ hwritten, ?_⟩, hget⟩
      · simp [write, place_relative hplace, resolve_plain h, hnode, bind, Except.bind]
      · rw [Tree.unlisted_put, h.unlisted]

end ThemeLint.Sandbox
