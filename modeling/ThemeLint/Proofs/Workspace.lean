import ThemeLint.Workspace

namespace ThemeLint.Workspace

open Source

theorem distinct_paths (files : List File) :
    (distinct files).Pairwise fun a b => a.path ≠ b.path := by
  induction files with
  | nil => exact .nil
  | cons file rest ih =>
      refine List.pairwise_cons.mpr ⟨fun other hother => ?_, ih.filter _⟩
      have hne : other.path ≠ file.path := by simpa using (List.mem_filter.mp hother).2
      exact hne.symm

theorem le_path_trans (a b c : File) (hab : decide (a.path ≤ b.path) = true)
    (hbc : decide (b.path ≤ c.path) = true) : decide (a.path ≤ c.path) = true := by
  simp only [decide_eq_true_eq] at hab hbc ⊢
  exact List.le_trans hab hbc

theorem le_path_total (a b : File) :
    (decide (a.path ≤ b.path) || decide (b.path ≤ a.path)) = true := by
  simpa using List.le_total a.path b.path

-- Located files are sorted by path and no path comes twice, so each path is greater
-- than the one before it.
theorem locate_ascending {ws : Workspace} {patterns : List Bytes} {files : List File}
    (h : ws.locate patterns = .ok files) :
    files.Pairwise fun a b => a.path < b.path := by
  unfold locate at h
  cases hfound : patterns.mapM ws.matching with
  | error cause => simp [hfound, bind, Except.bind] at h
  | ok found =>
      simp only [hfound, bind, Except.bind, Except.ok.injEq] at h
      have hsorted := List.pairwise_mergeSort le_path_trans le_path_total (distinct found.flatten)
      have hperm := List.mergeSort_perm (distinct found.flatten)
        fun (a b : File) => decide (a.path ≤ b.path)
      have hdistinct := (hperm.pairwise_iff fun {_ _} hne => hne.symm).mpr
        (distinct_paths found.flatten)
      rw [h] at hsorted hdistinct
      refine hsorted.imp₂ (fun a b hle hne => ?_) hdistinct
      have hle : a.path ≤ b.path := by simpa using hle
      exact (List.le_iff_lt_or_eq.mp hle).resolve_right hne

end ThemeLint.Workspace
