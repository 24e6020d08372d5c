import ThemeLint.Proofs.Files.Disk
import ThemeLint.Proofs.Run.Edit

namespace ThemeLint

open Bytes Source

namespace Workspace

variable {disk later : Disk} {path : Bytes} {ws other : Workspace} {place : List Bytes}

theorem root_of_openAt (hopen : openAt disk path = .ok ws) :
    ws = ⟨disk.absolute path, disk.volume (disk.absolute path)⟩ ∧
      disk.stat (disk.absolute path) = .ok .directory := by
  simp only [openAt] at hopen
  split at hopen
  · rename_i hstat
    exact ⟨(Except.ok.inj hopen).symm, hstat⟩
  · cases hopen
  · cases hopen

-- A work directory that was opened on a disk without links shows what the disk has below it.
theorem shows_openAt (h : disk.IsPlain) (hopen : openAt disk path = .ok ws) :
    (disk.layoutAt ws.root).IsPlain ∧ ws.volume.Shows (disk.layoutAt ws.root) := by
  obtain ⟨rfl, hstat⟩ := root_of_openAt hopen
  obtain ⟨root, hroot, habsolute⟩ := disk.absolute_eq path
  rw [habsolute] at hstat ⊢
  rw [Disk.layoutAt, Path.components_absolute hroot]
  exact ⟨h.tree.toIsPlain.below (Disk.get?_of_stat h hroot hstat), Disk.shows h hroot⟩

theorem locate_openAt (h : disk.IsPlain) (hopen : openAt disk path = .ok ws) :
    ∃ files, ws.locate patterns = .ok files ∧
      (∀ file, file ∈ files ↔ ∃ place content, disk.layoutAt ws.root place = some (.file content) ∧
        IsChecked place ∧ file = ⟨Path.join ws.root (Path.relative place), Path.relative place⟩) ∧
      files.Pairwise (fun a b => a.path < b.path) ∧ (files.map (·.relPath)).Nodup := by
  obtain ⟨hplain, hshows⟩ := shows_openAt h hopen
  obtain ⟨files, hfiles⟩ := exists_locate_patterns hshows hplain
  exact ⟨files, hfiles, mem_locate_patterns hshows hplain hfiles, locate_ascending hfiles,
    relPaths_nodup hfiles⟩

example : Disk.IsPlain {
    tree := ⟨[([], .directory), ([utf8 "topics"], .directory),
      ([utf8 "topics", utf8 "a"], .directory),
      ([utf8 "topics", utf8 "a", utf8 "interactive.js"], .file (utf8 "x = '#fff'"))], []⟩
    current := [utf8 "topics"] } := by decide

theorem agreeBut_openAt (h : disk.IsPlain) (hlater : later.IsPlain)
    (hcurrent : later.current = disk.current) (hopen : openAt disk path = .ok ws)
    (hother : openAt later path = .ok other)
    (hagree : Layout.AgreeBut place (disk.layoutAt ws.root) (later.layoutAt ws.root)) :
    AgreeBut place ws other (disk.layoutAt ws.root) (later.layoutAt ws.root) := by
  have hroot : other.root = ws.root := by
    rw [(root_of_openAt hopen).1, (root_of_openAt hother).1]
    simp only [Disk.absolute, hcurrent]
  obtain ⟨hplain, hshows⟩ := shows_openAt h hopen
  obtain ⟨hplain', hshows'⟩ := shows_openAt hlater hother
  rw [hroot] at hplain' hshows'
  exact ⟨hroot, hplain, hshows, hplain', hshows', hagree⟩

end Workspace

-- The work directory is opened on two states of a disk that have the same files below it,
-- except perhaps at one place. A pass that would not look at the place gives what it gave
-- before, and every pass agrees with the one before on all other files.
theorem Linter.run_openAt {disk later : Disk} {path : Bytes} {ws other : Workspace}
    {place : List Bytes} (h : disk.IsPlain) (hlater : later.IsPlain)
    (hcurrent : later.current = disk.current) (hopen : Workspace.openAt disk path = .ok ws)
    (hother : Workspace.openAt later path = .ok other) (hplace : Path.IsPlace place)
    (hagree : Layout.AgreeBut place (disk.layoutAt ws.root) (later.layoutAt ws.root))
    (accessors : Accessors) (verbose : Bool) :
    (¬Workspace.IsChecked place →
      run accessors verbose other Workspace.patterns =
        run accessors verbose ws Workspace.patterns) ∧
    ∀ before after, (run accessors verbose ws Workspace.patterns).2 = .ok before →
      (run accessors verbose other Workspace.patterns).2 = .ok after →
      after.files.filter (· ≠ Path.join ws.root (Path.relative place)) =
          before.files.filter (· ≠ Path.join ws.root (Path.relative place)) ∧
        after.violations.filter (·.relPath ≠ Path.relative place) =
          before.violations.filter (·.relPath ≠ Path.relative place) := by
  have hboth := Workspace.agreeBut_openAt h hlater hcurrent hopen hother hagree
  exact ⟨run_eq_of_agreeBut hboth hplace,
    fun before after hbefore hafter => result_of_agreeBut hboth hplace hbefore hafter⟩

end ThemeLint
