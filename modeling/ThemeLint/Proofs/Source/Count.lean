import ThemeLint.Proofs.Source.Visit
import Mathlib.Data.List.Basic

namespace ThemeLint.Source

open Bytes

def skippedLines (file : File) (content : Bytes) : List Line :=
  (((physicalLines content).zipIdx 1).takeWhile fun (segment, number) =>
      !isTooLong content segment number).filterMap fun (segment, number) =>
    if isComment (lineText segment) then
      some ⟨lineText segment, number, file.path, file.relPath⟩
    else none

-- A line for each line feed, and one more for what stands behind the last of them.
theorem length_physicalLines (content : Bytes) :
    (physicalLines content).length =
      content.count lf + if content ≠ [] ∧ content.getLast? ≠ some lf then 1 else 0 := by
  by_cases hline : lf ∈ content
  · obtain ⟨segment, rest, rfl, hsegment⟩ := List.eq_append_cons_of_mem hline
    have hrest := length_physicalLines rest
    have hcount : (segment ++ lf :: rest).count lf = rest.count lf + 1 := by
      rw [List.count_append, List.count_eq_zero_of_not_mem hsegment, List.count_cons_self,
        Nat.zero_add]
    have hlast : (segment ++ lf :: rest ≠ [] ∧ (segment ++ lf :: rest).getLast? ≠ some lf) ↔
        rest ≠ [] ∧ rest.getLast? ≠ some lf := by
      cases rest with
      | nil => simp
      | cons b rest => simp
    rw [physicalLines_append_lf hsegment, List.length_cons, hrest, hcount, if_congr hlast rfl rfl]
    omega
  · have hcount : content.count lf = 0 := List.count_eq_zero_of_not_mem hline
    by_cases hnil : content = []
    · subst hnil
      rfl
    · have hlast : content.getLast? ≠ some lf := fun h => hline (List.mem_of_getLast? h)
      rw [physicalLines_of_notMem hline hnil, hcount]
      simp [hnil, hlast]
termination_by content.length

theorem skippedLines_eq (file : File) (content : Bytes) :
    skippedLines file content =
      (numbered file (segments content).lines).filter fun line => isComment line.text := by
  have hshort := takeWhile_zipIdx isShort (physicalLines content) 1
  rw [segments_eq, numbered, List.filter_map, ← hshort, skippedLines]
  simp only [isTooLong_eq, Bool.not_not]
  induction ((physicalLines content).zipIdx 1).takeWhile (fun (segment, _) => isShort segment) with
  | nil => rfl
  | cons entry rest ih =>
      by_cases h : isComment (lineText entry.1) = true
      · simpa [h] using ih
      · simpa [h] using ih

-- Every segment before the first that is too long is either shown or passed over.
theorem length_shownLines_add (file : File) (content : Bytes) :
    (shownLines file content).length + (skippedLines file content).length =
      (segments content).lines.length := by
  have hsplit := List.length_eq_length_filter_add (l := numbered file (segments content).lines)
    fun line => isComment line.text
  have hlength : (numbered file (segments content).lines).length =
      (segments content).lines.length := by simp [numbered]
  rw [shownLines_eq, linesOf_eq_filter, skippedLines_eq]
  omega

theorem number_of_mem_shownLines {file : File} {content : Bytes} {line : Line}
    (h : line ∈ shownLines file content) :
    1 ≤ line.number ∧ line.number ≤ (segments content).lines.length := by
  rw [shownLines_eq, linesOf_eq_filter, numbered] at h
  obtain ⟨⟨segment, number⟩, hentry, rfl⟩ := List.mem_map.mp (List.mem_filter.mp h).1
  obtain ⟨hle, hsegment⟩ := List.mk_mem_zipIdx_iff_le_and_getElem?_sub.mp hentry
  have hlt := (List.getElem?_eq_some_iff.mp hsegment).1
  dsimp only
  omega

theorem countLines_of_read {volume : Volume} {file : File} {content : Bytes}
    (hread : volume.read file.relPath = .ok content) :
    countLines volume file =
      ((segments content).lines.length, if hasTooLong content then some .uncounted else none) := by
  simp only [countLines, hread, complete_eq]
  cases hasTooLong content <;> rfl

section Accepting

variable {σ ε : Type} {visit : Line → σ → Except ε σ} {volume : Volume} {file : File}
  {content : Bytes}

theorem scan_of_accepting (haccept : ∀ line state, ∃ next, visit line state = .ok next)
    (hcontent : Source.content volume file = .ok content) (start : σ) :
    (scan volume file (recorded visit) (start, [])).1.2 = shownLines file content ∧
      (scan volume file visit start).2 =
        if hasTooLong content then some (.failed (.tooLong file.path)) else none := by
  obtain ⟨final, hfinal⟩ := foldlM_of_accepting haccept (shownLines file content) start
  have hrecorded : scan volume file (recorded visit) (start, []) =
      ((final, shownLines file content),
        if hasTooLong content then some (.failed (.tooLong file.path)) else none) := by
    rw [scan_of_content hcontent, visitAll_recorded hfinal, List.nil_append]
  refine ⟨by rw [hrecorded], ?_⟩
  rw [← forget_scan_recorded volume file visit start [], hrecorded]
  cases hasTooLong content <;> rfl

end Accepting

-- To count the lines of a file fails exactly if to scan it does, and counts the lines that a
-- scan shows and the comments that it passes over, so that no line is numbered past the count.
-- Of a content without a line that is too long, UTF-8 or not, the line feeds are counted and
-- what stands behind the last of them. The content may be read in other pieces than for a scan.
theorem countLines_agrees {volume : Volume} {file : File} {content : Bytes}
    (hread : volume.read file.relPath = .ok content) :
    (Utf8.valid content = true → ∀ (σ ε : Type) (visit : Line → σ → Except ε σ) (start : σ),
      (∀ line state, ∃ next, visit line state = .ok next) →
      ((countLines volume file).2 ≠ none ↔ (scan volume file visit start).2 ≠ none) ∧
      (countLines volume file).1 =
        (scan volume file (recorded visit) (start, [])).1.2.length +
          (skippedLines file content).length ∧
      ∀ line ∈ (scan volume file (recorded visit) (start, [])).1.2,
        1 ≤ line.number ∧ line.number ≤ (countLines volume file).1) ∧
    (hasTooLong content = false → countLines volume file =
      (content.count lf + (if content ≠ [] ∧ content.getLast? ≠ some lf then 1 else 0), none)) ∧
    ∀ split, Splits (Buffer.start content) split → countLines volume file =
      (split.lines.length, if split.complete then none else some .uncounted) := by
  have hcounted := countLines_of_read hread
  refine ⟨fun hvalid σ ε visit start haccept => ?_, fun hshort => ?_, fun split hsplit => ?_⟩
  · have hcontent : Source.content volume file = .ok content := content_eq_ok.mpr ⟨hread, hvalid⟩
    obtain ⟨hshown, hfailure⟩ := scan_of_accepting haccept hcontent start
    rw [hcounted, hshown, hfailure]
    refine ⟨?_, (length_shownLines_add file content).symm, fun line => number_of_mem_shownLines⟩
    cases hasTooLong content <;> simp
  · have hcomplete : (segments content).complete = true := by rw [complete_eq, hshort, Bool.not_false]
    rw [hcounted, segments_lines hcomplete, length_physicalLines, hshort]
    rfl
  · rw [hcounted, splits_iff.mp hsplit, complete_eq]
    cases hasTooLong content <;> rfl

-- Three lines to show and two comments, the last line without a line feed.
theorem countLines_agrees_mixedContent :
    mixedVolume.read mixedFile.relPath = .ok mixedContent ∧
      countLines mixedVolume mixedFile = (5, none) ∧
      (scan mixedVolume mixedFile acceptAll ()).2 = none ∧
      (skippedLines mixedFile mixedContent).length = 2 ∧
      (scan mixedVolume mixedFile (recorded acceptAll) ((), [])).1.2.length = 3 := by
  have hread : mixedVolume.read mixedFile.relPath = .ok mixedContent := rfl
  have haccept : ∀ line state, ∃ next, acceptAll line state = .ok next := fun _ _ => ⟨(), rfl⟩
  obtain ⟨hscan, hshort, -⟩ := countLines_agrees hread
  have hcount : countLines mixedVolume mixedFile = (5, none) := hshort (by decide)
  obtain ⟨hfails, hlines, -⟩ := hscan (by decide) Unit Empty acceptAll () haccept
  have hskipped : (skippedLines mixedFile mixedContent).length = 2 := by decide
  rw [hcount, hskipped] at hlines
  refine ⟨hread, hcount, ?_, hskipped, by omega⟩
  by_contra hfailed
  have hcounted := hfails.mpr hfailed
  simp [hcount] at hcounted

end ThemeLint.Source
