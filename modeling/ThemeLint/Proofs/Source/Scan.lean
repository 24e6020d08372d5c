import ThemeLint.Proofs.Source.Line
import ThemeLint.Source.Scan

namespace ThemeLint.Source

open Bytes

def numbered (file : File) (segments : List Bytes) : List Line :=
  (segments.zipIdx 1).map fun (segment, number) =>
    ⟨lineText segment, number, file.path, file.relPath⟩

def checkedLines (volume : Volume) (file : File) : List Line :=
  match volume.read file.relPath with
  | .ok content =>
    (numbered file (physicalLines content)).filter fun line => !isComment line.text
  | .error _ => []

variable {σ : Type} {visit : Line → σ → Except Empty σ} {step : Line → σ → σ}

-- A visitor that refuses no line, and what it makes of one.
def Accepts (visit : Line → σ → Except Empty σ) (step : Line → σ → σ) : Prop :=
  ∀ line state, visit line state = .ok (step line state)

def acceptAll (_ : Line) (_ : Unit) : Except Empty Unit := .ok ()

theorem acceptAll_accepts : Accepts acceptAll fun _ _ => () := fun _ _ => rfl

-- Why a file cannot be scanned to its end by a visitor that refuses no line.
def scanFailure? (volume : Volume) (file : File) : Option (Stop Empty) :=
  (scan volume file acceptAll ()).2

theorem linesOf_eq_filter (file : File) (segments : List Bytes) :
    linesOf file segments = (numbered file segments).filter fun line => !isComment line.text := by
  rw [linesOf, numbered, List.filter_map]
  induction segments.zipIdx 1 with
  | nil => rfl
  | cons entry rest ih =>
      by_cases h : isComment (lineText entry.1) = true
      · simpa [h] using ih
      · simpa [h] using ih

theorem content_eq_ok {volume : Volume} {file : File} {text : Bytes} :
    content volume file = .ok text ↔
      volume.read file.relPath = .ok text ∧ Utf8.valid text = true := by
  unfold content
  cases volume.read file.relPath with
  | error cause => simp
  | ok found =>
      by_cases h : Utf8.valid found = true
      · simp only [h, if_true, Except.ok.injEq]
        exact ⟨fun heq => ⟨heq, heq ▸ h⟩, And.left⟩
      · simp only [h, Bool.false_eq_true, if_false, reduceCtorEq, Except.ok.injEq, false_iff]
        rintro ⟨rfl, hvalid⟩
        exact h hvalid

theorem visitAll_accepting (haccept : Accepts visit step) (lines : List Line) (start : σ) :
    visitAll visit lines start = (lines.foldl (fun state line => step line state) start, none) := by
  induction lines generalizing start with
  | nil => rfl
  | cons line rest ih => simp only [visitAll, haccept line, ih, List.foldl_cons]

-- With a visitor that accepts every line, only the file itself can end a scan.
theorem scan_accepting {volume : Volume} {file : File} {text : Bytes}
    (haccept : Accepts visit step) (start : σ)
    (hcontent : content volume file = .ok text) :
    scan volume file visit start =
      ((linesOf file (segments text).lines).foldl (fun state line => step line state) start,
        if (segments text).complete then none else some (.failed (.tooLong file.path))) := by
  simp only [scan, hcontent, visitAll_accepting haccept]
  cases (segments text).complete <;> rfl

theorem scanFailure?_of_content {volume : Volume} {file : File} {text : Bytes}
    (hcontent : content volume file = .ok text) :
    scanFailure? volume file =
      if (segments text).complete then none else some (.failed (.tooLong file.path)) := by
  rw [scanFailure?, scan_accepting acceptAll_accepts () hcontent]

theorem scanFailure?_eq_none {volume : Volume} {file : File} :
    scanFailure? volume file = none ↔
      ∃ text, content volume file = .ok text ∧ (segments text).complete = true := by
  cases hcontent : content volume file with
  | error cause => simp [scanFailure?, scan, hcontent]
  | ok text => simp [scanFailure?_of_content hcontent]

theorem scanFailure?_cases (volume : Volume) (file : File) :
    scanFailure? volume file = none ∨ ∃ cause, scanFailure? volume file = some (.failed cause) := by
  cases h : scanFailure? volume file with
  | none => exact .inl rfl
  | some stop =>
      cases stop with
      | failed cause => exact .inr ⟨cause, rfl⟩
      | refused never => exact never.elim

theorem scan_snd (haccept : Accepts visit step) (volume : Volume) (file : File) (start : σ) :
    (scan volume file visit start).2 = scanFailure? volume file := by
  cases hcontent : content volume file with
  | error cause => simp only [scanFailure?, scan, hcontent]
  | ok text => rw [scanFailure?_of_content hcontent, scan_accepting haccept start hcontent]

-- A visitor that is shown a file to its end has seen exactly the lines to check.
theorem scan_fst {volume : Volume} {file : File} (haccept : Accepts visit step) (start : σ)
    (h : scanFailure? volume file = none) :
    (scan volume file visit start).1 =
      (checkedLines volume file).foldl (fun state line => step line state) start := by
  obtain ⟨text, hcontent, hcomplete⟩ := scanFailure?_eq_none.mp h
  rw [scan_accepting haccept start hcontent]
  simp only [checkedLines, (content_eq_ok.mp hcontent).1]
  rw [segments_lines hcomplete, linesOf_eq_filter]

-- Once a file was scanned to its end, counting its lines cannot fail.
theorem countLines_snd {volume : Volume} {file : File} (h : scanFailure? volume file = none) :
    (countLines volume file).2 = none := by
  obtain ⟨text, hcontent, hcomplete⟩ := scanFailure?_eq_none.mp h
  simp [countLines, (content_eq_ok.mp hcontent).1, hcomplete]

theorem mem_checkedLines {volume : Volume} {file : File} {line : Line}
    (h : line ∈ checkedLines volume file) :
    ∃ content segment, ∃ index : Nat, volume.read file.relPath = .ok content ∧
      (partsBy lf content)[index]? = some segment ∧ isComment (lineText segment) = false ∧
      line = ⟨lineText segment, index + 1, file.path, file.relPath⟩ := by
  unfold checkedLines at h
  split at h
  · rename_i content hread
    obtain ⟨hmem, hcomment⟩ := List.mem_filter.mp h
    obtain ⟨⟨segment, number⟩, hentry, rfl⟩ := List.mem_map.mp hmem
    obtain ⟨hle, hsegment⟩ := List.mk_mem_zipIdx_iff_le_and_getElem?_sub.mp hentry
    refine ⟨content, segment, number - 1, hread, ?_, by simpa using hcomment, ?_⟩
    · obtain ⟨last, hlast⟩ := physicalLines_isPrefix content
      have hlt := (List.getElem?_eq_some_iff.mp hsegment).1
      rw [← hlast, List.getElem?_append_left hlt]
      exact hsegment
    · simp only [Line.mk.injEq, and_true, true_and]
      omega
  · simp at h

theorem checkedLines_ascending (volume : Volume) (file : File) :
    (checkedLines volume file).Pairwise fun a b => a.number < b.number := by
  unfold checkedLines
  split
  · rename_i content _
    refine List.Pairwise.filter _ (List.pairwise_map.mpr ?_)
    have hrange := List.pairwise_lt_range' (s := 1) (n := (physicalLines content).length)
    rw [← List.zipIdx_map_snd, List.pairwise_map] at hrange
    exact hrange.imp fun h => Int.ofNat_lt.mpr h
  · exact .nil

end ThemeLint.Source
