import ThemeLint.Files.Sandbox
import ThemeLint.Proofs.Source.Buffer
import ThemeLint.Proofs.Source.Scan

namespace ThemeLint.Source

open Bytes

-- Whether a segment does not fit into a buffer of 4 MiB together with its line feed. The last
-- segment may have no line feed, and then leaves room for one.
def isTooLong (content segment : Bytes) (number : Nat) : Bool :=
  if number < (partsBy lf content).length then decide (4194304 < segment.length + 1)
  else decide (4194303 < segment.length)

def hasTooLong (content : Bytes) : Bool :=
  ((physicalLines content).zipIdx 1).any fun (segment, number) => isTooLong content segment number

-- The lines to show of a content: its segments before the first that is too long, without
-- comments, each under the number of its segment.
def shownLines (file : File) (content : Bytes) : List Line :=
  (((physicalLines content).zipIdx 1).takeWhile fun (segment, number) =>
      !isTooLong content segment number).filterMap fun (segment, number) =>
    if isComment (lineText segment) then none
    else some ⟨lineText segment, number, file.path, file.relPath⟩

theorem isTooLong_eq (content segment : Bytes) (number : Nat) :
    isTooLong content segment number = !isShort segment := by
  rw [Bool.eq_iff_iff, Bool.not_eq_true', isShort, decide_eq_false_iff_not, maxLineLength, isTooLong]
  split
  · rw [decide_eq_true_eq]
    omega
  · rw [decide_eq_true_eq]
    omega

theorem takeWhile_zipIdx (p : Bytes → Bool) (segments : List Bytes) (number : Nat) :
    (segments.zipIdx number).takeWhile (fun (segment, _) => p segment) =
      (segments.takeWhile p).zipIdx number := by
  induction segments generalizing number with
  | nil => rfl
  | cons segment rest ih =>
      by_cases hp : p segment = true
      · simp [hp, ih]
      · simp [hp]

theorem shownLines_eq (file : File) (content : Bytes) :
    shownLines file content = linesOf file (segments content).lines := by
  have hshort := takeWhile_zipIdx isShort (physicalLines content) 1
  rw [segments_eq, linesOf, ← hshort, shownLines]
  simp only [isTooLong_eq, Bool.not_not]

theorem complete_eq (content : Bytes) : (segments content).complete = !hasTooLong content := by
  have hall : (physicalLines content).all isShort =
      ((physicalLines content).zipIdx 1).all fun (segment, _) => isShort segment := by
    conv_lhs => rw [← List.zipIdx_map_fst 1 (physicalLines content), List.all_map]
    rfl
  rw [segments_eq, hall, hasTooLong, List.all_eq_not_any_not]
  simp only [isTooLong_eq]

section Recording

variable {σ ε : Type} {visit : Line → σ → Except ε σ}

-- A visitor that also notes down each line that it is shown, and one that it refuses too.
def recorded (visit : Line → σ → Except ε σ) (line : Line) (state : σ × List Line) :
    Except (ε × List Line) (σ × List Line) :=
  match visit line state.1 with
  | .ok next => .ok (next, state.2 ++ [line])
  | .error cause => .error (cause, state.2 ++ [line])

def Stop.map {δ : Type} (f : ε → δ) : Stop ε → Stop δ
  | failed cause => failed cause
  | refused cause => refused (f cause)

def forget (outcome : (σ × List Line) × Option (Stop (ε × List Line))) : σ × Option (Stop ε) :=
  (outcome.1.1, outcome.2.map (Stop.map Prod.fst))

theorem visitAll_append {before rest : List Line} {start state : σ}
    (h : visitAll visit before start = (state, none)) :
    visitAll visit (before ++ rest) start = visitAll visit rest state := by
  induction before generalizing start with
  | nil =>
      obtain rfl : start = state := congrArg Prod.fst h
      rfl
  | cons line before ih =>
      simp only [List.cons_append, visitAll] at h ⊢
      cases hvisit : visit line start with
      | ok next =>
          simp only [hvisit] at h
          exact ih h
      | error cause => simp [hvisit] at h

theorem visitAll_recorded {lines : List Line} {start final : σ}
    (h : lines.foldlM (fun state line => visit line state) start = .ok final) (notes : List Line) :
    visitAll (recorded visit) lines (start, notes) = ((final, notes ++ lines), none) := by
  induction lines generalizing start notes with
  | nil =>
      obtain rfl : start = final := Except.ok.inj h
      simp [visitAll]
  | cons line lines ih =>
      rw [List.foldlM_cons] at h
      cases hvisit : visit line start with
      | ok next =>
          have hrest := ih (by simpa [hvisit, bind, Except.bind] using h) (notes ++ [line])
          simp only [visitAll, recorded, hvisit, hrest, List.append_assoc, List.singleton_append]
      | error cause => simp [hvisit, bind, Except.bind] at h

-- Nothing is shown behind a line that is refused.
theorem visitAll_recorded_refused {lines : List Line} {count : Nat} {line : Line}
    {start state : σ} {cause : ε} (hline : lines[count]? = some line)
    (h : (lines.take count).foldlM (fun state line => visit line state) start = .ok state)
    (hrefused : visit line state = .error cause) :
    visitAll (recorded visit) lines (start, []) =
      ((state, lines.take count), some (cause, lines.take (count + 1))) := by
  obtain ⟨hlt, rfl⟩ := List.getElem?_eq_some_iff.mp hline
  have hcut : lines = lines.take count ++ lines[count] :: lines.drop (count + 1) := by
    rw [← List.drop_eq_getElem_cons hlt, List.take_append_drop]
  have htake : lines.take (count + 1) = lines.take count ++ [lines[count]] :=
    List.take_succ_eq_append_getElem hlt
  conv_lhs => rw [hcut, visitAll_append (visitAll_recorded h [])]
  simp only [visitAll, recorded, hrefused, htake, List.nil_append]

theorem foldlM_of_accepting (haccept : ∀ line state, ∃ next, visit line state = .ok next)
    (lines : List Line) (start : σ) :
    ∃ final, lines.foldlM (fun state line => visit line state) start = .ok final := by
  induction lines generalizing start with
  | nil => exact ⟨start, rfl⟩
  | cons line lines ih =>
      obtain ⟨next, hnext⟩ := haccept line start
      obtain ⟨final, hfinal⟩ := ih next
      exact ⟨final, by simpa [List.foldlM_cons, hnext, bind, Except.bind] using hfinal⟩

theorem visitAll_forget (visit : Line → σ → Except ε σ) (lines : List Line) (start : σ)
    (notes : List Line) :
    visitAll visit lines start =
      ((visitAll (recorded visit) lines (start, notes)).1.1,
        (visitAll (recorded visit) lines (start, notes)).2.map Prod.fst) := by
  induction lines generalizing start notes with
  | nil => rfl
  | cons line lines ih =>
      cases hvisit : visit line start with
      | ok next => simp only [visitAll, recorded, hvisit, ih next (notes ++ [line])]
      | error cause => simp only [visitAll, recorded, hvisit, Option.map_some]

theorem forget_scan_recorded (volume : Volume) (file : File) (visit : Line → σ → Except ε σ)
    (start : σ) (notes : List Line) :
    forget (scan volume file (recorded visit) (start, notes)) = scan volume file visit start := by
  unfold scan
  cases content volume file with
  | error cause => rfl
  | ok text =>
      simp only [visitAll_forget visit _ start notes]
      cases visitAll (recorded visit) (linesOf file (segments text).lines) (start, notes) with
      | mk state refusal =>
          cases refusal with
          | some cause => rfl
          | none =>
              simp only [Option.map_none]
              split <;> rfl

theorem scan_of_content {volume : Volume} {file : File} {text : Bytes}
    (hcontent : content volume file = .ok text) (visit : Line → σ → Except ε σ) (start : σ) :
    scan volume file visit start =
      match visitAll visit (shownLines file text) start with
      | (state, some cause) => (state, some (.refused cause))
      | (state, none) =>
        (state, if hasTooLong text then some (.failed (.tooLong file.path)) else none) := by
  simp only [scan, hcontent, complete_eq, ← shownLines_eq]
  cases visitAll visit (shownLines file text) start with
  | mk state refusal =>
      cases refusal with
      | some cause => rfl
      | none => cases hasTooLong text <;> rfl

-- A file that is not UTF-8 is shown to no visitor. Of any other, a visitor is shown the lines
-- before the first that is too long, up to one that it refuses, and the outcome is the
-- refusal, or else whether there was a line too long. How the content is read in pieces does
-- not matter: through a buffer that grows it falls into the same segments.
theorem scan_exact {volume : Volume} {file : File} {content : Bytes}
    (hread : volume.read file.relPath = .ok content) (visit : Line → σ → Except ε σ) (start : σ) :
    (Utf8.valid content = false → scan volume file (recorded visit) (start, []) =
      ((start, []), some (.failed (.notUtf8 file.path)))) ∧
    (Utf8.valid content = true →
      ((∀ line state, ∃ next, visit line state = .ok next) →
        ∃ final, (shownLines file content).foldlM (fun state line => visit line state) start =
            .ok final ∧
          scan volume file (recorded visit) (start, []) = ((final, shownLines file content),
            if hasTooLong content then some (.failed (.tooLong file.path)) else none)) ∧
      ∀ count line state cause, (shownLines file content)[count]? = some line →
        ((shownLines file content).take count).foldlM (fun state line => visit line state) start =
          .ok state →
        visit line state = .error cause →
        scan volume file (recorded visit) (start, []) =
          ((state, (shownLines file content).take count),
            some (.refused (cause, (shownLines file content).take (count + 1))))) ∧
    scan volume file visit start = forget (scan volume file (recorded visit) (start, [])) ∧
    ∀ split, Splits (Buffer.start content) split ↔ split = segments content := by
  refine ⟨fun hinvalid => ?_, fun hvalid => ?_,
    (forget_scan_recorded volume file visit start []).symm, fun split => splits_iff⟩
  · have hcontent : Source.content volume file = .error (.notUtf8 file.path) := by
      simp [Source.content, hread, hinvalid]
    simp only [scan, hcontent]
  · have hcontent : Source.content volume file = .ok content := content_eq_ok.mpr ⟨hread, hvalid⟩
    rw [scan_of_content hcontent]
    constructor
    · intro haccept
      obtain ⟨final, hfinal⟩ := foldlM_of_accepting haccept (shownLines file content) start
      refine ⟨final, hfinal, ?_⟩
      rw [visitAll_recorded hfinal, List.nil_append]
    · intro count line state cause hline haccepted hrefused
      rw [visitAll_recorded_refused hline haccepted hrefused]

end Recording

-- A comment, a line that ends in two carriage returns, a star on its own, an empty line and a
-- line without an end.
def mixedContent : Bytes := utf8 "// c\r\nx\r\r\n*\n\ny"

def mixedFile : File := ⟨utf8 "/w/a", utf8 "a"⟩

def mixedVolume : Volume :=
  Sandbox.volume ⟨[([], .directory), ([utf8 "a"], .file mixedContent)], []⟩

def refuseSecond (line : Line) (seen : Nat) : Except Int Nat :=
  if seen = 1 then .error line.number else .ok (seen + 1)

theorem scan_exact_mixedContent :
    scan mixedVolume mixedFile (recorded refuseSecond) (0, []) =
      ((1, [⟨utf8 "x", 2, utf8 "/w/a", utf8 "a"⟩]),
        some (.refused (4, [⟨utf8 "x", 2, utf8 "/w/a", utf8 "a"⟩,
          ⟨[], 4, utf8 "/w/a", utf8 "a"⟩]))) := by
  have hread : mixedVolume.read mixedFile.relPath = .ok mixedContent := rfl
  have hshown : shownLines mixedFile mixedContent =
      [⟨utf8 "x", 2, utf8 "/w/a", utf8 "a"⟩, ⟨[], 4, utf8 "/w/a", utf8 "a"⟩,
        ⟨utf8 "y", 5, utf8 "/w/a", utf8 "a"⟩] := by decide
  have hrefused := ((scan_exact hread refuseSecond 0).2.1 (by decide)).2 1
    ⟨[], 4, utf8 "/w/a", utf8 "a"⟩ 1 4
  rw [hshown] at hrefused
  exact hrefused rfl rfl rfl

end ThemeLint.Source
