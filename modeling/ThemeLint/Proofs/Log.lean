import ThemeLint.Log
import ThemeLint.Proofs.Bytes.Utf8

namespace ThemeLint

open Bytes

namespace Log

theorem lf_notMem_escapePiece_char {text : Bytes} {code width : Nat}
    (hhead : Utf8.head? text = some (code, width)) :
    lf ∉ escapePiece (.char code (text.take width)) := by
  simp only [escapePiece]
  split
  · decide
  split
  · decide
  split
  · decide
  rename_i hlf
  split
  · decide
  split
  · decide
  split
  · have hstart : lf ∉ utf8 "\\u" := by decide
    simp [hstart, lf_notMem_hex]
  · intro hmem
    have hcode : code = lf.toNat := Utf8.code_of_mem_head? hhead hmem (by decide)
    exact hlf (by rw [hcode]; decide)

theorem lf_notMem_renderText (text : Bytes) : lf ∉ renderText text := by
  have hstray : lf ∉ utf8 "\\ufffd" := by decide
  have hpieces := Utf8.pieces_induction (motive := fun piece => lf ∉ escapePiece piece)
    (fun _ => hstray) (fun _ _ _ => lf_notMem_escapePiece_char) text
  simpa [renderText, lf] using hpieces

theorem lf_notMem_braces {separator : Bytes} {parts : List Bytes} (hseparator : lf ∉ separator)
    (hparts : ∀ part ∈ parts, lf ∉ part) : lf ∉ [0x7B] ++ joinWith separator parts ++ [0x7D] := by
  have hbraces : lf ≠ 0x7B ∧ lf ≠ 0x7D := by decide
  have hjoin := notMem_joinWith hseparator hparts
  simp [hbraces, hjoin]

theorem Value.lf_notMem_render (value : Value) : lf ∉ value.render := by
  cases value with
  | text t => exact lf_notMem_renderText t
  | number n => exact lf_notMem_ofInt n
  | truth b => cases b <;> decide
  | counts cs =>
      refine lf_notMem_braces (by decide) fun part hpart => ?_
      obtain ⟨⟨name, n⟩, -, rfl⟩ := List.mem_map.mp hpart
      have hcolon : lf ∉ utf8 ":" := by decide
      simp [lf_notMem_renderText, lf_notMem_ofNat, hcolon]

namespace Entry

theorem lf_notMem_renderPairs (pairs : List (Bytes × Value)) : lf ∉ renderPairs pairs := by
  refine lf_notMem_braces (by decide) fun part hpart => ?_
  obtain ⟨⟨key, value⟩, -, rfl⟩ := List.mem_map.mp hpart
  have hcolon : lf ∉ utf8 ": " := by decide
  simp [lf_notMem_renderText, Value.lf_notMem_render, hcolon]

end Entry

-- A note for a reader who asks for details, on one line.
structure Entry.IsNote (e : Entry) : Prop where
  level : e.level = .debug
  message : lf ∉ e.message

-- Notes are written on request only.
theorem render_quiet {time : Bytes} {entries : List Entry}
    (h : ∀ entry ∈ entries, entry.IsNote) : render false time entries = [] := by
  have hnone : entries.filter (·.level.isWritten false) = [] := by
    rw [List.filter_eq_nil_iff]
    intro entry hentry
    simp [(h entry hentry).level, Level.isWritten]
  simp [render, hnone]

theorem render_verbose (time : Bytes) (entries : List Entry) :
    render true time entries = entries.flatMap (Entry.render time) := by
  have hall : ∀ entry ∈ entries, entry.level.isWritten true = true := by
    intro entry _
    cases entry.level <;> rfl
  rw [render, List.filter_eq_self.mpr hall]

-- What a note looks like: its time, its level and what it says, up to the line feed.
theorem Entry.IsNote.render_eq {e : Entry} (h : e.IsNote) (time : Bytes) :
    ∃ text, lf ∉ text ∧ e.render time = time ++ utf8 " | DEBUG | " ++ text ++ [lf] := by
  have hbar : lf ∉ utf8 " | " := by decide
  have hparts : ∀ part ∈ [utf8 "check-style-tokens", e.message] ++
      (if e.pairs.isEmpty then [] else [renderPairs e.pairs]), lf ∉ part := by
    have hprogram : lf ∉ utf8 "check-style-tokens" := by decide
    split
    · simp [hprogram, h.message]
    · simp [hprogram, h.message, lf_notMem_renderPairs]
  have hlevel : utf8 " | " ++ (Level.debug.name ++ utf8 " | ") = utf8 " | DEBUG | " := by decide
  refine ⟨joinWith (utf8 " | ") ([utf8 "check-style-tokens", e.message] ++
    if e.pairs.isEmpty then [] else [renderPairs e.pairs]), notMem_joinWith hbar hparts, ?_⟩
  simp only [render, h.level, ← hlevel, List.cons_append, List.nil_append, joinWith_cons_cons,
    List.append_assoc]

theorem render_append (verbose : Bool) (time : Bytes) (entries others : List Entry) :
    render verbose time (entries ++ others) =
      render verbose time entries ++ render verbose time others := by
  simp [render]

end Log

end ThemeLint
