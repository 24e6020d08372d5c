import ThemeLint.Proofs.Report

namespace ThemeLint

open Bytes

namespace Sink

structure Taken where
  bytes : Bytes
  writes : Nat
deriving DecidableEq, Repr

def Taken.nothing : Taken := ⟨[], 0⟩

-- One write. A sink that took as many as it accepts refuses it, and takes no byte of it.
def put (sink : Sink) (chunk : Bytes) (taken : Taken) : Except Bytes Taken :=
  if sink.accepts.all fun n => taken.writes < n then
    .ok ⟨taken.bytes ++ chunk, taken.writes + 1⟩
  else .error sink.refusal

-- One write after the other. The first that is refused is the last that is tried.
def putAll (sink : Sink) : List Bytes → Taken → Taken × Option Bytes
  | [], taken => (taken, none)
  | chunk :: rest, taken =>
    match sink.put chunk taken with
    | .ok taken => putAll sink rest taken
    | .error refusal => (taken, some refusal)

variable {sink : Sink} {chunks : List Bytes} {n : Nat}

theorem put_of_lt (haccepts : sink.accepts = some n) {taken : Taken} (hlt : taken.writes < n)
    (chunk : Bytes) :
    sink.put chunk taken = .ok ⟨taken.bytes ++ chunk, taken.writes + 1⟩ := by
  simp [put, haccepts, hlt]

theorem put_of_le (haccepts : sink.accepts = some n) {taken : Taken} (hle : n ≤ taken.writes)
    (chunk : Bytes) : sink.put chunk taken = .error sink.refusal := by
  simp [put, haccepts, hle]

theorem putAll_of_accepts (haccepts : sink.accepts = some n) (chunks : List Bytes)
    (taken : Taken) :
    (sink.putAll chunks taken).1.bytes =
        taken.bytes ++ (chunks.take (n - taken.writes)).flatten ∧
      (sink.putAll chunks taken).2 =
        if chunks.length ≤ n - taken.writes then none else some sink.refusal := by
  induction chunks generalizing taken with
  | nil => simp [putAll]
  | cons chunk rest ih =>
      by_cases hlt : taken.writes < n
      · obtain ⟨hbytes, hrefusal⟩ := ih ⟨taken.bytes ++ chunk, taken.writes + 1⟩
        have hleft : n - taken.writes = n - (taken.writes + 1) + 1 := by omega
        simp only [putAll, put_of_lt haccepts hlt]
        rw [hbytes, hrefusal, hleft]
        simp
      · have hnone : n - taken.writes = 0 := by omega
        simp only [putAll, put_of_le haccepts (Nat.le_of_not_lt hlt)]
        simp [hnone]

theorem putAll_of_unlimited (haccepts : sink.accepts = none) (chunks : List Bytes)
    (taken : Taken) :
    (sink.putAll chunks taken).1.bytes = taken.bytes ++ chunks.flatten ∧
      (sink.putAll chunks taken).2 = none := by
  induction chunks generalizing taken with
  | nil => simp [putAll]
  | cons chunk rest ih =>
      obtain ⟨hbytes, hrefusal⟩ := ih ⟨taken.bytes ++ chunk, taken.writes + 1⟩
      have hput : sink.put chunk taken = .ok ⟨taken.bytes ++ chunk, taken.writes + 1⟩ := by
        simp [put, haccepts]
      simp only [putAll, hput]
      rw [hbytes, hrefusal]
      simp

-- To write chunks is to write them one after the other, until one is refused.
theorem write_eq_putAll (sink : Sink) (chunks : List Bytes) :
    (sink.write chunks).1 = (sink.putAll chunks .nothing).1.bytes ∧
      (sink.putAll chunks .nothing).2 =
        if (sink.write chunks).2 then none else some sink.refusal := by
  cases haccepts : sink.accepts with
  | none =>
      obtain ⟨hbytes, hrefusal⟩ := putAll_of_unlimited haccepts chunks .nothing
      rw [hbytes, hrefusal]
      simp [write, haccepts, Taken.nothing]
  | some n =>
      obtain ⟨hbytes, hrefusal⟩ := putAll_of_accepts haccepts chunks .nothing
      rw [hbytes, hrefusal]
      by_cases hle : chunks.length ≤ n
      · simp [write, haccepts, Taken.nothing, hle]
      · simp [write, haccepts, Taken.nothing, hle]

theorem write_isPrefix (sink : Sink) (chunks : List Bytes) :
    (sink.write chunks).1 <+: chunks.flatten := by
  unfold write
  split
  · exact List.prefix_rfl
  · rename_i n _
    exact ⟨(chunks.drop n).flatten, by rw [← List.flatten_append, List.take_append_drop]⟩

-- Where a chunk is missing, bytes are.
theorem write_complete_iff (hne : ∀ chunk ∈ chunks, chunk ≠ []) :
    (sink.write chunks).2 = true ↔ (sink.write chunks).1 = chunks.flatten := by
  unfold write
  split
  · simp
  rename_i n _
  rw [decide_eq_true_iff]
  constructor
  · intro hle
    rw [List.take_of_length_le hle]
  · intro hall
    have hsplit : (chunks.take n).flatten ++ (chunks.drop n).flatten = chunks.flatten := by
      rw [← List.flatten_append, List.take_append_drop]
    have hrest : (chunks.drop n).flatten = [] :=
      List.append_cancel_left (hsplit.trans (hall.symm.trans (List.append_nil _).symm))
    have hdrop : chunks.drop n = [] := by
      rw [List.eq_nil_iff_forall_not_mem]
      intro chunk hmem
      exact hne chunk (List.mem_of_mem_drop hmem) (List.flatten_eq_nil_iff.mp hrest chunk hmem)
    exact List.drop_eq_nil_iff.mp hdrop

end Sink

namespace Report

-- What a writer that gives out after some writes leaves of a full text in chunks: the first
-- chunks, which are a part from the start, and no failure only if they are the full text.
structure CutAt (n : Nat) (failure : ReportError) (full : Bytes) (chunks : List Bytes)
    (outcome : Bytes × Option ReportError) : Prop where
  written : outcome.1 = (chunks.take n).flatten
  isPrefix : outcome.1 <+: full
  complete : outcome.2 = none ↔ outcome.1 = full
  failure : ∀ cause ∈ outcome.2, cause = failure

def deliver (sink : Sink) (failure : Bytes → ReportError) (chunks : List Bytes) :
    Bytes × Option ReportError :=
  ((sink.write chunks).1, if (sink.write chunks).2 then none else some (failure sink.refusal))

theorem deliver_cut {chunks : List Bytes} (hne : ∀ chunk ∈ chunks, chunk ≠ []) (n : Nat)
    (refusal : Bytes) (failure : Bytes → ReportError) :
    CutAt n (failure refusal) chunks.flatten chunks (deliver ⟨some n, refusal⟩ failure chunks) where
  written := rfl
  isPrefix := Sink.write_isPrefix _ chunks
  complete := by
    rw [deliver, ← Sink.write_complete_iff hne]
    simp
  failure := by
    intro cause hcause
    rw [deliver] at hcause
    split at hcause
    · simp at hcause
    · exact (Option.some.inj hcause).symm

theorem deliver_eq_putAll (sink : Sink) (failure : Bytes → ReportError) (chunks : List Bytes) :
    deliver sink failure chunks = ((sink.putAll chunks .nothing).1.bytes,
      (sink.putAll chunks .nothing).2.map failure) := by
  obtain ⟨hwritten, hrefusal⟩ := Sink.write_eq_putAll sink chunks
  rw [deliver, hwritten, hrefusal]
  cases (sink.write chunks).2 <;> rfl

-- The buffer is never emptied while it holds nothing.
theorem buffered_ne_nil (pieces : List Utf8.Piece) (held : Bytes) {done : List Bytes}
    (hdone : ∀ chunk ∈ done, chunk ≠ []) : ∀ chunk ∈ buffered pieces held done, chunk ≠ [] := by
  induction pieces generalizing held done with
  | nil =>
      by_cases hnil : held = []
      · simpa [buffered, hnil] using hdone
      · have hreverse : held.reverse ≠ [] := by simpa using hnil
        have hmore : ∀ chunk ∈ held.reverse :: done, chunk ≠ [] :=
          List.forall_mem_cons.mpr ⟨hreverse, hdone⟩
        intro chunk hmem
        rw [buffered, if_neg (by simpa using hnil), List.mem_reverse] at hmem
        exact hmore chunk hmem
  | cons piece rest ih =>
      by_cases hfull : held.length ≥ yamlBuffer
      · have hreverse : held.reverse ≠ [] := by
          rw [← List.length_pos_iff, List.length_reverse]
          exact Nat.lt_of_lt_of_le (by decide) hfull
        rw [buffered, if_pos hfull]
        exact ih _ (List.forall_mem_cons.mpr ⟨hreverse, hdone⟩)
      · rw [buffered, if_neg hfull]
        exact ih _ hdone

theorem chunks_ne_nil (format : Format) (colored : Bool) (r : Result) :
    ∀ chunk ∈ chunks format colored r, chunk ≠ [] := by
  cases format with
  | text =>
      have hline (v : Violation) : violationLine (Styles.of colored) v ≠ [] := by
        simp [violationLine]
      have hsummary : summaryLine (Styles.of colored) r ≠ [] := by simp [summaryLine]
      rw [chunks, textChunks_eq]
      by_cases hclean : r.violations = []
      · simp [hclean]
      · rw [if_neg hclean]
        refine List.forall_mem_append.mpr ⟨?_, List.forall_mem_singleton.mpr hsummary⟩
        exact List.forall_mem_map.mpr fun v _ => hline v
  | json => simp [chunks, JsonValue.document]
  | sarif => simp [chunks, JsonValue.document]
  | yaml => exact buffered_ne_nil _ _ (by simp)

theorem ruleLines_ne_nil : ∀ chunk ∈ Rule.catalog.map ruleLine, chunk ≠ [] := by
  intro chunk hmem
  obtain ⟨rule, -, rfl⟩ := List.mem_map.mp hmem
  simp [ruleLine]

theorem write_eq_deliver {name : Bytes} {format : Format} (hname : formatOf name = .ok format)
    (sink : Sink) (colored : Bool) (r : Result) :
    write sink name colored r =
      deliver sink (.unwritten format) (chunks format colored r) := by
  simp only [write, hname]
  rfl

-- A report is written chunk by chunk, up to the first that is refused. What a writer that
-- gives out has taken is a part of the full report from its start, and the report says that
-- it failed unless that is all of it. Text goes line by line, with the summary in the end.
-- The catalog is written in the same way, rule by rule.
theorem write_cut {name : Bytes} {format : Format} (hname : formatOf name = .ok format)
    (colored : Bool) (r : Result) (n : Nat) (refusal : Bytes) :
    (∃ full, write .unlimited name colored r = (full, none) ∧
      CutAt n (.unwritten format refusal) full (chunks format colored r)
        (write ⟨some n, refusal⟩ name colored r)) ∧
    (chunks .text colored r = if r.violations = [] then [] else
      r.violations.map (violationLine (Styles.of colored)) ++ [summaryLine (Styles.of colored) r]) ∧
    (∃ full, listRules .unlimited = (full, none) ∧
      CutAt n (.unlisted refusal) full (Rule.catalog.map ruleLine)
        (listRules ⟨some n, refusal⟩)) ∧
    ∀ sink : Sink, write sink name colored r =
      ((sink.putAll (chunks format colored r) .nothing).1.bytes,
        (sink.putAll (chunks format colored r) .nothing).2.map (.unwritten format)) := by
  refine ⟨⟨(chunks format colored r).flatten, ?_, ?_⟩, textChunks_eq colored r,
    ⟨(Rule.catalog.map ruleLine).flatten, rfl, ?_⟩, fun sink => ?_⟩
  · rw [write_eq_deliver hname]
    rfl
  · rw [write_eq_deliver hname]
    exact deliver_cut (chunks_ne_nil format colored r) n refusal (.unwritten format)
  · exact deliver_cut ruleLines_ne_nil n refusal .unlisted
  · rw [write_eq_deliver hname, deliver_eq_putAll]

-- A writer that gives out right between the last violation and the summary.
theorem write_cut_beforeSummary :
    formatOf Format.text.name = .ok .text ∧
      write ⟨some 1, utf8 "disk full"⟩ Format.text.name true escapedSample =
        ((escapedSample.violations.map (violationLine (Styles.of true))).flatten,
          some (.unwritten .text (utf8 "disk full"))) := by
  have hname : formatOf Format.text.name = .ok .text := rfl
  obtain ⟨⟨full, hfull, hcut⟩, hchunks, -, -⟩ :=
    write_cut hname true escapedSample 1 (utf8 "disk full")
  rw [write_unlimited, hchunks, if_neg (by decide), Prod.mk.injEq] at hfull
  have hwritten := hcut.written
  rw [hchunks, if_neg (by decide)] at hwritten
  have hfailed :
      (write ⟨some 1, utf8 "disk full"⟩ Format.text.name true escapedSample).2 ≠ none := by
    intro hcomplete
    have hall := hcut.complete.mp hcomplete
    rw [hwritten, ← hfull.1] at hall
    simp [escapedSample, summaryLine] at hall
  obtain ⟨cause, hcause⟩ := Option.ne_none_iff_exists'.mp hfailed
  refine ⟨hname, Prod.ext hwritten ?_⟩
  rw [hcause, hcut.failure cause hcause]

end Report

end ThemeLint
