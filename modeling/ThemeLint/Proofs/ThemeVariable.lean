import ThemeLint.Proofs.Match
import ThemeLint.ThemeVariable

namespace ThemeLint.ThemeVariable

theorem mem_findInString {text : Bytes} {covered : List Span} {m : Match} :
    m ∈ findInString text covered ↔
      ∃ string ∈ quotedString.findAll text, (∀ span ∈ covered, string.span.overlaps span = false) ∧
        ∃ inner ∈ reference.findAll string.text, m = inner.shift string.start := by
  simp only [findInString, List.mem_flatMap]
  refine exists_congr fun string => and_congr_right fun _ => ?_
  by_cases h : covered.any string.span.overlaps = true
  · obtain ⟨span, hspan, hover⟩ := List.any_eq_true.mp h
    simp only [h, if_true, List.not_mem_nil, false_iff, not_and]
    intro hapart
    simp [hapart span hspan] at hover
  · have hapart : ∀ span ∈ covered, string.span.overlaps span = false := by
      simpa using h
    simp only [h, Bool.false_eq_true, if_false, List.mem_map]
    constructor
    · rintro ⟨inner, hinner, rfl⟩
      exact ⟨hapart, inner, hinner, rfl⟩
    · rintro ⟨_, inner, hinner, rfl⟩
      exact ⟨inner, hinner, rfl⟩

theorem findInString_liesIn {text : Bytes} {covered : List Span} {m : Match}
    (hm : m ∈ findInString text covered) : m.LiesIn text := by
  obtain ⟨string, hstring, _, inner, hinner, rfl⟩ := mem_findInString.mp hm
  exact (Pattern.findAll_liesIn hstring).shift (Pattern.findAll_liesIn hinner)

-- References stand from left to right: within a string by the walk over the string,
-- and across strings because each stays inside its own.
theorem findInString_ordered (text : Bytes) (covered : List Span) :
    (findInString text covered).Pairwise fun a b => a.stop ≤ b.start := by
  rw [findInString, List.pairwise_flatMap]
  constructor
  · intro string _
    split
    · exact .nil
    · rw [List.pairwise_map]
      refine (Pattern.findAll_ordered reference string.text).imp fun {a b} h => ?_
      simp only [Match.shift_start, Match.shift_stop]
      omega
  · refine (Pattern.findAll_ordered quotedString text).imp fun {first second} happart a ha b hb => ?_
    split at ha
    · simp at ha
    split at hb
    · simp at hb
    obtain ⟨inner, hinner, rfl⟩ := List.mem_map.mp ha
    obtain ⟨other, hother, rfl⟩ := List.mem_map.mp hb
    have hstop := Pattern.shift_stop_le_of_mem_findAll hinner
    simp only [Match.shift_start]
    omega

end ThemeLint.ThemeVariable
