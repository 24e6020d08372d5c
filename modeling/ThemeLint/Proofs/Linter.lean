import ThemeLint.Linter
import ThemeLint.Proofs.ThemeVariable

namespace ThemeLint.Linter

open Source

theorem finds_liesIn {kind : Kind} {text : Bytes} {m : Match} (hm : m ∈ finds kind text) :
    m.LiesIn text := by
  cases kind with
  | hardcodedColor => exact Pattern.findAll_liesIn hm
  | variableInStyle => exact Pattern.findAll_liesIn hm
  | variableInString => exact ThemeVariable.findInString_liesIn hm
  | other code => simp [finds] at hm

-- What a rule finds on a line stands from left to right and shares no byte.
theorem finds_ordered (kind : Kind) (text : Bytes) :
    (finds kind text).Pairwise fun a b => a.stop ≤ b.start := by
  cases kind with
  | hardcodedColor => exact Pattern.findAll_ordered _ text
  | variableInStyle => exact Pattern.findAll_ordered _ text
  | variableInString => exact ThemeVariable.findInString_ordered text _
  | other code => exact .nil

theorem finds_ascending (kind : Kind) (text : Bytes) :
    (finds kind text).Pairwise fun a b => a.start < b.start := by
  refine (finds_ordered kind text).imp_of_mem fun {a b} ha _ hle => ?_
  exact Nat.lt_of_lt_of_le (finds_liesIn ha).start_lt_stop hle

theorem mem_evaluate {accessors : Accessors} {rule : Rule} {line : Line} {v : Violation} :
    v ∈ evaluate accessors rule line ↔
      ∃ m ∈ finds rule.kind line.text, isExcused accessors rule.policy line.text m = false ∧
        v = violation rule line m := by
  simp only [evaluate, List.mem_map, List.mem_filter, Bool.not_eq_eq_eq_not, Bool.not_true]
  constructor
  · rintro ⟨m, ⟨hm, hexcused⟩, rfl⟩
    exact ⟨m, hm, hexcused, rfl⟩
  · rintro ⟨m, hm, hexcused, rfl⟩
    exact ⟨m, ⟨hm, hexcused⟩, rfl⟩

theorem evaluate_ascending (accessors : Accessors) (rule : Rule) (line : Line) :
    (evaluate accessors rule line).Pairwise fun v w => v.column < w.column := by
  rw [evaluate, List.pairwise_map]
  refine ((finds_ascending rule.kind line.text).filter _).imp fun {a b} h => ?_
  simp only [violation]
  omega

end ThemeLint.Linter
