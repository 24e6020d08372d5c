import ThemeLint.Proofs.Accessor.OpenCall
import ThemeLint.Proofs.Config
import ThemeLint.Proofs.Linter
import Mathlib.Data.List.Flatten

namespace ThemeLint

theorem Rule.id_of_requiresContextCheck :
    ∀ rule ∈ Rule.catalog, rule.policy = .requiresContextCheck →
      rule.id = Rule.hardcodedColor.id := by decide

namespace Linter

open Bytes Source

variable {fewer more : Accessors}

theorem isExcused_mono {policy : Policy} {text : Bytes} {m : Match}
    (hnames : fewer.names ⊆ more.names) (h : isExcused fewer policy text m = true) :
    isExcused more policy text m = true := by
  rw [isExcused, Bool.and_eq_true] at h ⊢
  exact ⟨h.1, Accessors.isFallback_mono hnames h.2⟩

theorem evaluate_sublist (hnames : fewer.names ⊆ more.names) (rule : Rule) (line : Line) :
    (evaluate more rule line).Sublist (evaluate fewer rule line) := by
  refine (List.monotone_filter_right _ fun m hkept => ?_).map _
  rw [Bool.not_eq_true'] at hkept ⊢
  rw [Bool.eq_false_iff] at hkept ⊢
  exact fun hexcused => hkept (isExcused_mono hnames hexcused)

theorem checkLine_sublist (hnames : fewer.names ⊆ more.names) (line : Line) :
    (checkLine more line).Sublist (checkLine fewer line) :=
  List.Sublist.flatMap_right Rule.catalog fun rule _ => evaluate_sublist hnames rule line

theorem evaluate_eq_of_policy {rule : Rule} (hpolicy : rule.policy ≠ .requiresContextCheck)
    (fewer more : Accessors) (line : Line) :
    evaluate fewer rule line = evaluate more rule line := by
  have hkept (accessors : Accessors) (m : Match) :
      isExcused accessors rule.policy line.text m = false := by
    simp [isExcused, hpolicy]
  simp [evaluate, hkept]

-- What is not about colors is found whatever the accessors are.
theorem filter_checkLine (fewer more : Accessors) (line : Line) :
    (checkLine fewer line).filter (·.ruleId != Rule.hardcodedColor.id) =
      (checkLine more line).filter (·.ruleId != Rule.hardcodedColor.id) := by
  rw [checkLine, checkLine, List.filter_flatMap, List.filter_flatMap]
  refine List.flatMap_congr fun rule hrule => ?_
  by_cases hpolicy : rule.policy = .requiresContextCheck
  · have hnone (accessors : Accessors) : (evaluate accessors rule line).filter
        (·.ruleId != Rule.hardcodedColor.id) = [] := by
      refine List.filter_eq_nil_iff.mpr fun v hv => ?_
      obtain ⟨m, _, _, rfl⟩ := mem_evaluate.mp hv
      simp [violation, Rule.id_of_requiresContextCheck rule hrule hpolicy]
    rw [hnone, hnone]
  · rw [evaluate_eq_of_policy hpolicy fewer more]

-- Accessors act as a set, and more of them only excuse more colors: what is reported under
-- the longer list is reported under the shorter one, in the same order, and all that goes
-- missing is colors. Lists of the same names report the same.
theorem checkLine_of_subset {names others : List Bytes} {fewer more : Accessors}
    (hfewer : Accessors.ofNames names = .ok fewer) (hmore : Accessors.ofNames others = .ok more)
    (hsubset : names ⊆ others) (line : Line) :
    (checkLine more line).Sublist (checkLine fewer line) ∧
    (∀ v ∈ checkLine fewer line, v ∉ checkLine more line → v.ruleId = Rule.hardcodedColor.id) ∧
    (checkLine fewer line).filter (·.ruleId != Rule.hardcodedColor.id) =
      (checkLine more line).filter (·.ruleId != Rule.hardcodedColor.id) ∧
    (others ⊆ names → checkLine more line = checkLine fewer line) := by
  obtain rfl := Accessors.names_of_ofNames hfewer
  obtain rfl := Accessors.names_of_ofNames hmore
  have hsublist := checkLine_sublist hsubset line
  have hfilter := filter_checkLine fewer more line
  refine ⟨hsublist, fun v hv hmissing => ?_, hfilter, fun hback => ?_⟩
  · by_contra hrule
    have hkept : v ∈ (checkLine fewer line).filter (·.ruleId != Rule.hardcodedColor.id) :=
      List.mem_filter.mpr ⟨hv, by simpa using hrule⟩
    rw [hfilter] at hkept
    exact hmissing (List.mem_filter.mp hkept).1
  · exact hsublist.antisymm (checkLine_sublist hback line)

-- A line with a fallback of cssVar, a theme variable and a color of its own.
def fallbackLine : Line :=
  ⟨utf8 "c = cssVar('a', '#fff') + 'var(--x)' + '#000'", 1, utf8 "/w/a", utf8 "a"⟩

def shortList : Accessors := ⟨[utf8 "tokenOr"], by decide, by decide⟩

def longList : Accessors :=
  ⟨[utf8 "cssVar", utf8 "tokenOr", utf8 "tokenOr"], by decide, by decide⟩

theorem checkLine_of_subset_fallbackLine :
    (checkLine longList fallbackLine).map (·.column) = [41, 28] ∧
      (checkLine shortList fallbackLine).map (·.column) = [18, 41, 28] ∧
      (checkLine longList fallbackLine).Sublist (checkLine shortList fallbackLine) :=
  ⟨by decide, by decide, (checkLine_of_subset shortList.ofNames_names longList.ofNames_names
    (by decide) fallbackLine).1⟩

end Linter

end ThemeLint
