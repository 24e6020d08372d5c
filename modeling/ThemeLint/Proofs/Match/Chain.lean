import ThemeLint.Proofs.Match

namespace ThemeLint

namespace Match

-- Matches taken from left to right: each is the first that fits at or behind the end of the
-- one before it, and none fits behind the last.
inductive Chain (Fits : Match → Prop) : Nat → List Match → Prop
  | nil {position : Nat} (hnone : ∀ m, position ≤ m.start → ¬Fits m) : Chain Fits position []
  | cons {position : Nat} {m : Match} {found : List Match} (hfrom : position ≤ m.start)
      (hfits : Fits m) (hfirst : ∀ other, position ≤ other.start → other.start < m.start → ¬Fits other)
      (hrest : Chain Fits m.stop found) : Chain Fits position (m :: found)

namespace Chain

variable {Fits : Match → Prop} {position : Nat} {found : List Match}

theorem pass (h : Chain Fits (position + 1) found) (hnone : ∀ m, m.start = position → ¬Fits m) :
    Chain Fits position found := by
  cases h with
  | nil hbehind =>
      refine .nil fun m hm => ?_
      by_cases hstart : m.start = position
      · exact hnone m hstart
      · exact hbehind m (by omega)
  | cons hfrom hfits hfirst hrest =>
      refine .cons (by omega) hfits (fun other hother hlt => ?_) hrest
      by_cases hstart : other.start = position
      · exact hnone other hstart
      · exact hfirst other (by omega) hlt

-- The choice of each match is forced if no two of them fit at one place.
theorem unique (hsame : ∀ a b, Fits a → Fits b → a.start = b.start → a = b)
    (h : Chain Fits position found) {others : List Match} (hothers : Chain Fits position others) :
    found = others := by
  induction h generalizing others with
  | nil hnone =>
      cases hothers with
      | nil => rfl
      | cons hfrom hfits => exact absurd hfits (hnone _ hfrom)
  | @cons position m found hfrom hfits hfirst hrest ih =>
      cases hothers with
      | nil hnone => exact absurd hfits (hnone _ hfrom)
      | @cons _ other others hfromOther hfitsOther hfirstOther hrestOther =>
          have hle : m.start ≤ other.start := by
            by_contra hlt
            exact hfirst other hfromOther (by omega) hfitsOther
          have hge : other.start ≤ m.start := by
            by_contra hlt
            exact hfirstOther m hfrom (by omega) hfits
          obtain rfl := hsame m other hfits hfitsOther (by omega)
          rw [ih hrestOther]

end Chain

end Match

namespace Pattern.Reads

variable {pattern : Pattern} {Fits : Bytes → Bytes → Bytes → Prop}

-- The walk as a chain. What is left of the last match is skipped, so that the chain goes on
-- where the walk leaves it.
theorem findAll_chain (h : pattern.Reads Fits) (text : Bytes) :
    Match.Chain (Match.Stands Fits text) 0 (pattern.findAll text) := by
  apply findAll_induction (motive := fun position skip found =>
    Match.Chain (Match.Stands Fits text) (position + skip) found)
  case done =>
    intro position skip hend
    refine .nil fun m hm hstands => ?_
    have hlies := h.liesIn hstands
    have hlt := hlies.start_lt_stop
    have hle := hlies.stop_le
    omega
  case inside =>
    intro position skip found _ ih
    rwa [Nat.add_right_comm] at ih
  case miss =>
    intro position found _ hnone ih
    refine Match.Chain.pass ih fun m hm hstands => ?_
    obtain ⟨more, hmore, _⟩ := h.lengthAt hstands
    rw [hm, Nat.add_zero] at hmore
    exact hnone more hmore
  case hit =>
    intro position more found hlt hmore ih
    obtain ⟨hstands, hlength⟩ := h.stands_of_lengthAt hlt hmore
    refine .cons (Nat.le_refl _) hstands (fun other hother hbefore => ?_) ?_
    · exact absurd hother (Nat.not_le_of_lt hbefore)
    · have hstop : position + 1 + more = position + (more + 1) := by omega
      simpa only [Match.stop, hlength, hstop] using ih

theorem findAll_eq_iff (h : pattern.Reads Fits) {text : Bytes} {found : List Match} :
    pattern.findAll text = found ↔ Match.Chain (Match.Stands Fits text) 0 found := by
  have hchain := h.findAll_chain text
  constructor
  · rintro rfl
    exact hchain
  · exact hchain.unique fun _ _ => h.eq_of_start

end Pattern.Reads

end ThemeLint
