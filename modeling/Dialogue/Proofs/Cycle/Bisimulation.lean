import Dialogue.Proofs.Update.Ranking

/-! # Cycles that run alike

Two cycles end in related states when each matches what the other does, either by firing the same
rule or without a firing. Priorities are the same in both, so what they fire first agrees as well.
-/

namespace Dialogue.Engine

open Update

variable {e e' : Engine} {input input' : TurnInput} {s t u v : InformationState}
  {rs rs' : List Rule} {related : InformationState → InformationState → Prop}

/-- Whatever fires in a state fires in a related one as well, or is not noticed there. -/
def Matches (e e' : Engine) (input input' : TurnInput)
    (related : InformationState → InformationState → Prop) : Prop :=
  ∀ s t r u, related s t → Fires e input s r u →
    related u t ∨ ∃ v, Fires e' input' t r v ∧ related u v

theorem Matches.congr {related' : InformationState → InformationState → Prop}
    (h : Matches e e' input input' related) (hSame : ∀ s t, related s t ↔ related' s t) :
    Matches e e' input input' related' := by
  have hEq : related = related' := by
    funext s t
    exact propext (hSame s t)
  exact hEq ▸ h

section

variable (hRules : e.rules = defaultRules) (hRules' : e'.rules = defaultRules)
include hRules hRules'

theorem Matches.related_of_isSettled
    (hBack : Matches e' e input' input fun t s => related s t) (hSettled : e.IsSettled input s)
    (h : e'.Trace input' t rs v) (hStart : related s t) : related s v := by
  induction h with
  | done t => exact hStart
  | fire hHit _ ih =>
    rcases hBack _ _ _ _ hStart (fires_of_applicable? hRules' hHit) with hKept | ⟨u, hFires, -⟩
    · exact ih hKept
    · exact absurd hFires (not_fires_of_isSettled hRules hSettled)

/-- What fires first in one cycle fires in the other after what is not noticed. -/
theorem Matches.exists_fire (hThere : Matches e e' input input' related)
    (hBack : Matches e' e input' input fun t s => related s t) {r : Rule} {deltas : List Delta}
    (hHit : e.applicable? input s = some (r, deltas)) (h : e'.Trace input' t rs v)
    (hSettled : e'.IsSettled input' v) (hStart : related s t) :
    ∃ t' rest, e'.Trace input' t' rest v ∧ related (s.apply deltas) t' := by
  induction h with
  | done t =>
    rcases hThere _ _ _ _ hStart (fires_of_applicable? hRules hHit) with hKept | ⟨v, hFires, -⟩
    · exact ⟨t, [], .done t, hKept⟩
    · exact absurd hFires (not_fires_of_isSettled hRules' hSettled)
  | @fire t v r' deltas' rs hHit' hRest ih =>
    rcases hThere _ _ _ _ hStart (fires_of_applicable? hRules hHit) with hKept | ⟨t', hFires, hNext⟩
    · exact ⟨t, r' :: rs, .fire hHit' hRest, hKept⟩
    have hFires' := fires_of_applicable? hRules' hHit'
    rcases hBack _ _ _ _ hStart hFires' with hKept | ⟨u, hMatch, -⟩
    · exact ih hSettled hKept
    -- each of the two rules fires on both sides, so neither comes before the other
    have hRank := rank_le_of_applicable? hRules hHit hMatch
    have hRank' := rank_le_of_applicable? hRules' hHit' hFires
    obtain rfl : r = r' := eq_of_rank_eq (mem_defaultRules_of_fires hFires)
      (mem_defaultRules_of_fires hFires') (Nat.le_antisymm hRank hRank')
    rw [← hFires.apply_eq hHit'] at hNext
    exact ⟨_, rs, hRest, hNext⟩

theorem Matches.related_of_traces (hThere : Matches e e' input input' related)
    (hBack : Matches e' e input' input fun t s => related s t) (h : e.Trace input s rs u)
    (hSettled : e.IsSettled input u) (h' : e'.Trace input' t rs' v)
    (hSettled' : e'.IsSettled input' v) (hStart : related s t) : related u v := by
  induction h generalizing t rs' with
  | done s => exact hBack.related_of_isSettled hRules hRules' hSettled h' hStart
  | fire hHit _ ih =>
    obtain ⟨t', rest, hRest, hNext⟩ :=
      hThere.exists_fire hRules hRules' hBack hHit h' hSettled' hStart
    exact ih hSettled hRest hNext

end

end Dialogue.Engine
