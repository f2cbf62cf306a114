import Dialogue.Proofs.Update.Priority

/-! # Versions

No default rule reads the version of a state, so states that differ in it alone run alike.
-/

namespace Dialogue

open Update

def SameUpToVersion (s t : InformationState) : Prop :=
  ∃ version, t = { s with version := version }

namespace SameUpToVersion

variable {s t u : InformationState}

theorem refl (s : InformationState) : SameUpToVersion s s := ⟨s.version, rfl⟩

theorem symm (h : SameUpToVersion s t) : SameUpToVersion t s := by
  obtain ⟨version, rfl⟩ := h
  exact ⟨s.version, rfl⟩

theorem trans (h : SameUpToVersion s t) (h' : SameUpToVersion t u) : SameUpToVersion s u := by
  obtain ⟨version, rfl⟩ := h
  obtain ⟨version', rfl⟩ := h'
  exact ⟨version', rfl⟩

theorem beginTurn (h : SameUpToVersion s t) : SameUpToVersion s.beginTurn t.beginTurn := by
  obtain ⟨version, rfl⟩ := h
  exact ⟨version, rfl⟩

theorem endTurn (h : SameUpToVersion s t) : SameUpToVersion s.endTurn t.endTurn := by
  obtain ⟨version, rfl⟩ := h
  exact ⟨version, rfl⟩

theorem reduce (h : SameUpToVersion s t) (delta : Delta) :
    SameUpToVersion (s.reduce delta) (t.reduce delta) := by
  obtain ⟨version, rfl⟩ := h
  exact ⟨version, by cases delta <;> rfl⟩

theorem apply (h : SameUpToVersion s t) (deltas : List Delta) :
    SameUpToVersion (s.apply deltas) (t.apply deltas) := by
  have hFold : SameUpToVersion (deltas.foldl InformationState.reduce s)
      (deltas.foldl InformationState.reduce t) := by
    induction deltas generalizing s t with
    | nil => exact h
    | cons delta rest ih => exact ih (h.reduce delta)
  obtain ⟨version, hEq⟩ := hFold
  exact ⟨version + 1, by rw [InformationState.apply, hEq]; rfl⟩

end SameUpToVersion

namespace InformationState

theorem version_reduce (s : InformationState) (delta : Delta) :
    (s.reduce delta).version = s.version := by
  cases delta with
  | _ => rfl

/-- The changes of a rule make one new version together. -/
theorem version_apply (s : InformationState) (deltas : List Delta) :
    (s.apply deltas).version = s.version + 1 := by
  have hFold : (deltas.foldl reduce s).version = s.version := by
    induction deltas generalizing s with
    | nil => rfl
    | cons delta rest ih => rw [List.foldl_cons, ih, version_reduce]
  rw [apply, hFold]

end InformationState

namespace Engine

variable {e : Engine} {input : TurnInput} {s s' t : InformationState} {r : Rule} {rs : List Rule}

theorem effect_version (hRule : r ∈ defaultRules) (version : UInt64) :
    r.effect (e.context input { s with version := version }) = r.effect (e.context input s) := by
  cases hRule using defaultRules_cases with
  | _ => rfl

theorem applicable?_of_sameUpToVersion (hRules : e.rules = defaultRules)
    (h : SameUpToVersion s s') : e.applicable? input s' = e.applicable? input s := by
  obtain ⟨version, rfl⟩ := h
  exact applicable?_congr fun r hRule => effect_version (hRules ▸ hRule) version

theorem Trace.version_eq (h : e.Trace input s rs t) :
    t.version = s.version + UInt64.ofNat rs.length := by
  induction h with
  | done s => exact (UInt64.add_zero s.version).symm
  | @fire s t r deltas rs _ _ ih =>
    rw [ih, InformationState.version_apply, List.length_cons, Nat.add_comm, UInt64.ofNat_add,
      UInt64.add_assoc]
    rfl

theorem Trace.of_sameUpToVersion (hRules : e.rules = defaultRules) (h : e.Trace input s rs t)
    (hSame : SameUpToVersion s s') : ∃ t', e.Trace input s' rs t' ∧ SameUpToVersion t t' := by
  induction h generalizing s' with
  | done s => exact ⟨s', .done s', hSame⟩
  | fire hFires _ ih =>
    obtain ⟨t', hTrace, hEnd⟩ := ih (hSame.apply _)
    exact ⟨t', .fire ((applicable?_of_sameUpToVersion hRules hSame).trans hFires) hTrace, hEnd⟩

end Engine

end Dialogue
