import Dialogue.Proofs.Cycle.Trace
import Dialogue.Proofs.State.Version

/-! # Runs of a given length

`Leads` counts the firings between two states of a cycle and `Settles` those of a whole cycle, both
up to the version of the state they end in. Cycles are put together from their parts with them.
-/

namespace Dialogue

open Update

namespace Engine

variable {e : Engine} {input : TurnInput} {s s' t u : InformationState} {r : Rule}
  {deltas : List Delta} {n m : Nat}

def Leads (e : Engine) (input : TurnInput) (n : Nat) (s t : InformationState) : Prop :=
  ∃ rs t', e.Trace input s rs t' ∧ rs.length = n ∧ SameUpToVersion t t'

theorem Leads.refl (s : InformationState) : e.Leads input 0 s s :=
  ⟨[], s, .done s, rfl, .refl s⟩

theorem Leads.single (hFires : e.applicable? input s = some (r, deltas))
    (hApply : SameUpToVersion t (s.apply deltas)) : e.Leads input 1 s t :=
  ⟨[r], s.apply deltas, .fire hFires (.done _), rfl, hApply⟩

theorem Leads.of_sameUpToVersion (hRules : e.rules = defaultRules) (h : e.Leads input n s t)
    (hSame : SameUpToVersion s s') : e.Leads input n s' t := by
  obtain ⟨rs, u, hTrace, hLength, hEnd⟩ := h
  obtain ⟨u', hTrace', hEnd'⟩ := hTrace.of_sameUpToVersion hRules hSame
  exact ⟨rs, u', hTrace', hLength, hEnd.trans hEnd'⟩

theorem Leads.trans (hRules : e.rules = defaultRules) (h : e.Leads input n s t)
    (h' : e.Leads input m t u) : e.Leads input (n + m) s u := by
  obtain ⟨rs, t', hTrace, hLength, hSame⟩ := h
  obtain ⟨rs', u', hTrace', hLength', hEnd⟩ := h'.of_sameUpToVersion hRules hSame
  exact ⟨rs ++ rs', u', hTrace.append hTrace', by rw [List.length_append, hLength, hLength'], hEnd⟩

/-- A cycle from `s` settles after `n` firings and leaves `t` to the next one. -/
def Settles (e : Engine) (input : TurnInput) (n : Nat) (s t : InformationState) : Prop :=
  ∃ u, e.Leads input n s.beginTurn u ∧ e.IsSettled input u ∧ t = u.endTurn

theorem Settles.of_sameUpToVersion (hRules : e.rules = defaultRules) (h : e.Settles input n s t)
    (hSame : SameUpToVersion s s') : e.Settles input n s' t := by
  obtain ⟨u, hLeads, hSettled, hEnd⟩ := h
  exact ⟨u, hLeads.of_sameUpToVersion hRules hSame.beginTurn, hSettled, hEnd⟩

theorem Settles.exists_run (hRules : e.rules = defaultRules) (h : e.Settles input n s t)
    (hCeiling : n ≤ e.config.maxFirings.toNat) :
    ∃ u, (e.run s input).outcome = .ok u ∧ SameUpToVersion t u := by
  obtain ⟨v, ⟨rs, v', hTrace, hLength, hSame⟩, hSettled, rfl⟩ := h
  refine ⟨v'.endTurn, ?_, hSame.endTurn⟩
  have hSettled' : e.IsSettled input v' :=
    (applicable?_of_sameUpToVersion hRules hSame).trans hSettled
  exact settle_outcome_of_trace hTrace hSettled' (hLength ▸ hCeiling) 0

theorem Settles.le_of_run (hRules : e.rules = defaultRules) (h : e.Settles input n s t)
    (hRun : (e.run s input).outcome = .ok u) : n ≤ e.config.maxFirings.toNat := by
  obtain ⟨v, ⟨rs, v', hTrace, hLength, hSame⟩, hSettled, rfl⟩ := h
  obtain ⟨rs', w, hTrace', hSettled', hLength', -⟩ := run_outcome_eq_ok_iff.mp hRun
  have hSettled'' : e.IsSettled input v' :=
    (applicable?_of_sameUpToVersion hRules hSame).trans hSettled
  obtain ⟨hEq, -⟩ := hTrace.eq_of_isSettled hSettled'' hTrace' hSettled'
  rw [← hLength, hEq]
  exact hLength'

/-- A cycle that returns ends where it settles, with one new version for each firing. -/
theorem Settles.eq_of_run (hRules : e.rules = defaultRules) (h : e.Settles input n s t)
    (hRun : (e.run s input).outcome = .ok u) :
    u = { t with version := s.version + UInt64.ofNat n } := by
  obtain ⟨v, ⟨rs, v', hTrace, hLength, hSame⟩, hSettled, rfl⟩ := h
  obtain ⟨rs', w, hTrace', hSettled', -, rfl⟩ := run_outcome_eq_ok_iff.mp hRun
  have hSettled'' : e.IsSettled input v' :=
    (applicable?_of_sameUpToVersion hRules hSame).trans hSettled
  obtain ⟨rfl, rfl⟩ := hTrace.eq_of_isSettled hSettled'' hTrace' hSettled'
  have hVersion : v'.version = s.version + UInt64.ofNat rs.length := hTrace.version_eq
  obtain ⟨version, rfl⟩ := hSame
  rw [← hLength, ← hVersion]
  rfl

theorem Settles.run_outcome_eq_ok_iff (hRules : e.rules = defaultRules)
    (h : e.Settles input n s t) : (e.run s input).outcome = .ok u ↔
      n ≤ e.config.maxFirings.toNat ∧ u = { t with version := s.version + UInt64.ofNat n } := by
  constructor
  · intro hRun
    exact ⟨h.le_of_run hRules hRun, h.eq_of_run hRules hRun⟩
  · rintro ⟨hCeiling, rfl⟩
    obtain ⟨v, hRun, -⟩ := h.exists_run hRules hCeiling
    rw [hRun, h.eq_of_run hRules hRun]

end Engine

end Dialogue
