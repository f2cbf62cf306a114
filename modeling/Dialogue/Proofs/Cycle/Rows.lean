import Dialogue.Proofs.Cycle.Dispatch

/-! # Firings in a row

The firings of a cycle that returns lead from one to the next. But for the rules that were tried,
they and the completion are all that its log tells.
-/

namespace Dialogue

def Firing.notice (f : Firing) : Notice :=
  .fired f.rule f.iteration f.before f.after

namespace Engine

open Update

variable {e : Engine} {input : TurnInput} {s t u : InformationState} {r : Rule}
  {firings : List Firing}

/-- Firings of which each begins where the one before it has led. -/
inductive Row (e : Engine) (input : TurnInput) :
    InformationState → List Firing → InformationState → Prop where
  | done (s : InformationState) : Row e input s [] s
  | fire {s t u : InformationState} {r : Rule} {i : Nat} {firings : List Firing} :
      e.step? input s = some (r, t) → Row e input t firings u →
      Row e input s (⟨r, i, s, t⟩ :: firings) u

theorem fires_of_step? (hRules : e.rules = defaultRules) (h : e.step? input s = some (r, t)) :
    Fires e input s r t := by
  obtain ⟨deltas, hHit, rfl⟩ := step?_eq_some_iff.mp h
  exact fires_of_applicable? hRules hHit

namespace Row

theorem trace (h : e.Row input s firings t) : e.Trace input s (firings.map (·.rule)) t := by
  induction h with
  | done s => exact .done s
  | fire hStep _ ih =>
    obtain ⟨deltas, hHit, rfl⟩ := step?_eq_some_iff.mp hStep
    exact .fire hHit ih

/-- Before each of its firings a row has come some way, and the rest of it goes on from there. -/
theorem exists_of_mem (h : e.Row input s firings t) {f : Firing} (hMem : f ∈ firings) :
    ∃ before rest, e.Row input s before f.before ∧ e.step? input f.before = some (f.rule, f.after) ∧
      e.Row input f.after rest t := by
  induction h with
  | done s => cases hMem
  | @fire s t u r i firings hStep hRest ih =>
    rcases List.mem_cons.mp hMem with rfl | hMem
    · exact ⟨[], firings, .done s, hStep, hRest⟩
    · obtain ⟨before, rest, hBefore, hHere, hAfter⟩ := ih hMem
      exact ⟨_, rest, .fire (i := i) hStep hBefore, hHere, hAfter⟩

end Row

/-- What is told of a log tells nothing of the rules that were tried. -/
def TellsFirings {α : Type} (tell : Notice → List α) : Prop :=
  ∀ rule matched, tell (.evaluated rule matched) = []

theorem flatMap_scan {α : Type} {tell : Notice → List α} (hTell : TellsFirings tell) (c : Context)
    (rules : List Rule) : (scan c rules).1.flatMap tell = [] := by
  rw [List.flatMap_eq_nil_iff]
  intro notice hMem
  obtain ⟨rule, matched, rfl⟩ := exists_evaluated_of_mem_scan hMem
  exact hTell rule matched

theorem exists_row_of_settle {allowed fired : Nat}
    (h : (e.settle input allowed fired s).outcome = .ok t) :
    ∃ firings u, e.Row input s firings u ∧ e.IsSettled input u ∧ t = u.endTurn ∧
      firings.length ≤ allowed ∧ ∀ {α : Type} {tell : Notice → List α}, TellsFirings tell →
        (e.settle input allowed fired s).log.flatMap tell =
          firings.flatMap (fun f => tell f.notice) ++
            tell (.completed input (fired + firings.length) t) := by
  induction allowed generalizing fired s with
  | zero =>
    cases hHit : e.applicable? input s with
    | none =>
      rw [settle_eq, hHit] at h
      cases h
      refine ⟨[], s, .done s, hHit, rfl, Nat.zero_le 0, fun hTell => ?_⟩
      rw [settle_eq, hHit]
      simp [flatMap_scan hTell]
    | some hit =>
      rw [settle_outcome_zero hHit] at h
      cases h
  | succ allowed ih =>
    cases hHit : e.applicable? input s with
    | none =>
      rw [settle_eq, hHit] at h
      cases h
      refine ⟨[], s, .done s, hHit, rfl, Nat.zero_le _, fun hTell => ?_⟩
      rw [settle_eq, hHit]
      simp [flatMap_scan hTell]
    | some hit =>
      obtain ⟨r, deltas⟩ := hit
      rw [settle_outcome_succ hHit] at h
      obtain ⟨firings, u, hRow, hSettled, hEnd, hLength, hLog⟩ := ih h
      have hStep : e.step? input s = some (r, s.apply deltas) :=
        step?_eq_some_iff.mpr ⟨deltas, hHit, rfl⟩
      refine ⟨⟨r, fired + 1, s, s.apply deltas⟩ :: firings, u, .fire hStep hRow, hSettled, hEnd,
        Nat.succ_le_succ hLength, fun hTell => ?_⟩
      rw [settle_eq, hHit]
      simp [flatMap_scan hTell, hLog hTell, Firing.notice, Nat.add_assoc, Nat.add_comm 1]

/-- A cycle that returns has a row of firings, as many as the ceiling allows at most, and its log
tells nothing else but that it is completed. -/
theorem exists_row_of_run (h : (e.run s input).outcome = .ok t) :
    ∃ u, e.Row input s.beginTurn (e.run s input).firings u ∧ e.IsSettled input u ∧
      t = u.endTurn ∧ (e.run s input).firings.length ≤ e.config.maxFirings.toNat ∧
      ∀ {α : Type} {tell : Notice → List α}, TellsFirings tell → (e.run s input).log.flatMap tell =
        (e.run s input).firings.flatMap (fun f => tell f.notice) ++
          tell (.completed input (e.run s input).firings.length t) := by
  obtain ⟨firings, u, hRow, hSettled, hEnd, hLength, hLog⟩ := exists_row_of_settle h
  have hFirings : (e.run s input).firings = firings := by
    have hTell : TellsFirings fun notice => notice.firing?.toList := fun _ _ => rfl
    rw [CycleResult.firings, List.filterMap_eq_flatMap_toList, run, hLog hTell]
    simp [Firing.notice, Notice.firing?]
  rw [hFirings]
  refine ⟨u, hRow, hSettled, hEnd, hLength, fun hTell => ?_⟩
  rw [run, hLog hTell, Nat.zero_add]

end Engine

end Dialogue
