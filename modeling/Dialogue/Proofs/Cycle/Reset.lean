import Dialogue.Console
import Dialogue.Proofs.Cycle.Trace
import Dialogue.Proofs.State.Version

/-! # Agenda resets

A cycle that was asked for a reset clears the agenda whenever it finds something there, also what it
has put there itself. It therefore runs like the cycle from an empty agenda exactly as long as that
one puts nothing on its agenda. Once it copies a step of its plan or takes up a question, it is
refused under every ceiling.
-/

namespace Dialogue

open Update

namespace TurnInput

def withReset (input : TurnInput) : TurnInput :=
  { input with resetAgenda := true }

end TurnInput

namespace InformationState

def withoutAgenda (s : InformationState) : InformationState :=
  { s with own.agenda := [] }

end InformationState

namespace Engine

variable {e : Engine} {input : TurnInput} {s t u : InformationState} {r : Rule}
  {deltas : List Delta} {rs : List Rule}

theorem effect_withReset (hRule : r ∈ defaultRules) (hAgenda : s.own.agenda = []) :
    r.effect (e.context input.withReset s) = r.effect (e.context input s) := by
  cases hRule using defaultRules_cases with
  | clearAgenda => simp [clearAgenda, hAgenda]
  | _ => rfl

theorem applicable?_withReset_of_nil (hRules : e.rules = defaultRules)
    (hAgenda : s.own.agenda = []) :
    e.applicable? input.withReset s = e.applicable? input s :=
  applicable?_congr fun _ hRule => effect_withReset (hRules ▸ hRule) hAgenda

theorem applicable?_withReset_of_ne_nil (hRules : e.rules = defaultRules)
    (hAgenda : s.own.agenda ≠ []) :
    e.applicable? input.withReset s = some (clearAgenda, [.clearAgenda]) := by
  have hTable : defaultRules = rulesBefore clearAgenda ++ clearAgenda :: defaultRules.tail := rfl
  refine applicable?_of_rulesBefore hRules hTable ?_ ?_
  · intro r' hBefore
    cases hBefore
  · simp [clearAgenda, TurnInput.withReset, hAgenda]

theorem clearAgenda_not_fires (hAgenda : s.own.agenda = []) :
    e.applicable? input s ≠ some (clearAgenda, deltas) := by
  intro h
  have hEffect := (applicable?_eq_some_iff.mp h).1
  simp [clearAgenda, hAgenda] at hEffect

/-- No firing of the cycle puts anything on its agenda, which is empty at first. -/
def KeepsAgendaEmpty (e : Engine) (input : TurnInput) (s : InformationState) : Prop :=
  ∀ rs t, e.Trace input s rs t → t.own.agenda = []

/-- The cycle drops an action that one of its own firings put on the agenda. At its first firing the
agenda holds only what earlier cycles left. -/
def DropsOwnActions (e : Engine) (input : TurnInput) (s : InformationState) : Prop :=
  ∃ rs t, e.Trace input s rs t ∧ clearAgenda ∈ rs.tail

theorem KeepsAgendaEmpty.trace_withReset (hRules : e.rules = defaultRules)
    (hEmpty : e.KeepsAgendaEmpty input s) (h : e.Trace input s rs t) :
    e.Trace input.withReset s rs t := by
  induction h with
  | done s => exact .done s
  | fire hFires _ ih =>
    have hNil := hEmpty [] _ (.done _)
    refine .fire ((applicable?_withReset_of_nil hRules hNil).trans hFires) (ih ?_)
    exact fun rs t hTrace => hEmpty _ t (.fire hFires hTrace)

theorem KeepsAgendaEmpty.trace_of_withReset (hRules : e.rules = defaultRules)
    (hEmpty : e.KeepsAgendaEmpty input s) (h : e.Trace input.withReset s rs t) :
    e.Trace input s rs t := by
  induction h with
  | done s => exact .done s
  | fire hFires _ ih =>
    have hNil := hEmpty [] _ (.done _)
    rw [applicable?_withReset_of_nil hRules hNil] at hFires
    exact .fire hFires (ih fun rs t hTrace => hEmpty _ t (.fire hFires hTrace))

theorem KeepsAgendaEmpty.clearAgenda_notMem (hEmpty : e.KeepsAgendaEmpty input s)
    (h : e.Trace input s rs t) : clearAgenda ∉ rs := by
  induction h with
  | done s => exact List.not_mem_nil
  | fire hFires _ ih =>
    intro hMem
    rcases List.mem_cons.mp hMem with hEq | hRest
    · exact clearAgenda_not_fires (hEmpty [] _ (.done _)) (hEq ▸ hFires)
    · exact ih (fun rs t hTrace => hEmpty _ t (.fire hFires hTrace)) hRest

/-- A cycle with a reset that settles without clearing its agenda never had anything on it. -/
theorem keepsAgendaEmpty_of_clearAgenda_notMem (hRules : e.rules = defaultRules)
    (h : e.Trace input.withReset s rs t) (hSettled : e.IsSettled input.withReset t)
    (hNever : clearAgenda ∉ rs) : e.KeepsAgendaEmpty input s := by
  induction h with
  | done s =>
    have hNil : s.own.agenda = [] := by
      by_contra hAgenda
      rw [IsSettled, applicable?_withReset_of_ne_nil hRules hAgenda] at hSettled
      cases hSettled
    intro rs t hTrace
    cases hTrace with
    | done => exact hNil
    | fire hFires _ =>
      rw [IsSettled, applicable?_withReset_of_nil hRules hNil, hFires] at hSettled
      cases hSettled
  | @fire s _ r _ _ hFires _ ih =>
    -- Otherwise the agenda would be cleared now.
    have hNil : s.own.agenda = [] := by
      by_contra hAgenda
      rw [applicable?_withReset_of_ne_nil hRules hAgenda] at hFires
      cases hFires
      exact hNever List.mem_cons_self
    have hRest := ih hSettled fun hMem => hNever (List.mem_cons_of_mem _ hMem)
    rw [applicable?_withReset_of_nil hRules hNil] at hFires
    intro rs t hTrace
    cases hTrace with
    | done => exact hNil
    | fire hFires' hTrace =>
      rw [hFires] at hFires'
      cases hFires'
      exact hRest _ _ hTrace

theorem withoutAgenda_eq_self (hAgenda : s.own.agenda = []) : s.withoutAgenda = s := by
  rw [InformationState.withoutAgenda, ← hAgenda]

/-- The first firing of a cycle with a reset empties an agenda that holds something. -/
theorem trace_withReset_of_ne_nil (hRules : e.rules = defaultRules) (hAgenda : s.own.agenda ≠ [])
    (h : e.Trace input.withReset s (r :: rs) t) :
    r = clearAgenda ∧ ∃ t', e.Trace input.withReset s.withoutAgenda rs t' ∧
      SameUpToVersion t t' := by
  cases h with
  | fire hFires hRest =>
    rw [applicable?_withReset_of_ne_nil hRules hAgenda] at hFires
    cases hFires
    exact ⟨rfl, hRest.of_sameUpToVersion hRules ⟨s.version, rfl⟩⟩

theorem exists_trace_withReset (hRules : e.rules = defaultRules)
    (h : e.Trace input.withReset s.withoutAgenda rs t) :
    ∃ rs' t', e.Trace input.withReset s rs' t' ∧ rs'.length ≤ rs.length + 1 ∧
      SameUpToVersion t t' := by
  by_cases hAgenda : s.own.agenda = []
  · rw [withoutAgenda_eq_self hAgenda] at h
    exact ⟨rs, t, h, Nat.le_succ _, .refl t⟩
  · have hSame : SameUpToVersion s.withoutAgenda (s.apply [.clearAgenda]) := ⟨s.version + 1, rfl⟩
    obtain ⟨t', hTrace, hEnd⟩ := h.of_sameUpToVersion hRules hSame
    exact ⟨clearAgenda :: rs, t', .fire (applicable?_withReset_of_ne_nil hRules hAgenda) hTrace,
      Nat.le_refl _, hEnd⟩

theorem not_dropsOwnActions (hRules : e.rules = defaultRules)
    (hEmpty : e.KeepsAgendaEmpty input s.withoutAgenda) :
    ¬ e.DropsOwnActions input.withReset s := by
  rintro ⟨rs, t, hTrace, hDrops⟩
  by_cases hAgenda : s.own.agenda = []
  · rw [withoutAgenda_eq_self hAgenda] at hEmpty
    exact hEmpty.clearAgenda_notMem (hEmpty.trace_of_withReset hRules hTrace)
      (List.mem_of_mem_tail hDrops)
  · cases rs with
    | nil => cases hDrops
    | cons r rs =>
      obtain ⟨_, t', hRest, _⟩ := trace_withReset_of_ne_nil hRules hAgenda hTrace
      exact hEmpty.clearAgenda_notMem (hEmpty.trace_of_withReset hRules hRest) hDrops

theorem keepsAgendaEmpty_of_not_dropsOwnActions (hRules : e.rules = defaultRules)
    (h : e.Trace input.withReset s rs t) (hSettled : e.IsSettled input.withReset t)
    (hKeeps : ¬ e.DropsOwnActions input.withReset s) :
    e.KeepsAgendaEmpty input s.withoutAgenda := by
  have hTail : clearAgenda ∉ rs.tail := fun hMem => hKeeps ⟨rs, t, h, hMem⟩
  by_cases hAgenda : s.own.agenda = []
  · rw [withoutAgenda_eq_self hAgenda]
    refine keepsAgendaEmpty_of_clearAgenda_notMem hRules h hSettled ?_
    cases h with
    | done => exact List.not_mem_nil
    | fire hFires _ =>
      intro hMem
      rcases List.mem_cons.mp hMem with rfl | hRest
      · exact clearAgenda_not_fires hAgenda hFires
      · exact hTail hRest
  · cases h with
    | done =>
      rw [IsSettled, applicable?_withReset_of_ne_nil hRules hAgenda] at hSettled
      cases hSettled
    | fire hFires hRest =>
      obtain ⟨_, t', hTrace, hEnd⟩ :=
        trace_withReset_of_ne_nil hRules hAgenda (.fire hFires hRest)
      have hSettled' : e.IsSettled input.withReset t' :=
        (applicable?_of_sameUpToVersion hRules hEnd).trans hSettled
      exact keepsAgendaEmpty_of_clearAgenda_notMem hRules hTrace hSettled' hTail

/-- With room for one more firing, a cycle with a reset ends like the cycle from an empty agenda and
drops nothing of its own exactly when that cycle puts nothing on the agenda. -/
theorem withReset_agrees_iff_keepsAgendaEmpty (hRules : e.rules = defaultRules)
    (hReference : (e.run s.withoutAgenda input).outcome = .ok t) :
    (∃ u, (e.settle input.withReset (e.config.maxFirings.toNat + 1) 0 s.beginTurn).outcome = .ok u ∧
        SameUpToVersion t u ∧ ¬ e.DropsOwnActions input.withReset s.beginTurn) ↔
      e.KeepsAgendaEmpty input s.withoutAgenda.beginTurn := by
  obtain ⟨rs, v, hTrace, hSettled, hLength, rfl⟩ := run_outcome_eq_ok_iff.mp hReference
  constructor
  · rintro ⟨u, hOutcome, _, hKeeps⟩
    obtain ⟨rs', w, hTrace', hSettled', _, _⟩ := settle_outcome_eq_ok_iff.mp hOutcome
    exact keepsAgendaEmpty_of_not_dropsOwnActions hRules hTrace' hSettled' hKeeps
  · intro hEmpty
    obtain ⟨rs', w, hTrace', hLength', hEnd⟩ := exists_trace_withReset (s := s.beginTurn) hRules
      (hEmpty.trace_withReset hRules hTrace)
    have hSettled' : e.IsSettled input.withReset w := by
      rw [IsSettled, applicable?_of_sameUpToVersion hRules hEnd,
        applicable?_withReset_of_nil hRules (hEmpty rs v hTrace)]
      exact hSettled
    exact ⟨w.endTurn, settle_outcome_of_trace hTrace' hSettled' (by omega) 0, hEnd.endTurn,
      not_dropsOwnActions hRules hEmpty⟩

theorem reset_drops_greeting : ∃ u,
    (Console.session.engine.settle (TurnInput.user []).withReset 257 0
      Lecture.initialState.beginTurn).outcome = .ok u ∧
    SameUpToVersion Lecture.initialState.withoutAgenda u ∧
    ¬ Console.session.engine.DropsOwnActions (TurnInput.user []).withReset
      Lecture.initialState.beginTurn := by
  refine (withReset_agrees_iff_keepsAgendaEmpty (e := Console.session.engine)
    (s := Lecture.initialState) rfl rfl).mpr ?_
  intro rs t hTrace
  cases hTrace with
  | done => rfl
  | fire hFires _ => cases hFires

/-- The cycle is refused under every ceiling. -/
def IsRefused (e : Engine) (input : TurnInput) (s : InformationState) : Prop :=
  ∀ allowed fired, ∃ err, (e.settle input allowed fired s).outcome = .error err

theorem IsRefused.of_fires (hFires : e.applicable? input s = some (r, deltas))
    (h : e.IsRefused input (s.apply deltas)) : e.IsRefused input s := by
  intro allowed fired
  cases allowed with
  | zero => exact ⟨_, settle_outcome_zero hFires fired⟩
  | succ allowed =>
    rw [settle_outcome_succ hFires]
    exact h allowed (fired + 1)

theorem apply_of_selects (hRules : e.rules = defaultRules)
    (h : e.applicable? input s = some (r, deltas))
    (hSelect : r = selectFromPlan ∨ r = selectRespond) : s.own.agenda = [] ∧ ∃ a, s.apply deltas =
      { s with own.agenda := [a], version := s.version + 1 } := by
  generalize hState : s.apply deltas = u
  have hFires := hState ▸ fires_of_applicable? hRules h
  cases hFires with
  | copied _ hAgenda _ _ => exact ⟨hAgenda, _, rfl⟩
  | tookUp _ hAgenda _ _ _ => exact ⟨hAgenda, _, rfl⟩
  | _ =>
    rcases hSelect with hRule | hRule
    · exact absurd (congrArg Rule.name hRule) (by decide)
    · exact absurd (congrArg Rule.name hRule) (by decide)

/-- What selection puts on the empty agenda is cleared, which leads back to the selection. -/
theorem isRefused_withReset_of_selects (hRules : e.rules = defaultRules)
    (h : e.applicable? input s = some (r, deltas))
    (hSelect : r = selectFromPlan ∨ r = selectRespond) : e.IsRefused input.withReset s := by
  intro allowed
  induction allowed using Nat.strongRecOn generalizing s with
  | ind allowed ih =>
    intro fired
    obtain ⟨hAgenda, a, hApply⟩ := apply_of_selects hRules h hSelect
    have hFires := (applicable?_withReset_of_nil hRules hAgenda).trans h
    have hClear : e.applicable? input.withReset (s.apply deltas) = _ :=
      applicable?_withReset_of_ne_nil hRules (by simp [hApply])
    have hSame : SameUpToVersion s.withoutAgenda ((s.apply deltas).apply [.clearAgenda]) :=
      ⟨s.version + 1 + 1, by rw [hApply]; rfl⟩
    rw [withoutAgenda_eq_self hAgenda] at hSame
    match allowed with
    | 0 => exact ⟨_, settle_outcome_zero hFires fired⟩
    | 1 =>
      rw [settle_outcome_succ hFires]
      exact ⟨_, settle_outcome_zero hClear _⟩
    | allowed + 2 =>
      rw [settle_outcome_succ hFires, settle_outcome_succ hClear]
      exact ih allowed (by omega) ((applicable?_of_sameUpToVersion hRules hSame).trans h) _

/-- A cycle with a reset that selects at some point is refused. -/
theorem isRefused_withReset_of_mem (hRules : e.rules = defaultRules)
    (hTrace : e.Trace input.withReset s rs t)
    (hSelect : selectFromPlan ∈ rs ∨ selectRespond ∈ rs) : e.IsRefused input.withReset s := by
  induction hTrace with
  | done s => rcases hSelect with h | h <;> cases h
  | @fire s _ r _ rs hFires _ ih =>
    by_cases hRest : selectFromPlan ∈ rs ∨ selectRespond ∈ rs
    · exact .of_fires hFires (ih hRest)
    · have hHead : r = selectFromPlan ∨ r = selectRespond := by
        rw [List.mem_cons, List.mem_cons] at hSelect
        tauto
      have hNil := (apply_of_selects hRules hFires hHead).1
      rw [applicable?_withReset_of_nil hRules hNil] at hFires
      exact isRefused_withReset_of_selects hRules hFires hHead

def asksForDay : InformationState where
  own := { plan := [.findout ⟨Lecture.bookingDay⟩] }

theorem reset_refuses_asksForDay :
    (∃ t, (Console.session.engine.run asksForDay.withoutAgenda (.user [])).outcome = .ok t) ∧
      ∀ u, (Console.session.engine.settle (TurnInput.user []).withReset
        (Console.session.engine.config.maxFirings.toNat + 1) 0 asksForDay.beginTurn).outcome ≠
          .ok u := by
  refine ⟨⟨_, rfl⟩, fun u hOutcome => ?_⟩
  have hFires : Console.session.engine.applicable? (TurnInput.user []).withReset
      asksForDay.beginTurn = some (selectFromPlan,
        [.pushAgenda (.findout ⟨Lecture.bookingDay⟩)]) := rfl
  obtain ⟨err, hRefused⟩ :=
    isRefused_withReset_of_mem rfl (.fire hFires (.done _)) (.inl List.mem_cons_self) _ 0
  rw [hOutcome] at hRefused
  cases hRefused

end Engine

end Dialogue
