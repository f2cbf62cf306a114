import Mathlib.Data.List.Forall2
import Dialogue.Proofs.Cycle.Composition
import Dialogue.Proofs.Cycle.Log
import Dialogue.Proofs.Cycle.SilentTurns
import Dialogue.Proofs.Domain.Plans
import Dialogue.Proofs.Update.Form

/-! # Working off the plan

A cycle takes steps off the front of its plan, and each of them only once it is dealt with: what was
to be found out is agreed on, what was to be looked up is found, what was to be raised is raised or
assumed by default. Only to load a plan is to drop the rest of another one.
-/

namespace Dialogue

namespace Action

def lookedUp? : Action → Option Question
  | consult q => some q
  | _ => none

def raised? : Action → Option Question
  | raise q => some q
  | _ => none

end Action

namespace Engine

open Update InformationState

variable {e : Engine} {input : TurnInput} {s t v w : InformationState} {r r' : Rule}
  {rs : List Rule} {a : Action} {deltas : List Delta} {done : List Action}
  {found found' : List Proposition} {q : Question}

theorem Counted.trace (hRules : e.rules = defaultRules) (hUser : input.speaker = .usr)
    (hCounted : Counted input s) (hAttends : Attends input s) (h : e.Trace input s rs t) :
    ∀ r ∈ rs, rank r ≤ rank clearAgenda ∨ rank downdateQud ≤ rank r := by
  induction h with
  | done s => simp
  | fire hHit _ ih =>
    have hFires := fires_of_applicable? hRules hHit
    have hRank := hCounted.rank_of_fires hAttends hUser hFires
    rw [List.forall_mem_cons]
    refine ⟨hRank, ih ?_ (hAttends.fires hFires)⟩
    generalize InformationState.apply _ _ = t at hFires
    cases hFires with
    | clearAgenda | downdate | loaded | foundOut | consulted | copied | asked | tookUp | answered |
        greets => exact hCounted.of_consumed rfl rfl (List.Subset.refl _)
    | _ => exact absurd hRank (by decide)

/-- A firing of the rule that leads to `t` takes the step off the plan, and `found` is believed
thereby. -/
inductive Drops (e : Engine) (input : TurnInput) (s t : InformationState) :
    Rule → Action → List Proposition → Prop where
  | foundOut {q : Question} : s.isResolved q = true →
      Drops e input s t removeFindout (.findout q) []
  | lookedUp {q : Question} {p : Proposition} : e.database.consult q s.shared.com = some p →
      Drops e input s t execConsult (.consult q) [p]
  | raised {q q' : Question} : t.turn.selected = true →
      t.nextMoves = s.nextMoves ++ [⟨.ask q', none⟩] → Drops e input s t selectAsk (.raise q) []
  | assumed {a : Action} {q : Question} {p : Proposition} : a = .findout q ∨ a = .raise q →
      e.domain.default? q.predicate = some p → p ∈ t.shared.com → input.speaker = .usr →
      Counted input t → Drops e input s t integrateNoInput a []

theorem exists_raise_of_planRaises {plan : List Action} (h : planRaises plan = true) :
    ∃ q rest, plan = .raise q :: rest := by
  unfold planRaises at h
  split at h
  · exact ⟨_, _, rfl⟩
  · cases h

theorem exists_asks_of_planAsks {plan : List Action} (h : planAsks plan q = true) :
    ∃ a rest, plan = a :: rest ∧ (a = .findout q ∨ a = .raise q) := by
  unfold planAsks at h
  split at h
  · exact ⟨_, _, rfl, .inl (congrArg _ (beq_iff_eq.mp h))⟩
  · exact ⟨_, _, rfl, .inr (congrArg _ (beq_iff_eq.mp h))⟩
  · cases h

/-- Unless a plan is loaded, a firing takes one step off the plan at most. -/
theorem Fires.drops (h : Fires e input s r t) (hAttends : Attends input s) (hOther : r ≠ findPlan) :
    t.own.plan = s.own.plan ∧ t.own.bel = s.own.bel ∨
      ∃ a found, s.own.plan = a :: t.own.plan ∧ t.own.bel = s.own.bel ++ found ∧
        Drops e input s t r a found := by
  cases h with
  | loaded => exact absurd rfl hOther
  | foundOut hPlan hResolved =>
    exact .inr ⟨_, [], hPlan, (List.append_nil _).symm, .foundOut hResolved⟩
  | consulted hPlan hConsult => exact .inr ⟨_, _, hPlan, rfl, .lookedUp hConsult⟩
  | asked =>
    dsimp only
    split
    · next hRaises =>
      obtain ⟨q, rest, hPlan⟩ := exists_raise_of_planRaises hRaises
      exact .inr ⟨.raise q, [], by rw [hPlan]; rfl, (List.append_nil _).symm, .raised rfl rfl⟩
    · exact .inl ⟨rfl, rfl⟩
  | fellBack hTurn hSilence _ _ _ hDefault =>
    have hUser := speaker_of_userTurn? hAttends hTurn
    obtain ⟨rfl, hMark⟩ := eq_utterance_of_userTurn? hAttends hTurn
    dsimp only
    split
    · next hAsks =>
      obtain ⟨a, rest, hPlan, hAction⟩ := exists_asks_of_planAsks hAsks
      refine .inr ⟨a, [], by rw [hPlan]; rfl, (List.append_nil _).symm, ?_⟩
      exact .assumed hAction hDefault List.mem_cons_self hUser
        (counted_of_consumedSilence hSilence hMark rfl rfl rfl)
    · exact .inl ⟨rfl, rfl⟩
  | _ => exact .inl ⟨rfl, rfl⟩

/-- Among the firings `rs` from `s` to `t`, one of the rule takes the step off the plan of `v` and
leads to `w`. -/
structure TakesOff (e : Engine) (input : TurnInput) (s : InformationState) (rs : List Rule)
    (t : InformationState) (r : Rule) (a : Action) (v w : InformationState) : Prop where
  fired : ∃ before after, rs = before ++ r :: after ∧ e.Trace input s before v ∧
    e.Trace input v [r] w ∧ e.Trace input w after t
  plan : v.own.plan = a :: w.own.plan

theorem TakesOff.mem (h : TakesOff e input s rs t r a v w) : r ∈ rs := by
  obtain ⟨before, after, rfl, -⟩ := h.fired
  exact List.mem_append_right _ List.mem_cons_self

theorem TakesOff.later (h : TakesOff e input (s.apply deltas) rs t r a v w)
    (hHit : e.applicable? input s = some (r', deltas)) :
    TakesOff e input s (r' :: rs) t r a v w := by
  obtain ⟨⟨before, after, rfl, hBefore, hFire, hAfter⟩, hPlan⟩ := h
  exact ⟨⟨r' :: before, after, rfl, .fire hHit hBefore, hFire, hAfter⟩, hPlan⟩

/-- The questions that were to be raised when a default for them was assumed: one at most. -/
inductive Assumes (e : Engine) (input : TurnInput) (s : InformationState) (rs : List Rule)
    (t : InformationState) : List Question → Prop where
  | nothing : Assumes e input s rs t []
  | one {q : Question} {p : Proposition} {v w : InformationState} :
      TakesOff e input s rs t integrateNoInput (.raise q) v w →
      e.domain.default? q.predicate = some p → p ∈ t.shared.com → t.isResolved q = true →
      Assumes e input s rs t [q]

/-- The questions that were to be raised when a question was asked: one at most. -/
inductive Raises (e : Engine) (input : TurnInput) (s : InformationState) (rs : List Rule)
    (t : InformationState) : List Question → Prop where
  | nothing : Raises e input s rs t []
  | one {q q' : Question} {v w : InformationState} :
      TakesOff e input s rs t selectAsk (.raise q) v w →
      w.nextMoves = v.nextMoves ++ [⟨.ask q', none⟩] → ⟨.ask q', none⟩ ∈ t.nextMoves →
      Raises e input s rs t [q]

/-- The firings `rs` from `s` to `t` have worked off the steps `done` and looked up `found`. -/
structure WorkedOff (e : Engine) (input : TurnInput) (s : InformationState) (rs : List Rule)
    (t : InformationState) (done : List Action) (found : List Proposition) : Prop where
  plan : s.own.plan = done ++ t.own.plan
  bel : t.own.bel = s.own.bel ++ found
  foundOut : ∀ q, .findout q ∈ done → t.isResolved q = true
  lookedUp : List.Forall₂ (fun q p => e.database.consult q t.shared.com = some p)
    (done.filterMap Action.lookedUp?) found
  raised : ∃ assumed asked, done.filterMap Action.raised? = assumed ++ asked ∧
    Assumes e input s rs t assumed ∧ Raises e input s rs t asked
  rest : .greet ∉ done ∧ ∀ q, .respond q ∉ done

theorem Assumes.later {qs : List Question} (h : Assumes e input (s.apply deltas) rs t qs)
    (hHit : e.applicable? input s = some (r, deltas)) : Assumes e input s (r :: rs) t qs := by
  cases h with
  | nothing => exact .nothing
  | one hOff hDefault hMem hResolved => exact .one (hOff.later hHit) hDefault hMem hResolved

theorem Raises.later {qs : List Question} (h : Raises e input (s.apply deltas) rs t qs)
    (hHit : e.applicable? input s = some (r, deltas)) : Raises e input s (r :: rs) t qs := by
  cases h with
  | nothing => exact .nothing
  | one hOff hAsk hMem => exact .one (hOff.later hHit) hAsk hMem

theorem Assumes.eq_nil {qs : List Question} (h : Assumes e input s rs t qs)
    (hNever : integrateNoInput ∉ rs) : qs = [] := by
  cases h with
  | nothing => rfl
  | one hOff => exact absurd hOff.mem hNever

theorem Raises.eq_nil {qs : List Question} (h : Raises e input s rs t qs)
    (hNever : selectAsk ∉ rs) : qs = [] := by
  cases h with
  | nothing => rfl
  | one hOff => exact absurd hOff.mem hNever

namespace WorkedOff

theorem nothing (e : Engine) (input : TurnInput) (s : InformationState) :
    WorkedOff e input s [] s [] [] where
  plan := rfl
  bel := (List.append_nil _).symm
  foundOut := by simp
  lookedUp := .nil
  raised := ⟨[], [], rfl, .nothing, .nothing⟩
  rest := by simp

theorem later (h : WorkedOff e input (s.apply deltas) rs t done found)
    (hHit : e.applicable? input s = some (r, deltas))
    (hPlan : (s.apply deltas).own.plan = s.own.plan)
    (hBel : (s.apply deltas).own.bel = s.own.bel) : WorkedOff e input s (r :: rs) t done found := by
  obtain ⟨assumed, asked, hSplit, hAssumes, hRaises⟩ := h.raised
  constructor
  · exact hPlan.symm.trans h.plan
  · rw [← hBel]
    exact h.bel
  · exact h.foundOut
  · exact h.lookedUp
  · exact ⟨assumed, asked, hSplit, hAssumes.later hHit, hRaises.later hHit⟩
  · exact h.rest

theorem cons (h : WorkedOff e input (s.apply deltas) rs t done found)
    (hPlan : s.own.plan = a :: (s.apply deltas).own.plan)
    (hBel : (s.apply deltas).own.bel = s.own.bel ++ found')
    (hFindout : ∀ q, a = .findout q → t.isResolved q = true)
    (hLookup : List.Forall₂ (fun q p => e.database.consult q t.shared.com = some p)
      a.lookedUp?.toList found')
    (hRaise : ∃ assumed asked, (a :: done).filterMap Action.raised? = assumed ++ asked ∧
      Assumes e input s (r :: rs) t assumed ∧ Raises e input s (r :: rs) t asked)
    (hRest : a ≠ .greet ∧ ∀ q, a ≠ .respond q) :
    WorkedOff e input s (r :: rs) t (a :: done) (found' ++ found) := by
  constructor
  · rw [hPlan, h.plan]
    rfl
  · rw [h.bel, hBel, List.append_assoc]
  · intro q hMem
    rcases List.mem_cons.mp hMem with hHead | hLater
    · exact hFindout q hHead.symm
    · exact h.foundOut q hLater
  · rw [← List.singleton_append, List.filterMap_append]
    refine List.rel_append ?_ h.lookedUp
    cases a with
    | _ => exact hLookup
  · exact hRaise
  · rw [List.mem_cons, not_or]
    refine ⟨⟨hRest.1.symm, h.rest.1⟩, fun q hMem => ?_⟩
    rcases List.mem_cons.mp hMem with hHead | hLater
    · exact hRest.2 q hHead.symm
    · exact h.rest.2 q hLater

end WorkedOff

section

variable (hRules : e.rules = defaultRules) (hHit : e.applicable? input s = some (r, deltas))
  (h : e.Trace input (s.apply deltas) rs t)
include hRules hHit h

/-- Once a question is asked none is assumed to be answered, and none is asked any more. -/
theorem Trace.not_raised_again (hAsk : r = selectAsk)
    (hDone : (s.apply deltas).turn.selected = true) :
    integrateNoInput ∉ rs ∧ selectAsk ∉ rs := by
  subst hAsk
  have hPursuing := pursuing_of_applicable? hRules hHit (by decide)
  obtain ⟨-, -, hNext⟩ := hPursuing.fires_of_reset (fires_of_applicable? hRules hHit)
  constructor
  · intro hMem
    exact absurd ((hNext.trace_of_reset hRules h).1 _ hMem) (by decide)
  · intro hMem
    exact h.not_isChoice_of_selected hRules hDone _ hMem (by decide)

theorem Trace.com_of_pursued (hLate : rank findPlan ≤ rank r) :
    t.shared.com = s.shared.com := by
  have hPursuing := pursuing_of_applicable? hRules hHit hLate
  rw [(hPursuing.trace_of_reset hRules (.fire hHit h)).2]

end

theorem isResolved_of_default? {p : Proposition} (hDefault : e.domain.default? q.predicate = some p)
    (hMem : p ∈ t.shared.com) : t.isResolved q = true := by
  rw [isResolved, List.any_eq_true]
  exact ⟨p, hMem, Domain.resolves_of_default? hDefault⟩

theorem Fires.nextMoves_prefix (h : Fires e input s r t) : s.nextMoves <+: t.nextMoves := by
  cases h with
  | reprompted | fellBack | misformatted | acknowledged | asked | answered | greets =>
    exact List.prefix_append _ _
  | unclear => exact (List.prefix_append _ _).trans (List.prefix_append _ _)
  | _ => exact List.prefix_refl _

theorem Fires.bel_prefix (h : Fires e input s r t) : s.own.bel <+: t.own.bel := by
  cases h with
  | consulted => exact List.prefix_append _ _
  | _ => exact List.prefix_refl _

section

variable (hRules : e.rules = defaultRules)
include hRules

theorem Trace.nextMoves_prefix (h : e.Trace input s rs t) : s.nextMoves <+: t.nextMoves := by
  apply h.invariant (P := fun t => s.nextMoves <+: t.nextMoves) hRules
  · intro t r u hKept hFires
    exact hKept.trans hFires.nextMoves_prefix
  · exact List.prefix_refl _

theorem Trace.bel_prefix (h : e.Trace input s rs t) : s.own.bel <+: t.own.bel := by
  apply h.invariant (P := fun t => s.own.bel <+: t.own.bel) hRules
  · intro t r u hKept hFires
    exact hKept.trans hFires.bel_prefix
  · exact List.prefix_refl _

theorem Drops.workedOff (h : Drops e input s (s.apply deltas) r a found')
    (hHit : e.applicable? input s = some (r, deltas)) (hAttends : Attends input s)
    (hPlan : s.own.plan = a :: (s.apply deltas).own.plan)
    (hBel : (s.apply deltas).own.bel = s.own.bel ++ found')
    (hTrace : e.Trace input (s.apply deltas) rs t)
    (hLater : WorkedOff e input (s.apply deltas) rs t done found) :
    WorkedOff e input s (r :: rs) t (a :: done) (found' ++ found) := by
  have hFires := fires_of_applicable? hRules hHit
  have hCom := (hTrace.com_suffix hRules).subset
  have hOff : TakesOff e input s (r :: rs) t r a s (s.apply deltas) :=
    ⟨⟨[], rs, rfl, .done s, .fire hHit (.done _), hTrace⟩, hPlan⟩
  obtain ⟨assumed, asked, hSplit, hAssumes, hRaises⟩ := hLater.raised
  cases h with
  | foundOut hResolved =>
    refine hLater.cons hPlan hBel ?_ .nil
      ⟨assumed, asked, hSplit, hAssumes.later hHit, hRaises.later hHit⟩ ⟨nofun, nofun⟩
    intro q hStep
    cases hStep
    exact isResolved_of_subset (List.Subset.trans hFires.com_suffix.subset hCom) hResolved
  | lookedUp hConsult =>
    -- nothing is agreed on any more once the plan is pursued
    have hSame := hTrace.com_of_pursued hRules hHit (by decide)
    refine hLater.cons hPlan hBel nofun ?_
      ⟨assumed, asked, hSplit, hAssumes.later hHit, hRaises.later hHit⟩ ⟨nofun, nofun⟩
    exact .cons (by rw [hSame]; exact hConsult) .nil
  -- It is the last one: a cycle that has asked neither asks again nor assumes a default.
  | @raised q _ hDone hSaid =>
    obtain ⟨hNoInput, hAsk⟩ := hTrace.not_raised_again hRules hHit rfl hDone
    obtain rfl := hAssumes.eq_nil hNoInput
    obtain rfl := hRaises.eq_nil hAsk
    refine hLater.cons hPlan hBel nofun .nil ⟨[], [q], ?_, .nothing, ?_⟩ ⟨nofun, nofun⟩
    · rw [List.filterMap_cons, hSplit]
      rfl
    · refine .one hOff hSaid ((hTrace.nextMoves_prefix hRules).subset ?_)
      rw [hSaid]
      exact List.mem_append_right _ List.mem_cons_self
  -- The default stays agreed, so the question is resolved in the end whichever kind of step it was.
  | @assumed _ q _ hAction hDefault hMem hUser hCounted =>
    have hRanks := hCounted.trace hRules hUser (hAttends.fires hFires) hTrace
    obtain rfl := hAssumes.eq_nil fun hAgain => absurd (hRanks _ hAgain) (by decide)
    have hResolved := isResolved_of_default? hDefault (hCom hMem)
    rcases hAction with rfl | rfl
    · refine hLater.cons hPlan hBel ?_ .nil
        ⟨[], asked, hSplit, .nothing, hRaises.later hHit⟩ ⟨nofun, nofun⟩
      intro q hStep
      cases hStep
      exact hResolved
    · refine hLater.cons hPlan hBel nofun .nil ⟨[q], asked, ?_, ?_, ?_⟩ ⟨nofun, nofun⟩
      · rw [List.filterMap_cons, hSplit]
        rfl
      · exact .one hOff hDefault (hCom hMem) hResolved
      · exact hRaises.later hHit

theorem Trace.exists_workedOff (h : e.Trace input s rs t) (hAttends : Attends input s)
    (hNever : findPlan ∉ rs) : ∃ done found, WorkedOff e input s rs t done found := by
  induction h with
  | done s => exact ⟨[], [], .nothing e input s⟩
  | fire hHit hRest ih =>
    rw [List.mem_cons, not_or] at hNever
    have hFires := fires_of_applicable? hRules hHit
    obtain ⟨done, found, hLater⟩ := ih (hAttends.fires hFires) hNever.2
    rcases hFires.drops hAttends (Ne.symm hNever.1) with
      ⟨hPlan, hBel⟩ | ⟨a, found', hPlan, hBel, hDrops⟩
    · exact ⟨done, found, hLater.later hHit hPlan hBel⟩
    · exact ⟨a :: done, found' ++ found,
        hDrops.workedOff hRules hHit hAttends hPlan hBel hRest hLater⟩

end

theorem Trace.exists_last (h : e.Trace input s rs t) (hMem : r ∈ rs) :
    ∃ before after v w, rs = before ++ r :: after ∧ e.Trace input s before v ∧
      e.Trace input v [r] w ∧ e.Trace input w after t ∧ r ∉ after := by
  induction h with
  | done s => cases hMem
  | @fire s t r' deltas rs hHit hRest ih =>
    by_cases hLater : r ∈ rs
    · obtain ⟨before, after, v, w, rfl, hBefore, hFire, hAfter, hNever⟩ := ih hLater
      exact ⟨r' :: before, after, v, w, rfl, .fire hHit hBefore, hFire, hAfter, hNever⟩
    · obtain rfl := (List.mem_cons.mp hMem).resolve_right hLater
      exact ⟨[], rs, s, _, rfl, .done s, .fire hHit (.done _), hRest, hLater⟩

theorem Fires.exists_loaded (h : Fires e input s r t) (hName : r.name = findPlan.name) :
    ∃ q p, s.own.agenda = .respond q :: t.own.agenda ∧ e.domain.issuePlan? q = some p ∧
      t.own.plan = p.steps := by
  cases h with
  | loaded hAgenda _ hPlan => exact ⟨_, _, hAgenda, hPlan, rfl⟩
  | _ => exact absurd hName (by decide)

/-- Of the firings `rs` from `s` to `t` the last one to load a plan loads `p` for `q`, which it
takes off the agenda. Since then the steps `done` of it are worked off. -/
structure Loads (e : Engine) (input : TurnInput) (s : InformationState) (rs : List Rule)
    (t : InformationState) (q : Question) (p : Plan) (done : List Action) : Prop where
  issue : e.domain.issuePlan? q = some p
  steps : p.steps = done ++ t.own.plan
  fired : ∃ before after v w found, rs = before ++ findPlan :: after ∧ e.Trace input s before v ∧
    e.Trace input v [findPlan] w ∧ v.own.agenda = .respond q :: w.own.agenda ∧
    w.own.plan = p.steps ∧ WorkedOff e input w after t done found

theorem Trace.exists_loads (hRules : e.rules = defaultRules) (h : e.Trace input s.beginTurn rs t)
    (hLoaded : findPlan ∈ rs) : ∃ q p done, Loads e input s.beginTurn rs t q p done := by
  obtain ⟨before, after, v, w, hSplit, hBefore, hFire, hAfter, hNever⟩ := h.exists_last hLoaded
  obtain ⟨done, found, hDone⟩ :=
    hAfter.exists_workedOff hRules ((hBefore.append hFire).attends hRules) hNever
  obtain ⟨q, p, hAgenda, hIssue, hSteps⟩ : ∃ q p, v.own.agenda = .respond q :: w.own.agenda ∧
      e.domain.issuePlan? q = some p ∧ w.own.plan = p.steps := by
    cases hFire with
    | fire hHit hEnd =>
      cases hEnd with
      | done => exact (fires_of_applicable? hRules hHit).exists_loaded rfl
  refine ⟨q, p, done, hIssue, hSteps.symm.trans hDone.plan, ?_⟩
  exact ⟨before, after, v, w, found, hSplit, hBefore, hFire, hAgenda, hSteps, hDone⟩

/-- No step of the plan is skipped. Unless a plan is loaded, what a cycle takes off the plan is
worked off. Of the plan that is loaded last an end is left, and the rest has been worked off. -/
theorem steps_are_worked_off (hRules : e.rules = defaultRules)
    (hRun : (e.run s input).outcome = .ok t) :
    (findPlan ∉ (e.run s input).fired → ∃ u done found, t = u.endTurn ∧
      WorkedOff e input s.beginTurn (e.run s input).fired u done found) ∧
    (findPlan ∈ (e.run s input).fired → s.own.bel <+: t.own.bel ∧
      ∃ u q p done, t = u.endTurn ∧
        Loads e input s.beginTurn (e.run s input).fired u q p done ∧ t.own.plan <:+ p.steps) := by
  obtain ⟨u, hTrace, -, rfl⟩ := exists_trace_of_run hRun
  constructor
  · intro hNever
    obtain ⟨done, found, hDone⟩ := hTrace.exists_workedOff hRules nofun hNever
    exact ⟨u, done, found, rfl, hDone⟩
  · intro hLoaded
    have hBel := hTrace.bel_prefix hRules
    obtain ⟨q, p, done, hLoads⟩ := hTrace.exists_loads hRules hLoaded
    exact ⟨hBel, u, q, p, done, rfl, hLoads, done, hLoads.steps.symm⟩

theorem not_mem_of_name (h : r.name ∉ rs.map (·.name)) : r ∉ rs := by
  intro hMem
  exact h (List.mem_map_of_mem hMem)

def namesFriday : TurnInput :=
  .user [⟨.answer (.short "friday"), none⟩]

def asksForRoom : TurnInput :=
  .user [⟨.ask ⟨Lecture.bookingRoom⟩, none⟩]

/-- Once the day is named the room is looked up. When the room is asked for, its plan is loaded and
nothing of it is worked off yet. -/
theorem room_plan_is_worked_off :
    (∃ u rs, (Console.session.engine.run asksDayForRoom namesFriday).outcome = .ok u.endTurn ∧
      WorkedOff Console.session.engine namesFriday asksDayForRoom.beginTurn rs u
        asksDayForRoom.own.plan [⟨Lecture.bookingRoom, "G212"⟩]) ∧
    ∃ u rs q, (Console.session.engine.run .initial asksForRoom).outcome = .ok u.endTurn ∧
      Loads Console.session.engine asksForRoom InformationState.initial.beginTurn rs u q
        Lecture.roomPlan [] := by
  constructor
  · have hRun : (Console.session.engine.run asksDayForRoom namesFriday).outcome = .ok _ := rfl
    have hFired : (Console.session.engine.run asksDayForRoom namesFriday).fired.map (·.name) =
      ["get_latest_move", "integrate_answer", "integrate_positive_grounding", "downdate_qud",
        "remove_findout", "exec_consultDB", "select_respond", "select_answer"] := rfl
    obtain ⟨u, done, found, hEnd, hDone⟩ :=
      (steps_are_worked_off rfl hRun).1 (not_mem_of_name (by rw [hFired]; decide))
    have hPlan : u.own.plan = [] := congrArg (·.own.plan) hEnd.symm
    have hBel : u.own.bel = [⟨Lecture.bookingRoom, "G212"⟩] := congrArg (·.own.bel) hEnd.symm
    obtain rfl : done = asksDayForRoom.own.plan := by
      have hAll := hDone.plan
      rw [hPlan, List.append_nil] at hAll
      exact hAll.symm
    obtain rfl : found = [⟨Lecture.bookingRoom, "G212"⟩] := hDone.bel.symm.trans hBel
    exact ⟨u, _, hRun.trans (congrArg _ hEnd), hDone⟩
  · have hRun : (Console.session.engine.run .initial asksForRoom).outcome = .ok _ := rfl
    have hLoaded : findPlan ∈ (Console.session.engine.run .initial asksForRoom).fired :=
      .tail _ (.tail _ (.head _))
    obtain ⟨-, u, q, p, done, hEnd, hLoads, -⟩ := (steps_are_worked_off rfl hRun).2 hLoaded
    obtain rfl : p = Lecture.roomPlan :=
      List.mem_singleton.mp (Domain.mem_plans_of_issuePlan? hLoads.issue)
    have hPlan : u.own.plan = Lecture.roomPlan.steps := congrArg (·.own.plan) hEnd.symm
    obtain rfl : done = [] := by
      have hSteps := hLoads.steps
      rw [hPlan] at hSteps
      exact List.self_eq_append_left.mp hSteps
    exact ⟨u, _, q, hRun.trans (congrArg _ hEnd), hLoads⟩

end Engine

end Dialogue
