import Dialogue.Proofs.Update.Quiet

/-! # Pursuit and selection in a quiet cycle

How a quiet cycle goes on: it closes resolved questions, works on the plan until that is idle, and
then selects. Lengths are exact.
-/

namespace Dialogue.Engine

open Update

variable {e : Engine} {input : TurnInput} {s t : InformationState} {r : Rule}
  {tops : Question → Prop} {q : Question}

theorem isResolved_iff : s.isResolved q = true ↔ ∃ p ∈ s.shared.com, p.predicate = q.predicate := by
  rw [InformationState.isResolved, List.any_eq_true]
  constructor
  · rintro ⟨p, hMem, hResolves⟩
    exact ⟨p, hMem, Proposition.resolves_iff.mp hResolves⟩
  · rintro ⟨p, hMem, hAnswer⟩
    exact ⟨p, hMem, Proposition.resolves_iff.mpr hAnswer⟩

theorem isResolved_of_subset (hCom : s.shared.com ⊆ t.shared.com) (h : s.isResolved q = true) :
    t.isResolved q = true := by
  obtain ⟨p, hMem, hAnswer⟩ := isResolved_iff.mp h
  exact isResolved_iff.mpr ⟨p, hCom hMem, hAnswer⟩

theorem isResolved_iff_of_commit {p : Proposition} (hCom : t.shared.com = p :: s.shared.com) :
    t.isResolved q = true ↔ p.predicate = q.predicate ∨ s.isResolved q = true := by
  simp only [isResolved_iff, hCom, List.exists_mem_cons_iff]

theorem isResolved_eq_false (h : ∀ p ∈ s.shared.com, p.predicate ≠ q.predicate) :
    s.isResolved q = false := by
  rw [InformationState.isResolved, List.any_eq_false]
  intro p hMem hResolves
  exact h p hMem (Proposition.resolves_iff.mp hResolves)

def TopIsOpen (s : InformationState) : Prop :=
  TopIn (fun q => s.isResolved q = false) s

def NoLoad (e : Engine) (s : InformationState) : Prop :=
  ∀ q rest, s.own.agenda = .respond q :: rest → answerable? s q = none →
    e.domain.issuePlan? q = none

/-- Nothing is to be closed, and the plan makes no step without the user. -/
structure Idle (e : Engine) (s : InformationState) : Prop where
  top : TopIsOpen s
  load : ∀ q rest, s.own.agenda = .respond q :: rest → answerable? s q = none →
    e.domain.issuePlan? q = none
  findout : ∀ q rest, s.own.plan = .findout q :: rest → s.isResolved q = false
  consult : ∀ q rest, s.own.plan = .consult q :: rest →
    e.database.consult q s.shared.com = none

theorem noLoad_of_nil (hAgenda : s.own.agenda = []) : e.NoLoad s := by
  intro q rest hTop
  rw [hAgenda] at hTop
  cases hTop

theorem idle_of_no_plan (hOpen : TopIsOpen s) (hPlan : s.own.plan = [])
    (hRespond : ∀ a ∈ s.own.agenda, a.isRespond = false) : e.Idle s := by
  refine ⟨hOpen, fun q rest hAgenda => ?_, fun q rest h => ?_, fun q rest h => ?_⟩
  · have hTop := hRespond (.respond q) (by rw [hAgenda]; exact List.mem_cons_self)
    cases hTop
  · rw [hPlan] at h
    cases h
  · rw [hPlan] at h
    cases h

theorem idle_of_nil (hOpen : TopIsOpen s) (hAgenda : s.own.agenda = []) (hPlan : s.own.plan = []) :
    e.Idle s :=
  idle_of_no_plan hOpen hPlan (by simp [hAgenda])

theorem idle_of_findout (hOpen : TopIsOpen s) (hAgenda : s.own.agenda = []) {rest : List Action}
    (hPlan : s.own.plan = .findout q :: rest) (hUnresolved : s.isResolved q = false) :
    e.Idle s := by
  refine ⟨hOpen, noLoad_of_nil hAgenda, fun q' rest' h => ?_, fun q' rest' h => ?_⟩
  · rw [hPlan] at h
    cases h
    exact hUnresolved
  · rw [hPlan] at h
    cases h

theorem idle_of_effects
    (h : ∀ r ∈ [downdateQud, findPlan, removeFindout, execConsult],
      r.effect (e.context input s) = none) : e.Idle s := by
  have hQuiet {r : Rule} {t : InformationState} (hFires : Fires e input s r t)
      (hMem : r ∈ [downdateQud, findPlan, removeFindout, execConsult]) : False := by
    obtain ⟨deltas, hEffect, _⟩ := hFires.exists_effect
    rw [h r hMem] at hEffect
    cases hEffect
  constructor
  · intro q hTop
    obtain ⟨qs, hQud⟩ := List.head?_eq_some_iff.mp hTop
    by_contra hResolved
    exact hQuiet (.downdate hQud (Bool.of_not_eq_false hResolved)) (by simp)
  · intro q rest hAgenda hNone
    by_contra hPlan
    obtain ⟨p, hPlan⟩ := Option.ne_none_iff_exists'.mp hPlan
    exact hQuiet (.loaded hAgenda hNone hPlan) (by simp)
  · intro q rest hPlan
    by_contra hResolved
    exact hQuiet (.foundOut hPlan (Bool.of_not_eq_false hResolved)) (by simp)
  · intro q rest hPlan
    by_contra hConsult
    obtain ⟨p, hConsult⟩ := Option.ne_none_iff_exists'.mp hConsult
    exact hQuiet (.consulted hPlan hConsult) (by simp)

theorem idle_of_isSettled (hRules : e.rules = defaultRules) (h : e.IsSettled input s) :
    e.Idle s := by
  have hEffects : ∀ r ∈ [downdateQud, findPlan, removeFindout, execConsult],
      r.effect (e.context input s) = none := by
    intro r hMem
    apply isSettled_iff.mp h r
    rw [hRules]
    simp only [List.mem_cons, List.not_mem_nil, or_false] at hMem
    rcases hMem with rfl | rfl | rfl | rfl <;> simp [defaultRules]
  exact idle_of_effects hEffects

/-- Nothing is to be selected: neither a step of the plan nor a question that a belief answers. -/
structure Resting (s : InformationState) : Prop where
  plan : s.own.agenda = [] → ∀ a rest, s.own.plan = a :: rest → ∃ q, a = .consult q
  top : s.own.agenda = [] → s.own.plan = [] → TopIn (fun q => answerable? s q = none) s
  agenda : ∀ a rest, s.own.agenda = a :: rest → ∃ q, a = .respond q ∧ answerable? s q = none

/-- An action that is on top of the agenda in vain. -/
inductive Blocked (s : InformationState) : Action → Prop where
  | respond {q : Question} : answerable? s q = none → Blocked s (.respond q)
  | consult {q : Question} : Blocked s (.consult q)

/-- The more beliefs there are, the fewer questions are without an answer. -/
theorem answerable?_eq_none_of_subset (hBel : s.own.bel ⊆ t.own.bel)
    (hCom : t.shared.com = s.shared.com) (h : answerable? t q = none) :
    answerable? s q = none := by
  rw [answerable?, List.find?_eq_none] at h ⊢
  intro b hMem
  apply h b
  rw [InformationState.unsharedBeliefs, List.mem_filter] at hMem ⊢
  exact ⟨hBel hMem.1, hCom ▸ hMem.2⟩

theorem NoLoad.of_subset (h : e.NoLoad s) (hAgenda : t.own.agenda = s.own.agenda)
    (hBel : s.own.bel ⊆ t.own.bel) (hCom : t.shared.com = s.shared.com) : e.NoLoad t :=
  fun q rest hTop hNone =>
    h q rest (hAgenda ▸ hTop) (answerable?_eq_none_of_subset hBel hCom hNone)

/-- Utterances and turn marks do not count for whether a state is idle. -/
theorem Idle.of_same (h : e.Idle s) (hAgenda : t.own.agenda = s.own.agenda)
    (hPlan : t.own.plan = s.own.plan) (hBel : t.own.bel = s.own.bel)
    (hQud : t.shared.qud = s.shared.qud) (hCom : t.shared.com = s.shared.com) : e.Idle t := by
  have hResolved (q : Question) : t.isResolved q = s.isResolved q := by
    rw [InformationState.isResolved, InformationState.isResolved, hCom]
  have hLoad : e.NoLoad s := h.load
  constructor
  · intro q hTop
    rw [hResolved]
    exact h.top q (hQud ▸ hTop)
  · apply hLoad.of_subset hAgenda _ hCom
    rw [hBel]
    exact List.Subset.refl _
  · intro q rest hHead
    rw [hResolved]
    exact h.findout q rest (hPlan ▸ hHead)
  · intro q rest hHead
    rw [hCom]
    exact h.consult q rest (hPlan ▸ hHead)

theorem Blocked.of_same {a : Action} (h : Blocked t a) (hBel : s.own.bel ⊆ t.own.bel)
    (hCom : t.shared.com = s.shared.com) : Blocked s a := by
  cases h with
  | consult => exact .consult
  | respond hNone => exact .respond (answerable?_eq_none_of_subset hBel hCom hNone)

theorem exists_fires_of_not_blocked (hMay : (e.context input s).maySelect = true) {a : Action}
    {rest : List Action} (hAgenda : s.own.agenda = a :: rest) (h : ¬ Blocked s a) :
    ∃ r t, Fires e input s r t := by
  cases a with
  | findout q => exact ⟨_, _, .asked hMay hAgenda (.inl rfl)⟩
  | raise q => exact ⟨_, _, .asked hMay hAgenda (.inr rfl)⟩
  | respond q =>
    cases hAnswer : answerable? s q with
    | none => exact absurd (.respond hAnswer) h
    | some p => exact ⟨_, _, .answered hMay hAgenda hAnswer⟩
  | consult q => exact absurd .consult h
  | greet => exact ⟨_, _, .greets hMay hAgenda⟩

theorem rank_findPlan_le (hOpen : TopIsOpen s) (hFires : Fires e input s r t)
    (hLate : rank downdateQud ≤ rank r) : rank findPlan ≤ rank r := by
  cases hFires with
  | downdate hQud hResolved =>
    rw [hOpen _ (List.head?_eq_some_iff.mpr ⟨_, hQud⟩)] at hResolved
    cases hResolved
  | _ => revert hLate; decide

theorem rank_removeFindout_le (hOpen : TopIsOpen s) (hLoad : e.NoLoad s)
    (hFires : Fires e input s r t) (hLate : rank downdateQud ≤ rank r) :
    rank removeFindout ≤ rank r := by
  have hRank := rank_findPlan_le hOpen hFires hLate
  cases hFires with
  | loaded hAgenda hNone hLoaded => rw [hLoad _ _ hAgenda hNone] at hLoaded; cases hLoaded
  | _ => revert hRank; decide

/-- When the plan is idle, what comes after the comments is selection. -/
theorem Idle.rank_of_fires (hIdle : e.Idle s) (hFires : Fires e input s r t)
    (hLate : rank downdateQud ≤ rank r) : rank selectFromPlan ≤ rank r := by
  have hRank := rank_removeFindout_le hIdle.top hIdle.load hFires hLate
  cases hFires with
  | foundOut hPlan hResolved => rw [hIdle.findout _ _ hPlan] at hResolved; cases hResolved
  | consulted hPlan hConsult => rw [hIdle.consult _ _ hPlan] at hConsult; cases hConsult
  | _ => revert hRank; decide

theorem rank_selectFromPlan_le (hQuiet : e.Quiet input tops s) (hTop : TopIn tops s)
    (hIdle : e.Idle s) (hFires : Fires e input s r t) : rank selectFromPlan ≤ rank r :=
  hIdle.rank_of_fires hFires (hQuiet s rfl hTop r t hFires)

theorem rank_selectAnswer_le (hQuiet : e.Quiet input tops s) (hTop : TopIn tops s)
    (hIdle : e.Idle s) {a : Action} {rest : List Action}
    (hAgenda : s.own.agenda = a :: rest) (hAction : ∀ q, a ≠ .findout q ∧ a ≠ .raise q)
    (hFires : Fires e input s r t) : rank selectAnswer ≤ rank r := by
  have hRank := rank_selectFromPlan_le hQuiet hTop hIdle hFires
  cases hFires with
  | copied _ hEmpty _ _ => rw [hAgenda] at hEmpty; cases hEmpty
  | asked _ hAsked hAsks =>
    rw [hAgenda] at hAsked
    cases hAsked
    exact (hAsks.elim (hAction _).1 (hAction _).2).elim
  | tookUp _ hEmpty _ _ _ => rw [hAgenda] at hEmpty; cases hEmpty
  | _ => revert hRank; decide

section

variable (hRules : e.rules = defaultRules) (hQuiet : e.Quiet input tops s) (hTop : TopIn tops s)
include hRules hQuiet hTop

theorem leads_downdate {qs : List Question} (hQud : s.shared.qud = q :: qs)
    (hResolved : s.isResolved q = true) : e.Leads input 1 s { s with shared.qud := qs } :=
  .of_fires hRules (.downdate hQud hResolved) ⟨_, rfl⟩ (hQuiet s rfl hTop)

theorem leads_loaded (hOpen : TopIsOpen s) {rest : List Action} {p : Plan}
    (hAgenda : s.own.agenda = .respond q :: rest) (hNone : answerable? s q = none)
    (hPlan : e.domain.issuePlan? q = some p) :
    e.Leads input 1 s { s with own.agenda := rest, own.plan := p.steps } := by
  refine .of_fires hRules (.loaded hAgenda hNone hPlan) ⟨_, rfl⟩ fun r' t' hFires => ?_
  exact rank_findPlan_le hOpen hFires (hQuiet s rfl hTop r' t' hFires)

theorem leads_foundOut (hOpen : TopIsOpen s) (hLoad : e.NoLoad s) {rest : List Action}
    (hPlan : s.own.plan = .findout q :: rest) (hResolved : s.isResolved q = true) :
    e.Leads input 1 s { s with own.plan := rest } := by
  refine .of_fires hRules (.foundOut hPlan hResolved) ⟨_, rfl⟩ fun r' t' hFires => ?_
  exact rank_removeFindout_le hOpen hLoad hFires (hQuiet s rfl hTop r' t' hFires)

theorem leads_consulted (hOpen : TopIsOpen s) (hLoad : e.NoLoad s) {rest : List Action}
    {p : Proposition} (hPlan : s.own.plan = .consult q :: rest)
    (hConsult : e.database.consult q s.shared.com = some p) :
    e.Leads input 1 s { s with own.plan := rest, own.bel := s.own.bel ++ [p] } := by
  refine .of_fires hRules (.consulted hPlan hConsult) ⟨_, rfl⟩ fun r' t' hFires => ?_
  have hRank := rank_removeFindout_le hOpen hLoad hFires (hQuiet s rfl hTop r' t' hFires)
  cases hFires with
  | foundOut hFindout _ => rw [hPlan] at hFindout; cases hFindout
  | _ => revert hRank; decide

theorem leads_copied (hIdle : e.Idle s) (hMay : (e.context input s).maySelect = true)
    (hAgenda : s.own.agenda = []) {a : Action} {rest : List Action} (hPlan : s.own.plan = a :: rest)
    (hConsult : ∀ q, a ≠ .consult q) : e.Leads input 1 s { s with own.agenda := [a] } :=
  .of_fires hRules (.copied hMay hAgenda hPlan hConsult) ⟨_, rfl⟩ fun _ _ hFires =>
    rank_selectFromPlan_le hQuiet hTop hIdle hFires

theorem leads_tookUp (hIdle : e.Idle s) (hMay : (e.context input s).maySelect = true)
    (hAgenda : s.own.agenda = []) (hPlan : s.own.plan = []) {qs : List Question}
    (hQud : s.shared.qud = q :: qs) (hAnswer : (answerable? s q).isSome = true) :
    e.Leads input 1 s { s with own.agenda := [.respond q] } := by
  refine .of_fires hRules (.tookUp hMay hAgenda hPlan hQud hAnswer) ⟨_, rfl⟩ fun r' t' hFires => ?_
  have hRank := rank_selectFromPlan_le hQuiet hTop hIdle hFires
  cases hFires with
  | copied _ _ hCopied _ => rw [hPlan] at hCopied; cases hCopied
  | asked _ hAsked _ => rw [hAgenda] at hAsked; cases hAsked
  | _ => revert hRank; decide

theorem leads_asked (hIdle : e.Idle s) (hMay : (e.context input s).maySelect = true)
    {rest : List Action} (hAgenda : s.own.agenda = .findout q :: rest)
    (hPlan : planRaises s.own.plan = false) :
    e.Leads input 1 s { s with
      own.agenda := rest
      nextMoves := s.nextMoves ++ [⟨.ask q, none⟩]
      turn.selected := true } := by
  refine .of_fires hRules (.asked hMay hAgenda (.inl rfl)) ⟨s.version + 1, ?_⟩
    fun r' t' hFires => ?_
  · simp [hPlan]
  · have hRank := rank_selectFromPlan_le hQuiet hTop hIdle hFires
    cases hFires with
    | copied _ hEmpty _ _ => rw [hAgenda] at hEmpty; cases hEmpty
    | _ => revert hRank; decide

theorem leads_answered (hIdle : e.Idle s) (hMay : (e.context input s).maySelect = true)
    {rest : List Action} {b : Proposition} (hAgenda : s.own.agenda = .respond q :: rest)
    (hAnswer : answerable? s q = some b) :
    e.Leads input 1 s { s with
      own.agenda := rest
      nextMoves := s.nextMoves ++ [⟨.answer (.full b), none⟩]
      turn.selected := true } := by
  refine .of_fires hRules (.answered hMay hAgenda hAnswer) ⟨_, rfl⟩ fun r' t' hFires => ?_
  exact rank_selectAnswer_le hQuiet hTop hIdle hAgenda (by simp) hFires

theorem leads_greets (hIdle : e.Idle s) (hMay : (e.context input s).maySelect = true)
    {rest : List Action} (hAgenda : s.own.agenda = .greet :: rest) :
    e.Leads input 1 s { s with
      own.agenda := rest
      nextMoves := s.nextMoves ++ [⟨.greet, none⟩]
      turn.selected := true } := by
  refine .of_fires hRules (.greets hMay hAgenda) ⟨_, rfl⟩ fun r' t' hFires => ?_
  have hRank := rank_selectAnswer_le hQuiet hTop hIdle hAgenda (by simp) hFires
  cases hFires with
  | answered _ hAsked _ => rw [hAgenda] at hAsked; cases hAsked
  | greets _ _ => decide
  | _ => revert hRank; decide

theorem isSettled_of_selected (hIdle : e.Idle s) (hMay : (e.context input s).maySelect = false) :
    e.IsSettled input s := by
  refine isSettled_of_not_fires hRules fun r t hFires => ?_
  have hRank := rank_selectFromPlan_le hQuiet hTop hIdle hFires
  cases hFires with
  | copied hMay' _ _ _ => rw [hMay] at hMay'; cases hMay'
  | asked hMay' _ _ => rw [hMay] at hMay'; cases hMay'
  | tookUp hMay' _ _ _ _ => rw [hMay] at hMay'; cases hMay'
  | answered hMay' _ _ => rw [hMay] at hMay'; cases hMay'
  | greets hMay' _ => rw [hMay] at hMay'; cases hMay'
  | _ => exact absurd hRank (by decide)

theorem isSettled_of_resting (hIdle : e.Idle s) (hResting : Resting s) : e.IsSettled input s := by
  have hStuck {a : Action} {rest : List Action} (hAgenda : s.own.agenda = a :: rest) {q : Question}
      {b : Proposition} (hAnswer : answerable? s q = some b) : a ≠ .respond q := by
    rintro rfl
    obtain ⟨q', hAction, hNone⟩ := hResting.agenda _ _ hAgenda
    cases hAction
    rw [hNone] at hAnswer
    cases hAnswer
  refine isSettled_of_not_fires hRules fun r t hFires => ?_
  have hRank := rank_selectFromPlan_le hQuiet hTop hIdle hFires
  cases hFires with
  | copied _ hAgenda hPlan hConsult =>
    obtain ⟨q, hAction⟩ := hResting.plan hAgenda _ _ hPlan
    exact hConsult q hAction
  | asked _ hAgenda hAction =>
    obtain ⟨q, hRespond, _⟩ := hResting.agenda _ _ hAgenda
    rcases hAction with rfl | rfl <;> cases hRespond
  | tookUp _ hAgenda hPlan hQud hAnswer =>
    rw [hResting.top hAgenda hPlan _ (by rw [hQud]; rfl)] at hAnswer
    cases hAnswer
  | answered _ hAgenda hAnswer => exact hStuck hAgenda hAnswer rfl
  | greets _ hAgenda =>
    obtain ⟨q, hRespond, _⟩ := hResting.agenda _ _ hAgenda
    cases hRespond
  | _ => exact absurd hRank (by decide)

theorem leads_foundOuts (hOpen : TopIsOpen s) (hLoad : e.NoLoad s) {found : List Question}
    {rest : List Action} (hPlan : s.own.plan = found.map .findout ++ rest)
    (hResolved : ∀ q ∈ found, s.isResolved q = true) :
    e.Leads input found.length s { s with own.plan := rest } := by
  induction found generalizing s with
  | nil =>
    rw [List.map_nil, List.nil_append] at hPlan
    rw [← hPlan]
    exact .refl s
  | cons q found ih =>
    rw [List.map_cons, List.cons_append] at hPlan
    have hFirst := leads_foundOut hRules hQuiet hTop hOpen hLoad hPlan
      (hResolved q List.mem_cons_self)
    have hRest := ih (s := { s with own.plan := found.map .findout ++ rest })
      (hQuiet.of_hearing rfl) hTop hOpen hLoad rfl
      fun q' hMem => hResolved q' (List.mem_cons_of_mem _ hMem)
    rw [List.length_cons, Nat.add_comm]
    exact hFirst.trans hRules hRest

/-- The resolved questions on top are closed one by one. -/
theorem leads_downdates {closed rest : List Question} (hQud : s.shared.qud = closed ++ rest)
    (hTops : ∀ q ∈ closed ++ rest, tops q) (hResolved : ∀ q ∈ closed, s.isResolved q = true) :
    e.Leads input closed.length s { s with shared.qud := rest } := by
  induction closed generalizing s with
  | nil =>
    rw [List.nil_append] at hQud
    rw [← hQud]
    exact .refl s
  | cons q closed ih =>
    rw [List.cons_append] at hQud
    have hFirst := leads_downdate hRules hQuiet hTop hQud (hResolved q List.mem_cons_self)
    have hRest := ih (s := { s with shared.qud := closed ++ rest }) (hQuiet.of_hearing rfl)
      (fun q' hHead => hTops q' (List.mem_cons_of_mem _ (List.mem_of_head? hHead))) rfl
      (fun q' hMem => hTops q' (List.mem_cons_of_mem _ hMem))
      (fun q' hMem => hResolved q' (List.mem_cons_of_mem _ hMem))
    rw [List.length_cons, Nat.add_comm]
    exact hFirst.trans hRules hRest

theorem leads_asks (hIdle : e.Idle s) (hMay : (e.context input s).maySelect = true)
    (hAgenda : s.own.agenda = []) {rest : List Action} (hPlan : s.own.plan = .findout q :: rest) :
    e.Leads input 2 s { s with
      nextMoves := s.nextMoves ++ [⟨.ask q, none⟩], turn.selected := true } := by
  have hCopied := leads_copied hRules hQuiet hTop hIdle hMay hAgenda hPlan (fun _ h => by cases h)
  have hIdle' : e.Idle { s with own.agenda := [.findout q] } :=
    ⟨hIdle.top, fun _ _ h => (by cases h), hIdle.findout, hIdle.consult⟩
  have hAsked := leads_asked (s := { s with own.agenda := [.findout q] }) hRules
    (hQuiet.of_hearing rfl) hTop hIdle' hMay rfl (by simp [hPlan, planRaises])
  have hBoth := hCopied.trans hRules hAsked
  rwa [← hAgenda] at hBoth

theorem leads_responds (hIdle : e.Idle s) (hMay : (e.context input s).maySelect = true)
    (hAgenda : s.own.agenda = []) (hPlan : s.own.plan = []) {qs : List Question}
    {b : Proposition} (hQud : s.shared.qud = q :: qs) (hAnswer : answerable? s q = some b) :
    e.Leads input 2 s { s with
      nextMoves := s.nextMoves ++ [⟨.answer (.full b), none⟩], turn.selected := true } := by
  have hTook := leads_tookUp hRules hQuiet hTop hIdle hMay hAgenda hPlan hQud (by rw [hAnswer]; rfl)
  have hIdle' : e.Idle { s with own.agenda := [.respond q] } := by
    refine ⟨hIdle.top, fun q' rest h hNone => ?_, hIdle.findout, hIdle.consult⟩
    cases h
    rw [show answerable? s q = none from hNone] at hAnswer
    cases hAnswer
  have hAnswered := leads_answered (s := { s with own.agenda := [.respond q] }) hRules
    (hQuiet.of_hearing rfl) hTop hIdle' hMay rfl hAnswer
  have hBoth := hTook.trans hRules hAnswered
  rwa [← hAgenda] at hBoth

end

end Dialogue.Engine
