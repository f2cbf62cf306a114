import Mathlib.Data.Option.Basic
import Dialogue.Proofs.Update.Echo

/-! # Reading values

A value may have several spellings, and to read it is to forget which. Where neither a format nor a
lookup tells the spellings of a predicate apart, cycles that read the same do the same, and leave
the same to be read.
-/

namespace Dialogue

open Update

/-- A way to read the values of one predicate. What has been read is read as it stands. -/
structure Reading where
  predicate : String
  value : String → String
  value_value : ∀ x, value (value x) = value x

namespace Reading

variable (g : Reading)

def fact (p : Proposition) : Proposition :=
  if p.predicate = g.predicate then { p with argument := g.value p.argument } else p

/-- A short answer does not say what it is a value of, and stays as it is. -/
def answer : Answer → Answer
  | .full p => .full (g.fact p)
  | .short individual => .short individual

def act : Act → Act
  | .answer a => .answer (g.answer a)
  | act => act

def move (m : Move) : Move :=
  { m with act := g.act m.act }

def utterance (u : Utterance) : Utterance :=
  { u with moves := u.moves.map g.move }

def input (i : TurnInput) : TurnInput :=
  { i with moves := i.moves.map g.move }

/-- Beliefs are kept as they are. -/
def state (s : InformationState) : InformationState :=
  { s with
    shared.lu := s.shared.lu.map g.utterance
    shared.com := s.shared.com.map g.fact
    nextMoves := s.nextMoves.map g.move }

def context (c : Context) : Context :=
  { c with input := g.input c.input, state := g.state c.state }

def delta : Delta → Delta
  | .latch u => .latch (g.utterance u)
  | .commit p => .commit (g.fact p)
  | .emit m => .emit (g.move m)
  | delta => delta

variable {g : Reading} {p : Proposition} {s : InformationState} {c : Context}

@[simp] theorem fact_predicate (p : Proposition) : (g.fact p).predicate = p.predicate := by
  unfold fact
  split <;> rfl

@[simp] theorem fact_fact (p : Proposition) : g.fact (g.fact p) = g.fact p := by
  by_cases h : p.predicate = g.predicate
  · simp [fact, h, g.value_value]
  · simp [fact, h]

@[simp] theorem move_move (m : Move) : g.move (g.move m) = g.move m := by
  obtain ⟨act, confidence⟩ := m
  cases act with
  | answer a =>
    cases a with
    | full p => simp [move, act, answer]
    | short individual => rfl
  | _ => rfl

theorem fact_eq_self (h : p.predicate ≠ g.predicate) : g.fact p = p :=
  if_neg h

/-- No other fact is spelled like one on another predicate. -/
theorem fact_eq_iff {b : Proposition} (h : b.predicate ≠ g.predicate) : g.fact p = b ↔ p = b := by
  constructor
  · intro hSpelled
    have hPredicate : p.predicate ≠ g.predicate := by
      rwa [← fact_predicate (g := g), hSpelled]
    rwa [fact_eq_self hPredicate] at hSpelled
  · rintro rfl
    exact fact_eq_self h

@[simp] theorem fact_resolves (p : Proposition) (q : Question) :
    (g.fact p).resolves q = p.resolves q := by
  rw [Proposition.resolves, Proposition.resolves, fact_predicate]

@[simp] theorem move_certainty (m : Move) : (g.move m).certainty = m.certainty := rfl

/-- What does not depend on the answer that a move gives is the same of the move as it is read. -/
theorem apply_move {β : Type} {f : Move → β}
    (h : ∀ a a' confidence, f ⟨.answer a, confidence⟩ = f ⟨.answer a', confidence⟩) (m : Move) :
    f (g.move m) = f m := by
  obtain ⟨act, confidence⟩ := m
  cases act with
  | answer a => exact h _ _ _
  | _ => rfl

@[simp] theorem move_isNoInput (m : Move) : (g.move m).isNoInput = m.isNoInput :=
  apply_move (fun _ _ _ => rfl) m

@[simp] theorem move_isUnclear (m : Move) (threshold : Float32) :
    (g.move m).isUnclear threshold = m.isUnclear threshold :=
  apply_move (fun _ _ _ => rfl) m

@[simp] theorem move_isContentful (m : Move) : (g.move m).isContentful = m.isContentful :=
  apply_move (fun _ _ _ => rfl) m

@[simp] theorem move_asked? (m : Move) : (g.move m).asked? = m.asked? :=
  apply_move (fun _ _ _ => rfl) m

@[simp] theorem requestedSteps?_move (d : Domain) (m : Move) :
    requestedSteps? d (g.move m) = requestedSteps? d m :=
  apply_move (fun _ _ _ => rfl) m

@[simp] theorem greeting?_move (m : Move) : greeting? (g.move m) = greeting? m :=
  apply_move (fun _ _ _ => rfl) m

@[simp] theorem move_answered? (m : Move) :
    (g.move m).answered? = m.answered?.map g.answer := by
  obtain ⟨act, confidence⟩ := m
  cases act with
  | _ => rfl

@[simp] theorem utterance_speaker (u : Utterance) : (g.utterance u).speaker = u.speaker := rfl

@[simp] theorem utterance_isSilence (u : Utterance) :
    (g.utterance u).isSilence = u.isSilence := by
  simp [Utterance.isSilence, utterance, Function.comp_def]

@[simp] theorem utterance_hasContentfulMove (u : Utterance) :
    (g.utterance u).hasContentfulMove = u.hasContentfulMove := by
  simp [Utterance.hasContentfulMove, utterance, Function.comp_def]

@[simp] theorem utterance_isIntelligible (threshold : Float32) (u : Utterance) :
    (g.utterance u).isIntelligible threshold = u.isIntelligible threshold := by
  simp [Utterance.isIntelligible, utterance, Function.comp_def]

/-! ### What is read of a state -/

@[simp] theorem state_own (s : InformationState) : (g.state s).own = s.own := rfl

@[simp] theorem state_turn (s : InformationState) : (g.state s).turn = s.turn := rfl

@[simp] theorem latched?_state (s : InformationState) :
    (g.state s).latched? = s.latched?.map g.utterance := by
  cases hLatched : s.turn.latched with
  | _ => simp [InformationState.latched?, state, hLatched]

@[simp] theorem pendingMoves_state (s : InformationState) :
    (g.state s).pendingMoves = s.pendingMoves.map fun e => (e.1, g.move e.2) := by
  rw [InformationState.pendingMoves, InformationState.pendingMoves, latched?_state]
  cases s.latched? with
  | none => rfl
  | some u =>
    simp only [Option.map_some, utterance, List.zipIdx_map, List.map_map, List.filter_map]
    rfl

@[simp] theorem isResolved_state (s : InformationState) (q : Question) :
    (g.state s).isResolved q = s.isResolved q := by
  simp [InformationState.isResolved, state, Function.comp_def]

/-- No belief is about the predicate. -/
def Apart (g : Reading) (s : InformationState) : Prop :=
  ∀ b ∈ s.own.bel, b.predicate ≠ g.predicate

theorem unsharedBeliefs_state (h : g.Apart s) :
    (g.state s).unsharedBeliefs = s.unsharedBeliefs := by
  apply List.filter_congr
  intro b hMem
  have hSpelled : b ∈ s.shared.com.map g.fact ↔ b ∈ s.shared.com := by
    rw [List.mem_map]
    constructor
    · rintro ⟨p, hCommitted, hSame⟩
      rwa [(fact_eq_iff (h b hMem)).mp hSame] at hCommitted
    · exact fun hCommitted => ⟨b, hCommitted, fact_eq_self (h b hMem)⟩
  rw [Bool.eq_iff_iff]
  simpa [state] using hSpelled.not

theorem answerable?_state (h : g.Apart s) (q : Question) :
    answerable? (g.state s) q = answerable? s q := by
  rw [answerable?, answerable?, unsharedBeliefs_state h]

/-! ### What is read of a context -/

@[simp] theorem context_state (c : Context) : (g.context c).state = g.state c.state := rfl

@[simp] theorem context_domain (c : Context) : (g.context c).domain = c.domain := rfl

@[simp] theorem context_config (c : Context) : (g.context c).config = c.config := rfl

@[simp] theorem context_maySelect (c : Context) : (g.context c).maySelect = c.maySelect := rfl

@[simp] theorem context_qudTop? (c : Context) : (g.context c).qudTop? = c.qudTop? := rfl

@[simp] theorem userTurn?_context (c : Context) :
    (g.context c).userTurn? = c.userTurn?.map g.utterance := by
  simp only [Context.userTurn?, context, latched?_state, Option.filter_map]
  rfl

@[simp] theorem intelligibleUserTurn?_context (c : Context) :
    (g.context c).intelligibleUserTurn? = c.intelligibleUserTurn?.map g.utterance := by
  simp only [Context.intelligibleUserTurn?, userTurn?_context, Option.filter_map,
    Function.comp_def, utterance_isIntelligible]
  rfl

@[simp] theorem findPending?_context {β : Type} (c : Context) (f : Move → Option β) :
    (g.context c).findPending? f = c.findPending? fun m => f (g.move m) := by
  simp only [Context.findPending?, context, pendingMoves_state, List.findSome?_map]
  rfl

theorem map_findPending? {β γ : Type} (c : Context) (f : Move → Option β) (h : β → γ) :
    (c.findPending? f).map (Prod.map id h) = c.findPending? fun m => (f m).map h := by
  rw [Context.findPending?, Context.findPending?, List.map_findSome?]
  simp only [Function.comp_def, Option.map_map]
  rfl

@[simp] theorem reactionDeltas_context (c : Context) (reaction : Reaction) :
    reactionDeltas (g.context c) reaction = reactionDeltas c reaction := by
  cases reaction with
  | _ => rfl

@[simp] theorem isSureAnswer_context (c : Context) (m : Move) :
    isSureAnswer (g.context c) (g.move m) = isSureAnswer c m := by
  simp only [isSureAnswer, move_answered?, Option.isSome_map, move_certainty]
  rfl

@[simp] theorem contactSignal?_context (c : Context) :
    contactSignal? (g.context c) = contactSignal? c := by
  simp only [contactSignal?, userTurn?_context]
  cases c.userTurn? with
  | none => rfl
  | some u =>
    have hPending : (g.context c).state.pendingMoves.any (·.2.isNoInput) =
        c.state.pendingMoves.any (·.2.isNoInput) := by
      simp only [context, pendingMoves_state, List.any_map, Function.comp_def, move_isNoInput]
    simp only [Option.map_some, Option.bind_eq_bind, Option.bind_some, utterance_isSilence,
      utterance_hasContentfulMove, hPending]
    rfl

/-! ### What the rules do -/

/-- Neither a format nor a lookup tells the spellings apart, and no lookup gives one of them. -/
structure Blind (g : Reading) (d : Domain) (db : Database) : Prop where
  accepts : ∀ p, d.accepts (g.fact p) = d.accepts p
  consult : ∀ q com, db.consult q (com.map g.fact) = db.consult q com
  found : ∀ q com p, db.consult q com = some p → p.predicate ≠ g.predicate

theorem consult_context (hBlind : g.Blind c.domain c.database) (q : Question) :
    (g.context c).database.consult q (g.state c.state).shared.com =
      c.database.consult q c.state.shared.com :=
  hBlind.consult q c.state.shared.com

theorem relevant_answer (d : Domain) (a : Answer) (q : Question) :
    d.relevant (g.answer a) q = d.relevant a q := by
  cases a with
  | full p => exact fact_resolves p q
  | short individual => rfl

theorem fact_combine_answer {d : Domain} {a : Answer} {q : Question}
    (h : d.relevant a q = true) :
    g.fact (q.combine (g.answer a)) = g.fact (q.combine a) := by
  cases a with
  | full p =>
    have hResolves : p.resolves q = true := h
    have hSpelled : (g.fact p).resolves q = true := by rwa [fact_resolves]
    rw [answer, Engine.combine_of_resolves hResolves, Engine.combine_of_resolves hSpelled,
      fact_fact]
  | short individual => rfl

theorem accepts_combine_answer (hBlind : g.Blind c.domain c.database) {a : Answer} {q : Question}
    (h : c.domain.relevant a q = true) :
    c.domain.accepts (q.combine (g.answer a)) = c.domain.accepts (q.combine a) := by
  rw [← hBlind.accepts, fact_combine_answer h, hBlind.accepts]

theorem acceptedFact?_context (hBlind : g.Blind c.domain c.database) (u : Utterance) (q : Question)
    (m : Move) : (acceptedFact? (g.context c) (g.utterance u) q (g.move m)).map g.fact =
      (acceptedFact? c u q m).map g.fact := by
  simp only [acceptedFact?, move_answered?, context_domain]
  cases m.answered? with
  | none => rfl
  | some a =>
    cases hRelevant : c.domain.relevant a q with
    | false => simp [relevant_answer, hRelevant]
    | true =>
      simp only [Option.map_some, Option.bind_eq_bind, Option.bind_some, relevant_answer,
        hRelevant, accepts_combine_answer hBlind hRelevant, utterance_speaker]
      split
      · simp [fact_combine_answer hRelevant]
      · rfl

theorem misformatted?_context (hBlind : g.Blind c.domain c.database) {q : Question} {f : Format}
    (hFormat : c.domain.formats.get? q.predicate = some f) (m : Move) :
    misformatted? (g.context c) q f (g.move m) = misformatted? c q f m := by
  have hAccepts (a : Answer) : f.accepts (q.combine a).argument =
      c.domain.accepts (q.combine a) := by
    simp [Domain.accepts, Question.combine, hFormat]
  simp only [misformatted?, move_answered?, context_domain]
  cases m.answered? with
  | none => rfl
  | some a =>
    cases hRelevant : c.domain.relevant a q with
    | false => simp [relevant_answer, hRelevant]
    | true =>
      simp [relevant_answer, hRelevant, hAccepts, accepts_combine_answer hBlind hRelevant]

theorem effect_getLatestMove (c : Context) :
    (getLatestMove.effect (g.context c)).map (List.map g.delta) =
      (getLatestMove.effect c).map (List.map g.delta) := by
  simp only [getLatestMove, context, input, List.isEmpty_map, state_turn]
  split
  · simp only [Option.map_some, List.map_cons, List.map_nil, delta, utterance, List.map_map,
      Function.comp_def, move_move]
  · rfl

theorem map_findPending?_acceptedFact? (hBlind : g.Blind c.domain c.database) (u : Utterance)
    (q : Question) :
    ((g.context c).findPending? (acceptedFact? (g.context c) (g.utterance u) q)).map
        (Prod.map id g.fact) =
      (c.findPending? (acceptedFact? c u q)).map (Prod.map id g.fact) := by
  rw [findPending?_context, map_findPending?, map_findPending?]
  simp only [acceptedFact?_context hBlind]

theorem effect_integrateAnswer (hBlind : g.Blind c.domain c.database) :
    (integrateAnswer.effect (g.context c)).map (List.map g.delta) =
      (integrateAnswer.effect c).map (List.map g.delta) := by
  have hDeltas (found : Option (Nat × Proposition)) :
      (found.bind fun e => some [Delta.commit e.2, .consume e.1]).map (List.map g.delta) =
        (found.map (Prod.map id g.fact)).map fun e => [Delta.commit e.2, .consume e.1] := by
    cases found with
    | _ => rfl
  -- whether an answer may be taken up does not depend on how it is spelled
  have hTake : (g.context c).state.latched?.filter (mayTakeAnswers (g.context c)) =
      (c.state.latched?.filter (mayTakeAnswers c)).map g.utterance := by
    simp [mayTakeAnswers, Option.filter_map, Function.comp_def]
    rfl
  simp only [integrateAnswer, hTake, context_qudTop?]
  cases c.state.latched?.filter (mayTakeAnswers c) with
  | none => rfl
  | some u =>
    cases c.qudTop? with
    | none => rfl
    | some q =>
      have hRead := map_findPending?_acceptedFact? hBlind u q
      exact (hDeltas _).trans ((congrArg _ hRead).trans (hDeltas _).symm)

theorem effect_integratePartialUnderstanding (hBlind : g.Blind c.domain c.database) :
    integratePartialUnderstanding.effect (g.context c) =
      integratePartialUnderstanding.effect c := by
  simp only [integratePartialUnderstanding, context_state, state_turn, context_qudTop?,
    context_domain, intelligibleUserTurn?_context, findPending?_context]
  split
  · rfl
  cases c.intelligibleUserTurn? with
  | none => rfl
  | some u =>
    cases c.qudTop? with
    | none => rfl
    | some q =>
      cases hFormat : c.domain.formats.get? q.predicate with
      | none => simp [hFormat]
      | some f => simp [hFormat, misformatted?_context hBlind hFormat]

/-- Apart from the two rules that take in what is spelled, no rule sees how anything is. -/
theorem effect_context (hBlind : g.Blind c.domain c.database) (hApart : g.Apart c.state)
    {r : Rule} (hRule : r ∈ defaultRules) (hLatch : r ≠ getLatestMove)
    (hAnswer : r ≠ integrateAnswer) : r.effect (g.context c) = r.effect c := by
  cases hRule using defaultRules_cases with
  | clearAgenda => rfl
  | getLatestMove => exact absurd rfl hLatch
  | integrateUsrRequest => simp [integrateUsrRequest, Option.bind_map]
  | integrateSysAsk => simp [integrateSysAsk, Option.filter_map, Option.bind_map, Function.comp_def]
  | integrateUsrAsk => simp [integrateUsrAsk, Option.bind_map]
  | integrateAnswer => exact absurd rfl hAnswer
  | integrateGreet => simp [integrateGreet]
  | integrateNoInput => simp [integrateNoInput, List.filter_map, Function.comp_def]
  | integrateLowConfidence => simp [integrateLowConfidence, Option.bind_map]
  | integratePartialUnderstanding => exact effect_integratePartialUnderstanding hBlind
  | integratePositiveGrounding => simp [integratePositiveGrounding, Option.bind_map, utterance]
  | downdateQud => simp [downdateQud]
  | findPlan => simp [findPlan, answerable?_state hApart]
  | removeFindout => simp [removeFindout]
  | execConsult => simp [execConsult, consult_context hBlind]
  | selectFromPlan => rfl
  | selectAsk => rfl
  | selectRespond => simp [selectRespond, answerable?_state hApart]
  | selectAnswer => simp [selectAnswer, answerable?_state hApart]
  | selectOther => rfl

theorem effect_read (hBlind : g.Blind c.domain c.database) (hApart : g.Apart c.state) {r : Rule}
    (hRule : r ∈ defaultRules) : (r.effect (g.context c)).map (List.map g.delta) =
      (r.effect c).map (List.map g.delta) := by
  by_cases hLatch : r = getLatestMove
  · exact hLatch ▸ effect_getLatestMove c
  by_cases hAnswer : r = integrateAnswer
  · exact hAnswer ▸ effect_integrateAnswer hBlind
  rw [effect_context hBlind hApart hRule hLatch hAnswer]

/-! ### Cycles -/

variable {e : Engine} {i i' : TurnInput} {t : InformationState} {r : Rule}
  {deltas deltas' : List Delta}

theorem state_reduce (s : InformationState) (d : Delta) :
    g.state (s.reduce d) = (g.state s).reduce (g.delta d) := by
  cases d with
  | emit m => simp [state, InformationState.reduce, delta]
  | _ => rfl

theorem state_apply (hState : g.state s = g.state t)
    (hDeltas : deltas.map g.delta = deltas'.map g.delta) :
    g.state (s.apply deltas) = g.state (t.apply deltas') := by
  have hFold (s : InformationState) (deltas : List Delta) :
      g.state (deltas.foldl InformationState.reduce s) =
        (deltas.map g.delta).foldl InformationState.reduce (g.state s) := by
    rw [List.foldl_map]
    exact (List.foldl_hom g.state fun s d => (state_reduce s d).symm).symm
  have hNext := hFold s deltas
  rw [hState, hDeltas, ← hFold] at hNext
  have hBump (s : InformationState) : g.state { s with version := s.version + 1 } =
      { g.state s with version := (g.state s).version + 1 } := rfl
  rw [InformationState.apply, InformationState.apply, hBump, hNext, ← hBump]

theorem Apart.fires (hBlind : g.Blind e.domain e.database) (h : g.Apart s)
    (hFires : Engine.Fires e i s r t) : g.Apart t := by
  cases hFires with
  | consulted _ hFound =>
    intro b hMem
    rcases List.mem_append.mp hMem with hOld | hNew
    · exact h b hOld
    · obtain rfl := List.mem_singleton.mp hNew
      exact hBlind.found _ _ _ hFound
  | _ => exact h

theorem Apart.of_state (h : g.Apart s) (hState : g.state s = g.state t) : g.Apart t := by
  have hBel : s.own.bel = t.own.bel := congrArg (·.own.bel) hState
  rwa [Apart, ← hBel]

theorem findSome?_congr {α β : Type} {items : List α} {f f' : α → Option β}
    (h : ∀ a ∈ items, f a = f' a) : items.findSome? f = items.findSome? f' := by
  induction items with
  | nil => rfl
  | cons a rest ih =>
    rw [List.findSome?_cons, List.findSome?_cons, h a List.mem_cons_self,
      ih fun a hMem => h a (List.mem_cons_of_mem _ hMem)]

theorem same_or_read {ε α β : Type} {f : α → β} {a b : Except ε α} (h : a.map f = b.map f) :
    (∃ fault, a = .error fault ∧ b = .error fault) ∨
      ∃ u v, a = .ok u ∧ b = .ok v ∧ f u = f v := by
  cases a with
  | error fault =>
    cases b with
    | error fault' =>
      cases h
      exact .inl ⟨fault, rfl, rfl⟩
    | ok v => cases h
  | ok u =>
    cases b with
    | error fault => cases h
    | ok v => exact .inr ⟨u, v, rfl, rfl, Except.ok.inj h⟩

section

variable (hRules : e.rules = defaultRules) (hBlind : g.Blind e.domain e.database)
  (hInput : g.input i = g.input i')
include hRules hBlind hInput

theorem map_applicable?_read (hApart : g.Apart s) (hState : g.state s = g.state t) :
    (e.applicable? i s).map (Prod.map id (List.map g.delta)) =
      (e.applicable? i' t).map (Prod.map id (List.map g.delta)) := by
  have hContext : g.context (e.context i s) = g.context (e.context i' t) := by
    simp [context, Engine.context, hInput, hState]
  rw [Engine.applicable?, Engine.applicable?, Engine.scan_snd, Engine.scan_snd,
    List.map_findSome?, List.map_findSome?]
  apply findSome?_congr
  intro r hRule
  rw [hRules] at hRule
  have hEffect := effect_read (c := e.context i s) hBlind hApart hRule
  rw [hContext, effect_read (c := e.context i' t) hBlind (hApart.of_state hState) hRule] at hEffect
  calc ((r.effect (e.context i s)).map (r, ·)).map (Prod.map id (List.map g.delta))
      = ((r.effect (e.context i s)).map (List.map g.delta)).map (r, ·) := by
        rw [Option.map_map, Option.map_map]
        rfl
    _ = ((r.effect (e.context i' t)).map (List.map g.delta)).map (r, ·) := by rw [hEffect]
    _ = ((r.effect (e.context i' t)).map (r, ·)).map (Prod.map id (List.map g.delta)) := by
        rw [Option.map_map, Option.map_map]
        rfl

/-- The same rule applies first, if any does, and what it changes is read the same. -/
theorem applicable?_read (hApart : g.Apart s) (hState : g.state s = g.state t) :
    (e.applicable? i s = none ∧ e.applicable? i' t = none) ∨
      ∃ r deltas deltas', e.applicable? i s = some (r, deltas) ∧
        e.applicable? i' t = some (r, deltas') ∧ deltas.map g.delta = deltas'.map g.delta := by
  have hHits := map_applicable?_read hRules hBlind hInput hApart hState
  cases hHit : e.applicable? i s with
  | none =>
    rw [hHit, Option.map_none, eq_comm, Option.map_eq_none_iff] at hHits
    exact .inl ⟨rfl, hHits⟩
  | some hit =>
    rw [hHit, Option.map_some, eq_comm, Option.map_eq_some_iff] at hHits
    obtain ⟨⟨r, deltas'⟩, hHit', hSame⟩ := hHits
    obtain ⟨hRule, hDeltas⟩ := Prod.mk.inj hSame
    exact .inr ⟨r, hit.2, deltas', by rw [show r = hit.1 from hRule], hHit', hDeltas.symm⟩

theorem settle_read (hApart : g.Apart s) (hState : g.state s = g.state t) (allowed fired : Nat) :
    (e.settle i allowed fired s).outcome.map g.state =
      (e.settle i' allowed fired t).outcome.map g.state := by
  have hEnd : g.state s.endTurn = g.state t.endTurn := congrArg (·.endTurn) hState
  induction allowed generalizing s t fired with
  | zero =>
    rcases applicable?_read hRules hBlind hInput hApart hState with
      ⟨hNone, hNone'⟩ | ⟨r, deltas, deltas', hHit, hHit', -⟩
    · rw [Engine.settle_outcome_of_none hNone, Engine.settle_outcome_of_none hNone']
      exact congrArg Except.ok hEnd
    · rw [Engine.settle_outcome_zero hHit, Engine.settle_outcome_zero hHit']
  | succ allowed ih =>
    rcases applicable?_read hRules hBlind hInput hApart hState with
      ⟨hNone, hNone'⟩ | ⟨r, deltas, deltas', hHit, hHit', hDeltas⟩
    · rw [Engine.settle_outcome_of_none hNone, Engine.settle_outcome_of_none hNone']
      exact congrArg Except.ok hEnd
    · have hNext := state_apply hState hDeltas
      rw [Engine.settle_outcome_succ hHit, Engine.settle_outcome_succ hHit']
      exact ih (hApart.fires hBlind (Engine.fires_of_applicable? hRules hHit)) hNext (fired + 1)
        (congrArg (·.endTurn) hNext)

/-- Cycles that read the same end in what reads the same, or are refused alike. -/
theorem run_read (hApart : g.Apart s) (hState : g.state s = g.state t) :
    (e.run s i).outcome.map g.state = (e.run t i').outcome.map g.state :=
  settle_read hRules hBlind hInput (s := s.beginTurn) (t := t.beginTurn) hApart
    (congrArg (·.beginTurn) hState) _ _

end

end Reading

end Dialogue
