import Dialogue.Proofs.Cycle.Trace
import Dialogue.Proofs.State.Pending

/-! # Firings of the default rules

What each rule of the default table needs in order to fire and which state it leads to, with one
constructor for a rule and three for silence. Every firing of a cycle is one of these, so facts on
cycles are proved by cases on `Fires`.
-/

namespace Dialogue

def TurnInput.utterance (input : TurnInput) : Utterance where
  speaker := input.speaker
  moves := input.moves

namespace Engine

open Update

variable {e : Engine} {input : TurnInput} {s t : InformationState} {r : Rule}
  {deltas : List Delta}

@[simp] theorem context_state : (e.context input s).state = s := rfl

@[simp] theorem context_input : (e.context input s).input = input := rfl

@[simp] theorem context_domain : (e.context input s).domain = e.domain := rfl

@[simp] theorem context_database : (e.context input s).database = e.database := rfl

@[simp] theorem context_config : (e.context input s).config = e.config := rfl

/-- The question on top, asked once more. -/
def askAgain (s : InformationState) : List Move :=
  s.shared.qud.head?.toList.map fun q => ⟨.ask q, none⟩

theorem askAgain_of_none (h : s.shared.qud.head? = none) : askAgain s = [] := by
  rw [askAgain, h]
  rfl

theorem askAgain_of_top {q : Question} (h : s.shared.qud.head? = some q) :
    askAgain s = [⟨.ask q, none⟩] := by
  rw [askAgain, h]
  rfl

inductive Fires (e : Engine) (input : TurnInput) (s : InformationState) :
    Rule → InformationState → Prop where
  | clearAgenda : input.resetAgenda = true → s.own.agenda ≠ [] →
      Fires e input s clearAgenda { s with own.agenda := [], version := s.version + 1 }
  | latch : input.moves ≠ [] → s.turn.latched = false →
      Fires e input s getLatestMove { s with
        shared.lu := some ⟨input.speaker, input.moves⟩
        turn := { s.turn with latched := true, consumed := [] }
        version := s.version + 1 }
  | request {u : Utterance} {i : Nat} {steps : List Action} :
      (e.context input s).intelligibleUserTurn? = some u →
      (e.context input s).findPending? (requestedSteps? e.domain) = some (i, steps) →
      Fires e input s integrateUsrRequest { s with
        own.agenda := steps ++ s.own.agenda
        turn.consumed := s.turn.consumed.insert i
        version := s.version + 1 }
  | sysAsk {u : Utterance} {i : Nat} {q : Question} :
      s.latched? = some u → u.speaker = .sys →
      (e.context input s).findPending? Move.asked? = some (i, q) →
      Fires e input s integrateSysAsk { s with
        shared.qud := q :: s.shared.qud
        turn.consumed := s.turn.consumed.insert i
        version := s.version + 1 }
  | usrAsk {u : Utterance} {i : Nat} {q : Question} :
      (e.context input s).intelligibleUserTurn? = some u →
      (e.context input s).findPending? Move.asked? = some (i, q) →
      Fires e input s integrateUsrAsk { s with
        own.agenda := .respond q :: s.own.agenda
        shared.qud := q :: s.shared.qud
        turn.consumed := s.turn.consumed.insert i
        version := s.version + 1 }
  | answer {u : Utterance} {q : Question} {qs : List Question} {i : Nat} {p : Proposition} :
      s.latched? = some u → mayTakeAnswers (e.context input s) u = true →
      s.shared.qud = q :: qs →
      (e.context input s).findPending? (acceptedFact? (e.context input s) u q) = some (i, p) →
      Fires e input s integrateAnswer { s with
        shared.com := p :: s.shared.com
        turn.consumed := s.turn.consumed.insert i
        version := s.version + 1 }
  | greeted {i : Nat} : (e.context input s).findPending? greeting? = some (i, ()) →
      Fires e input s integrateGreet { s with
        turn.consumed := s.turn.consumed.insert i
        version := s.version + 1 }
  | engaged {u : Utterance} : (e.context input s).userTurn? = some u → u.isSilence = false →
      u.hasContentfulMove = true → s.own.noInputCount ≠ 0 →
      Fires e input s integrateNoInput { s with
        own.noInputCount := 0
        turn.consumed := s.consumedSilence
        version := s.version + 1 }
  | reprompted {u : Utterance} : (e.context input s).userTurn? = some u → u.isSilence = true →
      (∃ m ∈ s.pendingMoves, m.2.isNoInput = true) →
      (e.config.escalation ≤ nextCount s.own.noInputCount →
        fallback? (e.context input s) = none) →
      Fires e input s integrateNoInput { s with
        own.noInputCount := nextCount s.own.noInputCount
        nextMoves := s.nextMoves ++ ⟨.noInput, none⟩ :: askAgain s
        turn := { s.turn with consumed := s.consumedSilence, selected := true }
        version := s.version + 1 }
  | fellBack {u : Utterance} {q : Question} {qs : List Question} {p : Proposition} :
      (e.context input s).userTurn? = some u → u.isSilence = true →
      (∃ m ∈ s.pendingMoves, m.2.isNoInput = true) →
      e.config.escalation ≤ nextCount s.own.noInputCount →
      s.shared.qud = q :: qs → e.domain.default? q.predicate = some p →
      Fires e input s integrateNoInput { s with
        own.agenda := []
        own.plan := if planAsks s.own.plan q then s.own.plan.tail else s.own.plan
        own.noInputCount := 0
        shared.qud := qs
        shared.com := p :: s.shared.com
        nextMoves := s.nextMoves ++ [⟨.answer (.full p), none⟩]
        turn.consumed := s.consumedSilence
        version := s.version + 1 }
  | unclear {u : Utterance} : (e.context input s).userTurn? = some u →
      s.turn.grounded = false → u.isIntelligible e.config.lowConfidence = false →
      Fires e input s integrateLowConfidence { s with
        nextMoves := s.nextMoves ++ askAgain s ++ [⟨.inform e.config.clarificationText, none⟩]
        turn := { s.turn with grounded := true, selected := true }
        version := s.version + 1 }
  | misformatted {u : Utterance} {q : Question} {qs : List Question} {f : Format} {i : Nat} :
      s.turn.grounded = false → (e.context input s).intelligibleUserTurn? = some u →
      s.shared.qud = q :: qs → e.domain.formats.get? q.predicate = some f →
      (e.context input s).findPending? (misformatted? (e.context input s) q f) = some (i, ()) →
      Fires e input s integratePartialUnderstanding { s with
        nextMoves := s.nextMoves ++ [⟨.ask q, none⟩, ⟨.inform f.hint, none⟩]
        turn := { s.turn with
          consumed := s.turn.consumed.insert i, grounded := true, selected := true }
        version := s.version + 1 }
  | acknowledged {u : Utterance} : (e.context input s).intelligibleUserTurn? = some u →
      s.turn.acknowledged = false → s.turn.grounded = false →
      u.moves.any (isSureAnswer (e.context input s)) = true →
      Fires e input s integratePositiveGrounding { s with
        nextMoves := s.nextMoves ++ [⟨.acknowledge e.config.acknowledgementText, none⟩]
        turn.acknowledged := true
        version := s.version + 1 }
  | downdate {q : Question} {qs : List Question} : s.shared.qud = q :: qs →
      s.isResolved q = true →
      Fires e input s downdateQud { s with shared.qud := qs, version := s.version + 1 }
  | loaded {q : Question} {rest : List Action} {p : Plan} : s.own.agenda = .respond q :: rest →
      answerable? s q = none → e.domain.issuePlan? q = some p →
      Fires e input s findPlan { s with
        own.agenda := rest, own.plan := p.steps, version := s.version + 1 }
  | foundOut {q : Question} {rest : List Action} : s.own.plan = .findout q :: rest →
      s.isResolved q = true →
      Fires e input s removeFindout { s with own.plan := rest, version := s.version + 1 }
  | consulted {q : Question} {rest : List Action} {p : Proposition} :
      s.own.plan = .consult q :: rest → e.database.consult q s.shared.com = some p →
      Fires e input s execConsult { s with
        own.plan := rest, own.bel := s.own.bel ++ [p], version := s.version + 1 }
  | copied {a : Action} {rest : List Action} : (e.context input s).maySelect = true →
      s.own.agenda = [] → s.own.plan = a :: rest → (∀ q, a ≠ .consult q) →
      Fires e input s selectFromPlan { s with own.agenda := [a], version := s.version + 1 }
  | asked {a : Action} {q : Question} {rest : List Action} :
      (e.context input s).maySelect = true → s.own.agenda = a :: rest →
      a = .findout q ∨ a = .raise q →
      Fires e input s selectAsk { s with
        own.agenda := rest
        own.plan := if planRaises s.own.plan then s.own.plan.tail else s.own.plan
        nextMoves := s.nextMoves ++ [⟨.ask q, none⟩]
        turn.selected := true
        version := s.version + 1 }
  | tookUp {q : Question} {qs : List Question} : (e.context input s).maySelect = true →
      s.own.agenda = [] → s.own.plan = [] → s.shared.qud = q :: qs →
      (answerable? s q).isSome = true →
      Fires e input s selectRespond { s with own.agenda := [.respond q], version := s.version + 1 }
  | answered {q : Question} {rest : List Action} {b : Proposition} :
      (e.context input s).maySelect = true → s.own.agenda = .respond q :: rest →
      answerable? s q = some b →
      Fires e input s selectAnswer { s with
        own.agenda := rest
        nextMoves := s.nextMoves ++ [⟨.answer (.full b), none⟩]
        turn.selected := true
        version := s.version + 1 }
  | greets {rest : List Action} : (e.context input s).maySelect = true →
      s.own.agenda = .greet :: rest →
      Fires e input s selectOther { s with
        own.agenda := rest
        nextMoves := s.nextMoves ++ [⟨.greet, none⟩]
        turn.selected := true
        version := s.version + 1 }

theorem contactSignal?_eq_silence {c : Context} (h : contactSignal? c = some .silence) :
    ∃ u, c.userTurn? = some u ∧ u.isSilence = true ∧
      ∃ m ∈ c.state.pendingMoves, m.2.isNoInput = true := by
  obtain ⟨u, hTurn, h⟩ := Option.bind_eq_some_iff.mp h
  refine ⟨u, hTurn, ?_⟩
  split at h
  · next hSilence =>
    refine ⟨hSilence, ?_⟩
    split at h
    · next hPending => simpa using hPending
    · cases h
  · split at h <;> cases h

theorem contactSignal?_eq_engagement {c : Context} (h : contactSignal? c = some .engagement) :
    ∃ u, c.userTurn? = some u ∧ u.isSilence = false ∧ u.hasContentfulMove = true ∧
      c.state.own.noInputCount ≠ 0 := by
  obtain ⟨u, hTurn, h⟩ := Option.bind_eq_some_iff.mp h
  refine ⟨u, hTurn, ?_⟩
  split at h
  · split at h <;> cases h
  · next hSilence =>
    split at h
    · next hEngaged =>
      rw [Bool.and_eq_true, bne_iff_ne] at hEngaged
      exact ⟨Bool.eq_false_iff.mpr hSilence, hEngaged⟩
    · cases h

theorem qudTop?_eq_some_iff {q : Question} :
    (e.context input s).qudTop? = some q ↔ ∃ qs, s.shared.qud = q :: qs := by
  change s.shared.qud.head? = some q ↔ _
  cases s.shared.qud <;> simp

theorem accepts_combine {d : Domain} {q : Question} {f : Format}
    (hFormat : d.formats.get? q.predicate = some f) (a : Answer) :
    d.accepts (q.combine a) = f.accepts (q.combine a).argument := by
  rw [Domain.accepts, show (q.combine a).predicate = q.predicate from rfl, hFormat]

theorem acceptedFact?_eq_some_iff {u : Utterance} {q : Question} {m : Move} {p : Proposition} :
    acceptedFact? (e.context input s) u q m = some p ↔ ∃ a, m.answered? = some a ∧
      e.domain.relevant a q = true ∧ (u.speaker = .usr → e.domain.accepts (q.combine a) = true) ∧
      p = q.combine a := by
  rw [acceptedFact?, Option.bind_eq_bind, Option.bind_eq_some_iff]
  apply exists_congr
  intro a
  cases u.speaker <;> simp [and_assoc, eq_comm (a := p)]

theorem isSome_misformatted?_iff {q : Question} {f : Format} {m : Move}
    (hFormat : e.domain.formats.get? q.predicate = some f) :
    (misformatted? (e.context input s) q f m).isSome = true ↔ ∃ a, m.answered? = some a ∧
      e.domain.relevant a q = true ∧ e.domain.accepts (q.combine a) = false := by
  rw [misformatted?, Option.bind_eq_bind, Option.isSome_bind, Option.any_eq_true]
  simp [accepts_combine hFormat]

theorem fallback?_of_top {q : Question} (hTop : s.shared.qud.head? = some q) :
    fallback? (e.context input s) = (e.domain.default? q.predicate).map (q, ·) := by
  rw [fallback?, Context.qudTop?, context_state, hTop]
  exact Option.map_eq_bind.symm

theorem reactionDeltas_of_reprompts {c : Context} {count threshold : UInt32}
    (hFallback : threshold ≤ nextCount count → fallback? c = none) :
    reactionDeltas c (react count threshold .silence) = reprompt c (nextCount count) := by
  rw [react]
  split
  · next hEscalate => rw [reactionDeltas, hFallback hEscalate]
  · rfl

theorem reactionDeltas_of_fallsBack {c : Context} {count threshold : UInt32} {q : Question}
    {p : Proposition} (hEscalate : threshold ≤ nextCount count)
    (hFallback : fallback? c = some (q, p)) :
    reactionDeltas c (react count threshold .silence) = fallBack c q p := by
  rw [react, if_pos hEscalate, reactionDeltas, hFallback]

theorem apply_silence (s : InformationState) (deltas : List Delta) :
    s.apply ((s.pendingMoves.filter (·.2.isNoInput)).map (fun m => .consume m.1) ++ deltas) =
      { s with turn.consumed := s.consumedSilence : InformationState }.apply deltas := by
  rw [InformationState.apply, List.foldl_append, InformationState.foldl_reduce_consume]
  rfl

theorem apply_reprompt {c : Context} (hQud : c.state.shared.qud = s.shared.qud) (count : UInt32) :
    s.apply (reprompt c count) = { s with
      own.noInputCount := count
      nextMoves := s.nextMoves ++ ⟨.noInput, none⟩ :: askAgain s
      turn.selected := true
      version := s.version + 1 } := by
  rw [reprompt, askAgain, Context.qudTop?, hQud]
  cases s.shared.qud.head? with
  | none => rfl
  | some q => simp [InformationState.apply, InformationState.reduce]

theorem apply_fallBack {c : Context} {q : Question} {qs : List Question}
    (hPlan : c.state.own.plan = s.own.plan) (hQud : s.shared.qud = q :: qs) (p : Proposition) :
    s.apply (fallBack c q p) = { s with
      own.agenda := []
      own.plan := if planAsks s.own.plan q then s.own.plan.tail else s.own.plan
      own.noInputCount := 0
      shared.qud := qs
      shared.com := p :: s.shared.com
      nextMoves := s.nextMoves ++ [⟨.answer (.full p), none⟩]
      version := s.version + 1 } := by
  rw [fallBack, hPlan]
  split <;> simp [InformationState.apply, InformationState.reduce, hQud, Stack.pop]

theorem apply_clarify (s : InformationState) (text : String) :
    s.apply ((s.shared.qud.head?.toList.map fun q => .emit ⟨.ask q, none⟩) ++
      [.emit ⟨.inform text, none⟩, .markGrounded, .markSelected]) = { s with
      nextMoves := s.nextMoves ++ askAgain s ++ [⟨.inform text, none⟩]
      turn := { s.turn with grounded := true, selected := true }
      version := s.version + 1 } := by
  rw [askAgain]
  cases s.shared.qud.head? with
  | none => simp [InformationState.apply, InformationState.reduce]
  | some q => simp [InformationState.apply, InformationState.reduce]

theorem apply_pose {a : Action} {rest : List Action} (hAgenda : s.own.agenda = a :: rest)
    (q : Question) :
    s.apply ([.emit ⟨.ask q, none⟩, .popAgenda, .markSelected] ++
      if planRaises s.own.plan then [.popPlan] else []) = { s with
      own.agenda := rest
      own.plan := if planRaises s.own.plan then s.own.plan.tail else s.own.plan
      nextMoves := s.nextMoves ++ [⟨.ask q, none⟩]
      turn.selected := true
      version := s.version + 1 } := by
  split <;> simp [InformationState.apply, InformationState.reduce, hAgenda, Stack.pop]

namespace Fires

theorem of_clearAgenda (h : Update.clearAgenda.effect (e.context input s) = some deltas) :
    Fires e input s Update.clearAgenda (s.apply deltas) := by
  change (if _ then _ else _) = _ at h
  split at h
  · next hGuard =>
    cases h
    rw [Bool.and_eq_true] at hGuard
    exact .clearAgenda hGuard.1 (by simpa [context] using hGuard.2)
  · cases h

theorem of_getLatestMove (h : getLatestMove.effect (e.context input s) = some deltas) :
    Fires e input s getLatestMove (s.apply deltas) := by
  change (if _ then _ else _) = _ at h
  split at h
  · next hGuard =>
    cases h
    rw [Bool.and_eq_true] at hGuard
    exact .latch (by simpa [context] using hGuard.1) (by simpa [context] using hGuard.2)
  · cases h

theorem of_integrateUsrRequest
    (h : integrateUsrRequest.effect (e.context input s) = some deltas) :
    Fires e input s integrateUsrRequest (s.apply deltas) := by
  obtain ⟨u, hTurn, h⟩ := Option.bind_eq_some_iff.mp h
  obtain ⟨⟨i, steps⟩, hFind, h⟩ := Option.bind_eq_some_iff.mp h
  cases h
  exact .request hTurn hFind

theorem of_integrateSysAsk (h : integrateSysAsk.effect (e.context input s) = some deltas) :
    Fires e input s integrateSysAsk (s.apply deltas) := by
  obtain ⟨u, hTurn, h⟩ := Option.bind_eq_some_iff.mp h
  obtain ⟨⟨i, q⟩, hFind, h⟩ := Option.bind_eq_some_iff.mp h
  cases h
  obtain ⟨hLatched, hSpeaker⟩ := Option.filter_eq_some_iff.mp hTurn
  exact .sysAsk hLatched (beq_iff_eq.mp hSpeaker) hFind

theorem of_integrateUsrAsk (h : integrateUsrAsk.effect (e.context input s) = some deltas) :
    Fires e input s integrateUsrAsk (s.apply deltas) := by
  obtain ⟨u, hTurn, h⟩ := Option.bind_eq_some_iff.mp h
  obtain ⟨⟨i, q⟩, hFind, h⟩ := Option.bind_eq_some_iff.mp h
  cases h
  exact .usrAsk hTurn hFind

theorem of_integrateAnswer (h : integrateAnswer.effect (e.context input s) = some deltas) :
    Fires e input s integrateAnswer (s.apply deltas) := by
  obtain ⟨u, hTurn, h⟩ := Option.bind_eq_some_iff.mp h
  obtain ⟨q, hTop, h⟩ := Option.bind_eq_some_iff.mp h
  obtain ⟨⟨i, p⟩, hFind, h⟩ := Option.bind_eq_some_iff.mp h
  cases h
  obtain ⟨hLatched, hMay⟩ := Option.filter_eq_some_iff.mp hTurn
  obtain ⟨qs, hQud⟩ := qudTop?_eq_some_iff.mp hTop
  exact .answer hLatched hMay hQud hFind

theorem of_integrateGreet (h : integrateGreet.effect (e.context input s) = some deltas) :
    Fires e input s integrateGreet (s.apply deltas) := by
  obtain ⟨⟨i, ⟨⟩⟩, hFind, h⟩ := Option.bind_eq_some_iff.mp h
  cases h
  exact .greeted hFind

theorem of_reprompted {u : Utterance} (hTurn : (e.context input s).userTurn? = some u)
    (hSilence : u.isSilence = true) (hPending : ∃ m ∈ s.pendingMoves, m.2.isNoInput = true)
    (hFallback : e.config.escalation ≤ nextCount s.own.noInputCount →
      fallback? (e.context input s) = none) :
    Fires e input s integrateNoInput (s.apply
      ((s.pendingMoves.filter (·.2.isNoInput)).map (fun m => .consume m.1) ++
        reprompt (e.context input s) (nextCount s.own.noInputCount))) := by
  rw [apply_silence, apply_reprompt (by rfl)]
  exact .reprompted hTurn hSilence hPending hFallback

theorem of_fellBack {u : Utterance} {q : Question} {qs : List Question} {p : Proposition}
    (hTurn : (e.context input s).userTurn? = some u) (hSilence : u.isSilence = true)
    (hPending : ∃ m ∈ s.pendingMoves, m.2.isNoInput = true)
    (hEscalate : e.config.escalation ≤ nextCount s.own.noInputCount)
    (hQud : s.shared.qud = q :: qs) (hDefault : e.domain.default? q.predicate = some p) :
    Fires e input s integrateNoInput (s.apply
      ((s.pendingMoves.filter (·.2.isNoInput)).map (fun m => .consume m.1) ++
        fallBack (e.context input s) q p)) := by
  have hApply := apply_fallBack (s := { s with turn.consumed := s.consumedSilence })
    (c := e.context input s) (by rfl) hQud p
  rw [apply_silence, hApply]
  exact .fellBack hTurn hSilence hPending hEscalate hQud hDefault

theorem of_integrateNoInput (h : integrateNoInput.effect (e.context input s) = some deltas) :
    Fires e input s integrateNoInput (s.apply deltas) := by
  obtain ⟨signal, hSignal, h⟩ := Option.bind_eq_some_iff.mp h
  cases h
  change Fires e input s integrateNoInput (s.apply (_ ++ reactionDeltas _ (react
    s.own.noInputCount e.config.escalation signal)))
  cases signal with
  | engagement =>
    obtain ⟨u, hTurn, hSilence, hContent, hCount⟩ := contactSignal?_eq_engagement hSignal
    rw [react, if_neg (show s.own.noInputCount ≠ 0 from hCount)]
    have hApply := apply_silence s [.setNoInputCount 0]
    exact hApply ▸ .engaged hTurn hSilence hContent hCount
  | silence =>
    obtain ⟨u, hTurn, hSilence, hPending⟩ := contactSignal?_eq_silence hSignal
    by_cases hFallback : e.config.escalation ≤ nextCount s.own.noInputCount →
        fallback? (e.context input s) = none
    · rw [reactionDeltas_of_reprompts hFallback]
      exact of_reprompted hTurn hSilence hPending hFallback
    · obtain ⟨hEscalate, hSome⟩ := Classical.not_imp.mp hFallback
      obtain ⟨⟨q, p⟩, hFallback⟩ := Option.ne_none_iff_exists'.mp hSome
      obtain ⟨q', hTop, hDefault⟩ := Option.bind_eq_some_iff.mp hFallback
      obtain ⟨p', hDefault, hPair⟩ := Option.bind_eq_some_iff.mp hDefault
      cases hPair
      obtain ⟨qs, hQud⟩ := qudTop?_eq_some_iff.mp hTop
      rw [reactionDeltas_of_fallsBack hEscalate hFallback]
      exact of_fellBack hTurn hSilence hPending hEscalate hQud hDefault

theorem of_integrateLowConfidence
    (h : integrateLowConfidence.effect (e.context input s) = some deltas) :
    Fires e input s integrateLowConfidence (s.apply deltas) := by
  obtain ⟨u, hTurn, h⟩ := Option.bind_eq_some_iff.mp h
  split at h
  · cases h
  · next hGuard =>
    cases h
    rw [Bool.or_eq_true, not_or, Bool.not_eq_true, Bool.not_eq_true] at hGuard
    exact apply_clarify s e.config.clarificationText ▸ .unclear hTurn hGuard.1 hGuard.2

theorem of_integratePartialUnderstanding
    (h : integratePartialUnderstanding.effect (e.context input s) = some deltas) :
    Fires e input s integratePartialUnderstanding (s.apply deltas) := by
  change (if _ then _ else _) = _ at h
  split at h
  · cases h
  · next hGrounded =>
    obtain ⟨u, hTurn, h⟩ := Option.bind_eq_some_iff.mp h
    obtain ⟨q, hTop, h⟩ := Option.bind_eq_some_iff.mp h
    obtain ⟨f, hFormat, h⟩ := Option.bind_eq_some_iff.mp h
    obtain ⟨⟨i, ⟨⟩⟩, hFind, h⟩ := Option.bind_eq_some_iff.mp h
    cases h
    obtain ⟨qs, hQud⟩ := qudTop?_eq_some_iff.mp hTop
    have hFires := Fires.misformatted (Bool.eq_false_iff.mpr hGrounded) hTurn hQud hFormat hFind
    simpa [InformationState.apply, InformationState.reduce] using hFires

theorem of_integratePositiveGrounding
    (h : integratePositiveGrounding.effect (e.context input s) = some deltas) :
    Fires e input s integratePositiveGrounding (s.apply deltas) := by
  obtain ⟨u, hTurn, h⟩ := Option.bind_eq_some_iff.mp h
  split at h
  · next hGuard =>
    cases h
    simp only [Bool.and_eq_true, Bool.not_eq_true'] at hGuard
    exact .acknowledged hTurn hGuard.1.1 hGuard.1.2 hGuard.2
  · cases h

theorem of_downdateQud (h : downdateQud.effect (e.context input s) = some deltas) :
    Fires e input s downdateQud (s.apply deltas) := by
  obtain ⟨q, hTop, h⟩ := Option.bind_eq_some_iff.mp h
  split at h
  · next hResolved =>
    cases h
    obtain ⟨qs, hQud⟩ := qudTop?_eq_some_iff.mp hTop
    have hFires : Fires e input s downdateQud _ := .downdate hQud hResolved
    simpa [InformationState.apply, InformationState.reduce, hQud] using hFires
  · cases h

theorem of_findPlan (h : findPlan.effect (e.context input s) = some deltas) :
    Fires e input s findPlan (s.apply deltas) := by
  simp only [findPlan] at h
  split at h
  · next q rest hAgenda =>
    rw [context_state] at hAgenda
    split at h
    · cases h
    · next hAnswer =>
      obtain ⟨p, hPlan, hDeltas⟩ := Option.map_eq_some_iff.mp h
      cases hDeltas
      have hFires : Fires e input s findPlan _ := .loaded hAgenda (by simpa using hAnswer) hPlan
      simpa [InformationState.apply, InformationState.reduce, hAgenda] using hFires
  · cases h

theorem of_removeFindout (h : removeFindout.effect (e.context input s) = some deltas) :
    Fires e input s removeFindout (s.apply deltas) := by
  simp only [removeFindout] at h
  split at h
  · next q rest hPlan =>
    rw [context_state] at hPlan
    split at h
    · next hResolved =>
      cases h
      have hFires : Fires e input s removeFindout _ := .foundOut hPlan hResolved
      simpa [InformationState.apply, InformationState.reduce, hPlan] using hFires
    · cases h
  · cases h

theorem of_execConsult (h : execConsult.effect (e.context input s) = some deltas) :
    Fires e input s execConsult (s.apply deltas) := by
  simp only [execConsult] at h
  split at h
  · next q rest hPlan =>
    rw [context_state] at hPlan
    obtain ⟨p, hConsult, hDeltas⟩ := Option.map_eq_some_iff.mp h
    cases hDeltas
    have hFires : Fires e input s execConsult _ := .consulted hPlan hConsult
    simpa [InformationState.apply, InformationState.reduce, hPlan] using hFires
  · cases h

theorem of_selectFromPlan (h : selectFromPlan.effect (e.context input s) = some deltas) :
    Fires e input s selectFromPlan (s.apply deltas) := by
  simp only [selectFromPlan] at h
  split at h
  · next hGuard =>
    rw [Bool.and_eq_true, List.isEmpty_iff] at hGuard
    obtain ⟨hMay, hAgenda⟩ := hGuard
    split at h
    · cases h
    · cases h
    · next a rest hConsult hPlan =>
      cases h
      have hFires := Fires.copied hMay hAgenda hPlan hConsult
      rw [context_state] at hAgenda
      simpa [InformationState.apply, InformationState.reduce, hAgenda] using hFires
  · cases h

theorem of_selectAsk (h : selectAsk.effect (e.context input s) = some deltas) :
    Fires e input s selectAsk (s.apply deltas) := by
  simp only [selectAsk] at h
  split at h
  · next hMay =>
    split at h
    · next q rest hAgenda =>
      cases h
      exact apply_pose hAgenda q ▸ .asked hMay hAgenda (.inl rfl)
    · next q rest hAgenda =>
      cases h
      exact apply_pose hAgenda q ▸ .asked hMay hAgenda (.inr rfl)
    · cases h
  · cases h

theorem of_selectRespond (h : selectRespond.effect (e.context input s) = some deltas) :
    Fires e input s selectRespond (s.apply deltas) := by
  change (if _ then _ else _) = some deltas at h
  split at h
  · next hGuard =>
    simp only [Bool.and_eq_true, List.isEmpty_iff] at hGuard
    obtain ⟨⟨hMay, hAgenda⟩, hPlan⟩ := hGuard
    obtain ⟨q, hTop, h⟩ := Option.bind_eq_some_iff.mp h
    obtain ⟨qs, hQud⟩ := qudTop?_eq_some_iff.mp hTop
    split at h
    · next hAnswer =>
      cases h
      have hFires := Fires.tookUp hMay hAgenda hPlan hQud hAnswer
      rw [context_state] at hAgenda
      simpa [InformationState.apply, InformationState.reduce, hAgenda] using hFires
    · cases h
  · cases h

theorem of_selectAnswer (h : selectAnswer.effect (e.context input s) = some deltas) :
    Fires e input s selectAnswer (s.apply deltas) := by
  simp only [selectAnswer] at h
  split at h
  · next hMay =>
    split at h
    · next q rest hAgenda =>
      obtain ⟨b, hAnswer, hDeltas⟩ := Option.map_eq_some_iff.mp h
      cases hDeltas
      rw [context_state] at hAgenda
      have hFires := Fires.answered hMay hAgenda hAnswer
      simpa [InformationState.apply, InformationState.reduce, hAgenda] using hFires
    · cases h
  · cases h

theorem of_selectOther (h : selectOther.effect (e.context input s) = some deltas) :
    Fires e input s selectOther (s.apply deltas) := by
  simp only [selectOther] at h
  split at h
  · next hMay =>
    split at h
    · next rest hAgenda =>
      cases h
      rw [context_state] at hAgenda
      have hFires := Fires.greets hMay hAgenda
      simpa [InformationState.apply, InformationState.reduce, hAgenda] using hFires
    · cases h
  · cases h

end Fires

theorem fires_of_effect (hRule : r ∈ defaultRules)
    (h : r.effect (e.context input s) = some deltas) : Fires e input s r (s.apply deltas) := by
  cases hRule using defaultRules_cases with
  | clearAgenda => exact .of_clearAgenda h
  | getLatestMove => exact .of_getLatestMove h
  | integrateUsrRequest => exact .of_integrateUsrRequest h
  | integrateSysAsk => exact .of_integrateSysAsk h
  | integrateUsrAsk => exact .of_integrateUsrAsk h
  | integrateAnswer => exact .of_integrateAnswer h
  | integrateGreet => exact .of_integrateGreet h
  | integrateNoInput => exact .of_integrateNoInput h
  | integrateLowConfidence => exact .of_integrateLowConfidence h
  | integratePartialUnderstanding => exact .of_integratePartialUnderstanding h
  | integratePositiveGrounding => exact .of_integratePositiveGrounding h
  | downdateQud => exact .of_downdateQud h
  | findPlan => exact .of_findPlan h
  | removeFindout => exact .of_removeFindout h
  | execConsult => exact .of_execConsult h
  | selectFromPlan => exact .of_selectFromPlan h
  | selectAsk => exact .of_selectAsk h
  | selectRespond => exact .of_selectRespond h
  | selectAnswer => exact .of_selectAnswer h
  | selectOther => exact .of_selectOther h

theorem fires_of_applicable? (hRules : e.rules = defaultRules)
    (h : e.applicable? input s = some (r, deltas)) : Fires e input s r (s.apply deltas) :=
  fires_of_effect (hRules ▸ mem_rules_of_applicable? h) (applicable?_eq_some_iff.mp h).1

theorem Fires.com_suffix (h : Fires e input s r t) : s.shared.com <:+ t.shared.com := by
  cases h with
  | answer | fellBack => exact List.suffix_cons _ _
  | _ => exact List.suffix_refl _

/-- Once latched, the latest utterance is that of the cycle. -/
def Attends (input : TurnInput) (s : InformationState) : Prop :=
  s.turn.latched = true → s.shared.lu = some ⟨input.speaker, input.moves⟩

theorem Attends.fires (hAttends : Attends input s) (h : Fires e input s r t) : Attends input t := by
  cases h with
  | latch _ _ => exact fun _ => rfl
  | _ => exact hAttends

theorem eq_utterance_of_userTurn? (hAttends : Attends input s) {u : Utterance}
    (h : (e.context input s).userTurn? = some u) :
    u = input.utterance ∧ s.turn.latched = true := by
  obtain ⟨hLatched, _⟩ := Option.filter_eq_some_iff.mp h
  obtain ⟨hMark, hLu⟩ := InformationState.latched?_eq_some_iff.mp hLatched
  rw [context_state, hAttends hMark] at hLu
  exact ⟨(Option.some.inj hLu).symm, hMark⟩

theorem speaker_of_userTurn? (hAttends : Attends input s) {u : Utterance}
    (h : (e.context input s).userTurn? = some u) : input.speaker = .usr := by
  obtain ⟨rfl, -⟩ := eq_utterance_of_userTurn? hAttends h
  exact beq_iff_eq.mp (Option.filter_eq_some_iff.mp h).2

theorem moves_of_userTurn? (hAttends : Attends input s) {u : Utterance}
    (h : (e.context input s).userTurn? = some u) : u.moves = input.moves := by
  rw [(eq_utterance_of_userTurn? hAttends h).1]
  rfl

theorem latched_of_pending {m : Nat × Move} (h : m ∈ s.pendingMoves) : s.turn.latched = true := by
  by_contra hLatched
  rw [InformationState.pendingMoves_of_not_latched (by simpa using hLatched)] at h
  cases h

namespace Attends

variable (hAttends : Attends input s)
include hAttends

theorem latched? (hMark : s.turn.latched = true) : s.latched? = some input.utterance :=
  InformationState.latched?_eq_some_iff.mpr ⟨hMark, hAttends hMark⟩

theorem eq_utterance {u : Utterance} (h : s.latched? = some u) : u = input.utterance := by
  obtain ⟨hMark, hLu⟩ := InformationState.latched?_eq_some_iff.mp h
  exact Option.some.inj (hLu.symm.trans (hAttends hMark))

theorem mem_moves {x : Nat × Move} (hMem : x ∈ s.pendingMoves) : x.2 ∈ input.moves :=
  InformationState.mem_moves_of_pending (hAttends.latched? (latched_of_pending hMem)) hMem

theorem userTurn? (hUser : input.speaker = .usr) (hMark : s.turn.latched = true) :
    (e.context input s).userTurn? = some input.utterance := by
  rw [Context.userTurn?, context_state, hAttends.latched? hMark]
  simp [TurnInput.utterance, hUser]

end Attends

end Engine

end Dialogue
