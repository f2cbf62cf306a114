import Dialogue.Proofs.Update.Quiet

/-! # Taking in one move

The firings by which a cycle takes in and comments on a turn, one lemma each. A user turn here is a
single move; the system's own turn may hold several.
-/

namespace Dialogue

open Update

namespace InformationState

variable {s : InformationState} {m : Move}

theorem hears_of_latched (hMark : s.turn.latched = true) (hLu : s.shared.lu = some ⟨.usr, [m]⟩)
    (hConsumed : s.turn.consumed = []) : s.Hears m [(0, m)] where
  latched := latched?_eq_some_iff.mpr ⟨hMark, hLu⟩
  pending := by simp [pendingMoves, latched?, hMark, hLu, hConsumed]

theorem hears_latch (s : InformationState) (m : Move) :
    Hears { s with shared.lu := some ⟨.usr, [m]⟩, turn := { latched := true } } m [(0, m)] :=
  hears_of_latched rfl rfl rfl

theorem hears_of_consumed (hMark : s.turn.latched = true) (hLu : s.shared.lu = some ⟨.usr, [m]⟩)
    (hConsumed : s.turn.consumed = [0]) : s.Hears m [] where
  latched := latched?_eq_some_iff.mpr ⟨hMark, hLu⟩
  pending := by simp [pendingMoves, latched?, hMark, hLu, hConsumed]

theorem consumedSilence_eq_self (h : ∀ x ∈ s.pendingMoves, x.2.isNoInput = false) :
    s.consumedSilence = s.turn.consumed := by
  have hNone : s.pendingMoves.filter (·.2.isNoInput) = [] :=
    List.filter_eq_nil_iff.mpr fun x hMem => by simp [h x hMem]
  rw [consumedSilence, hNone]
  rfl

theorem findPending?_of_single {e : Engine} {input : TurnInput}
    (hPending : s.pendingMoves = [(0, m)]) {β : Type} (f : Move → Option β) :
    (e.context input s).findPending? f = (f m).map fun b => (0, b) := by
  rw [Context.findPending?, Engine.context_state, hPending]
  cases hFound : f m with
  | none => simp [hFound]
  | some b => simp [hFound]

section

variable {speaker : Speaker} {before after : List Move}

theorem pendingMoves_of_fresh {moves : List Move} (hLatched : s.latched? = some ⟨speaker, moves⟩)
    (hConsumed : s.turn.consumed = []) : s.pendingMoves = moves.zipIdx.map Prod.swap := by
  simp [pendingMoves, hLatched, hConsumed]

theorem findPending?_of_append {e : Engine} {input : TurnInput} {β : Type} {f : Move → Option β}
    {b : β} (hLatched : s.latched? = some ⟨speaker, before ++ m :: after⟩)
    (hConsumed : s.turn.consumed = []) (hBefore : ∀ x ∈ before, f x = none)
    (hFound : f m = some b) : (e.context input s).findPending? f = some (before.length, b) := by
  have hNone : ((before.zipIdx.map Prod.swap).findSome? fun x => (f x.2).map fun b => (x.1, b)) =
      none := by
    rw [List.findSome?_eq_none_iff]
    intro x hMem
    obtain ⟨y, hPosition, rfl⟩ := List.mem_map.mp hMem
    have hEarlier : y.1 ∈ before := by
      obtain ⟨_, _, hEq⟩ := List.mem_zipIdx hPosition
      rw [hEq]
      exact List.getElem_mem _
    simp [hBefore y.1 hEarlier]
  rw [Context.findPending?, Engine.context_state, pendingMoves_of_fresh hLatched hConsumed,
    List.zipIdx_append, List.map_append, List.findSome?_append, hNone]
  simp [hFound]

/-- When one move is dealt with, those around it are left. -/
theorem mem_of_pending_append (hLatched : s.latched? = some ⟨speaker, before ++ m :: after⟩)
    (hConsumed : s.turn.consumed = [before.length]) {x : Nat × Move} (hMem : x ∈ s.pendingMoves) :
    x.2 ∈ before ∨ x.2 ∈ after := by
  rw [pendingMoves, hLatched, hConsumed] at hMem
  obtain ⟨hPosition, hOther⟩ := List.mem_filter.mp hMem
  obtain ⟨y, hIndex, rfl⟩ := List.mem_map.mp hPosition
  have hOther : y.2 ≠ before.length := by simpa using hOther
  have hMove : (before ++ m :: after)[y.2]? = some y.1 := List.mk_mem_zipIdx_iff_getElem?.mp hIndex
  rcases Nat.lt_or_ge y.2 before.length with hLess | hAtLeast
  · rw [List.getElem?_append_left hLess] at hMove
    exact .inl (List.mem_of_getElem? hMove)
  · rw [List.getElem?_append_right hAtLeast] at hMove
    obtain ⟨k, hLater⟩ : ∃ k, y.2 - before.length = k + 1 := ⟨y.2 - before.length - 1, by omega⟩
    rw [hLater, List.getElem?_cons_succ] at hMove
    exact .inr (List.mem_of_getElem? hMove)

end

end InformationState

namespace Engine

variable {e : Engine} {input : TurnInput} {s t u : InformationState} {r : Rule} {m : Move}
  {pending : List (Nat × Move)} {q : Question}

theorem trace_latch (hRules : e.rules = defaultRules) (hReset : input.resetAgenda = false)
    (hMoves : input.moves ≠ []) (hMark : s.turn.latched = false) :
    e.Trace input s [getLatestMove] { s with
      shared.lu := some ⟨input.speaker, input.moves⟩
      turn := { s.turn with latched := true, consumed := [] }
      version := s.version + 1 } := by
  refine .of_fires hRules (.latch hMoves hMark) fun r' t' hFires => ?_
  cases hFires with
  | clearAgenda hRequested _ => rw [hReset] at hRequested; cases hRequested
  | _ => decide

theorem leads_latch (hRules : e.rules = defaultRules) (hReset : input.resetAgenda = false)
    (hMoves : input.moves ≠ []) (hMark : s.turn.latched = false) :
    e.Leads input 1 s { s with
      shared.lu := some ⟨input.speaker, input.moves⟩
      turn := { s.turn with latched := true, consumed := [] } } :=
  ⟨_, _, trace_latch hRules hReset hMoves hMark, rfl, _, rfl⟩

theorem intelligibleUserTurn?_of_clear (hHears : s.Hears m pending)
    (hClear : m.isUnclear e.config.lowConfidence = false) :
    (e.context input s).intelligibleUserTurn? = some ⟨.usr, [m]⟩ := by
  rw [Context.intelligibleUserTurn?, userTurn?_of_hears hHears]
  simp [Utterance.isIntelligible, hClear]

/-- Neither a reset nor latching is due, and the move requests nothing. -/
theorem rank_integrateUsrAsk_le (hReset : input.resetAgenda = false)
    (hHears : s.Hears m pending) (hRequest : ∀ x ∈ pending, requestedSteps? e.domain x.2 = none)
    (hFires : Fires e input s r t) : rank integrateUsrAsk ≤ rank r := by
  have hRank := rank_integrateUsrRequest_le hReset hHears.latched hFires
  cases hFires with
  | request _ hFind =>
    exact absurd hFind (not_fires_of_findPending? fun x hMem => hRequest x (hHears.pending ▸ hMem))
  | sysAsk hLatched hSpeaker _ =>
    rw [hHears.latched] at hLatched
    cases hLatched
    cases hSpeaker
  | _ => revert hRank; decide

theorem requestedSteps?_of_asked (h : m.asked? = some q) (d : Domain) :
    requestedSteps? d m = none := by
  rw [Move.asked?] at h
  rw [requestedSteps?]
  split at h <;> simp_all

theorem requestedSteps?_of_answered {a : Answer} (h : m.answered? = some a) (d : Domain) :
    requestedSteps? d m = none := by
  rw [Move.answered?] at h
  rw [requestedSteps?]
  split at h <;> simp_all

theorem asked?_of_answered {a : Answer} (h : m.answered? = some a) : m.asked? = none := by
  rw [Move.answered?] at h
  rw [Move.asked?]
  split at h <;> simp_all

theorem greeting?_of_answered {a : Answer} (h : m.answered? = some a) : greeting? m = none := by
  rw [Move.answered?] at h
  rw [greeting?]
  split at h <;> simp_all

theorem isNoInput_of_answered {a : Answer} (h : m.answered? = some a) : m.isNoInput = false := by
  rw [Move.answered?] at h
  rw [Move.isNoInput]
  split at h <;> simp_all

theorem isContentful_of_answered {a : Answer} (h : m.answered? = some a) :
    m.isContentful = true := by
  rw [Move.answered?] at h
  rw [Move.isContentful]
  split at h <;> simp_all

theorem leads_greeted (hRules : e.rules = defaultRules) (hReset : input.resetAgenda = false)
    {speaker : Speaker} (hLatched : s.latched? = some ⟨speaker, [m]⟩)
    (hConsumed : s.turn.consumed = []) (hGreet : m.act = .greet) :
    e.Leads input 1 s { s with turn.consumed := [0] } := by
  have hPending : s.pendingMoves = [(0, m)] :=
    InformationState.pendingMoves_of_fresh hLatched hConsumed
  have hFind {β : Type} (f : Move → Option β) :
      (e.context input s).findPending? f = (f m).map fun b => (0, b) :=
    InformationState.findPending?_of_single hPending f
  have hGreeting : (e.context input s).findPending? greeting? = some (0, ()) := by
    rw [hFind, greeting?, hGreet]
    rfl
  refine .of_fires hRules (.greeted hGreeting) ⟨s.version + 1, by rw [hConsumed]; rfl⟩
    fun r' t' hFires => ?_
  have hRank := rank_integrateUsrRequest_le hReset hLatched hFires
  cases hFires with
  | request _ hFound => simp [hFind, requestedSteps?, hGreet] at hFound
  | sysAsk _ _ hFound => simp [hFind, Move.asked?, hGreet] at hFound
  | usrAsk _ hFound => simp [hFind, Move.asked?, hGreet] at hFound
  | answer _ _ _ hFound => simp [hFind, acceptedFact?, Move.answered?, hGreet] at hFound
  | _ => revert hRank; decide

theorem leads_request (hRules : e.rules = defaultRules) (hReset : input.resetAgenda = false)
    (hHears : s.Hears m [(0, m)]) (hConsumed : s.turn.consumed = [])
    (hClear : m.isUnclear e.config.lowConfidence = false) {steps : List Action}
    (hSteps : requestedSteps? e.domain m = some steps) :
    e.Leads input 1 s { s with
      own.agenda := steps ++ s.own.agenda, turn.consumed := [0] } := by
  have hFind : (e.context input s).findPending? (requestedSteps? e.domain) = some (0, steps) := by
    rw [InformationState.findPending?_of_single hHears.pending, hSteps]
    rfl
  refine .of_fires hRules (.request (intelligibleUserTurn?_of_clear hHears hClear) hFind)
    ⟨s.version + 1, by rw [hConsumed]; rfl⟩ ?_
  exact fun r' t' hFires => rank_integrateUsrRequest_le hReset hHears.latched hFires

theorem leads_usrAsk (hRules : e.rules = defaultRules) (hReset : input.resetAgenda = false)
    (hHears : s.Hears m [(0, m)]) (hConsumed : s.turn.consumed = [])
    (hClear : m.isUnclear e.config.lowConfidence = false) (hAsked : m.asked? = some q) :
    e.Leads input 1 s { s with
      own.agenda := .respond q :: s.own.agenda
      shared.qud := q :: s.shared.qud
      turn.consumed := [0] } := by
  have hFind : (e.context input s).findPending? Move.asked? = some (0, q) := by
    rw [InformationState.findPending?_of_single hHears.pending, hAsked]
    rfl
  refine .of_fires hRules (.usrAsk (intelligibleUserTurn?_of_clear hHears hClear) hFind)
    ⟨s.version + 1, by rw [hConsumed]; rfl⟩ fun r' t' hFires => ?_
  exact rank_integrateUsrAsk_le hReset hHears
    (by simp [requestedSteps?_of_asked hAsked]) hFires

theorem trace_answer (hRules : e.rules = defaultRules) (hReset : input.resetAgenda = false)
    (hHears : s.Hears m [(0, m)]) (hClear : m.isUnclear e.config.lowConfidence = false) {a : Answer}
    (hAnswered : m.answered? = some a) {qs : List Question} (hQud : s.shared.qud = q :: qs)
    (hRelevant : e.domain.relevant a q = true) (hAccepts : e.domain.accepts (q.combine a) = true) :
    e.Trace input s [integrateAnswer] { s with
      shared.com := q.combine a :: s.shared.com
      turn.consumed := s.turn.consumed.insert 0
      version := s.version + 1 } := by
  have hMay : mayTakeAnswers (e.context input s) ⟨.usr, [m]⟩ = true := by
    simp [mayTakeAnswers, Utterance.isIntelligible, hClear]
  have hFind : (e.context input s).findPending? (acceptedFact? (e.context input s) ⟨.usr, [m]⟩ q) =
      some (0, q.combine a) := by
    rw [InformationState.findPending?_of_single hHears.pending, acceptedFact?, hAnswered]
    simp [hRelevant, hAccepts]
  refine .of_fires hRules (.answer hHears.latched hMay hQud hFind) fun r' t' hFires => ?_
  have hRank := rank_integrateUsrAsk_le hReset hHears
    (by simp [requestedSteps?_of_answered hAnswered]) hFires
  cases hFires with
  | usrAsk _ hAsked =>
    rw [InformationState.findPending?_of_single hHears.pending,
      asked?_of_answered hAnswered] at hAsked
    cases hAsked
  | _ => revert hRank; decide

theorem leads_answer (hRules : e.rules = defaultRules) (hReset : input.resetAgenda = false)
    (hHears : s.Hears m [(0, m)]) (hConsumed : s.turn.consumed = [])
    (hClear : m.isUnclear e.config.lowConfidence = false) {a : Answer}
    (hAnswered : m.answered? = some a) {qs : List Question} (hQud : s.shared.qud = q :: qs)
    (hRelevant : e.domain.relevant a q = true) (hAccepts : e.domain.accepts (q.combine a) = true) :
    e.Leads input 1 s { s with
      shared.com := q.combine a :: s.shared.com, turn.consumed := [0] } := by
  have hTrace := trace_answer hRules hReset hHears hClear hAnswered hQud hRelevant hAccepts
  exact ⟨_, _, hTrace, rfl, s.version + 1, by rw [hConsumed]; rfl⟩

/-- Whoever takes part again is no longer counted as silent. -/
theorem leads_engaged (hRules : e.rules = defaultRules) (hTaken : e.Taken input s)
    (hHears : s.Hears m pending) (hSilence : m.isNoInput = false) (hContent : m.isContentful = true)
    (hCount : s.own.noInputCount ≠ 0) :
    e.Leads input 1 s { s with own.noInputCount := 0 } := by
  have hConsumed : s.consumedSilence = s.turn.consumed := by
    refine InformationState.consumedSilence_eq_self fun x hMem => ?_
    rw [hHears.eq_of_mem (hHears.pending ▸ hMem), hSilence]
  refine .of_fires hRules (.engaged (userTurn?_of_hears hHears) ?_ ?_ hCount)
    ⟨s.version + 1, by rw [hConsumed]⟩ hTaken
  · simp [Utterance.isSilence, hSilence]
  · simp [Utterance.hasContentfulMove, hContent]

theorem leads_unclear (hRules : e.rules = defaultRules) (hTaken : e.Taken input s)
    (hHears : s.Hears m pending) (hUnclear : m.isUnclear e.config.lowConfidence = true)
    (hCount : m.isContentful = true → s.own.noInputCount = 0)
    (hGrounded : s.turn.grounded = false) :
    e.Leads input 1 s { s with
      nextMoves := s.nextMoves ++ askAgain s ++ [⟨.inform e.config.clarificationText, none⟩]
      turn := { s.turn with grounded := true, selected := true } } := by
  refine .of_fires hRules (.unclear (userTurn?_of_hears hHears) hGrounded ?_) ⟨_, rfl⟩
    fun r' t' hFires => ?_
  · simp [Utterance.isIntelligible, hUnclear]
  · exact rank_integrateLowConfidence_le hTaken hHears
      (fun x hMem => by rw [hHears.eq_of_mem hMem, isNoInput_of_isUnclear hUnclear]) hCount hFires

theorem leads_misformatted (hRules : e.rules = defaultRules) (hTaken : e.Taken input s)
    (hHears : s.Hears m [(0, m)]) (hConsumed : s.turn.consumed = [])
    (hClear : m.isUnclear e.config.lowConfidence = false) {a : Answer}
    (hAnswered : m.answered? = some a) (hCount : s.own.noInputCount = 0)
    (hGrounded : s.turn.grounded = false) {qs : List Question} (hQud : s.shared.qud = q :: qs)
    {f : Format} (hFormat : e.domain.formats.get? q.predicate = some f)
    (hRelevant : e.domain.relevant a q = true)
    (hRejects : f.accepts (q.combine a).argument = false) :
    e.Leads input 1 s { s with
      nextMoves := s.nextMoves ++ [⟨.ask q, none⟩, ⟨.inform f.hint, none⟩]
      turn := { s.turn with consumed := [0], grounded := true, selected := true } } := by
  have hFind : (e.context input s).findPending? (misformatted? (e.context input s) q f) =
      some (0, ()) := by
    rw [InformationState.findPending?_of_single hHears.pending, misformatted?, hAnswered]
    simp [hRelevant, hRejects]
  refine .of_fires hRules (.misformatted hGrounded (intelligibleUserTurn?_of_clear hHears hClear)
    hQud hFormat hFind) ⟨s.version + 1, by rw [hConsumed]; rfl⟩ fun r' t' hFires => ?_
  refine rank_integratePartialUnderstanding_le hTaken hHears hClear ?_ (fun _ => hCount) hFires
  simp [isNoInput_of_answered hAnswered]

theorem leads_acknowledged (hRules : e.rules = defaultRules) (hTaken : e.Taken input s)
    (hHears : s.Hears m pending) (hClear : m.isUnclear e.config.lowConfidence = false)
    (hSilence : m.isNoInput = false) (hCount : s.own.noInputCount = 0)
    (hFormat : ∀ q f, s.shared.qud.head? = some q →
      ∀ x ∈ pending, misformatted? (e.context input s) q f x.2 = none)
    (hAcknowledged : s.turn.acknowledged = false) (hGrounded : s.turn.grounded = false)
    (hSure : isSureAnswer (e.context input s) m = true) :
    e.Leads input 1 s { s with
      nextMoves := s.nextMoves ++ [⟨.acknowledge e.config.acknowledgementText, none⟩]
      turn.acknowledged := true } := by
  refine .of_fires hRules (.acknowledged (intelligibleUserTurn?_of_clear hHears hClear)
    hAcknowledged hGrounded (by simp [hSure])) ⟨_, rfl⟩ fun r' t' hFires => ?_
  have hRank := rank_integratePartialUnderstanding_le hTaken hHears hClear
    (fun x hMem => by rw [hHears.eq_of_mem hMem, hSilence]) (fun _ => hCount) hFires
  cases hFires with
  | misformatted _ _ hQud _ hFind =>
    refine absurd hFind (not_fires_of_findPending? fun x hMem => ?_)
    exact hFormat _ _ (by rw [hQud]; rfl) x (hHears.pending ▸ hMem)
  | _ => revert hRank; decide

theorem leads_reprompted (hRules : e.rules = defaultRules) (hTaken : e.Taken input s)
    (hHears : s.Hears m [(0, m)]) (hConsumed : s.turn.consumed = []) (hSilence : m.isNoInput = true)
    (hFallback : e.config.escalation ≤ nextCount s.own.noInputCount →
      fallback? (e.context input s) = none) :
    e.Leads input 1 s { s with
      own.noInputCount := nextCount s.own.noInputCount
      nextMoves := s.nextMoves ++ ⟨.noInput, none⟩ :: askAgain s
      turn := { s.turn with consumed := [0], selected := true } } := by
  have hConsumed' : s.consumedSilence = [0] := by
    rw [InformationState.consumedSilence, hHears.pending, hConsumed]
    simp [hSilence]
  refine .of_fires hRules (.reprompted (userTurn?_of_hears hHears) ?_ ?_ hFallback)
    ⟨s.version + 1, by rw [hConsumed']⟩ hTaken
  · simp [Utterance.isSilence, hSilence]
  · exact ⟨(0, m), by simp [hHears.pending], hSilence⟩

theorem leads_fellBack (hRules : e.rules = defaultRules) (hTaken : e.Taken input s)
    (hHears : s.Hears m [(0, m)]) (hConsumed : s.turn.consumed = []) (hSilence : m.isNoInput = true)
    (hEscalate : e.config.escalation ≤ nextCount s.own.noInputCount) {qs : List Question}
    {p : Proposition} (hQud : s.shared.qud = q :: qs)
    (hDefault : e.domain.default? q.predicate = some p) :
    e.Leads input 1 s { s with
      own.agenda := []
      own.plan := if planAsks s.own.plan q then s.own.plan.tail else s.own.plan
      own.noInputCount := 0
      shared.qud := qs
      shared.com := p :: s.shared.com
      nextMoves := s.nextMoves ++ [⟨.answer (.full p), none⟩]
      turn.consumed := [0] } := by
  have hConsumed' : s.consumedSilence = [0] := by
    rw [InformationState.consumedSilence, hHears.pending, hConsumed]
    simp [hSilence]
  refine .of_fires hRules (.fellBack (userTurn?_of_hears hHears) ?_ ?_ hEscalate hQud hDefault)
    ⟨s.version + 1, by rw [hConsumed']⟩ hTaken
  · simp [Utterance.isSilence, hSilence]
  · exact ⟨(0, m), by simp [hHears.pending], hSilence⟩

section

variable {before after : List Move}

/-- A move of the system's from which nothing is taken in. -/
def IsRemark (m : Move) : Prop :=
  greeting? m = none ∧ m.asked? = none ∧ m.answered? = none

@[simp] theorem isRemark_noInput : IsRemark ⟨.noInput, none⟩ := ⟨rfl, rfl, rfl⟩

@[simp] theorem isRemark_inform (text : String) : IsRemark ⟨.inform text, none⟩ := ⟨rfl, rfl, rfl⟩

@[simp] theorem isRemark_acknowledge (text : String) : IsRemark ⟨.acknowledge text, none⟩ :=
  ⟨rfl, rfl, rfl⟩

theorem IsRemark.mute (h : IsRemark m) (tops : Question → Prop) : e.Mute tops m := by
  refine ⟨h.1, h.2.1, fun a q hAnswered => ?_⟩
  rw [h.2.2] at hAnswered
  cases hAnswered

theorem rank_integrateSysAsk_le_of_sys (hReset : input.resetAgenda = false) {moves : List Move}
    (hLatched : s.latched? = some ⟨.sys, moves⟩) (hFires : Fires e input s r t) :
    rank integrateSysAsk ≤ rank r := by
  have hRank := rank_integrateUsrRequest_le hReset hLatched hFires
  cases hFires with
  | request hTurn _ => exact absurd hTurn (intelligibleUserTurn?_of_sys hLatched)
  | _ => revert hRank; decide

theorem leads_sysAsk (hRules : e.rules = defaultRules) (hReset : input.resetAgenda = false)
    (hLatched : s.latched? = some ⟨.sys, before ++ m :: after⟩) (hConsumed : s.turn.consumed = [])
    (hBefore : ∀ x ∈ before, x.asked? = none) (hAsked : m.asked? = some q) :
    e.Leads input 1 s { s with
      shared.qud := q :: s.shared.qud, turn.consumed := [before.length] } := by
  have hFind : (e.context input s).findPending? Move.asked? = some (before.length, q) :=
    InformationState.findPending?_of_append hLatched hConsumed hBefore hAsked
  refine .of_fires hRules (.sysAsk hLatched rfl hFind) ⟨s.version + 1, by rw [hConsumed]; rfl⟩ ?_
  exact fun r' t' hFires => rank_integrateSysAsk_le_of_sys hReset hLatched hFires

theorem leads_echoedAnswer (hRules : e.rules = defaultRules) (hReset : input.resetAgenda = false)
    {moves : List Move} (hLatched : s.latched? = some ⟨.sys, moves⟩)
    (hAsked : ∀ x ∈ s.pendingMoves, x.2.asked? = none) {qs : List Question}
    (hQud : s.shared.qud = q :: qs) {i : Nat} {p : Proposition}
    (hFind : (e.context input s).findPending? (acceptedFact? (e.context input s) ⟨.sys, moves⟩ q) =
      some (i, p)) :
    e.Leads input 1 s { s with
      shared.com := p :: s.shared.com, turn.consumed := s.turn.consumed.insert i } := by
  refine .of_fires hRules (.answer hLatched rfl hQud hFind) ⟨_, rfl⟩ fun r' t' hFires => ?_
  have hRank := rank_integrateSysAsk_le_of_sys hReset hLatched hFires
  cases hFires with
  | sysAsk _ _ hFind => exact absurd hFind (not_fires_of_findPending? hAsked)
  | usrAsk hTurn _ => exact absurd hTurn (intelligibleUserTurn?_of_sys hLatched)
  | _ => revert hRank; decide

end

end Engine

end Dialogue
