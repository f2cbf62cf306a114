import Dialogue.Proofs.Update.Taking

/-! # Hearing the user out

A user turn of one move, from the start of the cycle until the cycle is quiet. Besides what the move
is for, the count of silent turns is set back and a sure answer is acknowledged.
-/

namespace Dialogue

open Update

def Move.isAcknowledge (m : Move) : Bool :=
  match m.act with
  | .acknowledge _ => true
  | _ => false

namespace Engine

variable {e : Engine} {input : TurnInput} {s t u : InformationState} {r : Rule} {m : Move}
  {pending : List (Nat × Move)} {q : Question}

theorem isRemark_of_isAcknowledge (h : m.isAcknowledge = true) : IsRemark m := by
  rw [Move.isAcknowledge] at h
  split at h
  · next hAct => simp [IsRemark, greeting?, Move.asked?, Move.answered?, hAct]
  · cases h

/-- The firings that set the count of silent turns back. -/
def engagement (s : InformationState) : Nat :=
  (s.own.noInputCount != 0).toNat

theorem engagement_le (s : InformationState) : engagement s ≤ 1 := Bool.toNat_le _

theorem leads_engagement (hRules : e.rules = defaultRules) (hTaken : e.Taken input s)
    (hHears : s.Hears m pending) (hSilence : m.isNoInput = false)
    (hContent : m.isContentful = true) :
    e.Leads input (engagement s) s { s with own.noInputCount := 0 } := by
  by_cases hCount : s.own.noInputCount = 0
  · have hNone : engagement s = 0 := by rw [engagement, hCount]; rfl
    rw [hNone, ← hCount]
    exact .refl s
  · have hOne : engagement s = 1 := by rw [engagement, bne_iff_ne.mpr hCount]; rfl
    rw [hOne]
    exact leads_engaged hRules hTaken hHears hSilence hContent hCount

theorem exists_leads_acknowledged (hRules : e.rules = defaultRules) (hTaken : e.Taken input s)
    (hHears : s.Hears m pending) (hClear : m.isUnclear e.config.lowConfidence = false)
    (hSilence : m.isNoInput = false) (hCount : s.own.noInputCount = 0)
    (hFormat : ∀ q f, s.shared.qud.head? = some q →
      ∀ x ∈ pending, misformatted? (e.context input s) q f x.2 = none)
    (hAcknowledged : s.turn.acknowledged = false) (hGrounded : s.turn.grounded = false) :
    ∃ acks acknowledged, acks.length ≤ 1 ∧ acks.all Move.isAcknowledge = true ∧
      (isSureAnswer (e.context input s) m = false → acks = []) ∧
      (acknowledged = false → isSureAnswer (e.context input s) m = false) ∧
      e.Leads input acks.length s { s with
        nextMoves := s.nextMoves ++ acks, turn.acknowledged := acknowledged } := by
  cases hSure : isSureAnswer (e.context input s) m with
  | false =>
    refine ⟨[], false, Nat.zero_le _, rfl, fun _ => rfl, fun _ => rfl, ?_⟩
    rw [List.append_nil, ← hAcknowledged]
    exact .refl s
  | true =>
    exact ⟨[⟨.acknowledge e.config.acknowledgementText, none⟩], true, Nat.le_refl _, rfl,
      fun h => (by cases h), fun h => (by cases h),
      leads_acknowledged hRules hTaken hHears hClear hSilence hCount hFormat hAcknowledged
        hGrounded hSure⟩

theorem taken_of_silence (hAct : m.act = .noInput) (hHears : s.Hears m [(0, m)]) :
    e.Taken (.user [m]) s :=
  taken_of_hears rfl hHears (by simp [greeting?, hAct])
    (by simp [requestedSteps?, Move.asked?, acceptedFact?, Move.answered?, hAct])

theorem quiet_of_silence (hAct : m.act = .noInput) (hHears : s.Hears m []) :
    e.Quiet (.user [m]) (fun _ => True) s := by
  refine quiet_of_clear rfl hHears ?_ (by simp) ?_ ?_
  · simp [Move.isUnclear, Move.isNoInput, hAct]
  · simp [Move.isContentful, hAct]
  · simp [isSureAnswer, Move.answered?, hAct]

section

variable (hRules : e.rules = defaultRules) (hFresh : s.turn = {})
include hRules hFresh

theorem leads_latch_user (m : Move) :
    e.Leads (.user [m]) 1 s { s with
      shared.lu := some ⟨.usr, [m]⟩, turn := { latched := true } } := by
  have hLatch : e.Leads (.user [m]) 1 s _ := leads_latch hRules rfl (List.cons_ne_nil m [])
    (by rw [hFresh])
  rwa [hFresh] at hLatch

theorem exists_leads_hearsAnswer (hClear : m.isUnclear e.config.lowConfidence = false)
    {a : Answer} (hAnswered : m.answered? = some a) {qs : List Question}
    (hQud : s.shared.qud = q :: qs) (hRelevant : e.domain.relevant a q = true)
    (hAccepts : e.domain.accepts (q.combine a) = true) :
    ∃ acks t, acks.length ≤ 1 ∧ acks.all Move.isAcknowledge = true ∧
      (isSureAnswer (e.context (.user [m]) s) m = false → acks = []) ∧
      e.Leads (.user [m]) (2 + engagement s + acks.length) s t ∧
      e.Quiet (.user [m]) (fun _ => True) t ∧ ∃ turn : TurnMarks, turn.selected = false ∧
      t = { s with
        own.noInputCount := 0
        shared := { s.shared with
          lu := some ⟨.usr, [m]⟩, com := q.combine a :: s.shared.com }
        nextMoves := s.nextMoves ++ acks
        turn := turn } := by
  have hSilence := isNoInput_of_answered hAnswered
  have hLatch := leads_latch_user hRules hFresh m
  have hAnswer : e.Leads (.user [m]) 1 _ _ := leads_answer (s := { s with
      shared.lu := some ⟨.usr, [m]⟩, turn := { latched := true } }) hRules rfl
    (InformationState.hears_of_latched rfl rfl rfl) rfl hClear hAnswered hQud hRelevant hAccepts
  have hTaken : ∀ count : UInt32, e.Taken (.user [m]) { s with
      own.noInputCount := count
      shared := { s.shared with lu := some ⟨.usr, [m]⟩, com := q.combine a :: s.shared.com }
      turn := { latched := true, consumed := [0] } } := fun _ =>
    taken_of_hears rfl (InformationState.hears_of_consumed rfl rfl rfl) (by simp) (by simp)
  have hEngaged := leads_engagement hRules (hTaken s.own.noInputCount)
    (InformationState.hears_of_consumed rfl rfl rfl) hSilence (isContentful_of_answered hAnswered)
  obtain ⟨acks, acknowledged, hLength, hAcks, hUnsure, hSure, hAcknowledged⟩ :=
    exists_leads_acknowledged hRules (hTaken 0) (InformationState.hears_of_consumed rfl rfl rfl)
      hClear hSilence rfl (by simp) rfl rfl
  refine ⟨acks, _, hLength, hAcks, hUnsure, ((hLatch.trans hRules hAnswer).trans hRules
    hEngaged).trans hRules hAcknowledged, ?_, _, ?_, rfl⟩
  · refine quiet_of_clear rfl (InformationState.hears_of_consumed rfl rfl rfl) hClear (by simp)
      (fun _ => rfl) fun hUnacknowledged _ => hSure hUnacknowledged
  · rfl

theorem leads_hearsSilence (hAct : m.act = .noInput)
    (hFallback : e.config.escalation ≤ nextCount s.own.noInputCount →
      fallback? (e.context (.user [m]) s) = none) :
    ∃ t, e.Leads (.user [m]) 2 s t ∧ e.Quiet (.user [m]) (fun _ => True) t ∧
      t = { s with
        own.noInputCount := nextCount s.own.noInputCount
        shared.lu := some ⟨.usr, [m]⟩
        nextMoves := s.nextMoves ++ ⟨.noInput, none⟩ :: askAgain s
        turn := { latched := true, consumed := [0], selected := true } } := by
  have hLatch := leads_latch_user hRules hFresh m
  have hHears := InformationState.hears_latch s m
  have hReprompted : e.Leads (.user [m]) 1 _ _ := leads_reprompted hRules
    (taken_of_silence hAct hHears) hHears rfl (by rw [Move.isNoInput, hAct]) hFallback
  exact ⟨_, hLatch.trans hRules hReprompted,
    quiet_of_silence hAct (InformationState.hears_of_consumed rfl rfl rfl), rfl⟩

/-- After too much silence the default is assumed, and whatever was on the agenda is dropped. -/
theorem leads_hearsFallback (hAct : m.act = .noInput) {qs : List Question} {p : Proposition}
    (hEscalate : e.config.escalation ≤ nextCount s.own.noInputCount)
    (hQud : s.shared.qud = q :: qs) (hDefault : e.domain.default? q.predicate = some p) :
    ∃ t, e.Leads (.user [m]) 2 s t ∧ e.Quiet (.user [m]) (fun _ => True) t ∧
      t = { s with
        own.agenda := []
        own.plan := if planAsks s.own.plan q then s.own.plan.tail else s.own.plan
        own.noInputCount := 0
        shared := { lu := some ⟨.usr, [m]⟩, qud := qs, com := p :: s.shared.com }
        nextMoves := s.nextMoves ++ [⟨.answer (.full p), none⟩]
        turn := { latched := true, consumed := [0] } } := by
  have hLatch := leads_latch_user hRules hFresh m
  have hHears := InformationState.hears_latch s m
  have hFellBack : e.Leads (.user [m]) 1 _ _ := leads_fellBack hRules
    (taken_of_silence hAct hHears) hHears rfl (by rw [Move.isNoInput, hAct]) hEscalate hQud hDefault
  exact ⟨_, hLatch.trans hRules hFellBack,
    quiet_of_silence hAct (InformationState.hears_of_consumed rfl rfl rfl), rfl⟩

theorem leads_hearsGreet (hClear : m.isUnclear e.config.lowConfidence = false)
    (hGreet : m.act = .greet) :
    ∃ t, e.Leads (.user [m]) 2 s t ∧ e.Quiet (.user [m]) (fun _ => True) t ∧
      t = { s with
        shared.lu := some ⟨.usr, [m]⟩, turn := { latched := true, consumed := [0] } } := by
  have hLatch := leads_latch_user hRules hFresh m
  have hHears := InformationState.hears_latch s m
  have hGreeted : e.Leads (.user [m]) 1 _ _ := leads_greeted hRules rfl hHears.latched rfl hGreet
  refine ⟨_, hLatch.trans hRules hGreeted, ?_, rfl⟩
  refine quiet_of_clear rfl (InformationState.hears_of_consumed rfl rfl rfl) hClear (by simp) ?_ ?_
  · simp [Move.isContentful, hGreet]
  · simp [isSureAnswer, Move.answered?, hGreet]

theorem exists_leads_hearsRequest (hClear : m.isUnclear e.config.lowConfidence = false)
    {steps : List Action} (hSteps : requestedSteps? e.domain m = some steps)
    (hCount : s.own.noInputCount = 0) :
    ∃ t, e.Leads (.user [m]) 2 s t ∧ e.Quiet (.user [m]) (fun _ => True) t ∧
      t = { s with
        own.agenda := steps ++ s.own.agenda
        shared.lu := some ⟨.usr, [m]⟩
        turn := { latched := true, consumed := [0] } } := by
  have hAnswered : m.answered? = none := by
    by_contra hSome
    obtain ⟨a, hAnswered⟩ := Option.ne_none_iff_exists'.mp hSome
    rw [requestedSteps?_of_answered hAnswered] at hSteps
    cases hSteps
  have hLatch := leads_latch_user hRules hFresh m
  have hRequest : e.Leads (.user [m]) 1 _ _ := leads_request (s := { s with
      shared.lu := some ⟨.usr, [m]⟩, turn := { latched := true } }) hRules rfl
    (InformationState.hears_of_latched rfl rfl rfl) rfl hClear hSteps
  refine ⟨_, hLatch.trans hRules hRequest, ?_, rfl⟩
  refine quiet_of_clear rfl (InformationState.hears_of_consumed rfl rfl rfl) hClear (by simp)
    (fun _ => hCount) ?_
  simp [isSureAnswer, hAnswered]

theorem exists_leads_hearsIrrelevant {tops : Question → Prop}
    (hClear : m.isUnclear e.config.lowConfidence = false) {a : Answer}
    (hAnswered : m.answered? = some a) (hTop : TopIn tops s)
    (hIrrelevant : ∀ q, tops q → e.domain.relevant a q = false) :
    ∃ n ≤ 3, ∃ acks t, acks.all Move.isAcknowledge = true ∧ e.Leads (.user [m]) n s t ∧
      e.Quiet (.user [m]) tops t ∧ ∃ turn : TurnMarks, turn.selected = false ∧
      t = { s with
        own.noInputCount := 0
        shared.lu := some ⟨.usr, [m]⟩
        nextMoves := s.nextMoves ++ acks
        turn := turn } := by
  have hInert : ∀ x ∈ [(0, m)], e.Inert tops x.2 := by
    intro x hMem
    rw [List.mem_singleton.mp hMem]
    refine ⟨⟨greeting?_of_answered hAnswered, asked?_of_answered hAnswered, ?_⟩,
      isNoInput_of_answered hAnswered, requestedSteps?_of_answered hAnswered _⟩
    intro b q hAnswered' hTop
    rw [hAnswered] at hAnswered'
    cases hAnswered'
    exact hIrrelevant q hTop
  have hSilence := isNoInput_of_answered hAnswered
  have hLatch := leads_latch_user hRules hFresh m
  have hTaken : ∀ count : UInt32, e.Taken (.user [m]) { s with
      own.noInputCount := count, shared.lu := some ⟨.usr, [m]⟩, turn := { latched := true } } :=
    fun _ => taken_of_inert rfl (InformationState.hears_of_latched rfl rfl rfl) hInert hTop
  have hEngaged := leads_engagement hRules (hTaken s.own.noInputCount)
    (InformationState.hears_of_latched rfl rfl rfl) hSilence (isContentful_of_answered hAnswered)
  have hOnce := engagement_le s
  obtain ⟨acks, acknowledged, hLength, hAcks, -, hSure, hAcknowledged⟩ := exists_leads_acknowledged
    hRules (hTaken 0) (InformationState.hears_of_latched rfl rfl rfl) hClear hSilence rfl
    (fun q f hHead x hMem => (hInert x hMem).misformatted?_eq_none (hTop q hHead) f) rfl rfl
  refine ⟨1 + engagement s + acks.length, by omega, acks, _, hAcks, (hLatch.trans hRules
    hEngaged).trans hRules hAcknowledged, ?_, _, ?_, rfl⟩
  · exact quiet_of_clear rfl (InformationState.hears_of_latched rfl rfl rfl) hClear hInert
      (fun _ => rfl) fun hUnacknowledged _ => hSure hUnacknowledged
  · rfl

/-- A greeting is taken in however unclear it is. -/
theorem exists_leads_latch_greeting (m : Move) :
    ∃ n ≤ 2, ∃ consumed pending, e.Leads (.user [m]) n s { s with
      shared.lu := some ⟨.usr, [m]⟩, turn := { latched := true, consumed := consumed } } ∧
    InformationState.Hears { s with
      shared.lu := some ⟨.usr, [m]⟩, turn := { latched := true, consumed := consumed } } m pending ∧
    ∀ x ∈ pending, greeting? x.2 = none := by
  have hLatch := leads_latch_user hRules hFresh m
  cases hGreeting : greeting? m with
  | none =>
    refine ⟨1, by omega, [], [(0, m)], hLatch, InformationState.hears_of_latched rfl rfl rfl, ?_⟩
    simpa using hGreeting
  | some _ =>
    have hGreet : m.act = .greet := by
      rw [greeting?] at hGreeting
      split at hGreeting
      · next hAct => exact hAct
      · cases hGreeting
    have hHears := InformationState.hears_latch s m
    have hGreeted : e.Leads (.user [m]) 1 _ _ :=
      leads_greeted hRules rfl hHears.latched rfl hGreet
    exact ⟨1 + 1, by omega, [0], [], hLatch.trans hRules hGreeted,
      InformationState.hears_of_consumed rfl rfl rfl, by simp⟩

theorem exists_leads_hearsUnclear (hUnclear : m.isUnclear e.config.lowConfidence = true) :
    ∃ n ≤ 4, ∃ t, e.Leads (.user [m]) n s t ∧ e.Quiet (.user [m]) (fun _ => True) t ∧
      ∃ (count : UInt32) (turn : TurnMarks), turn.selected = true ∧
      t = { s with
        own.noInputCount := count
        shared.lu := some ⟨.usr, [m]⟩
        nextMoves := s.nextMoves ++ askAgain s ++ [⟨.inform e.config.clarificationText, none⟩]
        turn := turn } := by
  obtain ⟨n₁, hn₁, consumed, pending, hLatch, hHears, hGreeting⟩ :=
    exists_leads_latch_greeting (e := e) hRules hFresh m
  have hTaken : e.Taken (.user [m]) _ := taken_of_unclear rfl hHears hUnclear hGreeting
  obtain ⟨n₂, hn₂, count, hCount, hEngaged⟩ : ∃ n ≤ 1, ∃ count : UInt32,
      (m.isContentful = true → count = 0) ∧ e.Leads (.user [m]) n { s with
        shared.lu := some ⟨.usr, [m]⟩, turn := { latched := true, consumed := consumed } } { s with
        own.noInputCount := count, shared.lu := some ⟨.usr, [m]⟩
        turn := { latched := true, consumed := consumed } } := by
    cases hContent : m.isContentful with
    | true =>
      exact ⟨_, engagement_le _, 0, fun _ => rfl,
        leads_engagement hRules hTaken hHears (isNoInput_of_isUnclear hUnclear) hContent⟩
    | false => exact ⟨0, Nat.zero_le _, s.own.noInputCount, fun h => (by cases h), .refl _⟩
  have hHears' : InformationState.Hears { s with
      own.noInputCount := count, shared.lu := some ⟨.usr, [m]⟩
      turn := { latched := true, consumed := consumed } } m pending :=
    ⟨hHears.latched, hHears.pending⟩
  have hRepeated : e.Leads (.user [m]) 1 _ _ := leads_unclear hRules
    (taken_of_unclear rfl hHears' hUnclear hGreeting) hHears' hUnclear hCount rfl
  refine ⟨n₁ + n₂ + 1, by omega, _, (hLatch.trans hRules hEngaged).trans hRules hRepeated, ?_,
    count, _, ?_, rfl⟩
  · exact quiet_of_unclear rfl ⟨hHears.latched, hHears.pending⟩ hUnclear hGreeting hCount rfl
  · rfl

theorem exists_leads_hearsMisformatted (hClear : m.isUnclear e.config.lowConfidence = false)
    {a : Answer} (hAnswered : m.answered? = some a) {qs : List Question}
    (hQud : s.shared.qud = q :: qs) (hRelevant : e.domain.relevant a q = true)
    {f : Format} (hFormat : e.domain.formats.get? q.predicate = some f)
    (hRejects : f.accepts (q.combine a).argument = false) :
    ∃ n ≤ 3, ∃ t, e.Leads (.user [m]) n s t ∧ e.Quiet (.user [m]) (fun _ => True) t ∧
      ∃ turn : TurnMarks, turn.selected = true ∧
      t = { s with
        own.noInputCount := 0
        shared.lu := some ⟨.usr, [m]⟩
        nextMoves := s.nextMoves ++ [⟨.ask q, none⟩, ⟨.inform f.hint, none⟩]
        turn := turn } := by
  have hLatch := leads_latch_user hRules hFresh m
  have hTaken : ∀ count : UInt32, e.Taken (.user [m]) { s with
      own.noInputCount := count, shared.lu := some ⟨.usr, [m]⟩, turn := { latched := true } } := by
    intro count
    refine taken_of_hears rfl (InformationState.hears_of_latched rfl rfl rfl)
      (by simp [greeting?_of_answered hAnswered]) fun _ x hMem => ?_
    rw [List.mem_singleton.mp hMem]
    refine ⟨requestedSteps?_of_answered hAnswered _, asked?_of_answered hAnswered, ?_⟩
    intro q' hTop
    have hHead : q = q' := by simpa [hQud] using hTop
    subst hHead
    have hRejects' : e.domain.accepts (q.combine a) = false :=
      (accepts_combine hFormat a).trans hRejects
    rw [acceptedFact?, hAnswered]
    simp [hRejects']
  have hEngaged := leads_engagement hRules (hTaken s.own.noInputCount)
    (InformationState.hears_of_latched rfl rfl rfl) (isNoInput_of_answered hAnswered)
    (isContentful_of_answered hAnswered)
  have hOnce := engagement_le s
  have hHinted := leads_misformatted hRules (hTaken 0)
    (InformationState.hears_of_latched rfl rfl rfl) rfl hClear hAnswered rfl rfl hQud hFormat
    hRelevant hRejects
  refine ⟨1 + engagement s + 1, by omega, _, (hLatch.trans hRules hEngaged).trans hRules hHinted,
    ?_, _, ?_, rfl⟩
  · exact quiet_of_clear rfl (InformationState.hears_of_consumed rfl rfl rfl) hClear (by simp)
      (fun _ => rfl) fun _ hUngrounded => (by cases hUngrounded)
  · rfl

theorem leads_hearsAsk (hClear : m.isUnclear e.config.lowConfidence = false)
    (hAsked : m.asked? = some q) :
    ∃ t, e.Leads (.user [m]) (2 + engagement s) s t ∧ e.Quiet (.user [m]) (fun _ => True) t ∧
      t = { s with
        own.agenda := .respond q :: s.own.agenda
        own.noInputCount := 0
        shared.lu := some ⟨.usr, [m]⟩
        shared.qud := q :: s.shared.qud
        turn := { latched := true, consumed := [0] } } := by
  have hAct : m.act = .ask q := by
    rw [Move.asked?] at hAsked
    split at hAsked
    · next hAct => rw [hAct, Option.some.inj hAsked]
    · cases hAsked
  have hLatch := leads_latch_user hRules hFresh m
  have hTook : e.Leads (.user [m]) 1 _ _ := leads_usrAsk (s := { s with
      shared.lu := some ⟨.usr, [m]⟩, turn := { latched := true } }) hRules rfl
    (InformationState.hears_of_latched rfl rfl rfl) rfl hClear hAsked
  have hTaken : e.Taken (.user [m]) { s with
      own.agenda := .respond q :: s.own.agenda
      shared := { s.shared with lu := some ⟨.usr, [m]⟩, qud := q :: s.shared.qud }
      turn := { latched := true, consumed := [0] } } :=
    taken_of_hears rfl (InformationState.hears_of_consumed rfl rfl rfl) (by simp) (by simp)
  have hEngaged := leads_engagement hRules hTaken
    (InformationState.hears_of_consumed rfl rfl rfl) (by rw [Move.isNoInput, hAct])
    (by rw [Move.isContentful, hAct])
  refine ⟨_, (hLatch.trans hRules hTook).trans hRules hEngaged, ?_, rfl⟩
  refine quiet_of_clear rfl (InformationState.hears_of_consumed rfl rfl rfl) hClear (by simp)
    (fun _ => rfl) fun _ _ => ?_
  simp [isSureAnswer, Move.answered?, hAct]

end

end Engine

end Dialogue
