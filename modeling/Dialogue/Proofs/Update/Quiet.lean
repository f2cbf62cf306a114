import Dialogue.Proofs.Update.Ranking

/-! # Quiet states

Once the moves of a cycle are taken in and commented on, only pursuit and selection go on. They
leave alone what the other rules read, so the cycle stays quiet.
-/

namespace Dialogue

open Update

/-- What the rules before `downdate_qud` read, apart from the question on top. -/
structure Hearing where
  latched : Bool
  lu : Option Utterance
  consumed : List Nat
  grounded : Bool
  acknowledged : Bool
  noInputCount : UInt32

namespace InformationState

variable {s t : InformationState}

def hearing (s : InformationState) : Hearing where
  latched := s.turn.latched
  lu := s.shared.lu
  consumed := s.turn.consumed
  grounded := s.turn.grounded
  acknowledged := s.turn.acknowledged
  noInputCount := s.own.noInputCount

theorem latched?_of_hearing (h : t.hearing = s.hearing) : t.latched? = s.latched? := by
  have hLatched : t.turn.latched = s.turn.latched := congrArg Hearing.latched h
  have hLu : t.shared.lu = s.shared.lu := congrArg Hearing.lu h
  rw [latched?, latched?, hLatched, hLu]

theorem pendingMoves_of_hearing (h : t.hearing = s.hearing) : t.pendingMoves = s.pendingMoves :=
  pendingMoves_congr (congrArg Hearing.latched h) (congrArg Hearing.lu h)
    (congrArg Hearing.consumed h)

/-- The user made this move and no other, and these of its positions are not dealt with. -/
structure Hears (s : InformationState) (m : Move) (pending : List (Nat × Move)) : Prop where
  latched : s.latched? = some ⟨.usr, [m]⟩
  pending : s.pendingMoves = pending

theorem Hears.of_hearing {m : Move} {pending : List (Nat × Move)} (hHears : s.Hears m pending)
    (h : t.hearing = s.hearing) : t.Hears m pending where
  latched := (latched?_of_hearing h).trans hHears.latched
  pending := (pendingMoves_of_hearing h).trans hHears.pending

theorem Hears.eq_of_mem {m : Move} {pending : List (Nat × Move)} (hHears : s.Hears m pending)
    {x : Nat × Move} (hMem : x ∈ pending) : x.2 = m := by
  rw [← hHears.pending] at hMem
  exact List.mem_singleton.mp (mem_moves_of_pending hHears.latched hMem)

end InformationState

namespace Engine

variable {e : Engine} {input : TurnInput} {s t u : InformationState} {r : Rule} {m : Move}
  {pending : List (Nat × Move)} {tops : Question → Prop}

/-- Nothing is left to take in. -/
def Taken (e : Engine) (input : TurnInput) (s : InformationState) : Prop :=
  ∀ r t, Fires e input s r t → rank integrateNoInput ≤ rank r

/-- The question on top, if there is one, is one of `tops`. -/
def TopIn (tops : Question → Prop) (s : InformationState) : Prop :=
  ∀ q, s.shared.qud.head? = some q → tops q

theorem topIn_of_nil (hQud : s.shared.qud = []) : TopIn tops s := by
  intro q hHead
  rw [hQud] at hHead
  cases hHead

theorem topIn_of_cons {q : Question} {qs : List Question} (hQud : s.shared.qud = q :: qs)
    (hTop : tops q) : TopIn tops s := by
  intro q' hHead
  rw [hQud] at hHead
  cases hHead
  exact hTop

/-- Nothing is left to take in or to comment on, whichever of `tops` is on top. -/
def Quiet (e : Engine) (input : TurnInput) (tops : Question → Prop) (s : InformationState) : Prop :=
  ∀ t : InformationState, t.hearing = s.hearing → TopIn tops t →
    ∀ r u, Fires e input t r u → rank downdateQud ≤ rank r

theorem Quiet.of_hearing (h : e.Quiet input tops s) (hSame : t.hearing = s.hearing) :
    e.Quiet input tops t :=
  fun u hHearing => h u (hHearing.trans hSame)

theorem rank_integrateUsrRequest_le (hReset : input.resetAgenda = false) {u : Utterance}
    (hLatched : s.latched? = some u) (hFires : Fires e input s r t) :
    rank integrateUsrRequest ≤ rank r := by
  cases hFires with
  | clearAgenda hRequested => rw [hReset] at hRequested; cases hRequested
  | latch _ hUnlatched =>
    rw [(InformationState.latched?_eq_some_iff.mp hLatched).1] at hUnlatched
    cases hUnlatched
  | _ => decide

theorem not_fires_of_findPending? {β : Type} {f : Move → Option β} {i : Nat} {b : β}
    (hNone : ∀ x ∈ s.pendingMoves, f x.2 = none) :
    (e.context input s).findPending? f ≠ some (i, b) := by
  intro hFind
  rw [Context.findPending?_eq_none_iff.mpr hNone] at hFind
  cases hFind

theorem userTurn?_of_hears (h : s.Hears m pending) :
    (e.context input s).userTurn? = some ⟨.usr, [m]⟩ := by
  simp [Context.userTurn?, h.latched]

theorem isUnclear_of_intelligible (h : s.Hears m pending) {u : Utterance}
    (hTurn : (e.context input s).intelligibleUserTurn? = some u) :
    m.isUnclear e.config.lowConfidence = false ∧ u = ⟨.usr, [m]⟩ := by
  rw [Context.intelligibleUserTurn?, userTurn?_of_hears h, Option.filter_eq_some_iff] at hTurn
  obtain ⟨hEq, hClear⟩ := hTurn
  cases hEq
  exact ⟨by simpa [Utterance.isIntelligible] using hClear, rfl⟩

theorem taken_of_hears (hReset : input.resetAgenda = false) (hHears : s.Hears m pending)
    (hGreeting : ∀ x ∈ pending, greeting? x.2 = none)
    (hClear : m.isUnclear e.config.lowConfidence = false → ∀ x ∈ pending,
      requestedSteps? e.domain x.2 = none ∧ x.2.asked? = none ∧
        ∀ q, s.shared.qud.head? = some q →
          acceptedFact? (e.context input s) ⟨.usr, [m]⟩ q x.2 = none) :
    e.Taken input s := by
  intro r t hFires
  have hRank := rank_integrateUsrRequest_le hReset hHears.latched hFires
  cases hFires with
  | request hTurn hFind =>
    refine absurd hFind (not_fires_of_findPending? fun x hMem => ?_)
    exact (hClear (isUnclear_of_intelligible hHears hTurn).1 x (hHears.pending ▸ hMem)).1
  | sysAsk hLatched hSpeaker _ =>
    rw [hHears.latched] at hLatched
    cases hLatched
    cases hSpeaker
  | usrAsk hTurn hFind =>
    refine absurd hFind (not_fires_of_findPending? fun x hMem => ?_)
    exact (hClear (isUnclear_of_intelligible hHears hTurn).1 x (hHears.pending ▸ hMem)).2.1
  | answer hLatched hMay hQud hFind =>
    rw [hHears.latched] at hLatched
    cases hLatched
    refine absurd hFind (not_fires_of_findPending? fun x hMem => ?_)
    have hIntelligible : m.isUnclear e.config.lowConfidence = false := by
      simpa [mayTakeAnswers, Utterance.isIntelligible] using hMay
    exact (hClear hIntelligible x (hHears.pending ▸ hMem)).2.2 _ (by rw [hQud]; rfl)
  | greeted hFind =>
    exact absurd hFind (not_fires_of_findPending? fun x hMem => hGreeting x (hHears.pending ▸ hMem))
  | _ => revert hRank; decide

theorem rank_integrateLowConfidence_le (hTaken : e.Taken input s) (hHears : s.Hears m pending)
    (hSilence : ∀ x ∈ pending, x.2.isNoInput = false)
    (hCount : m.isContentful = true → s.own.noInputCount = 0) (hFires : Fires e input s r t) :
    rank integrateLowConfidence ≤ rank r := by
  have hRank := hTaken r t hFires
  have hSpoke : ¬ ∃ x ∈ s.pendingMoves, x.2.isNoInput = true := by
    rintro ⟨x, hMem, hSilent⟩
    rw [hSilence x (hHears.pending ▸ hMem)] at hSilent
    cases hSilent
  cases hFires with
  | engaged hTurn _ hContent hSilent =>
    rw [userTurn?_of_hears hHears] at hTurn
    cases hTurn
    exact absurd (hCount (by simpa [Utterance.hasContentfulMove] using hContent)) hSilent
  | reprompted _ _ hPending _ => exact absurd hPending hSpoke
  | fellBack _ _ hPending _ _ _ => exact absurd hPending hSpoke
  | _ => revert hRank; decide

theorem rank_integratePartialUnderstanding_le (hTaken : e.Taken input s)
    (hHears : s.Hears m pending) (hClear : m.isUnclear e.config.lowConfidence = false)
    (hSilence : ∀ x ∈ pending, x.2.isNoInput = false)
    (hCount : m.isContentful = true → s.own.noInputCount = 0) (hFires : Fires e input s r t) :
    rank integratePartialUnderstanding ≤ rank r := by
  have hRank := rank_integrateLowConfidence_le hTaken hHears hSilence hCount hFires
  cases hFires with
  | unclear hTurn _ hUnclear =>
    rw [userTurn?_of_hears hHears] at hTurn
    cases hTurn
    simp [Utterance.isIntelligible, hClear] at hUnclear
  | _ => revert hRank; decide

/-- Nothing is taken in from a move of the system's, whichever of `tops` is on top. -/
structure Mute (e : Engine) (tops : Question → Prop) (m : Move) : Prop where
  greeting : greeting? m = none
  question : m.asked? = none
  answer : ∀ a q, m.answered? = some a → tops q → e.domain.relevant a q = false

theorem Mute.acceptedFact?_eq_none (h : e.Mute tops m) {q : Question} (hTop : tops q)
    (u : Utterance) : acceptedFact? (e.context input s) u q m = none := by
  rw [acceptedFact?]
  cases hAnswered : m.answered? with
  | none => rfl
  | some a => simp [h.answer a q hAnswered hTop]

/-- Nothing is taken in from a move of the user's either. -/
structure Inert (e : Engine) (tops : Question → Prop) (m : Move) : Prop extends e.Mute tops m where
  silence : m.isNoInput = false
  request : requestedSteps? e.domain m = none

theorem Inert.misformatted?_eq_none (h : e.Inert tops m) {q : Question} (hTop : tops q)
    (f : Format) : misformatted? (e.context input s) q f m = none := by
  rw [misformatted?]
  cases hAnswered : m.answered? with
  | none => rfl
  | some a => simp [h.answer a q hAnswered hTop]

theorem taken_of_inert (hReset : input.resetAgenda = false) (hHears : s.Hears m pending)
    (hInert : ∀ x ∈ pending, e.Inert tops x.2) (hTops : TopIn tops s) :
    e.Taken input s := by
  refine taken_of_hears hReset hHears (fun x hMem => (hInert x hMem).greeting) fun _ x hMem => ?_
  exact ⟨(hInert x hMem).request, (hInert x hMem).question,
    fun q hTop => (hInert x hMem).acceptedFact?_eq_none (hTops q hTop) _⟩

theorem quiet_of_clear (hReset : input.resetAgenda = false) (hHears : s.Hears m pending)
    (hClear : m.isUnclear e.config.lowConfidence = false) (hInert : ∀ x ∈ pending, e.Inert tops x.2)
    (hCount : m.isContentful = true → s.own.noInputCount = 0)
    (hSure : s.turn.acknowledged = false → s.turn.grounded = false →
      isSureAnswer (e.context input s) m = false) : e.Quiet input tops s := by
  intro t hSame hTops r u hFires
  have hHears' := hHears.of_hearing hSame
  have hCount' : t.own.noInputCount = s.own.noInputCount := congrArg Hearing.noInputCount hSame
  have hRank := rank_integratePartialUnderstanding_le (taken_of_inert hReset hHears' hInert hTops)
    hHears' hClear (fun x hMem => (hInert x hMem).silence) (fun h => hCount'.trans (hCount h))
    hFires
  cases hFires with
  | misformatted _ _ hQud _ hFind =>
    refine absurd hFind (not_fires_of_findPending? fun x hMem => ?_)
    exact (hInert x (hHears'.pending ▸ hMem)).misformatted?_eq_none
      (hTops _ (by rw [hQud]; rfl)) _
  | acknowledged hTurn hFresh hUngrounded hSure' =>
    obtain ⟨_, rfl⟩ := isUnclear_of_intelligible hHears' hTurn
    have hAcknowledged : t.turn.acknowledged = s.turn.acknowledged :=
      congrArg Hearing.acknowledged hSame
    have hGrounded : t.turn.grounded = s.turn.grounded := congrArg Hearing.grounded hSame
    have hUnsure : isSureAnswer (e.context input t) m = false :=
      hSure (hAcknowledged ▸ hFresh) (hGrounded ▸ hUngrounded)
    rw [List.any_cons, List.any_nil, Bool.or_false, hUnsure] at hSure'
    cases hSure'
  | _ => revert hRank; decide

theorem taken_of_unclear (hReset : input.resetAgenda = false) (hHears : s.Hears m pending)
    (hUnclear : m.isUnclear e.config.lowConfidence = true)
    (hGreeting : ∀ x ∈ pending, greeting? x.2 = none) : e.Taken input s := by
  refine taken_of_hears hReset hHears hGreeting fun hClear => ?_
  rw [hUnclear] at hClear
  cases hClear

theorem isNoInput_of_isUnclear {threshold : Float32} (h : m.isUnclear threshold = true) :
    m.isNoInput = false := by
  rw [Move.isUnclear, Bool.and_eq_true, Bool.not_eq_true'] at h
  exact h.1

theorem quiet_of_unclear (hReset : input.resetAgenda = false) (hHears : s.Hears m pending)
    (hUnclear : m.isUnclear e.config.lowConfidence = true)
    (hGreeting : ∀ x ∈ pending, greeting? x.2 = none)
    (hCount : m.isContentful = true → s.own.noInputCount = 0)
    (hGrounded : s.turn.grounded = true) : e.Quiet input (fun _ => True) s := by
  intro t hSame _ r u hFires
  have hHears' := hHears.of_hearing hSame
  have hCount' : t.own.noInputCount = s.own.noInputCount := congrArg Hearing.noInputCount hSame
  have hGrounded' : t.turn.grounded = true := (congrArg Hearing.grounded hSame).trans hGrounded
  have hRank := rank_integrateLowConfidence_le (taken_of_unclear hReset hHears' hUnclear hGreeting)
    hHears' (fun x hMem => by rw [hHears'.eq_of_mem hMem, isNoInput_of_isUnclear hUnclear])
    (fun h => hCount'.trans (hCount h)) hFires
  cases hFires with
  | unclear _ hUngrounded _ => rw [hGrounded'] at hUngrounded; cases hUngrounded
  | misformatted hUngrounded _ _ _ _ => rw [hGrounded'] at hUngrounded; cases hUngrounded
  | acknowledged _ _ hUngrounded _ => rw [hGrounded'] at hUngrounded; cases hUngrounded
  | _ => revert hRank; decide

theorem userTurn?_of_sys {moves : List Move} (hLatched : s.latched? = some ⟨.sys, moves⟩)
    {u : Utterance} : (e.context input s).userTurn? ≠ some u := by
  intro hTurn
  rw [Context.userTurn?, context_state, hLatched] at hTurn
  obtain ⟨hEq, hSpeaker⟩ := Option.filter_eq_some_iff.mp hTurn
  cases hEq
  cases hSpeaker

theorem intelligibleUserTurn?_of_sys {moves : List Move}
    (hLatched : s.latched? = some ⟨.sys, moves⟩) {u : Utterance} :
    (e.context input s).intelligibleUserTurn? ≠ some u :=
  fun hTurn => userTurn?_of_sys hLatched (Option.filter_eq_some_iff.mp hTurn).1

/-- The system's own moves are taken in, but for those that it takes nothing in from. -/
theorem quiet_of_echo (hReset : input.resetAgenda = false) {moves : List Move}
    (hLatched : s.latched? = some ⟨.sys, moves⟩)
    (hPending : ∀ x ∈ s.pendingMoves, e.Mute tops x.2) : e.Quiet input tops s := by
  intro t hSame hTops
  have hLatched' := (InformationState.latched?_of_hearing hSame).trans hLatched
  have hPending' := InformationState.pendingMoves_of_hearing hSame
  intro r u hFires
  have hRank := rank_integrateUsrRequest_le hReset hLatched' hFires
  cases hFires with
  | request hTurn _ => exact absurd hTurn (intelligibleUserTurn?_of_sys hLatched')
  | sysAsk _ _ hFind =>
    refine absurd hFind (not_fires_of_findPending? fun x hMem => ?_)
    exact (hPending x (hPending' ▸ hMem)).question
  | usrAsk hTurn _ => exact absurd hTurn (intelligibleUserTurn?_of_sys hLatched')
  | @answer _ q _ _ _ _ _ hQud hFind =>
    refine absurd hFind (not_fires_of_findPending? fun x hMem => ?_)
    exact (hPending x (hPending' ▸ hMem)).acceptedFact?_eq_none (hTops q (by rw [hQud]; rfl)) _
  | greeted hFind =>
    refine absurd hFind (not_fires_of_findPending? fun x hMem => ?_)
    exact (hPending x (hPending' ▸ hMem)).greeting
  | engaged hTurn | reprompted hTurn | fellBack hTurn | unclear hTurn =>
    exact absurd hTurn (userTurn?_of_sys hLatched')
  | misformatted _ hTurn | acknowledged hTurn =>
    exact absurd hTurn (intelligibleUserTurn?_of_sys hLatched')
  | _ => revert hRank; decide

theorem quiet_of_no_moves (hReset : input.resetAgenda = false) (hMoves : input.moves = [])
    (hLatched : s.turn.latched = false) : e.Quiet input tops s := by
  intro t hSame _
  have hMark : t.turn.latched = false := (congrArg Hearing.latched hSame).trans hLatched
  have hNone : t.latched? = none := by simp [InformationState.latched?, hMark]
  have hPending : t.pendingMoves = [] := InformationState.pendingMoves_of_not_latched hMark
  have hTurn {u : Utterance} : (e.context input t).userTurn? ≠ some u := by
    simp [Context.userTurn?, hNone]
  have hClear {u : Utterance} : (e.context input t).intelligibleUserTurn? ≠ some u := by
    simp [Context.intelligibleUserTurn?, Context.userTurn?, hNone]
  intro r u hFires
  cases hFires with
  | clearAgenda hRequested _ => rw [hReset] at hRequested; cases hRequested
  | latch hSpoke _ => exact absurd hMoves hSpoke
  | request hSpoke _ => exact absurd hSpoke hClear
  | sysAsk hSpoke _ _ => rw [hNone] at hSpoke; cases hSpoke
  | usrAsk hSpoke _ => exact absurd hSpoke hClear
  | answer hSpoke _ _ _ => rw [hNone] at hSpoke; cases hSpoke
  | greeted hFind =>
    refine absurd hFind (not_fires_of_findPending? fun x hMem => ?_)
    simp [hPending] at hMem
  | engaged hSpoke _ _ _ => exact absurd hSpoke hTurn
  | reprompted hSpoke _ _ _ => exact absurd hSpoke hTurn
  | fellBack hSpoke _ _ _ _ _ => exact absurd hSpoke hTurn
  | unclear hSpoke _ _ => exact absurd hSpoke hTurn
  | misformatted _ hSpoke _ _ _ => exact absurd hSpoke hClear
  | acknowledged hSpoke _ _ _ => exact absurd hSpoke hClear
  | _ => decide

end Engine

end Dialogue
