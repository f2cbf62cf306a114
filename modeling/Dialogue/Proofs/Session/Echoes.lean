import Dialogue.Console
import Dialogue.Proofs.Cycle.Replies
import Dialogue.Proofs.Session.Ending

/-! # What the system hears of itself

A question in a reply comes under discussion, and nothing else changes. An answer is agreed on if it
answers the question on top; otherwise it stays a belief of the system's own.
-/

namespace Dialogue.Session

open Update Engine

variable {s s' : Session} {moves reply : List Move} {m : Move} {q : Question} {p : Proposition}

/-- The state once the user's turn is dealt with, before the system hears itself. -/
def heard (s : Session) (moves : List Move) : InformationState :=
  (s.step (.user moves)).2.state

/-- The system is about to hear itself say this. -/
structure Speaks (s : Session) (reply : List Move) : Prop where
  rules : s.engine.rules = defaultRules
  idle : s.engine.Idle s.state
  turn : s.state.turn = {}
  replied : Replied s.state.shared.com reply

theorem exists_speaks_of_hear (hRules : s.engine.rules = defaultRules)
    (hHear : s.hear moves = (.ok reply, s')) (hMem : m ∈ reply) :
    ∃ (s₁ : Session) (reply' : List Move), s.heard moves = s₁.state ∧ s₁.Speaks reply ∧
      s₁.step (.echo reply) = (.ok reply', s') := by
  obtain ⟨s₁, hStep, hEcho⟩ := exists_steps_of_converse_ok hHear
  obtain ⟨reply', hEcho⟩ := hEcho (List.ne_nil_of_mem hMem)
  obtain ⟨rs, t, hTrace, hSettled, -, hState, rfl⟩ := exists_trace_of_step hStep
  obtain ⟨u, hCommented, hPursued⟩ := hTrace.exists_commented hRules
  have hIdle := idle_of_isSettled hRules hSettled
  have hEngine := engine_of_step hStep
  have hSpeaks : s₁.Speaks t.nextMoves := by
    constructor
    · rw [hEngine, hRules]
    · rw [hEngine, hState]
      exact hIdle.endTurn
    · rw [hState]
      rfl
    · rw [hState]
      exact hPursued.replied hCommented
  exact ⟨s₁, reply', by rw [heard, hStep], hSpeaks, hEcho⟩

theorem com_suffix_of_step {input : TurnInput} (hRules : s.engine.rules = defaultRules)
    (h : s.step input = (.ok reply, s')) : s.state.shared.com <:+ s'.state.shared.com := by
  obtain ⟨rs, t, hTrace, -, -, hState, -⟩ := exists_trace_of_step h
  have hKept := hTrace.com_suffix hRules
  rw [hState]
  exact hKept

/-- A question that the system asks comes under discussion, and nothing else changes. -/
theorem hear_of_asked (hRules : s.engine.rules = defaultRules)
    (hHear : s.hear moves = (.ok reply, s')) (hMem : m ∈ reply) (hAsked : m.asked? = some q)
    (hUnresolved : (s.heard moves).isResolved q = false) :
    s'.state = { s.heard moves with
      shared := { (s.heard moves).shared with
        lu := some ⟨.sys, reply⟩, qud := q :: (s.heard moves).shared.qud }
      nextMoves := []
      version := (s.heard moves).version + 2 } := by
  obtain ⟨s₁, reply', hFirst, hSpeaks, hEcho⟩ := exists_speaks_of_hear hRules hHear hMem
  rw [hFirst] at hUnresolved ⊢
  obtain ⟨before, after, rfl, hBefore, hAfter⟩ := hSpeaks.replied.exists_ask hMem hAsked
  have hMute {l : List Move} (hNoted : ∀ x ∈ l, Noted s₁.state.shared.com x) :
      ∀ x ∈ l, s₁.engine.Mute (fun q => s₁.state.isResolved q = false) x :=
    fun x hMem => (hNoted x hMem).mute fun _ hOpen => hOpen
  have hSettles := settles_echo_of_asked hSpeaks.rules hSpeaks.idle (hMute hBefore) (hMute hAfter)
    hUnresolved hUnresolved
  rw [state_of_settles hSpeaks.rules hSettles hEcho, ← hSpeaks.turn]
  rfl

theorem asking_the_day_opens_it : ∃ s',
    Console.session.start.2.hear [⟨.ask ⟨Lecture.bookingRoom⟩, none⟩] =
      (.ok [⟨.ask ⟨Lecture.bookingDay⟩, none⟩], s') ∧
    s'.state.shared.qud = [⟨Lecture.bookingDay⟩, ⟨Lecture.bookingRoom⟩] ∧
    s'.state.own = (Console.session.start.2.heard [⟨.ask ⟨Lecture.bookingRoom⟩, none⟩]).own := by
  have hHear : Console.session.start.2.hear [⟨.ask ⟨Lecture.bookingRoom⟩, none⟩] =
      (.ok [⟨.ask ⟨Lecture.bookingDay⟩, none⟩], _) := rfl
  have hState := hear_of_asked (q := ⟨Lecture.bookingDay⟩) rfl hHear List.mem_cons_self rfl rfl
  refine ⟨_, hHear, ?_, ?_⟩
  · rw [hState]
    rfl
  · rw [hState]

theorem mem_com_of_answer {before reply' : List Move} {qs : List Question}
    (hRules : s.engine.rules = defaultRules)
    (hEcho : s.step (.echo (before ++ [⟨.answer (.full p), none⟩])) = (.ok reply', s'))
    (hBefore : ∀ x ∈ before, Noted s.state.shared.com x) (hQud : s.state.shared.qud = q :: qs)
    (hUnresolved : s.state.isResolved q = false) (hResolves : p.resolves q = true) :
    p ∈ s'.state.shared.com := by
  have hMute : ∀ x ∈ before, s.engine.Mute (fun q => s.state.isResolved q = false) x :=
    fun x hMem => (hBefore x hMem).mute fun _ hOpen => hOpen
  obtain ⟨t, ⟨rs, t', hTrace, -, version, rfl⟩, -, rfl⟩ := exists_leads_echoAnswer
    (s := s.state.beginTurn) hRules rfl hMute hQud hUnresolved hResolves
  obtain ⟨rs', u, hRun, hSettled, -, hState, -⟩ := exists_trace_of_step hEcho
  obtain ⟨rest, -, hRest⟩ := hTrace.exists_rest hRun hSettled
  rw [hState]
  exact (hRest.com_suffix hRules).subset List.mem_cons_self

/-- An answer to another question than the one on top is only heard. -/
theorem com_of_answer {before reply' : List Move} (hRules : s.engine.rules = defaultRules)
    (hIdle : s.engine.Idle s.state)
    (hEcho : s.step (.echo (before ++ [⟨.answer (.full p), none⟩])) = (.ok reply', s'))
    (hBefore : ∀ x ∈ before, Noted s.state.shared.com x)
    (hTop : TopIn (fun q => p.resolves q = false) s.state) :
    s'.state.shared.com = s.state.shared.com := by
  have hMute : ∀ x ∈ before ++ [⟨.answer (.full p), none⟩],
      s.engine.Mute (fun q => s.state.shared.qud.head? = some q) x := by
    intro x hMem
    rcases List.mem_append.mp hMem with hEarly | hLast
    · exact (hBefore x hEarly).mute hIdle.top
    · rw [List.mem_singleton.mp hLast]
      constructor
      · rfl
      · rfl
      · intro a q hAnswered hHead
        cases hAnswered
        exact hTop q hHead
  have hSettles := settles_echo_of_mute hRules hIdle (by simp) hMute fun _ hHead => hHead
  rw [state_of_settles hRules hSettles hEcho]

/-- What the system has told is agreed on exactly if it was before the system heard itself, or if
it answers the question that was then on top. -/
theorem told_is_agreed_iff (hRules : s.engine.rules = defaultRules)
    (hHear : s.hear moves = (.ok reply, s')) (hMem : m ∈ reply)
    (hTold : m.answered? = some (.full p)) :
    p ∈ s'.state.shared.com ↔ p ∈ (s.heard moves).shared.com ∨
      ∃ q, (s.heard moves).shared.qud.head? = some q ∧ p.resolves q = true := by
  obtain ⟨s₁, reply', hFirst, hSpeaks, hEcho⟩ := exists_speaks_of_hear hRules hHear hMem
  have hKept := (com_suffix_of_step hSpeaks.rules hEcho).subset
  rw [hFirst]
  by_cases hOld : p ∈ s₁.state.shared.com
  · exact ⟨fun _ => .inl hOld, fun _ => hKept hOld⟩
  obtain ⟨before, rfl, hBefore⟩ := hSpeaks.replied.exists_answer hMem hTold hOld
  constructor
  · intro hAgreed
    by_contra hNone
    have hTop : TopIn (fun q => p.resolves q = false) s₁.state := by
      intro q hHead
      exact Bool.eq_false_iff.mpr fun hResolves => hNone (.inr ⟨q, hHead, hResolves⟩)
    rw [com_of_answer hSpeaks.rules hSpeaks.idle hEcho hBefore hTop] at hAgreed
    exact hOld hAgreed
  · rintro (hNew | ⟨q, hHead, hResolves⟩)
    · exact hKept hNew
    · obtain ⟨qs, hQud⟩ := List.head?_eq_some_iff.mp hHead
      exact mem_com_of_answer hSpeaks.rules hEcho hBefore hQud (hSpeaks.idle.top q hHead) hResolves

theorem food_is_agreed : ∃ s',
    Console.session.start.2.hear [⟨.ask ⟨Lecture.favoriteFood⟩, none⟩] =
      (.ok [⟨.answer (.full ⟨Lecture.favoriteFood, "pizza"⟩), none⟩], s') ∧
    ⟨Lecture.favoriteFood, "pizza"⟩ ∈ s'.state.shared.com := by
  have hHear : Console.session.start.2.hear [⟨.ask ⟨Lecture.favoriteFood⟩, none⟩] =
      (.ok [⟨.answer (.full ⟨Lecture.favoriteFood, "pizza"⟩), none⟩], _) := rfl
  refine ⟨_, hHear, ?_⟩
  refine (told_is_agreed_iff rfl hHear List.mem_cons_self rfl).mpr (.inr ?_)
  exact ⟨⟨Lecture.favoriteFood⟩, rfl, rfl⟩

/-- Asked for the room in the same breath, the system tells the food and does not commit to it. -/
theorem food_is_told_but_not_agreed : ∃ s',
    Console.session.start.1 = .ok [⟨.greet, none⟩] ∧
    Console.session.start.2.hear
        [⟨.ask ⟨Lecture.favoriteFood⟩, none⟩, ⟨.ask ⟨Lecture.bookingRoom⟩, none⟩] =
      (.ok [⟨.answer (.full ⟨Lecture.favoriteFood, "pizza"⟩), none⟩], s') ∧
    ⟨Lecture.favoriteFood, "pizza"⟩ ∉ s'.state.shared.com :=
  ⟨_, rfl, rfl, List.not_mem_nil⟩

end Dialogue.Session
