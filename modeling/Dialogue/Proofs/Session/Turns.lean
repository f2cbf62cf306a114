import Dialogue.Proofs.Cycle.Leads
import Dialogue.Session

/-! # Turns of a session

A call of a session is one cycle on its input and one on the reply. If both settle within the
ceiling, the call returns the reply and leaves the state that the second cycle ends in.
-/

namespace Dialogue

open Update

/-- In any session in the state `s` a call on the input fires so many times for it and for the
reply, and leaves the state `u`, if the ceiling allows for it. -/
inductive Engine.Converses (e : Engine) (input : TurnInput) (s u : InformationState) :
    Nat → Nat → Prop where
  | silently {n : Nat} : e.Settles input n s u → u.nextMoves = [] → Converses e input s u n 0
  | replying {n k : Nat} {t : InformationState} : e.Settles input n s t → t.nextMoves ≠ [] →
      e.Settles (.echo t.nextMoves) k t u → Converses e input s u n k

namespace Session

open Engine

variable {s : Session} {input : TurnInput} {n m : Nat} {t u : InformationState}

/-- The session with another state, whatever it has recorded. -/
def HasState (s s' : Session) (t : InformationState) : Prop :=
  s'.engine = s.engine ∧ SameUpToVersion t s'.state

theorem engine_step (s : Session) (input : TurnInput) : (s.step input).2.engine = s.engine := by
  rw [step]
  split <;> rfl

theorem engine_of_step {reply : List Move} {s' : Session} (h : s.step input = (.ok reply, s')) :
    s'.engine = s.engine := by
  have hEngine := s.engine_step input
  rwa [h] at hEngine

theorem engine_of_new {domain : Domain} {database : Database} {config : Config}
    {initial : InformationState} (h : new domain database config initial = .ok s) :
    s.engine.rules = defaultRules ∧ s.engine.domain = domain ∧ s.engine.database = database ∧
      s.engine.config = config ∧ s.state = initial := by
  rw [new, Engine.new] at h
  split at h
  · cases h
    exact ⟨rfl, rfl, rfl, rfl, rfl⟩
  · cases h

theorem engine_converse (s : Session) (input : TurnInput) :
    (s.converse input).2.engine = s.engine := by
  have hFirst := s.engine_step input
  rw [converse]
  split
  · next e t hStep => rwa [hStep] at hFirst
  · next t hStep => rwa [hStep] at hFirst
  · next reply t hReply hStep =>
    rw [hStep] at hFirst
    have hSecond := t.engine_step (.echo reply)
    split
    · next e u hEcho =>
      rw [hEcho] at hSecond
      exact hSecond.trans hFirst
    · next moves u hEcho =>
      rw [hEcho] at hSecond
      exact hSecond.trans hFirst

theorem exists_trace_of_step {reply : List Move} {s' : Session}
    (h : s.step input = (.ok reply, s')) : ∃ rs t, s.engine.Trace input s.state.beginTurn rs t ∧
      s.engine.IsSettled input t ∧ rs.length ≤ s.engine.config.maxFirings.toNat ∧
      s'.state = t.endTurn ∧ t.nextMoves = reply := by
  rw [step] at h
  split at h
  · next u hRun =>
    obtain ⟨rs, t, hTrace, hSettled, hLength, rfl⟩ := Engine.run_outcome_eq_ok_iff.mp hRun
    cases h
    exact ⟨rs, t, hTrace, hSettled, hLength, rfl, rfl⟩
  · cases h

theorem state_of_step_error {fault : NoProgress} {s' : Session}
    (h : s.step input = (.error fault, s')) : s'.state = s.state := by
  rw [step] at h
  split at h
  · cases h
  · cases h
    rfl

theorem exists_steps_of_converse_ok {reply : List Move} {s' : Session}
    (h : s.converse input = (.ok reply, s')) : ∃ s₁, s.step input = (.ok reply, s₁) ∧
      (reply ≠ [] → ∃ reply', s₁.step (.echo reply) = (.ok reply', s')) := by
  rw [converse] at h
  split at h
  · cases h
  · next s₁ hStep =>
    cases h
    exact ⟨_, hStep, fun hReply => absurd rfl hReply⟩
  · next hStep =>
    split at h
    · cases h
    · next reply' _ hEcho =>
      cases h
      exact ⟨_, hStep, fun _ => ⟨reply', hEcho⟩⟩

theorem eq_of_converse_nil {s₁ s' : Session} (hStep : s.step input = (.ok [], s₁))
    (h : s.converse input = (.ok [], s')) : s' = s₁ := by
  rw [converse, hStep] at h
  cases h
  rfl

theorem exists_steps_of_converse_error {fault : NoProgress} {s' : Session}
    (h : s.converse input = (.error fault, s')) : s.step input = (.error fault, s') ∨
      ∃ reply s₁, s.step input = (.ok reply, s₁) ∧ reply ≠ [] ∧
        s₁.step (.echo reply) = (.error fault, s') := by
  rw [converse] at h
  split at h
  · next hStep =>
    cases h
    exact .inl hStep
  · cases h
  · next reply s₁ hReply hStep =>
    split at h
    · next hEcho =>
      cases h
      exact .inr ⟨reply, s₁, hStep, hReply, hEcho⟩
    · cases h

theorem step_of_settles (hRules : s.engine.rules = defaultRules)
    (h : s.engine.Settles input n s.state t) (hCeiling : n ≤ s.engine.config.maxFirings.toNat) :
    ∃ s', s.step input = (.ok t.nextMoves, s') ∧ s.HasState s' t := by
  obtain ⟨v, hRun, hSame⟩ := h.exists_run hRules hCeiling
  have hMoves : v.nextMoves = t.nextMoves := by
    obtain ⟨version, rfl⟩ := hSame
    rfl
  refine ⟨{ s with state := v, recorder := s.recorder.observeAll (s.engine.run s.state input).log },
    ?_, rfl, hSame⟩
  rw [step, hRun, ← hMoves]

theorem state_of_settles (hRules : s.engine.rules = defaultRules)
    (h : s.engine.Settles input n s.state t) {reply : List Move} {s' : Session}
    (hStep : s.step input = (.ok reply, s')) :
    s'.state = { t with version := s.state.version + UInt64.ofNat n } := by
  rw [step] at hStep
  split at hStep
  · next u hRun =>
    cases hStep
    exact h.eq_of_run hRules hRun
  · cases hStep

theorem converse_of_settles_silently (hRules : s.engine.rules = defaultRules)
    (h : s.engine.Settles input n s.state t) (hCeiling : n ≤ s.engine.config.maxFirings.toNat)
    (hReply : t.nextMoves = []) :
    ∃ s', s.converse input = (.ok [], s') ∧ s.HasState s' t := by
  obtain ⟨s', hStep, hState⟩ := step_of_settles hRules h hCeiling
  rw [hReply] at hStep
  exact ⟨s', by rw [converse, hStep], hState⟩

theorem converse_of_settles (hRules : s.engine.rules = defaultRules)
    (h : s.engine.Settles input n s.state t) (hCeiling : n ≤ s.engine.config.maxFirings.toNat)
    (hReply : t.nextMoves ≠ []) (hEcho : s.engine.Settles (.echo t.nextMoves) m t u)
    (hCeiling' : m ≤ s.engine.config.maxFirings.toNat) :
    ∃ s', s.converse input = (.ok t.nextMoves, s') ∧ s.HasState s' u := by
  obtain ⟨s₁, hStep, hEngine, hSame⟩ := step_of_settles hRules h hCeiling
  have hEcho' : s₁.engine.Settles (.echo t.nextMoves) m s₁.state u := by
    rw [hEngine]
    exact hEcho.of_sameUpToVersion hRules hSame
  obtain ⟨s₂, hStep', hEngine', hSame'⟩ :=
    step_of_settles (hEngine ▸ hRules) hEcho' (hEngine ▸ hCeiling')
  refine ⟨s₂, ?_, hEngine'.trans hEngine, hSame'⟩
  rw [converse, hStep]
  cases hMoves : t.nextMoves with
  | nil => exact absurd hMoves hReply
  | cons move rest =>
    rw [hMoves] at hStep'
    simp only [hStep']

def returnsAll (s : Session) : List (List Move) → Bool
  | [] => true
  | moves :: rest =>
    match s.hear moves with
    | (reply, t) => reply.isOk && t.returnsAll rest

theorem returnsAll_append {turns later : List (List Move)}
    (h : s.returnsAll (turns ++ later) = true) : s.returnsAll turns = true := by
  induction turns generalizing s with
  | nil => rfl
  | cons moves turns ih =>
    rw [List.cons_append, returnsAll, Bool.and_eq_true] at h
    rw [returnsAll, Bool.and_eq_true]
    exact ⟨h.1, ih h.2⟩

def replies (s : Session) : List (List Move) → List Reply
  | [] => []
  | moves :: rest => (s.hear moves).1 :: (s.hear moves).2.replies rest

def hearAll (s : Session) : List (List Move) → Session
  | [] => s
  | moves :: rest => (s.hear moves).2.hearAll rest

@[simp] theorem replies_append (s : Session) (turns later : List (List Move)) :
    s.replies (turns ++ later) = s.replies turns ++ (s.hearAll turns).replies later := by
  induction turns generalizing s with
  | nil => rfl
  | cons moves turns ih => simp [replies, hearAll, ih]

@[simp] theorem hearAll_append (s : Session) (turns later : List (List Move)) :
    s.hearAll (turns ++ later) = (s.hearAll turns).hearAll later := by
  induction turns generalizing s with
  | nil => rfl
  | cons moves turns ih => simp [hearAll, ih]

theorem exists_converse_of_converses (hRules : s.engine.rules = defaultRules)
    (h : s.engine.Converses input s.state u n m) (hCeiling : n ≤ s.engine.config.maxFirings.toNat)
    (hCeiling' : m ≤ s.engine.config.maxFirings.toNat) :
    ∃ reply s', s.converse input = (.ok reply, s') ∧ s.HasState s' u := by
  cases h with
  | silently hSettles hReply =>
    obtain ⟨s', hCall, hState⟩ := converse_of_settles_silently hRules hSettles hCeiling hReply
    exact ⟨[], s', hCall, hState⟩
  | replying hSettles hReply hEcho =>
    obtain ⟨s', hCall, hState⟩ :=
      converse_of_settles hRules hSettles hCeiling hReply hEcho hCeiling'
    exact ⟨_, s', hCall, hState⟩

theorem le_of_isOk_step (hRules : s.engine.rules = defaultRules)
    (h : s.engine.Settles input n s.state t) (hOk : (s.step input).1.isOk = true) :
    n ≤ s.engine.config.maxFirings.toNat := by
  rw [step] at hOk
  split at hOk
  · next v hRun => exact h.le_of_run hRules hRun
  · cases hOk

theorem isOk_step_of_isOk_converse (hOk : (s.converse input).1.isOk = true) :
    (s.step input).1.isOk = true := by
  rw [converse] at hOk
  split at hOk
  · cases hOk
  · next hStep => rw [hStep]; rfl
  · next hStep => rw [hStep]; rfl

/-- The call is refused exactly if one of its cycles needs more firings than the ceiling allows. -/
theorem isOk_converse_iff (hRules : s.engine.rules = defaultRules)
    (h : s.engine.Converses input s.state u n m) : (s.converse input).1.isOk = true ↔
      n ≤ s.engine.config.maxFirings.toNat ∧ m ≤ s.engine.config.maxFirings.toNat := by
  constructor
  · intro hOk
    cases h with
    | silently hSettles _ =>
      exact ⟨le_of_isOk_step hRules hSettles (isOk_step_of_isOk_converse hOk), Nat.zero_le _⟩
    | @replying _ t hSettles hReply hEcho =>
      have hFirst := le_of_isOk_step hRules hSettles (isOk_step_of_isOk_converse hOk)
      obtain ⟨s₁, hStep, hEngine, hSame⟩ := step_of_settles hRules hSettles hFirst
      have hEcho' : s₁.engine.Settles (.echo t.nextMoves) m s₁.state u := by
        rw [hEngine]
        exact hEcho.of_sameUpToVersion hRules hSame
      rw [converse, hStep] at hOk
      refine ⟨hFirst, hEngine ▸ le_of_isOk_step (hEngine ▸ hRules) hEcho' ?_⟩
      split at hOk
      · next hReply' => cases hReply'
      · next hReply' => exact absurd (Except.ok.inj (Prod.mk.inj hReply').1) hReply
      · next hReply' =>
        cases hReply'
        split at hOk
        · cases hOk
        · next hEcho => rw [hEcho]; rfl
  · rintro ⟨hFirst, hSecond⟩
    obtain ⟨reply, s', hCall, _⟩ := exists_converse_of_converses hRules h hFirst hSecond
    rw [hCall]
    rfl

end Session

end Dialogue
