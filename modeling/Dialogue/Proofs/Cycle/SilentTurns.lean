import Dialogue.Console
import Dialogue.Proofs.Cycle.Comments

/-! # Silent turns

Nothing is taken in from silence. It is counted once, before anything else is done about it: either
the question on top is asked again or, when silence has lasted, the default for it is assumed.
-/

namespace Dialogue.Engine

open Update InformationState

variable {e : Engine} {input : TurnInput} {s t u : InformationState} {r : Rule} {rs : List Rule}
  {m : Move} {count : UInt32} {com : List Proposition}

/-- Silence of the user's, which nothing is taken in from. -/
def IsSilent (input : TurnInput) : Prop :=
  input.speaker = .usr ∧ input.utterance.isSilence = true

theorem isSilent_of_noInput (hUser : input.speaker = .usr) (hMoves : input.moves ≠ [])
    (hAll : ∀ m ∈ input.moves, m.isNoInput = true) : IsSilent input := by
  refine ⟨hUser, ?_⟩
  rw [Utterance.isSilence, Bool.and_eq_true, List.all_eq_true]
  exact ⟨by simpa [TurnInput.utterance] using hMoves, hAll⟩

theorem isRemark_of_isNoInput (h : m.isNoInput = true) : IsRemark m := by
  rw [Move.isNoInput] at h
  rw [IsRemark, greeting?, Move.asked?, Move.answered?]
  split at h <;> simp_all

theorem requestedSteps?_of_isNoInput (h : m.isNoInput = true) (d : Domain) :
    requestedSteps? d m = none := by
  rw [Move.isNoInput] at h
  rw [requestedSteps?]
  split at h <;> simp_all

section

variable (hAttends : Attends input s) (hSilent : IsSilent input)
include hAttends hSilent

theorem isNoInput_of_pending {x : Nat × Move} (hMem : x ∈ s.pendingMoves) :
    x.2.isNoInput = true := by
  have hAll := (Bool.and_eq_true_iff.mp hSilent.2).2
  exact List.all_eq_true.mp hAll x.2 (hAttends.mem_moves hMem)

theorem not_finds_of_silence {β : Type} {f : Move → Option β} {i : Nat} {b : β}
    (hNone : ∀ m : Move, m.isNoInput = true → f m = none) :
    (e.context input s).findPending? f ≠ some (i, b) := by
  apply not_fires_of_findPending?
  intro x hMem
  exact hNone x.2 (isNoInput_of_pending hAttends hSilent hMem)

theorem isSilence_of_userTurn? {u : Utterance} (hTurn : (e.context input s).userTurn? = some u) :
    u.isSilence = true := by
  obtain ⟨rfl, -⟩ := eq_utterance_of_userTurn? hAttends hTurn
  exact hSilent.2

theorem rank_of_silence (hFires : Fires e input s r t) :
    rank r ≤ rank getLatestMove ∨ rank integrateNoInput ≤ rank r := by
  cases hFires with
  | request _ hFind =>
    refine absurd hFind (not_finds_of_silence hAttends hSilent fun m hNoInput => ?_)
    exact requestedSteps?_of_isNoInput hNoInput e.domain
  | sysAsk _ _ hFind | usrAsk _ hFind =>
    refine absurd hFind (not_finds_of_silence hAttends hSilent fun m hNoInput => ?_)
    exact (isRemark_of_isNoInput hNoInput).2.1
  | answer _ _ _ hFind =>
    refine absurd hFind (not_finds_of_silence hAttends hSilent fun m hNoInput => ?_)
    simp [acceptedFact?, (isRemark_of_isNoInput hNoInput).2.2]
  | greeted hFind =>
    refine absurd hFind (not_finds_of_silence hAttends hSilent fun m hNoInput => ?_)
    exact (isRemark_of_isNoInput hNoInput).1
  | _ => decide

theorem exists_fires_of_uncounted (hFresh : s.turn.consumed = []) :
    ∃ r t, Fires e input s r t ∧ rank r ≤ rank integrateNoInput := by
  obtain ⟨hUser, hSilence⟩ := hSilent
  have hMoves : input.moves ≠ [] := by
    intro hNone
    rw [Utterance.isSilence, TurnInput.utterance, hNone] at hSilence
    cases hSilence
  cases hMark : s.turn.latched with
  | false => exact ⟨_, _, .latch hMoves hMark, by decide⟩
  | true =>
    have hTurn : (e.context input s).userTurn? = some input.utterance :=
      hAttends.userTurn? hUser hMark
    obtain ⟨m, rest, hCons⟩ := List.exists_cons_of_ne_nil hMoves
    have hPending : (0, m) ∈ s.pendingMoves := by
      rw [mem_pendingMoves_iff (hAttends.latched? hMark), TurnInput.utterance,
        hCons, hFresh]
      exact ⟨rfl, List.not_mem_nil⟩
    have hNoInput := isNoInput_of_pending hAttends ⟨hUser, hSilence⟩ hPending
    obtain ⟨t, hFires⟩ := exists_fires_of_silence hTurn hSilence ⟨(0, m), hPending, hNoInput⟩
    exact ⟨_, t, hFires, Nat.le_refl _⟩

end

/-- Once silence is counted, the cycle closes questions, pursues the plan and selects. -/
theorem Counted.rank_of_fires (h : Counted input s) (hAttends : Attends input s)
    (hUser : input.speaker = .usr) (hFires : Fires e input s r t) :
    rank r ≤ rank clearAgenda ∨ rank downdateQud ≤ rank r := by
  have hSilent : IsSilent input := ⟨hUser, h.silence⟩
  have hTaken := rank_of_silence hAttends hSilent hFires
  have hClear := isIntelligible_of_isSilence e.config.lowConfidence h.silence
  cases hFires with
  | latch _ hUnlatched =>
    rw [h.latched] at hUnlatched
    cases hUnlatched
  | request | sysAsk | usrAsk | answer | greeted => exact absurd hTaken (by decide)
  | engaged hTurn hSpoken =>
    rw [isSilence_of_userTurn? hAttends hSilent hTurn] at hSpoken
    cases hSpoken
  | reprompted _ _ hPending | fellBack _ _ hPending =>
    obtain ⟨m, hMem, hNoInput⟩ := hPending
    rw [h.pending m hMem] at hNoInput
    cases hNoInput
  | unclear hTurn _ hUnclear =>
    obtain ⟨rfl, -⟩ := eq_utterance_of_userTurn? hAttends hTurn
    rw [hClear] at hUnclear
    cases hUnclear
  | misformatted _ hTurn _ _ hFind =>
    exact absurd h.silence (understood_of_misformatted hAttends hTurn hFind).not_isSilence
  | acknowledged hTurn _ _ hSure =>
    exact absurd h.silence (understood_of_sure hAttends hTurn hSure).not_isSilence
  | _ => decide

/-- What one more silent turn makes of the count and the commitments of `s`. -/
inductive Counts (e : Engine) (s : InformationState) : UInt32 → List Proposition → Prop where
  | reprompted : (e.config.escalation ≤ nextCount s.own.noInputCount →
      ∀ q, s.shared.qud.head? = some q → e.domain.default? q.predicate = none) →
      Counts e s (nextCount s.own.noInputCount) s.shared.com
  | fellBack {q : Question} {p : Proposition} :
      e.config.escalation ≤ nextCount s.own.noInputCount → s.shared.qud.head? = some q →
      e.domain.default? q.predicate = some p → Counts e s 0 (p :: s.shared.com)

theorem Counts.com_eq (h : Counts e s count com) : com = s.shared.com ∨ ∃ q p,
    s.shared.qud.head? = some q ∧ e.domain.default? q.predicate = some p ∧
      com = p :: s.shared.com := by
  cases h with
  | reprompted => exact .inl rfl
  | fellBack _ hTop hDefault => exact .inr ⟨_, _, hTop, hDefault, rfl⟩

/-- The silence of a cycle from `s` is still to be counted in `t`. -/
structure Uncounted (s t : InformationState) : Prop where
  count : t.own.noInputCount = s.own.noInputCount
  com : t.shared.com = s.shared.com
  qud : t.shared.qud = s.shared.qud
  plan : t.own.plan = s.own.plan
  nextMoves : t.nextMoves = []
  consumed : t.turn.consumed = []

theorem uncounted_beginTurn (s : InformationState) : Uncounted s s.beginTurn :=
  ⟨rfl, rfl, rfl, rfl, rfl, rfl⟩

theorem Uncounted.fires (h : Uncounted s t) (hAttends : Attends input t)
    (hSilent : IsSilent input) (hFires : Fires e input t r u)
    (hFirst : ∀ r' t', Fires e input t r' t' → rank r ≤ rank r') :
    Uncounted s u ∨ rank r = rank integrateNoInput := by
  have hTaken := rank_of_silence hAttends hSilent hFires
  obtain ⟨r', t', hFires', hBefore⟩ :=
    exists_fires_of_uncounted (e := e) hAttends hSilent h.consumed
  have hRank := Nat.le_trans (hFirst r' t' hFires') hBefore
  cases hFires with
  | clearAgenda => exact .inl ⟨h.count, h.com, h.qud, h.plan, h.nextMoves, h.consumed⟩
  | latch => exact .inl ⟨h.count, h.com, h.qud, h.plan, h.nextMoves, rfl⟩
  | engaged | reprompted | fellBack => exact .inr rfl
  | _ => exact absurd hRank (by revert hTaken; decide)

/-- What the silence of a cycle from `s` has come to in `t`. -/
inductive Endured (e : Engine) (input : TurnInput) (s t : InformationState) : Prop where
  | uncounted : Uncounted s t → Endured e input s t
  | counted : Counted input t → Counts e s t.own.noInputCount t.shared.com → Endured e input s t

theorem Endured.fires (h : Endured e input s t) (hAttends : Attends input t)
    (hSilent : IsSilent input) (hFires : Fires e input t r u)
    (hFirst : ∀ r' t', Fires e input t r' t' → rank r ≤ rank r') : Endured e input s u := by
  cases h with
  | uncounted hUncounted =>
    rcases hUncounted.fires hAttends hSilent hFires hFirst with hKept | hCounts
    · exact .uncounted hKept
    obtain ⟨hCount, hCom, hQud, -⟩ := hUncounted
    cases hFires with
    | engaged hTurn hSpoken =>
      rw [isSilence_of_userTurn? hAttends hSilent hTurn] at hSpoken
      cases hSpoken
    | reprompted hTurn _ _ hNone =>
      obtain ⟨-, hMark⟩ := eq_utterance_of_userTurn? hAttends hTurn
      refine .counted (counted_of_consumedSilence hSilent.2 hMark rfl rfl rfl) ?_
      change Counts e s (nextCount t.own.noInputCount) t.shared.com
      rw [hCount] at hNone ⊢
      rw [hCom]
      refine .reprompted fun hEscalate q hTop => ?_
      have hNever := hNone hEscalate
      rw [fallback?_of_top (hQud ▸ hTop)] at hNever
      exact Option.map_eq_none_iff.mp hNever
    | @fellBack _ q qs p hTurn _ _ hEscalate hTopped hDefault =>
      obtain ⟨-, hMark⟩ := eq_utterance_of_userTurn? hAttends hTurn
      refine .counted (counted_of_consumedSilence hSilent.2 hMark rfl rfl rfl) ?_
      change Counts e s 0 (p :: t.shared.com)
      rw [hCount] at hEscalate
      rw [hQud] at hTopped
      rw [hCom]
      exact .fellBack hEscalate (by rw [hTopped]; rfl) hDefault
    | _ => exact absurd hCounts (by decide)
  | counted hCounted hCounts =>
    have hLate := hCounted.rank_of_fires hAttends hSilent.1 hFires
    cases hFires with
    | clearAgenda | downdate | loaded | foundOut | consulted | copied | asked | tookUp | answered |
        greets => exact .counted (hCounted.of_consumed rfl rfl (List.Subset.refl _)) hCounts
    | _ => exact absurd hLate (by decide)

section

variable (hRules : e.rules = defaultRules) (hSilent : IsSilent input)
  (h : e.Trace input s.beginTurn rs t)
include hRules hSilent h

theorem Trace.endured : Attends input t ∧ Endured e input s t := by
  refine h.preserves_in_order (P := Endured e input s) hRules ?_ ?_
  · intro t r u hAttends hEndured hFires hFirst
    exact hEndured.fires hAttends hSilent hFires hFirst
  · exact .uncounted (uncounted_beginTurn s)

theorem Trace.com_of_silence : t.shared.com = s.shared.com ∨ ∃ q p, s.shared.qud.head? = some q ∧
    e.domain.default? q.predicate = some p ∧ t.shared.com = p :: s.shared.com := by
  cases (h.endured hRules hSilent).2 with
  | uncounted hUncounted => exact .inl hUncounted.com
  | counted _ hCounts => exact hCounts.com_eq

theorem Trace.counts_of_silence (hSettled : e.IsSettled input t) :
    Counts e s t.own.noInputCount t.shared.com := by
  obtain ⟨hAttends, hEndured⟩ := h.endured hRules hSilent
  cases hEndured with
  | uncounted hUncounted =>
    obtain ⟨r, u, hFires, -⟩ :=
      exists_fires_of_uncounted (e := e) hAttends hSilent hUncounted.consumed
    exact absurd hFires (not_fires_of_isSettled hRules hSettled)
  | counted _ hCounts => exact hCounts

end

/-- One more silent turn reaches the threshold, and there is a default for the question on top. -/
def Escalates (e : Engine) (s : InformationState) : Prop :=
  e.config.escalation.toNat ≤ min (s.own.noInputCount.toNat + 1) (UInt32.size - 1) ∧
    ∃ q p, s.shared.qud.head? = some q ∧ e.domain.default? q.predicate = some p

theorem Counts.count_eq_zero_iff (h : Counts e s count com) : count = 0 ↔ Escalates e s := by
  cases h with
  | reprompted hNone =>
    constructor
    · intro hZero
      have hNext := toNat_nextCount s.own.noInputCount
      rw [hZero, UInt32.toNat_zero, UInt32.size] at hNext
      omega
    · rintro ⟨hEscalate, q, p, hTop, hDefault⟩
      rw [← toNat_nextCount, ← UInt32.le_iff_toNat_le] at hEscalate
      rw [hNone hEscalate q hTop] at hDefault
      cases hDefault
  | fellBack hEscalate hTop hDefault =>
    rw [UInt32.le_iff_toNat_le, toNat_nextCount] at hEscalate
    exact iff_of_true rfl ⟨hEscalate, _, _, hTop, hDefault⟩

theorem Counts.toNat_count (h : Counts e s count com) (hCount : count ≠ 0) :
    count.toNat = min (s.own.noInputCount.toNat + 1) (UInt32.size - 1) := by
  cases h with
  | reprompted => exact toNat_nextCount _
  | fellBack => exact absurd rfl hCount

/-- Silence counts up to the threshold, or to the largest number while there is no default. Taking
part sets the count back, and nothing else changes it. -/
theorem noInputCount_of_run (hRules : e.rules = defaultRules)
    (hRun : (e.run s input).outcome = .ok t) :
    (input.speaker = .sys ∨ input.moves = [] → t.own.noInputCount = s.own.noInputCount) ∧
    (input.speaker = .usr ∧ (∃ m ∈ input.moves, m.isContentful = true) →
      t.own.noInputCount = 0) ∧
    (input.speaker = .usr ∧ input.moves ≠ [] ∧ (∀ m ∈ input.moves, m.isNoInput = true) →
      (t.own.noInputCount = 0 ↔ Escalates e s) ∧
      (¬ Escalates e s →
        t.own.noInputCount.toNat = min (s.own.noInputCount.toNat + 1) (UInt32.size - 1))) ∧
    (input.speaker = .usr ∧ (∀ m ∈ input.moves, m.isContentful = false) ∧
      (∃ m ∈ input.moves, m.isNoInput = false) →
      t.own.noInputCount = s.own.noInputCount) := by
  obtain ⟨rs, t, hTrace, hSettled, -, rfl⟩ := run_outcome_eq_ok_iff.mp hRun
  refine ⟨fun hUnheard => ?_, ?_, ?_, ?_⟩
  · apply hTrace.noInputCount_eq hRules
    intro hUser
    rcases hUnheard with hSystem | hNone
    · rw [hUser] at hSystem
      cases hSystem
    · simp [TurnInput.utterance, Utterance.isSilence, Utterance.hasContentfulMove, hNone]
  · rintro ⟨hUser, hContent⟩
    have hCount := noInputCount_of_contentful hRules (hTrace.attends hRules) hUser
      (List.any_eq_true.mpr hContent) hSettled
    exact hCount
  · rintro ⟨hUser, hMoves, hAll⟩
    have hSilent := isSilent_of_noInput hUser hMoves hAll
    have hCounts := hTrace.counts_of_silence hRules hSilent hSettled
    refine ⟨hCounts.count_eq_zero_iff, fun hKept => hCounts.toNat_count ?_⟩
    exact fun hZero => hKept (hCounts.count_eq_zero_iff.mp hZero)
  · rintro ⟨hUser, hIdle, m, hMem, hHeard⟩
    apply hTrace.noInputCount_eq hRules
    intro _
    constructor
    · rw [Utterance.isSilence, Bool.and_eq_false_iff, List.all_eq_false]
      exact .inr ⟨m, hMem, by rw [hHeard]; exact Bool.false_ne_true⟩
    · rw [Utterance.hasContentfulMove, List.any_eq_false]
      intro m' hMem'
      rw [hIdle m' hMem']
      exact Bool.false_ne_true

/-- A question that has met a number of silent turns. -/
def unheard (predicate : String) (count : UInt32) : InformationState where
  own := { noInputCount := count }
  shared := { qud := [⟨predicate⟩] }

/-- The third silence ends in the default for the day. There is none for food, so that silence is
counted up to the largest number. -/
theorem silence_is_counted :
    (∃ t, (Console.session.engine.run (unheard Lecture.bookingDay 2)
        (.user [⟨.noInput, none⟩])).outcome = .ok t ∧ t.own.noInputCount = 0) ∧
    (∃ t, (Console.session.engine.run (unheard Lecture.favoriteFood 4294967295)
        (.user [⟨.noInput, none⟩])).outcome = .ok t ∧ t.own.noInputCount.toNat = 4294967295) ∧
    (∃ t, (Console.session.engine.run (unheard Lecture.bookingDay 2)
        (.user [⟨.noInput, none⟩, ⟨.request none, some 0.5⟩])).outcome = .ok t ∧
      t.own.noInputCount = 0) ∧
    ∃ t, (Console.session.engine.run (unheard Lecture.bookingDay 2)
        (.user [⟨.noInput, none⟩, ⟨.greet, none⟩])).outcome = .ok t ∧ t.own.noInputCount = 2 := by
  have hSilence : ∀ m ∈ (TurnInput.user [⟨.noInput, none⟩]).moves, m.isNoInput = true := by
    simp [TurnInput.user, Move.isNoInput]
  refine ⟨⟨_, rfl, ?_⟩, ⟨_, rfl, ?_⟩, ⟨_, rfl, ?_⟩, ⟨_, rfl, ?_⟩⟩
  · have hRun : (Console.session.engine.run (unheard Lecture.bookingDay 2)
      (.user [⟨.noInput, none⟩])).outcome = .ok _ := rfl
    obtain ⟨-, -, hSilent, -⟩ := noInputCount_of_run rfl hRun
    refine (hSilent ⟨rfl, List.cons_ne_nil _ _, hSilence⟩).1.mpr ?_
    exact ⟨by decide, ⟨Lecture.bookingDay⟩, ⟨Lecture.bookingDay, "friday"⟩, rfl, rfl⟩
  · have hRun : (Console.session.engine.run (unheard Lecture.favoriteFood 4294967295)
      (.user [⟨.noInput, none⟩])).outcome = .ok _ := rfl
    obtain ⟨-, -, hSilent, -⟩ := noInputCount_of_run rfl hRun
    refine (hSilent ⟨rfl, List.cons_ne_nil _ _, hSilence⟩).2 ?_
    rintro ⟨-, q, p, hTop, hDefault⟩
    cases hTop
    cases hDefault
  · have hRun : (Console.session.engine.run (unheard Lecture.bookingDay 2)
      (.user [⟨.noInput, none⟩, ⟨.request none, some 0.5⟩])).outcome = .ok _ := rfl
    obtain ⟨-, hContentful, -⟩ := noInputCount_of_run rfl hRun
    exact hContentful ⟨rfl, _, List.mem_cons_of_mem _ List.mem_cons_self, rfl⟩
  · have hRun : (Console.session.engine.run (unheard Lecture.bookingDay 2)
      (.user [⟨.noInput, none⟩, ⟨.greet, none⟩])).outcome = .ok _ := rfl
    obtain ⟨-, -, -, hOther⟩ := noInputCount_of_run rfl hRun
    refine hOther ⟨rfl, ?_, _, List.mem_cons_of_mem _ List.mem_cons_self, rfl⟩
    simp [TurnInput.user, Move.isContentful]

end Dialogue.Engine
