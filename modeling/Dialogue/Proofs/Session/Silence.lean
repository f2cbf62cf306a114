import Mathlib.Data.List.Nodup
import Dialogue.Proofs.Cycle.Counting
import Dialogue.Proofs.Session.FormFilling

/-! # Forms are filled in for the silent

While the user says nothing each open slot is asked for again, until the default fills it in and the
next one is asked for in the same reply. The last default leads to the answer that the form is for.
-/

namespace Dialogue.Session

open Update Engine

variable {s : Session} {e : Engine} {goal q : Question} {slots : List Question}
  {assumed bel com : List Proposition} {p d : Proposition} {m : Move} {k : Nat}

/-- The replies to silence while these slots are open, with a default assumed at every
`threshold`-th silence. -/
def servedReplies (threshold : Nat) (p : Proposition) :
    List Question → List Proposition → List (List Move)
  | q :: slots, d :: assumed =>
    List.replicate (threshold - 1) [⟨.noInput, none⟩, ⟨.ask q, none⟩] ++
      [⟨.answer (.full d), none⟩, nextMove slots p] :: servedReplies threshold p slots assumed
  | _, _ => []

/-- Between turns, after `k` silences since the first slot was asked for. -/
structure Waits (goal : Question) (slots : List Question) (bel com : List Proposition)
    (p : Proposition) (k : Nat) (s : InformationState) : Prop where
  resumes : Resumes goal slots bel com p k s
  count : s.own.noInputCount.toNat = k

theorem Waits.of_sameUpToVersion {t u : InformationState} (h : Waits goal slots bel com p k t)
    (hSame : SameUpToVersion t u) : Waits goal slots bel com p k u := by
  constructor
  · exact resumes_of_sameUpToVersion h.resumes hSame
  · obtain ⟨version, rfl⟩ := hSame
    exact h.count

theorem toNat_nextCount_of_lt {count threshold : UInt32} (h : count.toNat < threshold.toNat) :
    (nextCount count).toNat = count.toNat + 1 := by
  have hSize := threshold.toNat_lt
  rw [toNat_nextCount]
  simp only [UInt32.size]
  omega

theorem exists_hear_reprompt (hRules : s.engine.rules = defaultRules)
    (hForm : IsOpenForm goal (q :: slots) bel com)
    (hWaits : Waits goal (q :: slots) bel com p k s.state) (hAct : m.act = .noInput)
    (hBelow : k + 1 < s.engine.config.escalation.toNat)
    (hCeiling : 2 ≤ s.engine.config.maxFirings.toNat) :
    ∃ s', s.hear [m] = (.ok [⟨.noInput, none⟩, ⟨.ask q, none⟩], s') ∧ s'.engine = s.engine ∧
      Waits goal (q :: slots) bel com p (k + 1) s'.state := by
  have hAt : AtForm goal (q :: slots) bel com (q :: (List.replicate k q ++ [goal])) s.state :=
    hWaits.resumes
  have hCount := hWaits.count
  have hLess : s.state.own.noInputCount.toNat < s.engine.config.escalation.toNat := by omega
  have hNext := toNat_nextCount_of_lt hLess
  obtain ⟨t, hSettles, hMoves, hCounted, hAt'⟩ := exists_settles_reprompt hRules hForm hAt hAct
    fun hEscalate => by
      rw [UInt32.le_iff_toNat_le] at hEscalate
      omega
  have hRemark : ∀ x ∈ [(⟨.noInput, none⟩ : Move)], IsRemark x := by simp
  have hNone : ∀ x ∈ ([] : List Move), s.engine.Mute (fun _ => True) x := by simp
  obtain ⟨u, hEcho, hAt''⟩ := exists_settles_echoAsk hRules hForm hAt'
    (fun x hMem => (hRemark x hMem).mute _) hNone trivial
  obtain ⟨s', hHear, hEngine, hSame⟩ := converse_of_settles hRules hSettles (by omega)
    (by simp [hMoves]) (by rw [hMoves]; exact hEcho) (by omega)
  refine ⟨s', by rw [hear, hHear, hMoves], hEngine, Waits.of_sameUpToVersion ⟨hAt'', ?_⟩ hSame⟩
  rw [hEcho.noInputCount_of_echo hRules, hCounted, hNext, hCount]

theorem exists_hear_default (hRules : s.engine.rules = defaultRules)
    (hForm : IsOpenForm goal (q :: slots) bel com)
    (hWaits : Waits goal (q :: slots) bel com p k s.state) (hAct : m.act = .noInput)
    (hReached : k + 1 = s.engine.config.escalation.toNat)
    (hDefault : s.engine.domain.default? q.predicate = some d)
    (hConsult : slots = [] → s.engine.database.consult goal (d :: com) = some p)
    (hAnswer : p.predicate = goal.predicate)
    (hCeiling : k + 5 ≤ s.engine.config.maxFirings.toNat) :
    IsOpenForm goal slots bel (d :: com) ∧
    ∃ s', s.hear [m] = (.ok [⟨.answer (.full d), none⟩, nextMove slots p], s') ∧
      s'.engine = s.engine ∧ Waits goal slots bel (d :: com) p 0 s'.state := by
  have hFilled : IsOpenForm goal slots bel (d :: com) :=
    combine_of_resolves (Domain.resolves_of_default? hDefault) ▸ hForm.fill (.full d)
  refine ⟨hFilled, ?_⟩
  have hCount := hWaits.count
  have hLess : s.state.own.noInputCount.toNat < s.engine.config.escalation.toNat := by omega
  have hNext := toNat_nextCount_of_lt hLess
  have hEscalate : s.engine.config.escalation ≤ nextCount s.state.own.noInputCount := by
    rw [UInt32.le_iff_toNat_le]
    omega
  obtain ⟨n, hn, t, hSettles, hMoves, hReset, hSpoke⟩ := exists_settles_default (p := p) hRules
    hForm hWaits.resumes hAct hEscalate hDefault fun hLast => ⟨hConsult hLast, hAnswer⟩
  -- the default is about none of the questions left, so the echo does not commit to it again
  have hMute : ∀ x ∈ [(⟨.answer (.full d), none⟩ : Move)],
      s.engine.Mute (· ∈ goal :: slots) x := by
    intro x hMem
    rw [List.mem_singleton.mp hMem]
    constructor
    · rfl
    · rfl
    · intro a q' hAnswered hOpen
      cases hAnswered
      apply beq_eq_false_iff_ne.mpr
      intro hEq
      apply hFilled.unsaid d List.mem_cons_self
      rw [hEq]
      exact List.mem_map_of_mem hOpen
  obtain ⟨n', hn', u, hEcho, hResumes⟩ := exists_settles_echoNext_of_mute (p := p) hRules hFilled
    hSpoke (fun _ => hAnswer) hMute
  obtain ⟨s', hHear, hEngine, hSame⟩ := converse_of_settles hRules hSettles (by omega)
    (by simp [hMoves]) (by rw [hMoves]; exact hEcho) (by omega)
  refine ⟨s', by rw [hear, hHear, hMoves], hEngine, Waits.of_sameUpToVersion ⟨hResumes, ?_⟩ hSame⟩
  rw [hEcho.noInputCount_of_echo hRules, hReset]
  rfl

theorem replies_reprompts {j : Nat} (hRules : s.engine.rules = defaultRules)
    (hForm : IsOpenForm goal (q :: slots) bel com)
    (hWaits : Waits goal (q :: slots) bel com p k s.state) (hAct : m.act = .noInput)
    (hBelow : k + j < s.engine.config.escalation.toNat)
    (hCeiling : 2 ≤ s.engine.config.maxFirings.toNat) :
    s.replies (List.replicate j [m]) =
        List.replicate j (.ok [⟨.noInput, none⟩, ⟨.ask q, none⟩]) ∧
      (s.hearAll (List.replicate j [m])).engine = s.engine ∧
      Waits goal (q :: slots) bel com p (k + j) (s.hearAll (List.replicate j [m])).state := by
  induction j generalizing s k with
  | zero => exact ⟨rfl, rfl, hWaits⟩
  | succ j ih =>
    obtain ⟨s', hHear, hEngine, hWaits'⟩ := exists_hear_reprompt hRules hForm hWaits hAct
      (by omega) hCeiling
    obtain ⟨hReplies, hEngine', hWaits''⟩ := ih (s := s') (hEngine ▸ hRules) hWaits'
      (by rw [hEngine]; omega) (hEngine ▸ hCeiling)
    rw [List.replicate_succ, List.replicate_succ, replies, hearAll, hHear, hReplies]
    refine ⟨rfl, hEngine'.trans hEngine, ?_⟩
    rw [Nat.add_comm j 1, ← Nat.add_assoc]
    exact hWaits''

theorem escalation_pos (e : Engine) : 0 < e.config.escalation.toNat := by
  obtain ⟨_, _, hEscalation, _⟩ := Config.fault?_eq_none_iff.mp e.valid
  exact Nat.pos_of_ne_zero fun hZero => hEscalation (UInt32.toNat_inj.mp hZero)

theorem replies_served {threshold : Nat} (hRules : s.engine.rules = defaultRules)
    (hThreshold : s.engine.config.escalation.toNat = threshold)
    (hForm : IsOpenForm goal slots bel com) (hWaits : Waits goal slots bel com p 0 s.state)
    (hDefaults : List.Forall₂ (fun q d => s.engine.domain.default? q.predicate = some d)
      slots assumed) (hAct : m.act = .noInput)
    (hConsult : s.engine.database.consult goal (assumed.reverse ++ com) = some p)
    (hAnswer : p.predicate = goal.predicate)
    (hCeiling : threshold + 12 ≤ s.engine.config.maxFirings.toNat) :
    s.replies (List.replicate (slots.length * threshold) [m]) =
        (servedReplies threshold p slots assumed).map .ok ∧
      IsOpenForm goal [] bel (assumed.reverse ++ com) ∧
      Waits goal [] bel (assumed.reverse ++ com) p 0
        (s.hearAll (List.replicate (slots.length * threshold) [m])).state := by
  induction slots generalizing s assumed com with
  | nil =>
    cases hDefaults
    rw [List.length_nil, Nat.zero_mul]
    exact ⟨rfl, hForm, hWaits⟩
  | cons q slots ih =>
    cases hDefaults with
    | @cons _ d _ assumed hDefault hDefaults =>
    have hPositive := escalation_pos s.engine
    rw [List.reverse_cons, List.append_assoc, List.singleton_append] at hConsult ⊢
    -- all silences but the last are only counted
    obtain ⟨hAgain, hEngine, hWaiting⟩ := replies_reprompts (j := threshold - 1) hRules hForm
      hWaits hAct (by omega) (by omega)
    generalize hReached : s.hearAll (List.replicate (threshold - 1) [m]) = s₁ at hEngine hWaiting
    obtain ⟨hFilled, s₂, hHear, hEngine', hResumed⟩ := exists_hear_default (d := d)
      (hEngine ▸ hRules) hForm hWaiting hAct (by rw [hEngine]; omega) (hEngine ▸ hDefault)
      (by
        rintro rfl
        cases hDefaults
        rw [hEngine]
        exact hConsult)
      hAnswer (by rw [hEngine]; omega)
    have hSame : s₂.engine = s.engine := hEngine'.trans hEngine
    obtain ⟨hLater, hForm', hEnd⟩ := ih (s := s₂) (hSame ▸ hRules) (hSame ▸ hThreshold)
      hFilled hResumed (hSame ▸ hDefaults) (hSame ▸ hConsult) (hSame ▸ hCeiling)
    have hSplit : (q :: slots).length * threshold =
        (threshold - 1) + (1 + slots.length * threshold) := by
      rw [List.length_cons, Nat.succ_mul]
      omega
    rw [hSplit, List.replicate_add, List.replicate_add, replies_append, hearAll_append, hReached,
      hAgain, List.replicate_one, List.singleton_append, replies, hearAll, hHear, hLater]
    refine ⟨?_, hForm', hEnd⟩
    rw [servedReplies, List.map_append, List.map_replicate, List.map_cons]

theorem exists_start (hRules : e.rules = defaultRules) (beliefs : List Proposition)
    (hCeiling : 2 ≤ e.config.maxFirings.toNat) :
    ∃ s', (ofEngine e (.withBeliefs .initial beliefs)).start = (.ok [⟨.greet, none⟩], s') ∧
      s'.engine = e ∧ AtRest beliefs [] s'.state := by
  obtain ⟨t, hOpening, hMoves, hAt⟩ := settles_opening hRules beliefs
  obtain ⟨u, hEcho, hAt'⟩ := exists_settles_echoGreet hRules hAt
  obtain ⟨s', hStart, hEngine, hSame⟩ :=
    converse_of_settles (s := ofEngine e (.withBeliefs .initial beliefs)) hRules hOpening
      (show 1 ≤ e.config.maxFirings.toNat by omega) (by simp [hMoves]) (hMoves ▸ hEcho) hCeiling
  exact ⟨s', by rw [start, hStart, hMoves], hEngine, hAt'.of_sameUpToVersion hSame⟩

theorem exists_hear_goal (hRules : s.engine.rules = defaultRules)
    (hForm : IsOpenForm goal slots bel com) (hAt : AtRest bel com s.state) {plan : Plan}
    (hPlan : s.engine.domain.issuePlan? goal = some plan)
    (hSteps : plan.steps = formSteps goal slots)
    (hConsult : slots = [] → s.engine.database.consult goal com = some p)
    (hAnswer : p.predicate = goal.predicate)
    (hCeiling : 7 ≤ s.engine.config.maxFirings.toNat) :
    ∃ s', s.hear [⟨.ask goal, none⟩] = (.ok [nextMove slots p], s') ∧ s'.engine = s.engine ∧
      Waits goal slots bel com p 0 s'.state := by
  obtain ⟨n, hn, t, hAsk, hMoves, hSpoke⟩ := exists_settles_askGoal (m := ⟨.ask goal, none⟩) hRules
    hForm hAt hPlan hSteps (isUnclear_of_certain _ _) rfl fun hLast => ⟨hConsult hLast, hAnswer⟩
  have hNone : ∀ x ∈ ([] : List Move), IsRemark x := by simp
  obtain ⟨n', hn', u, hEcho, hResumes⟩ := exists_settles_echoNext (p := p) hRules hForm hSpoke
    (fun _ => hAnswer) hNone
  obtain ⟨s', hHear, hEngine, hSame⟩ := converse_of_settles hRules hAsk (by omega)
    (by simp [hMoves]) (by rw [hMoves]; exact hEcho) (by omega)
  refine ⟨s', by rw [hear, hHear, hMoves], hEngine, Waits.of_sameUpToVersion ⟨hResumes, ?_⟩ hSame⟩
  rw [hEcho.noInputCount_of_echo hRules, hAsk.noInputCount_of_contentful hRules rfl]
  rfl

theorem map_predicate_of_defaults {d : Domain}
    (h : List.Forall₂ (fun q p => d.default? q.predicate = some p) slots assumed) :
    assumed.map (·.predicate) = slots.map (·.predicate) := by
  induction h with
  | nil => rfl
  | cons hDefault _ ih =>
    rw [List.map_cons, List.map_cons, ih,
      Proposition.resolves_iff.mp (Domain.resolves_of_default? hDefault)]

/-- Nothing is left to discuss or to do, and each fact was committed to once. -/
structure Served (p : Proposition) (assumed : List Proposition) (s : InformationState) : Prop where
  agenda : s.own.agenda = []
  plan : s.own.plan = []
  qud : s.shared.qud = []
  count : s.own.noInputCount = 0
  com : s.shared.com = p :: assumed.reverse
  once : s.shared.com.Nodup

theorem silence_completes_form (hRules : e.rules = defaultRules) {plan : Plan}
    (hPlan : e.domain.issuePlan? goal = some plan)
    (hSteps : plan.steps = slots.map .findout ++ [.consult goal])
    (hDistinct : ((goal :: slots).map (·.predicate)).Nodup) {beliefs : List Proposition}
    (hBeliefs : ∀ b ∈ beliefs, b.predicate ≠ goal.predicate)
    (hDefaults : List.Forall₂ (fun q d => e.domain.default? q.predicate = some d) slots assumed)
    (hConsult : e.database.consult goal assumed.reverse = some p)
    (hAnswer : p.predicate = goal.predicate) (hSilent : m.act = .noInput)
    (hCeiling : e.config.escalation.toNat + 12 ≤ e.config.maxFirings.toNat) :
    (ofEngine e (.withBeliefs .initial beliefs)).start.1 = .ok [⟨.greet, none⟩] ∧
      (asked e beliefs goal).1 = .ok [nextMove slots p] ∧
      (asked e beliefs goal).2.replies
          (List.replicate (slots.length * e.config.escalation.toNat) [m]) =
        (servedReplies e.config.escalation.toNat p slots assumed).map .ok ∧
      Served p assumed ((asked e beliefs goal).2.hearAll
        (List.replicate (slots.length * e.config.escalation.toNat) [m])).state := by
  have hForm : IsOpenForm goal slots beliefs [] := ⟨hDistinct, by simp, hBeliefs⟩
  obtain ⟨s₁, hStart, hEngine, hAt⟩ := exists_start hRules beliefs (by omega)
  obtain ⟨s₂, hHear, hEngine', hWaits⟩ := exists_hear_goal (s := s₁) (hEngine ▸ hRules) hForm hAt
    (hEngine ▸ hPlan) hSteps
    (by
      rintro rfl
      cases hDefaults
      rw [hEngine]
      exact hConsult)
    hAnswer (by rw [hEngine]; omega)
  have hAsked : asked e beliefs goal = (.ok [nextMove slots p], s₂) := by
    rw [asked, hStart, hHear]
  have hSame : s₂.engine = e := hEngine'.trans hEngine
  obtain ⟨hReplies, hFilled, hEnd⟩ := replies_served (s := s₂) (hSame ▸ hRules)
    (congrArg (·.config.escalation.toNat) hSame) hForm hWaits (hSame ▸ hDefaults) hSilent
    (by rw [hSame, List.append_nil]; exact hConsult) hAnswer (by rw [hSame]; exact hCeiling)
  rw [List.append_nil] at hFilled hEnd
  obtain ⟨hAgenda, hPlan', hQud, hCom⟩ := hEnd.resumes
  have hOnce : assumed.Nodup := by
    apply List.Nodup.of_map (·.predicate)
    rw [map_predicate_of_defaults hDefaults]
    exact (List.nodup_cons.mp hDistinct).2
  rw [hStart, hAsked]
  refine ⟨rfl, rfl, hReplies, hAgenda, hPlan', hQud, UInt32.toNat_inj.mp hEnd.count, hCom, ?_⟩
  rw [hCom, List.nodup_cons]
  constructor
  · intro hMem
    exact hFilled.goal_unsaid p hMem hAnswer
  · exact List.nodup_reverse.mpr hOnce

theorem six_silences_book_friday :
    (asked Console.session.engine [⟨Lecture.favoriteFood, "pizza"⟩] ⟨Lecture.bookingRoom⟩).2.replies
        (List.replicate 6 [⟨.noInput, none⟩]) =
      [.ok [⟨.noInput, none⟩, ⟨.ask ⟨Lecture.bookingDay⟩, none⟩],
        .ok [⟨.noInput, none⟩, ⟨.ask ⟨Lecture.bookingDay⟩, none⟩],
        .ok [⟨.answer (.full ⟨Lecture.bookingDay, "friday"⟩), none⟩,
          ⟨.ask ⟨Lecture.bookingCourse⟩, none⟩],
        .ok [⟨.noInput, none⟩, ⟨.ask ⟨Lecture.bookingCourse⟩, none⟩],
        .ok [⟨.noInput, none⟩, ⟨.ask ⟨Lecture.bookingCourse⟩, none⟩],
        .ok [⟨.answer (.full ⟨Lecture.bookingCourse, Lecture.course⟩), none⟩,
          ⟨.answer (.full ⟨Lecture.bookingRoom, "G212"⟩), none⟩]] ∧
    Served ⟨Lecture.bookingRoom, "G212"⟩
      [⟨Lecture.bookingDay, "friday"⟩, ⟨Lecture.bookingCourse, Lecture.course⟩]
      ((asked Console.session.engine [⟨Lecture.favoriteFood, "pizza"⟩]
        ⟨Lecture.bookingRoom⟩).2.hearAll (List.replicate 6 [⟨.noInput, none⟩])).state := by
  have hDefaults : List.Forall₂
      (fun (q : Question) d => Console.session.engine.domain.default? q.predicate = some d)
      [⟨Lecture.bookingDay⟩, ⟨Lecture.bookingCourse⟩]
      [⟨Lecture.bookingDay, "friday"⟩, ⟨Lecture.bookingCourse, Lecture.course⟩] :=
    .cons rfl (.cons rfl .nil)
  have hSilent : (⟨.noInput, none⟩ : Move).act = .noInput := rfl
  exact (silence_completes_form (e := Console.session.engine) rfl rfl (by rfl)
    (by decide) (by decide) hDefaults rfl rfl hSilent (by decide)).2.2

end Dialogue.Session
