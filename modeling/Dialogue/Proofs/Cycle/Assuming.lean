import Dialogue.Proofs.Cycle.Commitments
import Dialogue.Proofs.Domain.Defaults
import Dialogue.Proofs.Update.Taking

/-! # Assuming what could be said

What silence commits the user to is the default for the question on top. Said aloud, the default is
an answer to that question like any other: it is taken in exactly when the format allows it.
-/

namespace Dialogue.Engine

open Update InformationState

variable {e : Engine} {input : TurnInput} {s t : InformationState} {rs : List Rule} {m : Move}
  {q : Question} {a : Answer}

theorem not_isSilent_of_answered (hAnswered : m.answered? = some a) : ¬ IsSilent (.user [m]) := by
  rintro ⟨-, hSilence⟩
  rw [Utterance.isSilence, Bool.and_eq_true, List.all_eq_true] at hSilence
  have hNoInput := hSilence.2 m (List.mem_singleton.mpr rfl)
  rw [isNoInput_of_answered hAnswered] at hNoInput
  cases hNoInput

theorem Trace.accepts_of_committed {p : Proposition} (hRules : e.rules = defaultRules)
    (hUser : input.speaker = .usr) (hSpoken : ¬ IsSilent input)
    (h : e.Trace input s.beginTurn rs t) (hCom : t.shared.com = p :: s.shared.com) :
    e.domain.accepts p = true := by
  -- Every new commitment of such a turn is stated by a move, and there is just this one.
  obtain ⟨new, positions, hAccounts⟩ := h.exists_accounts hRules hSpoken
  have hNew : new = [p] := List.append_cancel_right (hAccounts.com.symm.trans hCom)
  have hStated := hAccounts.stated
  rw [hNew] at hStated
  cases hStated with
  | cons hAnswers =>
    obtain ⟨-, -, -, -, -, -, -, -, hAccepts⟩ := hAnswers
    exact hAccepts hUser

/-- A clear answer that is relevant to the question on top is taken in exactly when the fact that
it states is accepted. -/
theorem exists_trace_answer_iff (hRules : e.rules = defaultRules)
    (hClear : m.isUnclear e.config.lowConfidence = false) (hAnswered : m.answered? = some a)
    {qs : List Question} (hQud : s.shared.qud = q :: qs)
    (hRelevant : e.domain.relevant a q = true) :
    (∃ rs v, e.Trace (.user [m]) s.beginTurn (rs ++ [integrateAnswer]) v ∧
      v.shared.com = q.combine a :: s.shared.com) ↔ e.domain.accepts (q.combine a) = true := by
  constructor
  · rintro ⟨rs, v, hTrace, hCom⟩
    exact hTrace.accepts_of_committed hRules rfl (not_isSilent_of_answered hAnswered) hCom
  · intro hAccepts
    have hLatch : e.Trace (.user [m]) s.beginTurn [getLatestMove] _ :=
      trace_latch hRules rfl (List.cons_ne_nil m []) rfl
    refine ⟨[getLatestMove], _, hLatch.append (trace_answer hRules rfl ?_ hClear hAnswered hQud
      hRelevant hAccepts), rfl⟩
    exact hears_of_latched rfl rfl rfl

theorem Trace.exists_default_of_silence (hRules : e.rules = defaultRules) (hSilent : IsSilent input)
    (h : e.Trace input s.beginTurn rs t) (hAssumed : t.shared.com ≠ s.shared.com) :
    ∃ q qs individual, s.shared.qud = q :: qs ∧
      e.domain.defaults.get? q.predicate = some individual ∧
      t.shared.com = q.combine (.short individual) :: s.shared.com := by
  rcases h.com_of_silence hRules hSilent with hSame | ⟨q, p, hTop, hDefault, hCom⟩
  · exact absurd hSame hAssumed
  · obtain ⟨qs, hQud⟩ := List.head?_eq_some_iff.mp hTop
    obtain ⟨individual, hEntry, rfl⟩ := Option.map_eq_some_iff.mp hDefault
    exact ⟨q, qs, individual, hQud, hEntry, hCom⟩

/-- A default is relevant to its question, and accepted exactly when the format of that question
allows it. So what silence commits the user to would have been taken in as an answer exactly when
the format allows it. -/
theorem default_is_answer_iff_allowed :
    (∀ {d : Domain} {predicate individual : String},
      d.defaults.get? predicate = some individual →
      d.relevant (.short individual) ⟨predicate⟩ = true ∧
      (d.accepts (Question.combine ⟨predicate⟩ (.short individual)) = true ↔
        d.Allows predicate individual)) ∧
    ∀ {e : Engine} {s t : InformationState} {input : TurnInput}, e.rules = defaultRules →
      input.speaker = .usr → input.moves ≠ [] → (∀ m ∈ input.moves, m.isNoInput = true) →
      (e.run s input).outcome = .ok t → t.shared.com ≠ s.shared.com →
      ∃ q qs individual, s.shared.qud = q :: qs ∧
        e.domain.defaults.get? q.predicate = some individual ∧
        t.shared.com = q.combine (.short individual) :: s.shared.com ∧
        ∀ m : Move, m.isUnclear e.config.lowConfidence = false →
          m.answered? = some (.short individual) →
          ((∃ rs v, e.Trace (.user [m]) s.beginTurn (rs ++ [integrateAnswer]) v ∧
            v.shared.com = q.combine (.short individual) :: s.shared.com) ↔
            e.domain.Allows q.predicate individual) := by
  constructor
  · intro d predicate individual hDefault
    exact ⟨Domain.relevant_of_default hDefault, Domain.accepts_eq_true_iff⟩
  · intro e s t input hRules hUser hMoves hAll hRun hAssumed
    obtain ⟨rs, t, hTrace, -, -, rfl⟩ := run_outcome_eq_ok_iff.mp hRun
    obtain ⟨q, qs, individual, hQud, hDefault, hCom⟩ := hTrace.exists_default_of_silence hRules
      (isSilent_of_noInput hUser hMoves hAll) hAssumed
    refine ⟨q, qs, individual, hQud, hDefault, hCom, fun m hClear hAnswered => ?_⟩
    have hTaken := exists_trace_answer_iff hRules hClear hAnswered hQud
      (Domain.relevant_of_default hDefault)
    exact hTaken.trans Domain.accepts_eq_true_iff

/-- Friday is assumed for the day, and it could have been said. -/
theorem friday_could_be_said :
    Lecture.domain.relevant (.short "friday") ⟨Lecture.bookingDay⟩ = true ∧
    ∃ t, (Console.session.engine.run (unheard Lecture.bookingDay 2)
        (.user [⟨.noInput, none⟩])).outcome = .ok t ∧
      t.shared.com = [⟨Lecture.bookingDay, "friday"⟩] ∧
      ∃ rs v, Console.session.engine.Trace (.user [⟨.answer (.short "friday"), none⟩])
        (unheard Lecture.bookingDay 2).beginTurn (rs ++ [integrateAnswer]) v ∧
        v.shared.com = [⟨Lecture.bookingDay, "friday"⟩] := by
  obtain ⟨hAnswer, hAssume⟩ := default_is_answer_iff_allowed
  have hRun : (Console.session.engine.run (unheard Lecture.bookingDay 2)
    (.user [⟨.noInput, none⟩])).outcome = .ok _ := rfl
  refine ⟨(hAnswer (d := Lecture.domain) rfl).1, _, hRun, rfl, ?_⟩
  have hSilence : ∀ m ∈ (TurnInput.user [⟨.noInput, none⟩]).moves, m.isNoInput = true := by
    simp [TurnInput.user, Move.isNoInput]
  obtain ⟨q, qs, individual, hQud, hDefault, -, hSaid⟩ :=
    hAssume rfl rfl (List.cons_ne_nil _ _) hSilence hRun (List.cons_ne_nil _ _)
  cases hQud
  cases hDefault
  refine (hSaid ⟨.answer (.short "friday"), none⟩ rfl rfl).mpr ?_
  rintro f hFormat
  cases hFormat
  rfl

/-- A domain in which Saturday is assumed for the day, and only Friday is taken for one. -/
def fridayDesk : Domain where
  predicates := .ofList [("booking_day", "day")]
  individuals := .ofList [("friday", "day"), ("saturday", "day")]
  plans := []
  defaults := .ofList [("booking_day", "saturday")]
  formats := .ofList [("booking_day", .ofValues ["friday"] "hint")]
  faultless := by decide +kernel

def fridayDeskEngine : Engine :=
  ⟨defaultRules, fridayDesk, .ofRows [], {}, Config.fault?_default⟩

/-- Three silent turns commit the user to a day that the user may not name. -/
theorem saturday_is_assumed_but_rejected :
    fridayDesk.defaults.get? "booking_day" = some "saturday" ∧
    fridayDesk.accepts (Question.combine ⟨"booking_day"⟩ (.short "saturday")) = false ∧
    (∃ t, (fridayDeskEngine.run (unheard "booking_day" 2)
        (.user [⟨.noInput, none⟩])).outcome = .ok t ∧
      t.shared.com = [⟨"booking_day", "saturday"⟩]) ∧
    ∃ t, (fridayDeskEngine.run (unheard "booking_day" 2)
        (.user [⟨.answer (.short "saturday"), none⟩])).outcome = .ok t ∧ t.shared.com = [] :=
  ⟨rfl, rfl, ⟨_, rfl, rfl⟩, _, rfl, rfl⟩

end Dialogue.Engine
