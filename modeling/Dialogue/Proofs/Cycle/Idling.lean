import Dialogue.Console
import Dialogue.Proofs.Cycle.Log
import Dialogue.Proofs.Cycle.Phases

/-! # Cycles in which nothing is said

A cycle settles under its own marks and for its own speaker, and the next cycle starts with fresh
marks. When nothing is said in that one there is nothing to take in or to comment on, and what
keeps the plan idle does not depend on marks or speaker. Only selection may go on.
-/

namespace Dialogue.Engine

open Update

variable {e : Engine} {input : TurnInput} {s s' t : InformationState} {r : Rule} {rs : List Rule}

theorem Idle.endTurn_beginTurn (h : e.Idle t) : e.Idle t.endTurn.beginTurn :=
  h.of_same rfl rfl rfl rfl rfl

theorem isSettled_echo_nil (hRules : e.rules = defaultRules) (hIdle : e.Idle s)
    (hLatched : s.turn.latched = false) : e.IsSettled (.echo []) s := by
  have hQuiet : e.Quiet (.echo []) (fun _ => True) s := quiet_of_no_moves rfl rfl hLatched
  exact isSettled_of_selected hRules hQuiet (fun _ _ => trivial) hIdle rfl

section

variable (hReset : input.resetAgenda = false) (hMoves : input.moves = [])
include hReset hMoves

theorem rank_downdateQud_le_of_no_moves (hLatched : s.turn.latched = false)
    (hFires : Fires e input s r t) : rank downdateQud ≤ rank r := by
  have hQuiet : e.Quiet input (fun _ => True) s := quiet_of_no_moves hReset hMoves hLatched
  exact hQuiet s rfl (fun _ _ => trivial) r t hFires

theorem pursuing_of_no_moves (hLatched : s.turn.latched = false) (hOpen : TopIsOpen s) :
    e.Pursuing input s := by
  intro r t hFires
  exact rank_findPlan_le hOpen hFires
    (rank_downdateQud_le_of_no_moves hReset hMoves hLatched hFires)

end

/-- Pursuit and selection leave alone what is shared and what the other rules read. -/
theorem Pursuing.same (hRules : e.rules = defaultRules) (hReset : input.resetAgenda = false)
    (hPursuing : e.Pursuing input s) (h : e.Trace input s rs t) :
    t.hearing = s.hearing ∧ t.shared = s.shared := by
  apply h.preserves (P := fun t => t.hearing = s.hearing ∧ t.shared = s.shared) hRules
    (Q := fun r => rank findPlan ≤ rank r)
  · rintro t r u ⟨hHearing, hShared⟩ hRank hFires
    obtain ⟨hHearing', hShared'⟩ := same_of_pursues hRank hFires
    exact ⟨hHearing'.trans hHearing, hShared'.trans hShared⟩
  · exact hPursuing.trace hRules hReset h
  · exact ⟨rfl, rfl⟩

/-- Nothing was taken in, and as long as nothing is said no mark is set. -/
structure Unmarked (s : InformationState) : Prop where
  latched : s.turn.latched = false
  turn : s.nextMoves = [] → s.turn = {}

theorem Unmarked.fires (hReset : input.resetAgenda = false) (hMoves : input.moves = [])
    (h : Unmarked s) (hFires : Fires e input s r t) : Unmarked t := by
  have hRank := rank_downdateQud_le_of_no_moves hReset hMoves h.latched hFires
  cases hFires with
  | downdate | loaded | foundOut | consulted | copied | tookUp => exact ⟨h.latched, h.turn⟩
  | asked | answered | greets => exact ⟨h.latched, fun hSilent => by simp at hSilent⟩
  | _ => exact absurd hRank (by decide)

theorem Unmarked.endTurn_beginTurn (h : Unmarked t) (hSilent : t.nextMoves = []) :
    t.endTurn.beginTurn = t := by
  rw [InformationState.endTurn, InformationState.beginTurn, ← hSilent, ← h.turn hSilent]

/-- After a cycle the system that hears itself say nothing does nothing, and a silent user changes
nothing of what is shared. A cycle in which nobody says anything can be repeated to no effect. -/
theorem idles_when_nothing_is_said (hRules : e.rules = defaultRules) (s s' : InformationState)
    (input : TurnInput) :
    ((e.run s input).outcome = .ok s' →
      ((e.run s' (.echo [])).fired = [] ∧
        (e.run s' (.echo [])).outcome = .ok { s' with nextMoves := [] }) ∧
      ∀ t, (e.run s' (.user [])).outcome = .ok t →
        t.shared.lu = s'.shared.lu ∧ t.shared.qud = s'.shared.qud ∧
        t.shared.com = s'.shared.com ∧ t.own.noInputCount = s'.own.noInputCount) ∧
    ((e.run s (.user [])).outcome = .ok s' → s'.nextMoves = [] →
      (e.run s' (.user [])).fired = [] ∧ (e.run s' (.user [])).outcome = .ok s') := by
  refine ⟨fun hRun => ?_, fun hRun hSilent => ?_⟩
  · obtain ⟨t, -, hSettled, rfl⟩ := exists_trace_of_run hRun
    have hIdle : e.Idle t.endTurn.beginTurn :=
      (idle_of_isSettled hRules hSettled).endTurn_beginTurn
    constructor
    · obtain ⟨hOutcome, hFired⟩ := run_of_isSettled (isSettled_echo_nil hRules hIdle rfl)
      exact ⟨hFired, hOutcome⟩
    · intro v hNext
      obtain ⟨v, hTrace, -, rfl⟩ := exists_trace_of_run hNext
      have hPursuing : e.Pursuing (.user []) t.endTurn.beginTurn :=
        pursuing_of_no_moves rfl rfl rfl hIdle.top
      obtain ⟨hHearing, hShared⟩ := hPursuing.same hRules rfl hTrace
      have hCount := congrArg Hearing.noInputCount hHearing
      exact ⟨congrArg SharedState.lu hShared, congrArg SharedState.qud hShared,
        congrArg SharedState.com hShared, hCount⟩
  · obtain ⟨t, hTrace, hSettled, rfl⟩ := exists_trace_of_run hRun
    have hUnmarked : Unmarked t := by
      apply hTrace.invariant hRules
      · exact fun _ _ _ hKept hFires => hKept.fires rfl rfl hFires
      · exact ⟨rfl, fun _ => rfl⟩
    have hSame := hUnmarked.endTurn_beginTurn hSilent
    obtain ⟨hOutcome, hFired⟩ := run_of_isSettled (hSame.symm ▸ hSettled)
    rw [hSame] at hOutcome
    exact ⟨hFired, hOutcome⟩

/-- The user has asked for the room and is greeted first. -/
def roomWanted : InformationState where
  own := { plan := Lecture.roomPlan.steps }
  shared := {
    lu := some ⟨.usr, [⟨.ask ⟨Lecture.bookingRoom⟩, none⟩]⟩
    qud := [⟨Lecture.bookingRoom⟩] }
  nextMoves := [⟨.greet, none⟩]
  version := 4

/-- The room can only be looked up once the day and the course are agreed. -/
def roomSought : InformationState where
  own := { plan := [.consult ⟨Lecture.bookingRoom⟩] }
  shared := { qud := [⟨Lecture.bookingRoom⟩] }

/-- A plan in progress and a lookup in vain are kept up while nothing is said. -/
theorem room_is_kept_in_mind :
    (Console.session.engine.run roomWanted (.echo [])).outcome =
      .ok { roomWanted with nextMoves := [] } ∧
    (∃ t, (Console.session.engine.run roomWanted (.user [])).outcome = .ok t ∧
      t.shared.qud = [⟨Lecture.bookingRoom⟩]) ∧
    (Console.session.engine.run roomSought (.user [])).fired = [] := by
  have hAsked : (Console.session.engine.run .initial
      (.user [⟨.ask ⟨Lecture.bookingRoom⟩, none⟩])).outcome = .ok roomWanted := rfl
  have hSought : (Console.session.engine.run roomSought (.user [])).outcome = .ok roomSought := rfl
  obtain ⟨hAfter, -⟩ := idles_when_nothing_is_said (e := Console.session.engine) rfl
    .initial roomWanted (.user [⟨.ask ⟨Lecture.bookingRoom⟩, none⟩])
  obtain ⟨-, hAgain⟩ := idles_when_nothing_is_said (e := Console.session.engine) rfl
    roomSought roomSought (.user [])
  obtain ⟨⟨-, hEcho⟩, hUser⟩ := hAfter hAsked
  exact ⟨hEcho, ⟨_, rfl, (hUser _ rfl).2.1⟩, (hAgain hSought rfl).1⟩

end Dialogue.Engine
