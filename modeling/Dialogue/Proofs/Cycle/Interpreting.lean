import Mathlib.Data.List.TakeWhile
import Dialogue.Proofs.Cycle.Idling
import Dialogue.Proofs.Cycle.Leads

/-! # What a cycle does on its own

When nothing is said to it, the system only closes questions, loads plans and works them off, and
looks at the whole table again after each step. What that comes to can be written down in one pass:
the questions, the agenda and the plan each lose what can be dealt with at their head.
-/

namespace Dialogue

open Update

/-- The steps of the plan for a question to respond to, as long as no belief answers it. -/
def Domain.loadedSteps? (d : Domain) (unshared : List Proposition) : Action → Option (List Action)
  | .respond q => if unshared.any (·.resolves q) then none else (d.issuePlan? q).map (·.steps)
  | _ => none

/-- A step of the plan that needs nothing but what is agreed. -/
def Database.dealsWith (db : Database) (com : List Proposition) : Action → Bool
  | .findout q => com.any (·.resolves q)
  | .consult q => (db.consult q com).isSome
  | _ => false

def Database.lookup? (db : Database) (com : List Proposition) : Action → Option Proposition
  | .consult q => db.consult q com
  | _ => none

def InformationState.closed (s : InformationState) : InformationState :=
  { s with shared.qud := s.shared.qud.dropWhile s.isResolved }

namespace Engine

variable {e : Engine} {input : TurnInput} {s t : InformationState} {a : Action} {q : Question}
  {tops : Question → Prop}

def makesWay (e : Engine) (s : InformationState) (a : Action) : Bool :=
  (e.domain.loadedSteps? s.unsharedBeliefs a).isSome

/-- The plan loaded last, or the one there was. -/
def planned (e : Engine) (s : InformationState) : List Action :=
  ((s.own.agenda.takeWhile (e.makesWay s)).filterMap
    (e.domain.loadedSteps? s.unsharedBeliefs)).getLast?.getD s.own.plan

def loaded (e : Engine) (s : InformationState) : InformationState :=
  { s with own.agenda := s.own.agenda.dropWhile (e.makesWay s), own.plan := e.planned s }

def workedOff (e : Engine) (s : InformationState) : InformationState :=
  { s with
    own.plan := s.own.plan.dropWhile (e.database.dealsWith s.shared.com)
    own.bel := s.own.bel ++ (s.own.plan.takeWhile (e.database.dealsWith s.shared.com)).filterMap
      (e.database.lookup? s.shared.com) }

/-- How many questions, actions and steps are dealt with. -/
def workload (e : Engine) (s : InformationState) : Nat :=
  (s.shared.qud.takeWhile s.isResolved).length +
    (s.own.agenda.takeWhile (e.makesWay s)).length +
    ((e.planned s).takeWhile (e.database.dealsWith s.shared.com)).length

/-- The state with all of that dealt with, and nothing to say about it. -/
def interpret (e : Engine) (s : InformationState) : InformationState :=
  { e.workedOff (e.loaded s.closed) with
    nextMoves := []
    version := s.version + UInt64.ofNat (e.workload s)
    turn := {} }

theorem answerable?_isSome (s : InformationState) (q : Question) :
    (answerable? s q).isSome = s.unsharedBeliefs.any (·.resolves q) := by
  rw [Bool.eq_iff_iff, answerable?, List.find?_isSome, List.any_eq_true]

theorem loadedSteps?_eq_some_iff {steps : List Action} :
    e.domain.loadedSteps? s.unsharedBeliefs a = some steps ↔
      ∃ q p, a = .respond q ∧ answerable? s q = none ∧ e.domain.issuePlan? q = some p ∧
        p.steps = steps := by
  cases a with
  | respond q =>
    rw [Domain.loadedSteps?, ← answerable?_isSome]
    cases hAnswer : answerable? s q <;> simp [hAnswer]
  | _ => simp [Domain.loadedSteps?]

theorem head_dropWhile {α : Type} {f : α → Bool} {l rest : List α} {x : α}
    (h : l.dropWhile f = x :: rest) : f x = false := by
  have hHead := List.head?_dropWhile_not f l
  rw [h] at hHead
  simpa using hHead

theorem topIsOpen_closed (s : InformationState) : TopIsOpen s.closed := by
  intro q hHead
  obtain ⟨qs, hQud⟩ := List.head?_eq_some_iff.mp hHead
  exact head_dropWhile hQud

theorem noLoad_loaded (e : Engine) (s : InformationState) : e.NoLoad (e.loaded s) := by
  intro q rest hAgenda hNone
  have hStays : e.domain.loadedSteps? s.unsharedBeliefs (.respond q) = none := by
    simpa [makesWay] using head_dropWhile hAgenda
  by_contra hPlan
  obtain ⟨p, hPlan⟩ := Option.ne_none_iff_exists'.mp hPlan
  have hLoads : e.domain.loadedSteps? s.unsharedBeliefs (.respond q) = some p.steps :=
    loadedSteps?_eq_some_iff.mpr ⟨q, p, rfl, hNone, hPlan, rfl⟩
  rw [hStays] at hLoads
  cases hLoads

theorem idle_workedOff (hOpen : TopIsOpen s) (hLoad : e.NoLoad s) : e.Idle (e.workedOff s) := by
  have hStuck {a : Action} {rest : List Action} (hPlan : (e.workedOff s).own.plan = a :: rest) :
      e.database.dealsWith s.shared.com a = false := head_dropWhile hPlan
  constructor
  · exact hOpen
  · exact hLoad.of_subset rfl (List.subset_append_left _ _) rfl
  · intro q rest hPlan
    exact hStuck hPlan
  · intro q rest hPlan
    exact Option.not_isSome_iff_eq_none.mp (Bool.eq_false_iff.mp (hStuck hPlan))

section

variable (hRules : e.rules = defaultRules) (hQuiet : e.Quiet input tops s) (hTop : TopIn tops s)
  (hOpen : TopIsOpen s)
include hRules hQuiet hTop hOpen

/-- The plans are loaded one over the other, and the last one stays. -/
theorem leads_loads :
    e.Leads input (s.own.agenda.takeWhile (e.makesWay s)).length s (e.loaded s) := by
  unfold loaded
  induction hAgenda : s.own.agenda generalizing s with
  | nil =>
    have hPlanned : e.planned s = s.own.plan := by rw [planned, hAgenda]; rfl
    rw [hPlanned, List.takeWhile_nil, List.dropWhile_nil, List.length_nil, ← hAgenda]
    exact .refl s
  | cons a rest ih =>
    cases hLoads : e.domain.loadedSteps? s.unsharedBeliefs a with
    | none =>
      have hStays : e.makesWay s a = false := by rw [makesWay, hLoads]; rfl
      rw [planned, hAgenda, List.takeWhile_cons_of_neg (by simp [hStays]),
        List.dropWhile_cons_of_neg (by simp [hStays]), ← hAgenda]
      exact .refl s
    | some steps =>
      have hGoes : e.makesWay s a = true := by rw [makesWay, hLoads]; rfl
      obtain ⟨q, p, rfl, hNone, hPlan, rfl⟩ := loadedSteps?_eq_some_iff.mp hLoads
      have hFirst := leads_loaded hRules hQuiet hTop hOpen hAgenda hNone hPlan
      have hRest := ih (s := { s with own.agenda := rest, own.plan := p.steps })
        (hQuiet.of_hearing rfl) hTop hOpen rfl
      have hPlanned : e.planned s =
          e.planned { s with own.agenda := rest, own.plan := p.steps } := by
        rw [planned, hAgenda, List.takeWhile_cons_of_pos hGoes, List.filterMap_cons_some hLoads,
          List.getLast?_cons]
        rfl
      rw [hPlanned, List.takeWhile_cons_of_pos hGoes, List.dropWhile_cons_of_pos hGoes,
        List.length_cons, Nat.add_comm]
      exact hFirst.trans hRules hRest

theorem leads_worksOff (hLoad : e.NoLoad s) :
    e.Leads input (s.own.plan.takeWhile (e.database.dealsWith s.shared.com)).length s
      (e.workedOff s) := by
  unfold workedOff
  induction hPlan : s.own.plan generalizing s with
  | nil =>
    rw [List.takeWhile_nil, List.dropWhile_nil, List.filterMap_nil, List.append_nil,
      List.length_nil, ← hPlan]
    exact .refl s
  | cons a rest ih =>
    cases hDeals : e.database.dealsWith s.shared.com a with
    | false =>
      rw [List.takeWhile_cons_of_neg (by simp [hDeals]),
        List.dropWhile_cons_of_neg (by simp [hDeals]), List.filterMap_nil, List.append_nil, ← hPlan]
      exact .refl s
    | true =>
      rw [List.takeWhile_cons_of_pos hDeals, List.dropWhile_cons_of_pos hDeals, List.length_cons,
        Nat.add_comm]
      cases a with
      | findout q =>
        have hFirst := leads_foundOut hRules hQuiet hTop hOpen hLoad hPlan hDeals
        have hRest := ih (s := { s with own.plan := rest }) (hQuiet.of_hearing rfl) hTop hOpen
          hLoad rfl
        exact hFirst.trans hRules hRest
      | consult q =>
        obtain ⟨p, hConsult⟩ := Option.isSome_iff_exists.mp hDeals
        have hFirst := leads_consulted hRules hQuiet hTop hOpen hLoad hPlan hConsult
        -- What is looked up only adds to the beliefs, so no plan is to be loaded after it either.
        have hLoad' : e.NoLoad { s with own.plan := rest, own.bel := s.own.bel ++ [p] } :=
          hLoad.of_subset rfl (List.subset_append_left _ _) rfl
        have hRest := ih (s := { s with own.plan := rest, own.bel := s.own.bel ++ [p] })
          (hQuiet.of_hearing rfl) hTop hOpen hLoad' rfl
        have hBel (steps : List Action) :
            (.consult q :: steps).filterMap (e.database.lookup? s.shared.com) =
              p :: steps.filterMap (e.database.lookup? s.shared.com) :=
          List.filterMap_cons_some hConsult
        rw [hBel, List.append_cons]
        exact hFirst.trans hRules hRest
      | _ => cases hDeals

end

theorem settles_interpret (hRules : e.rules = defaultRules) (s : InformationState) :
    e.Settles (.echo []) (e.workload s) s { e.interpret s with version := s.version } := by
  have hQuiet : e.Quiet (.echo []) (fun _ => True) s.beginTurn := quiet_of_no_moves rfl rfl rfl
  have hTop (t : InformationState) : TopIn (fun _ => True) t := fun _ _ => trivial
  have hOpen := topIsOpen_closed s.beginTurn
  have hLoad := e.noLoad_loaded s.beginTurn.closed
  have hCloses : e.Leads (.echo []) _ s.beginTurn s.beginTurn.closed :=
    leads_downdates hRules hQuiet (hTop _) List.takeWhile_append_dropWhile.symm
      (fun _ _ => trivial) fun q hMem => List.mem_takeWhile_imp hMem
  have hLoads : e.Leads (.echo []) _ s.beginTurn.closed (e.loaded s.beginTurn.closed) :=
    leads_loads hRules (hQuiet.of_hearing rfl) (hTop _) hOpen
  have hWorks : e.Leads (.echo []) _ (e.loaded s.beginTurn.closed) _ :=
    leads_worksOff hRules (hQuiet.of_hearing rfl) (hTop _) hOpen hLoad
  refine ⟨_, (hCloses.trans hRules hLoads).trans hRules hWorks, ?_, rfl⟩
  exact isSettled_echo_nil hRules (idle_workedOff hOpen hLoad) rfl

/-- A cycle in which the system hears nothing returns as soon as the ceiling allows for its
firings, and then what it returns is given by `interpret`. -/
theorem run_echo_nil_eq_ok_iff (hRules : e.rules = defaultRules) (s t : InformationState) :
    (e.run s (.echo [])).outcome = .ok t ↔
      e.workload s ≤ e.config.maxFirings.toNat ∧ t = e.interpret s :=
  (settles_interpret hRules s).run_outcome_eq_ok_iff hRules

/-- The room is to be told as soon as the food is, and day and course are agreed already. -/
def roomPending : InformationState where
  own := {
    agenda := [.respond ⟨Lecture.bookingRoom⟩, .respond ⟨Lecture.favoriteFood⟩]
    plan := [.findout ⟨Lecture.favoriteFood⟩]
    bel := [⟨Lecture.favoriteFood, "pizza"⟩] }
  shared := {
    qud := [⟨Lecture.bookingDay⟩, ⟨Lecture.bookingRoom⟩]
    com := [⟨Lecture.bookingCourse, Lecture.course⟩, ⟨Lecture.bookingDay, "friday"⟩] }

/-- The question of the day is closed, the plan for the room takes the place of the one there is,
and all of it is worked off. -/
theorem room_is_looked_up_unasked :
    (Console.session.engine.run roomPending (.echo [])).outcome = .ok { roomPending with
      own.agenda := [.respond ⟨Lecture.favoriteFood⟩]
      own.plan := []
      own.bel := [⟨Lecture.favoriteFood, "pizza"⟩, ⟨Lecture.bookingRoom, "G212"⟩]
      shared.qud := [⟨Lecture.bookingRoom⟩]
      version := 5 } :=
  (run_echo_nil_eq_ok_iff (e := Console.session.engine) rfl roomPending _).mpr ⟨by decide, rfl⟩

end Engine

end Dialogue
