import Dialogue.Console
import Dialogue.Proofs.Domain.Plans
import Dialogue.Proofs.Session.Calls

/-! # Plans and agendas of a valid domain

The checks on a domain look at its plans alone. A dialogue only ever loads the steps of an issue
plan and works them off from the front, and it puts nothing on the agenda but steps of plans,
greetings and questions to respond to. So what was checked of the plans holds of plan and agenda
throughout.
-/

namespace Dialogue

open Update

namespace Domain

variable {d : Domain} {plan rest : List Action} {a : Action} {q : Question}

/-- An issue plan is being followed, of which these steps are left, or none is. -/
def Follows (d : Domain) (plan : List Action) : Prop :=
  plan = [] ∨ ∃ p ∈ d.plans, p.kind = .issue ∧ plan <:+ p.steps

theorem follows_of_issuePlan? {p : Plan} (h : d.issuePlan? q = some p) : d.Follows p.steps :=
  .inr ⟨p, mem_plans_of_issuePlan? h, kind_of_issuePlan? h, List.suffix_refl _⟩

theorem Follows.suffix (h : d.Follows plan) (hRest : rest <:+ plan) : d.Follows rest := by
  rcases h with rfl | ⟨p, hPlan, hKind, hLeft⟩
  · exact .inl (List.suffix_nil.mp hRest)
  · exact .inr ⟨p, hPlan, hKind, hRest.trans hLeft⟩

theorem Follows.exists_plan (h : d.Follows plan) (hMem : a ∈ plan) :
    ∃ p ∈ d.plans, a ∈ p.steps := by
  rcases h with rfl | ⟨p, hPlan, -, hLeft⟩
  · cases hMem
  · exact ⟨p, hPlan, hLeft.subset hMem⟩

/-- What may be on the agenda: a greeting, a question to respond to, or a step of a plan. -/
inductive Admits (d : Domain) : Action → Prop where
  | greet : Admits d .greet
  | respond {q : Question} : Admits d (.respond q)
  | step {a : Action} {p : Plan} : p ∈ d.plans → a ∈ p.steps → Admits d a

theorem Admits.contains (h : d.Admits a) (hRespond : a.isRespond = false)
    (hQuestion : a.question? = some q) : d.predicates.contains q.predicate = true := by
  cases h with
  | greet => cases hQuestion
  | respond => cases hRespond
  | step hPlan hStep => exact contains_of_step hPlan hStep hQuestion

end Domain

namespace Engine

variable {e : Engine} {input : TurnInput} {s t : InformationState} {r : Rule}

/-- The plan and the agenda are made of what the domain has plans for. -/
structure Validated (d : Domain) (s : InformationState) : Prop where
  plan : d.Follows s.own.plan
  agenda : ∀ a ∈ s.own.agenda, d.Admits a

theorem admits_of_requestedSteps? {d : Domain} {m : Move} {steps : List Action}
    (h : requestedSteps? d m = some steps) : ∀ a ∈ steps, d.Admits a := by
  obtain ⟨_, p, hPlan, rfl⟩ := Domain.exists_actionPlan?_of_requestedSteps? h
  exact fun a hStep => .step (Domain.mem_plans_of_actionPlan? hPlan) hStep

theorem Validated.fires (h : Validated e.domain s) (hFires : Fires e input s r t) :
    Validated e.domain t := by
  have hTail (b : Bool) : e.domain.Follows (if b then s.own.plan.tail else s.own.plan) := by
    cases b with
    | false => exact h.plan
    | true => exact h.plan.suffix (List.tail_suffix _)
  have hRest {a : Action} {rest : List Action} (hAgenda : s.own.agenda = a :: rest) :
      ∀ b ∈ rest, e.domain.Admits b := by
    intro b hMem
    apply h.agenda
    rw [hAgenda]
    exact List.mem_cons_of_mem a hMem
  cases hFires with
  | clearAgenda => exact ⟨h.plan, by simp⟩
  | request _ hFind =>
    obtain ⟨m, -, hSteps⟩ := Context.exists_pending_of_findPending? hFind
    refine ⟨h.plan, fun a hMem => ?_⟩
    rcases List.mem_append.mp hMem with hNew | hOld
    · exact admits_of_requestedSteps? hSteps a hNew
    · exact h.agenda a hOld
  | usrAsk =>
    exact ⟨h.plan, List.forall_mem_cons.mpr ⟨.respond, h.agenda⟩⟩
  -- A default takes at most the step off the plan that asks its question.
  | fellBack => exact ⟨hTail _, by simp⟩
  | loaded hAgenda _ hPlan => exact ⟨Domain.follows_of_issuePlan? hPlan, hRest hAgenda⟩
  | foundOut hPlan _ | consulted hPlan _ =>
    refine ⟨h.plan.suffix ?_, h.agenda⟩
    rw [hPlan]
    exact List.suffix_cons _ _
  | copied _ _ hPlan _ =>
    refine ⟨h.plan, List.forall_mem_singleton.mpr ?_⟩
    obtain ⟨p, hMem, hStep⟩ := h.plan.exists_plan (hPlan ▸ List.mem_cons_self)
    exact .step hMem hStep
  | asked _ hAgenda _ => exact ⟨hTail _, hRest hAgenda⟩
  | tookUp => exact ⟨h.plan, List.forall_mem_singleton.mpr .respond⟩
  | answered _ hAgenda _ | greets _ hAgenda => exact ⟨h.plan, hRest hAgenda⟩
  | _ => exact ⟨h.plan, h.agenda⟩

theorem lasting_validated (e : Engine) : e.Lasting (Validated e.domain) := by
  constructor
  · exact fun _ h => ⟨h.plan, h.agenda⟩
  · exact fun _ _ _ _ h hFires => h.fires hFires
  · exact fun _ h => ⟨h.plan, h.agenda⟩

end Engine

namespace Session

open Engine

variable {s : Session} {domain : Domain} {database : Database} {config : Config}
  {beliefs : List Proposition}

theorem validated_after
    (hNew : Session.new domain database config (.withBeliefs .initial beliefs) = .ok s)
    (calls : List Call) : Validated domain (s.after calls).state := by
  obtain ⟨hRules, rfl, -, -, hState⟩ := engine_of_new hNew
  apply lasts_after hRules s.engine.lasting_validated
  rw [hState]
  exact ⟨.inl rfl, List.forall_mem_singleton.mpr .greet⟩

/-- Whatever is called, the plan is what is left of an issue plan of the domain, the agenda holds
greetings, questions to respond to and steps of its plans, and all but those are on declared
predicates. -/
theorem plan_and_agenda_within_domain
    (hNew : Session.new domain database config (.withBeliefs .initial beliefs) = .ok s)
    (calls : List Call) :
    ((s.after calls).state.own.plan = [] ∨ ∃ p ∈ domain.plans, p.kind = .issue ∧
      (s.after calls).state.own.plan <:+ p.steps) ∧
    (∀ a ∈ (s.after calls).state.own.plan, a.isRespond = false ∧
      ∀ q, a.question? = some q → domain.predicates.contains q.predicate = true) ∧
    ∀ a ∈ (s.after calls).state.own.agenda,
      (a = .greet ∨ (∃ q, a = .respond q) ∨ ∃ p ∈ domain.plans, a ∈ p.steps) ∧
      ∀ q, a.isRespond = false → a.question? = some q →
        domain.predicates.contains q.predicate = true := by
  have hValid := validated_after hNew calls
  refine ⟨hValid.plan, fun a hMem => ?_, fun a hMem => ?_⟩
  · obtain ⟨p, hPlan, hStep⟩ := hValid.plan.exists_plan hMem
    exact ⟨Domain.isRespond_eq_false hPlan hStep,
      fun q hQuestion => Domain.contains_of_step hPlan hStep hQuestion⟩
  · have hAdmits := hValid.agenda a hMem
    constructor
    · cases hAdmits with
      | greet => exact .inl rfl
      | respond => exact .inr (.inl ⟨_, rfl⟩)
      | step hPlan hStep => exact .inr (.inr ⟨_, hPlan, hStep⟩)
    · exact fun q hRespond hQuestion => hAdmits.contains hRespond hQuestion

/-- The user asks for the room and, instead of telling the day, for the course. -/
def courseAskedBack : List Call :=
  [.start, .hear [⟨.ask ⟨Lecture.bookingRoom⟩, none⟩],
    .hear [⟨.ask ⟨Lecture.bookingCourse⟩, none⟩]]

/-- The whole plan for the room is ahead, and the course is still to be told. -/
theorem room_plan_within_domain :
    (Console.session.after courseAskedBack).state.own.plan = Lecture.roomPlan.steps ∧
    (Console.session.after courseAskedBack).state.own.agenda =
      [.respond ⟨Lecture.bookingCourse⟩] ∧
    (∃ p ∈ Lecture.domain.plans, p.kind = .issue ∧ Lecture.roomPlan.steps <:+ p.steps) ∧
    ∀ a ∈ Lecture.roomPlan.steps, a.isRespond = false ∧
      ∀ q, a.question? = some q → Lecture.domain.predicates.contains q.predicate = true := by
  have hNew : Session.new Lecture.domain Lecture.rooms {}
      (.withBeliefs .initial [⟨Lecture.favoriteFood, "pizza"⟩]) = .ok Console.session := rfl
  obtain ⟨hFollows, hPlan, -⟩ := plan_and_agenda_within_domain hNew courseAskedBack
  have hAhead : (Console.session.after courseAskedBack).state.own.plan ≠ [] := nofun
  exact ⟨rfl, rfl, hFollows.resolve_left hAhead, hPlan⟩

end Session

end Dialogue
