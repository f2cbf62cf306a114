import Dialogue.Proofs.Cycle.PlanSteps

/-! # Steps that are only said

To greet and to raise a question are steps of a plan that are said and done. A cycle that takes one
up says it. A raised question is taken off the plan with that. A greeting never is: no rule takes it
off, so a plan is stuck at the first of its greetings, and greets in every cycle that takes it up.
-/

namespace Dialogue

/-- A step that is carried out as soon as it is said. -/
def Action.isSaid : Action → Bool
  | greet | raise _ => true
  | _ => false

namespace Engine

open Update

variable {e : Engine} {input : TurnInput} {s t u : InformationState} {r : Rule} {rs : List Rule}
  {n : Nat} {a : Action} {q : Question} {steps rest : List Action}

/-- The step at the head of the plan is on the agenda and may be said. -/
structure IsCopied (e : Engine) (input : TurnInput) (a : Action) (rest : List Action)
    (s : InformationState) : Prop where
  may : (e.context input s).maySelect = true
  agenda : s.own.agenda = [a]
  plan : s.own.plan = a :: rest

theorem Fires.isCopied (h : Fires e input s r t) (hName : r.name = selectFromPlan.name)
    (hPlan : s.own.plan = a :: rest) : IsCopied e input a rest t := by
  cases h with
  | copied hMay _ hHead _ =>
    rw [hPlan] at hHead
    cases hHead
    exact ⟨hMay, rfl, hPlan⟩
  | _ => exact absurd hName (by decide)

/-- Once a question to be raised is on the agenda, nothing comes before asking it but a plan that is
loaded. -/
theorem IsCopied.plan_of_fires (h : IsCopied e input (.raise q) rest s)
    (hFires : Fires e input s r t) (hRank : rank findPlan ≤ rank r ∧ rank r ≤ rank selectAsk)
    (hOther : r ≠ findPlan) : t.own.plan = rest := by
  cases hFires with
  | loaded => exact absurd rfl hOther
  | foundOut hPlan _ | consulted hPlan _ => rw [h.plan] at hPlan; cases hPlan
  | copied _ hAgenda _ _ => rw [h.agenda] at hAgenda; cases hAgenda
  | asked => simp [h.plan, planRaises]
  | _ => exact absurd hRank (by decide)

section

variable (hRules : e.rules = defaultRules) (hReset : input.resetAgenda = false)
include hRules

theorem Trace.plan_suffix (h : e.Trace input s rs t) (hAttends : Attends input s)
    (hNever : findPlan ∉ rs) : t.own.plan <:+ s.own.plan := by
  obtain ⟨done, found, hDone⟩ := h.exists_workedOff hRules hAttends hNever
  exact ⟨done, hDone.plan.symm⟩

include hReset

theorem Trace.plan_of_raised (h : e.Trace input s rs t) (hEnd : e.IsSettled input t)
    (hAttends : Attends input s) (hNever : findPlan ∉ rs) (hCopied : selectFromPlan ∈ rs)
    (hPlan : s.own.plan = .raise q :: rest) : t.own.plan <:+ rest := by
  -- Up to the firing that copies the question the plan stays; it is asked in the next one, and
  -- from there on the plan only gets shorter.
  induction h with
  | done s => cases hCopied
  | @fire s t r deltas rs hHit hRest ih =>
    have hFires := fires_of_applicable? hRules hHit
    have hAttends' := hAttends.fires hFires
    rw [List.mem_cons, not_or] at hNever
    rcases List.mem_cons.mp hCopied with hNow | hLater
    · have hNext := hFires.isCopied (hNow ▸ rfl) hPlan
      have hPursuing : e.Pursuing input (s.apply deltas) := by
        refine Pursuing.fires hReset (fun r' t' hFires' => ?_) hFires
        exact Nat.le_trans (hNow ▸ by decide) (rank_le_of_applicable? hRules hHit hFires')
      have hAsks := Fires.asked hNext.may hNext.agenda (.inr rfl)
      cases hRest with
      | done => exact absurd hAsks (not_fires_of_isSettled hRules hEnd)
      | fire hHit' hRest' =>
        have hFires' := fires_of_applicable? hRules hHit'
        rw [List.mem_cons, not_or] at hNever
        have hRank := rank_le_of_applicable? hRules hHit' hAsks
        rw [← hNext.plan_of_fires hFires' ⟨hPursuing _ _ hFires', hRank⟩ (Ne.symm hNever.2.1)]
        exact hRest'.plan_suffix hRules (hAttends'.fires hFires') hNever.2.2
    · rcases hFires.drops hAttends (Ne.symm hNever.1) with ⟨hSame, -⟩ | ⟨a, found, hPop, -, -⟩
      · exact ih hEnd hAttends' hNever.2 hLater (hSame.trans hPlan)
      · rw [hPlan] at hPop
        cases hPop
        exact hRest.plan_suffix hRules hAttends' hNever.2

/-- What a cycle that loads no plan takes off its plan. -/
theorem exists_done_of_run (hRun : (e.run s input).outcome = .ok t)
    (hNever : findPlan ∉ (e.run s input).fired) : ∃ done, s.own.plan = done ++ t.own.plan ∧
      .greet ∉ done ∧ (selectFromPlan ∈ (e.run s input).fired →
        ∀ q rest, s.own.plan = .raise q :: rest → done ≠ []) := by
  obtain ⟨u, hTrace, hEnd, rfl⟩ := exists_trace_of_run hRun
  obtain ⟨done, found, hDone⟩ := hTrace.exists_workedOff hRules nofun hNever
  refine ⟨done, hDone.plan, hDone.rest.1, ?_⟩
  rintro hCopied q rest hPlan rfl
  have hLeft := (hTrace.plan_of_raised hRules hReset hEnd nofun hNever hCopied hPlan).length_le
  have hKept : s.own.plan = u.own.plan := hDone.plan
  rw [← hKept, hPlan, List.length_cons] at hLeft
  omega

end

/-- Cycles one after the other that load no plan, at least `n` of which take up a step of theirs. -/
inductive TakesUp (e : Engine) : Nat → InformationState → InformationState → Prop where
  | refl (s : InformationState) : TakesUp e 0 s s
  | passes {input : TurnInput} {n : Nat} {s t u : InformationState} :
      input.resetAgenda = false → (e.run s input).outcome = .ok t →
      findPlan ∉ (e.run s input).fired → TakesUp e n t u → TakesUp e n s u
  | copies {input : TurnInput} {n : Nat} {s t u : InformationState} :
      input.resetAgenda = false → (e.run s input).outcome = .ok t →
      findPlan ∉ (e.run s input).fired → selectFromPlan ∈ (e.run s input).fired →
      TakesUp e n t u → TakesUp e (n + 1) s u

namespace TakesUp

variable (hRules : e.rules = defaultRules)
include hRules

theorem plan_suffix (h : e.TakesUp n s t) : t.own.plan <:+ s.own.plan := by
  induction h with
  | refl s => exact List.suffix_refl _
  | passes hReset hRun hNever _ ih | copies hReset hRun hNever _ _ ih =>
    obtain ⟨done, hDone, -⟩ := exists_done_of_run hRules hReset hRun hNever
    exact ih.trans ⟨done, hDone.symm⟩

/-- A greeting on the plan is never passed. -/
theorem exists_left_of_greet (h : e.TakesUp n s t) (hPlan : s.own.plan = steps ++ rest)
    (hGreet : .greet ∈ steps) : ∃ left, t.own.plan = left ++ rest ∧ .greet ∈ left := by
  induction h generalizing steps with
  | refl s => exact ⟨steps, hPlan, hGreet⟩
  | passes hReset hRun hNever _ ih | copies hReset hRun hNever _ _ ih =>
    obtain ⟨done, hDone, hUnsaid, -⟩ := exists_done_of_run hRules hReset hRun hNever
    rcases List.append_eq_append_iff.mp (hDone.symm.trans hPlan) with
      ⟨left, rfl, hLeft⟩ | ⟨more, rfl, -⟩
    · exact ih hLeft ((List.mem_append.mp hGreet).resolve_left hUnsaid)
    · exact absurd (List.mem_append_left more hGreet) hUnsaid

theorem plan_suffix_of_raises (h : e.TakesUp n s t) (hPlan : s.own.plan = steps ++ rest)
    (hRaises : ∀ a ∈ steps, ∃ q, a = .raise q) (hLength : steps.length ≤ n) :
    t.own.plan <:+ rest := by
  induction h generalizing steps rest with
  | refl s =>
    rw [Nat.le_zero, List.length_eq_zero_iff] at hLength
    rw [hPlan, hLength]
    exact List.suffix_refl rest
  | passes hReset hRun hNever hRest ih =>
    obtain ⟨done, hDone, -⟩ := exists_done_of_run hRules hReset hRun hNever
    rcases List.append_eq_append_iff.mp (hDone.symm.trans hPlan) with
      ⟨left, rfl, hLeft⟩ | ⟨more, -, rfl⟩
    · rw [List.length_append] at hLength
      exact ih hLeft (fun a hMem => hRaises a (List.mem_append_right done hMem)) (by omega)
    · exact (hRest.plan_suffix hRules).trans (List.suffix_append more _)
  | copies hReset hRun hNever hCopied hRest ih =>
    obtain ⟨done, hDone, -, hTakes⟩ := exists_done_of_run hRules hReset hRun hNever
    rcases List.append_eq_append_iff.mp (hDone.symm.trans hPlan) with
      ⟨left, rfl, hLeft⟩ | ⟨more, -, rfl⟩
    · refine ih hLeft (fun a hMem => hRaises a (List.mem_append_right done hMem)) ?_
      cases left with
      | nil => exact Nat.zero_le _
      | cons a left =>
        have hTaken : done ≠ [] := by
          rintro rfl
          obtain ⟨q, rfl⟩ := hRaises a List.mem_cons_self
          exact hTakes hCopied q _ hPlan rfl
        have hSome := List.length_pos_iff.mpr hTaken
        rw [List.length_append] at hLength
        omega
    · exact (hRest.plan_suffix hRules).trans (List.suffix_append more _)

theorem plan_suffix_iff (h : e.TakesUp n s t) (hPlan : s.own.plan = steps ++ rest)
    (hSaid : ∀ a ∈ steps, a.isSaid = true) (hLength : steps.length ≤ n) :
    t.own.plan <:+ rest ↔ .greet ∉ steps := by
  constructor
  · intro hSuffix hGreet
    obtain ⟨left, hLeft, hMem⟩ := h.exists_left_of_greet hRules hPlan hGreet
    have hFew := hSuffix.length_le
    have hSome := List.length_pos_of_mem hMem
    rw [hLeft, List.length_append] at hFew
    omega
  · intro hNone
    refine h.plan_suffix_of_raises hRules hPlan (fun a hMem => ?_) hLength
    cases a with
    | greet => exact absurd hMem hNone
    | raise q => exact ⟨q, rfl⟩
    | _ => cases hSaid _ hMem

end TakesUp

theorem Loads.mem {p : Plan} {done : List Action} (h : Loads e input s rs t q p done) :
    findPlan ∈ rs := by
  obtain ⟨before, after, v, w, found, rfl, -⟩ := h.fired
  exact List.mem_append_right _ List.mem_cons_self

/-- A step that is only said is left behind once it has been said, unless it is a greeting: that
stays, and so does all of the plan from there on, until another plan is loaded. -/
theorem said_steps_are_left_iff (hRules : e.rules = defaultRules) :
    (∀ {s t : InformationState} {input : TurnInput} {a : Action} {rest : List Action},
      input.resetAgenda = false → (e.run s input).outcome = .ok t → s.own.plan = a :: rest →
      a.isSaid = true → selectFromPlan ∈ (e.run s input).fired →
      ((t.own.plan <:+ rest ∨ ∃ u q p done, t = u.endTurn ∧
          Loads e input s.beginTurn (e.run s input).fired u q p done ∧ t.own.plan <:+ p.steps) ↔
        a ≠ .greet ∨ findPlan ∈ (e.run s input).fired)) ∧
    ∀ {n : Nat} {s t : InformationState} {steps rest : List Action}, e.TakesUp n s t →
      s.own.plan = steps ++ rest → (∀ a ∈ steps, a.isSaid = true) → steps.length ≤ n →
      (t.own.plan <:+ rest ↔ .greet ∉ steps) := by
  constructor
  · intro s t input a rest hReset hRun hPlan hSaid hCopied
    by_cases hLoaded : findPlan ∈ (e.run s input).fired
    · refine ⟨fun _ => .inr hLoaded, fun _ => .inr ?_⟩
      obtain ⟨u, hTrace, -, rfl⟩ := exists_trace_of_run hRun
      obtain ⟨q, p, done, hLoads⟩ := hTrace.exists_loads hRules hLoaded
      exact ⟨u, q, p, done, rfl, hLoads, done, hLoads.steps.symm⟩
    · have hTakes : e.TakesUp 1 s t := .copies hReset hRun hLoaded hCopied (.refl t)
      have hHead : s.own.plan = [a] ++ rest := hPlan
      have hLeft := hTakes.plan_suffix_iff hRules hHead (List.forall_mem_singleton.mpr hSaid)
        (Nat.le_refl 1)
      rw [List.mem_singleton, eq_comm] at hLeft
      constructor
      · rintro (hSuffix | ⟨u, q, p, done, -, hLoads, -⟩)
        · exact .inl (hLeft.mp hSuffix)
        · exact absurd hLoads.mem hLoaded
      · intro hPasses
        exact .inl (hLeft.mpr (hPasses.resolve_right hLoaded))
  · intro n s t steps rest hTakes hPlan hSaid hLength
    exact hTakes.plan_suffix_iff hRules hPlan hSaid hLength

/-- A domain in which the title of a book is asked for politely. -/
def politeDesk : Domain where
  predicates := .ofList [("book", "title")]
  individuals := .empty
  plans := [.issue ⟨"book"⟩ [.greet, .findout ⟨"book"⟩]]
  defaults := .empty
  formats := .empty
  faultless := by decide +kernel

def politeDeskEngine : Engine :=
  ⟨defaultRules, politeDesk, .ofRows [], {}, Config.fault?_default⟩

/-- The book is under discussion, and its plan is at the greeting. -/
def bookWanted : InformationState where
  own := { plan := [.greet, .findout ⟨"book"⟩] }
  shared := { qud := [⟨"book"⟩] }

/-- The greeting is said, and it is still at the head of the plan. -/
theorem greeting_stays_on_plan : ∃ t,
    (politeDeskEngine.run bookWanted (.user [])).outcome = .ok t ∧
    (politeDeskEngine.run bookWanted (.user [])).fired.map (·.name) =
      ["select_from_plan", "select_other"] ∧
    t.nextMoves = [⟨.greet, none⟩] ∧ t.own.plan = bookWanted.own.plan ∧
    ¬ t.own.plan <:+ [.findout ⟨"book"⟩] :=
  ⟨_, rfl, rfl, rfl, rfl, by decide⟩

/-- The day and the course are to be mentioned before the room is looked up. -/
def mentionsBoth : InformationState where
  own := { plan := [.raise ⟨Lecture.bookingDay⟩, .raise ⟨Lecture.bookingCourse⟩,
    .consult ⟨Lecture.bookingRoom⟩] }

def mentionsCourse : InformationState where
  own := { plan := [.raise ⟨Lecture.bookingCourse⟩, .consult ⟨Lecture.bookingRoom⟩] }
  nextMoves := [⟨.ask ⟨Lecture.bookingDay⟩, none⟩]
  version := 2

/-- Two cycles raise both questions, one each, and come to the lookup. -/
theorem day_and_course_are_raised :
    (Console.session.engine.run mentionsBoth (.user [])).outcome = .ok mentionsCourse ∧
    mentionsCourse.own.plan <:+ mentionsBoth.own.plan.tail ∧
    ∃ t, (Console.session.engine.run mentionsCourse (.user [])).outcome = .ok t ∧
      t.own.plan <:+ [.consult ⟨Lecture.bookingRoom⟩] := by
  have hDay : (Console.session.engine.run mentionsBoth (.user [])).outcome = .ok mentionsCourse :=
    rfl
  have hCourse : (Console.session.engine.run mentionsCourse (.user [])).outcome = .ok _ := rfl
  have hDayFired : (Console.session.engine.run mentionsBoth (.user [])).fired.map (·.name) =
    ["select_from_plan", "select_ask"] := rfl
  have hCourseFired : (Console.session.engine.run mentionsCourse (.user [])).fired.map (·.name) =
    ["select_from_plan", "select_ask"] := rfl
  have hNever : findPlan ∉ (Console.session.engine.run mentionsBoth (.user [])).fired :=
    not_mem_of_name (by rw [hDayFired]; decide)
  have hNever' : findPlan ∉ (Console.session.engine.run mentionsCourse (.user [])).fired :=
    not_mem_of_name (by rw [hCourseFired]; decide)
  obtain ⟨hOnce, hTwice⟩ := said_steps_are_left_iff (e := Console.session.engine) rfl
  refine ⟨hDay, ?_, _, hCourse, ?_⟩
  · have hLeft := (hOnce rfl hDay rfl rfl (.head _)).mpr (.inl nofun)
    refine hLeft.resolve_right ?_
    rintro ⟨u, q, p, done, -, hLoads, -⟩
    exact hNever hLoads.mem
  · have hTakes : Console.session.engine.TakesUp 2 mentionsBoth _ :=
      .copies rfl hDay hNever (.head _) (.copies rfl hCourse hNever' (.head _) (.refl _))
    have hSteps : mentionsBoth.own.plan =
        [.raise ⟨Lecture.bookingDay⟩, .raise ⟨Lecture.bookingCourse⟩] ++
          [.consult ⟨Lecture.bookingRoom⟩] := rfl
    exact (hTwice hTakes hSteps (by decide) (by decide)).mpr (by decide)

end Engine

end Dialogue
