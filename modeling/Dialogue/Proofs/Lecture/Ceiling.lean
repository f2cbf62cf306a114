import Dialogue.Proofs.Lecture.Load

/-! # How long a dialogue may be

A dialogue goes on as long as its turns fit, whatever is typed, and all turns of the first 129 do.
Each time the user asks for the room and is asked for the day, two questions come under discussion;
all of them are closed in the cycle in which the room is told, and after 130 turns these can be too
many for the ceiling.
-/

namespace Dialogue.Lecture

open Update Engine

variable {s : Session} {turns : Nat} {m : Move} {inputs : List (List Move)}

/-- Every turn fits, when these are heard one after the other. -/
def FitsAll (s : Session) : List (List Move) → Prop
  | [] => True
  | moves :: rest => (∀ m ∈ moves, Fits s.state m) ∧ FitsAll (s.hear moves).2 rest

/-- The session of the console between turns. -/
structure Ongoing (turns : Nat) (s : Session) : Prop where
  engine : s.engine = engine
  within : Within 0 turns s.state

theorem Ongoing.isOk_hear_iff (h : Ongoing turns s) (hHeard : Heard m) :
    (s.hear [m]).1.isOk = true ↔ Fits s.state m := by
  have hRules : s.engine.rules = defaultRules := by
    rw [h.engine]
    rfl
  obtain ⟨u, n, k, hConverses, hFits, -⟩ := proceeds_of_heard h.within hHeard
  rw [← hFits, Session.hear, Session.isOk_converse_iff hRules (h.engine ▸ hConverses), h.engine,
    maxFirings_engine]

theorem Ongoing.hear (h : Ongoing turns s) (hHeard : Heard m) (hFits : Fits s.state m) :
    Ongoing (turns + 1) (s.hear [m]).2 := by
  have hRules : s.engine.rules = defaultRules := by
    rw [h.engine]
    rfl
  obtain ⟨u, n, k, hConverses, hIff, hWithin⟩ := proceeds_of_heard h.within hHeard
  have hCeiling : n ≤ s.engine.config.maxFirings.toNat ∧ k ≤ s.engine.config.maxFirings.toNat := by
    rw [h.engine, maxFirings_engine]
    exact hIff.mpr hFits
  obtain ⟨reply, s', hCall, hEngine, version, hState⟩ :=
    s.exists_converse_of_converses hRules (h.engine ▸ hConverses) hCeiling.1 hCeiling.2
  have hTask : SameTask u s'.state := by
    rw [hState]
    exact ⟨rfl, rfl, rfl, rfl, rfl⟩
  rw [Session.hear, hCall]
  exact ⟨hEngine.trans h.engine,
    hTask.within hWithin (Nat.le_of_eq (by rw [hState])) (Nat.le_refl _)⟩

/-- By induction on what is still to be heard: up to the first turn that does not fit, each one
returns and keeps the count. -/
theorem returnsAll_iff_fitsAll (h : Ongoing turns s)
    (hHeard : ∀ moves ∈ inputs, ∃ m, moves = [m] ∧ Heard m) :
    s.returnsAll inputs = true ↔ FitsAll s inputs := by
  induction inputs generalizing s turns with
  | nil => exact iff_of_true rfl trivial
  | cons moves inputs ih =>
    obtain ⟨m, rfl, hMove⟩ := hHeard moves List.mem_cons_self
    have hRest := fun moves hMem => hHeard moves (List.mem_cons_of_mem _ hMem)
    rw [Session.returnsAll, FitsAll, Bool.and_eq_true, h.isOk_hear_iff hMove]
    constructor
    · rintro ⟨hFits, hReturns⟩
      refine ⟨fun x hMem => List.mem_singleton.mp hMem ▸ hFits, ?_⟩
      exact (ih (h.hear hMove hFits) hRest).mp hReturns
    · rintro ⟨hFits, hFitsAll⟩
      have hFits := hFits m List.mem_cons_self
      exact ⟨hFits, (ih (h.hear hMove hFits) hRest).mpr hFitsAll⟩

/-- By induction on what is still to be heard, each turn taking up one of the 129. -/
theorem fitsAll_of_length_le (h : Ongoing turns s)
    (hHeard : ∀ moves ∈ inputs, ∃ m, moves = [m] ∧ Heard m)
    (hTurns : turns + inputs.length ≤ 129) : FitsAll s inputs := by
  induction inputs generalizing s turns with
  | nil => trivial
  | cons moves inputs ih =>
    obtain ⟨m, rfl, hMove⟩ := hHeard moves List.mem_cons_self
    rw [List.length_cons] at hTurns
    have hFits := fits_of_within h.within (by omega) hMove
    refine ⟨fun x hMem => List.mem_singleton.mp hMem ▸ hFits, ?_⟩
    exact ih (h.hear hMove hFits) (fun moves hMem => hHeard moves (List.mem_cons_of_mem _ hMem))
      (by omega)

theorem within_start : Within 0 0 Console.session.start.2.state := by
  have hAgenda : Console.session.start.2.state.own.agenda = [] := by decide +kernel
  have hPlan : Console.session.start.2.state.own.plan = [] := by decide +kernel
  have hBel : Console.session.start.2.state.own.bel = [pizza] := by decide +kernel
  have hCount : Console.session.start.2.state.own.noInputCount = 0 := by decide +kernel
  have hQud : Console.session.start.2.state.shared.qud = [] := by decide +kernel
  have hCom : Console.session.start.2.state.shared.com = [] := by decide +kernel
  have hForm : IsOpenForm whichRoom slots [pizza] [] := ⟨by decide, by simp, by decide⟩
  have hCollects : Collects [] slots Console.session.start.2.state :=
    ⟨rfl, by simp, hBel ▸ hCom ▸ hForm, fun hNil => by cases hNil⟩
  refine ⟨⟨by simp [hAgenda], ⟨[], hBel, by simp⟩, .inr ⟨?_, hAgenda⟩⟩, by simp [hQud], 0, 0,
    .idle hPlan hQud hCollects, ?_, Nat.le_refl _⟩
  · exact isResolved_eq_false (by simp [hCom])
  · simp [hQud, hCount]

theorem ongoing_start : Ongoing 0 Console.session.start.2 :=
  ⟨Console.session.engine_converse _, within_start⟩

/-- The user asks for the room 128 times before giving the day and the course. -/
def insistent : List (Option String) :=
  List.replicate 128 (some "where is the lecture?") ++
    [some "friday", some "dialogue systems 2"]

theorem returnsAll_insistent :
    Console.session.start.2.returnsAll (insistent.filterMap hearing) = false := by
  decide +kernel

theorem length_insistent : (insistent.filterMap hearing).length = 130 := by decide +kernel

theorem session_default : session {} = .ok Console.session := by
  rw [session, Session.new, Engine.new]
  split
  · rfl
  · next hFault =>
    have hValid : ({} : Config).fault? = none := Console.session.engine.valid
    rw [hValid] at hFault
    cases hFault

theorem heard_of_hearing (inputs : List (Option String)) :
    ∀ moves ∈ inputs.filterMap hearing, ∃ m, moves = [m] ∧ Heard m := by
  intro moves hMem
  obtain ⟨line, _, hLine⟩ := List.mem_filterMap.mp hMem
  exact exists_heard hLine

/-- The console opens its session, and from then on every call returns exactly as long as the turns
fit. The first 129 always do. -/
theorem exists_session_returnsAll_iff_fitsAll (inputs : List (Option String)) :
    ∃ s, session {} = .ok s ∧ s.start.1.isOk = true ∧
      (s.start.2.returnsAll (inputs.filterMap hearing) = true ↔
        FitsAll s.start.2 (inputs.filterMap hearing)) ∧
      ((inputs.filterMap hearing).length ≤ 129 →
        s.start.2.returnsAll (inputs.filterMap hearing) = true) := by
  have hReturns := returnsAll_iff_fitsAll ongoing_start (heard_of_hearing inputs)
  refine ⟨Console.session, session_default, by decide +kernel, hReturns, fun hShort => ?_⟩
  exact hReturns.mpr (fitsAll_of_length_le ongoing_start (heard_of_hearing inputs) (by omega))

/-- Some dialogue of each greater length is refused. -/
theorem forall_returnsAll_iff (n : Nat) :
    (∀ inputs : List (Option String), (inputs.filterMap hearing).length = n →
      Console.session.start.2.returnsAll (inputs.filterMap hearing) = true) ↔ n ≤ 129 := by
  constructor
  · intro hReturns
    by_contra hLong
    -- The refused dialogue is of length 130; silence makes it longer.
    have hSilence : (List.replicate (n - 130) (none : Option String)).filterMap hearing =
        List.replicate (n - 130) [⟨.noInput, none⟩] := by
      rw [List.filterMap_replicate]
      rfl
    have hAll := hReturns (insistent ++ List.replicate (n - 130) none) (by
      rw [List.filterMap_append, List.length_append, length_insistent, hSilence,
        List.length_replicate]
      omega)
    rw [List.filterMap_append] at hAll
    have hRefused := Session.returnsAll_append hAll
    rw [returnsAll_insistent] at hRefused
    cases hRefused
  · rintro hShort inputs rfl
    have hFits := fitsAll_of_length_le ongoing_start (heard_of_hearing inputs) (by omega)
    exact (returnsAll_iff_fitsAll ongoing_start (heard_of_hearing inputs)).mpr hFits

theorem insistent_is_refused : ¬ ∀ inputs : List (Option String),
    Console.session.start.2.returnsAll (inputs.filterMap hearing) = true := by
  intro hReturns
  have hRefused := hReturns insistent
  rw [returnsAll_insistent] at hRefused
  cases hRefused

end Dialogue.Lecture
