import Dialogue.Proofs.Session.Calls
import Dialogue.Proofs.Session.Echoes

/-! # Where beliefs come from

A dialogue starts with beliefs and looks up more. Beliefs are never given up, so what was looked up
on earlier commitments is still told when newer ones have overtaken them.
-/

namespace Dialogue

open Update

namespace Engine

variable {e : Engine} {input : TurnInput} {s t : InformationState} {r : Rule}
  {beliefs : List Proposition} {p : Proposition} {m : Move}

/-- Each belief was there from the start or was looked up, on commitments that have only been added
to since. -/
def Sourced (e : Engine) (beliefs : List Proposition) (s : InformationState) : Prop :=
  ∀ p ∈ s.own.bel, p ∈ beliefs ∨
    ∃ q com, com <:+ s.shared.com ∧ e.database.consult q com = some p

theorem Sourced.fires (h : Sourced e beliefs s) (hFires : Fires e input s r t) :
    Sourced e beliefs t := by
  have hKept {p : Proposition} (hMem : p ∈ s.own.bel) : p ∈ beliefs ∨
      ∃ q com, com <:+ t.shared.com ∧ e.database.consult q com = some p := by
    rcases h p hMem with hInitial | ⟨q, com, hEarlier, hFound⟩
    · exact .inl hInitial
    · exact .inr ⟨q, com, hEarlier.trans hFires.com_suffix, hFound⟩
  intro p hMem
  cases hFires with
  | consulted _ hFound =>
    rcases List.mem_append.mp hMem with hOld | hNew
    · exact hKept hOld
    · obtain rfl := List.mem_singleton.mp hNew
      exact .inr ⟨_, _, List.suffix_refl _, hFound⟩
  | _ => exact hKept hMem

theorem lasting_sourced (e : Engine) (beliefs : List Proposition) :
    e.Lasting (Sourced e beliefs) := by
  constructor
  · exact fun _ h => h
  · exact fun _ _ _ _ h hFires => h.fires hFires
  · exact fun _ h => h

theorem answered?_of_mem_askFor {top : Option Question} (h : m ∈ askFor top) :
    m.answered? = none := by
  obtain ⟨q, -, rfl⟩ := List.mem_map.mp h
  rfl

/-- Of the user's turn the system says nothing that it answers, unless it assumes a default. -/
theorem Commented.default_of_answered (h : Commented e input s) (hMem : m ∈ s.nextMoves)
    (hTold : m.answered? = some (.full p)) : e.domain.default? p.predicate = some p := by
  have hAsks {top : Option Question} : m ∉ askFor top := by
    intro hAsked
    rw [answered?_of_mem_askFor hAsked] at hTold
    cases hTold
  cases h with
  | nothing hNone =>
    rw [hNone] at hMem
    cases hMem
  | reprompted top _ hSaid =>
    rw [hSaid, List.mem_cons] at hMem
    rcases hMem with rfl | hAsked
    · cases hTold
    · exact absurd hAsked hAsks
  | assumed p' _ hDefault _ hSaid =>
    rw [hSaid, List.mem_singleton] at hMem
    subst hMem
    cases hTold
    exact hDefault
  | clarified top _ hSaid =>
    rw [hSaid, List.mem_append, List.mem_singleton] at hMem
    rcases hMem with hAsked | rfl
    · exact absurd hAsked hAsks
    · cases hTold
  | acknowledged _ hSaid =>
    rw [hSaid, List.mem_singleton] at hMem
    subst hMem
    cases hTold
  | hinted acks q f _ _ hAcks hSaid =>
    have hRemarks : ∀ x ∈ acks, x.answered? = none := by
      rcases hAcks with rfl | rfl
      · simp
      · simp [Move.answered?]
    rw [hSaid, List.mem_append, List.mem_cons, List.mem_singleton] at hMem
    rcases hMem with hAck | rfl | rfl
    · rw [hRemarks m hAck] at hTold
      cases hTold
    · cases hTold
    · cases hTold

theorem Pursued.default_or_believed (h : Pursued s t) (hCommented : Commented e input s)
    (hMem : m ∈ t.nextMoves) (hTold : m.answered? = some (.full p)) :
    e.domain.default? p.predicate = some p ∨ p ∈ t.own.bel := by
  obtain ⟨-, chosen, hChooses, hSaid⟩ := h
  rw [hSaid] at hMem
  rcases List.mem_append.mp hMem with hComment | hChoice
  · exact .inl (hCommented.default_of_answered hComment hTold)
  · cases hChooses with
    | nothing => cases hChoice
    | move _ _ hChosen =>
      obtain rfl := List.mem_singleton.mp hChoice
      cases hChosen with
      | ask | greet => cases hTold
      | answer hBelieved =>
        cases hTold
        exact .inr hBelieved

end Engine

namespace Session

open Engine

variable {s s' : Session} {moves reply : List Move} {m : Move}
  {beliefs : List Proposition} {p : Proposition}

/-- What the system tells is a default, a belief from the start, or what a lookup gave on
commitments that have only been added to since. -/
theorem exists_source_of_told (hRules : s.engine.rules = defaultRules)
    (hSourced : Sourced s.engine beliefs s.state) (hHear : s.hear moves = (.ok reply, s'))
    (hMem : m ∈ reply) (hTold : m.answered? = some (.full p)) :
    s.engine.domain.default? p.predicate = some p ∨ p ∈ beliefs ∨
      ∃ q com, com <:+ s'.state.shared.com ∧ s.engine.database.consult q com = some p := by
  obtain ⟨s₁, hStep, hEcho⟩ := exists_steps_of_converse_ok hHear
  obtain ⟨reply', hEcho⟩ := hEcho (List.ne_nil_of_mem hMem)
  have hEngine := engine_of_step hStep
  have hKept := com_suffix_of_step (hEngine ▸ hRules) hEcho
  obtain ⟨rs, t, hTrace, -, -, hState, rfl⟩ := exists_trace_of_step hStep
  obtain ⟨u, hCommented, hPursued⟩ := hTrace.exists_commented hRules
  have hSourced' : Sourced s.engine beliefs t :=
    hTrace.invariant hRules ((lasting_sourced s.engine beliefs).fires _) hSourced
  rcases hPursued.default_or_believed hCommented hMem hTold with hDefault | hBelieved
  · exact .inl hDefault
  · rcases hSourced' p hBelieved with hInitial | ⟨q, com, hEarlier, hFound⟩
    · exact .inr (.inl hInitial)
    · rw [hState] at hKept
      exact .inr (.inr ⟨q, com, hEarlier.trans hKept, hFound⟩)

end Session

end Dialogue
