import Dialogue.Proofs.Cycle.Comments

/-! # The shape of replies

A reply is what is said of the user's turn and then one move of the system's own at most. So it adds
one thing at most to what is under discussion or agreed on.
-/

namespace Dialogue.Engine

open Update

variable {e : Engine} {input : TurnInput} {s t u : InformationState} {r : Rule} {rs : List Rule}
  {m : Move} {q : Question} {p : Proposition} {com : List Proposition} {moves : List Move}
  {tops : Question → Prop}

/-- A move that the system makes by its own choice. -/
inductive Chosen (s : InformationState) : Move → Prop where
  | ask (q : Question) : Chosen s ⟨.ask q, none⟩
  | answer {p : Proposition} : p ∈ s.own.bel → p ∉ s.shared.com →
      Chosen s ⟨.answer (.full p), none⟩
  | greet : Chosen s ⟨.greet, none⟩

theorem Chosen.of_bel (h : Chosen s m) (hBel : s.own.bel ⊆ t.own.bel)
    (hCom : t.shared.com = s.shared.com) : Chosen t m := by
  cases h with
  | ask q => exact .ask q
  | answer hMem hFresh => exact .answer (hBel hMem) (hCom ▸ hFresh)
  | greet => exact .greet

/-- What has been chosen since `s`, where nothing but pursuit and selection was left. -/
inductive Chooses (s t : InformationState) : List Move → Prop where
  | nothing : t.turn.selected = s.turn.selected → Chooses s t []
  | move {m : Move} : s.turn.selected = false → t.turn.selected = true → Chosen t m →
      Chooses s t [m]

theorem mem_of_answerable? (h : answerable? s q = some p) : p ∈ s.own.bel ∧ p ∉ s.shared.com := by
  have hMem := List.mem_of_find?_eq_some h
  simpa [InformationState.unsharedBeliefs] using hMem

theorem selected_of_maySelect (h : (e.context input s).maySelect = true) :
    s.turn.selected = false := by
  rw [Context.maySelect, Bool.and_eq_true, Bool.not_eq_true'] at h
  exact h.2

/-- What pursuit and selection have made of the state `s` by now. -/
structure Pursued (s t : InformationState) : Prop where
  com : t.shared.com = s.shared.com
  moves : ∃ chosen, Chooses s t chosen ∧ t.nextMoves = s.nextMoves ++ chosen

theorem Pursued.of_same (h : Pursued s t) (hMoves : u.nextMoves = t.nextMoves)
    (hSelected : u.turn.selected = t.turn.selected) (hBel : t.own.bel ⊆ u.own.bel)
    (hCom : u.shared.com = t.shared.com) : Pursued s u := by
  obtain ⟨hSame, chosen, hChooses, hSaid⟩ := h
  have hChooses' : Chooses s u chosen := by
    cases hChooses with
    | nothing hKept => exact .nothing (hSelected.trans hKept)
    | move hOpen hDone hChosen =>
      exact .move hOpen (hSelected.trans hDone) (hChosen.of_bel hBel hCom)
  exact ⟨hCom.trans hSame, chosen, hChooses', hMoves.trans hSaid⟩

/-- A move is chosen only while none is. -/
theorem Pursued.choose (h : Pursued s t) (hOpen : t.turn.selected = false)
    (hDone : u.turn.selected = true) (hCom : u.shared.com = t.shared.com) (hChosen : Chosen u m)
    (hMoves : u.nextMoves = t.nextMoves ++ [m]) : Pursued s u := by
  obtain ⟨hSame, chosen, hChooses, hSaid⟩ := h
  cases hChooses with
  | nothing hKept =>
    rw [List.append_nil] at hSaid
    exact ⟨hCom.trans hSame, [m], .move (hKept ▸ hOpen) hDone hChosen, hSaid ▸ hMoves⟩
  | move _ hSelected _ =>
    rw [hOpen] at hSelected
    cases hSelected

theorem Pursued.fires (h : Pursued s t) (hRank : rank findPlan ≤ rank r)
    (hFires : Fires e input t r u) : Pursued s u := by
  cases hFires with
  | loaded | foundOut | copied | tookUp => exact h.of_same rfl rfl (List.Subset.refl _) rfl
  | consulted => exact h.of_same rfl rfl (List.subset_append_left _ _) rfl
  | @asked _ q _ hMay => exact h.choose (selected_of_maySelect hMay) rfl rfl (.ask q) rfl
  | answered hMay _ hAnswer =>
    obtain ⟨hMem, hFresh⟩ := mem_of_answerable? hAnswer
    exact h.choose (selected_of_maySelect hMay) rfl rfl (.answer hMem hFresh) rfl
  | greets hMay => exact h.choose (selected_of_maySelect hMay) rfl rfl .greet rfl
  | _ => exact absurd hRank (by decide)

section

variable (hRules : e.rules = defaultRules)
include hRules

theorem Trace.pursued (h : e.Trace input s rs t) (hLate : ∀ r ∈ rs, rank findPlan ≤ rank r) :
    Pursued s t := by
  refine h.preserves (P := Pursued s) hRules ?_ hLate ?_
  · intro t r u hPursued hRank hFires
    exact hPursued.fires hRank hFires
  · exact ⟨rfl, [], .nothing rfl, (List.append_nil _).symm⟩

/-- A reply is what is said of the user's turn and then what is chosen. -/
theorem Trace.exists_commented (h : e.Trace input s.beginTurn rs t) :
    ∃ u, Commented e input u ∧ Pursued u t := by
  obtain ⟨taken, pursued, u, -, -, hPursued, hCommented, -, hLate⟩ := h.exists_comment hRules
  exact ⟨u, hCommented, hPursued.pursued hRules hLate⟩

end

/-- A move of a reply that adds nothing to what is under discussion or agreed on: a remark, or an
answer that is a commitment by then. -/
def Noted (com : List Proposition) (m : Move) : Prop :=
  IsRemark m ∨ ∃ p ∈ com, m = ⟨.answer (.full p), none⟩

theorem Noted.asked?_eq_none (h : Noted com m) : m.asked? = none := by
  rcases h with ⟨-, hAsked, -⟩ | ⟨p, -, rfl⟩
  · exact hAsked
  · rfl

theorem Noted.mem_of_answered (h : Noted com m)
    (hAnswered : m.answered? = some (.full p)) : p ∈ com := by
  rcases h with ⟨-, -, hNone⟩ | ⟨p', hMem, rfl⟩
  · rw [hNone] at hAnswered
    cases hAnswered
  · cases hAnswered
    exact hMem

theorem Noted.mute (h : Noted s.shared.com m)
    (hOpen : ∀ q, tops q → s.isResolved q = false) : e.Mute tops m := by
  rcases h with hRemark | ⟨p, hMem, rfl⟩
  · exact hRemark.mute tops
  · constructor
    · rfl
    · rfl
    · intro a q hAnswered hTop
      cases hAnswered
      exact Bool.eq_false_iff.mpr (List.any_eq_false.mp (hOpen q hTop) p hMem)

/-- What a reply comes to, next to moves that add nothing. -/
inductive Replied (com : List Proposition) : List Move → Prop where
  | noted {moves : List Move} : (∀ x ∈ moves, Noted com x) → Replied com moves
  | ask {before after : List Move} (q : Question) : (∀ x ∈ before, Noted com x) →
      (∀ x ∈ after, Noted com x) → Replied com (before ++ ⟨.ask q, none⟩ :: after)
  | answer {before : List Move} (p : Proposition) : (∀ x ∈ before, Noted com x) →
      Replied com (before ++ [⟨.answer (.full p), none⟩])
  | greet {before : List Move} : (∀ x ∈ before, Noted com x) →
      Replied com (before ++ [⟨.greet, none⟩])

theorem Replied.cases_of_mem (h : Replied com moves) (hMem : m ∈ moves) : Noted com m ∨
      (∃ q before after, m = ⟨.ask q, none⟩ ∧ moves = before ++ m :: after ∧
        (∀ x ∈ before, Noted com x) ∧ ∀ x ∈ after, Noted com x) ∨
      (∃ p before, m = ⟨.answer (.full p), none⟩ ∧ moves = before ++ [m] ∧
        ∀ x ∈ before, Noted com x) ∨ m = ⟨.greet, none⟩ := by
  cases h with
  | noted hNoted => exact .inl (hNoted m hMem)
  | ask q hBefore hAfter =>
    rcases List.mem_append.mp hMem with hEarly | hRest
    · exact .inl (hBefore m hEarly)
    · rcases List.mem_cons.mp hRest with rfl | hLate
      · exact .inr (.inl ⟨q, _, _, rfl, rfl, hBefore, hAfter⟩)
      · exact .inl (hAfter m hLate)
  | answer p hBefore =>
    rcases List.mem_append.mp hMem with hEarly | hLast
    · exact .inl (hBefore m hEarly)
    · obtain rfl := List.mem_singleton.mp hLast
      exact .inr (.inr (.inl ⟨p, _, rfl, rfl, hBefore⟩))
  | greet hBefore =>
    rcases List.mem_append.mp hMem with hEarly | hLast
    · exact .inl (hBefore m hEarly)
    · exact .inr (.inr (.inr (List.mem_singleton.mp hLast)))

theorem Replied.exists_ask (h : Replied com moves) (hMem : m ∈ moves) (hAsked : m.asked? = some q) :
    ∃ before after, moves = before ++ ⟨.ask q, none⟩ :: after ∧
      (∀ x ∈ before, Noted com x) ∧ ∀ x ∈ after, Noted com x := by
  rcases h.cases_of_mem hMem with
    hNoted | ⟨q', before, after, rfl, hMoves, hOthers⟩ | ⟨p, before, rfl, -⟩ | rfl
  · rw [hNoted.asked?_eq_none] at hAsked
    cases hAsked
  · cases hAsked
    exact ⟨before, after, hMoves, hOthers⟩
  · cases hAsked
  · cases hAsked

theorem Replied.exists_answer (h : Replied com moves) (hMem : m ∈ moves)
    (hAnswered : m.answered? = some (.full p)) (hFresh : p ∉ com) :
    ∃ before, moves = before ++ [⟨.answer (.full p), none⟩] ∧ ∀ x ∈ before, Noted com x := by
  rcases h.cases_of_mem hMem with
    hNoted | ⟨q, before, after, rfl, -⟩ | ⟨p', before, rfl, hMoves, hBefore⟩ | rfl
  · exact absurd (hNoted.mem_of_answered hAnswered) hFresh
  · cases hAnswered
  · cases hAnswered
    exact ⟨before, hMoves, hBefore⟩
  · cases hAnswered

theorem replied_askFor {before after : List Move} (top : Option Question)
    (hBefore : ∀ x ∈ before, IsRemark x) (hAfter : ∀ x ∈ after, IsRemark x) :
    Replied com (before ++ askFor top ++ after) := by
  cases top with
  | none =>
    apply Replied.noted
    intro x hMem
    rw [askFor, Option.toList_none, List.map_nil, List.append_nil] at hMem
    exact .inl ((List.mem_append.mp hMem).elim (hBefore x) (hAfter x))
  | some q =>
    rw [askFor, Option.toList_some, List.map_singleton, List.append_assoc]
    apply Replied.ask
    · exact fun x hMem => .inl (hBefore x hMem)
    · exact fun x hMem => .inl (hAfter x hMem)

/-- What is said of the user's turn adds nothing, or it asks a question again and ends the turn. -/
theorem Commented.noted_or_asked (h : Commented e input s) :
    (∀ x ∈ s.nextMoves, Noted s.shared.com x) ∨ s.turn.selected = true ∧
      ∃ before top after, (∀ x ∈ before, IsRemark x) ∧ (∀ x ∈ after, IsRemark x) ∧
        s.nextMoves = before ++ askFor top ++ after := by
  cases h with
  | nothing hNone => simp [hNone]
  | reprompted top _ hSaid hDone =>
    right
    exact ⟨hDone, [⟨.noInput, none⟩], top, [], by simp, by simp, by simp [hSaid]⟩
  | assumed p _ _ hMem hSaid =>
    left
    simpa [hSaid] using .inr ⟨p, hMem, rfl⟩
  | clarified top _ hSaid _ hDone =>
    right
    exact ⟨hDone, [], top, _, by simp, by simp, hSaid⟩
  | acknowledged _ hSaid =>
    left
    simpa [hSaid] using .inl (isRemark_acknowledge _)
  | hinted acks q f _ _ hAcks hSaid _ hDone =>
    right
    have hRemarks : ∀ x ∈ acks, IsRemark x := by
      rcases hAcks with rfl | rfl
      · simp
      · simp
    exact ⟨hDone, acks, some q, [⟨.inform f.hint, none⟩], hRemarks, by simp,
      by simp [hSaid, askFor]⟩

theorem Pursued.replied (h : Pursued s t) (hCommented : Commented e input s) :
    Replied t.shared.com t.nextMoves := by
  obtain ⟨hCom, chosen, hChooses, hSaid⟩ := h
  rw [hSaid]
  rcases hCommented.noted_or_asked with
    hNoted | ⟨hDone, before, top, after, hBefore, hAfter, hAgain⟩
  · rw [← hCom] at hNoted
    cases hChooses with
    | nothing =>
      rw [List.append_nil]
      exact .noted hNoted
    | move _ _ hChosen =>
      cases hChosen with
      | ask q => exact .ask q hNoted (by simp)
      | @answer p _ _ => exact .answer p hNoted
      | greet => exact .greet hNoted
  · cases hChooses with
    | nothing =>
      rw [List.append_nil, hAgain]
      exact replied_askFor top hBefore hAfter
    | move hOpen _ _ =>
      rw [hDone] at hOpen
      cases hOpen

theorem Chosen.isNoInput_eq_false (h : Chosen s m) : m.isNoInput = false := by
  cases h with
  | _ => rfl

theorem isNoInput_of_mem_askFor {top : Option Question} (h : m ∈ askFor top) :
    m.isNoInput = false := by
  obtain ⟨q, -, rfl⟩ := List.mem_map.mp h
  rfl

/-- What is said of the user's turn is that nothing was heard, or says no such thing. -/
theorem Commented.nothingHeard_first (h : Commented e input s) :
    (∀ m ∈ s.nextMoves, m.isNoInput = false) ∨
      s.turn.selected = true ∧ ∃ top, s.nextMoves = ⟨.noInput, none⟩ :: askFor top := by
  cases h with
  | nothing hNone => simp [hNone]
  | reprompted top _ hSaid hDone => exact .inr ⟨hDone, top, hSaid⟩
  | assumed p _ _ _ hSaid =>
    left
    simp [hSaid, Move.isNoInput]
  | clarified top _ hSaid =>
    left
    intro m hMem
    rw [hSaid, List.mem_append, List.mem_singleton] at hMem
    rcases hMem with hAsked | rfl
    · exact isNoInput_of_mem_askFor hAsked
    · rfl
  | acknowledged _ hSaid =>
    left
    simp [hSaid, Move.isNoInput]
  | hinted acks q f _ _ hAcks hSaid =>
    left
    rcases hAcks with rfl | rfl
    · simp [hSaid, Move.isNoInput]
    · simp [hSaid, Move.isNoInput]

theorem Pursued.nothingHeard_first (h : Pursued s t) (hCommented : Commented e input s) :
    (∀ m ∈ t.nextMoves, m.isNoInput = false) ∨
      ∃ top, t.nextMoves = ⟨.noInput, none⟩ :: askFor top := by
  obtain ⟨-, chosen, hChooses, hSaid⟩ := h
  rw [hSaid]
  cases hChooses with
  | nothing =>
    rw [List.append_nil]
    exact hCommented.nothingHeard_first.imp_right And.right
  | move hOpen _ hChosen =>
    rcases hCommented.nothingHeard_first with hNone | ⟨hDone, -⟩
    · left
      intro m hMem
      rcases List.mem_append.mp hMem with hComment | hChoice
      · exact hNone m hComment
      · rw [List.mem_singleton.mp hChoice]
        exact hChosen.isNoInput_eq_false
    · rw [hDone] at hOpen
      cases hOpen

theorem Pursued.countP_isNoInput_le (h : Pursued s t) (hCommented : Commented e input s) :
    t.nextMoves.countP (·.isNoInput) ≤ 1 := by
  rcases h.nothingHeard_first hCommented with hNone | ⟨top, hSaid⟩
  · rw [List.countP_eq_zero.mpr fun m hMem => by simp [hNone m hMem]]
    exact Nat.zero_le 1
  · have hRest : (askFor top).countP (·.isNoInput) = 0 :=
      List.countP_eq_zero.mpr fun m hMem => by simp [isNoInput_of_mem_askFor hMem]
    rw [hSaid, List.countP_cons, hRest]
    exact Nat.le_refl 1

theorem length_askFor_le (top : Option Question) : (askFor top).length ≤ 1 := by
  cases top with
  | none => exact Nat.zero_le 1
  | some q => exact Nat.le_refl 1

theorem Pursued.length_nextMoves_le (h : Pursued s t) (hCommented : Commented e input s) :
    t.nextMoves.length ≤ 4 := by
  obtain ⟨-, chosen, hChooses, hSaid⟩ := h
  have hChosen : chosen.length ≤ 1 := by
    cases hChooses with
    | nothing => exact Nat.zero_le 1
    | move => exact Nat.le_refl 1
  have hComment : s.nextMoves.length ≤ 3 := by
    cases hCommented with
    | nothing hNone => simp [hNone]
    | reprompted top _ hMoves | clarified top _ hMoves =>
      have hTop := length_askFor_le top
      simp [hMoves]
      omega
    | assumed p _ _ _ hMoves | acknowledged _ hMoves => simp [hMoves]
    | hinted acks q f _ _ hAcks hMoves =>
      rcases hAcks with rfl | rfl
      · simp [hMoves]
      · simp [hMoves]
  rw [hSaid, List.length_append]
  omega

theorem exists_pursued_of_run (hRules : e.rules = defaultRules)
    (hRun : (e.run s input).outcome = .ok t) :
    ∃ u v, Commented e input u ∧ Pursued u v ∧ t = v.endTurn := by
  obtain ⟨rs, v, hTrace, -, -, hEnd⟩ := run_outcome_eq_ok_iff.mp hRun
  obtain ⟨u, hCommented, hPursued⟩ := hTrace.exists_commented hRules
  exact ⟨u, v, hCommented, hPursued, hEnd⟩

end Dialogue.Engine
