import Mathlib.Data.List.Forall2
import Dialogue.Proofs.Session.Calls

/-! # Dialogues in lockstep

Sessions that cannot be told apart by a single cycle cannot be told apart by any dialogue. What two
cycles do on related inputs is carried over to calls, with the system hearing itself, and to any
sequence of calls.
-/

namespace Dialogue.Session

variable {s t : Session} {i i' : TurnInput} {said : List Move → List Move → Prop}
  {heard : TurnInput → TurnInput → Prop} {related : Session → Session → Prop}

/-- Both are refused for the same reason, or both return and say what is related. -/
inductive RepliesAlike (said : List Move → List Move → Prop) : Reply → Reply → Prop where
  | refused (fault : NoProgress) : RepliesAlike said (.error fault) (.error fault)
  | returned {moves moves' : List Move} : said moves moves' →
      RepliesAlike said (.ok moves) (.ok moves')

/-- The same call twice, but for what is heard in it. -/
inductive CallsAlike (heard : TurnInput → TurnInput → Prop) : Call → Call → Prop where
  | step {i i' : TurnInput} : heard i i' → CallsAlike heard (.step i) (.step i')
  | start : heard (.user []) (.user []) → CallsAlike heard .start .start
  | hear {moves moves' : List Move} : heard (.user moves) (.user moves') →
      CallsAlike heard (.hear moves) (.hear moves')

theorem RepliesAlike.refl (h : ∀ moves, said moves moves) (reply : Reply) :
    RepliesAlike said reply reply := by
  cases reply with
  | error fault => exact .refused fault
  | ok moves => exact .returned (h moves)

theorem CallsAlike.of_heard (h : ∀ i, heard i i) (c : Call) : CallsAlike heard c c := by
  cases c with
  | step i => exact .step (h i)
  | start => exact .start (h _)
  | hear moves => exact .hear (h _)

/-- What tells no replies apart that are related tells no two dialogues of such replies apart. -/
theorem map_eq_of_repliesAlike {β : Type} {f : Reply → β} {replies replies' : List Reply}
    (hSame : ∀ a b, RepliesAlike said a b → f a = f b)
    (h : List.Forall₂ (RepliesAlike said) replies replies') : replies.map f = replies'.map f := by
  induction h with
  | nil => rfl
  | cons hReply _ ih => rw [List.map_cons, List.map_cons, hSame _ _ hReply, ih]

/-- Related sessions stay related, and say what is related, when what they hear is. -/
structure Lockstep (said : List Move → List Move → Prop) (heard : TurnInput → TurnInput → Prop)
    (related : Session → Session → Prop) : Prop where
  step : ∀ s t i i', related s t → heard i i' →
    RepliesAlike said (s.step i).1 (t.step i').1 ∧ related (s.step i).2 (t.step i').2
  echo : ∀ moves moves', said moves moves' → heard (.echo moves) (.echo moves')
  silent : ∀ moves moves', said moves moves' → (moves = [] ↔ moves' = [])

theorem Lockstep.converse (h : Lockstep said heard related) (hRelated : related s t)
    (hHeard : heard i i') : RepliesAlike said (s.converse i).1 (t.converse i').1 ∧
      related (s.converse i).2 (t.converse i').2 := by
  obtain ⟨hReply, hNext⟩ := h.step s t i i' hRelated hHeard
  rw [Session.converse, Session.converse]
  generalize s.step i = first at hReply hNext
  generalize t.step i' = first' at hReply hNext
  obtain ⟨reply, s₁⟩ := first
  obtain ⟨reply', t₁⟩ := first'
  cases hReply with
  | refused fault => exact ⟨.refused fault, hNext⟩
  | @returned moves moves' hSaid =>
    cases moves with
    | nil =>
      obtain rfl : moves' = [] := (h.silent _ _ hSaid).mp rfl
      exact ⟨.returned hSaid, hNext⟩
    | cons m rest =>
      cases moves' with
      | nil => cases (h.silent _ _ hSaid).mpr rfl
      | cons m' rest' =>
        obtain ⟨hEcho, hLast⟩ := h.step s₁ t₁ _ _ hNext (h.echo _ _ hSaid)
        simp only
        generalize s₁.step (.echo (m :: rest)) = second at hEcho hLast
        generalize t₁.step (.echo (m' :: rest')) = second' at hEcho hLast
        obtain ⟨echoed, s₂⟩ := second
        obtain ⟨echoed', t₂⟩ := second'
        cases hEcho with
        | refused fault => exact ⟨.refused fault, hLast⟩
        | returned _ => exact ⟨.returned hSaid, hLast⟩

theorem Lockstep.call (h : Lockstep said heard related) (hRelated : related s t) {c c' : Call}
    (hCall : CallsAlike heard c c') : RepliesAlike said (s.call c).1 (t.call c').1 ∧
      related (s.call c).2 (t.call c').2 := by
  cases hCall with
  | step hHeard => exact h.step _ _ _ _ hRelated hHeard
  | start hHeard | hear hHeard => exact h.converse hRelated hHeard

/-- Two dialogues of related calls go on side by side. -/
theorem Lockstep.after (h : Lockstep said heard related) (hRelated : related s t)
    {calls calls' : List Call} (hCalls : List.Forall₂ (CallsAlike heard) calls calls') :
    List.Forall₂ (RepliesAlike said) (s.answers calls) (t.answers calls') ∧
      related (s.after calls) (t.after calls') := by
  induction hCalls generalizing s t with
  | nil => exact ⟨.nil, hRelated⟩
  | cons hCall _ ih =>
    obtain ⟨hReply, hNext⟩ := h.call hRelated hCall
    obtain ⟨hReplies, hEnd⟩ := ih hNext
    exact ⟨.cons hReply hReplies, hEnd⟩

end Dialogue.Session
