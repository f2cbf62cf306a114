import Dialogue.Console
import Dialogue.Proofs.Update.Form

/-! # What the console hears

The moves that typed lines and silences come to, and what the lecture task makes of them.
-/

namespace Dialogue.Lecture

open Update Engine

abbrev engine : Engine := Console.session.engine

abbrev whichRoom : Question := ⟨bookingRoom⟩
abbrev whichFood : Question := ⟨favoriteFood⟩

/-- The questions whose answers the room is looked up by. -/
def slots : List Question := [⟨bookingDay⟩, ⟨bookingCourse⟩]

def pizza : Proposition := ⟨favoriteFood, "pizza"⟩

def answers : List String := "pizza" :: course :: (weekdays ++ weekend)

inductive Heard : Move → Prop where
  | silence {confidence : Option Float32} : Heard ⟨.noInput, confidence⟩
  | greet : Heard (Move.withConfidence ⟨.greet, none⟩ typedConfidence)
  | room : Heard (Move.withConfidence ⟨.ask whichRoom, none⟩ typedConfidence)
  | food : Heard (Move.withConfidence ⟨.ask whichFood, none⟩ typedConfidence)
  | answer {individual : String} : individual ∈ answers →
      Heard (Move.withConfidence ⟨.answer (.short individual), none⟩ typedConfidence)

/-- What is heard in a line, or in the silence of a missing one; nothing if no phrase is known. -/
def hearing : Option String → Option (List Move)
  | some line => interpret? line
  | none => some [⟨.noInput, none⟩]

theorem heard_of_phraseAct? {phrase : String} {act : Act} (h : phraseAct? phrase = some act) :
    Heard (Move.withConfidence ⟨act, none⟩ typedConfidence) := by
  rw [phraseAct?] at h
  split at h
  · cases h
    exact .silence
  split at h
  · cases h
    exact .greet
  split at h
  · cases h
    exact .room
  split at h
  · cases h
    exact .food
  split at h
  · cases h
    exact .answer (by simp [answers])
  split at h
  · cases h
    exact .answer (by simp [answers])
  split at h
  · next hDay =>
    cases h
    refine .answer (List.mem_cons_of_mem _ (List.mem_cons_of_mem _ ?_))
    exact List.contains_iff_mem.mp hDay
  · cases h

theorem exists_heard {line : Option String} {moves : List Move} (h : hearing line = some moves) :
    ∃ m, moves = [m] ∧ Heard m := by
  cases line with
  | none =>
    cases h
    exact ⟨_, rfl, .silence⟩
  | some line =>
    rw [hearing, interpret?, Option.map_eq_some_iff] at h
    obtain ⟨act, hAct, rfl⟩ := h
    exact ⟨_, rfl, heard_of_phraseAct? hAct⟩

theorem isUnclear_eq_false (act : Act) :
    (Move.withConfidence ⟨act, none⟩ typedConfidence).isUnclear engine.config.lowConfidence =
      false := by
  have hClear : decide (engine.config.lowConfidence ≤ clampUnit typedConfidence) = true := by
    decide +kernel
  have hCertainty : (Move.withConfidence ⟨act, none⟩ typedConfidence).certainty =
      clampUnit typedConfidence := rfl
  rw [Move.isUnclear, hCertainty, hClear, Bool.not_true, Bool.and_false]

theorem isSureAnswer_eq_false {input : TurnInput} {s : InformationState} (act : Act) :
    isSureAnswer (engine.context input s) (Move.withConfidence ⟨act, none⟩ typedConfidence) =
      false := by
  have hUnsure : decide (engine.config.acknowledge < clampUnit typedConfidence) = false := by
    decide +kernel
  have hCertainty : (Move.withConfidence ⟨act, none⟩ typedConfidence).certainty =
      clampUnit typedConfidence := rfl
  rw [isSureAnswer, context_config, hCertainty, hUnsure, Bool.and_false]

theorem issuePlan?_whichRoom : engine.domain.issuePlan? whichRoom = some roomPlan := by
  decide +kernel

theorem issuePlan?_whichFood : engine.domain.issuePlan? whichFood = none := by decide +kernel

theorem default?_whichRoom : engine.domain.default? bookingRoom = none := by decide +kernel

/-- Nothing that can be typed names a room. -/
theorem relevant_whichRoom :
    ∀ x ∈ answers, engine.domain.relevant (.short x) whichRoom = false := by
  decide +kernel

theorem predicate_of_consult {q : Question} {com : List Proposition} {p : Proposition}
    (h : rooms.consult q com = some p) : p.predicate = bookingRoom := by
  obtain ⟨row, hFind, rfl⟩ := Option.map_eq_some_iff.mp h
  obtain ⟨day, -, rfl⟩ := List.mem_map.mp (List.mem_of_find?_eq_some hFind)
  rfl

/-- The room is known only when all slots are filled in. -/
theorem consult_eq_none {q slot : Question} {com : List Proposition} (hSlot : slot ∈ slots)
    (hOpen : ∀ p ∈ com, p.predicate ≠ slot.predicate) : rooms.consult q com = none := by
  have hNone : factArgument com slot.predicate = none := by
    rw [factArgument, Option.map_eq_none_iff, List.find?_eq_none]
    intro p hMem hEq
    exact hOpen p hMem (beq_iff_eq.mp hEq)
  refine Option.map_eq_none_iff.mpr (List.find?_eq_none.mpr fun row hRow hApplies => ?_)
  obtain ⟨day, -, rfl⟩ := List.mem_map.mp hRow
  simp only [slots, List.mem_cons, List.not_mem_nil, or_false] at hSlot
  rcases hSlot with rfl | rfl
  · simp [Row.applies, hNone] at hApplies
  · simp [Row.applies, hNone] at hApplies

theorem consult_congr {q : Question} {com com' : List Proposition}
    (h : ∀ s ∈ slots, factArgument com s.predicate = factArgument com' s.predicate) :
    rooms.consult q com = rooms.consult q com' := by
  have hRows : ∀ day : String × String,
      Row.applies ⟨⟨bookingRoom⟩, [⟨bookingCourse, course⟩, ⟨bookingDay, day.1⟩],
        ⟨bookingRoom, day.2⟩⟩ q com =
      Row.applies ⟨⟨bookingRoom⟩, [⟨bookingCourse, course⟩, ⟨bookingDay, day.1⟩],
        ⟨bookingRoom, day.2⟩⟩ q com' := by
    intro day
    have hDay := h ⟨bookingDay⟩ (by simp [slots])
    have hCourse := h ⟨bookingCourse⟩ (by simp [slots])
    simp only [Row.applies, List.all_cons, List.all_nil, hDay, hCourse]
  simp only [rooms, Database.ofRows, List.find?_map, Function.comp_def, hRows]

theorem factArgument_cons_of_ne {p : Proposition} {predicate : String} {com : List Proposition}
    (h : p.predicate ≠ predicate) :
    factArgument (p :: com) predicate = factArgument com predicate := by
  simp [factArgument, h]

theorem consult_cons {q : Question} {p : Proposition} {com : List Proposition}
    (h : ∀ s ∈ slots, p.predicate ≠ s.predicate) :
    rooms.consult q (p :: com) = rooms.consult q com :=
  consult_congr fun s hSlot => factArgument_cons_of_ne (h s hSlot)

/-- It makes no difference to repeat the last fact but one. -/
theorem consult_repeat {q : Question} {c p : Proposition} {com : List Proposition}
    (h : ∀ s ∈ slots, p.predicate ≠ s.predicate) :
    rooms.consult q (c :: p :: c :: com) = rooms.consult q (c :: com) := by
  refine consult_congr fun s hSlot => ?_
  by_cases hFact : c.predicate = s.predicate
  · simp [factArgument, hFact]
  · rw [factArgument_cons_of_ne hFact, factArgument_cons_of_ne (h s hSlot)]

end Dialogue.Lecture
