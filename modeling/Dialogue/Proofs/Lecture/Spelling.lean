import Mathlib.Data.List.Find
import Dialogue.Proofs.Lecture.Timetable
import Dialogue.Proofs.Session.Spelling

/-! # How a day is spelled

Days are accepted in any letter case, but the timetable is searched for them as they are spelled. So
another spelling changes no room that is told exactly as long as neither spelling stands there.
-/

namespace Dialogue

namespace Reading

variable {g : Reading}

theorem factArgument_map_fact (com : List Proposition) (predicate : String) :
    factArgument (com.map g.fact) predicate =
      (factArgument com predicate).map (if predicate = g.predicate then g.value else id) := by
  rw [factArgument, factArgument, List.find?_map]
  simp only [Function.comp_def, fact_predicate]
  cases hFind : com.find? fun p => p.predicate == predicate with
  | none => rfl
  | some p =>
    have hPredicate : p.predicate = predicate := by simpa using List.find?_some hFind
    subst hPredicate
    by_cases hRead : p.predicate = g.predicate
    · simp [fact, hRead]
    · simp [fact, hRead]

end Reading

/-- The format takes spellings that differ in case only for equal. -/
theorem Domain.accepts_of_lower (d : Domain) (predicate : String) {x y : String}
    (h : Text.lower x = Text.lower y) : d.accepts ⟨predicate, x⟩ = d.accepts ⟨predicate, y⟩ := by
  simp only [Domain.accepts, Format.accepts, h]

namespace Lecture

open Update Engine Session

variable {d d' : String}

/-- Reads the day `d` as `d'`. -/
def dayAs (d d' : String) : Reading where
  predicate := bookingDay
  value x := if x = d then d' else x
  value_value x := by
    by_cases h : x = d
    · by_cases h' : d' = d
      · simp [h, h']
      · simp [h, h']
    · simp [h]

/-- The rooms that a reply tells. -/
def roomsTold (moves : List Move) : List String :=
  moves.filterMap fun m =>
    match m.answered? with
    | some (.full p) => if p.predicate = bookingRoom then some p.argument else none
    | _ => none

/-- To give `d'` in full for `d` changes neither the rooms that are told, turn by turn, nor what is
looked up by then. -/
def SameRooms (d d' : String) : Prop :=
  ∀ config s, session config = .ok s → ∀ calls : List Call,
    (s.answers calls).map (Except.map roomsTold) =
      (s.answers (calls.map (dayAs d d').call)).map (Except.map roomsTold) ∧
    (s.after calls).state.own.bel = (s.after (calls.map (dayAs d d').call)).state.own.bel

theorem roomsTold_move (d d' : String) (moves : List Move) :
    roomsTold (moves.map (dayAs d d').move) = roomsTold moves := by
  rw [roomsTold, List.filterMap_map]
  apply List.filterMap_congr
  intro m _
  simp only [Function.comp_def, Reading.move_answered?]
  cases m.answered? with
  | none => rfl
  | some a =>
    cases a with
    | full p =>
      by_cases hDay : p.predicate = bookingDay
      · simp [Reading.answer, hDay, bookingDay, bookingRoom]
      · simp [Reading.answer, Reading.fact_eq_self (g := dayAs d d') hDay]
    | short individual => rfl

theorem roomsTold_eq_of_alike {a b : Reply} (h : RepliesAlike (dayAs d d').Says a b) :
    a.map roomsTold = b.map roomsTold := by
  cases h with
  | refused fault => rfl
  | returned hSaid =>
    refine congrArg Except.ok ?_
    rw [← roomsTold_move d d', hSaid, roomsTold_move]

theorem sameRooms_of_blind (hBlind : (dayAs d d').Blind domain rooms) : SameRooms d d' := by
  intro config s hSession calls
  obtain ⟨hRules, hDomain, hDatabase, hState⟩ := exists_engine_of_session hSession
  have hApart : (dayAs d d').Apart s.state := by
    intro b hMem
    rw [hState, show initialState.own.bel = [⟨favoriteFood, "pizza"⟩] from rfl,
      List.mem_singleton] at hMem
    rw [hMem]
    exact (by decide : favoriteFood ≠ bookingDay)
  have hReads : ReadsAs (dayAs d d') s s :=
    ⟨rfl, rfl, hApart, hRules, hDomain ▸ hDatabase ▸ hBlind⟩
  obtain ⟨hReplies, hEnd⟩ := hReads.after calls
  constructor
  · exact map_eq_of_repliesAlike (fun _ _ => roomsTold_eq_of_alike) hReplies
  · exact congrArg (·.own.bel) hEnd.state

/-- No entry of the timetable is for the day as it is spelled. -/
def Unlisted (d : String) : Prop :=
  ∀ x ∈ timetable, x.1 ≠ d

instance (d : String) : Decidable (Unlisted d) :=
  inferInstanceAs (Decidable (∀ x ∈ timetable, x.1 ≠ d))

theorem exists_entry_of_not_unlisted (h : ¬Unlisted d) : ∃ x ∈ timetable, x.1 = d := by
  simpa [Unlisted] using h

theorem consult_map_fact (hOut : Unlisted d) (hOut' : Unlisted d') (q : Question)
    (com : List Proposition) :
    rooms.consult q (com.map (dayAs d d').fact) = rooms.consult q com := by
  apply congrArg (Option.map Row.answer)
  apply List.find?_congr
  intro row hRow
  obtain ⟨x, hEntry, rfl⟩ := List.mem_map.mp hRow
  have hCourse : factArgument (com.map (dayAs d d').fact) bookingCourse =
      factArgument com bookingCourse := by
    have hOther : bookingCourse ≠ (dayAs d d').predicate :=
      (by decide : bookingCourse ≠ bookingDay)
    rw [Reading.factArgument_map_fact, if_neg hOther, Option.map_id_fun, id]
  have hDay : (factArgument (com.map (dayAs d d').fact) bookingDay == some x.1) =
      (factArgument com bookingDay == some x.1) := by
    rw [Reading.factArgument_map_fact, if_pos (show bookingDay = (dayAs d d').predicate from rfl)]
    cases factArgument com bookingDay with
    | none => rfl
    | some y =>
      by_cases hSpelled : y = d
      · subst hSpelled
        simp [dayAs, (hOut x hEntry).symm, (hOut' x hEntry).symm]
      · simp [dayAs, hSpelled]
  simp only [Row.applies, List.all_cons, List.all_nil, hCourse, hDay]

theorem ne_bookingDay_of_consult {q : Question} {com : List Proposition} {p : Proposition}
    (h : rooms.consult q com = some p) : p.predicate ≠ bookingDay := by
  rw [predicate_of_consult h]
  decide

theorem blind_dayAs (hAccepts : domain.accepts ⟨bookingDay, d⟩ = domain.accepts ⟨bookingDay, d'⟩)
    (hOut : Unlisted d) (hOut' : Unlisted d') : (dayAs d d').Blind domain rooms := by
  constructor
  · intro p
    by_cases hDay : p.predicate = bookingDay
    · by_cases hSpelled : p.argument = d
      · obtain ⟨predicate, argument⟩ := p
        obtain rfl : predicate = bookingDay := hDay
        obtain rfl : argument = d := hSpelled
        simp [Reading.fact, dayAs, hAccepts]
      · simp [Reading.fact, dayAs, hSpelled]
    · rw [Reading.fact_eq_self hDay]
  · exact consult_map_fact hOut hOut'
  · exact fun q com p => ne_bookingDay_of_consult

/-- What is spelled in one way only is blind to the spelling. -/
theorem blind_dayAs_self (d : String) : (dayAs d d).Blind domain rooms := by
  have hFact (p : Proposition) : (dayAs d d).fact p = p := by
    by_cases hDay : p.predicate = bookingDay
    · by_cases hSpelled : p.argument = d
      · simp [Reading.fact, dayAs, hSpelled.symm]
      · simp [Reading.fact, dayAs, hSpelled]
    · exact Reading.fact_eq_self hDay
  constructor
  · intro p
    rw [hFact]
  · intro q com
    rw [List.map_congr_left fun p _ => hFact p, List.map_id']
  · exact fun q com p => ne_bookingDay_of_consult

def dayCalls (day : String) : List Call :=
  [.hear [⟨.greet, none⟩], .hear [⟨.ask whichRoom, none⟩],
    .hear [⟨.answer (.full ⟨bookingDay, day⟩), none⟩], .hear [⟨.answer (.short course), none⟩]]

def dayRooms (day : String) : List (Except NoProgress (List String)) :=
  (Console.session.answers (dayCalls day)).map (Except.map roomsTold)

theorem dayCalls_dayAs (d d' : String) :
    (dayCalls d).map (dayAs d d').call = dayCalls d' := by
  simp [dayCalls, Reading.call, Reading.move, Reading.act, Reading.answer, Reading.fact, dayAs]

theorem SameRooms.dayRooms_eq (h : SameRooms d d') : dayRooms d = dayRooms d' := by
  have hRooms := (h {} Console.session session_default (dayCalls d)).1
  rwa [dayCalls_dayAs] at hRooms

theorem dayRooms_of_entry {x : String × String} (hEntry : x ∈ timetable) :
    dayRooms x.1 = [.ok [], .ok [], .ok [], .ok [x.2]] := by
  simp only [timetable, List.mem_cons, List.not_mem_nil, or_false] at hEntry
  rcases hEntry with rfl | rfl
  · rfl
  · rfl

/-- A day without lectures is taken up, however it is spelled, and no room is told. -/
theorem dayRooms_of_unlisted (hDay : domain.accepts ⟨bookingDay, d⟩ = true) (hOut : Unlisted d) :
    dayRooms d = [.ok [], .ok [], .ok [], .ok []] := by
  -- the dialogue is evaluated for one such day only
  have hMonday : SameRooms "monday" d :=
    sameRooms_of_blind (blind_dayAs (hDay.symm ▸ rfl) (by decide) hOut)
  rw [← hMonday.dayRooms_eq]
  rfl

theorem dayRooms_ne_of_entry (hDay : domain.accepts ⟨bookingDay, d⟩ = true) (hOut : Unlisted d)
    {x : String × String} (hEntry : x ∈ timetable) : dayRooms x.1 ≠ dayRooms d := by
  rw [dayRooms_of_entry hEntry, dayRooms_of_unlisted hDay hOut]
  intro h
  cases h

theorem timetable_lower_inj : ∀ x ∈ timetable, ∀ y ∈ timetable,
    Text.lower x.1 = Text.lower y.1 → x.1 = y.1 := by decide +kernel

/-- Of two spellings that the format takes for equal, either may be given for the other without a
change in the rooms that are told exactly if neither stands in the timetable. -/
theorem sameRooms_iff (hCase : Text.lower d = Text.lower d')
    (hDay : domain.accepts ⟨bookingDay, d⟩ = true) :
    SameRooms d d' ↔ d = d' ∨ Unlisted d ∧ Unlisted d' := by
  have hAccepts := domain.accepts_of_lower bookingDay hCase
  have hDay' : domain.accepts ⟨bookingDay, d'⟩ = true := hAccepts ▸ hDay
  constructor
  · intro hSame
    have hRooms := hSame.dayRooms_eq
    by_cases hOut : Unlisted d
    · by_cases hOut' : Unlisted d'
      · exact .inr ⟨hOut, hOut'⟩
      · obtain ⟨x, hEntry, rfl⟩ := exists_entry_of_not_unlisted hOut'
        exact absurd hRooms.symm (dayRooms_ne_of_entry hDay hOut hEntry)
    · obtain ⟨x, hEntry, rfl⟩ := exists_entry_of_not_unlisted hOut
      by_cases hOut' : Unlisted d'
      · exact absurd hRooms (dayRooms_ne_of_entry hDay' hOut' hEntry)
      · obtain ⟨y, hEntry', rfl⟩ := exists_entry_of_not_unlisted hOut'
        exact .inl (timetable_lower_inj x hEntry y hEntry' hCase)
  · rintro (rfl | ⟨hOut, hOut'⟩)
    · exact sameRooms_of_blind (blind_dayAs_self d)
    · exact sameRooms_of_blind (blind_dayAs hAccepts hOut hOut')

theorem monday_in_capitals : Text.lower "monday" = Text.lower "MONDAY" ∧
    domain.accepts ⟨bookingDay, "monday"⟩ = true ∧ SameRooms "monday" "MONDAY" := by
  have hCase : Text.lower "monday" = Text.lower "MONDAY" := by decide +kernel
  have hDay : domain.accepts ⟨bookingDay, "monday"⟩ = true := by decide +kernel
  exact ⟨hCase, hDay, (sameRooms_iff hCase hDay).mpr (.inr (by decide))⟩

/-- Friday with a capital letter is taken up as a day, but no lecture is found on it. -/
theorem friday_with_a_capital : Text.lower "friday" = Text.lower "Friday" ∧
    domain.accepts ⟨bookingDay, "friday"⟩ = true ∧ domain.accepts ⟨bookingDay, "Friday"⟩ = true ∧
    session {} = .ok Console.session ∧
    (dayCalls "friday").map (dayAs "friday" "Friday").call = dayCalls "Friday" ∧
    dayRooms "friday" = [.ok [], .ok [], .ok [], .ok ["G212"]] ∧
    dayRooms "Friday" = [.ok [], .ok [], .ok [], .ok []] :=
  ⟨by decide +kernel, by decide +kernel, by decide +kernel, session_default, dayCalls_dayAs _ _,
    rfl, rfl⟩

end Lecture

end Dialogue
