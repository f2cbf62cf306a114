import Dialogue.Proofs.Lecture.Ceiling
import Dialogue.Proofs.Session.Beliefs

/-! # Rooms are told as they were looked up

Each room that is told stands in the timetable for the course and the day that were agreed on last
when it was looked up. Later on it is no longer the room that would be looked up once another course
or another day is agreed on.
-/

namespace Dialogue.Lecture

open Update Engine Session

variable {s s' : Session} {q : Question} {p : Proposition} {com com' : List Proposition}
  {moves reply : List Move} {m : Move}

/-- The room stands in the timetable for the course and the day that were agreed on last. -/
theorem exists_entry_of_consult (h : rooms.consult q com = some p) :
    ∃ x ∈ timetable, q = whichRoom ∧ p = ⟨bookingRoom, x.2⟩ ∧
      factArgument com bookingCourse = some course ∧
      factArgument com bookingDay = some x.1 := by
  obtain ⟨row, hFind, rfl⟩ := Option.map_eq_some_iff.mp h
  obtain ⟨x, hEntry, rfl⟩ := List.mem_map.mp (List.mem_of_find?_eq_some hFind)
  have hApplies := List.find?_some hFind
  simp only [Row.applies, Bool.and_eq_true, List.all_cons, List.all_nil, beq_iff_eq] at hApplies
  obtain ⟨hQuestion, hCourse, hDay, -⟩ := hApplies
  exact ⟨x, hEntry, hQuestion.symm, rfl, hCourse, hDay⟩

theorem rooms_are_distinct : ∀ x ∈ timetable, ∀ y ∈ timetable, x.2 = y.2 → x = y := by decide

/-- The room that was looked up is still the one as long as no other course and no other day is
agreed on. -/
theorem consult_eq_some_iff (h : rooms.consult whichRoom com = some p) :
    rooms.consult whichRoom com' = some p ↔
      ∀ q ∈ slots, factArgument com' q.predicate = factArgument com q.predicate := by
  constructor
  · intro h'
    obtain ⟨x, hEntry, -, hRoom, hCourse, hDay⟩ := exists_entry_of_consult h
    obtain ⟨y, hEntry', -, hRoom', hCourse', hDay'⟩ := exists_entry_of_consult h'
    rw [hRoom] at hRoom'
    obtain rfl := rooms_are_distinct x hEntry y hEntry' (Proposition.mk.inj hRoom').2
    intro q hSlot
    simp only [slots, List.mem_cons, List.not_mem_nil, or_false] at hSlot
    rcases hSlot with rfl | rfl
    · rw [hDay, hDay']
    · rw [hCourse, hCourse']
  · intro hSame
    rw [consult_congr hSame, h]

theorem exists_engine_of_session {config : Config} (h : session config = .ok s) :
    s.engine.rules = defaultRules ∧ s.engine.domain = domain ∧ s.engine.database = rooms ∧
      s.state = initialState := by
  obtain ⟨hRules, hDomain, hDatabase, -, hState⟩ := Session.engine_of_new h
  exact ⟨hRules, hDomain, hDatabase, hState⟩

/-- A room that is told was looked up on the commitments of some time before. It is the room to tell
now exactly if no other course and no other day was agreed on since. -/
theorem exists_lookup_of_told {config : Config} (hSession : session config = .ok s)
    (turns : List (List Move)) (hHear : (s.start.2.hearAll turns).hear moves = (.ok reply, s'))
    {room : String} (hMem : m ∈ reply)
    (hTold : m.answered? = some (.full ⟨bookingRoom, room⟩)) :
    ∃ com, com <:+ s'.state.shared.com ∧
      rooms.consult whichRoom com = some ⟨bookingRoom, room⟩ ∧
      (rooms.consult whichRoom s'.state.shared.com = some ⟨bookingRoom, room⟩ ↔
        ∀ q ∈ slots, factArgument s'.state.shared.com q.predicate =
          factArgument com q.predicate) := by
  obtain ⟨hRules, hDomain, hDatabase, hState⟩ := exists_engine_of_session hSession
  have hStart : Sourced s.engine s.state.own.bel s.state := fun p hMem => .inl hMem
  have hEngine : s.start.2.engine = s.engine := s.engine_converse _
  have hLasting := lasting_sourced s.engine s.state.own.bel
  have hOpened := lasts_of_converse hRules hLasting hStart (.user [])
  have hSourced := lasts_of_hearAll (hEngine ▸ hRules) (hEngine ▸ hLasting) hOpened turns
  have hEngine' := (engine_hearAll s.start.2 turns).trans hEngine
  rcases exists_source_of_told (hEngine' ▸ hRules) (hEngine' ▸ hSourced) hHear hMem hTold with
    hDefault | hInitial | ⟨q, com, hEarlier, hFound⟩
  · rw [hEngine', hDomain, show domain = engine.domain from rfl, default?_whichRoom] at hDefault
    cases hDefault
  · rw [hState, show initialState.own.bel = [⟨favoriteFood, "pizza"⟩] from rfl,
      List.mem_singleton] at hInitial
    exact absurd (Proposition.mk.inj hInitial).1 (by decide)
  · rw [hEngine', hDatabase] at hFound
    obtain ⟨x, -, rfl, -⟩ := exists_entry_of_consult hFound
    exact ⟨com, hEarlier, hFound, consult_eq_some_iff hFound⟩

theorem friday_room_is_told : ∃ s',
    (Console.session.start.2.hearAll
        [[⟨.ask whichRoom, none⟩], [⟨.answer (.short "friday"), none⟩]]).hear
        [⟨.answer (.short course), none⟩] =
      (.ok [⟨.acknowledge "Okay, got it.", none⟩,
        ⟨.answer (.full ⟨bookingRoom, "G212"⟩), none⟩], s') ∧
    ∃ com, com <:+ s'.state.shared.com ∧
      rooms.consult whichRoom com = some ⟨bookingRoom, "G212"⟩ ∧
      ∀ q ∈ slots, factArgument s'.state.shared.com q.predicate =
        factArgument com q.predicate := by
  have hHear : (Console.session.start.2.hearAll
      [[⟨.ask whichRoom, none⟩], [⟨.answer (.short "friday"), none⟩]]).hear
      [⟨.answer (.short course), none⟩] = (.ok [⟨.acknowledge "Okay, got it.", none⟩,
        ⟨.answer (.full ⟨bookingRoom, "G212"⟩), none⟩], _) := rfl
  obtain ⟨com, hEarlier, hFound, hStill⟩ := exists_lookup_of_told session_default _ hHear
    (List.mem_cons_of_mem _ List.mem_cons_self) rfl
  exact ⟨_, hHear, com, hEarlier, hFound, hStill.mp rfl⟩

/-- The room is asked for, and the day is given. Then the course is given in answer to a question of
the user's own, and another day as well. -/
def overtaking : List (List Move) :=
  [[⟨.ask whichRoom, none⟩], [⟨.answer (.short "friday"), none⟩],
    [⟨.ask ⟨bookingCourse⟩, none⟩, ⟨.answer (.short course), none⟩],
    [⟨.ask ⟨bookingDay⟩, none⟩, ⟨.answer (.short "tuesday"), none⟩]]

theorem overtaken_room_is_told : ∃ s', session {} = .ok Console.session ∧
    Console.session.start.1.isOk = true ∧ Console.session.start.2.returnsAll overtaking = true ∧
    (Console.session.start.2.hearAll overtaking).hear [⟨.ask whichRoom, none⟩] =
      (.ok [⟨.answer (.full ⟨bookingRoom, "G212"⟩), none⟩], s') ∧
    rooms.consult whichRoom s'.state.shared.com = some ⟨bookingRoom, "J440"⟩ :=
  ⟨_, session_default, rfl, rfl, rfl, rfl⟩

end Dialogue.Lecture
