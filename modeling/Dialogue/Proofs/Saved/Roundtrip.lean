import Dialogue.Lecture.Task
import Dialogue.Proofs.Saved.Loading
import Dialogue.Proofs.Text.Casing
import Dialogue.Saved.Domain
import Dialogue.Saved.Event

/-! # Saving the whole data model

Plans, domains and events are loaded as they were saved, and so are moves, utterances and states
whose moves were not scored. Formats keep their values in lower case, so they come back whole because
lowercasing does nothing to them.
-/

namespace Dialogue

open Json

instance : LawfulSaved PlanKind where
  load?_save k := by
    cases k with
    | _ => rfl

@[simp] theorem readable_save_question (q : Question) : (save q).readable = true := by
  simp [save, readable]

/-- The cases of a goal are told apart by what they are saved as: no proposition reads as a question,
and no name as either. -/
instance : LawfulSaved Goal where
  load?_save g := by
    unfold instSavedGoal
    cases g with
    | question q => simp
    | proposition p =>
      have hNoQuestion : load? (α := Question) (save p) = none := by
        simp [save, load?, members?, Members.field?, Members.find?]
      simp [hNoQuestion]
    | name s =>
      have hNoQuestion : load? (α := Question) (save s) = none := rfl
      have hNoProposition : load? (α := Proposition) (save s) = none := rfl
      simp [hNoQuestion, hNoProposition]

instance : LawfulSaved (Option Goal) where
  load?_save goal := by
    have hNull (g : Goal) : save g ≠ .null := by
      cases g with
      | _ => exact nofun
    have hLoad := load?_save_option (f := id) LawfulSaved.load?_save hNull goal
    rwa [Option.map_id] at hLoad

instance : LawfulSaved Plan where
  load?_save p := by
    unfold instSavedPlan
    simp [members?, Members.find?, Members.field?]

instance : LawfulSaved Tier where
  load?_save t := by
    cases t with
    | _ => rfl

instance : LawfulSaved Contact where
  load?_save c := by
    cases c with
    | listening => rfl
    | waiting count | escalated count =>
      have hCount := LawfulSaved.load?_save count
      change (load? (save count)).map _ = _
      rw [hCount]
      rfl

instance : LawfulSaved ContactChange where
  load?_save k := by
    cases k with
    | _ => rfl

instance : LawfulSaved Event where
  load?_save e := by
    unfold instSavedEvent
    cases e with
    | _ => simp [Members.find?]

/-- Of the members with one name the last is kept. -/
theorem load?_members {α β : Type} [Saved α] {f : β → Json} {g : β → α}
    {entries : List (String × β)} (h : ∀ e ∈ entries, load? (f e.2) = some (g e.2)) :
    load? (Json.obj (entries.map fun e => (e.1, f e.2))) =
      some (Table.ofList (entries.map fun e => (e.1, g e.2))) := by
  have hMembers : ((entries.map fun e => (e.1, f e.2)).mapM fun m =>
      (load? m.2).map fun a => (m.1, a)) = some (entries.map fun e => (e.1, g e.2)) := by
    induction entries with
    | nil => rfl
    | cons e rest ih =>
      rw [List.forall_mem_cons] at h
      simp [h.1, ih h.2]
  unfold instSavedTable
  simp [members?, hMembers]

theorem load?_save_table {α : Type} [Saved α] {t : Table α}
    (h : ∀ e ∈ t.entries, load? (save e.2) = some e.2) : load? (save t) = some t := by
  have hLoad := load?_members (f := save) (g := id) h
  rwa [show t.entries.map (fun e => (e.1, id e.2)) = t.entries from List.map_id t.entries,
    Table.ofList_entries] at hLoad

instance : LawfulSaved (Table String) where
  load?_save _ := load?_save_table fun e _ => LawfulSaved.load?_save e.2

theorem NameSet.ofNames_names (s : NameSet) : NameSet.ofNames s.names = s := by
  have hEntries : s.names.map (·, ()) = s.entries := by
    rw [Table.names, List.map_map]
    exact List.map_id s.entries
  rw [NameSet.ofNames, hEntries, Table.ofList_entries]

theorem NameSet.mem_of_mem_names {names : List String} {name : String}
    (h : name ∈ (NameSet.ofNames names).names) : name ∈ names := by
  obtain ⟨e, hEntry, rfl⟩ := List.mem_map.mp h
  have hFound := (Table.get?_eq_some_iff _).mpr hEntry
  rw [NameSet.ofNames, Table.get?_ofList] at hFound
  obtain ⟨other, hOther, hEq⟩ := List.mem_map.mp (List.mem_reverse.mp (Table.mem_of_lookup hFound))
  cases hEq
  exact hOther

/-- The values of a format are in lower case, so the next lowercasing keeps them. -/
theorem Format.ofValues_names (values : List String) (hint : String) :
    Format.ofValues (Format.ofValues values hint).allowed.names hint =
      Format.ofValues values hint := by
  have hLower : ∀ name ∈ (Format.ofValues values hint).allowed.names,
      Text.lower name = id name := by
    intro name hName
    obtain ⟨value, _, rfl⟩ := List.mem_map.mp (NameSet.mem_of_mem_names hName)
    exact Text.lower_lower value
  rw [Format.ofValues, List.map_congr_left hLower, List.map_id, NameSet.ofNames_names]
  rfl

@[simp] theorem Format.hint_ofValues (values : List String) (hint : String) :
    (Format.ofValues values hint).hint = hint := rfl

theorem load?_save_ofValues (values : List String) (hint : String) :
    load? (save (Format.ofValues values hint)) = some (Format.ofValues values hint) := by
  unfold instSavedFormat
  simpa [members?, Members.find?] using Format.ofValues_names values hint

theorem load?_save_blueprint {b : Blueprint}
    (h : ∀ e ∈ b.formats.entries, ∃ values hint, e.2 = Format.ofValues values hint) :
    load? (save b) = some b := by
  have hFormats : load? (save b.formats) = some b.formats := by
    apply load?_save_table
    intro e hEntry
    obtain ⟨values, hint, hFormat⟩ := h e hEntry
    rw [hFormat]
    exact load?_save_ofValues values hint
  unfold instSavedBlueprint
  simp [members?, Members.find?, hFormats]

theorem Move.reloaded_of_unscored {m : Move} (h : m.confidence = none) : m.reloaded = m := by
  obtain ⟨act, confidence⟩ := m
  cases h
  rfl

theorem map_reloaded_of_unscored {moves : List Move} (h : ∀ m ∈ moves, m.confidence = none) :
    moves.map Move.reloaded = moves := by
  have hSame : ∀ m ∈ moves, m.reloaded = id m := fun m hMove =>
    Move.reloaded_of_unscored (h m hMove)
  rw [List.map_congr_left hSame, List.map_id]

theorem Utterance.reloaded_of_unscored {u : Utterance} (h : ∀ m ∈ u.moves, m.confidence = none) :
    u.reloaded = u := by
  rw [reloaded, map_reloaded_of_unscored h]

theorem InformationState.reloaded_of_unscored {s : InformationState}
    (hLu : ∀ u, s.shared.lu = some u → ∀ m ∈ u.moves, m.confidence = none)
    (hNext : ∀ m ∈ s.nextMoves, m.confidence = none) : s.reloaded = { s with turn := {} } := by
  have hSame : s.shared.lu.map Utterance.reloaded = s.shared.lu := by
    cases h : s.shared.lu with
    | none => rfl
    | some u => rw [Option.map_some, Utterance.reloaded_of_unscored (hLu u h)]
  rw [reloaded, hSame, map_reloaded_of_unscored hNext]

/-- Saving loses nothing but the turn marks of a state and what recognition said of moves. -/
theorem loads_as_saved :
    (∀ q : Question, load? (save q) = some q) ∧
    (∀ p : Proposition, load? (save p) = some p) ∧
    (∀ a : Answer, load? (save a) = some a) ∧
    (∀ a : Action, load? (save a) = some a) ∧
    (∀ p : Plan, load? (save p) = some p) ∧
    (∀ values hint, load? (save (Format.ofValues values hint)) =
      some (Format.ofValues values hint)) ∧
    (∀ b : Blueprint, (∀ e ∈ b.formats.entries, ∃ values hint, e.2 = .ofValues values hint) →
      load? (save b) = some b) ∧
    (∀ e : Event, load? (save e) = some e) ∧
    (∀ m : Move, m.confidence = none → load? (save m) = some m) ∧
    (∀ u : Utterance, (∀ m ∈ u.moves, m.confidence = none) → load? (save u) = some u) ∧
    ∀ s : InformationState, (∀ u, s.shared.lu = some u → ∀ m ∈ u.moves, m.confidence = none) →
      (∀ m ∈ s.nextMoves, m.confidence = none) → load? (save s) = some { s with turn := {} } := by
  refine ⟨LawfulSaved.load?_save, LawfulSaved.load?_save, LawfulSaved.load?_save,
    LawfulSaved.load?_save, LawfulSaved.load?_save, load?_save_ofValues,
    fun _ => load?_save_blueprint, LawfulSaved.load?_save, ?_, ?_, ?_⟩
  · intro m hUnscored
    rw [load?_save_move, Move.reloaded_of_unscored hUnscored]
  · intro u hUnscored
    rw [load?_save_utterance, Utterance.reloaded_of_unscored hUnscored]
  · intro s hLu hNext
    rw [load?_save_state, InformationState.reloaded_of_unscored hLu hNext]

/-- A request without a name, as it is made by one who has nothing to ask for. -/
def idleRequest : Move :=
  ⟨.request none, none⟩

def openingTurn : Utterance where
  speaker := .usr
  moves := [idleRequest, ⟨.ask ⟨Lecture.bookingRoom⟩, none⟩]

def askingDay : InformationState where
  own := { plan := Lecture.roomPlan.steps, bel := [⟨Lecture.favoriteFood, "pizza"⟩] }
  shared := { lu := some openingTurn }
  nextMoves := [⟨.ask ⟨Lecture.bookingDay⟩, none⟩]
  version := 7
  turn := { latched := true, consumed := [0, 1], selected := true }

theorem askingDay_loads :
    Lecture.blueprint.formats.contains Lecture.bookingDay = true ∧
    load? (save Lecture.blueprint) = some Lecture.blueprint ∧
    load? (save idleRequest) = some idleRequest ∧
    load? (save openingTurn) = some openingTurn ∧
    load? (save askingDay) = some { askingDay with turn := {} } := by
  obtain ⟨-, -, -, -, -, -, hBlueprint, -, hMove, hUtterance, hState⟩ := loads_as_saved
  have hUnscored : ∀ m ∈ openingTurn.moves, m.confidence = none := by
    simp [openingTurn, idleRequest]
  refine ⟨rfl, hBlueprint _ ?_, hMove _ rfl, hUtterance _ hUnscored, hState _ ?_ ?_⟩
  · intro e hEntry
    cases List.mem_singleton.mp hEntry
    exact ⟨Lecture.weekdays, Lecture.weekdayHint, rfl⟩
  · rintro u hLu
    cases hLu
    exact hUnscored
  · intro m hNext
    cases List.mem_singleton.mp hNext
    rfl

end Dialogue
