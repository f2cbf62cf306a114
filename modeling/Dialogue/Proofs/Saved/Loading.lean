import Dialogue.Saved.State

/-! # Loading what was saved

A saved state is loaded with its private state, its questions and its commitments as they were. Only
the confidences of moves and the turn marks may not come back.
-/

namespace Dialogue

open Json

/-- Whatever was saved is loaded as it was. -/
class LawfulSaved (α : Type) [Saved α] : Prop where
  load?_save (a : α) : load? (save a) = some a

attribute [simp] LawfulSaved.load?_save

@[simp] theorem load?_json (j : Json) : load? j = some j := rfl

instance : LawfulSaved String where
  load?_save _ := rfl

instance : LawfulSaved UInt32 where
  load?_save n := by
    have hSize := n.toNat_lt
    simp [save, load?]
    omega

instance : LawfulSaved UInt64 where
  load?_save n := by
    have hSize := n.toNat_lt
    simp [save, load?]
    omega

section

variable {α : Type} [Saved α]

theorem load?_save_list {f : α → α} (h : ∀ a : α, load? (save a) = some (f a)) (as : List α) :
    load? (save as) = some (as.map f) := by
  change (as.map save).mapM load? = _
  induction as with
  | nil => rfl
  | cons a as ih => simp [h, ih]

instance [LawfulSaved α] : LawfulSaved (List α) where
  load?_save as := by
    have hLoad := load?_save_list (f := id) LawfulSaved.load?_save as
    rwa [List.map_id] at hLoad

/-- What is saved as null cannot be told from nothing. -/
theorem load?_save_option {f : α → α} (h : ∀ a : α, load? (save a) = some (f a))
    (hNull : ∀ a : α, save a ≠ .null) (a : Option α) : load? (save a) = some (a.map f) := by
  cases a with
  | none => rfl
  | some a =>
    have hLoad := h a
    change load? (save a) = some (some (f a))
    cases hSave : save a with
    | null => exact absurd hSave (hNull a)
    | _ =>
      rw [hSave] at hLoad
      change (load? _).map some = _
      rw [hLoad]
      rfl

end

instance : LawfulSaved (Option String) where
  load?_save text := by
    have hLoad := load?_save_option (f := id) LawfulSaved.load?_save nofun text
    rwa [Option.map_id] at hLoad

namespace Json.Members

variable {α : Type} [Saved α] {members : Members} {name : String} {value : Json}

@[simp] theorem field?_of_find? (h : members.find? [name] = some (some value)) :
    members.field? (α := α) [name] = load? value := by
  simp [field?, h]

@[simp] theorem fieldOr?_of_find? (h : members.find? [name] = some (some value)) (missing : α) :
    members.fieldOr? name missing = load? value := by
  simp [fieldOr?, h]

end Json.Members

instance : LawfulSaved Question where
  load?_save q := by
    unfold instSavedQuestion
    simp [members?, Members.find?, caseName?]

instance : LawfulSaved Proposition where
  load?_save p := by
    unfold instSavedProposition
    simp [members?, Members.find?]

@[simp] theorem readable_save_string (text : String) : (save text).readable = true := rfl

@[simp] theorem readable_save_proposition (p : Proposition) : (save p).readable = true := by
  simp [save, readable]

instance : LawfulSaved Answer where
  load?_save a := by
    unfold instSavedAnswer
    cases a with
    | full p => simp
    | short individual => simp [show load? (α := Proposition) (save individual) = none from rfl]

namespace Tagged

@[simp] theorem ofJson?_bare (tag : String) : ofJson? (bare tag) = some ⟨tag, none⟩ := by
  simp [ofJson?, bare, members?, relevantMembers, caseName?]

@[simp] theorem ofJson?_holding (tag : String) (content : Json) :
    ofJson? (holding tag content) = some ⟨tag, some content⟩ := by
  simp [ofJson?, holding, members?, relevantMembers, caseName?]

@[simp] theorem content?_save {α : Type} [Saved α] [LawfulSaved α] (tag : String) (a : α) :
    (⟨tag, some (save a)⟩ : Tagged).content? = some a := by
  simp [content?]

end Tagged

instance : LawfulSaved Action where
  load?_save a := by
    unfold instSavedAction
    cases a with
    | greet => simp [Tagged.isBare]
    | _ q => simp

instance : LawfulSaved Speaker where
  load?_save s := by
    cases s with
    | _ => rfl

instance : LawfulSaved Act where
  load?_save a := by
    unfold instSavedAct
    cases a with
    | greet | noInput => simp [Tagged.isBare]
    | request action =>
      cases action with
      | none => simp [Tagged.isBare, save]
      | some name => simp [Tagged.isBare, save, Tagged.content?, load?]
    | _ => simp

/-- What a saved move is loaded as. A confidence that is no finite number is lost. -/
def Move.reloaded (m : Move) : Move where
  act := m.act
  confidence := (m.confidence.filter (·.isFinite)).map clampUnit

theorem load?_save_float (x : Float32) :
    load? (save x) = some (if x.isFinite then some x else none) := by
  simp only [save]
  split
  · rfl
  · rfl

theorem load?_save_move (m : Move) : load? (save m) = some m.reloaded := by
  obtain ⟨act, confidence⟩ := m
  unfold instSavedMove
  cases confidence with
  | none => simp [members?, Members.find?, Members.fieldOr?, Move.reloaded]
  | some x => simp [members?, Members.find?, Move.reloaded, load?_save_float, Option.filter]

def Utterance.reloaded (u : Utterance) : Utterance where
  speaker := u.speaker
  moves := u.moves.map Move.reloaded

theorem load?_save_utterance (u : Utterance) : load? (save u) = some u.reloaded := by
  have hMoves := load?_save_list load?_save_move u.moves
  unfold instSavedUtterance
  simp [members?, Members.find?, hMoves, Utterance.reloaded]

instance : LawfulSaved PrivateState where
  load?_save s := by
    unfold instSavedPrivateState
    simp [members?, Members.find?]

theorem load?_save_shared (s : SharedState) :
    load? (save s) = some { s with lu := s.lu.map Utterance.reloaded } := by
  have hLu := load?_save_option load?_save_utterance nofun s.lu
  unfold instSavedSharedState
  simp [members?, Members.find?, hLu]

def InformationState.reloaded (s : InformationState) : InformationState :=
  { s with
    shared.lu := s.shared.lu.map Utterance.reloaded
    nextMoves := s.nextMoves.map Move.reloaded
    turn := {} }

theorem load?_save_state (s : InformationState) : load? (save s) = some s.reloaded := by
  have hMoves := load?_save_list load?_save_move s.nextMoves
  unfold instSavedInformationState
  simp [members?, Members.find?, load?_save_shared, hMoves, InformationState.reloaded]

end Dialogue
