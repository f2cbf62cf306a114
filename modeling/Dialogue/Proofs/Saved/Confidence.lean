import Dialogue.Config
import Dialogue.Proofs.Saved.Loading

/-! # Saved confidences

A confidence in `[0, 1]` is loaded as it was saved. A NaN is saved as null, and null is loaded as no
confidence at all, which counts as full certainty. So of all moves just those come back clearer that
recognition gave a NaN.
-/

namespace Dialogue

open Float.Model

section Unit

variable {x y : Float32}

theorem lt_iff_compare : x < y ↔ x.toModel.unpack.compare y.toModel.unpack = some .lt := by
  change decide (x.toModel.lt y.toModel = true) = true ↔ _
  rw [decide_eq_true_eq]
  exact beq_iff_eq

theorem not_le_of_isNaN (h : y.isNaN = true) : ¬ x ≤ y := by
  change ¬ decide (x.toModel.le y.toModel = true) = true
  change y.toModel.unpack.isNaN = true at h
  rw [decide_eq_true_eq, Float32.Model.le, UnpackedFloat.le]
  cases hY : y.toModel.unpack with
  | notANumber =>
    cases x.toModel.unpack with
    | _ => exact Bool.false_ne_true
  | infinity | zero | finite =>
    rw [hY] at h
    cases h

theorem isFinite_of_between (low high : Float32) (hLow : low.isFinite = true)
    (hHigh : high.isFinite = true) (hNumber : x.isNaN = false) (hBelow : ¬ x < low)
    (hAbove : ¬ high < x) : x.isFinite = true := by
  change low.toModel.unpack.isFinite = true at hLow
  change high.toModel.unpack.isFinite = true at hHigh
  change x.toModel.unpack.isNaN = false at hNumber
  change x.toModel.unpack.isFinite = true
  rw [lt_iff_compare] at hBelow hAbove
  cases hX : x.toModel.unpack with
  | notANumber =>
    rw [hX] at hNumber
    cases hNumber
  | infinity sign =>
    rw [hX] at hBelow hAbove
    cases sign with
    | positive =>
      exfalso
      apply hAbove
      cases hUnpacked : high.toModel.unpack with
      | notANumber | infinity =>
        rw [hUnpacked] at hHigh
        cases hHigh
      | zero | finite => rfl
    | negative =>
      exfalso
      apply hBelow
      cases hUnpacked : low.toModel.unpack with
      | notANumber | infinity =>
        rw [hUnpacked] at hLow
        cases hLow
      | zero | finite => rfl
  | zero | finite => rfl

theorem isNaN_eq_false_of_isFinite (h : x.isFinite = true) : x.isNaN = false := by
  change x.toModel.unpack.isFinite = true at h
  change x.toModel.unpack.isNaN = false
  cases hX : x.toModel.unpack with
  | notANumber | infinity =>
    rw [hX] at h
    cases h
  | zero | finite => rfl

theorem isFinite_clampUnit (x : Float32) :
    (clampUnit x).isFinite = true ∨ (clampUnit x).isNaN = true := by
  fun_cases clampUnit x with
  | case1 => exact .inl (by decide +kernel)
  | case2 => exact .inl (by decide +kernel)
  | case3 hBelow hAbove =>
    cases hNumber : x.isNaN with
    | true => exact .inr rfl
    | false =>
      left
      apply isFinite_of_between 0 1 _ _ hNumber hBelow hAbove
      · decide +kernel
      · decide +kernel

theorem clampUnit_clampUnit (x : Float32) : clampUnit (clampUnit x) = clampUnit x := by
  fun_cases clampUnit x with
  | case1 => decide +kernel
  | case2 => decide +kernel
  | case3 hBelow hAbove => rw [clampUnit, if_neg hBelow, if_neg hAbove]

end Unit

namespace Move

variable {m : Move} {threshold : Float32}

/-- Moves as they are made: from an act, and scored any number of times. -/
inductive Made : Move → Prop where
  | unscored (act : Act) : Made ⟨act, none⟩
  | scored {m : Move} (x : Float32) : Made m → Made (m.withConfidence x)

/-- Something was said, and recognition gave a NaN for it. -/
structure IsGarbled (m : Move) : Prop where
  said : m.isNoInput = false
  unrated : ∃ x, m.confidence = some x ∧ x.isNaN = true

theorem Made.reloaded_eq (h : m.Made) (hRated : ∀ x, m.confidence = some x → x.isNaN = false) :
    m.reloaded = m := by
  cases h with
  | unscored act => rfl
  | scored x _ =>
    have hFinite : (clampUnit x).isFinite = true := by
      rcases isFinite_clampUnit x with hFinite | hNaN
      · exact hFinite
      · rw [hRated _ rfl] at hNaN
        cases hNaN
    simp [reloaded, withConfidence, Option.filter, hFinite, clampUnit_clampUnit]

theorem isUnclear_of_isNoInput (h : m.isNoInput = true) : m.isUnclear threshold = false := by
  simp [isUnclear, h]

theorem IsGarbled.isUnclear (h : m.IsGarbled) : m.isUnclear threshold = true := by
  obtain ⟨x, hScore, hNaN⟩ := h.unrated
  simp [Move.isUnclear, h.said, certainty, hScore, not_le_of_isNaN hNaN]

/-- A NaN is lost, and what has no confidence is taken for certain. -/
theorem IsGarbled.isUnclear_reloaded (h : m.IsGarbled) (hUnit : isUnit threshold = true) :
    m.reloaded.isUnclear threshold = false := by
  obtain ⟨x, hScore, hNaN⟩ := h.unrated
  have hLost : x.isFinite = false := by
    apply Bool.eq_false_iff.mpr
    intro hFinite
    rw [isNaN_eq_false_of_isFinite hFinite] at hNaN
    cases hNaN
  rw [isUnit, Bool.and_eq_true] at hUnit
  simp [Move.isUnclear, reloaded, certainty, hScore, Option.filter, hLost,
    of_decide_eq_true hUnit.2]

theorem Made.isUnclear_reloaded (h : m.Made) (hClear : ¬ m.IsGarbled) :
    m.reloaded.isUnclear threshold = m.isUnclear threshold := by
  cases hSaid : m.isNoInput with
  | true =>
    rw [isUnclear_of_isNoInput hSaid]
    exact isUnclear_of_isNoInput hSaid
  | false =>
    rw [h.reloaded_eq]
    intro x hScore
    apply Bool.eq_false_iff.mpr
    intro hNaN
    exact hClear ⟨hSaid, x, hScore, hNaN⟩

end Move

/-- Just the garbled moves of an utterance are taken for clear when it is loaded. -/
theorem Utterance.isIntelligible_reloaded {u : Utterance} {threshold : Float32}
    (hMade : ∀ m ∈ u.moves, m.Made) (hUnit : isUnit threshold = true) :
    u.reloaded.isIntelligible threshold = true ↔
      ∀ m ∈ u.moves, ¬ m.IsGarbled → m.isUnclear threshold = false := by
  simp only [isIntelligible, reloaded, List.any_map, Bool.not_eq_true', List.any_eq_false,
    Function.comp_apply, Bool.not_eq_true]
  constructor
  · intro h m hMove hClear
    rw [← (hMade m hMove).isUnclear_reloaded hClear]
    exact h m hMove
  · intro h m hMove
    by_cases hGarbled : m.IsGarbled
    · exact hGarbled.isUnclear_reloaded hUnit
    · rw [(hMade m hMove).isUnclear_reloaded hGarbled]
      exact h m hMove hGarbled

/-- Every saved move is loaded, and as clear as it was unless it is garbled. An utterance is loaded
as intelligible as it was unless all that was unclear about it are garbled moves. -/
theorem clarity_is_kept_iff {threshold : Float32} (hUnit : isUnit threshold = true) :
    (∀ m : Move, m.Made → ∃ m' : Move, load? (save m) = some m' ∧
      (m'.isUnclear threshold = m.isUnclear threshold ↔ ¬ m.IsGarbled)) ∧
    ∀ u : Utterance, (∀ m ∈ u.moves, m.Made) → ∃ u' : Utterance,
      load? (save u) = some u' ∧
      (u'.isIntelligible threshold = u.isIntelligible threshold ↔
        ((∃ m ∈ u.moves, m.IsGarbled) →
          ∃ m ∈ u.moves, ¬ m.IsGarbled ∧ m.isUnclear threshold = true)) := by
  constructor
  · intro m hMade
    refine ⟨m.reloaded, load?_save_move m, ?_, hMade.isUnclear_reloaded⟩
    intro hSame hGarbled
    rw [hGarbled.isUnclear_reloaded hUnit, hGarbled.isUnclear] at hSame
    cases hSame
  · intro u hMade
    refine ⟨u.reloaded, load?_save_utterance u, ?_⟩
    have hReloaded := Utterance.isIntelligible_reloaded hMade hUnit
    have hSpoken : u.isIntelligible threshold = true ↔
        ∀ m ∈ u.moves, m.isUnclear threshold = false := by
      simp [Utterance.isIntelligible]
    rw [Bool.eq_iff_iff, hReloaded, hSpoken]
    constructor
    · rintro hSame ⟨m, hMove, hGarbled⟩
      apply Classical.byContradiction
      intro hNone
      have hClear : ∀ m' ∈ u.moves, ¬ m'.IsGarbled → m'.isUnclear threshold = false := by
        intro m' hMove' hSharp
        exact Bool.eq_false_iff.mpr fun hUnclear => hNone ⟨m', hMove', hSharp, hUnclear⟩
      have hHeard := hSame.mp hClear m hMove
      rw [hGarbled.isUnclear] at hHeard
      cases hHeard
    · intro hOther
      refine ⟨fun hClear m hMove => ?_, fun hClear m hMove _ => hClear m hMove⟩
      by_cases hGarbled : m.IsGarbled
      · obtain ⟨m', hMove', hSharp, hUnclear⟩ := hOther ⟨m, hMove, hGarbled⟩
        rw [hClear m' hMove' hSharp] at hUnclear
        cases hUnclear
      · exact hClear m hMove hGarbled

def nan : Float32 := 0 / 0

def fridayHeard (confidence : Float32) : Move :=
  Move.withConfidence ⟨.answer (.short "friday"), none⟩ confidence

/-- An answer that is surer than certain, and silence that was rated in vain. -/
def sureTurn : Utterance where
  speaker := .usr
  moves := [fridayHeard (1 / 0), Move.withConfidence ⟨.noInput, none⟩ nan]

theorem sureTurn_stays_clear :
    isUnit 0.7 = true ∧ (∀ m ∈ sureTurn.moves, m.Made) ∧
    (∃ m' : Move, load? (save (fridayHeard (1 / 0))) = some m' ∧ m'.isUnclear 0.7 = false) ∧
    ∃ u' : Utterance, load? (save sureTurn) = some u' ∧ u'.isIntelligible 0.7 = true := by
  have hUnit : isUnit 0.7 = true := by decide +kernel
  have hMade : ∀ m ∈ sureTurn.moves, m.Made := by
    simp only [sureTurn, List.forall_mem_cons]
    exact ⟨.scored _ (.unscored _), .scored _ (.unscored _), nofun⟩
  have hFriday : ¬ (fridayHeard (1 / 0)).IsGarbled := by
    rintro ⟨-, x, hScore, hNaN⟩
    cases hScore
    revert hNaN
    decide +kernel
  have hSilence : ¬ (Move.withConfidence ⟨.noInput, none⟩ nan).IsGarbled := fun h => nomatch h.said
  obtain ⟨hMoves, hUtterances⟩ := clarity_is_kept_iff hUnit
  obtain ⟨m', hLoad, hKept⟩ := hMoves _ (hMade _ List.mem_cons_self)
  obtain ⟨u', hLoadAll, hKeptAll⟩ := hUtterances _ hMade
  refine ⟨hUnit, hMade, ⟨m', hLoad, ?_⟩, u', hLoadAll, ?_⟩
  · rw [hKept.mpr hFriday]
    decide +kernel
  · rw [hKeptAll.mpr]
    · decide +kernel
    · rintro ⟨m, hMove, hGarbled⟩
      simp only [sureTurn, List.mem_cons, List.not_mem_nil, or_false] at hMove
      rcases hMove with rfl | rfl
      · exact absurd hGarbled hFriday
      · exact absurd hGarbled hSilence

/-- An answer that recognition gave a NaN clears no threshold. It is saved with a null in place of
its confidence, and loaded as if it had been typed. -/
theorem garbled_friday_loads_as_typed :
    isUnit 0.7 = true ∧ (fridayHeard nan).Made ∧ (fridayHeard nan).isUnclear 0.7 = true ∧
    save (fridayHeard nan) =
      .obj [("act", save (Act.answer (.short "friday"))), ("confidence", .null)] ∧
    load? (save (fridayHeard nan)) = some (⟨.answer (.short "friday"), none⟩ : Move) ∧
    (⟨.answer (.short "friday"), none⟩ : Move).isUnclear 0.7 = false := by
  have hLost : (clampUnit nan).isFinite = false := by decide +kernel
  refine ⟨by decide +kernel, .scored _ (.unscored _), by decide +kernel, ?_, ?_, by decide +kernel⟩
  · simp [fridayHeard, Move.withConfidence, save, hLost]
  · rw [load?_save_move]
    simp [fridayHeard, Move.withConfidence, Move.reloaded, Option.filter, hLost]

end Dialogue
