import Dialogue.Proofs.Lecture.Questions

/-! # What a turn has to close

A turn can come up against the ceiling only by closing questions: those about the slot that is
filled in, in the cycle on the user's move, and all that are left when the room is told, in the
cycle on the reply.
-/

namespace Dialogue.Lecture

open Update Engine

variable {s t : InformationState} {turns : Nat} {m : Move} {p : Proposition}

/-- What is settled about the question on top: an answer in the right format, or the default after
too much silence. -/
def settled? (s : InformationState) (m : Move) : Option Proposition :=
  s.shared.qud.head?.bind fun q =>
    match m.act with
    | .answer a =>
      if engine.domain.relevant a q && engine.domain.accepts (q.combine a) then some (q.combine a)
      else none
    | .noInput =>
      if engine.config.escalation ≤ nextCount s.own.noInputCount then
        engine.domain.default? q.predicate
      else none
    | _ => none

/-- The firings from the start of the cycle until the slot is filled in. -/
def settling (s : InformationState) (m : Move) : Nat :=
  copies s + if m.isNoInput then 1 else 3 + engagement s

/-- A default clears the agenda. -/
def agendaAfter (s : InformationState) (m : Move) : List Action :=
  if m.isNoInput then [] else s.own.agenda

/-- A default is said in the same reply. -/
def assumed? (m : Move) (p : Proposition) : Option Proposition :=
  if m.isNoInput then some p else none

/-- In the turn in which `m` is heard both cycles are within the ceiling of 256 firings. -/
structure Fits (s : InformationState) (m : Move) : Prop where
  hearing : ∀ p, settled? s m = some p →
    settling s m + following (agendaAfter s m) (p :: s.shared.com) ≤ 256
  reply : ∀ p, settled? s m = some p → tells (agendaAfter s m) (p :: s.shared.com) = true →
    telling (assumed? m p) (s.shared.qud.drop (copies s)) ≤ 256
  held : m.asked? = some whichRoom → (answerable? s whichRoom).isSome = true →
    telling none (whichRoom :: s.shared.qud) ≤ 256

theorem fits_iff_of_settled? (hSettled : settled? s m = some p) (hAsked : m.asked? = none) :
    Fits s m ↔ settling s m + following (agendaAfter s m) (p :: s.shared.com) ≤ 256 ∧
      (tells (agendaAfter s m) (p :: s.shared.com) = true →
        telling (assumed? m p) (s.shared.qud.drop (copies s)) ≤ 256) := by
  constructor
  · intro h
    exact ⟨h.hearing p hSettled, h.reply p hSettled⟩
  · rintro ⟨hHearing, hReply⟩
    refine ⟨fun p' hSettled' => ?_, fun p' hSettled' => ?_, fun hRoom => ?_⟩
    · cases hSettled.symm.trans hSettled'
      exact hHearing
    · cases hSettled.symm.trans hSettled'
      exact hReply
    · rw [hAsked] at hRoom
      cases hRoom

theorem fits_iff_of_none (hNone : settled? s m = none) :
    Fits s m ↔ (m.asked? = some whichRoom → (answerable? s whichRoom).isSome = true →
      telling none (whichRoom :: s.shared.qud) ≤ 256) := by
  constructor
  · exact Fits.held
  · intro hHeld
    refine ⟨fun p hSettled => ?_, fun p hSettled => ?_, hHeld⟩
    · rw [hNone] at hSettled
      cases hSettled
    · rw [hNone] at hSettled
      cases hSettled

theorem Proceeds.fits_of_none (h : Proceeds (.user [m]) turns s True)
    (hNone : settled? s m = none) (hAsked : m.asked? ≠ some whichRoom) :
    Proceeds (.user [m]) turns s (Fits s m) :=
  h.congr (iff_of_true trivial ((fits_iff_of_none hNone).mpr fun hRoom => absurd hRoom hAsked))

theorem proceeds_of_silence (h : Within 0 turns s) {confidence : Option Float32} :
    Proceeds (.user [⟨.noInput, confidence⟩]) (turns + 1) s (Fits s ⟨.noInput, confidence⟩) := by
  by_cases hEscalate : engine.config.escalation ≤ nextCount s.own.noInputCount
  · cases hFallback : fallback? (engine.context (.user [⟨.noInput, confidence⟩]) s) with
    | none =>
      refine (proceeds_silence h rfl fun _ => hFallback).fits_of_none ?_ (by simp [Move.asked?])
      refine Option.bind_eq_none_iff.mpr fun q hTop => ?_
      have hNone := Option.bind_eq_none_iff.mp (Option.bind_eq_none_iff.mp hFallback q hTop)
      refine (if_pos hEscalate).trans (Option.eq_none_iff_forall_ne_some.mpr fun p hDefault => ?_)
      cases hNone p hDefault
    | some hit =>
      obtain ⟨q, hTop, hHit⟩ := Option.bind_eq_some_iff.mp hFallback
      obtain ⟨p, hDefault, -⟩ := Option.bind_eq_some_iff.mp hHit
      have hSettled : settled? s ⟨.noInput, confidence⟩ = some p := by
        refine Option.bind_eq_some_iff.mpr ⟨q, hTop, ?_⟩
        simpa [hEscalate] using hDefault
      exact (proceeds_fallback h rfl hEscalate hTop hDefault).congr
        (fits_iff_of_settled? hSettled rfl).symm
  · refine (proceeds_silence h rfl fun hReached => absurd hReached hEscalate).fits_of_none ?_
      (by simp [Move.asked?])
    refine Option.bind_eq_none_iff.mpr fun q _ => ?_
    simp [hEscalate]

theorem proceeds_of_typed (h : Within 0 turns s) {individual : String}
    (hTyped : individual ∈ answers) :
    Proceeds (.user [Move.withConfidence ⟨.answer (.short individual), none⟩ typedConfidence])
      (turns + 1) s
      (Fits s (Move.withConfidence ⟨.answer (.short individual), none⟩ typedConfidence)) := by
  have hClear := isUnclear_eq_false (.answer (.short individual))
  by_cases hTop : TopIn (fun q => engine.domain.relevant (.short individual) q = false) s
  · refine (proceeds_irrelevant h hClear rfl hTop).fits_of_none ?_ fun hAsked => (by cases hAsked)
    refine Option.bind_eq_none_iff.mpr fun q hHead => ?_
    simp [Move.withConfidence, hTop q hHead]
  · simp only [TopIn, not_forall, Bool.not_eq_false] at hTop
    obtain ⟨q, hTop, hRelevant⟩ := hTop
    cases hAccepts : engine.domain.accepts (q.combine (.short individual)) with
    | false =>
      refine (proceeds_misformatted h hClear rfl hTop hRelevant hAccepts).fits_of_none ?_
        fun hAsked => (by cases hAsked)
      refine Option.bind_eq_none_iff.mpr fun q' hHead => ?_
      cases hTop.symm.trans hHead
      simp [Move.withConfidence, hAccepts]
    | true =>
      have hSlot : q ≠ whichRoom := by
        rintro rfl
        rw [relevant_whichRoom individual hTyped] at hRelevant
        cases hRelevant
      have hSettled : settled? s (Move.withConfidence ⟨.answer (.short individual), none⟩
          typedConfidence) = some (q.combine (.short individual)) := by
        refine Option.bind_eq_some_iff.mpr ⟨q, hTop, ?_⟩
        simp [Move.withConfidence, hRelevant, hAccepts]
      have hAnswered := proceeds_answer h hClear (isSureAnswer_eq_false _) rfl hTop hSlot hRelevant
        hAccepts
      refine hAnswered.congr ((fits_iff_of_settled? hSettled rfl).trans ?_).symm
      rw [settling, agendaAfter, assumed?]
      simp [Move.isNoInput, Move.withConfidence, Nat.add_assoc]

/-- A turn returns exactly if it fits, and either way keeps the count. -/
theorem proceeds_of_heard (h : Within 0 turns s) (hHeard : Heard m) :
    Proceeds (.user [m]) (turns + 1) s (Fits s m) := by
  cases hHeard with
  | silence => exact proceeds_of_silence h
  | greet =>
    refine (proceeds_greet h (isUnclear_eq_false _) rfl).fits_of_none ?_ fun hAsked =>
      (by cases hAsked)
    exact Option.bind_eq_none_iff.mpr fun q _ => rfl
  | food =>
    refine (proceeds_askFood h (isUnclear_eq_false _) rfl).fits_of_none ?_ ?_
    · exact Option.bind_eq_none_iff.mpr fun q _ => rfl
    · decide
  | room =>
    refine (proceeds_askRoom h (isUnclear_eq_false _) rfl).congr
      ((fits_iff_of_none ?_).trans ?_).symm
    · exact Option.bind_eq_none_iff.mpr fun q _ => rfl
    · exact ⟨fun hHeld => hHeld rfl, fun hHeld _ => hHeld⟩
  | answer hTyped => exact proceeds_of_typed h hTyped

theorem predicate_of_settled? {q : Question} (hSettled : settled? s m = some p)
    (hTop : s.shared.qud.head? = some q) : p.predicate = q.predicate := by
  obtain ⟨q', hHead, hSettled⟩ := Option.bind_eq_some_iff.mp hSettled
  cases hTop.symm.trans hHead
  split at hSettled
  · split at hSettled
    · cases hSettled
      rfl
    · cases hSettled
  · split at hSettled
    · exact default?_eq_some hSettled
    · cases hSettled
  · cases hSettled

theorem exists_slot_of_settled? (hHeard : Heard m) (hSettled : settled? s m = some p) :
    ∃ q, s.shared.qud.head? = some q ∧ q ≠ whichRoom := by
  obtain ⟨q, hTop, hSettled⟩ := Option.bind_eq_some_iff.mp hSettled
  refine ⟨q, hTop, ?_⟩
  rintro rfl
  cases hHeard with
  | silence =>
    split at hSettled
    all_goals simp_all [default?_whichRoom]
  | answer hTyped => simp [Move.withConfidence, relevant_whichRoom _ hTyped] at hSettled
  | _ => cases hSettled

theorem following_le (agenda : List Action) (com : List Proposition) :
    following agenda com ≤ 3 := by
  rw [following]
  split
  · split <;> omega
  · split <;> omega

theorem telling_le (assumed : Option Proposition) (qud : List Question) :
    telling assumed qud ≤ qud.length + 3 := by
  have hAssumed := Bool.toNat_le (assumed.any fun c => qud.any c.resolves)
  rw [telling]
  omega

/-- In so few turns not enough questions come up. -/
theorem fits_of_within (h : Within 0 turns s) (hTurns : turns ≤ 128) (hHeard : Heard m) :
    Fits s m := by
  obtain ⟨filled, run, hPhase, hBudget, hRun⟩ := h.phase
  refine ⟨fun p hSettled => ?_, fun p hSettled hTells => ?_, fun _ hSome => ?_⟩
  · obtain ⟨q, hTop, hSlot⟩ := exists_slot_of_settled? hHeard hSettled
    obtain ⟨found, missing, above, rest, rfl, rfl, hPlan, hQud, hAbove, hCollects⟩ :=
      hPhase.exists_slot hTop hSlot
    have hFollowing := following_le (agendaAfter s m) (p :: s.shared.com)
    have hEngagement := engagement_le s
    rw [settling, copies_eq hQud hAbove hSlot]
    split <;> omega
  · obtain ⟨q, hTop, hSlot⟩ := exists_slot_of_settled? hHeard hSettled
    obtain ⟨found, missing, above, rest, rfl, rfl, hPlan, hQud, hAbove, hCollects⟩ :=
      hPhase.exists_slot hTop hSlot
    -- As long as another slot is missing no room is known, so there is nothing to tell.
    have hLast : missing = [] := by
      cases missing with
      | nil => rfl
      | cons q' missing =>
        have hFilled := hCollects.form.fill (.short p.argument)
        have hFact : q.combine (.short p.argument) = p := by
          rw [Question.combine, ← predicate_of_settled? hSettled hTop]
          rfl
        rw [hFact] at hFilled
        have hOpen : q' ∈ slots := by
          rw [← hCollects.all]
          simp
        have hNone : rooms.consult whichRoom (p :: s.shared.com) = none :=
          consult_eq_none hOpen (hFilled.slot_unsaid List.mem_cons_self)
        simp [tells, hNone] at hTells
    have hAll := congrArg List.length hCollects.all
    have hLength := congrArg List.length hQud
    rw [hLast, List.length_append] at hAll
    simp only [slots, List.length_append, List.length_cons, List.length_nil] at hAll hLength
    rw [drop_copies hQud hAbove hSlot]
    refine Nat.le_trans (telling_le _ _) ?_
    rw [List.length_cons]
    omega
  · refine Nat.le_trans (telling_le _ _) ?_
    rw [List.length_cons]
    cases hPhase with
    | idle _ _ hCollects => simp [answerable?_whichRoom_eq_none hCollects.form] at hSome
    | asking _ _ _ hCollects => simp [answerable?_whichRoom_eq_none hCollects.form] at hSome
    | told _ _ hFinds hShared => simp [hFinds.answerable?_eq_none hShared] at hSome
    | held => omega

end Dialogue.Lecture
