import Dialogue.Proofs.Lecture.Progress

/-! # Turns of the lecture task

Each kind of turn leaves the task within the count of one more turn. The firings of its two cycles
are kept with it: against the ceiling they tell whether the turn returns.
-/

namespace Dialogue.Lecture

open Update Engine

variable {input : TurnInput} {tops tops' : Question → Prop} {s t u : InformationState}
  {filled run n turns : Nat} {q : Question} {p : Proposition} {found missing : List Question}
  {m : Move} {fits fits' : Prop}

theorem maxFirings_engine : engine.config.maxFirings.toNat = 256 := rfl

/-- The turn leads on within the count, and returns exactly if it `fits`. -/
def Proceeds (input : TurnInput) (turns : Nat) (s : InformationState) (fits : Prop) : Prop :=
  ∃ u n k, engine.Converses input s u n k ∧ (n ≤ 256 ∧ k ≤ 256 ↔ fits) ∧ Within 0 turns u

theorem Proceeds.congr (h : Proceeds input turns s fits) (hIff : fits ↔ fits') :
    Proceeds input turns s fits' := by
  obtain ⟨u, n, k, hConverses, hFits, hWithin⟩ := h
  exact ⟨u, n, k, hConverses, hFits.trans hIff, hWithin⟩

theorem Proceeds.vacuously (h : Proceeds input turns s True) {premise : Prop} (hNot : ¬ premise) :
    Proceeds input turns s (premise → fits) :=
  h.congr (iff_of_true trivial fun hPremise => absurd hPremise hNot)

/-- The firings that ask for the next slot, unless the agenda is stuck. -/
def asking (s : InformationState) : Nat :=
  match s.own.agenda, s.own.plan with
  | [], .findout _ :: _ => 2
  | _, _ => 0

theorem asking_le (s : InformationState) : asking s ≤ 2 := by
  rw [asking]
  split <;> omega

theorem asking_of_findout (hAgenda : s.own.agenda = []) {rest : List Action}
    (hPlan : s.own.plan = .findout q :: rest) : asking s = 2 := by
  simp [asking, hAgenda, hPlan]

theorem asking_of_resting (h : Resting s) : asking s = 0 := by
  rw [asking]
  split
  · next hAgenda hPlan =>
    obtain ⟨q, hStep⟩ := h.plan hAgenda _ _ hPlan
    cases hStep
  · rfl

theorem sameTask_of_leaves (h : Leaves t u) : SameTask t u where
  agenda := by rw [h.own]
  plan := by rw [h.own]
  bel := by rw [h.own]
  qud := h.qud
  com := h.com

theorem within_of_leaves (h : Leaves t u) (hWithin : Within 0 turns t) : Within 0 turns u :=
  (sameTask_of_leaves h).within hWithin (Nat.le_of_eq (by rw [h.own])) (Nat.le_refl _)

theorem Within.weaken (h : Within 1 turns s) : Within 0 turns s :=
  (SameTask.mk rfl rfl rfl rfl rfl).within h (by omega) (by omega)

theorem Within.heard (h : Within 0 turns s) (hTask : SameTask s t)
    (hCount : t.own.noInputCount.toNat ≤ s.own.noInputCount.toNat + 1) : Within 1 (turns + 1) t :=
  hTask.within h (by omega) (by omega)

theorem Within.idle {spare : Nat} (h : Within spare turns s) : engine.Idle s := by
  obtain ⟨filled, run, hPhase, _⟩ := h.phase
  exact hPhase.idle_engine h.talk

theorem Phase.push (hPhase : Phase s filled run)
    (hAsk : s.shared.qud.head? = some q ∨ ∃ rest, s.own.plan = .findout q :: rest) :
    ∃ run' ≤ run + 1, Phase { s with shared.qud := q :: s.shared.qud } filled run' := by
  cases hPhase with
  | idle hPlan hQud _ => simp [hPlan, hQud] at hAsk
  | told hPlan hQud _ _ => simp [hPlan, hQud] at hAsk
  | held hPlan hAgenda hQud hFinds hBelief hUnsaid =>
    have hTop : whichRoom = q := by simpa [hPlan, hQud] using hAsk
    subst hTop
    exact ⟨0, Nat.zero_le _, .held hPlan hAgenda rfl ⟨hFinds.filled, hFinds.room, hFinds.beliefs⟩
      hBelief hUnsaid⟩
  | @asking found missing above rest hPlan hQud hAbove hCollects =>
    have hCollects' : Collects found missing { s with shared.qud := q :: s.shared.qud } :=
      ⟨hCollects.all, hCollects.filled, hCollects.form, hCollects.unknown⟩
    -- Whether it is asked again or from the plan, it is the next slot that comes on top.
    have hNext (hHead : missing.head? = some q) :
        ∃ run' ≤ above.length + 1, Phase { s with shared.qud := q :: s.shared.qud }
          found.length run' := by
      have hPhase' : Phase { s with shared.qud := q :: s.shared.qud } found.length
          (q :: above).length := by
        refine .asking hPlan (congrArg (q :: ·) hQud) (fun q' hMem => ?_) hCollects'
        rcases List.mem_cons.mp hMem with rfl | hOld
        · exact hHead
        · exact hAbove q' hOld
      exact ⟨_, Nat.le_refl _, hPhase'⟩
    rcases hAsk with hTop | ⟨steps, hStep⟩
    · rw [hQud] at hTop
      cases above with
      | nil =>
        cases hTop
        have hPhase' : Phase { s with shared.qud := whichRoom :: s.shared.qud } found.length
            ([] : List Question).length := .asking hPlan rfl (by simp) hCollects'
        exact ⟨0, Nat.zero_le _, hPhase'⟩
      | cons q' above =>
        cases hTop
        exact hNext (hAbove q List.mem_cons_self)
    · rw [hPlan] at hStep
      cases missing with
      | nil => cases hStep
      | cons q' missing =>
        cases hStep
        exact hNext rfl

theorem Phase.mem_issues (hPhase : Phase s filled run) {rest : List Action}
    (hStep : s.own.plan = .findout q :: rest) : q ∈ issues := by
  cases hPhase with
  | idle hPlan _ _ => simp [hPlan] at hStep
  | told hPlan _ _ _ => simp [hPlan] at hStep
  | held hPlan _ _ _ _ _ => simp [hPlan] at hStep
  | @asking found missing _ _ hPlan _ _ hCollects =>
    rw [hPlan] at hStep
    cases missing with
    | nil => cases hStep
    | cons q' missing =>
      cases hStep
      rw [issues, ← hCollects.all]
      simp

theorem Within.push (h : Within 1 turns s)
    (hAsk : s.shared.qud.head? = some q ∨ ∃ rest, s.own.plan = .findout q :: rest) :
    Within 0 turns { s with shared.qud := q :: s.shared.qud } := by
  obtain ⟨filled, run, hPhase, hQud, hRun⟩ := h.phase
  obtain ⟨run', hRun', hPhase'⟩ := hPhase.push hAsk
  refine ⟨⟨h.talk.agenda, h.talk.beliefs, h.talk.shared⟩, fun q' hMem => ?_, filled, run', hPhase',
    ?_, by omega⟩
  · rcases List.mem_cons.mp hMem with rfl | hOld
    · rcases hAsk with hTop | ⟨rest, hStep⟩
      · exact h.topics _ (List.mem_of_head? hTop)
      · exact hPhase.mem_issues hStep
    · exact h.topics q' hOld
  · rw [List.length_cons]
    change _ + 2 * filled + s.own.noInputCount.toNat + 0 ≤ _
    omega

/-- The plan asks for the next slot unless the agenda is stuck. -/
theorem Phase.resting_or_asks (hPhase : Phase s filled run) (hTalk : SmallTalk s) :
    Resting s ∨ s.own.agenda = [] ∧ ∃ q rest, s.own.plan = .findout q :: rest := by
  have hStuck : ∀ a rest, s.own.agenda = a :: rest →
      ∃ q, a = .respond q ∧ answerable? s q = none := by
    intro a rest hAgenda
    refine ⟨whichFood, hTalk.agenda a (by rw [hAgenda]; exact List.mem_cons_self), ?_⟩
    rcases hTalk.shared with hShared | ⟨_, hEmpty⟩
    · exact answerable?_of_shared hTalk hShared
    · rw [hEmpty] at hAgenda
      cases hAgenda
  cases hPhase with
  | idle hPlan hQud _ => exact .inl ⟨by simp [hPlan], fun _ _ => topIn_of_nil hQud, hStuck⟩
  | told hPlan hQud _ _ => exact .inl ⟨by simp [hPlan], fun _ _ => topIn_of_nil hQud, hStuck⟩
  | held hPlan hAgenda _ _ _ _ => exact .inl ⟨by simp [hPlan], by simp [hAgenda], hStuck⟩
  | @asking found missing _ _ hPlan _ _ _ =>
    cases missing with
    | nil =>
      have hPlan : s.own.plan = [.consult whichRoom] := hPlan
      refine .inl ⟨fun _ a rest hStep => ?_, by simp [hPlan], hStuck⟩
      rw [hPlan] at hStep
      cases hStep
      exact ⟨whichRoom, rfl⟩
    | cons q missing =>
      by_cases hAgenda : s.own.agenda = []
      · exact .inr ⟨hAgenda, q, _, hPlan⟩
      · exact .inl ⟨by simp [hAgenda], by simp [hAgenda], hStuck⟩

/-- When the move is dealt with the next slot is asked for, or nothing is left to do. -/
theorem proceeds_of_reaches (h : engine.Reaches input tops n s t) (hWithin : Within 1 turns t)
    (hMay : (engine.context input t).maySelect = true)
    (hMute : ∀ x ∈ t.nextMoves, engine.Mute tops' x) (hTop : TopIn tops' t)
    (hNext : ∀ q rest, t.own.plan = .findout q :: rest → tops' q) :
    Proceeds input turns s (n + asking t ≤ 256) := by
  obtain ⟨filled, run, hPhase, _⟩ := hWithin.phase
  rcases hPhase.resting_or_asks hWithin.talk with hResting | ⟨hAgenda, q, rest, hPlan⟩
  · obtain ⟨k, hk, u, hConverses, hLeaves⟩ :=
      exists_converses_of_mute rfl h hWithin.idle (.inr hResting) hMute hTop
    rw [asking_of_resting hResting]
    exact ⟨u, n, k, hConverses, by omega, within_of_leaves hLeaves hWithin.weaken⟩
  · obtain ⟨u, hConverses, hLeaves⟩ := exists_converses_of_findout rfl h hWithin.idle hMay hAgenda
      hPlan hMute (hNext q rest hPlan)
    rw [asking_of_findout hAgenda hPlan]
    exact ⟨u, n + 2, 2, hConverses, by omega,
      within_of_leaves hLeaves (hWithin.push (.inr ⟨rest, hPlan⟩))⟩

theorem proceeds_of_reaches_soon (h : engine.Reaches input tops n s t) (hWithin : Within 1 turns t)
    (hMay : (engine.context input t).maySelect = true)
    (hMute : ∀ x ∈ t.nextMoves, engine.Mute tops' x) (hTop : TopIn tops' t)
    (hNext : ∀ q rest, t.own.plan = .findout q :: rest → tops' q) (hSoon : n ≤ 254) :
    Proceeds input turns s True := by
  refine (proceeds_of_reaches h hWithin hMay hMute hTop hNext).congr (iff_true_intro ?_)
  have hAsking := asking_le t
  omega

theorem proceeds_of_again (h : engine.Reaches input tops n s t) (hWithin : Within 1 turns t)
    (hMay : (engine.context input t).maySelect = false) {before after : List Move}
    (hMoves : t.nextMoves = before ++ ⟨.ask q, none⟩ :: after)
    (hBefore : ∀ x ∈ before, IsRemark x) (hAfter : ∀ x ∈ after, IsRemark x)
    (hTop : t.shared.qud.head? = some q) (hSoon : n ≤ 256) : Proceeds input turns s True := by
  obtain ⟨u, hConverses, hLeaves⟩ := exists_converses_of_asked rfl h hWithin.idle (.inl hMay) hMoves
    (fun x hMem => (hBefore x hMem).mute fun _ => True) (fun x hMem => (hAfter x hMem).mute _)
    trivial (hWithin.idle.top q hTop)
  exact ⟨u, n, 2, hConverses, iff_true_intro ⟨hSoon, by omega⟩,
    within_of_leaves hLeaves (hWithin.push (.inl hTop))⟩

theorem proceeds_greet (h : Within 0 turns s)
    (hClear : m.isUnclear engine.config.lowConfidence = false) (hAct : m.act = .greet) :
    Proceeds (.user [m]) (turns + 1) s True := by
  obtain ⟨t, hLeads, hQuiet, hState⟩ :=
    leads_hearsGreet (e := engine) (s := s.beginTurn) rfl rfl hClear hAct
  have hTask : SameTask s t := by
    rw [hState]
    exact ⟨rfl, rfl, rfl, rfl, rfl⟩
  have hWithin : Within 1 (turns + 1) t := by
    refine h.heard hTask ?_
    rw [hState]
    exact Nat.le_succ _
  refine proceeds_of_reaches_soon ⟨hLeads, hQuiet, fun _ _ => trivial⟩ hWithin ?_
    (fun x hMem => ?_) (fun _ _ => trivial) (fun _ _ _ => trivial) (by omega)
  · rw [hState]
    rfl
  · rw [hState] at hMem
    cases hMem

theorem proceeds_irrelevant (h : Within 0 turns s)
    (hClear : m.isUnclear engine.config.lowConfidence = false) {a : Answer}
    (hAnswered : m.answered? = some a)
    (hTop : TopIn (fun q => engine.domain.relevant a q = false) s) :
    Proceeds (.user [m]) (turns + 1) s True := by
  obtain ⟨n, hn, acks, t, hAcks, hLeads, hQuiet, turn, hSelected, hState⟩ :=
    exists_leads_hearsIrrelevant (e := engine) (s := s.beginTurn) rfl rfl hClear hAnswered hTop
      fun q h => h
  have hTask : SameTask s t := by
    rw [hState]
    exact ⟨rfl, rfl, rfl, rfl, rfl⟩
  have hWithin : Within 1 (turns + 1) t := by
    refine h.heard hTask ?_
    rw [hState]
    exact Nat.zero_le _
  refine proceeds_of_reaches_soon ⟨hLeads, hQuiet, ?_⟩ hWithin ?_ (fun x hMem => ?_)
    (fun _ _ => trivial) (fun _ _ _ => trivial) (by omega)
  · rw [hState]
    exact hTop
  · simp [Context.maySelect, TurnInput.user, hState, hSelected]
  · rw [hState] at hMem
    exact (isRemark_of_isAcknowledge (List.all_eq_true.mp hAcks x hMem)).mute _

theorem proceeds_misformatted (h : Within 0 turns s)
    (hClear : m.isUnclear engine.config.lowConfidence = false) {a : Answer}
    (hAnswered : m.answered? = some a) (hTop : s.shared.qud.head? = some q)
    (hRelevant : engine.domain.relevant a q = true)
    (hRejects : engine.domain.accepts (q.combine a) = false) :
    Proceeds (.user [m]) (turns + 1) s True := by
  obtain ⟨f, hFormat, hRejects⟩ := exists_format_of_accepts hRejects
  obtain ⟨qs, hQud⟩ : ∃ qs, s.shared.qud = q :: qs := List.head?_eq_some_iff.mp hTop
  obtain ⟨n, hn, t, hLeads, hQuiet, turn, hSelected, hState⟩ :=
    exists_leads_hearsMisformatted (e := engine) (s := s.beginTurn) rfl rfl hClear hAnswered hQud
      hRelevant hFormat hRejects
  have hTask : SameTask s t := by
    rw [hState]
    exact ⟨rfl, rfl, rfl, rfl, rfl⟩
  have hWithin : Within 1 (turns + 1) t := by
    refine h.heard hTask ?_
    rw [hState]
    exact Nat.zero_le _
  refine proceeds_of_again ⟨hLeads, hQuiet, fun _ _ => trivial⟩ hWithin ?_
    (show t.nextMoves = [] ++ ⟨.ask q, none⟩ :: [⟨.inform f.hint, none⟩] by rw [hState]; rfl)
    (by simp) ?_ ?_ (by omega)
  · simp [Context.maySelect, hState, hSelected]
  · simp
  · rw [hState]
    exact hTop

theorem proceeds_silence (h : Within 0 turns s) (hAct : m.act = .noInput)
    (hFallback : engine.config.escalation ≤ nextCount s.own.noInputCount →
      fallback? (engine.context (.user [m]) s) = none) :
    Proceeds (.user [m]) (turns + 1) s True := by
  obtain ⟨t, hLeads, hQuiet, hState⟩ :=
    leads_hearsSilence (e := engine) (s := s.beginTurn) rfl rfl hAct hFallback
  have hCount : (nextCount s.own.noInputCount).toNat ≤ s.own.noInputCount.toNat + 1 := by
    rw [toNat_nextCount]
    exact Nat.min_le_left _ _
  have hTask : SameTask s t := by
    rw [hState]
    exact ⟨rfl, rfl, rfl, rfl, rfl⟩
  have hWithin : Within 1 (turns + 1) t := by
    refine h.heard hTask ?_
    rw [hState]
    exact hCount
  have hMay : (engine.context (.user [m]) t).maySelect = false := by
    simp [Context.maySelect, hState]
  have hMoves : t.nextMoves = ⟨.noInput, none⟩ :: askAgain s := by
    rw [hState]
    rfl
  have hReaches : engine.Reaches (.user [m]) (fun _ => True) 2 s t :=
    ⟨hLeads, hQuiet, fun _ _ => trivial⟩
  cases hTop : s.shared.qud.head? with
  | none =>
    rw [askAgain_of_none hTop] at hMoves
    obtain ⟨k, hk, u, hConverses, hLeaves⟩ := exists_converses_of_mute rfl hReaches hWithin.idle
      (.inl hMay) (fun x hMem => by
        rw [hMoves, List.mem_singleton] at hMem
        exact hMem ▸ isRemark_noInput.mute fun _ => True) fun _ _ => trivial
    exact ⟨u, 2, k, hConverses, iff_true_intro ⟨by omega, by omega⟩,
      within_of_leaves hLeaves hWithin.weaken⟩
  | some q =>
    rw [askAgain_of_top hTop] at hMoves
    refine proceeds_of_again hReaches hWithin hMay
      (show t.nextMoves = [⟨.noInput, none⟩] ++ ⟨.ask q, none⟩ :: [] from hMoves) ?_ (by simp) ?_
      (by omega)
    · intro x hMem
      exact List.mem_singleton.mp hMem ▸ isRemark_noInput
    · rw [hState]
      exact hTop

end Dialogue.Lecture
