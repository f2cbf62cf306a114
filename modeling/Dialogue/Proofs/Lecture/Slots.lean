import Dialogue.Proofs.Lecture.Room

/-! # Filling in a slot

The user answers the question on top, or stays silent until a default is assumed for it.
-/

namespace Dialogue.Lecture

open Update Engine

variable {input : TurnInput} {s t u : InformationState} {filled run n turns : Nat} {q : Question}
  {p : Proposition} {found missing rest : List Question} {m : Move}

theorem predicate_ne_favoriteFood : ∀ q ∈ issues, q.predicate ≠ favoriteFood := by decide

/-- Only a slot that is still missing comes on top of the room. -/
theorem Phase.exists_slot (hPhase : Phase s filled run) (hTop : s.shared.qud.head? = some q)
    (hSlot : q ≠ whichRoom) :
    ∃ found missing above rest, filled = found.length ∧ run = above.length + 1 ∧
      s.own.plan = formSteps whichRoom (q :: missing) ∧
      s.shared.qud = (q :: above) ++ whichRoom :: rest ∧ (∀ q' ∈ above, q' = q) ∧
      Collects found (q :: missing) s := by
  cases hPhase with
  | idle _ hQud _ => simp [hQud] at hTop
  | told _ hQud _ _ => simp [hQud] at hTop
  | held _ _ hQud _ _ _ =>
    rw [hQud] at hTop
    cases hTop
    exact absurd rfl hSlot
  | @asking found missing above rest hPlan hQud hAbove hCollects =>
    cases above with
    | nil =>
      rw [hQud] at hTop
      cases hTop
      exact absurd rfl hSlot
    | cons q' above =>
      rw [hQud] at hTop
      cases hTop
      have hNext := hAbove q List.mem_cons_self
      cases missing with
      | nil => cases hNext
      | cons q' missing =>
        cases hNext
        refine ⟨found, missing, above, rest, rfl, rfl, hPlan, hQud, fun q' hMem => ?_, hCollects⟩
        exact (Option.some.inj (hAbove q' (List.mem_cons_of_mem _ hMem))).symm

/-- The copies of the question on top, which are closed with it. -/
def copies (s : InformationState) : Nat :=
  (s.shared.qud.takeWhile fun q => s.shared.qud.head? == some q).length

section Copies

variable {above : List Question} (hQud : s.shared.qud = (q :: above) ++ whichRoom :: rest)
  (hAbove : ∀ q' ∈ above, q' = q) (hSlot : q ≠ whichRoom)
include hQud hAbove hSlot

theorem copies_eq : copies s = above.length + 1 := by
  have hCopies : ∀ q' ∈ q :: above, (s.shared.qud.head? == some q') = true := by
    intro q' hMem
    rw [hQud, (List.mem_cons.mp hMem).elim id (hAbove q')]
    simp
  have hRoom : ¬ (s.shared.qud.head? == some whichRoom) = true := by
    rw [hQud]
    simpa using hSlot
  have hTake : (((q :: above) ++ whichRoom :: rest).takeWhile fun q' =>
      s.shared.qud.head? == some q') = q :: above := by
    rw [List.takeWhile_append_of_pos hCopies, List.takeWhile_cons, if_neg hRoom, List.append_nil]
  rw [← hQud] at hTake
  rw [copies, hTake, List.length_cons]

theorem drop_copies : s.shared.qud.drop (copies s) = whichRoom :: rest := by
  rw [copies_eq hQud hAbove hSlot, hQud]
  simp

end Copies

/-- The question that goes from under discussion pays for half of the slot. -/
theorem budget_of_slot {above : List Question}
    (hQud : s.shared.qud = (q :: above) ++ whichRoom :: rest)
    (hBudget : s.shared.qud.length + 2 * found.length + s.own.noInputCount.toNat + 0 ≤ 2 * turns) :
    (whichRoom :: rest).length + 2 * (found ++ [q]).length + 1 ≤ 2 * (turns + 1) := by
  rw [hQud] at hBudget
  simp only [List.length_append, List.length_cons, List.length_nil] at hBudget ⊢
  omega

theorem Collects.filled_append (h : Collects found (q :: missing) s)
    (hCom : t.shared.com = p :: s.shared.com) (hAnswer : p.predicate = q.predicate) :
    ∀ q' ∈ found ++ [q], t.isResolved q' = true := by
  intro q' hMem
  rw [isResolved_iff_of_commit hCom]
  rcases List.mem_append.mp hMem with hOld | hNew
  · exact .inr (h.filled q' hOld)
  · rw [List.mem_singleton.mp hNew]
    exact .inl hAnswer

theorem proceeds_answer (h : Within 0 turns s)
    (hClear : m.isUnclear engine.config.lowConfidence = false)
    (hUnsure : isSureAnswer (engine.context (.user [m]) s.beginTurn) m = false) {a : Answer}
    (hAnswered : m.answered? = some a) (hTop : s.shared.qud.head? = some q)
    (hSlot : q ≠ whichRoom) (hRelevant : engine.domain.relevant a q = true)
    (hAccepts : engine.domain.accepts (q.combine a) = true) :
    Proceeds (.user [m]) (turns + 1) s
      (copies s + 3 + engagement s + following s.own.agenda (q.combine a :: s.shared.com) ≤ 256 ∧
        (tells s.own.agenda (q.combine a :: s.shared.com) = true →
          telling none (s.shared.qud.drop (copies s)) ≤ 256)) := by
  obtain ⟨filled, run, hPhase, hBudget, hRun⟩ := h.phase
  obtain ⟨found, missing, above, rest, rfl, rfl, hPlan, hQud, hAbove, hCollects⟩ :=
    hPhase.exists_slot hTop hSlot
  obtain ⟨acks, t, -, hAcks, hUnacknowledged, hLeads, hQuiet, turn, hSelected, hState⟩ :=
    exists_leads_hearsAnswer (e := engine) (s := s.beginTurn) rfl rfl hClear hAnswered hQud
      hRelevant hAccepts
  have hPlan' : t.own.plan = .findout q :: formSteps whichRoom missing := by
    rw [hState]
    exact hPlan
  have hCom : t.shared.com = q.combine a :: s.shared.com := by rw [hState]; rfl
  have hQud' : t.shared.qud = (q :: above) ++ whichRoom :: rest := by
    rw [hState]
    exact hQud
  have hResolved : t.isResolved q = true := (isResolved_iff_of_commit hCom).mpr (.inl rfl)
  have hForm : IsOpenForm whichRoom missing t.own.bel t.shared.com := by
    rw [hState]
    exact hCollects.form.fill a
  have hTalk : SmallTalk t := by
    rw [hState]
    exact h.talk.commit (List.Subset.refl _) rfl (fun x => List.mem_cons)
      (predicate_ne_favoriteFood q (List.mem_cons_of_mem _ hCollects.mem_slots))
  -- All copies of the question are closed, and then the step that asked for the slot is dropped.
  have hDowndates := leads_downdates rfl hQuiet (fun _ _ => trivial) hQud' (fun _ _ => trivial)
    fun q' hMem => by rwa [(List.mem_cons.mp hMem).elim id (hAbove q')]
  have hFoundOut := leads_foundOut (s := { t with shared.qud := whichRoom :: rest }) rfl
    (hQuiet.of_hearing rfl) (fun _ _ => trivial)
    (topIn_of_cons rfl (isResolved_eq_false hForm.goal_unsaid)) hTalk.noPlan hPlan' hResolved
  have hAll : (found ++ [q]) ++ missing = slots := by rw [List.append_assoc]; exact hCollects.all
  have hFilled : Proceeds (.user [m]) (turns + 1) s
      (2 + engagement s + acks.length + (above.length + 1) + 1 +
          following t.own.agenda t.shared.com ≤ 256 ∧
        (tells t.own.agenda t.shared.com = true →
          telling none (whichRoom :: rest) ≤ 256)) := by
    refine proceeds_of_filled
      ⟨(hLeads.trans rfl hDowndates).trans rfl hFoundOut, hQuiet.of_hearing rfl,
        fun _ _ => trivial⟩ ?_ ⟨hTalk.agenda, hTalk.beliefs, hTalk.shared⟩ ?_ rfl rfl hAll
      (hCollects.filled_append hCom rfl) hForm (.remarks ?_) ?_
    · simp [Context.maySelect, TurnInput.user, hState, hSelected]
    · intro q' hMem
      exact h.topics q' (by rw [hQud]; exact List.mem_append_right _ hMem)
    · intro x hMem
      rw [hState] at hMem
      exact isRemark_of_isAcknowledge (List.all_eq_true.mp hAcks x hMem)
    · rw [hState]
      exact budget_of_slot hQud hBudget
  refine hFilled.congr ?_
  have hCount : 2 + engagement s + acks.length + (above.length + 1) + 1 =
      above.length + 1 + 3 + engagement s := by
    rw [hUnacknowledged hUnsure, List.length_nil]
    omega
  rw [drop_copies hQud hAbove hSlot, copies_eq hQud hAbove hSlot, hCount, hCom,
    show t.own.agenda = s.own.agenda by rw [hState]; rfl]

theorem default?_eq_some {d : Domain} {predicate : String} (h : d.default? predicate = some p) :
    p.predicate = predicate := by
  rw [Domain.default?, Option.map_eq_some_iff] at h
  obtain ⟨individual, _, rfl⟩ := h
  rfl

theorem proceeds_fallback (h : Within 0 turns s)
    (hAct : m.act = .noInput) (hEscalate : engine.config.escalation ≤ nextCount s.own.noInputCount)
    (hTop : s.shared.qud.head? = some q) (hDefault : engine.domain.default? q.predicate = some p) :
    Proceeds (.user [m]) (turns + 1) s
      (copies s + 1 + following [] (p :: s.shared.com) ≤ 256 ∧
        (tells [] (p :: s.shared.com) = true →
          telling (some p) (s.shared.qud.drop (copies s)) ≤ 256)) := by
  have hSlot : q ≠ whichRoom := by
    rintro rfl
    rw [default?_whichRoom] at hDefault
    cases hDefault
  obtain ⟨filled, run, hPhase, hBudget, hRun⟩ := h.phase
  obtain ⟨found, missing, above, rest, rfl, rfl, hPlan, hQud, hAbove, hCollects⟩ :=
    hPhase.exists_slot hTop hSlot
  obtain ⟨t, hLeads, hQuiet, hState⟩ := leads_hearsFallback (e := engine) (s := s.beginTurn) rfl rfl
    hAct hEscalate hQud hDefault
  have hAnswer := default?_eq_some hDefault
  have hPlan' : t.own.plan = formSteps whichRoom missing := by
    rw [hState]
    change (if planAsks s.own.plan q then s.own.plan.tail else s.own.plan) = _
    simp [hPlan, formSteps_cons, planAsks]
  have hCom : t.shared.com = p :: s.shared.com := by rw [hState]; rfl
  have hQud' : t.shared.qud = above ++ whichRoom :: rest := by rw [hState]; rfl
  have hResolved : t.isResolved q = true := (isResolved_iff_of_commit hCom).mpr (.inl hAnswer)
  have hForm : IsOpenForm whichRoom missing t.own.bel t.shared.com := by
    have hFill := hCollects.form.fill (.short p.argument)
    rw [show q.combine (.short p.argument) = p by rw [Question.combine, ← hAnswer]; rfl] at hFill
    rw [hState]
    exact hFill
  have hTalk : SmallTalk t := by
    rw [hState]
    refine h.talk.commit (List.nil_subset _) rfl (fun x => List.mem_cons) ?_
    rw [hAnswer]
    exact predicate_ne_favoriteFood q (List.mem_cons_of_mem _ hCollects.mem_slots)
  -- The default has closed one copy and dropped the step already; the other copies are left.
  have hDowndates := leads_downdates rfl hQuiet (fun _ _ => trivial) hQud' (fun _ _ => trivial)
    fun q' hMem => by rwa [hAbove q' hMem]
  have hAll : (found ++ [q]) ++ missing = slots := by rw [List.append_assoc]; exact hCollects.all
  have hMoves : t.nextMoves = [⟨.answer (.full p), none⟩] := by rw [hState]; rfl
  have hAside : Aside missing t.shared.com (some p) t.nextMoves := by
    rw [hMoves]
    refine .fact hCom fun q' hMem => ?_
    rw [← Bool.not_eq_true, Proposition.resolves_iff]
    intro hEq
    refine hForm.unsaid p (by rw [hCom]; exact List.mem_cons_self) ?_
    rw [hEq]
    exact List.mem_map_of_mem hMem
  have hFilled : Proceeds (.user [m]) (turns + 1) s
      (2 + above.length + following t.own.agenda t.shared.com ≤ 256 ∧
        (tells t.own.agenda t.shared.com = true →
          telling (some p) (whichRoom :: rest) ≤ 256)) := by
    refine proceeds_of_filled
      ⟨hLeads.trans rfl hDowndates, hQuiet.of_hearing rfl, fun _ _ => trivial⟩ ?_
      ⟨hTalk.agenda, hTalk.beliefs, hTalk.shared⟩ ?_ hPlan' rfl hAll
      (hCollects.filled_append hCom hAnswer) hForm hAside ?_
    · simp [Context.maySelect, TurnInput.user, hState]
    · intro q' hMem
      exact h.topics q' (by rw [hQud]; exact List.mem_append_right _ hMem)
    · rw [hState]
      exact budget_of_slot hQud hBudget
  refine hFilled.congr ?_
  rw [drop_copies hQud hAbove hSlot, copies_eq hQud hAbove hSlot, hCom,
    show t.own.agenda = [] by rw [hState], show 2 + above.length = above.length + 1 + 1 by omega]

end Dialogue.Lecture
