import Dialogue.Proofs.Update.Pursuing
import Dialogue.Proofs.Update.Taking

/-! # The system hears itself

The cycle on a reply, from its start until it is quiet: questions come under discussion, and an
answer to the question on top becomes a commitment.
-/

namespace Dialogue

open Update

namespace Engine

variable {e : Engine} {input : TurnInput} {s t : InformationState} {m : Move}
  {tops : Question → Prop} {q : Question} {before after moves : List Move} {p c : Proposition}

theorem combine_of_resolves (h : p.resolves q = true) : q.combine (.full p) = p := by
  rw [Proposition.resolves_iff] at h
  rw [Question.combine, ← h]
  rfl

theorem acceptedFact?_of_resolves (h : p.resolves q = true) :
    acceptedFact? (e.context input s) ⟨.sys, moves⟩ q ⟨.answer (.full p), none⟩ = some p := by
  simp [acceptedFact?, Move.answered?, Domain.relevant, h, combine_of_resolves h]

theorem findPending?_of_answer
    (hLatched : s.latched? = some ⟨.sys, before ++ [⟨.answer (.full p), none⟩]⟩)
    (hConsumed : s.turn.consumed = []) (hBefore : ∀ x ∈ before, e.Mute tops x) (hTop : tops q)
    (hResolves : p.resolves q = true) :
    (e.context input s).findPending? (acceptedFact? (e.context input s)
      ⟨.sys, before ++ [⟨.answer (.full p), none⟩]⟩ q) = some (before.length, p) :=
  InformationState.findPending?_of_append hLatched hConsumed
    (fun x hMem => (hBefore x hMem).acceptedFact?_eq_none hTop _)
    (acceptedFact?_of_resolves hResolves)

section

variable (hRules : e.rules = defaultRules) (hFresh : s.turn = {})
include hRules hFresh

theorem leads_latch_echo (hMoves : moves ≠ []) :
    e.Leads (.echo moves) 1 s { s with
      shared.lu := some ⟨.sys, moves⟩, turn := { latched := true } } := by
  have hLatch : e.Leads (.echo moves) 1 s _ := leads_latch hRules rfl hMoves (by rw [hFresh])
  rwa [hFresh] at hLatch

theorem leads_echoMute (hMoves : moves ≠ []) (hMute : ∀ x ∈ moves, e.Mute tops x) :
    ∃ t, e.Leads (.echo moves) 1 s t ∧ e.Quiet (.echo moves) tops t ∧
      t = { s with shared.lu := some ⟨.sys, moves⟩, turn := { latched := true } } := by
  refine ⟨_, leads_latch_echo hRules hFresh hMoves, ?_, rfl⟩
  refine quiet_of_echo rfl (InformationState.latched?_eq_some_iff.mpr ⟨rfl, rfl⟩) fun x hMem => ?_
  exact hMute x.2 (InformationState.mem_moves_of_pending
    (InformationState.latched?_eq_some_iff.mpr ⟨rfl, rfl⟩) hMem)

theorem exists_leads_echoAsk (hBefore : ∀ x ∈ before, e.Mute tops x)
    (hAfter : ∀ x ∈ after, e.Mute tops x) (q : Question) :
    ∃ t, e.Leads (.echo (before ++ ⟨.ask q, none⟩ :: after)) 2 s t ∧
      e.Quiet (.echo (before ++ ⟨.ask q, none⟩ :: after)) tops t ∧
      ∃ turn : TurnMarks, t = { s with
        shared.lu := some ⟨.sys, before ++ ⟨.ask q, none⟩ :: after⟩
        shared.qud := q :: s.shared.qud
        turn := turn } := by
  have hMoves : before ++ ⟨.ask q, none⟩ :: after ≠ [] := by simp
  have hLatch := leads_latch_echo (e := e) hRules hFresh hMoves
  have hPushed : e.Leads (.echo (before ++ ⟨.ask q, none⟩ :: after)) 1 _ _ :=
    leads_sysAsk (s := { s with
        shared.lu := some ⟨.sys, before ++ ⟨.ask q, none⟩ :: after⟩, turn := { latched := true } })
      hRules rfl rfl rfl (fun x hMem => (hBefore x hMem).question) rfl
  refine ⟨_, hLatch.trans hRules hPushed, ?_, _, rfl⟩
  refine quiet_of_echo rfl (InformationState.latched?_eq_some_iff.mpr ⟨rfl, rfl⟩) fun x hMem => ?_
  exact (InformationState.mem_of_pending_append
    (InformationState.latched?_eq_some_iff.mpr ⟨rfl, rfl⟩) rfl hMem).elim (hBefore x.2) (hAfter x.2)

theorem exists_leads_echoAnswer (hBefore : ∀ x ∈ before, e.Mute tops x) {qs : List Question}
    (hQud : s.shared.qud = q :: qs) (hTop : tops q) (hResolves : p.resolves q = true) :
    ∃ t, e.Leads (.echo (before ++ [⟨.answer (.full p), none⟩])) 2 s t ∧
      e.Quiet (.echo (before ++ [⟨.answer (.full p), none⟩])) tops t ∧
      t = { s with
        shared.lu := some ⟨.sys, before ++ [⟨.answer (.full p), none⟩]⟩
        shared.com := p :: s.shared.com
        turn := { latched := true, consumed := [before.length] } } := by
  have hMoves : before ++ [⟨.answer (.full p), none⟩] ≠ [] := by simp
  have hLatch := leads_latch_echo (e := e) hRules hFresh hMoves
  have hLatched : InformationState.latched? { s with
      shared.lu := some ⟨.sys, before ++ [⟨.answer (.full p), none⟩]⟩
      turn := { latched := true } } =
      some ⟨.sys, before ++ ⟨.answer (.full p), none⟩ :: []⟩ := rfl
  have hCommitted : e.Leads (.echo (before ++ [⟨.answer (.full p), none⟩])) 1 _ _ :=
    leads_echoedAnswer hRules rfl hLatched (fun x hMem => ?_) hQud
      (findPending?_of_answer hLatched rfl hBefore hTop hResolves)
  · refine ⟨_, hLatch.trans hRules hCommitted, ?_, rfl⟩
    refine quiet_of_echo rfl (InformationState.latched?_eq_some_iff.mpr ⟨rfl, rfl⟩) fun x hMem => ?_
    exact (InformationState.mem_of_pending_append
      (InformationState.latched?_eq_some_iff.mpr ⟨rfl, rfl⟩) rfl hMem).elim (hBefore x.2) (by simp)
  · rcases List.mem_append.mp (InformationState.mem_moves_of_pending hLatched hMem) with
      hEarlier | hLast
    · exact (hBefore x.2 hEarlier).question
    · rw [List.mem_singleton.mp hLast]
      rfl

theorem exists_leads_echoGreet : ∃ t, e.Leads (.echo [⟨.greet, none⟩]) 2 s t ∧
    e.Quiet (.echo [⟨.greet, none⟩]) (fun _ => True) t ∧
    ∃ turn : TurnMarks,
      t = { s with shared.lu := some ⟨.sys, [⟨.greet, none⟩]⟩, turn := turn } := by
  have hLatch := leads_latch_echo (e := e) hRules hFresh (List.cons_ne_nil ⟨.greet, none⟩ [])
  have hLatched : InformationState.latched? { s with
      shared.lu := some ⟨.sys, [⟨.greet, none⟩]⟩, turn := { latched := true } } =
      some ⟨.sys, [⟨.greet, none⟩]⟩ := rfl
  have hGreeted : e.Leads (.echo [⟨.greet, none⟩]) 1 _ _ :=
    leads_greeted hRules rfl hLatched rfl rfl
  refine ⟨_, hLatch.trans hRules hGreeted, ?_, _, rfl⟩
  refine quiet_of_echo rfl (InformationState.latched?_eq_some_iff.mpr ⟨rfl, rfl⟩) fun x hMem => ?_
  simp [InformationState.pendingMoves, InformationState.latched?] at hMem

end

/-- A fact that is still pending becomes a commitment when a question that it resolves is on top,
and then what is under discussion is closed. -/
theorem exists_leads_commits (hRules : e.rules = defaultRules)
    (hLatched : s.latched? = some ⟨.sys, moves⟩)
    (hPending : s.pendingMoves = [(0, ⟨.answer (.full c), none⟩)]) {qud : List Question}
    (hQud : s.shared.qud = q :: qud) (hTop : c.resolves q = true)
    (hResolved : ∀ q' ∈ q :: qud, s.isResolved q' = true) :
    ∃ turn t, e.Leads (.echo moves) (1 + (q :: qud).length) s t ∧
      e.Quiet (.echo moves) (fun _ => True) t ∧
      t = { s with
        shared := { s.shared with qud := [], com := c :: s.shared.com }
        turn := turn } := by
  have hFind : (e.context (.echo moves) s).findPending?
      (acceptedFact? (e.context (.echo moves) s) ⟨.sys, moves⟩ q) = some (0, c) := by
    rw [InformationState.findPending?_of_single hPending, acceptedFact?_of_resolves hTop]
    rfl
  have hCommitted := leads_echoedAnswer (s := s) hRules rfl hLatched
    (fun x hMem => by rw [hPending, List.mem_singleton] at hMem; rw [hMem]; rfl) hQud hFind
  have hDone : InformationState.pendingMoves { s with
      shared.com := c :: s.shared.com, turn.consumed := s.turn.consumed.insert 0 } =
      s.pendingMoves.filter fun x => !(x.1 == 0) :=
    InformationState.pendingMoves_eq_filter (· == 0) rfl rfl fun i => by
      rw [List.mem_insert_iff, beq_iff_eq, or_comm]
  have hQuiet : e.Quiet (.echo moves) (fun _ => True) { s with
      shared.com := c :: s.shared.com, turn.consumed := s.turn.consumed.insert 0 } :=
    quiet_of_echo rfl hLatched (by simp [hDone, hPending])
  have hClosed := leads_downdates hRules hQuiet (fun _ _ => trivial)
    (show s.shared.qud = (q :: qud) ++ [] by rw [List.append_nil, hQud]) (fun _ _ => trivial)
    fun q' hMem => (isResolved_iff_of_commit (p := c) rfl).mpr (.inr (hResolved q' hMem))
  exact ⟨_, _, hCommitted.trans hRules hClosed, hQuiet.of_hearing rfl, rfl⟩

/-- When the commitments resolve whatever is under discussion, all of it is closed, even if a fact
is still to be committed to: it becomes a commitment once a question that it resolves is on top. -/
theorem exists_leads_closes (hRules : e.rules = defaultRules)
    (hLatched : s.latched? = some ⟨.sys, moves⟩)
    (hPending : s.pendingMoves = [(0, ⟨.answer (.full c), none⟩)])
    (hResolved : ∀ q ∈ s.shared.qud, s.isResolved q = true) :
    ∃ com turn tops t, (com = s.shared.com ∨ com = c :: s.shared.com) ∧
      e.Leads (.echo moves) (s.shared.qud.length + (s.shared.qud.any c.resolves).toNat) s t ∧
      e.Quiet (.echo moves) tops t ∧
      t = { s with shared := { s.shared with qud := [], com := com }, turn := turn } := by
  obtain ⟨qud, hQud⟩ : ∃ qud, s.shared.qud = qud := ⟨_, rfl⟩
  have hAlone : ∀ x ∈ s.pendingMoves, x = (0, ⟨.answer (.full c), none⟩) := by simp [hPending]
  have hQuiet : e.Quiet (.echo moves) (fun q => c.resolves q = false) s := by
    refine quiet_of_echo rfl hLatched fun x hMem => ?_
    rw [hAlone x hMem]
    refine ⟨rfl, rfl, fun a q hAnswered hTop => ?_⟩
    cases hAnswered
    exact hTop
  -- Only the question on top matters at each step, so the fact stays pending until one that it
  -- resolves is uncovered.
  induction qud generalizing s with
  | nil =>
    refine ⟨s.shared.com, s.turn, _, s, .inl rfl, ?_, hQuiet, ?_⟩
    · rw [hQud]
      exact .refl s
    · rw [← hQud]
  | cons q qud ih =>
    rw [hQud] at hResolved ⊢
    cases hTop : c.resolves q with
    | false =>
      have hFirst := leads_downdate hRules hQuiet (topIn_of_cons hQud hTop) hQud
        (hResolved q List.mem_cons_self)
      obtain ⟨com, turn, tops, t, hCom, hRest, hQuiet', hState⟩ :=
        ih (s := { s with shared.qud := qud }) hLatched hPending
          (fun q' hMem => hResolved q' (List.mem_cons_of_mem _ hMem)) rfl hAlone
          (hQuiet.of_hearing rfl)
      have hLength : (q :: qud).length + ((q :: qud).any c.resolves).toNat =
          1 + (qud.length + (qud.any c.resolves).toNat) := by
        rw [List.length_cons, List.any_cons, hTop, Bool.false_or]
        omega
      rw [hLength]
      exact ⟨com, turn, tops, t, hCom, hFirst.trans hRules hRest, hQuiet', hState⟩
    | true =>
      obtain ⟨turn, t, hLeads, hQuiet', hState⟩ :=
        exists_leads_commits (e := e) hRules hLatched hPending hQud hTop hResolved
      have hLength : (q :: qud).length + ((q :: qud).any c.resolves).toNat =
          1 + (q :: qud).length := by
        rw [List.any_cons, hTop, Bool.true_or, Bool.toNat_true, Nat.add_comm]
      rw [hLength]
      exact ⟨_, turn, _, t, .inr rfl, hLeads, hQuiet', hState⟩

end Engine

end Dialogue
