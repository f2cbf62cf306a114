import Dialogue.Proofs.Session.Turns
import Dialogue.Proofs.Update.Echo

/-! # How a turn ends

Once the user's move is dealt with, the system rests, asks for the next slot, or has asked already.
The turn ends when it has heard itself.
-/

namespace Dialogue.Engine

open Update

variable {e : Engine} {input : TurnInput} {s t u : InformationState} {m : Move}
  {tops tops' : Question → Prop} {q : Question} {before after : List Move} {n : Nat}

/-- The next turn starts in `u`, from what this one makes of the dialogue in `t`. -/
structure Leaves (t u : InformationState) : Prop where
  own : u.own = t.own
  qud : u.shared.qud = t.shared.qud
  com : u.shared.com = t.shared.com
  turn : u.turn = {}

/-- After `n` firings the turn has come to `t`, where only pursuit and selection go on. -/
structure Reaches (e : Engine) (input : TurnInput) (tops : Question → Prop) (n : Nat)
    (s t : InformationState) : Prop where
  leads : e.Leads input n s.beginTurn t
  quiet : e.Quiet input tops t
  top : TopIn tops t

theorem Idle.endTurn (h : e.Idle t) : e.Idle t.endTurn :=
  h.of_same rfl rfl rfl rfl rfl

theorem Idle.push (h : e.Idle t) (hUnresolved : t.isResolved q = false) :
    e.Idle { t with shared.qud := q :: t.shared.qud } := by
  exact ⟨topIn_of_cons rfl hUnresolved, h.load, h.findout, h.consult⟩

section

variable (hRules : e.rules = defaultRules)
include hRules

theorem Reaches.then {k : Nat} (h : e.Reaches input tops n s t) (hLeads : e.Leads input k t u)
    (hHearing : u.hearing = t.hearing) (hTop : TopIn tops u) :
    e.Reaches input tops (n + k) s u :=
  ⟨h.leads.trans hRules hLeads, h.quiet.of_hearing hHearing, hTop⟩

theorem Reaches.settles (h : e.Reaches input tops n s t) (hIdle : e.Idle t)
    (hEnd : (e.context input t).maySelect = false ∨ Resting t) : e.Settles input n s t.endTurn := by
  refine ⟨t, h.leads, ?_, rfl⟩
  rcases hEnd with hMay | hResting
  · exact isSettled_of_selected hRules h.quiet h.top hIdle hMay
  · exact isSettled_of_resting hRules h.quiet h.top hIdle hResting

theorem settles_echo_of_mute {moves : List Move} (hIdle : e.Idle s) (hMoves : moves ≠ [])
    (hMute : ∀ x ∈ moves, e.Mute tops x) (hTop : TopIn tops s) :
    e.Settles (.echo moves) 1 s { s with
      shared.lu := some ⟨.sys, moves⟩, nextMoves := [], turn := {} } := by
  obtain ⟨u, hLeads, hQuiet, rfl⟩ :=
    leads_echoMute (s := s.beginTurn) hRules rfl hMoves hMute
  have hReaches : e.Reaches (.echo moves) tops 1 s _ := ⟨hLeads, hQuiet, hTop⟩
  exact hReaches.settles hRules (hIdle.of_same rfl rfl rfl rfl rfl) (.inl rfl)

theorem settles_echo_of_asked (hIdle : e.Idle s) (hBefore : ∀ x ∈ before, e.Mute tops x)
    (hAfter : ∀ x ∈ after, e.Mute tops x) (hTop : tops q) (hUnresolved : s.isResolved q = false) :
    e.Settles (.echo (before ++ ⟨.ask q, none⟩ :: after)) 2 s { s with
      shared := { s.shared with
        lu := some ⟨.sys, before ++ ⟨.ask q, none⟩ :: after⟩, qud := q :: s.shared.qud }
      nextMoves := []
      turn := {} } := by
  obtain ⟨u, hLeads, hQuiet, turn, rfl⟩ :=
    exists_leads_echoAsk (s := s.beginTurn) hRules rfl hBefore hAfter q
  have hReaches : e.Reaches _ tops 2 s _ := ⟨hLeads, hQuiet, topIn_of_cons rfl hTop⟩
  have hPushed := hIdle.push hUnresolved
  exact hReaches.settles hRules (hPushed.of_same rfl rfl rfl rfl rfl) (.inl rfl)

/-- The turn ends with remarks, or without a reply. -/
theorem exists_converses_of_mute (h : e.Reaches input tops n s t) (hIdle : e.Idle t)
    (hEnd : (e.context input t).maySelect = false ∨ Resting t)
    (hMute : ∀ x ∈ t.nextMoves, e.Mute tops' x) (hTop : TopIn tops' t) :
    ∃ k ≤ 1, ∃ u, e.Converses input s u n k ∧ Leaves t u := by
  have hSettles := h.settles hRules hIdle hEnd
  by_cases hReply : t.nextMoves = []
  · exact ⟨0, Nat.zero_le _, t.endTurn, .silently hSettles hReply, rfl, rfl, rfl, rfl⟩
  · have hEcho := settles_echo_of_mute hRules hIdle.endTurn hReply hMute hTop
    exact ⟨1, Nat.le_refl _, _, .replying hSettles hReply hEcho, rfl, rfl, rfl, rfl⟩

theorem exists_converses_of_asked (h : e.Reaches input tops n s t) (hIdle : e.Idle t)
    (hEnd : (e.context input t).maySelect = false ∨ Resting t)
    (hMoves : t.nextMoves = before ++ ⟨.ask q, none⟩ :: after)
    (hBefore : ∀ x ∈ before, e.Mute tops' x) (hAfter : ∀ x ∈ after, e.Mute tops' x)
    (hTop : tops' q) (hUnresolved : t.isResolved q = false) :
    ∃ u, e.Converses input s u n 2 ∧ Leaves { t with shared.qud := q :: t.shared.qud } u := by
  have hSettles := h.settles hRules hIdle hEnd
  have hEcho := settles_echo_of_asked hRules hIdle.endTurn hBefore hAfter hTop hUnresolved
  have hReply : t.nextMoves ≠ [] := by simp [hMoves]
  rw [← hMoves] at hEcho
  exact ⟨_, .replying hSettles hReply hEcho, rfl, rfl, rfl, rfl⟩

theorem exists_converses_of_findout (h : e.Reaches input tops n s t) (hIdle : e.Idle t)
    (hMay : (e.context input t).maySelect = true) (hAgenda : t.own.agenda = [])
    {rest : List Action} (hPlan : t.own.plan = .findout q :: rest)
    (hMute : ∀ x ∈ t.nextMoves, e.Mute tops' x) (hTop : tops' q) :
    ∃ u, e.Converses input s u (n + 2) 2 ∧ Leaves { t with shared.qud := q :: t.shared.qud } u := by
  have hAsks := leads_asks hRules h.quiet h.top hIdle hMay hAgenda hPlan
  have hReaches := h.then hRules hAsks rfl h.top
  have hIdle' : e.Idle { t with
      nextMoves := t.nextMoves ++ [⟨.ask q, none⟩], turn.selected := true } :=
    hIdle.of_same rfl rfl rfl rfl rfl
  obtain ⟨u, hConverses, hLeaves⟩ := exists_converses_of_asked hRules hReaches hIdle'
    (.inl (by simp [Context.maySelect])) rfl hMute (by simp) hTop (hIdle.findout q rest hPlan)
  exact ⟨u, hConverses, hLeaves.own, hLeaves.qud, hLeaves.com, hLeaves.turn⟩

end

end Dialogue.Engine
