import Dialogue.Proofs.Domain.Plans
import Dialogue.Proofs.Session.Calls
import Dialogue.Proofs.Session.FormFilling
import Dialogue.Proofs.Update.Hearing

/-! # Lookups on the agenda

A lookup runs from the plan, and the step at the head of the plan is copied to the agenda only if it
is none. A request, however, puts all steps of its plan on the agenda, and from there no lookup is
ever carried out: it stays until the agenda is dropped as a whole. Nothing but the plans that can be
requested decides whether a lookup can get there.
-/

namespace Dialogue

open Update

namespace Engine

variable {e : Engine} {input : TurnInput} {s t : InformationState} {r : Rule}
  {tops : Question → Prop} {m : Move}

/-- No request puts a lookup on the agenda. -/
def RequestsNoLookup (d : Domain) : Prop :=
  ∀ name p, d.actionPlan? name = some p → ∀ q, .consult q ∉ p.steps

def LookupFree (s : InformationState) : Prop :=
  ∀ q, .consult q ∉ s.own.agenda

theorem LookupFree.fires (hRequests : RequestsNoLookup e.domain) (h : LookupFree s)
    (hFires : Fires e input s r t) : LookupFree t := by
  have hRest {a : Action} {rest : List Action} (hAgenda : s.own.agenda = a :: rest) :
      ∀ q, .consult q ∉ rest := by
    intro q hMem
    apply h q
    rw [hAgenda]
    exact List.mem_cons_of_mem a hMem
  intro q hMem
  cases hFires with
  | clearAgenda | fellBack => cases hMem
  | request _ hFind =>
    obtain ⟨m, -, hSteps⟩ := Context.exists_pending_of_findPending? hFind
    obtain ⟨name, p, hPlan, rfl⟩ := Domain.exists_actionPlan?_of_requestedSteps? hSteps
    rcases List.mem_append.mp hMem with hNew | hOld
    · exact hRequests name p hPlan q hNew
    · exact h q hOld
  | usrAsk =>
    rcases List.mem_cons.mp hMem with hRespond | hOld
    · cases hRespond
    · exact h q hOld
  | copied _ _ _ hConsult => exact hConsult q (List.mem_singleton.mp hMem).symm
  | tookUp => cases List.mem_singleton.mp hMem
  | loaded hAgenda _ _ | asked _ hAgenda _ | answered _ hAgenda _ | greets _ hAgenda =>
    exact hRest hAgenda q hMem
  | _ => exact h q hMem

theorem lasting_lookupFree (hRequests : RequestsNoLookup e.domain) : e.Lasting LookupFree := by
  constructor
  · exact fun _ h => h
  · exact fun _ _ _ _ h hFires => h.fires hRequests hFires
  · exact fun _ h => h

/-- Once the output is settled the rest of the agenda waits for the next cycle. -/
theorem isSettled_of_no_respond (hRules : e.rules = defaultRules) (hQuiet : e.Quiet input tops s)
    (hQud : s.shared.qud = []) (hPlan : s.own.plan = [])
    (hRespond : ∀ a ∈ s.own.agenda, a.isRespond = false) (hSelected : s.turn.selected = true) :
    e.IsSettled input s := by
  have hIdle : e.Idle s := idle_of_no_plan (topIn_of_nil hQud) hPlan hRespond
  exact isSettled_of_selected hRules hQuiet (topIn_of_nil hQud) hIdle
    (by simp [Context.maySelect, hSelected])

/-- With no question and no plan the agenda is worked off, at most one action in a cycle, and that
is no lookup. -/
theorem exists_leads_of_agenda (hRules : e.rules = defaultRules) (hQuiet : e.Quiet input tops s)
    (hQud : s.shared.qud = []) (hPlan : s.own.plan = []) (hAgenda : s.own.agenda ≠ [])
    (hRespond : ∀ a ∈ s.own.agenda, a.isRespond = false) :
    ∃ k ≤ 1, ∃ t, e.Leads input k s t ∧ e.IsSettled input t ∧
      ∀ q, .consult q ∈ s.own.agenda → .consult q ∈ t.own.agenda := by
  cases hHit : e.applicable? input s with
  | none => exact ⟨0, Nat.zero_le _, s, .refl s, hHit, fun _ hMem => hMem⟩
  | some hit =>
    obtain ⟨r, deltas⟩ := hit
    have hLeads : e.Leads input 1 s (s.apply deltas) := .single hHit (.refl _)
    refine ⟨1, Nat.le_refl _, _, hLeads, ?_⟩
    have hFires := fires_of_applicable? hRules hHit
    have hRank := rank_selectFromPlan_le hQuiet (topIn_of_nil hQud)
      (idle_of_no_plan (topIn_of_nil hQud) hPlan hRespond) hFires
    have hKept {a : Action} {rest : List Action} (hHead : s.own.agenda = a :: rest)
        (hAction : ∀ q, a ≠ .consult q) : (∀ b ∈ rest, b.isRespond = false) ∧
        ∀ q, .consult q ∈ s.own.agenda → .consult q ∈ rest := by
      rw [hHead] at hRespond ⊢
      refine ⟨fun b hMem => hRespond b (List.mem_cons_of_mem a hMem), fun q hMem => ?_⟩
      exact (List.mem_cons.mp hMem).resolve_left fun hEq => hAction q hEq.symm
    generalize s.apply deltas = t at hFires ⊢
    cases hFires with
    | copied _ hNil _ _ | tookUp _ hNil _ _ _ => exact absurd hNil hAgenda
    | answered _ hHead _ =>
      have hTop := hRespond (.respond _) (by rw [hHead]; exact List.mem_cons_self)
      cases hTop
    | asked _ hHead hAsks =>
      obtain ⟨hRest, hLookups⟩ := hKept hHead (by rcases hAsks with rfl | rfl <;> simp)
      refine ⟨isSettled_of_no_respond hRules (hQuiet.of_hearing rfl) hQud ?_ hRest rfl, hLookups⟩
      simp [hPlan]
    | greets _ hHead =>
      obtain ⟨hRest, hLookups⟩ := hKept hHead (by simp)
      exact ⟨isSettled_of_no_respond hRules (hQuiet.of_hearing rfl) hQud hPlan hRest rfl, hLookups⟩
    | _ => exact absurd hRank (by decide)

theorem exists_settles_of_request (hRules : e.rules = defaultRules) {name : String} {p : Plan}
    (hAction : e.domain.actionPlan? name = some p) (hQud : s.shared.qud = [])
    (hPlan : s.own.plan = []) (hAgenda : ∀ a ∈ s.own.agenda, a.isRespond = false)
    (hCount : s.own.noInputCount = 0) {q : Question} (hStep : .consult q ∈ p.steps) :
    ∃ n ≤ 3, ∃ t, e.Settles (.user [⟨.request (some name), none⟩]) n s t ∧
      .consult q ∈ t.own.agenda := by
  have hClear := Session.isUnclear_of_certain e (.request (some name))
  have hSteps : requestedSteps? e.domain ⟨.request (some name), none⟩ = some p.steps := by
    simp [requestedSteps?, hAction]
  obtain ⟨u, hHears, hQuiet, rfl⟩ :=
    exists_leads_hearsRequest (s := s.beginTurn) hRules rfl hClear hSteps hCount
  have hMem : Action.consult q ∈ p.steps ++ s.own.agenda := List.mem_append_left _ hStep
  have hRespond : ∀ a ∈ p.steps ++ s.own.agenda, a.isRespond = false := by
    intro a hMem
    rcases List.mem_append.mp hMem with hNew | hOld
    · exact Domain.isRespond_of_requestedSteps? hSteps a hNew
    · exact hAgenda a hOld
  obtain ⟨k, hOnce, t, hLeads, hSettled, hKept⟩ :=
    exists_leads_of_agenda hRules hQuiet hQud hPlan (List.ne_nil_of_mem hMem) hRespond
  exact ⟨2 + k, by omega, t.endTurn, ⟨t, hHears.trans hRules hLeads, hSettled, rfl⟩, hKept q hMem⟩

end Engine

namespace Session

open Engine

variable {s : Session}

theorem exists_lookup_of_request (hRules : s.engine.rules = defaultRules)
    (hCeiling : 3 ≤ s.engine.config.maxFirings.toNat) {beliefs : List Proposition}
    (hState : s.state = .withBeliefs .initial beliefs) {name : String} {p : Plan}
    (hAction : s.engine.domain.actionPlan? name = some p) {q : Question}
    (hStep : .consult q ∈ p.steps) :
    .consult q ∈ (s.after [.step (.user [⟨.request (some name), none⟩])]).state.own.agenda := by
  have hGreet : ∀ a ∈ s.state.own.agenda, a.isRespond = false := by
    rw [hState]
    exact List.forall_mem_singleton.mpr rfl
  obtain ⟨n, hLength, t, hSettles, hMem⟩ := exists_settles_of_request hRules hAction
    (by rw [hState]; rfl) (by rw [hState]; rfl) hGreet (by rw [hState]; rfl) hStep
  obtain ⟨s', hReply, -, version, hEnd⟩ := step_of_settles hRules hSettles (by omega)
  rw [after, after, call, hReply, hEnd]
  exact hMem

/-- In a domain the agenda is free of lookups, whatever is called in whichever of its dialogues, if
and only if none of the plans that can be requested has a lookup among its steps. -/
theorem agenda_is_lookup_free_iff (domain : Domain) (database : Database)
    (beliefs : List Proposition) :
    (∀ config s, Session.new domain database config (.withBeliefs .initial beliefs) = .ok s →
      ∀ calls q, .consult q ∉ (s.after calls).state.own.agenda) ↔
    ∀ name p, domain.actionPlan? name = some p → ∀ q, .consult q ∉ p.steps := by
  constructor
  · intro hFree name p hAction q hStep
    obtain ⟨s, hNew⟩ : ∃ s, Session.new domain database {} (.withBeliefs .initial beliefs) = .ok s :=
      ⟨_, rfl⟩
    obtain ⟨hRules, rfl, -, hConfig, hState⟩ := engine_of_new hNew
    have hCeiling : 3 ≤ s.engine.config.maxFirings.toNat := by
      rw [hConfig]
      decide
    exact hFree {} s hNew _ q (exists_lookup_of_request hRules hCeiling hState hAction hStep)
  · intro hRequests config s hNew
    obtain ⟨hRules, rfl, -, -, hState⟩ := engine_of_new hNew
    apply lasts_after hRules (lasting_lookupFree hRequests)
    rw [hState]
    exact fun q hMem => by cases List.mem_singleton.mp hMem

/-- A domain in which a book can be looked up on request. -/
def library : Domain where
  predicates := .ofList [("book", "title")]
  individuals := .empty
  plans := [.action "look_up" [.consult ⟨"book"⟩]]
  defaults := .empty
  formats := .empty
  faultless := by decide +kernel

/-- The lookup of the book has been put on the agenda and stays there. -/
theorem requested_lookup_is_on_agenda :
    ∃ s, Session.new library (.ofRows []) {} (.withBeliefs .initial []) = .ok s ∧
      (s.after [.start, .hear [⟨.request (some "look_up"), none⟩]]).state.own.agenda =
        [.consult ⟨"book"⟩] :=
  ⟨_, rfl, rfl⟩

end Session

end Dialogue
