import Dialogue.Proofs.Cycle.Composition
import Dialogue.Proofs.Cycle.Counting
import Dialogue.Proofs.Telemetry.Recording

/-! # Changes of contact

A recorder tells a change of contact from the count and the commitments before and after a firing.
Below the largest count that is what the firing did: it asked again, it fell back on a default, or
it saw the user take part.
-/

namespace Dialogue

open Update

def Firing.emitted (f : Firing) : List Move :=
  f.after.nextMoves.drop f.before.nextMoves.length

/-- The turn that has been taken in is one in which the user asks, answers or requests. -/
def Engages (s : InformationState) : Prop :=
  ∃ u, s.latched? = some u ∧ u.speaker = .usr ∧ u.hasContentfulMove = true

/-- The kind of a change is told by what the firing did. -/
structure Tells (d : Domain) (f : Firing) (kind : ContactChange) : Prop where
  reprompted : kind = .reprompted ↔ ∃ m ∈ f.emitted, m.isNoInput = true
  escalated : kind = .escalated ↔ ∃ q p, f.before.shared.qud.head? = some q ∧
    d.default? q.predicate = some p ∧ f.after.shared.com = p :: f.before.shared.com
  reset : kind = .reset ↔ Engages f.before

/-- Contact goes through the changes among the events, each from where the one before it has led. -/
inductive Contact.Runs : Contact → List Event → Contact → Prop where
  | done (c : Contact) : Runs c [] c
  | changed {before after c : Contact} {events : List Event} (kind : ContactChange) :
      Runs after events c → Runs before (.contactTransition before after kind :: events) c
  | fired {before c : Contact} {events : List Event} (rule : String) (tier : Tier) (i : UInt64) :
      Runs before events c → Runs before (.ruleFired rule tier i :: events) c
  | completed {before c : Contact} {events : List Event} (speaker : Speaker)
      (firings outgoing : UInt64) :
      Runs before events c → Runs before (.turnCompleted speaker firings outgoing :: events) c

theorem Contact.Runs.append {c c' c'' : Contact} {events later : List Event}
    (h : Runs c events c') (h' : Runs c' later c'') : Runs c (events ++ later) c'' := by
  induction h with
  | done c => exact h'
  | changed kind _ ih => exact .changed kind (ih h')
  | fired rule tier i _ ih => exact .fired rule tier i (ih h')
  | completed speaker firings outgoing _ ih => exact .completed speaker firings outgoing (ih h')

namespace Recorder

variable {before after : InformationState}

theorem contactChange?_eq_reprompted (h : before.own.noInputCount < after.own.noInputCount) :
    contactChange? before after = some .reprompted :=
  if_pos h

theorem contactChange?_eq_escalated (hCount : after.own.noInputCount = 0)
    (hCom : before.shared.com.length < after.shared.com.length) :
    contactChange? before after = some .escalated := by
  simp [contactChange?, hCount, hCom]

theorem contactChange?_eq_reset (hBefore : before.own.noInputCount ≠ 0)
    (hCount : after.own.noInputCount = 0) (hCom : after.shared.com = before.shared.com) :
    contactChange? before after = some .reset := by
  simp [contactChange?, hCount, hCom, UInt32.pos_iff_ne_zero, hBefore]

end Recorder

/-- How often it is said that nothing was heard. -/
def nothingHeard (moves : List Move) : Nat :=
  moves.countP (·.isNoInput)

theorem nothingHeard_append (moves later : List Move) :
    nothingHeard (moves ++ later) = nothingHeard moves + nothingHeard later :=
  List.countP_append

/-- What a recorder tells of a firing is what it did to contact and to the reply. -/
structure Told (d : Domain) (f : Firing) (kind : ContactChange) : Prop where
  change : Recorder.contactChange? f.before f.after = some kind
  tells : Tells d f kind
  said : nothingHeard f.after.nextMoves =
    nothingHeard f.before.nextMoves + if kind = .reprompted then 1 else 0

/-- The events of a notice, where the changes that firings make are given. Where silence or
engagement is handled, one change of contact follows the firing. -/
def Notice.events (threshold : UInt32) (kind : Firing → ContactChange) : Notice → List Event
  | .evaluated _ _ => []
  | .fired rule i before after =>
    .ruleFired rule.name rule.tier (UInt64.ofNat i) ::
      if rule.name = integrateNoInput.name then
        [.contactTransition (.ofCount before.own.noInputCount threshold)
          (.ofCount after.own.noInputCount threshold) (kind ⟨rule, i, before, after⟩)]
      else []
  | .completed input firings state =>
    [.turnCompleted input.speaker (UInt64.ofNat firings) (UInt64.ofNat state.nextMoves.length)]

namespace Engine

variable {e : Engine} {input : TurnInput} {s t u : InformationState} {r : Rule} {rs : List Rule}
  {firings : List Firing}

theorem nothingHeard_askAgain (s : InformationState) : nothingHeard (askAgain s) = 0 := by
  rw [nothingHeard, List.countP_eq_zero]
  intro m hMem
  obtain ⟨q, -, rfl⟩ := List.mem_map.mp hMem
  exact Bool.false_ne_true

theorem nothingHeard_reprompt (moves : List Move) (s : InformationState) :
    nothingHeard (moves ++ ⟨.noInput, none⟩ :: askAgain s) = nothingHeard moves + 1 := by
  have hOne : nothingHeard (⟨.noInput, none⟩ :: askAgain s) = nothingHeard (askAgain s) + 1 :=
    List.countP_cons_of_pos rfl
  rw [nothingHeard_append, hOne, nothingHeard_askAgain]

theorem engages_of_userTurn? {v : Utterance} (hTurn : (e.context input s).userTurn? = some v)
    (hContent : v.hasContentfulMove = true) : Engages s := by
  obtain ⟨hLatched, hSpeaker⟩ := Option.filter_eq_some_iff.mp hTurn
  exact ⟨v, hLatched, beq_iff_eq.mp hSpeaker, hContent⟩

theorem not_engages_of_silence {v : Utterance} (hTurn : (e.context input s).userTurn? = some v)
    (hSilence : v.isSilence = true) : ¬ Engages s := by
  rintro ⟨v', hLatched, -, hContent⟩
  obtain ⟨hLatched', -⟩ := Option.filter_eq_some_iff.mp hTurn
  rw [context_state, hLatched] at hLatched'
  cases hLatched'
  rw [isSilence_of_contentful hContent] at hSilence
  cases hSilence

/-- What handling silence or engagement does is told from the count and the commitments. -/
theorem Fires.exists_told (h : Fires e input s r t) (hName : r.name = integrateNoInput.name)
    (hOnce : nothingHeard t.nextMoves ≤ 1)
    (hBelow : nothingHeard s.nextMoves = 0 → s.own.noInputCount.toNat < UInt32.size - 1) (i : Nat) :
    ∃ kind, Told e.domain ⟨r, i, s, t⟩ kind := by
  cases h with
  | engaged hTurn _ hContent hCount =>
    refine ⟨.reset, Recorder.contactChange?_eq_reset hCount rfl rfl, ⟨?_, ?_, ?_⟩, rfl⟩
    · exact iff_of_false (by decide) (by simp [Firing.emitted])
    · exact iff_of_false (by decide) (by simp)
    · exact iff_of_true rfl (engages_of_userTurn? hTurn hContent)
  | reprompted hTurn hSilence _ _ =>
    have hSaid := nothingHeard_reprompt s.nextMoves s
    have hFirst : nothingHeard s.nextMoves = 0 := by
      rw [hSaid] at hOnce
      omega
    -- At its largest value the count would stay, and nothing would be told.
    have hMore : s.own.noInputCount < nextCount s.own.noInputCount := by
      have hRoom := hBelow hFirst
      rw [UInt32.lt_iff_toNat_lt, toNat_nextCount]
      omega
    refine ⟨.reprompted, Recorder.contactChange?_eq_reprompted hMore, ⟨?_, ?_, ?_⟩, hSaid⟩
    · exact iff_of_true rfl ⟨⟨.noInput, none⟩, by simp [Firing.emitted], rfl⟩
    · exact iff_of_false (by decide) (by simp)
    · exact iff_of_false (by decide) (not_engages_of_silence hTurn hSilence)
  | @fellBack _ q qs p hTurn hSilence _ _ hQud hDefault =>
    have hMore : s.shared.com.length < (p :: s.shared.com).length := Nat.lt_succ_self _
    refine ⟨.escalated, Recorder.contactChange?_eq_escalated rfl hMore, ⟨?_, ?_, ?_⟩, ?_⟩
    · exact iff_of_false (by decide) (by simp [Firing.emitted, Move.isNoInput])
    · exact iff_of_true rfl ⟨q, p, by rw [hQud]; rfl, hDefault, rfl⟩
    · exact iff_of_false (by decide) (not_engages_of_silence hTurn hSilence)
    · exact nothingHeard_append s.nextMoves _
  | _ => exact absurd hName (by decide)

theorem Fires.same_contact (h : Fires e input s r t) (hName : r.name ≠ integrateNoInput.name) :
    t.own.noInputCount = s.own.noInputCount ∧
      nothingHeard t.nextMoves = nothingHeard s.nextMoves := by
  cases h with
  | engaged | reprompted | fellBack => exact absurd rfl hName
  | unclear =>
    refine ⟨rfl, ?_⟩
    rw [nothingHeard_append, nothingHeard_append, nothingHeard_askAgain]
    rfl
  | misformatted | acknowledged | asked | answered | greets =>
    exact ⟨rfl, nothingHeard_append s.nextMoves _⟩
  | _ => exact ⟨rfl, rfl⟩

/-- The count goes up by what is said of nothing heard at most. -/
theorem Fires.count_le (h : Fires e input s r t) :
    t.own.noInputCount.toNat + nothingHeard s.nextMoves ≤
      s.own.noInputCount.toNat + nothingHeard t.nextMoves := by
  by_cases hName : r.name = integrateNoInput.name
  · cases h with
    | engaged => simp
    | reprompted =>
      have hNext := toNat_nextCount s.own.noInputCount
      simp only [nothingHeard_reprompt]
      omega
    | fellBack =>
      simp [nothingHeard_append]
      omega
    | _ => exact absurd hName (by decide)
  · obtain ⟨hCount, hSaid⟩ := h.same_contact hName
    exact Nat.le_of_eq (by rw [hCount, hSaid])

section

variable (hRules : e.rules = defaultRules)
include hRules

theorem Trace.count_le (h : e.Trace input s rs t) :
    t.own.noInputCount.toNat + nothingHeard s.nextMoves ≤
      s.own.noInputCount.toNat + nothingHeard t.nextMoves := by
  induction h with
  | done s => exact Nat.le_refl _
  | fire hHit _ ih =>
    have hFires := (fires_of_applicable? hRules hHit).count_le
    omega

theorem Trace.nothingHeard_le (h : e.Trace input s.beginTurn rs t) :
    nothingHeard t.nextMoves ≤ 1 := by
  obtain ⟨u, hCommented, hPursued⟩ := h.exists_commented hRules
  exact hPursued.countP_isNoInput_le hCommented

/-- Contact goes through the changes that a row of firings makes, as often to ask again as it is
said that nothing was heard. -/
theorem Row.runs (h : e.Row input s firings t)
    (hTold : ∀ f ∈ firings, f.rule.name = integrateNoInput.name → ∃ kind, Told e.domain f kind)
    (recorder : Recorder) :
    Contact.Runs (.ofCount s.own.noInputCount recorder.threshold)
        (firings.flatMap fun f => recorder.noticeEvents f.notice)
        (.ofCount t.own.noInputCount recorder.threshold) ∧
      nothingHeard t.nextMoves = nothingHeard s.nextMoves +
        ((firings.flatMap fun f => recorder.noticeEvents f.notice).filterMap
          Event.contactChange?).count .reprompted := by
  induction h with
  | done s => exact ⟨.done _, rfl⟩
  | @fire s t u r i firings hStep _ ih =>
    rw [List.forall_mem_cons] at hTold
    obtain ⟨hHere, hLater⟩ := hTold
    obtain ⟨hRuns, hSaid⟩ := ih hLater
    rw [List.flatMap_cons, Firing.notice, Recorder.noticeEvents]
    by_cases hName : r.name = integrateNoInput.name
    · obtain ⟨kind, hKind⟩ := hHere hName
      rw [if_pos hName, Recorder.contactEvent?, hKind.change]
      refine ⟨.fired _ _ _ (.changed kind hRuns), ?_⟩
      rw [hSaid, hKind.said]
      simp only [Option.map_some, Option.toList_some, List.cons_append, List.nil_append,
        List.filterMap_cons, Event.contactChange?, List.count_cons, beq_iff_eq]
      omega
    · obtain ⟨hCount, hSame⟩ := (fires_of_step? hRules hStep).same_contact hName
      rw [if_neg hName]
      refine ⟨?_, ?_⟩
      · rw [← hCount]
        exact .fired _ _ _ hRuns
      · rw [hSaid, hSame]
        rfl

end

/-- What cycles from `s` to `t` record of contact: what each firing did to it, where that has led,
and how often nothing was heard. -/
structure Contacted (d : Domain) (recorder : Recorder) (s : InformationState)
    (cycles : List CycleResult) (t : InformationState) (n : Nat) : Prop where
  told : ∀ cycle ∈ cycles, ∀ f ∈ cycle.firings, f.rule.name = integrateNoInput.name →
    ∃ kind, Told d f kind
  runs : Contact.Runs (.ofCount s.own.noInputCount recorder.threshold)
    (cycles.flatMap recorder.cycleEvents) (.ofCount t.own.noInputCount recorder.threshold)
  reprompts : ((cycles.flatMap recorder.cycleEvents).filterMap Event.contactChange?).count
    .reprompted = n
  count_le : t.own.noInputCount.toNat ≤ s.own.noInputCount.toNat + n

section

variable {d : Domain} {recorder : Recorder} {cycles before after : List CycleResult} {m n : Nat}

theorem Contacted.nil (d : Domain) (recorder : Recorder) (s : InformationState) :
    Contacted d recorder s [] s 0 where
  told := List.forall_mem_nil _
  runs := .done _
  reprompts := rfl
  count_le := Nat.le_refl _

theorem Contacted.append (h : Contacted d recorder s before t m)
    (h' : Contacted d recorder t after u n) :
    Contacted d recorder s (before ++ after) u (m + n) where
  told := List.forall_mem_append.mpr ⟨h.told, h'.told⟩
  runs := by
    rw [List.flatMap_append]
    exact h.runs.append h'.runs
  reprompts := by
    rw [List.flatMap_append, List.filterMap_append, List.count_append, h.reprompts, h'.reprompts]
  count_le := by
    have hFirst := h.count_le
    have hSecond := h'.count_le
    omega

theorem Contacted.exists_kind (h : Contacted d recorder s cycles t n) :
    ∃ kind : Firing → ContactChange,
      (∀ cycle ∈ cycles, ∀ f ∈ cycle.firings, f.rule.name = integrateNoInput.name →
        Tells d f (kind f)) ∧
      cycles.flatMap recorder.cycleEvents = cycles.flatMap fun cycle =>
        cycle.log.flatMap (Notice.events recorder.threshold kind) := by
  let kind (f : Firing) : ContactChange :=
    (Recorder.contactChange? f.before f.after).getD .reprompted
  refine ⟨kind, ?_, ?_⟩
  · intro cycle hCycle f hMem hName
    obtain ⟨k, hTold⟩ := h.told cycle hCycle f hMem hName
    have hKind : kind f = k := by simp only [kind, hTold.change, Option.getD_some]
    rw [hKind]
    exact hTold.tells
  · apply List.flatMap_congr
    intro cycle hCycle
    apply List.flatMap_congr
    intro notice hMem
    cases notice with
    | evaluated | completed => rfl
    | fired rule i before after =>
      rw [Recorder.noticeEvents, Notice.events]
      split
      · next hName =>
        have hFiring : ⟨rule, i, before, after⟩ ∈ cycle.firings :=
          List.mem_filterMap.mpr ⟨_, hMem, rfl⟩
        obtain ⟨k, hTold⟩ := h.told cycle hCycle _ hFiring hName
        simp only [Recorder.contactEvent?, kind, hTold.change, Option.map_some,
          Option.toList_some, Option.getD_some]
      · rfl

end

section

variable (hRules : e.rules = defaultRules)
include hRules

theorem Row.exists_told_of_mem (h : e.Row input s.beginTurn firings t)
    (hBelow : s.own.noInputCount.toNat < UInt32.size - 1) {f : Firing} (hMem : f ∈ firings)
    (hName : f.rule.name = integrateNoInput.name) :
    ∃ kind, Told e.domain f kind := by
  obtain ⟨earlier, later, hEarlier, hStep, -⟩ := h.exists_of_mem hMem
  have hHere : e.Trace input f.before [f.rule] f.after := (Row.fire hStep (.done f.after)).trace
  have hOnce := (hEarlier.trace.append hHere).nothingHeard_le hRules
  have hCount := hEarlier.trace.count_le hRules
  -- It is said once at most that nothing was heard. Where it is said now, the count is still the
  -- one that the cycle has begun with.
  apply (fires_of_step? hRules hStep).exists_told hName hOnce
  intro hFirst
  rw [hFirst] at hCount
  exact Nat.lt_of_le_of_lt hCount hBelow

theorem contacted_of_run (h : (e.run s input).outcome = .ok t)
    (hBelow : s.own.noInputCount.toNat < UInt32.size - 1) (recorder : Recorder) :
    Contacted e.domain recorder s [e.run s input] t (nothingHeard t.nextMoves) := by
  obtain ⟨u, hRow, -, hEnd, -⟩ := exists_row_of_run h
  have hTold : ∀ f ∈ (e.run s input).firings, f.rule.name = integrateNoInput.name →
      ∃ kind, Told e.domain f kind :=
    fun f hMem => hRow.exists_told_of_mem hRules hBelow hMem
  obtain ⟨hRuns, hSaid⟩ := hRow.runs hRules hTold recorder
  have hCount := hRow.trace.count_le hRules
  have hNone : nothingHeard s.beginTurn.nextMoves = 0 := rfl
  rw [hNone, Nat.zero_add] at hSaid
  rw [hEnd]
  constructor
  · rw [List.forall_mem_singleton]
    exact hTold
  · rw [List.flatMap_singleton, cycleEvents_eq h]
    exact hRuns.append (.completed _ _ _ (.done _))
  · rw [List.flatMap_singleton, cycleEvents_eq h, List.filterMap_append, List.count_append]
    exact hSaid.symm
  · exact hCount

end

end Engine

end Dialogue
