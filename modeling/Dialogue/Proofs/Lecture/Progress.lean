import Dialogue.Proofs.Lecture.Typed
import Dialogue.Proofs.Session.Ending

/-! # How far the task has come

What every dialogue about lectures is like between turns, however long it has been. The questions
under discussion are counted against the turns: a turn brings up at most two, and one that fills in
a slot brings up none to stay.
-/

namespace Dialogue.Lecture

open Update Engine

variable {s t u : InformationState} {filled run : Nat} {q : Question} {p : Proposition}
  {found missing : List Question}

/-- The questions that stay under discussion. -/
def issues : List Question := whichRoom :: slots

/-- Food is talked about once. When the user asks again there is nothing to say that is not agreed,
and the question stays on the agenda. -/
structure SmallTalk (s : InformationState) : Prop where
  agenda : ∀ a ∈ s.own.agenda, a = .respond whichFood
  beliefs : ∃ rooms, s.own.bel = pizza :: rooms ∧ ∀ b ∈ rooms, b.predicate = bookingRoom
  shared : pizza ∈ s.shared.com ∨ s.isResolved whichFood = false ∧ s.own.agenda = []

/-- The first slots are filled in, the others are not, and no room is known. -/
structure Collects (found missing : List Question) (s : InformationState) : Prop where
  all : found ++ missing = slots
  filled : ∀ q ∈ found, s.isResolved q = true
  form : IsOpenForm whichRoom missing s.own.bel s.shared.com
  unknown : missing = [] → rooms.consult whichRoom s.shared.com = none

/-- All slots are filled in, and the lookup gives the room `p`. -/
structure Finds (p : Proposition) (s : InformationState) : Prop where
  filled : ∀ q ∈ slots, s.isResolved q = true
  room : rooms.consult whichRoom s.shared.com = some p
  beliefs : ∀ b ∈ s.own.bel, b.predicate = bookingRoom → b = p

/-- Between turns, with the number of slots that are filled in while nobody has been told the room,
and how often the next slot was asked for since the user last asked for the room. -/
inductive Phase (s : InformationState) : Nat → Nat → Prop where
  | idle : s.own.plan = [] → s.shared.qud = [] → Collects [] slots s → Phase s 0 0
  | asking {found missing above rest : List Question} :
      s.own.plan = formSteps whichRoom missing → s.shared.qud = above ++ whichRoom :: rest →
      (∀ q ∈ above, missing.head? = some q) → Collects found missing s →
      Phase s found.length above.length
  /-- The room is known, but the agenda is stuck with the user's question about food. -/
  | held {p : Proposition} {rest : List Question} : s.own.plan = [] → s.own.agenda ≠ [] →
      s.shared.qud = whichRoom :: rest → Finds p s → p ∈ s.own.bel →
      (∀ c ∈ s.shared.com, c.predicate ≠ bookingRoom) → Phase s 2 0
  | told {p : Proposition} : s.own.plan = [] → s.shared.qud = [] → Finds p s →
      p ∈ s.shared.com → Phase s 0 0

/-- After `turns` turns, with room for `spare` more questions in the last one. -/
structure Within (spare turns : Nat) (s : InformationState) : Prop where
  talk : SmallTalk s
  topics : ∀ q ∈ s.shared.qud, q ∈ issues
  phase : ∃ filled run, Phase s filled run ∧
    s.shared.qud.length + 2 * filled + s.own.noInputCount.toNat + spare ≤ 2 * turns ∧
    run + spare ≤ turns

structure SameTask (s t : InformationState) : Prop where
  agenda : t.own.agenda = s.own.agenda
  plan : t.own.plan = s.own.plan
  bel : t.own.bel = s.own.bel
  qud : t.shared.qud = s.shared.qud
  com : t.shared.com = s.shared.com

theorem SameTask.isResolved (h : SameTask s t) (q : Question) :
    t.isResolved q = s.isResolved q := by
  rw [InformationState.isResolved, InformationState.isResolved, h.com]

theorem SameTask.smallTalk (h : SameTask s t) (hTalk : SmallTalk s) : SmallTalk t where
  agenda := h.agenda ▸ hTalk.agenda
  beliefs := h.bel ▸ hTalk.beliefs
  shared := by
    rw [h.com, h.isResolved, h.agenda]
    exact hTalk.shared

theorem SameTask.collects (h : SameTask s t) (hCollects : Collects found missing s) :
    Collects found missing t where
  all := hCollects.all
  filled q hMem := (h.isResolved q).trans (hCollects.filled q hMem)
  form := by
    rw [h.bel, h.com]
    exact hCollects.form
  unknown := h.com ▸ hCollects.unknown

theorem SameTask.finds (h : SameTask s t) (hFinds : Finds p s) : Finds p t where
  filled q hMem := (h.isResolved q).trans (hFinds.filled q hMem)
  room := h.com ▸ hFinds.room
  beliefs := h.bel ▸ hFinds.beliefs

theorem SameTask.phase (h : SameTask s t) (hPhase : Phase s filled run) : Phase t filled run := by
  cases hPhase with
  | idle hPlan hQud hCollects =>
    exact .idle (h.plan.trans hPlan) (h.qud.trans hQud) (h.collects hCollects)
  | asking hPlan hQud hAbove hCollects =>
    exact .asking (h.plan.trans hPlan) (h.qud.trans hQud) hAbove (h.collects hCollects)
  | held hPlan hAgenda hQud hFinds hBelief hUnsaid =>
    exact .held (h.plan.trans hPlan) (h.agenda ▸ hAgenda) (h.qud.trans hQud) (h.finds hFinds)
      (h.bel ▸ hBelief) (h.com ▸ hUnsaid)
  | told hPlan hQud hFinds hShared =>
    exact .told (h.plan.trans hPlan) (h.qud.trans hQud) (h.finds hFinds) (h.com ▸ hShared)

/-- What only is heard leaves the task where it is. -/
theorem SameTask.within {spare turns spare' turns' : Nat} (h : SameTask s t)
    (hWithin : Within spare turns s)
    (hSpare : t.own.noInputCount.toNat + spare' + 2 * turns ≤
      s.own.noInputCount.toNat + spare + 2 * turns')
    (hTurns : spare' + turns ≤ spare + turns') : Within spare' turns' t := by
  obtain ⟨filled, run, hPhase, hQud, hRun⟩ := hWithin.phase
  refine ⟨h.smallTalk hWithin.talk, h.qud ▸ hWithin.topics, filled, run, h.phase hPhase, ?_, ?_⟩
  · rw [h.qud]
    omega
  · omega

theorem Collects.mem_slots (h : Collects found (q :: missing) s) : q ∈ slots := by
  rw [← h.all]
  simp

theorem Collects.unresolved (h : Collects found missing s) (hMem : q ∈ whichRoom :: missing) :
    s.isResolved q = false := by
  rcases List.mem_cons.mp hMem with rfl | hSlot
  · exact isResolved_eq_false h.form.goal_unsaid
  · exact isResolved_eq_false (h.form.slot_unsaid hSlot)

theorem answerable?_of_shared (hTalk : SmallTalk s) (hShared : pizza ∈ s.shared.com) :
    answerable? s whichFood = none := by
  obtain ⟨rooms, hBel, hRooms⟩ := hTalk.beliefs
  rw [answerable?, List.find?_eq_none]
  intro b hMem hResolves
  rw [InformationState.unsharedBeliefs, hBel, List.mem_filter, List.mem_cons] at hMem
  obtain ⟨rfl | hRoom, hUnshared⟩ := hMem
  · simp [hShared] at hUnshared
  · rw [Proposition.resolves_iff, hRooms b hRoom] at hResolves
    exact absurd hResolves (by decide)

theorem answerable?_of_unshared (hTalk : SmallTalk s) (hOpen : s.isResolved whichFood = false) :
    answerable? s whichFood = some pizza := by
  obtain ⟨rooms, hBel, _⟩ := hTalk.beliefs
  have hUnshared : pizza ∉ s.shared.com := by
    intro hMem
    rw [InformationState.isResolved, List.any_eq_false] at hOpen
    exact hOpen pizza hMem rfl
  rw [answerable?, InformationState.unsharedBeliefs, hBel, List.filter_cons_of_pos (by simpa),
    List.find?_cons_of_pos (by rfl)]

/-- A fact that is not about food leaves the small talk as it is. -/
theorem SmallTalk.commit (h : SmallTalk s) (hAgenda : t.own.agenda ⊆ s.own.agenda)
    (hBel : t.own.bel = s.own.bel) (hCom : ∀ x, x ∈ t.shared.com ↔ x = p ∨ x ∈ s.shared.com)
    (hOther : p.predicate ≠ favoriteFood) : SmallTalk t where
  agenda a hMem := h.agenda a (hAgenda hMem)
  beliefs := hBel ▸ h.beliefs
  shared := by
    rcases h.shared with hShared | ⟨hOpen, hEmpty⟩
    · exact .inl ((hCom pizza).mpr (.inr hShared))
    · refine .inr ⟨isResolved_eq_false fun x hMem hFood => ?_, ?_⟩
      · rcases (hCom x).mp hMem with rfl | hOld
        · exact hOther hFood
        · rw [← Bool.not_eq_true, isResolved_iff] at hOpen
          exact hOpen ⟨x, hOld, hFood⟩
      · rw [hEmpty] at hAgenda
        exact List.subset_nil.mp hAgenda

theorem SmallTalk.believe (h : SmallTalk s) (hAgenda : t.own.agenda = s.own.agenda)
    (hBel : t.own.bel = s.own.bel ++ [p]) (hCom : t.shared.com = s.shared.com)
    (hRoom : p.predicate = bookingRoom) : SmallTalk t where
  agenda := hAgenda ▸ h.agenda
  beliefs := by
    obtain ⟨beliefs, hOld, hBeliefs⟩ := h.beliefs
    refine ⟨beliefs ++ [p], by rw [hBel, hOld]; rfl, fun b hMem => ?_⟩
    rcases List.mem_append.mp hMem with hKnown | hNew
    · exact hBeliefs b hKnown
    · rw [List.mem_singleton.mp hNew]
      exact hRoom
  shared := by
    rw [InformationState.isResolved, hCom, hAgenda]
    exact h.shared

theorem SmallTalk.noPlan (h : SmallTalk s) (q : Question) (rest : List Action)
    (hAgenda : s.own.agenda = .respond q :: rest) (_ : answerable? s q = none) :
    engine.domain.issuePlan? q = none := by
  have hFood := h.agenda (.respond q) (by rw [hAgenda]; exact List.mem_cons_self)
  cases hFood
  exact issuePlan?_whichFood

theorem SmallTalk.idle (h : SmallTalk s) (hPlan : s.own.plan = []) (hTop : TopIsOpen s) :
    engine.Idle s :=
  ⟨hTop, h.noPlan, by simp [hPlan], by simp [hPlan]⟩

theorem Finds.commit (h : Finds p s) (hBel : t.own.bel = s.own.bel)
    (hCom : s.shared.com ⊆ t.shared.com)
    (hLookup : rooms.consult whichRoom t.shared.com = rooms.consult whichRoom s.shared.com) :
    Finds p t where
  filled q hMem := isResolved_of_subset hCom (h.filled q hMem)
  room := hLookup.trans h.room
  beliefs := hBel ▸ h.beliefs

theorem Finds.believe (h : Finds p s) (hBel : t.own.bel = s.own.bel ++ [p])
    (hCom : t.shared.com = s.shared.com) : Finds p t where
  filled q hMem := isResolved_of_subset (hCom ▸ List.Subset.refl _) (h.filled q hMem)
  room := hCom ▸ h.room
  beliefs b hMem hAnswer := by
    rw [hBel] at hMem
    rcases List.mem_append.mp hMem with hKnown | hNew
    · exact h.beliefs b hKnown hAnswer
    · exact List.mem_singleton.mp hNew

theorem Finds.answerable? (h : Finds p s) (hBelief : p ∈ s.own.bel)
    (hUnsaid : ∀ c ∈ s.shared.com, c.predicate ≠ bookingRoom) :
    Update.answerable? s whichRoom = some p := by
  have hRoom := predicate_of_consult h.room
  have hFresh : s.shared.com.contains p = false := by
    rw [← Bool.not_eq_true, List.contains_iff_mem]
    exact fun hSaid => hUnsaid p hSaid hRoom
  have hMem : p ∈ s.unsharedBeliefs := List.mem_filter.mpr ⟨hBelief, by rw [hFresh]; rfl⟩
  have hSome : (s.unsharedBeliefs.find? (·.resolves whichRoom)).isSome = true :=
    List.find?_isSome.mpr ⟨p, hMem, Proposition.resolves_iff.mpr hRoom⟩
  obtain ⟨b, hFound⟩ := Option.isSome_iff_exists.mp hSome
  have hResolves := List.find?_some hFound
  have hOnly := h.beliefs b (List.mem_of_mem_filter (List.mem_of_find?_eq_some hFound))
    (Proposition.resolves_iff.mp hResolves)
  rw [Update.answerable?, hFound, hOnly]

theorem Finds.answerable?_eq_none (h : Finds p s) (hShared : p ∈ s.shared.com) :
    Update.answerable? s whichRoom = none := by
  rw [Update.answerable?, List.find?_eq_none]
  intro b hMem hResolves
  rw [InformationState.unsharedBeliefs, List.mem_filter] at hMem
  rw [h.beliefs b hMem.1 (Proposition.resolves_iff.mp hResolves)] at hMem
  simp [hShared] at hMem

/-- What the user asks for can be answered, so no plan is loaded for it. -/
theorem idle_of_answerable? {rest : List Action} (hTop : TopIsOpen s)
    (hAgenda : s.own.agenda = .respond q :: rest) (hAnswer : answerable? s q = some p)
    (hFindout : ∀ q rest, s.own.plan = .findout q :: rest → s.isResolved q = false)
    (hConsult : ∀ q rest, s.own.plan = .consult q :: rest →
      engine.database.consult q s.shared.com = none) : engine.Idle s := by
  refine ⟨hTop, fun q' rest' hRespond hNone => ?_, hFindout, hConsult⟩
  rw [hAgenda] at hRespond
  cases hRespond
  rw [hAnswer] at hNone
  cases hNone

theorem formSteps_cons (q : Question) (rest : List Question) :
    formSteps whichRoom (q :: rest) = .findout q :: formSteps whichRoom rest := rfl

theorem Phase.idle_engine (hPhase : Phase s filled run) (hTalk : SmallTalk s) : engine.Idle s := by
  cases hPhase with
  | idle hPlan hQud _ => exact hTalk.idle hPlan (topIn_of_nil hQud)
  | told hPlan hQud _ _ => exact hTalk.idle hPlan (topIn_of_nil hQud)
  | held hPlan _ hQud _ _ hUnsaid =>
    exact hTalk.idle hPlan (topIn_of_cons hQud (isResolved_eq_false hUnsaid))
  | @asking found missing above rest hPlan hQud hAbove hCollects =>
    refine ⟨?_, hTalk.noPlan, fun q rest hStep => ?_, fun q rest hStep => ?_⟩
    · cases above with
      | nil => exact topIn_of_cons hQud (hCollects.unresolved List.mem_cons_self)
      | cons q above =>
        have hNext := List.mem_of_head? (hAbove q List.mem_cons_self)
        exact topIn_of_cons hQud (hCollects.unresolved (List.mem_cons_of_mem _ hNext))
    · rw [hPlan] at hStep
      cases missing with
      | nil => cases hStep
      | cons q' missing =>
        cases hStep
        exact hCollects.unresolved (List.mem_cons_of_mem _ List.mem_cons_self)
    · rw [hPlan] at hStep
      cases missing with
      | nil =>
        cases hStep
        exact hCollects.unknown rfl
      | cons q' missing => cases hStep

end Dialogue.Lecture
