import Dialogue.Proofs.Lecture.Turns

/-! # Telling the room

When the last slot is filled in the room is looked up and told. Then everything under discussion is
closed within one cycle, whatever has been asked before.
-/

namespace Dialogue.Lecture

open Update Engine

variable {input : TurnInput} {tops tops' : Question → Prop} {s t u : InformationState}
  {filled run n turns : Nat} {q : Question} {p : Proposition} {found missing rest : List Question}
  {m : Move} {com : List Proposition} {before : List Move} {assumed : Option Proposition}

/-- What the system has said in a turn before it goes on: remarks, or a fact that it has assumed. -/
inductive Aside (missing : List Question) (com : List Proposition) :
    Option Proposition → List Move → Prop where
  | remarks {moves : List Move} : (∀ x ∈ moves, IsRemark x) → Aside missing com none moves
  | fact {c : Proposition} {older : List Proposition} : com = c :: older →
      (∀ q ∈ whichRoom :: missing, c.resolves q = false) →
      Aside missing com (some c) [⟨.answer (.full c), none⟩]

/-- The firings of the cycle in which the system hears itself tell the room. Each question takes one
to be closed, and a fact assumed before takes one more if it is about any of them. -/
def telling (assumed : Option Proposition) (qud : List Question) : Nat :=
  2 + (qud.length + (assumed.any fun c => qud.any c.resolves).toNat)

/-- The firings after a slot is filled in. A room is looked up and told, or the next slot is asked
for; a stuck agenda keeps the system from both. -/
def following (agenda : List Action) (com : List Proposition) : Nat :=
  if (rooms.consult whichRoom com).isSome then (if agenda.isEmpty then 3 else 1)
  else if agenda.isEmpty && slots.any (fun q => !com.any (·.resolves q)) then 2
  else 0

def tells (agenda : List Action) (com : List Proposition) : Bool :=
  agenda.isEmpty && (rooms.consult whichRoom com).isSome

theorem mute_of_fact {c : Proposition} {tops : Question → Prop}
    (h : ∀ q, tops q → c.resolves q = false) :
    ∀ x ∈ [(⟨.answer (.full c), none⟩ : Move)], engine.Mute tops x := by
  intro x hMem
  rw [List.mem_singleton.mp hMem]
  refine ⟨rfl, rfl, fun a q hAnswered hTop => ?_⟩
  cases hAnswered
  exact h q hTop

theorem Aside.exists_mute (h : Aside missing com assumed before) : ∃ tops : Question → Prop,
    (∀ q ∈ whichRoom :: missing, tops q) ∧ ∀ x ∈ before, engine.Mute tops x := by
  cases h with
  | remarks hRemarks =>
    exact ⟨fun _ => True, fun _ _ => trivial, fun x hMem => (hRemarks x hMem).mute _⟩
  | fact _ hApart => exact ⟨_, hApart, mute_of_fact fun _ h => h⟩

/-- When the system hears itself tell the room, everything under discussion is closed. -/
theorem exists_reaches_closed (hAside : Aside [] s.shared.com assumed before)
    (hQud : s.shared.qud = whichRoom :: rest) (hRoom : p.predicate = bookingRoom)
    (hClosed : ∀ q ∈ rest, q = whichRoom ∨ s.isResolved q = true) :
    ∃ tops t, engine.Reaches (.echo (before ++ [⟨.answer (.full p), none⟩])) tops
        (telling assumed s.shared.qud) s t ∧
      ∃ lu com turn, (∀ x, x ∈ com ↔ x = p ∨ x ∈ s.shared.com) ∧
        rooms.consult whichRoom com = rooms.consult whichRoom s.shared.com ∧
        t = { s with shared := ⟨lu, [], com⟩, nextMoves := [], turn := turn } := by
  have hResolves : p.resolves whichRoom = true := Proposition.resolves_iff.mpr hRoom
  have hApart : ∀ q ∈ slots, p.predicate ≠ q.predicate := by
    rw [hRoom]
    decide
  have hAll (t : InformationState) (hCom : t.shared.com = p :: s.shared.com) :
      ∀ q ∈ s.shared.qud, t.isResolved q = true := by
    intro q hMem
    rw [hQud, List.mem_cons] at hMem
    rw [isResolved_iff_of_commit hCom]
    rcases hMem.elim .inl (hClosed q) with rfl | hOld
    · exact .inl hRoom
    · exact .inr hOld
  cases hAside with
  | remarks hRemarks =>
    obtain ⟨t, hLeads, hQuiet, hState⟩ := exists_leads_echoAnswer (e := engine) (s := s.beginTurn)
      rfl rfl (fun x hMem => (hRemarks x hMem).mute fun _ => True) hQud trivial hResolves
    have hQud' : t.shared.qud = s.shared.qud := by rw [hState]; rfl
    have hCloses := leads_downdates rfl hQuiet (fun _ _ => trivial)
      (show t.shared.qud = s.shared.qud ++ [] by rw [List.append_nil, hQud'])
      (fun _ _ => trivial) (hAll t (by rw [hState]; rfl))
    refine ⟨fun _ => True, { t with shared.qud := [] },
      ⟨hLeads.trans rfl hCloses, hQuiet.of_hearing rfl, fun _ _ => trivial⟩, _,
      p :: s.shared.com, _, fun x => List.mem_cons, consult_cons hApart, by rw [hState]; rfl⟩
  | @fact c older hCom hFact =>
    have hFact : c.resolves whichRoom = false := hFact whichRoom List.mem_cons_self
    obtain ⟨t, hLeads, hQuiet, hState⟩ := exists_leads_echoAnswer (e := engine) (s := s.beginTurn)
      rfl rfl (mute_of_fact fun q h => h) hQud hFact hResolves
    have hQud' : t.shared.qud = s.shared.qud := by rw [hState]; rfl
    obtain ⟨com, turn, tops, u, hCom', hCloses, hQuiet', hState'⟩ :=
      exists_leads_closes (e := engine) (s := t) (c := c) rfl (by rw [hState]; rfl)
        (by rw [hState]; rfl) (hQud' ▸ hAll t (by rw [hState]; rfl))
    have hCommitted : t.shared.com = p :: s.shared.com := by rw [hState]; rfl
    rw [hCommitted] at hCom'
    rw [hQud'] at hCloses
    refine ⟨tops, u,
      ⟨hLeads.trans rfl hCloses, hQuiet', ?_⟩, _, com, turn, fun x => ?_, ?_,
      by rw [hState', hState]; rfl⟩
    · rw [hState']
      exact topIn_of_nil rfl
    · rcases hCom' with rfl | rfl
      · exact List.mem_cons
      · rw [hCom, List.mem_cons, List.mem_cons]
        constructor
        · rintro (rfl | hOld)
          · exact .inr List.mem_cons_self
          · exact hOld
        · exact .inr
    · rcases hCom' with rfl | rfl
      · exact consult_cons hApart
      · rw [hCom]
        exact consult_repeat hApart

theorem proceeds_of_answered (h : engine.Reaches input tops n s t)
    (hMay : (engine.context input t).maySelect = false) (hTalk : SmallTalk t)
    (hPlan : t.own.plan = []) (hQud : t.shared.qud = whichRoom :: rest)
    (hTopics : ∀ q ∈ t.shared.qud, q ∈ issues) (hFinds : Finds p t)
    (hUnsaid : ∀ c ∈ t.shared.com, c.predicate ≠ bookingRoom)
    (hMoves : t.nextMoves = before ++ [⟨.answer (.full p), none⟩])
    (hAside : Aside [] t.shared.com assumed before)
    (hCount : t.own.noInputCount.toNat ≤ 2 * turns) :
    Proceeds input turns s (n ≤ 256 ∧ telling assumed t.shared.qud ≤ 256) := by
  have hIdle : engine.Idle t :=
    hTalk.idle hPlan (topIn_of_cons hQud (isResolved_eq_false hUnsaid))
  have hSettles := h.settles rfl hIdle (.inl hMay)
  have hRoom := predicate_of_consult hFinds.room
  have hClosed : ∀ q ∈ rest, q = whichRoom ∨ t.endTurn.isResolved q = true := by
    intro q hMem
    have hIssue := hTopics q (by rw [hQud]; exact List.mem_cons_of_mem _ hMem)
    exact (List.mem_cons.mp hIssue).imp_right (hFinds.filled q)
  obtain ⟨tops', u, hReaches, lu, com, turn, hCom, hLookup, hState⟩ :=
    exists_reaches_closed (s := t.endTurn) hAside hQud hRoom hClosed
  rw [← hMoves] at hReaches
  have hTalk' : SmallTalk u := by
    rw [hState]
    refine hTalk.commit (List.Subset.refl _) rfl hCom ?_
    rw [hRoom]
    decide
  have hFinds' : Finds p u := by
    rw [hState]
    exact hFinds.commit rfl (fun c hCommitted => (hCom c).mpr (.inr hCommitted)) hLookup
  have hQud' : u.shared.qud = [] := by rw [hState]
  have hPhase : Phase u 0 0 := by
    refine .told ?_ hQud' hFinds' ?_
    · rw [hState]
      exact hPlan
    · rw [hState]
      exact (hCom p).mpr (.inl rfl)
  have hWithin : Within 0 turns u := by
    refine ⟨hTalk', by simp [hQud'], 0, 0, hPhase, ?_, Nat.zero_le _⟩
    rw [hQud', hState]
    change 0 + 2 * 0 + t.own.noInputCount.toNat + 0 ≤ _
    omega
  have hEcho := hReaches.settles rfl hWithin.idle (.inl rfl)
  have hTask : SameTask u u.endTurn := ⟨rfl, rfl, rfl, rfl, rfl⟩
  exact ⟨u.endTurn, n, _, .replying hSettles (show t.nextMoves ≠ [] by simp [hMoves]) hEcho,
    Iff.rfl, hTask.within hWithin (Nat.le_refl _) (Nat.le_refl _)⟩

/-- A room that is found is told at once, unless the agenda is stuck. -/
theorem proceeds_of_found (h : engine.Reaches input (fun _ => True) n s t)
    (hMay : (engine.context input t).maySelect = true) (hTalk : SmallTalk t)
    (hTopics : ∀ q ∈ t.shared.qud, q ∈ issues) (hPlan : t.own.plan = [.consult whichRoom])
    (hQud : t.shared.qud = whichRoom :: rest) (hFilled : ∀ q ∈ slots, t.isResolved q = true)
    (hForm : IsOpenForm whichRoom [] t.own.bel t.shared.com)
    (hRoom : rooms.consult whichRoom t.shared.com = some p)
    (hAside : Aside [] t.shared.com assumed t.nextMoves)
    (hBudget : t.shared.qud.length + t.own.noInputCount.toNat + 5 ≤ 2 * turns) :
    Proceeds input turns s (n + following t.own.agenda t.shared.com ≤ 256 ∧
      (tells t.own.agenda t.shared.com = true → telling assumed t.shared.qud ≤ 256)) := by
  have hOpen : TopIsOpen t := topIn_of_cons hQud (isResolved_eq_false hForm.goal_unsaid)
  have hReaches := h.then rfl (leads_consulted rfl h.quiet h.top hOpen hTalk.noPlan hPlan hRoom) rfl
    h.top
  have hTalk' : SmallTalk { t with own.plan := [], own.bel := t.own.bel ++ [p] } :=
    hTalk.believe rfl rfl rfl (predicate_of_consult hRoom)
  have hFinds : Finds p t :=
    ⟨hFilled, hRoom, fun b hMem hAnswer => absurd hAnswer (hForm.unknown b hMem)⟩
  have hFinds' : Finds p { t with own.plan := [], own.bel := t.own.bel ++ [p] } :=
    hFinds.believe rfl rfl
  by_cases hAgenda : t.own.agenda = []
  · have hResponds := leads_responds rfl hReaches.quiet hReaches.top (hTalk'.idle rfl hOpen) hMay
      hAgenda rfl hQud
      (answerable?_append hForm.unknown rfl hForm.goal_unsaid (predicate_of_consult hRoom))
    have hTask : SameTask { t with own.plan := [], own.bel := t.own.bel ++ [p] } { t with
        own.plan := [], own.bel := t.own.bel ++ [p]
        nextMoves := t.nextMoves ++ [⟨.answer (.full p), none⟩], turn.selected := true } :=
      ⟨rfl, rfl, rfl, rfl, rfl⟩
    have hCount : t.own.noInputCount.toNat ≤ 2 * turns := by omega
    have hAnswered := proceeds_of_answered (hReaches.then rfl hResponds rfl h.top)
      (by simp [Context.maySelect]) (hTask.smallTalk hTalk') rfl hQud hTopics
      (hTask.finds hFinds') hForm.goal_unsaid rfl hAside hCount
    refine hAnswered.congr ?_
    simp [following, tells, hRoom, hAgenda, Nat.add_assoc]
  · have hWithin : Within 1 turns { t with own.plan := [], own.bel := t.own.bel ++ [p] } := by
      refine ⟨hTalk', hTopics, 2, 0, .held rfl hAgenda hQud hFinds' ?_ hForm.goal_unsaid, ?_, ?_⟩
      · exact List.mem_append_right _ List.mem_cons_self
      · change t.shared.qud.length + 2 * 2 + t.own.noInputCount.toNat + 1 ≤ 2 * turns
        omega
      · omega
    obtain ⟨tops', hTops, hMute⟩ := hAside.exists_mute
    have hRests := proceeds_of_reaches hReaches hWithin hMay hMute
      (topIn_of_cons hQud (hTops whichRoom List.mem_cons_self)) (fun q rest hStep => by cases hStep)
    refine hRests.congr ?_
    have hAsking : asking { t with own.plan := [], own.bel := t.own.bel ++ [p] } = 0 := by
      simp [asking]
    simp [following, tells, hRoom, hAgenda, hAsking]

/-- As long as no room is known, the system goes on just by asking for the next slot. -/
theorem Collects.following_eq_asking (h : Collects found missing t)
    (hPlan : t.own.plan = formSteps whichRoom missing)
    (hUnknown : rooms.consult whichRoom t.shared.com = none) :
    following t.own.agenda t.shared.com = asking t := by
  have hOpen : (slots.any fun q => !t.isResolved q) = !missing.isEmpty := by
    cases missing with
    | nil =>
      rw [← h.all, List.append_nil, List.any_eq_false.mpr fun q hMem => by simp [h.filled q hMem]]
      rfl
    | cons q missing =>
      refine List.any_eq_true.mpr ⟨q, h.mem_slots, ?_⟩
      rw [h.unresolved (List.mem_cons_of_mem _ List.mem_cons_self)]
      rfl
  rw [following, hUnknown, Option.isSome_none, if_neg Bool.false_ne_true]
  change (if t.own.agenda.isEmpty && slots.any fun q => !t.isResolved q then 2 else 0) = _
  rw [hOpen]
  cases hAgenda : t.own.agenda with
  | cons a rest => simp [asking, hAgenda]
  | nil =>
    cases missing with
    | nil => simp [asking, hAgenda, show t.own.plan = [.consult whichRoom] from hPlan]
    | cons q missing => simp [asking_of_findout hAgenda hPlan]

/-- With a slot just filled in and the questions about it closed, the turn goes on. -/
theorem proceeds_of_filled (h : engine.Reaches input (fun _ => True) n s t)
    (hMay : (engine.context input t).maySelect = true) (hTalk : SmallTalk t)
    (hTopics : ∀ q ∈ t.shared.qud, q ∈ issues) (hPlan : t.own.plan = formSteps whichRoom missing)
    (hQud : t.shared.qud = whichRoom :: rest) (hAll : found ++ missing = slots)
    (hFilled : ∀ q ∈ found, t.isResolved q = true)
    (hForm : IsOpenForm whichRoom missing t.own.bel t.shared.com)
    (hAside : Aside missing t.shared.com assumed t.nextMoves)
    (hBudget : t.shared.qud.length + 2 * found.length + t.own.noInputCount.toNat + 1 ≤ 2 * turns) :
    Proceeds input turns s (n + following t.own.agenda t.shared.com ≤ 256 ∧
      (tells t.own.agenda t.shared.com = true → telling assumed t.shared.qud ≤ 256)) := by
  have hLength : t.shared.qud.length = rest.length + 1 := by rw [hQud, List.length_cons]
  have hGoOn (hUnknown : rooms.consult whichRoom t.shared.com = none) :
      Proceeds input turns s (n + following t.own.agenda t.shared.com ≤ 256 ∧
        (tells t.own.agenda t.shared.com = true → telling assumed t.shared.qud ≤ 256)) := by
    have hCollects : Collects found missing t := ⟨hAll, hFilled, hForm, fun _ => hUnknown⟩
    have hPhase : Phase t found.length ([] : List Question).length :=
      .asking hPlan hQud (by simp) hCollects
    have hWithin : Within 1 turns t :=
      ⟨hTalk, hTopics, found.length, 0, hPhase, hBudget, by omega⟩
    obtain ⟨tops', hTops, hMute⟩ := hAside.exists_mute
    have hRests := proceeds_of_reaches h hWithin hMay hMute
      (topIn_of_cons hQud (hTops whichRoom List.mem_cons_self)) (fun q steps hStep => by
        rw [hPlan] at hStep
        cases missing with
        | nil => cases hStep
        | cons q' missing =>
          cases hStep
          exact hTops q (List.mem_cons_of_mem _ List.mem_cons_self))
    refine hRests.congr ?_
    rw [hCollects.following_eq_asking hPlan hUnknown]
    simp [tells, hUnknown]
  cases missing with
  | cons q missing =>
    have hSlot : q ∈ slots := by
      rw [← hAll]
      simp
    exact hGoOn (consult_eq_none hSlot (hForm.slot_unsaid List.mem_cons_self))
  | nil =>
    rw [List.append_nil] at hAll
    subst hAll
    cases hRoom : rooms.consult whichRoom t.shared.com with
    | none => exact hGoOn hRoom
    | some p =>
      refine proceeds_of_found h hMay hTalk hTopics hPlan hQud hFilled hForm hRoom hAside ?_
      rw [show slots.length = 2 from rfl] at hBudget
      omega

end Dialogue.Lecture
