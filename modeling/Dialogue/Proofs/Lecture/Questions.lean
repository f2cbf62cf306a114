import Dialogue.Proofs.Lecture.Slots

/-! # The user's questions

The user may ask for the room and about food at any time. A question for the room starts the form
over, with the slots that are filled in already; a question about food is answered once.
-/

namespace Dialogue.Lecture

open Update Engine

variable {input : TurnInput} {s t u : InformationState} {filled run n turns : Nat} {q : Question}
  {p : Proposition} {found missing rest : List Question} {m : Move} {agenda : List Action}

theorem answerable?_whichRoom_eq_none
    (hForm : IsOpenForm whichRoom missing s.own.bel s.shared.com) :
    answerable? s whichRoom = none :=
  answerable?_eq_none hForm.unknown

/-- The plan is loaded again, and its steps that are done are dropped. -/
theorem proceeds_of_reload (h : engine.Reaches input (fun _ => True) n s t)
    (hMay : (engine.context input t).maySelect = true)
    (hAgenda : t.own.agenda = .respond whichRoom :: agenda)
    (hTalk : SmallTalk { t with own.agenda := agenda }) (hTopics : ∀ q ∈ t.shared.qud, q ∈ issues)
    (hQud : t.shared.qud = whichRoom :: rest) (hCollects : Collects found missing t)
    (hMoves : t.nextMoves = [])
    (hBudget : t.shared.qud.length + 2 * found.length + t.own.noInputCount.toNat + 1 ≤ 2 * turns)
    (hSoon : n ≤ 240) : Proceeds input turns s True := by
  have hOpen : TopIsOpen t := topIn_of_cons hQud (hCollects.unresolved List.mem_cons_self)
  have hLoaded := leads_loaded rfl h.quiet h.top hOpen hAgenda
    (answerable?_whichRoom_eq_none hCollects.form) issuePlan?_whichRoom
  have hSteps : roomPlan.steps = found.map .findout ++ formSteps whichRoom missing := by
    rw [formSteps, ← List.append_assoc, ← List.map_append, hCollects.all]
    rfl
  have hFoundOuts := leads_foundOuts
    (s := { t with own.agenda := agenda, own.plan := roomPlan.steps }) rfl
    (h.quiet.of_hearing rfl) h.top hOpen hTalk.noPlan hSteps hCollects.filled
  have hLength : found.length ≤ 2 := by
    have hAll := congrArg List.length hCollects.all
    rw [List.length_append] at hAll
    change _ = 2 at hAll
    omega
  have hPhase : Phase { t with own.agenda := agenda, own.plan := formSteps whichRoom missing }
      found.length ([] : List Question).length :=
    .asking rfl hQud (by simp)
      ⟨hCollects.all, hCollects.filled, hCollects.form, hCollects.unknown⟩
  have hReaches := h.then rfl (hLoaded.trans rfl hFoundOuts) rfl h.top
  refine proceeds_of_reaches_soon hReaches
    ⟨⟨hTalk.agenda, hTalk.beliefs, hTalk.shared⟩, hTopics, found.length, 0, hPhase, hBudget, ?_⟩
    hMay (fun x hMem => ?_) (fun _ _ => trivial) (fun _ _ _ => trivial) (by omega)
  · have hQudLength := congrArg List.length hQud
    rw [List.length_cons] at hQudLength
    omega
  · change x ∈ t.nextMoves at hMem
    rw [hMoves] at hMem
    cases hMem

/-- Once told, the room is looked up again, but there is nothing to say that is not agreed. -/
theorem proceeds_of_retold (h : engine.Reaches input (fun _ => True) n s t)
    (hMay : (engine.context input t).maySelect = true)
    (hAgenda : t.own.agenda = .respond whichRoom :: agenda)
    (hTalk : SmallTalk { t with own.agenda := agenda }) (hQud : t.shared.qud = [whichRoom])
    (hFinds : Finds p t) (hShared : p ∈ t.shared.com) (hMoves : t.nextMoves = [])
    (hBudget : t.own.noInputCount.toNat + 1 ≤ 2 * turns) (hSoon : n ≤ 240) :
    Proceeds input turns s True := by
  have hRoom := predicate_of_consult hFinds.room
  have hDowndated := leads_downdate rfl h.quiet h.top hQud
    (isResolved_iff.mpr ⟨p, hShared, hRoom⟩)
  have hReaches := h.then rfl hDowndated rfl fun _ _ => trivial
  have hOpen : TopIsOpen { t with shared.qud := [] } := topIn_of_nil rfl
  have hNone : answerable? { t with shared.qud := [] } whichRoom = none :=
    hFinds.answerable?_eq_none hShared
  have hLoaded := leads_loaded rfl hReaches.quiet hReaches.top hOpen hAgenda hNone
    issuePlan?_whichRoom
  have hFoundOuts := leads_foundOuts
    (s := { t with own.agenda := agenda, own.plan := roomPlan.steps, shared.qud := [] }) rfl
    (h.quiet.of_hearing rfl) (fun _ _ => trivial) (topIn_of_nil rfl) hTalk.noPlan
    (show roomPlan.steps = slots.map .findout ++ [.consult whichRoom] from rfl) hFinds.filled
  have hConsulted := leads_consulted
    (s := { t with own.agenda := agenda, own.plan := [.consult whichRoom], shared.qud := [] }) rfl
    (h.quiet.of_hearing rfl) (fun _ _ => trivial) (topIn_of_nil rfl) hTalk.noPlan rfl hFinds.room
  have hReaches' := hReaches.then rfl ((hLoaded.trans rfl hFoundOuts).trans rfl hConsulted) rfl
    fun _ _ => trivial
  refine proceeds_of_reaches_soon hReaches' ⟨hTalk.believe rfl rfl rfl hRoom, by simp, 0, 0,
    .told rfl rfl (hFinds.believe rfl rfl) hShared, ?_, ?_⟩ hMay (fun x hMem => ?_)
    (fun _ _ => trivial) (fun _ _ _ => trivial) ?_
  · change 0 + 2 * 0 + t.own.noInputCount.toNat + 1 ≤ 2 * turns
    omega
  · omega
  · change x ∈ t.nextMoves at hMem
    rw [hMoves] at hMem
    cases hMem
  · change n + 1 + (1 + 2 + 1) ≤ 254
    omega

/-- A room that was found before the user asked again is told now. -/
theorem proceeds_of_held (h : engine.Reaches input (fun _ => True) n s t)
    (hMay : (engine.context input t).maySelect = true)
    (hAgenda : t.own.agenda = .respond whichRoom :: agenda)
    (hTalk : SmallTalk { t with own.agenda := agenda }) (hTopics : ∀ q ∈ t.shared.qud, q ∈ issues)
    (hPlan : t.own.plan = []) (hQud : t.shared.qud = whichRoom :: rest) (hFinds : Finds p t)
    (hBelief : p ∈ t.own.bel) (hUnsaid : ∀ c ∈ t.shared.com, c.predicate ≠ bookingRoom)
    (hMoves : t.nextMoves = []) (hCount : t.own.noInputCount.toNat ≤ 2 * turns)
    (hSoon : n ≤ 240) : Proceeds input turns s (telling none t.shared.qud ≤ 256) := by
  have hAnswer : answerable? t whichRoom = some p := hFinds.answerable? hBelief hUnsaid
  have hIdle : engine.Idle t :=
    idle_of_answerable? (topIn_of_cons hQud (isResolved_eq_false hUnsaid)) hAgenda hAnswer
      (by simp [hPlan]) (by simp [hPlan])
  have hAnswered := leads_answered rfl h.quiet h.top hIdle hMay hAgenda hAnswer
  have hTold := proceeds_of_answered (h.then rfl hAnswered rfl h.top) (by simp [Context.maySelect])
    ⟨hTalk.agenda, hTalk.beliefs, hTalk.shared⟩ hPlan hQud hTopics
    ⟨hFinds.filled, hFinds.room, hFinds.beliefs⟩ hUnsaid (show _ = [] ++ [_] by rw [← hMoves])
    (.remarks (by simp)) hCount
  exact hTold.congr (and_iff_right (by omega))

/-- The user's question is on top, and the system is to respond to it first. -/
structure Asked (m : Move) (q : Question) (n : Nat) (s t : InformationState) : Prop where
  reaches : engine.Reaches (.user [m]) (fun _ => True) n s t
  may : (engine.context (.user [m]) t).maySelect = true
  agenda : t.own.agenda = .respond q :: s.own.agenda
  plan : t.own.plan = s.own.plan
  bel : t.own.bel = s.own.bel
  count : t.own.noInputCount = 0
  qud : t.shared.qud = q :: s.shared.qud
  com : t.shared.com = s.shared.com
  moves : t.nextMoves = []

theorem exists_asked (hClear : m.isUnclear engine.config.lowConfidence = false)
    (hAsked : m.asked? = some q) (s : InformationState) : ∃ n ≤ 3, ∃ t, Asked m q n s t := by
  obtain ⟨t, hLeads, hQuiet, rfl⟩ :=
    leads_hearsAsk (e := engine) (s := s.beginTurn) rfl rfl hClear hAsked
  have hOnce := engagement_le s.beginTurn
  exact ⟨_, by omega, _, ⟨hLeads, hQuiet, fun _ _ => trivial⟩, rfl, rfl, rfl, rfl, rfl, rfl, rfl, rfl⟩

theorem Asked.collects (h : Asked m q n s t) (hCollects : Collects found missing s) :
    Collects found missing t where
  all := hCollects.all
  filled q' hMem := isResolved_of_subset (h.com ▸ List.Subset.refl _) (hCollects.filled q' hMem)
  form := by
    rw [h.bel, h.com]
    exact hCollects.form
  unknown := h.com ▸ hCollects.unknown

theorem Asked.finds (h : Asked m q n s t) (hFinds : Finds p s) : Finds p t :=
  hFinds.commit h.bel (h.com ▸ List.Subset.refl _) (by rw [h.com])

theorem Asked.answerable? (h : Asked m q n s t) :
    Update.answerable? t q = Update.answerable? s q := by
  rw [Update.answerable?, Update.answerable?, InformationState.unsharedBeliefs,
    InformationState.unsharedBeliefs, h.bel, h.com]

theorem proceeds_askRoom (h : Within 0 turns s)
    (hClear : m.isUnclear engine.config.lowConfidence = false)
    (hAsked : m.asked? = some whichRoom) :
    Proceeds (.user [m]) (turns + 1) s ((answerable? s whichRoom).isSome = true →
      telling none (whichRoom :: s.shared.qud) ≤ 256) := by
  obtain ⟨filled, run, hPhase, hBudget, hRun⟩ := h.phase
  obtain ⟨n, hn, t, hAsks⟩ := exists_asked hClear hAsked s
  have hTask : SameTask { s with shared.qud := whichRoom :: s.shared.qud } { t with
      own.agenda := s.own.agenda } := ⟨rfl, hAsks.plan, hAsks.bel, hAsks.qud, hAsks.com⟩
  have hTalk : SmallTalk { t with own.agenda := s.own.agenda } :=
    hTask.smallTalk ⟨h.talk.agenda, h.talk.beliefs, h.talk.shared⟩
  have hTopics : ∀ q ∈ t.shared.qud, q ∈ issues := by
    rw [hAsks.qud]
    intro q hMem
    rcases List.mem_cons.mp hMem with rfl | hOld
    · exact List.mem_cons_self
    · exact h.topics q hOld
  have hReload {found missing : List Question} (hCollects : Collects found missing s)
      (hFilled : s.shared.qud.length + 2 * found.length + s.own.noInputCount.toNat ≤ 2 * turns) :
      Proceeds (.user [m]) (turns + 1) s ((answerable? s whichRoom).isSome = true →
        telling none (whichRoom :: s.shared.qud) ≤ 256) := by
    have hNone : answerable? s whichRoom = none :=
      answerable?_whichRoom_eq_none hCollects.form
    refine Proceeds.vacuously ?_ (by simp [hNone])
    refine proceeds_of_reload hAsks.reaches hAsks.may hAsks.agenda hTalk hTopics hAsks.qud
      (hAsks.collects hCollects) hAsks.moves ?_ (by omega)
    rw [hAsks.qud, hAsks.count, List.length_cons]
    change s.shared.qud.length + 1 + 2 * found.length + 0 + 1 ≤ 2 * (turns + 1)
    omega
  cases hPhase with
  | idle _ _ hCollects => exact hReload hCollects (by simpa using hBudget)
  | asking _ _ _ hCollects => exact hReload hCollects (by omega)
  | told _ hNone hFinds hShared =>
    refine Proceeds.vacuously ?_ (by simp [hFinds.answerable?_eq_none hShared])
    refine proceeds_of_retold hAsks.reaches hAsks.may hAsks.agenda hTalk
      (by rw [hAsks.qud, hNone]) (hAsks.finds hFinds) (hAsks.com ▸ hShared) hAsks.moves ?_
      (by omega)
    rw [hAsks.count]
    change 0 + 1 ≤ 2 * (turns + 1)
    omega
  | held hPlan _ _ hFinds hBelief hUnsaid =>
    have hSome : answerable? s whichRoom = some _ := hFinds.answerable? hBelief hUnsaid
    have hTold : Proceeds (.user [m]) (turns + 1) s (telling none t.shared.qud ≤ 256) :=
      proceeds_of_held hAsks.reaches hAsks.may hAsks.agenda hTalk hTopics (hAsks.plan.trans hPlan)
        hAsks.qud (hAsks.finds hFinds) (hAsks.bel ▸ hBelief) (hAsks.com ▸ hUnsaid) hAsks.moves
        (by rw [hAsks.count]; exact Nat.zero_le _) (by omega)
    rw [hAsks.qud] at hTold
    refine hTold.congr ?_
    rw [hSome]
    exact ⟨fun hFits _ => hFits, fun hFits => hFits rfl⟩

theorem Phase.of_agenda (h : Phase s filled run) (hStuck : s.own.agenda ≠ [] → agenda ≠ []) :
    Phase { s with own.agenda := agenda } filled run := by
  cases h with
  | idle hPlan hQud hCollects =>
    exact .idle hPlan hQud ⟨hCollects.all, hCollects.filled, hCollects.form, hCollects.unknown⟩
  | asking hPlan hQud hAbove hCollects =>
    exact .asking hPlan hQud hAbove
      ⟨hCollects.all, hCollects.filled, hCollects.form, hCollects.unknown⟩
  | held hPlan hAgenda hQud hFinds hBelief hUnsaid =>
    exact .held hPlan (hStuck hAgenda) hQud ⟨hFinds.filled, hFinds.room, hFinds.beliefs⟩ hBelief
      hUnsaid
  | told hPlan hQud hFinds hShared =>
    exact .told hPlan hQud ⟨hFinds.filled, hFinds.room, hFinds.beliefs⟩ hShared

theorem consult_pizza (q : Question) (com : List Proposition) :
    rooms.consult q (pizza :: com) = rooms.consult q com :=
  consult_cons (by decide)

theorem Collects.share (h : Collects found missing s) :
    Collects found missing { s with shared.com := pizza :: s.shared.com } where
  all := h.all
  filled q hMem := isResolved_of_subset (List.subset_cons_self _ _) (h.filled q hMem)
  form := by
    refine ⟨h.form.distinct, fun p hMem => ?_, h.form.unknown⟩
    rcases List.mem_cons.mp hMem with rfl | hOld
    · intro hFood
      obtain ⟨q, hSlot, hEq⟩ := List.mem_map.mp hFood
      refine predicate_ne_favoriteFood q ?_ hEq
      rw [issues, ← h.all]
      rcases List.mem_cons.mp hSlot with rfl | hMissing
      · exact List.mem_cons_self
      · exact List.mem_cons_of_mem _ (List.mem_append_right _ hMissing)
    · exact h.form.unsaid p hOld
  unknown hNil := (consult_pizza _ _).trans (h.unknown hNil)

theorem Phase.share (h : Phase s filled run) (hAgenda : s.own.agenda = []) :
    Phase { s with shared.com := pizza :: s.shared.com } filled run := by
  cases h with
  | idle hPlan hQud hCollects => exact .idle hPlan hQud hCollects.share
  | asking hPlan hQud hAbove hCollects => exact .asking hPlan hQud hAbove hCollects.share
  | held _ hStuck _ _ _ _ => exact absurd hAgenda hStuck
  | told hPlan hQud hFinds hShared =>
    exact .told hPlan hQud (hFinds.commit rfl (List.subset_cons_self _ _) (consult_pizza _ _))
      (List.mem_cons_of_mem _ hShared)

theorem proceeds_of_pizza {tops : Question → Prop} {qud : List Question}
    (h : engine.Reaches input tops n s t) (hMay : (engine.context input t).maySelect = false)
    (hIdle : engine.Idle t) (hTalk : SmallTalk { t with shared.qud := qud })
    (hAgenda : t.own.agenda = []) (hQud : t.shared.qud = whichFood :: qud)
    (hTopics : ∀ q ∈ qud, q ∈ issues) (hPhase : Phase { t with shared.qud := qud } filled run)
    (hMoves : t.nextMoves = [⟨.answer (.full pizza), none⟩])
    (hBudget : qud.length + 2 * filled + t.own.noInputCount.toNat ≤ 2 * turns)
    (hRun : run ≤ turns) (hSoon : n ≤ 256) : Proceeds input turns s True := by
  have hSettles := h.settles rfl hIdle (.inl hMay)
  have hMute : ∀ x ∈ ([] : List Move), engine.Mute (fun _ => True) x := by simp
  obtain ⟨u, hLeads, hQuiet, hState⟩ := exists_leads_echoAnswer (s := t.endTurn.beginTurn) rfl rfl
    hMute hQud trivial (show pizza.resolves whichFood = true from rfl)
  have hClosed := leads_downdate rfl hQuiet (fun _ _ => trivial)
    (show u.shared.qud = whichFood :: qud by rw [hState]; exact hQud)
    (isResolved_iff.mpr ⟨pizza, by rw [hState]; exact List.mem_cons_self, rfl⟩)
  have hTask : SameTask { t with shared.qud := qud, shared.com := pizza :: t.shared.com }
      { u with shared.qud := qud } := by
    rw [hState]
    exact ⟨rfl, rfl, rfl, rfl, rfl⟩
  have hWithin : Within 0 turns { u with shared.qud := qud } := by
    refine ⟨hTask.smallTalk ⟨hTalk.agenda, hTalk.beliefs, .inl List.mem_cons_self⟩, hTopics, filled,
      run, hTask.phase (hPhase.share hAgenda), ?_, hRun⟩
    rw [hState]
    exact hBudget
  have hEcho : engine.Reaches (.echo t.nextMoves) (fun _ => True) (2 + 1) t.endTurn
      { u with shared.qud := qud } := by
    rw [hMoves]
    exact ⟨hLeads.trans rfl hClosed, hQuiet.of_hearing rfl, fun _ _ => trivial⟩
  have hTask' : SameTask { u with shared.qud := qud }
      (InformationState.endTurn { u with shared.qud := qud }) := ⟨rfl, rfl, rfl, rfl, rfl⟩
  exact ⟨_, n, 2 + 1, .replying hSettles (show t.nextMoves ≠ [] by simp [hMoves])
    (hEcho.settles rfl hWithin.idle (.inl rfl)), iff_true_intro ⟨hSoon, by omega⟩,
    hTask'.within hWithin (Nat.le_refl _) (Nat.le_refl _)⟩

/-- Food that is agreed on already leaves only a `respond` on the agenda, which is stuck there. -/
theorem proceeds_of_agreed (h : Within 0 turns s) (hAsks : Asked m whichFood n s t)
    (hShared : pizza ∈ s.shared.com) (hSoon : n ≤ 240) :
    Proceeds (.user [m]) (turns + 1) s True := by
  obtain ⟨filled, run, hPhase, hBudget, hRun⟩ := h.phase
  have hDowndated := leads_downdate rfl hAsks.reaches.quiet (fun _ _ => trivial) hAsks.qud
    (isResolved_iff.mpr ⟨pizza, hAsks.com ▸ hShared, rfl⟩)
  have hTask : SameTask { s with own.agenda := .respond whichFood :: s.own.agenda }
      { t with shared.qud := s.shared.qud } :=
    ⟨hAsks.agenda, hAsks.plan, hAsks.bel, rfl, hAsks.com⟩
  have hWithin : Within 1 (turns + 1) { t with shared.qud := s.shared.qud } := by
    refine ⟨hTask.smallTalk ⟨?_, h.talk.beliefs, .inl hShared⟩, h.topics, filled, run,
      hTask.phase (hPhase.of_agenda fun _ => List.cons_ne_nil _ _), ?_, by omega⟩
    · intro a hMem
      exact (List.mem_cons.mp hMem).elim id (h.talk.agenda a)
    · rw [hAsks.count]
      change s.shared.qud.length + 2 * filled + 0 + 1 ≤ _
      omega
  refine proceeds_of_reaches_soon (hAsks.reaches.then rfl hDowndated rfl fun _ _ => trivial) hWithin
    hAsks.may (fun x hMem => ?_) (fun _ _ => trivial) (fun _ _ _ => trivial) (by omega)
  rw [show x ∈ t.nextMoves ↔ x ∈ [] by rw [hAsks.moves]] at hMem
  cases hMem

theorem proceeds_of_unagreed (h : Within 0 turns s) (hAsks : Asked m whichFood n s t)
    (hOpen : s.isResolved whichFood = false) (hEmpty : s.own.agenda = []) (hSoon : n ≤ 240) :
    Proceeds (.user [m]) (turns + 1) s True := by
  obtain ⟨filled, run, hPhase, hBudget, hRun⟩ := h.phase
  have hAnswer : answerable? t whichFood = some pizza :=
    hAsks.answerable?.trans (answerable?_of_unshared h.talk hOpen)
  have hResolved (q : Question) : t.isResolved q = s.isResolved q := by
    rw [InformationState.isResolved, InformationState.isResolved, hAsks.com]
  have hIdle : engine.Idle t := by
    refine idle_of_answerable? (topIn_of_cons hAsks.qud ((hResolved _).trans hOpen)) hAsks.agenda
      hAnswer (fun q rest hStep => ?_) (fun q rest hStep => ?_)
    · exact (hResolved q).trans (h.idle.findout q rest (hAsks.plan ▸ hStep))
    · rw [hAsks.com]
      exact h.idle.consult q rest (hAsks.plan ▸ hStep)
  have hAnswered := leads_answered rfl hAsks.reaches.quiet (fun _ _ => trivial) hIdle hAsks.may
    hAsks.agenda hAnswer
  rw [hAsks.moves, List.nil_append] at hAnswered
  have hIdle' : engine.Idle { t with
      own.agenda := s.own.agenda, nextMoves := [⟨.answer (.full pizza), none⟩]
      turn.selected := true } := by
    refine ⟨hIdle.top, fun q rest hRespond _ => ?_, hIdle.findout, hIdle.consult⟩
    rw [show s.own.agenda = _ :: _ from hRespond] at hEmpty
    cases hEmpty
  have hTask : SameTask s { t with
      own.agenda := s.own.agenda, shared.qud := s.shared.qud
      nextMoves := [⟨.answer (.full pizza), none⟩], turn.selected := true } :=
    ⟨rfl, hAsks.plan, hAsks.bel, rfl, hAsks.com⟩
  refine proceeds_of_pizza (hAsks.reaches.then rfl hAnswered rfl fun _ _ => trivial)
    (by simp [Context.maySelect]) hIdle' (hTask.smallTalk h.talk) hEmpty hAsks.qud h.topics
    (hTask.phase hPhase) rfl ?_ (by omega) (by omega)
  rw [hAsks.count]
  change s.shared.qud.length + 2 * filled + 0 ≤ _
  omega

theorem proceeds_askFood (h : Within 0 turns s)
    (hClear : m.isUnclear engine.config.lowConfidence = false)
    (hAsked : m.asked? = some whichFood) : Proceeds (.user [m]) (turns + 1) s True := by
  obtain ⟨n, hn, t, hAsks⟩ := exists_asked hClear hAsked s
  rcases h.talk.shared with hShared | ⟨hOpen, hEmpty⟩
  · exact proceeds_of_agreed h hAsks hShared (by omega)
  · exact proceeds_of_unagreed h hAsks hOpen hEmpty (by omega)

end Dialogue.Lecture
