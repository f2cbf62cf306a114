import Dialogue.Proofs.Cycle.Bisimulation
import Dialogue.Proofs.Update.Hearing

/-! # Acknowledging

Only the rule that acknowledges answers reads when and how to do so, and no rule reads what it says.
So cycles with other settings for it do the same otherwise, and so do the cycles in which the system
hears itself.
-/

namespace Dialogue

open Update

/-- The settings but for when and how answers are acknowledged. -/
def Config.unacknowledged (c : Config) : Config :=
  { c with acknowledge := 1, acknowledgementText := "" }

namespace InformationState

variable {s t : InformationState}

/-- What a state comes to when acknowledgements do not matter. An utterance matters only while it is
latched. -/
def unacknowledged (s : InformationState) : InformationState :=
  { s with
    shared.lu := s.latched?
    nextMoves := s.nextMoves.filter (!·.isAcknowledge)
    version := 0
    turn.acknowledged := false }

theorem unacknowledged_reduce (s : InformationState) (delta : Delta) :
    (s.unacknowledged.reduce delta).unacknowledged = (s.reduce delta).unacknowledged := by
  cases hMark : s.turn.latched with
  | _ => cases delta with
    | _ => simp [unacknowledged, reduce, latched?, hMark]

theorem foldl_reduce_congr {f : InformationState → InformationState}
    (hReduce : ∀ s delta, f ((f s).reduce delta) = f (s.reduce delta)) (h : f s = f t)
    (deltas : List Delta) : f (deltas.foldl reduce s) = f (deltas.foldl reduce t) := by
  have hFold (s : InformationState) :
      deltas.foldl (fun v delta => f (v.reduce delta)) (f s) = f (deltas.foldl reduce s) :=
    List.foldl_hom f hReduce
  rw [← hFold, h, hFold]

theorem unacknowledged_apply (h : s.unacknowledged = t.unacknowledged) (deltas : List Delta) :
    (s.apply deltas).unacknowledged = (t.apply deltas).unacknowledged :=
  foldl_reduce_congr unacknowledged_reduce h deltas

/-- What is still to be taken in, but for acknowledgements. -/
def talk (s : InformationState) : List Move :=
  (s.pendingMoves.map (·.2)).filter (!·.isAcknowledge)

theorem talk_of_latched {u : Utterance} (hLatched : s.latched? = some u)
    (hConsumed : s.turn.consumed = []) : s.talk = u.moves.filter (!·.isAcknowledge) := by
  have hPending : s.pendingMoves = u.moves.zipIdx.map Prod.swap :=
    pendingMoves_of_fresh hLatched hConsumed
  rw [talk, hPending, List.map_map]
  exact congrArg (List.filter _) (List.zipIdx_map_fst 0 u.moves)

end InformationState

namespace Context

variable {c : Context} {β : Type} {f : Move → Option β}

def unacknowledged (c : Context) : Context :=
  { c with config := c.config.unacknowledged, state := c.state.unacknowledged }

theorem effect_unacknowledged {r : Rule} (hRule : r ∈ defaultRules)
    (hOther : r.name ≠ integratePositiveGrounding.name) (c : Context) :
    r.effect c.unacknowledged = r.effect c := by
  obtain ⟨domain, database, config, input, own, ⟨lu, qud, com⟩, moves, version, turn⟩ := c
  obtain ⟨latched, consumed, grounded, acknowledged, selected⟩ := turn
  cases hRule using defaultRules_cases with
  | integratePositiveGrounding => exact absurd rfl hOther
  | _ =>
    cases latched with
    | _ => rfl

theorem findSome?_filter {p : Move → Bool} (hNone : ∀ m, p m = false → f m = none)
    (moves : List Move) : (moves.filter p).findSome? f = moves.findSome? f := by
  induction moves with
  | nil => rfl
  | cons m rest ih =>
    cases hKept : p m with
    | true => rw [List.filter_cons_of_pos hKept, List.findSome?_cons, List.findSome?_cons, ih]
    | false =>
      rw [List.filter_cons_of_neg (by simp [hKept]), List.findSome?_cons, hNone m hKept, ih]

section

variable (hAcks : ∀ m : Move, m.isAcknowledge = true → f m = none)
include hAcks

theorem findPending?_map_snd : (c.findPending? f).map (·.2) = c.state.talk.findSome? f := by
  have hKept : ∀ m : Move, (!m.isAcknowledge) = false → f m = none := by
    intro m hAck
    rw [Bool.not_eq_false'] at hAck
    exact hAcks m hAck
  rw [findPending?, InformationState.talk, findSome?_filter hKept, List.findSome?_map,
    List.map_findSome?]
  congr 1
  funext e
  simp [Function.comp_def]

theorem talk_of_findPending? {i : Nat} {b : β} (hFind : c.findPending? f = some (i, b)) :
    { c.state with turn.consumed := c.state.turn.consumed.insert i }.talk =
      c.state.talk.eraseP fun m => (f m).isSome := by
  have hPending := InformationState.pendingMoves_eq_filter (s := c.state)
    (t := { c.state with turn.consumed := c.state.turn.consumed.insert i }) (· == i) rfl rfl
    fun j => by simp [or_comm]
  have hSpoken : (fun m => (f m).isSome && !m.isAcknowledge) = fun m => (f m).isSome := by
    funext m
    cases hAck : m.isAcknowledge with
    | true => rw [hAcks m hAck]; rfl
    | false => rw [Bool.not_false, Bool.and_true]
  rw [InformationState.talk, hPending,
    filter_position_eq_eraseP (InformationState.nodup_pendingMoves c.state) hFind,
    InformationState.talk, List.eraseP_filter, hSpoken, List.eraseP_map]
  rfl

end

end Context

namespace Engine

variable {e e' : Engine} {input input' : TurnInput} {s t u v : InformationState}
  {rs rs' : List Rule} {moves moves' : List Move}

/-- The engines differ at most in when and how they acknowledge answers. -/
structure Resembles (e e' : Engine) : Prop where
  rules : e.rules = defaultRules
  rules' : e'.rules = defaultRules
  domain : e.domain = e'.domain
  database : e.database = e'.database
  config : e.config.unacknowledged = e'.config.unacknowledged

theorem Resembles.symm (h : e.Resembles e') : e'.Resembles e :=
  ⟨h.rules', h.rules, h.domain.symm, h.database.symm, h.config.symm⟩

theorem Resembles.trans {e'' : Engine} (h : e.Resembles e') (h' : e'.Resembles e'') :
    e.Resembles e'' :=
  ⟨h.rules, h'.rules', h.domain.trans h'.domain, h.database.trans h'.database,
    h.config.trans h'.config⟩

theorem Resembles.context (h : e.Resembles e') (hSame : s.unacknowledged = t.unacknowledged) :
    (e.context input s).unacknowledged = (e'.context input t).unacknowledged := by
  simp only [Context.unacknowledged, Engine.context, hSame, h.domain, h.database, h.config]

theorem Resembles.matches (h : e.Resembles e') :
    Matches e e' input input fun s t => s.unacknowledged = t.unacknowledged := by
  intro s t r u hSame hFires
  have hRule := mem_defaultRules_of_fires hFires
  by_cases hName : r.name = integratePositiveGrounding.name
  · left
    cases hFires with
    | acknowledged =>
      refine Eq.trans ?_ hSame
      simp [InformationState.unacknowledged, InformationState.latched?, Move.isAcknowledge]
    | _ => exact absurd hName (by decide)
  · right
    obtain ⟨deltas, hEffect, rfl⟩ := hFires.exists_effect
    rw [← Context.effect_unacknowledged hRule hName, h.context hSame,
      Context.effect_unacknowledged hRule hName] at hEffect
    exact ⟨_, fires_of_effect hRule hEffect, InformationState.unacknowledged_apply hSame deltas⟩

theorem Trace.unacknowledged_eq (hAlike : e.Resembles e') (h : e.Trace input s rs u)
    (hSettled : e.IsSettled input u) (h' : e'.Trace input t rs' v)
    (hSettled' : e'.IsSettled input v) (hStart : s.unacknowledged = t.unacknowledged) :
    u.unacknowledged = v.unacknowledged := by
  apply hAlike.matches.related_of_traces hAlike.rules hAlike.rules' _ h hSettled h' hSettled' hStart
  exact hAlike.symm.matches.congr fun s t => eq_comm

/-- The dialogue has come to the same point in both states. -/
structure Alike (s t : InformationState) : Prop where
  own : s.own = t.own
  qud : s.shared.qud = t.shared.qud
  com : s.shared.com = t.shared.com

theorem Alike.symm (h : Alike s t) : Alike t s :=
  ⟨h.own.symm, h.qud.symm, h.com.symm⟩

theorem Alike.trans (h : Alike s t) (h' : Alike t u) : Alike s u :=
  ⟨h.own.trans h'.own, h.qud.trans h'.qud, h.com.trans h'.com⟩

theorem Alike.beginTurn_unacknowledged (h : Alike s t) :
    s.beginTurn.unacknowledged = t.beginTurn.unacknowledged := by
  simp [InformationState.unacknowledged, InformationState.beginTurn, InformationState.latched?,
    h.own, h.qud, h.com]

theorem Alike.of_unacknowledged (h : s.unacknowledged = t.unacknowledged) : Alike s t :=
  ⟨congrArg (·.own) h, congrArg (·.shared.qud) h, congrArg (·.shared.com) h⟩

/-- Two cycles in which the system hears itself have as much left to take in, but for
acknowledgements. -/
structure HearsAlike (s t : InformationState) : Prop extends Alike s t where
  latched : s.turn.latched = t.turn.latched
  talk : s.talk = t.talk

theorem HearsAlike.exists_findPending? (h : HearsAlike s t) (e' : Engine) (input' : TurnInput)
    {β : Type} {f : Move → Option β} (hAcks : ∀ m : Move, m.isAcknowledge = true → f m = none)
    {i : Nat} {b : β} (hFind : (e.context input s).findPending? f = some (i, b)) :
    ∃ j, (e'.context input' t).findPending? f = some (j, b) ∧
      { s with turn.consumed := s.turn.consumed.insert i }.talk =
        { t with turn.consumed := t.turn.consumed.insert j }.talk := by
  have hTalk : (e'.context input' t).state.talk = (e.context input s).state.talk := h.talk.symm
  have hFound := Context.findPending?_map_snd (c := e'.context input' t) hAcks
  rw [hTalk, ← Context.findPending?_map_snd hAcks, hFind] at hFound
  obtain ⟨⟨j, b'⟩, hFind', hSame⟩ := Option.map_eq_some_iff.mp hFound
  cases hSame
  refine ⟨j, hFind', ?_⟩
  have hRest := Context.talk_of_findPending? hAcks hFind
  have hRest' := Context.talk_of_findPending? hAcks hFind'
  rw [hTalk] at hRest'
  exact hRest.trans hRest'.symm

theorem acceptedFact?_of_isAcknowledge {m : Move} (h : m.isAcknowledge = true) (c : Context)
    (u : Utterance) (q : Question) : acceptedFact? c u q m = none := by
  rw [acceptedFact?, (isRemark_of_isAcknowledge h).2.2]
  rfl

theorem acceptedFact?_congr {u u' : Utterance} (hDomain : e.domain = e'.domain)
    (hSpeaker : u.speaker = u'.speaker) (q : Question) :
    acceptedFact? (e.context input s) u q = acceptedFact? (e'.context input' t) u' q := by
  funext m
  rw [acceptedFact?, acceptedFact?, context_domain, context_domain, hDomain, hSpeaker]

theorem HearsAlike.fires {r : Rule} (h : HearsAlike s t) (hDomain : e.domain = e'.domain)
    (hDatabase : e.database = e'.database) (hAttends : Attends (.echo moves) s)
    (hAttends' : Attends (.echo moves') t) (hMoves' : moves' ≠ [])
    (hTalk : moves.filter (!·.isAcknowledge) = moves'.filter (!·.isAcknowledge))
    (hFires : Fires e (.echo moves) s r u) :
    ∃ v, Fires e' (.echo moves') t r v ∧ HearsAlike u v := by
  have ⟨⟨hOwn, hQud, hCom⟩, hMark, hRest⟩ := h
  have hSystem {u : Utterance} : (e.context (.echo moves) s).userTurn? ≠ some u := by
    intro hTurn
    cases speaker_of_userTurn? hAttends hTurn
  have hHeard {u : Utterance} (hLatched : s.latched? = some u) :
      t.latched? = some (TurnInput.echo moves').utterance := by
    obtain ⟨hLatched, -⟩ := InformationState.latched?_eq_some_iff.mp hLatched
    exact hAttends'.latched? (hMark ▸ hLatched)
  have hResolved' (q : Question) : t.isResolved q = s.isResolved q := by
    rw [InformationState.isResolved, InformationState.isResolved, hCom]
  cases hFires with
  | clearAgenda hReset => cases hReset
  | latch _ hUnlatched =>
    refine ⟨_, .latch hMoves' (hMark ▸ hUnlatched), ⟨hOwn, hQud, hCom⟩, rfl, ?_⟩
    rw [InformationState.talk_of_latched (u := ⟨.sys, moves⟩) rfl rfl, hTalk]
    exact (InformationState.talk_of_latched (u := ⟨.sys, moves'⟩) rfl rfl).symm
  -- Only a turn of the user's is taken in or commented on like this.
  | request hTurn | usrAsk hTurn | misformatted _ hTurn | acknowledged hTurn =>
    exact absurd (Option.filter_eq_some_iff.mp hTurn).1 hSystem
  | engaged hTurn | reprompted hTurn | fellBack hTurn | unclear hTurn => exact absurd hTurn hSystem
  -- The acknowledgements in between shift positions, so the same move may stand somewhere else.
  | sysAsk hLatched _ hFind =>
    obtain ⟨j, hFind', hTalk'⟩ := h.exists_findPending? e' (.echo moves')
      (fun m hAck => (isRemark_of_isAcknowledge hAck).2.1) hFind
    exact ⟨_, .sysAsk (hHeard hLatched) rfl hFind', ⟨hOwn, by rw [hQud], hCom⟩, hMark, hTalk'⟩
  | answer hLatched _ hTopped hFind =>
    obtain rfl := hAttends.eq_utterance hLatched
    rw [acceptedFact?_congr hDomain rfl] at hFind
    obtain ⟨j, hFind', hTalk'⟩ := h.exists_findPending? e' (.echo moves')
      (fun m hAck => acceptedFact?_of_isAcknowledge hAck _ _ _) hFind
    exact ⟨_, .answer (hHeard hLatched) rfl (hQud ▸ hTopped) hFind', ⟨hOwn, hQud, by rw [hCom]⟩,
      hMark, hTalk'⟩
  | greeted hFind =>
    obtain ⟨j, hFind', hTalk'⟩ := h.exists_findPending? e' (.echo moves')
      (fun m hAck => (isRemark_of_isAcknowledge hAck).1) hFind
    exact ⟨_, .greeted hFind', ⟨hOwn, hQud, hCom⟩, hMark, hTalk'⟩
  | downdate hTopped hResolved =>
    exact ⟨_, .downdate (hQud ▸ hTopped) (hResolved' _ ▸ hResolved), ⟨hOwn, rfl, hCom⟩, hMark,
      hRest⟩
  | @loaded q rest p hAgenda hNone hPlan =>
    have hNone' : answerable? t q = none := by
      rw [answerable?, InformationState.unsharedBeliefs, ← hOwn, ← hCom]
      exact hNone
    exact ⟨_, .loaded (hOwn ▸ hAgenda) hNone' (hDomain ▸ hPlan), ⟨by rw [hOwn], hQud, hCom⟩,
      hMark, hRest⟩
  | foundOut hPlan hResolved =>
    exact ⟨_, .foundOut (hOwn ▸ hPlan) (hResolved' _ ▸ hResolved), ⟨by rw [hOwn], hQud, hCom⟩,
      hMark, hRest⟩
  | consulted hPlan hConsult =>
    exact ⟨_, .consulted (hOwn ▸ hPlan) (hDatabase ▸ hCom ▸ hConsult), ⟨by rw [hOwn], hQud, hCom⟩,
      hMark, hRest⟩
  -- The system never answers itself.
  | copied hMay | asked hMay | tookUp hMay | answered hMay | greets hMay => cases hMay

theorem HearsAlike.symm (h : HearsAlike s t) : HearsAlike t s :=
  ⟨h.toAlike.symm, h.latched.symm, h.talk.symm⟩

/-- The system hears `moves` of itself in one cycle and `moves'` in the other. -/
structure EchoesAlike (moves moves' : List Move) (s t : InformationState) : Prop where
  attends : Attends (.echo moves) s
  attends' : Attends (.echo moves') t
  hears : HearsAlike s t

theorem EchoesAlike.symm (h : EchoesAlike moves moves' s t) : EchoesAlike moves' moves t s :=
  ⟨h.attends', h.attends, h.hears.symm⟩

theorem Resembles.matches_echo (h : e.Resembles e') (hMoves' : moves' ≠ [])
    (hTalk : moves.filter (!·.isAcknowledge) = moves'.filter (!·.isAcknowledge)) :
    Matches e e' (.echo moves) (.echo moves') (EchoesAlike moves moves') := by
  rintro s t r u ⟨hAttends, hAttends', hHears⟩ hFires
  obtain ⟨v, hFires', hNext⟩ :=
    hHears.fires h.domain h.database hAttends hAttends' hMoves' hTalk hFires
  exact .inr ⟨v, hFires', hAttends.fires hFires, hAttends'.fires hFires', hNext⟩

/-- What the system hears of itself does not depend on the acknowledgements in it. -/
theorem Trace.hearsAlike (hAlike : e.Resembles e') (hMoves : moves ≠ []) (hMoves' : moves' ≠ [])
    (hTalk : moves.filter (!·.isAcknowledge) = moves'.filter (!·.isAcknowledge))
    (h : e.Trace (.echo moves) s.beginTurn rs u) (hSettled : e.IsSettled (.echo moves) u)
    (h' : e'.Trace (.echo moves') t.beginTurn rs' v) (hSettled' : e'.IsSettled (.echo moves') v)
    (hStart : Alike s t) : HearsAlike u v := by
  have hBegin : EchoesAlike moves moves' s.beginTurn t.beginTurn :=
    ⟨nofun, nofun, ⟨hStart.own, hStart.qud, hStart.com⟩, rfl, rfl⟩
  have hThere := hAlike.matches_echo hMoves' hTalk
  have hBack := (hAlike.symm.matches_echo hMoves hTalk.symm).congr fun t s =>
    ⟨EchoesAlike.symm, EchoesAlike.symm⟩
  exact (hThere.related_of_traces hAlike.rules hAlike.rules' hBack h hSettled h' hSettled'
    hBegin).hears

end Engine

end Dialogue
