import Dialogue.Proofs.Lecture.Timetable

/-! # Replies as they are spoken

That nothing was heard is said at the head of a reply, with one question after it at most, so the
text of a reply leaves no move out. Every reply begins with a move that has a text, and so the
console says that it did not understand exactly when there is no reply.
-/

namespace Dialogue

open Update

namespace Engine

variable {e : Engine} {input : TurnInput} {s t : InformationState} {rs : List Rule}
  {m : Move} {q : Question} {p : Proposition}

/-- A reply may begin with the move, where these are the beliefs of the system. -/
inductive Opens (e : Engine) (bel : List Proposition) : Move → Prop where
  | nothingHeard : Opens e bel ⟨.noInput, none⟩
  | asks (q : Question) : Opens e bel ⟨.ask q, none⟩
  | tells {p : Proposition} : e.domain.default? p.predicate = some p ∨ p ∈ bel →
      Opens e bel ⟨.answer (.full p), none⟩
  | clarifies : Opens e bel ⟨.inform e.config.clarificationText, none⟩
  | acknowledges : Opens e bel ⟨.acknowledge e.config.acknowledgementText, none⟩
  | greets : Opens e bel ⟨.greet, none⟩

theorem Chosen.opens (h : Chosen s m) : Opens e s.own.bel m := by
  cases h with
  | ask q => exact .asks q
  | answer hBelieved => exact .tells (.inr hBelieved)
  | greet => exact .greets

theorem Commented.opens (h : Commented e input s) (hHead : m ∈ s.nextMoves.head?)
    (bel : List Proposition) : Opens e bel m := by
  cases h with
  | nothing hNone =>
    rw [hNone] at hHead
    cases hHead
  | reprompted top _ hSaid =>
    rw [hSaid] at hHead
    cases hHead
    exact .nothingHeard
  | assumed p _ hDefault _ hSaid =>
    rw [hSaid] at hHead
    cases hHead
    exact .tells (.inl hDefault)
  | clarified top _ hSaid =>
    rw [hSaid] at hHead
    cases top with
    | none =>
      cases hHead
      exact .clarifies
    | some q =>
      cases hHead
      exact .asks q
  | acknowledged _ hSaid =>
    rw [hSaid] at hHead
    cases hHead
    exact .acknowledges
  | hinted acks q f _ _ hAcks hSaid =>
    rw [hSaid] at hHead
    rcases hAcks with rfl | rfl
    · cases hHead
      exact .asks q
    · cases hHead
      exact .acknowledges

theorem Pursued.opens (h : Pursued s t) (hCommented : Commented e input s)
    (hHead : m ∈ t.nextMoves.head?) : Opens e t.own.bel m := by
  obtain ⟨-, chosen, hChooses, hSaid⟩ := h
  rw [hSaid] at hHead
  cases hChooses with
  | nothing =>
    rw [List.append_nil] at hHead
    exact hCommented.opens hHead _
  | move _ _ hChosen =>
    cases hComment : s.nextMoves with
    | nil =>
      rw [hComment] at hHead
      cases hHead
      exact hChosen.opens
    | cons m' rest =>
      rw [hComment] at hHead
      cases hHead
      exact hCommented.opens (by rw [hComment]; rfl) _

end Engine

namespace Lecture

open Engine Session Console

variable {e : Engine} {input : TurnInput} {s t : InformationState} {m : Move} {moves : List Move}
  {q : Question} {p : Proposition}

theorem questionText_ne_empty (q : Question) : questionText q ≠ "" := by
  rw [questionText]
  split_ifs <;> simp

theorem factText_ne_empty (p : Proposition) : factText p ≠ "" := by
  rw [factText]
  split_ifs <;> simp

/-- The settings say something when they ask for a turn again and when they acknowledge one. -/
def HasTexts (config : Config) : Prop :=
  config.clarificationText ≠ "" ∧ config.acknowledgementText ≠ ""

theorem moveText_ne_empty (hTexts : HasTexts e.config) (h : Opens e s.own.bel m) :
    moveText m ≠ "" := by
  cases h with
  | nothingHeard | greets => exact by decide
  | asks q => exact questionText_ne_empty q
  | tells => exact factText_ne_empty _
  | clarifies => exact hTexts.1
  | acknowledges => exact hTexts.2

theorem exists_joined_cons (h : moveText m ≠ "") (moves : List Move) :
    ∃ rest, joined (m :: moves) = moveText m ++ rest := by
  rw [joined, List.map_cons, List.filter_cons_of_pos (by simpa using h)]
  cases (moves.map moveText).filter (· ≠ "") with
  | nil => exact ⟨"", by simp⟩
  | cons text texts => exact ⟨" " ++ " ".intercalate (text :: texts), by simp [String.append_assoc]⟩

theorem joined_ne_empty (h : moveText m ≠ "") (moves : List Move) : joined (m :: moves) ≠ "" := by
  obtain ⟨rest, hJoined⟩ := exists_joined_cons h moves
  rw [hJoined, ne_eq, String.append_eq_empty_iff]
  exact fun hEmpty => h hEmpty.1

theorem realize_of_heard (h : ∀ m ∈ moves, m.isNoInput = false) :
    realize moves = joined moves := by
  have hNone : moves.any (·.isNoInput) = false :=
    List.any_eq_false.mpr fun m hMem => Bool.eq_false_iff.mp (h m hMem)
  rw [realize, hNone]

theorem realize_nothingHeard (top : Option Question) :
    realize (⟨.noInput, none⟩ :: askFor top) = joined (⟨.noInput, none⟩ :: askFor top) := by
  cases top with
  | none => rfl
  | some q =>
    have hQuestion : moveText ⟨.ask q, none⟩ ≠ "" := questionText_ne_empty q
    have hSilence : moveText ⟨.noInput, none⟩ ≠ "" := by decide
    simp [realize, joined, askFor, Move.isNoInput, hQuestion, hSilence]
    rfl

/-- The text begins with another letter than the text for what is not understood. -/
def IsDistinct (text : String) : Prop :=
  ∃ c rest, text.toList = c :: rest ∧ c ≠ 'S'

theorem IsDistinct.append {text : String} (h : IsDistinct text) (rest : String) :
    IsDistinct (text ++ rest) := by
  obtain ⟨c, chars, hText, hOther⟩ := h
  exact ⟨c, chars ++ rest.toList, by rw [String.toList_append, hText, List.cons_append], hOther⟩

theorem IsDistinct.ne_empty {text : String} (h : IsDistinct text) : text ≠ "" := by
  rintro rfl
  obtain ⟨c, chars, hText, -⟩ := h
  cases hText

theorem IsDistinct.ne_misunderstood {text : String} (h : IsDistinct text) :
    text ≠ misunderstood := by
  rintro rfl
  obtain ⟨c, chars, hText, hOther⟩ := h
  exact hOther (List.head_eq_of_cons_eq hText).symm

theorem isDistinct_joined (h : IsDistinct (moveText m)) (moves : List Move) :
    IsDistinct (joined (m :: moves)) := by
  obtain ⟨rest, hJoined⟩ := exists_joined_cons h.ne_empty moves
  rw [hJoined]
  exact h.append rest

theorem isDistinct_questionText (q : Question) : IsDistinct (questionText q) := by
  rw [questionText]
  split_ifs
  · exact ⟨_, _, rfl, by decide⟩
  · exact ⟨_, _, rfl, by decide⟩
  · exact ⟨_, _, rfl, by decide⟩
  · exact ⟨_, _, rfl, by decide⟩
  · have hWhat : IsDistinct "What is the " := ⟨_, _, rfl, by decide⟩
    exact (hWhat.append _).append _

/-- What the console may tell: the belief about food, or something about a lecture. -/
def IsTopical (p : Proposition) : Prop :=
  p = pizza ∨ p.predicate ∈ [bookingRoom, bookingDay, bookingCourse]

theorem IsTopical.isDistinct (h : IsTopical p) : IsDistinct (factText p) := by
  rcases h with rfl | hLecture
  · exact ⟨'P', "izza.".toList, by decide +kernel, by decide⟩
  · obtain ⟨predicate, argument⟩ := p
    simp only [List.mem_cons, List.not_mem_nil, or_false] at hLecture
    rcases hLecture with rfl | rfl | rfl
    · have hRoom : IsDistinct "The lecture is in " := ⟨_, _, rfl, by decide⟩
      exact (hRoom.append argument).append "."
    · have hDay : IsDistinct "Let's say " := ⟨_, _, rfl, by decide⟩
      exact (hDay.append (Text.capitalize argument)).append "."
    · have hCourse : IsDistinct (spoken bookingCourse) := ⟨_, _, rfl, by decide⟩
      have hKnown : IsDistinct "Let's say Dialogue Systems 2." := ⟨_, _, rfl, by decide⟩
      change IsDistinct (if bookingCourse = bookingCourse ∧ argument = course then _ else _)
      split
      · exact hKnown
      · exact ((hCourse.append ": ").append argument).append "."

theorem predicate_of_mem_defaults :
    ∀ e ∈ domain.defaults.entries, e.1 ∈ [bookingRoom, bookingDay, bookingCourse] := by
  decide +kernel

theorem isTopical_of_told (hSourced : Sourced engine [pizza] s)
    (hTold : engine.domain.default? p.predicate = some p ∨ p ∈ s.own.bel) : IsTopical p := by
  rcases hTold with hDefault | hBelieved
  · obtain ⟨individual, hDefault, -⟩ := Option.map_eq_some_iff.mp hDefault
    have hEntry := (Table.get?_eq_some_iff _).mp hDefault
    exact .inr (predicate_of_mem_defaults _ hEntry)
  · rcases hSourced p hBelieved with hInitial | ⟨q, com, -, hFound⟩
    · exact .inl (List.mem_singleton.mp hInitial)
    · right
      rw [predicate_of_consult hFound]
      exact List.mem_cons_self

theorem isDistinct_moveText (hSourced : Sourced engine [pizza] s)
    (h : Opens engine s.own.bel m) : IsDistinct (moveText m) := by
  cases h with
  | nothingHeard | greets | clarifies | acknowledges => exact ⟨_, _, rfl, by decide⟩
  | asks q => exact isDistinct_questionText q
  | tells hTold => exact (isTopical_of_told hSourced hTold).isDistinct

section

variable (hRules : e.rules = defaultRules) (hRun : (e.run s input).outcome = .ok t)
include hRules hRun

theorem realize_of_run : realize t.nextMoves = joined t.nextMoves := by
  obtain ⟨u, v, hCommented, hPursued, rfl⟩ := exists_pursued_of_run hRules hRun
  rcases hPursued.nothingHeard_first hCommented with hNone | ⟨top, hSaid⟩
  · exact realize_of_heard hNone
  · change realize v.nextMoves = joined v.nextMoves
    rw [hSaid, realize_nothingHeard]

theorem opens_of_run : t.nextMoves = [] ∨
    ∃ m rest, t.nextMoves = m :: rest ∧ Opens e t.own.bel m := by
  obtain ⟨u, v, hCommented, hPursued, rfl⟩ := exists_pursued_of_run hRules hRun
  change v.nextMoves = [] ∨ ∃ m rest, v.nextMoves = m :: rest ∧ _
  cases hMoves : v.nextMoves with
  | nil => exact .inl rfl
  | cons m rest =>
    have hHead : m ∈ v.nextMoves.head? := by rw [hMoves]; rfl
    have hOpens := hPursued.opens hCommented hHead
    exact .inr ⟨m, rest, rfl, hOpens⟩

theorem spoken_of_run (hTexts : HasTexts e.config) :
    (realize t.nextMoves = "" ↔ t.nextMoves = []) ∧ spokenLine t.nextMoves =
      "sys> " ++ if t.nextMoves.isEmpty then misunderstood else joined t.nextMoves := by
  rw [spokenLine, realize_of_run hRules hRun]
  rcases opens_of_run hRules hRun with hNone | ⟨m, rest, hMoves, hOpens⟩
  · rw [hNone]
    exact ⟨by decide, rfl⟩
  · have hText := joined_ne_empty (moveText_ne_empty hTexts hOpens) rest
    rw [hMoves]
    simp [hText]

end

/-- The text of a reply is made of those of all of its moves, in their order. Unless the settings
leave out what to say, it is empty exactly if the reply is, and only then the line that is spoken
falls back on the text for what is not understood. In a dialogue at the console that line is spoken
for nothing else. -/
theorem replies_are_spoken_in_full :
    (∀ (e : Engine) (input : TurnInput) (s t : InformationState), e.rules = defaultRules →
      (e.run s input).outcome = .ok t →
        realize t.nextMoves = " ".intercalate ((t.nextMoves.map moveText).filter (· ≠ "")) ∧
        (HasTexts e.config →
          (realize t.nextMoves = "" ↔ t.nextMoves = []) ∧
          spokenLine t.nextMoves = "sys> " ++ if t.nextMoves.isEmpty then misunderstood
            else " ".intercalate ((t.nextMoves.map moveText).filter (· ≠ "")))) ∧
    ∀ (calls : List Call) (c : Call) (reply : List Move) (s : Session),
      (Console.session.after calls).call c = (.ok reply, s) →
        (spokenLine reply = "sys> " ++ misunderstood ↔ reply = []) := by
  constructor
  · intro e input s t hRules hRun
    exact ⟨realize_of_run hRules hRun, fun hTexts => spoken_of_run hRules hRun hTexts⟩
  · intro calls c reply s hCall
    have hEngine : (Console.session.after calls).engine = engine := engine_after _ calls
    have hLasting := lasting_sourced engine [pizza]
    have hSourced := lasts_after (s := Console.session) rfl hLasting (fun p h => .inl h) calls
    obtain ⟨s₁, hStep⟩ := exists_step_of_call hCall
    obtain ⟨hRun, rfl⟩ := outcome_of_step hStep
    have hSourced' := lasts_of_step (hEngine ▸ rfl) (hEngine ▸ hLasting) hSourced c.input
    rw [hEngine] at hRun
    rw [hStep] at hSourced'
    rw [spokenLine, realize_of_run rfl hRun]
    rcases opens_of_run rfl hRun with hNone | ⟨m, rest, hMoves, hOpens⟩
    · simp [hNone, show joined [] = "" from rfl]
    · have hDistinct := isDistinct_joined (isDistinct_moveText hSourced' hOpens) rest
      have hText := hDistinct.ne_empty
      have hOther := hDistinct.ne_misunderstood
      rw [hMoves]
      simp [hText, hOther]

/-- The day is asked for, and nothing is heard. -/
theorem silence_and_day_are_spoken : ∃ t s,
    (Console.session.engine.run { shared.qud := [⟨bookingDay⟩] }
      (.user [⟨.noInput, none⟩])).outcome = .ok t ∧ HasTexts Console.session.engine.config ∧
    t.nextMoves = [⟨.noInput, none⟩, ⟨.ask ⟨bookingDay⟩, none⟩] ∧
    realize t.nextMoves = " ".intercalate ((t.nextMoves.map moveText).filter (· ≠ "")) ∧
    spokenLine t.nextMoves =
      "sys> " ++ " ".intercalate ((t.nextMoves.map moveText).filter (· ≠ "")) ∧
    Console.session.call .start = (.ok [⟨.greet, none⟩], s) ∧
    spokenLine [⟨.greet, none⟩] ≠ "sys> " ++ misunderstood := by
  obtain ⟨hSpoken, hConsole⟩ := replies_are_spoken_in_full
  have hRun : (Console.session.engine.run { shared.qud := [⟨bookingDay⟩] }
      (.user [⟨.noInput, none⟩])).outcome = .ok _ := rfl
  have hTexts : HasTexts Console.session.engine.config := ⟨by decide, by decide⟩
  obtain ⟨hRealized, hLine⟩ := hSpoken _ _ _ _ rfl hRun
  have hStart : Console.session.call .start = (.ok [⟨.greet, none⟩], _) := rfl
  refine ⟨_, _, hRun, hTexts, rfl, hRealized, (hLine hTexts).2, hStart, fun hSame => ?_⟩
  have hEmpty := (hConsole [] .start _ _ hStart).mp hSame
  cases hEmpty

end Lecture

end Dialogue
