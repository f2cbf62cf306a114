import Dialogue.Update.Rules

/-! # Update cycles

A cycle fires the first rule of the table that applies and scans again from the top, until no rule
applies or the ceiling on firings refuses one. Everything an observer may see is in its log.
-/

namespace Dialogue

/-- A rule was refused a firing when the ceiling was reached. -/
structure NoProgress where
  rule : String
  firings : Nat

def NoProgress.message (e : NoProgress) : String :=
  "rule `" ++ e.rule ++ "` made no progress: " ++ toString e.firings ++ " firings in one cycle"

/-- What happens in a cycle. -/
inductive Notice where
  /-- A rule was tried. -/
  | evaluated (rule : Rule) (matched : Bool)
  /-- A rule took the dialogue from one state to the next; firings count from 1. -/
  | fired (rule : Rule) (iteration : Nat) (before after : InformationState)
  /-- The cycle settled. -/
  | completed (input : TurnInput) (firings : Nat) (state : InformationState)

structure CycleResult where
  log : List Notice
  outcome : Except NoProgress InformationState

/-- A rule table at work on a domain and a database, under valid settings. -/
structure Engine where
  rules : List Rule
  domain : Domain
  database : Database
  config : Config
  valid : config.fault? = none

namespace Engine

def new (domain : Domain) (database : Database) (config : Config) : Except ConfigError Engine :=
  match h : config.fault? with
  | none => .ok ⟨Update.defaultRules, domain, database, config, h⟩
  | some fault => .error fault

def withRules (e : Engine) (rules : List Rule) : Engine :=
  { e with rules := rules }

def context (e : Engine) (input : TurnInput) (s : InformationState) : Context where
  domain := e.domain
  database := e.database
  config := e.config
  input := input
  state := s

/-- Tries rules in order up to the first that applies; yields that rule with its changes. -/
def scan (c : Context) : List Rule → List Notice × Option (Rule × List Delta)
  | [] => ([], none)
  | r :: rest =>
    match r.effect c with
    | some deltas => ([.evaluated r true], some (r, deltas))
    | none =>
      let (seen, hit) := scan c rest
      (.evaluated r false :: seen, hit)

theorem scan_snd (c : Context) (rules : List Rule) :
    (scan c rules).2 = rules.findSome? fun r => (r.effect c).map (r, ·) := by
  induction rules with
  | nil => rfl
  | cons r rest ih =>
    rw [scan, List.findSome?_cons]
    cases h : r.effect c with
    | none => exact ih
    | some deltas => rfl

def applicable? (e : Engine) (input : TurnInput) (s : InformationState) :
    Option (Rule × List Delta) :=
  (scan (e.context input s) e.rules).2

/-- The rest of a cycle after `fired` firings, with `allowed` more to go. -/
def settle (e : Engine) (input : TurnInput) (allowed fired : Nat) (s : InformationState) :
    CycleResult :=
  match scan (e.context input s) e.rules with
  | (seen, none) => ⟨seen ++ [.completed input fired s.endTurn], .ok s.endTurn⟩
  | (seen, some (rule, deltas)) =>
    match allowed with
    | 0 => ⟨seen, .error ⟨rule.name, fired⟩⟩
    | allowed + 1 =>
      let rest := settle e input allowed (fired + 1) (s.apply deltas)
      ⟨seen ++ .fired rule (fired + 1) s (s.apply deltas) :: rest.log, rest.outcome⟩

theorem settle_eq (e : Engine) (input : TurnInput) (allowed fired : Nat) (s : InformationState) :
    e.settle input allowed fired s =
      let seen := (scan (e.context input s) e.rules).1
      match e.applicable? input s, allowed with
      | none, _ => ⟨seen ++ [.completed input fired s.endTurn], .ok s.endTurn⟩
      | some (r, _), 0 => ⟨seen, .error ⟨r.name, fired⟩⟩
      | some (r, deltas), allowed + 1 =>
        let rest := e.settle input allowed (fired + 1) (s.apply deltas)
        ⟨seen ++ .fired r (fired + 1) s (s.apply deltas) :: rest.log, rest.outcome⟩ := by
  rw [settle.eq_def, applicable?]
  rcases scan (e.context input s) e.rules with ⟨seen, _ | ⟨r, deltas⟩⟩
  · rfl
  · cases allowed with
    | _ => rfl

theorem settle_outcome_of_none {e : Engine} {input : TurnInput} {s : InformationState}
    (h : e.applicable? input s = none) (allowed fired : Nat) :
    (e.settle input allowed fired s).outcome = .ok s.endTurn := by
  rw [settle_eq, h]

theorem settle_outcome_zero {e : Engine} {input : TurnInput} {s : InformationState} {r : Rule}
    {deltas : List Delta} (h : e.applicable? input s = some (r, deltas)) (fired : Nat) :
    (e.settle input 0 fired s).outcome = .error ⟨r.name, fired⟩ := by
  rw [settle_eq, h]

theorem settle_outcome_succ {e : Engine} {input : TurnInput} {s : InformationState} {r : Rule}
    {deltas : List Delta} (h : e.applicable? input s = some (r, deltas)) (allowed fired : Nat) :
    (e.settle input (allowed + 1) fired s).outcome =
      (e.settle input allowed (fired + 1) (s.apply deltas)).outcome := by
  rw [settle_eq, h]

def run (e : Engine) (s : InformationState) (input : TurnInput) : CycleResult :=
  e.settle input e.config.maxFirings.toNat 0 s.beginTurn

/-- The state after a turn without a reset, for callers that observe nothing else. -/
def applyTurn (e : Engine) (s : InformationState) (speaker : Speaker) (moves : List Move) :
    Except NoProgress InformationState :=
  (e.run s { speaker, moves }).outcome

end Engine

end Dialogue
