import Dialogue.Plan
import Dialogue.Table
import Dialogue.Text.Casing

/-! # Blueprints

The tables that describe what a dialogue may be about, and the faults that keep them from being a
domain. `Blueprint.fault?` is the first fault in the order plans, defaults, formats.
-/

namespace Dialogue

/-- The answers a predicate accepts, whatever their case, and what to say of any other. -/
structure Format where
  /-- In lower case. -/
  allowed : NameSet
  hint : String

namespace Format

def ofValues (values : List String) (hint : String) : Format where
  allowed := NameSet.ofNames (values.map Text.lower)
  hint := hint

def accepts (f : Format) (individual : String) : Bool :=
  f.allowed.contains (Text.lower individual)

end Format

/-- The tables keyed by predicate that lie beside the plans. -/
inductive SideTable where
  | defaults
  | formats
  deriving DecidableEq

/-- Why tables describe no domain. -/
inductive DomainError where
  | conflictingSort (name first second : String)
  | respondInPlan (plan : Nat)
  | issueWithoutQuestion (plan : Nat)
  | unknownPredicate (plan : Nat) (predicate : String)
  | unknownTablePredicate (table : SideTable) (predicate : String)
  | unknownIndividual (predicate individual : String)
  | sortMismatch (predicate individual expected found : String)
  deriving DecidableEq

def SideTable.label : SideTable → String
  | defaults => "default answer"
  | formats => "answer format"

def DomainError.message : DomainError → String
  | conflictingSort name first second =>
    "`" ++ name ++ "` declared with conflicting sorts `" ++ first ++ "` and `" ++ second ++ "`"
  | respondInPlan plan =>
    "plan " ++ toString plan ++ " stores a `respond` step; respond is runtime-only"
  | issueWithoutQuestion plan =>
    "issue plan " ++ toString plan ++ " has no question as its content"
  | unknownPredicate plan predicate =>
    "plan " ++ toString plan ++ " references unknown predicate `" ++ predicate ++ "`"
  | unknownTablePredicate table predicate =>
    table.label ++ " names unknown predicate `" ++ predicate ++ "`"
  | unknownIndividual predicate individual =>
    "default for `" ++ predicate ++ "` names unknown individual `" ++ individual ++ "`"
  | sortMismatch predicate individual expected found =>
    "default `" ++ individual ++ "` for `" ++ predicate ++ "` has sort `" ++ found ++
      "`, expected `" ++ expected ++ "`"

structure Blueprint where
  /-- The sort of the individuals that each predicate ranges over. -/
  predicates : Table String
  /-- The sort of each individual. -/
  individuals : Table String
  plans : List Plan
  /-- For a predicate, the individual to assume when the user stays silent. -/
  defaults : Table String
  formats : Table Format

namespace Blueprint

/-- The first question of a plan that is on no declared predicate. -/
def strayQuestion? (b : Blueprint) (p : Plan) : Option Question :=
  p.questions.find? fun q => !b.predicates.contains q.predicate

def planFault? (b : Blueprint) (index : Nat) (p : Plan) : Option DomainError :=
  if p.steps.any Action.isRespond then some (.respondInPlan index)
  else if p.kind = .issue ∧ p.goalQuestion? = none then some (.issueWithoutQuestion index)
  else (b.strayQuestion? p).map fun q => .unknownPredicate index q.predicate

def defaultFault? (b : Blueprint) (predicate individual : String) : Option DomainError :=
  match b.predicates.get? predicate, b.individuals.get? individual with
  | none, _ => some (.unknownTablePredicate .defaults predicate)
  | some _, none => some (.unknownIndividual predicate individual)
  | some expected, some found =>
    if found = expected then none else some (.sortMismatch predicate individual expected found)

def formatFault? (b : Blueprint) (predicate : String) : Option DomainError :=
  if b.predicates.contains predicate then none
  else some (.unknownTablePredicate .formats predicate)

def fault? (b : Blueprint) : Option DomainError :=
  (b.plans.zipIdx.findSome? fun e => b.planFault? e.2 e.1).or
    ((b.defaults.entries.findSome? fun e => b.defaultFault? e.1 e.2).or
      (b.formats.names.findSome? b.formatFault?))

end Blueprint

end Dialogue
