import Dialogue.Domain.Basic

/-! # Drafts

A domain is declared piece by piece. A name may be declared again with the same sort, of two
defaults or formats for one predicate the later counts, and plans add up.
-/

namespace Dialogue

inductive Declaration where
  | predicate (name sort : String)
  | individual (name sort : String)
  | plan (p : Plan)
  | default (predicate individual : String)
  | format (predicate : String) (f : Format)

/-- What has been declared of a domain so far. -/
structure Draft where
  predicates : List (String × String) := []
  individuals : List (String × String) := []
  plans : List Plan := []
  defaults : Table String := .empty
  formats : Table Format := .empty

namespace Draft

def declare (d : Draft) : Declaration → Draft
  | .predicate name sort => { d with predicates := d.predicates ++ [(name, sort)] }
  | .individual name sort => { d with individuals := d.individuals ++ [(name, sort)] }
  | .plan p => { d with plans := d.plans ++ [p] }
  | .default predicate individual => { d with defaults := d.defaults.insert predicate individual }
  | .format predicate f => { d with formats := d.formats.insert predicate f }

def ofDeclarations (declarations : List Declaration) : Draft :=
  declarations.foldl declare {}

/-- Enters the sort of a name, unless the name has another one already. -/
def enterSort (t : Table String) (declared : String × String) :
    Except DomainError (Table String) :=
  match t.get? declared.1 with
  | none => .ok (t.insert declared.1 declared.2)
  | some first =>
    if first = declared.2 then .ok t
    else .error (.conflictingSort declared.1 first declared.2)

/-- The table of declared sorts, or the first conflict. -/
def sortTable (declared : List (String × String)) : Except DomainError (Table String) :=
  declared.foldlM enterSort .empty

def build (d : Draft) : Except DomainError Domain := do
  let predicates ← sortTable d.predicates
  let individuals ← sortTable d.individuals
  Blueprint.build
    { predicates, individuals, plans := d.plans, defaults := d.defaults, formats := d.formats }

end Draft

/-- The domain that the declarations describe in their order, or the first fault. -/
def Domain.ofDeclarations (declarations : List Declaration) : Except DomainError Domain :=
  (Draft.ofDeclarations declarations).build

end Dialogue
