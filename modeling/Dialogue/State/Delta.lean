import Dialogue.State.Basic

/-! # Deltas

The elementary changes of an information state. A rule application makes several of them at once
and counts as one version.
-/

namespace Dialogue

inductive Delta where
  /-- Take in the utterance of this cycle. -/
  | latch (u : Utterance)
  | consume (position : Nat)
  | clearAgenda
  | pushAgenda (a : Action)
  | prependAgenda (actions : List Action)
  | popAgenda
  /-- Pursue a plan in place of the current one. -/
  | installPlan (steps : List Action)
  | popPlan
  | addBelief (p : Proposition)
  | pushQud (q : Question)
  | popQud
  | commit (p : Proposition)
  | emit (m : Move)
  | setNoInputCount (count : UInt32)
  | markGrounded
  | markAcknowledged
  | markSelected

namespace InformationState

def reduce (s : InformationState) : Delta → InformationState
  | .latch u =>
    { s with shared.lu := some u, turn := { s.turn with latched := true, consumed := [] } }
  | .consume position => { s with turn.consumed := s.turn.consumed.insert position }
  | .clearAgenda => { s with own.agenda := [] }
  | .pushAgenda a => { s with own.agenda := s.own.agenda.push a }
  | .prependAgenda actions => { s with own.agenda := s.own.agenda.pushAll actions }
  | .popAgenda => { s with own.agenda := s.own.agenda.pop }
  | .installPlan steps => { s with own.plan := steps }
  | .popPlan => { s with own.plan := s.own.plan.pop }
  | .addBelief p => { s with own.bel := s.own.bel ++ [p] }
  | .pushQud q => { s with shared.qud := s.shared.qud.push q }
  | .popQud => { s with shared.qud := s.shared.qud.pop }
  | .commit p => { s with shared.com := s.shared.com.push p }
  | .emit m => { s with nextMoves := s.nextMoves ++ [m] }
  | .setNoInputCount count => { s with own.noInputCount := count }
  | .markGrounded => { s with turn.grounded := true }
  | .markAcknowledged => { s with turn.acknowledged := true }
  | .markSelected => { s with turn.selected := true }

/-- The state after the changes, in order, as one new version. -/
def apply (s : InformationState) (deltas : List Delta) : InformationState :=
  let next := deltas.foldl reduce s
  { next with version := next.version + 1 }

end InformationState

end Dialogue
