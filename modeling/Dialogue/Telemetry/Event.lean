import Dialogue.Contact
import Dialogue.Update.Rule

/-! # Events

What is recorded of a dialogue. Events hold names, tiers and counts, never what was said.
-/

namespace Dialogue

inductive ContactChange where
  | reprompted
  | escalated
  | reset
  deriving DecidableEq

inductive Event where
  | ruleFired (rule : String) (tier : Tier) (iteration : UInt64)
  | contactTransition (before after : Contact) (kind : ContactChange)
  | turnCompleted (speaker : Speaker) (firings outgoing : UInt64)
  deriving DecidableEq

end Dialogue
