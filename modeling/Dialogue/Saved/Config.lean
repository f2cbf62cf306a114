import Dialogue.Config
import Dialogue.Json.Saved

/-! # Saved settings

A setting that is missing has its default.
-/

namespace Dialogue

instance : Saved Config where
  save c :=
    .obj [(Threshold.lowConfidence.name, save c.lowConfidence),
      (Threshold.acknowledge.name, save c.acknowledge),
      ("escalation_threshold", save c.escalation), ("max_firings_per_turn", save c.maxFirings),
      ("clarification_text", save c.clarificationText),
      ("acknowledgement_text", save c.acknowledgementText)]
  load? j := do
    let members ← j.members?
    let usual : Config := {}
    let lowConfidence ← members.fieldOr? Threshold.lowConfidence.name usual.lowConfidence
    let acknowledge ← members.fieldOr? Threshold.acknowledge.name usual.acknowledge
    let escalation ← members.fieldOr? "escalation_threshold" usual.escalation
    let maxFirings ← members.fieldOr? "max_firings_per_turn" usual.maxFirings
    let clarificationText ← members.fieldOr? "clarification_text" usual.clarificationText
    let acknowledgementText ← members.fieldOr? "acknowledgement_text" usual.acknowledgementText
    return ⟨lowConfidence, acknowledge, escalation, maxFirings, clarificationText,
      acknowledgementText⟩

instance : Saved Timeout where
  save t := .obj [("no_input_timeout_ms", save t.milliseconds)]
  load? j := do
    let members ← j.members?
    let usual : Timeout := {}
    let milliseconds ← members.fieldOr? "no_input_timeout_ms" usual.milliseconds
    return { milliseconds }

end Dialogue
