import Dialogue.Decimal.Style
import Dialogue.Text.Blank

/-! # Settings

Thresholds and set phrases of the update engine, and the silence timeout of the console.
-/

namespace Dialogue

structure Config where
  /-- User moves below this confidence make a turn unintelligible. -/
  lowConfidence : Float32 := 0.7
  /-- Answers strictly above this confidence are acknowledged. -/
  acknowledge : Float32 := 0.9
  /-- The number of silent turns in a row after which a default is assumed. -/
  escalation : UInt32 := 3
  /-- The largest number of firings in one cycle. -/
  maxFirings : UInt64 := 256
  clarificationText : String := "I didn't quite catch that. Could you repeat?"
  acknowledgementText : String := "Okay, got it."

inductive Threshold where
  | lowConfidence
  | acknowledge
  deriving DecidableEq

/-- Why settings are refused. -/
inductive ConfigError where
  | outOfRange (threshold : Threshold) (value : Float32)
  | noEscalation
  | noFirings

def Threshold.name : Threshold → String
  | lowConfidence => "low_confidence_threshold"
  | acknowledge => "acknowledge_threshold"

/-- Thresholds in messages are positional, without a fraction when whole. -/
def proseStyle : Decimal.Style :=
  { tie := .up, wholePoint := false, least := -50, most := 40 }

def proseText (x : Float32) : String :=
  if x.isNaN then "NaN"
  else if x.isInf then (if 0 < x then "inf" else "-inf")
  else proseStyle.text x

example : [proseText 1.5, proseText 2, proseText 1e8, proseText 2097152.25] =
    ["1.5", "2", "100000000", "2097152.3"] := by decide +kernel

def ConfigError.message : ConfigError → String
  | outOfRange threshold value =>
    "invalid config: " ++ threshold.name ++ " must be within [0, 1], got " ++ proseText value
  | noEscalation => "invalid config: escalation_threshold must be at least 1"
  | noFirings => "invalid config: max_firings_per_turn must be at least 1"

/-- Whether a number lies in `[0, 1]`; a NaN does not. -/
def isUnit (x : Float32) : Bool :=
  decide (0 ≤ x) && decide (x ≤ 1)

def Config.fault? (c : Config) : Option ConfigError :=
  if !isUnit c.lowConfidence then some (.outOfRange .lowConfidence c.lowConfidence)
  else if !isUnit c.acknowledge then some (.outOfRange .acknowledge c.acknowledge)
  else if c.escalation = 0 then some .noEscalation
  else if c.maxFirings = 0 then some .noFirings
  else none

theorem Config.fault?_eq_none_iff {c : Config} : c.fault? = none ↔
    isUnit c.lowConfidence = true ∧ isUnit c.acknowledge = true ∧ c.escalation ≠ 0 ∧
      c.maxFirings ≠ 0 := by
  rw [fault?]
  cases isUnit c.lowConfidence with
  | false => simp
  | true =>
    cases isUnit c.acknowledge with
    | false => simp
    | true =>
      by_cases hEscalation : c.escalation = 0
      · simp [hEscalation]
      · simp [hEscalation]

theorem Config.fault?_default : ({} : Config).fault? = none := rfl

/-- The number below `2 ^ 64` that a text of ASCII digits gives; a plus sign may precede them. -/
def unsigned? (text : String) : Option UInt64 :=
  let digits := match text.toList with
    | '+' :: rest => rest
    | chars => chars
  if digits.isEmpty || !digits.all Char.isDigit then none
  else
    let n := digits.foldl (fun n c => n * 10 + (c.toNat - '0'.toNat)) 0
    if n < UInt64.size then some (UInt64.ofNat n) else none

/-- How long the console waits for input, in milliseconds. -/
structure Timeout where
  milliseconds : UInt64 := 8000

/-- The timeout that a variable of the environment sets. Unless it holds a positive number, blanks
around it aside, it sets none. -/
def Timeout.ofVariable (value : Option String) : Timeout :=
  match value.bind fun text => unsigned? (Text.trim text) with
  | some n => if n = 0 then {} else { milliseconds := n }
  | none => {}

end Dialogue
