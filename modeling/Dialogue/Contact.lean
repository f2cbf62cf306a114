/-! # Contact

How many silent turns in a row the system has met, and what the next turn does to the count.
-/

namespace Dialogue

/-- Where contact stands after a number of silent turns. -/
inductive Contact where
  | listening
  /-- Still asking again. -/
  | waiting (count : UInt32)
  /-- The threshold is reached. -/
  | escalated (count : UInt32)
  deriving DecidableEq

def Contact.ofCount (count threshold : UInt32) : Contact :=
  if count = 0 then listening
  else if count < threshold then waiting count
  else escalated count

/-- Listening at zero, waiting below the threshold, escalated from the threshold on. -/
theorem Contact.ofCount_eq_iff {count threshold : UInt32} {c : Contact} :
    ofCount count threshold = c ↔
      match c with
      | listening => count = 0
      | waiting n => n = count ∧ count ≠ 0 ∧ count < threshold
      | escalated n => n = count ∧ count ≠ 0 ∧ threshold ≤ count := by
  rw [ofCount]
  split
  case isTrue hNone =>
    cases c with
    | listening => exact iff_of_true rfl hNone
    | waiting n | escalated n => exact iff_of_false nofun fun h => h.2.1 hNone
  case isFalse hSome =>
    split
    case isTrue hBelow =>
      cases c with
      | listening => exact iff_of_false nofun hSome
      | waiting n => simp [hSome, hBelow, eq_comm]
      | escalated n => exact iff_of_false nofun fun h => UInt32.not_lt.mpr h.2.2 hBelow
    case isFalse hReached =>
      cases c with
      | listening => exact iff_of_false nofun hSome
      | waiting n => exact iff_of_false nofun fun h => hReached h.2.2
      | escalated n => simp [hSome, UInt32.not_lt.mp hReached, eq_comm]

/-- What a user turn says about contact. -/
inductive Signal where
  | silence
  | engagement
  deriving DecidableEq

/-- What the system does about a signal. -/
inductive Reaction where
  /-- Ask again, with the count at its new value. -/
  | reprompt (count : UInt32)
  /-- Stop asking and fall back on a default. -/
  | escalate (count : UInt32)
  /-- Set the count back to zero. -/
  | reset
  | unchanged
  deriving DecidableEq

/-- One more silent turn; the count stays at its largest value. -/
def nextCount (count : UInt32) : UInt32 :=
  if count = 4294967295 then count else count + 1

theorem toNat_nextCount (count : UInt32) :
    (nextCount count).toNat = min (count.toNat + 1) (UInt32.size - 1) := by
  have h := count.toNat_lt
  unfold nextCount
  split
  · next heq => subst heq; rfl
  · next hne =>
    have : count.toNat ≠ 4294967295 := fun he => hne (UInt32.toNat_inj.1 he)
    rw [UInt32.toNat_add]
    simp only [UInt32.reduceToNat, UInt32.size]
    omega

def react (count threshold : UInt32) : Signal → Reaction
  | .engagement => if count = 0 then .unchanged else .reset
  | .silence =>
    if threshold ≤ nextCount count then .escalate (nextCount count)
    else .reprompt (nextCount count)

end Dialogue
