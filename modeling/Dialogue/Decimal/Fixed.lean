/-! # Fixed decimals

A 64-bit float set down with a fixed number of decimal places. The exact value of the float is
rounded once, a half going to the even neighbour.
-/

namespace Dialogue.Decimal

/-- The nearest natural number to `a / b`, a half going to the even one. -/
def roundQuotient (a b : Nat) : Nat :=
  let d := a / b
  let rest := a % b
  if 2 * rest < b then d
  else if b < 2 * rest then d + 1
  else if d % 2 = 0 then d else d + 1

theorem roundQuotient_within {a b : Nat} (h : 0 < b) :
    2 * a ≤ 2 * roundQuotient a b * b + b ∧ 2 * roundQuotient a b * b ≤ 2 * a + b := by
  have hd := Nat.div_add_mod a b
  have hm := Nat.mod_lt a h
  have hsucc : 2 * (a / b + 1) * b = 2 * (b * (a / b)) + 2 * b := by
    rw [Nat.mul_add, Nat.add_mul, Nat.mul_assoc, Nat.mul_comm (a / b) b]
  have hsame : 2 * (a / b) * b = 2 * (b * (a / b)) := by
    rw [Nat.mul_assoc, Nat.mul_comm (a / b) b]
  simp only [roundQuotient]
  split
  · omega
  · split
    · omega
    · split <;> omega

/-- A natural number of units of `10 ^ -places`. -/
def placed (places units : Nat) : String :=
  let fraction := String.ofList (Nat.toDigits 10 (units % Nat.pow 10 places))
  toString (units / Nat.pow 10 places) ++ "." ++
    String.ofList (List.replicate (places - fraction.length) '0') ++ fraction

/-- A finite float that is not negative, with the given number of places. -/
def fixed (places : Nat) (x : Float) : String :=
  let bits := x.toBits.toNat % 0x8000000000000000
  let biased : Nat := bits / 0x10000000000000
  let fraction := bits % 0x10000000000000
  let (m, q) : Nat × Int :=
    if biased = 0 then (fraction, -1074) else (0x10000000000000 + fraction, (biased : Int) - 1075)
  placed places (roundQuotient (m * Nat.pow 2 q.toNat * Nat.pow 10 places) (Nat.pow 2 (-q).toNat))

example : fixed 6 (11 / 3) = "3.666667" := by decide +kernel

example : fixed 6 (1 / 128) = "0.007812" := by decide +kernel

end Dialogue.Decimal
