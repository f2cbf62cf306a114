/-! # Number literals

Reading a decimal literal as a 64-bit float. The leading digits that fit into 64 bits are kept and
the scale is applied by one multiplication or division with a power of ten, so a long literal may
come out one unit in the last place away from the nearest float.
-/

namespace Dialogue.Decimal

/-- A number `± significand * 10 ^ exponent` being read. -/
structure Significand where
  value : Nat
  exponent : Int

/-- Takes in a digit if the significand stays below `2 ^ 64`. -/
def Significand.push? (s : Significand) (digit : Nat) : Option Nat :=
  if s.value * 10 + digit < UInt64.size then some (s.value * 10 + digit) else none

/-- Integer digits; from the first that does not fit on, each only raises the exponent. -/
def Significand.integer (s : Significand) : List Nat → Significand
  | [] => s
  | d :: rest => match s.push? d with
    | some v => integer { s with value := v } rest
    | none => { s with exponent := s.exponent + (rest.length + 1) }

/-- Fraction digits; from the first that does not fit on, they are dropped. -/
def Significand.fraction (s : Significand) : List Nat → Significand
  | [] => s
  | d :: rest => match s.push? d with
    | some v => fraction ⟨v, s.exponent - 1⟩ rest
    | none => s

def scaleBy (f : Float) (exponent : Int) : Option Float :=
  if exponent.natAbs ≤ 308 then
    let power := Float.ofScientific 1 false exponent.natAbs
    if 0 ≤ exponent then
      let g := f * power
      if g.isInf then none else some g
    else some (f / power)
  else if f == 0 then some f
  else if 0 ≤ exponent then none
  else scaleBy (f / 1e308) (exponent + 308)
termination_by (-exponent).toNat

/-- The magnitude of a literal from its digits and its written exponent. A written exponent beyond
32 bits leaves only zero or nothing to say. -/
def magnitude (integer fraction : List Nat) (written : Int) : Option Float :=
  let s := ((Significand.mk 0 0).integer integer).fraction fraction
  if written.natAbs < 0x80000000 then scaleBy (UInt64.ofNat s.value).toFloat (s.exponent + written)
  else if s.value = 0 ∨ written < 0 then some 0
  else none

end Dialogue.Decimal
