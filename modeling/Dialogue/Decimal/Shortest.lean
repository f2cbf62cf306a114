/-! # Shortest decimals

The shortest decimal that still rounds to a given binary number. The numbers that round to
`m * 2 ^ q` form an interval; the widest decimal grid with a point in it gives the fewest digits,
and of two points on that grid the nearer one is taken. All arithmetic is exact.
-/

namespace Dialogue.Decimal

/-- What happens to a value half way between two decimals. -/
inductive Tie where
  | toEven
  | up

/-- The numbers between `low * 2 ^ exponent` and `high * 2 ^ exponent` that round to
`value * 2 ^ exponent`; the ends belong to it when `closed`. -/
structure Interval where
  low : Nat
  value : Nat
  high : Nat
  exponent : Int
  closed : Bool

/-- The interval around `m * 2 ^ q`. Below a power of two the next number is half as far away, which
`atPower` reports. -/
def Interval.around (m : Nat) (q : Int) (atPower : Bool) : Interval where
  low := if atPower then 4 * m - 1 else 4 * m - 2
  value := 4 * m
  high := 4 * m + 2
  exponent := q - 2
  closed := m % 2 == 0

/-- The factors `(a, b)` with `2 ^ exponent = a / b * 10 ^ k`. -/
def Interval.scale (i : Interval) (k : Int) : Nat × Nat :=
  (Nat.pow 2 i.exponent.toNat * Nat.pow 10 (-k).toNat,
    Nat.pow 2 (-i.exponent).toNat * Nat.pow 10 k.toNat)

def Interval.contains (i : Interval) (k : Int) (d : Nat) : Bool :=
  let (a, b) := i.scale k
  if i.closed then i.low * a ≤ d * b && d * b ≤ i.high * a
  else i.low * a < d * b && d * b < i.high * a

/-- The point of the grid `10 ^ k` to take, if the interval holds one of the value's neighbours. -/
def Interval.pick? (i : Interval) (tie : Tie) (k : Int) : Option Nat :=
  let (a, b) := i.scale k
  let d := i.value * a / b
  let rest := i.value * a % b
  match i.contains k d, i.contains k (d + 1) with
  | false, false => none
  | true, false => some d
  | false, true => some (d + 1)
  | true, true =>
    if 2 * rest < b then some d
    else if b < 2 * rest then some (d + 1)
    else match tie with
      | .up => some (d + 1)
      | .toEven => some (if d % 2 = 0 then d else d + 1)

/-- The number `digits * 10 ^ exponent`. -/
structure Scaled where
  digits : Nat
  exponent : Int

/-- The shortest point of the interval among the grids `10 ^ top`, `10 ^ (top - 1)`, … -/
def Interval.shortest? (i : Interval) (tie : Tie) (top : Int) (grids : Nat) : Option Scaled :=
  (List.range grids).findSome? fun n : Nat =>
    let k := top - n
    (i.pick? tie k).map fun d => ⟨d, k⟩

/-- The shortest decimal of a positive finite 32-bit float. Its last digit never stands left of
`10 ^ 38` nor right of `10 ^ -46`. -/
def shortest (x : Float32) (tie : Tie) : Scaled :=
  let bits := x.toBits.toNat % 0x80000000
  let biased : Nat := bits / 0x800000
  let fraction := bits % 0x800000
  let interval :=
    if biased = 0 then Interval.around fraction (-149) false
    else Interval.around (0x800000 + fraction) ((biased : Int) - 150) (fraction == 0 && 1 < biased)
  (interval.shortest? tie 38 85).getD ⟨0, 0⟩

end Dialogue.Decimal
