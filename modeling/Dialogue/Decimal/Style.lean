import Dialogue.Decimal.Shortest

/-! # Written numbers

How the shortest decimal of a float is set down in characters.
-/

namespace Dialogue.Decimal

/-- A way of writing floats. A number whose first digit stands `n` places left of the point is
written positionally when `least < n ≤ most`, and with an exponent otherwise. -/
structure Style where
  tie : Tie
  /-- Whether a whole number keeps a `.0`. -/
  wholePoint : Bool
  least : Int
  most : Int

def zeros (n : Int) : String :=
  String.ofList (List.replicate n.toNat '0')

/-- Digits with `n` of them left of the point. -/
def Style.positional (style : Style) (digits : String) (n : Int) : String :=
  if n ≤ 0 then "0." ++ zeros (-n) ++ digits
  else if (digits.length : Int) ≤ n then
    digits ++ zeros (n - digits.length) ++ (if style.wholePoint then ".0" else "")
  else String.ofList (digits.toList.take n.toNat) ++ "." ++
    String.ofList (digits.toList.drop n.toNat)

/-- Digits with one of them left of the point, and the exponent that makes up for it. -/
def exponential (digits : String) (n : Int) : String :=
  match digits.toList with
  | [] => ""
  | [d] => String.ofList [d] ++ "e" ++ toString (n - 1)
  | d :: rest => String.ofList (d :: '.' :: rest) ++ "e" ++ toString (n - 1)

def Style.positive (style : Style) (x : Float32) : String :=
  let s := shortest x style.tie
  let digits := String.ofList (Nat.toDigits 10 s.digits)
  let n := s.exponent + digits.length
  if style.least < n ∧ n ≤ style.most then style.positional digits n else exponential digits n

/-- The text of a finite float: its sign, then its magnitude. -/
def Style.text (style : Style) (x : Float32) : String :=
  (if x.toBits < 0x80000000 then "" else "-") ++
    if x == 0 then (if style.wholePoint then "0.0" else "0") else style.positive x.abs

end Dialogue.Decimal
