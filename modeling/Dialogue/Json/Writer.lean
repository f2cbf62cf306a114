import Dialogue.Json.Basic
import Dialogue.Decimal.Style

/-! # Writing saved values

Values are written without spaces. A float is written with the fewest digits that read back, and
one that is not finite as `null`.
-/

namespace Dialogue.Json

/-- Floats keep a point or an exponent, and are positional from `0.00001` to below `10 ^ 13`. -/
def floatStyle : Decimal.Style :=
  { tie := .toEven, wholePoint := true, least := -5, most := 13 }

def hexDigit (n : Nat) : Char :=
  if n < 10 then Char.ofNat ('0'.toNat + n) else Char.ofNat ('a'.toNat + (n - 10))

/-- A character as it stands inside quotation marks. -/
def escape (c : Char) : List Char :=
  match c with
  | '"' => ['\\', '"']
  | '\\' => ['\\', '\\']
  | '\n' => ['\\', 'n']
  | '\r' => ['\\', 'r']
  | '\t' => ['\\', 't']
  | c =>
    if c.toNat < 0x20 then
      ['\\', 'u', '0', '0', hexDigit (c.toNat / 16), hexDigit (c.toNat % 16)]
    else [c]

def quote (s : String) : String :=
  String.ofList ('"' :: s.toList.flatMap escape ++ ['"'])

def writeReal (x : Float32) : String :=
  if x.isFinite then floatStyle.text x else "null"

mutual

/-- The written value after the text `out`. -/
def writeOn (out : String) : Json → String
  | null => out ++ "null"
  | bool b => out ++ (if b then "true" else "false")
  | int n => out ++ toString n
  | real x => out ++ writeReal x
  | str s => out ++ quote s
  | arr [] => out ++ "[]"
  | arr (item :: rest) => writeItems (writeOn (out ++ "[") item) rest ++ "]"
  | obj [] => out ++ "\x7b\x7d"
  | obj ((name, value) :: rest) =>
    writeMembers (writeOn (out ++ "\x7b" ++ quote name ++ ":") value) rest ++ "\x7d"
  | unreadable => out ++ "null"

def writeItems (out : String) : List Json → String
  | [] => out
  | item :: rest => writeItems (writeOn (out ++ ",") item) rest

def writeMembers (out : String) : List (String × Json) → String
  | [] => out
  | (name, value) :: rest => writeMembers (writeOn (out ++ "," ++ quote name ++ ":") value) rest

end

def write (value : Json) : String :=
  writeOn "" value

example : write (arr [real 0.7, real 1, real 1e-7, real 2097152.25]) =
    "[0.7,1.0,1e-7,2097152.2]" := by decide +kernel

end Dialogue.Json
