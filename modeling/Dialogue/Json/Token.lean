import Dialogue.Json.Basic
import Dialogue.Decimal.Literal

/-! # Tokens

A saved text as a sequence of tokens. The text is read one character at a time by a small machine,
`Scan`, whose position is between tokens, in a word, or somewhere in a quoted text.
-/

namespace Dialogue.Json

inductive Token where
  | openArray
  | closeArray
  | openObject
  | closeObject
  | comma
  | colon
  /-- A quoted text, or none when it holds half a surrogate pair. -/
  | text (s : Option String)
  /-- A literal name or a number. -/
  | scalar (value : Json)

/-- The numbers are code units: a surrogate can only come from an escape, and a pair of them is one
character. -/
def joinSurrogates : List Nat → Option (List Char)
  | [] => some []
  | [u] => if 0xD800 ≤ u ∧ u < 0xE000 then none else some [Char.ofNat u]
  | u :: v :: rest =>
    if 0xD800 ≤ u ∧ u < 0xDC00 then
      if 0xDC00 ≤ v ∧ v < 0xE000 then
        (joinSurrogates rest).map (Char.ofNat (0x10000 + (u - 0xD800) * 0x400 + (v - 0xDC00)) :: ·)
      else none
    else if 0xDC00 ≤ u ∧ u < 0xE000 then none
    else (joinSurrogates (v :: rest)).map (Char.ofNat u :: ·)

def digit? (c : Char) : Option Nat :=
  if c.isDigit then some (c.toNat - '0'.toNat) else none

def hexDigit? (c : Char) : Option Nat :=
  if c.isDigit then some (c.toNat - '0'.toNat)
  else if 'a' ≤ c ∧ c ≤ 'f' then some (c.toNat - 'a'.toNat + 10)
  else if 'A' ≤ c ∧ c ≤ 'F' then some (c.toNat - 'A'.toNat + 10)
  else none

/-- The value of a written exponent with its mark `e`; none when it is malformed. -/
def exponent? : List Char → Option Int
  | [] => some 0
  | mark :: rest =>
    if mark = 'e' ∨ mark = 'E' then
      let (negative, digits) := match rest with
        | '-' :: ds => (true, ds)
        | '+' :: ds => (false, ds)
        | ds => (false, ds)
      if digits.isEmpty then none
      else (digits.mapM digit?).map fun ds =>
        let n : Nat := ds.foldl (fun n d => n * 10 + d) 0
        if negative then -n else n
    else none

/-- The value of a number with a fraction, an exponent or too many digits. -/
def realValue (negative : Bool) (integer fraction : List Nat) (exponent : Int) : Json :=
  match Decimal.magnitude integer fraction exponent with
  | some f => real (if negative then -f else f).toFloat32
  | none => unreadable

/-- The value of an integer. Zero with a minus sign and integers beyond 64 bits are floats. -/
def integerValue (negative : Bool) (digits : List Nat) : Json :=
  let n : Nat := digits.foldl (fun n d => n * 10 + d) 0
  if negative then
    if n ≠ 0 ∧ n ≤ 0x8000000000000000 then int (-n) else realValue true digits [] 0
  else if n < UInt64.size then int n else realValue false digits [] 0

/-- The value of a number: digits without leading zeros, then a fraction and an exponent if any. -/
def number? (word : List Char) : Option Json := do
  let (negative, rest) := match word with
    | '-' :: rest => (true, rest)
    | rest => (false, rest)
  let integer ← (rest.takeWhile Char.isDigit).mapM digit?
  if integer.isEmpty || (integer.head? == some 0 && 1 < integer.length) then none
  else match rest.dropWhile Char.isDigit with
    | [] => some (integerValue negative integer)
    | '.' :: rest => do
      let fraction ← (rest.takeWhile Char.isDigit).mapM digit?
      if fraction.isEmpty then none
      else
        let exponent ← exponent? (rest.dropWhile Char.isDigit)
        some (realValue negative integer fraction exponent)
    | rest => do
      let exponent ← exponent? rest
      some (realValue negative integer [] exponent)

def word? (word : List Char) : Option Json :=
  if word = ['n', 'u', 'l', 'l'] then some null
  else if word = ['t', 'r', 'u', 'e'] then some (bool true)
  else if word = ['f', 'a', 'l', 's', 'e'] then some (bool false)
  else number? word

def escaped? (c : Char) : Option Char :=
  match c with
  | '"' => some '"'
  | '\\' => some '\\'
  | '/' => some '/'
  | 'b' => some '\x08'
  | 'f' => some '\x0c'
  | 'n' => some '\n'
  | 'r' => some '\r'
  | 't' => some '\t'
  | _ => none

def punctuation? (c : Char) : Option Token :=
  match c with
  | '[' => some .openArray
  | ']' => some .closeArray
  | '\x7b' => some .openObject
  | '\x7d' => some .closeObject
  | ',' => some .comma
  | ':' => some .colon
  | _ => none

def isSpace (c : Char) : Bool :=
  c == ' ' || c == '\t' || c == '\n' || c == '\r'

/-- Where the machine stands; what a token has so far is held last character first. -/
inductive Scan where
  | between
  | word (chars : List Char)
  | quoted (units : List Nat)
  | escape (units : List Nat)
  /-- After `count` of the four digits of an escaped code unit. -/
  | unit (units : List Nat) (count value : Nat)

/-- What a character does between tokens. -/
def Scan.start (c : Char) : Scan × List Token :=
  if isSpace c then (.between, [])
  else if c = '"' then (.quoted [], [])
  else match punctuation? c with
    | some token => (.between, [token])
    | none => (.word [c], [])

/-- One character: where the machine stands next and the tokens it completes. -/
def Scan.step (c : Char) : Scan → Option (Scan × List Token)
  | .between => some (start c)
  | .word chars =>
    if isSpace c || c == '"' || (punctuation? c).isSome then do
      let value ← word? chars.reverse
      let (next, tokens) := start c
      some (next, .scalar value :: tokens)
    else some (.word (c :: chars), [])
  | .quoted units =>
    if c = '"' then
      some (.between, [.text ((joinSurrogates units.reverse).map String.ofList)])
    else if c = '\\' then some (.escape units, [])
    else if c.toNat < 0x20 then none
    else some (.quoted (c.toNat :: units), [])
  | .escape units =>
    if c = 'u' then some (.unit units 0 0, [])
    else (escaped? c).map fun e => (.quoted (e.toNat :: units), [])
  | .unit units count value => do
    let d ← hexDigit? c
    if count = 3 then some (.quoted ((value * 16 + d) :: units), [])
    else some (.unit units (count + 1) (value * 16 + d), [])

/-- Reads on from a position; `done` holds the tokens so far, last first. -/
def Scan.run (done : List Token) : Scan → List Char → Option (List Token)
  | scan, c :: rest =>
    match scan.step c with
    | some (next, tokens) => run (tokens.reverse ++ done) next rest
    | none => none
  | .between, [] => some done.reverse
  | .word chars, [] => (word? chars.reverse).map fun value => (Token.scalar value :: done).reverse
  | _, [] => none

/-- The tokens of a text; none when some token is malformed or unfinished. -/
def tokens? (text : String) : Option (List Token) :=
  Scan.run [] .between text.toList

end Dialogue.Json
