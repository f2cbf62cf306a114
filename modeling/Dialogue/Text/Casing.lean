import Dialogue.Text.CaseRuns

/-! # Letter case

Full case mapping without a locale. Lowercasing is character by character but for capital sigma,
which becomes `ς` at the end of a word and `σ` elsewhere; a capital may become several characters.
-/

namespace Dialogue.Text

def CaseRun.shifted (r : CaseRun) (code : Nat) : Char :=
  Char.ofNat (code + r.shift).toNat

def mapCode (runs : List CaseRun) (c : Char) : Char :=
  match runs.find? (·.covers c.toNat) with
  | some r => r.shifted c.toNat
  | none => c

def isInRanges (ranges : List (Nat × Nat)) (c : Char) : Bool :=
  ranges.any fun r => r.1 ≤ c.toNat && c.toNat ≤ r.2

def isCased (c : Char) : Bool :=
  isInRanges casedRanges c

def isCaseIgnorable (c : Char) : Bool :=
  isInRanges caseIgnorableRanges c

/-- The lowercase of one character on its own. Capital I with dot is the only one that grows. -/
def lowerChar (c : Char) : List Char :=
  if c = 'İ' then ['i', '\u0307']
  else if c.toNat < 0x80 then [c.toLower]
  else [mapCode lowerRuns c]

/-- The uppercase of one character, one or more characters long. -/
def upperChar (c : Char) : List Char :=
  if c.toNat < 0x80 then [c.toUpper]
  else match upperExpansions.lookup c.toNat with
    | some codes => codes.map Char.ofNat
    | none => [mapCode upperRuns c]

/-- Whether the first character that case does not ignore is a cased one. -/
def continuesWord (text : List Char) : Bool :=
  ((text.dropWhile isCaseIgnorable).head?).any isCased

/-- The small sigma for a capital one between the text `before`, read backwards, and `after`: final
when a word ends there. -/
def lowerSigma (before after : List Char) : Char :=
  if continuesWord before && !continuesWord after then 'ς' else 'σ'

/-- Lowercases the second text; the first is what precedes it, read backwards. -/
def lowerFrom : List Char → List Char → List Char
  | _, [] => []
  | before, c :: after =>
    (if c = 'Σ' then [lowerSigma before after] else lowerChar c) ++ lowerFrom (c :: before) after

def lower (text : String) : String :=
  String.ofList (lowerFrom [] text.toList)

example : lower "ΟΔΟΣ ΣΟΦΗ" = "οδος σοφη" := by decide +kernel

def capitalize (text : String) : String :=
  match text.toList with
  | [] => ""
  | c :: rest => String.ofList (upperChar c ++ rest)

end Dialogue.Text
