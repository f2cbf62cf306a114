import Dialogue.Lecture.Phrases
import Dialogue.Lecture.Speech

/-! # The console

A dialogue about lectures, line by line. Each line of input is answered by one line of output; a
long wait counts as silence.
-/

namespace Dialogue.Console

/-- The lines of a text after the characters `current` of its first line, which are held last first.
A carriage return right before a line feed belongs to the end of the line. -/
def linesFrom (current : List Char) : List Char → List String
  | [] => if current.isEmpty then [] else [String.ofList current.reverse]
  | c :: rest =>
    if c = '\n' then
      let line := match current with
        | '\r' :: before => before
        | chars => chars
      String.ofList line.reverse :: linesFrom [] rest
    else linesFrom (c :: current) rest

def lines (text : String) : List String :=
  linesFrom [] text.toList

example : lines "a\r\nb\rc\n\nd" = ["a", "b\rc", "", "d"] := by decide +kernel

/-- The line that speaks a reply. A reply without text is not understood either. -/
def spokenLine (reply : List Move) : String :=
  let text := Lecture.realize reply
  "sys> " ++ if text = "" then Lecture.misunderstood else text

def output (result : Reply × Session) : Except NoProgress (String × Session) :=
  result.1.map fun reply => (spokenLine reply, result.2)

def opening (s : Session) : Except NoProgress (String × Session) :=
  output s.start

/-- Answers a line of input. What is not understood leaves the dialogue as it is. -/
def answer (s : Session) (line : String) : Except NoProgress (String × Session) :=
  match Lecture.interpret? line with
  | some moves => output (s.hear moves)
  | none => .ok ("sys> " ++ Lecture.misunderstood, s)

def answerSilence (s : Session) : Except NoProgress (String × Session) :=
  output (s.hear [⟨.noInput, none⟩])

/-- The output for lines of input, up to the first failure, and whether there was one. -/
def answerAll (s : Session) : List String → List String × Option NoProgress
  | [] => ([], none)
  | line :: rest =>
    match answer s line with
    | .ok (text, s) =>
      let (texts, failure) := answerAll s rest
      (text :: texts, failure)
    | .error e => ([], some e)

/-- The whole output of a dialogue, and how it failed if it did. -/
def transcript (s : Session) (input : String) : List String × Option NoProgress :=
  match opening s with
  | .ok (text, s) =>
    let (texts, failure) := answerAll s (lines input)
    (text :: texts, failure)
  | .error e => ([], some e)

def session : Session :=
  .ofEngine
    { rules := Update.defaultRules, domain := Lecture.domain, database := Lecture.rooms,
      config := {}, valid := by decide +kernel }
    Lecture.initialState

end Dialogue.Console
