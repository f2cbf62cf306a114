import Dialogue.Console

/-! # The program

The console on standard input and output. Waiting longer than the timeout counts as silence.
-/

namespace Dialogue.Console

/-- The environment variable that holds the silence timeout in milliseconds. -/
def timeoutVariable : String := "ISU_NO_INPUT_TIMEOUT_MS"

def report (result : Except NoProgress (String × Session)) : IO Session :=
  match result with
  | .ok (text, s) => do
    IO.println text
    return s
  | .error e => throw (IO.userError e.message)

/-- A line that is being read; none when it has not come by the deadline. -/
partial def waitFor (line : Task (Except IO.Error String)) (deadline : Nat) :
    IO (Option String) := do
  if ← IO.hasFinished line then
    let text ← IO.ofExcept line.get
    return some text
  else if deadline ≤ (← IO.monoMsNow) then return none
  else
    IO.sleep 5
    waitFor line deadline

/-- Answers lines and silences until the input ends. -/
partial def converse (timeout : Timeout) (s : Session) (line : Task (Except IO.Error String)) :
    IO Unit := do
  let deadline := (← IO.monoMsNow) + timeout.milliseconds.toNat
  match ← waitFor line deadline with
  | none => converse timeout (← report (answerSilence s)) line
  | some text =>
    match lines text with
    | [] => return
    | first :: _ =>
      let s ← report (answer s first)
      converse timeout s (← IO.asTask (do (← IO.getStdin).getLine) .dedicated)

def run : IO Unit := do
  let timeout := Timeout.ofVariable (← IO.getEnv timeoutVariable)
  let s ← report (opening session)
  converse timeout s (← IO.asTask (do (← IO.getStdin).getLine) .dedicated)

end Dialogue.Console

def main : IO Unit :=
  Dialogue.Console.run
