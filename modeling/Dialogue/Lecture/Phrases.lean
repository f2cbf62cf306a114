import Dialogue.Lecture.Task
import Dialogue.Text.Blank
import Dialogue.Text.Casing

/-! # Typed phrases

The moves that typed text stands for, whatever its case and the blanks around it.
-/

namespace Dialogue.Lecture

/-- The confidence of typed text. -/
def typedConfidence : Float32 := 0.9

/-- The act of a phrase in lower case. -/
def phraseAct? (phrase : String) : Option Act :=
  if ["", "*no_input*", "no_input"].contains phrase then some .noInput
  else if ["hello", "hi"].contains phrase then some .greet
  else if ["where is the lecture?", "where is the lecture"].contains phrase then
    some (.ask ⟨bookingRoom⟩)
  else if ["what's your favorite food?", "what's your favorite food"].contains phrase then
    some (.ask ⟨favoriteFood⟩)
  else if phrase = "pizza" then some (.answer (.short "pizza"))
  else if phrase = "dialogue systems 2" then some (.answer (.short course))
  else if (weekdays ++ weekend).contains phrase then some (.answer (.short phrase))
  else none

/-- The moves of a text, if it is a known phrase. -/
def interpret? (text : String) : Option (List Move) :=
  (phraseAct? (Text.lower (Text.trim text))).map fun act =>
    [Move.withConfidence ⟨act, none⟩ typedConfidence]

end Dialogue.Lecture
