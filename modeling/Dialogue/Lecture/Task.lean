import Dialogue.Database
import Dialogue.Domain.Draft
import Dialogue.Session

/-! # The lecture task

Telling students where a course meets on a day, with favourite food as small talk.
-/

namespace Dialogue.Lecture

def favoriteFood : String := "favorite_food"
def bookingCourse : String := "booking_course"
def bookingDay : String := "booking_day"
def bookingRoom : String := "booking_room"

/-- The code of the course Dialogue Systems 2. -/
def course : String := "LT2319"

def weekdays : List String :=
  ["monday", "tuesday", "wednesday", "thursday", "friday"]

/-- Days, but not days with lectures. -/
def weekend : List String :=
  ["saturday", "sunday"]

def weekdayHint : String :=
  "Please specify a weekday (e.g., Monday, Tuesday, etc.)"

/-- To tell the room: find out the day, then the course, then look it up. -/
def roomPlan : Plan :=
  .issue ⟨bookingRoom⟩ [.findout ⟨bookingDay⟩, .findout ⟨bookingCourse⟩, .consult ⟨bookingRoom⟩]

def declarations : List Declaration :=
  [.predicate favoriteFood "food", .predicate bookingCourse "course",
    .predicate bookingDay "day", .predicate bookingRoom "room",
    .individual "pizza" "food", .individual course "course"] ++
  (weekdays ++ weekend).map (.individual · "day") ++
  [.plan roomPlan, .default bookingDay "friday", .default bookingCourse course,
    .format bookingDay (.ofValues weekdays weekdayHint)]

def blueprint : Blueprint where
  predicates := .ofList [(favoriteFood, "food"), (bookingCourse, "course"), (bookingDay, "day"),
    (bookingRoom, "room")]
  individuals := .ofList ([("pizza", "food"), (course, "course")] ++
    (weekdays ++ weekend).map (·, "day"))
  plans := [roomPlan]
  defaults := .ofList [(bookingDay, "friday"), (bookingCourse, course)]
  formats := .ofList [(bookingDay, .ofValues weekdays weekdayHint)]

def domain : Domain where
  toBlueprint := blueprint
  faultless := by decide +kernel

theorem ofDeclarations_declarations : Domain.ofDeclarations declarations = .ok domain := rfl

/-- The timetable: on each of these days the course meets in that room. -/
def timetable : List (String × String) :=
  [("friday", "G212"), ("tuesday", "J440")]

def rooms : Database :=
  .ofRows (timetable.map fun (day, room) =>
    { question := ⟨bookingRoom⟩
      requires := [⟨bookingCourse, course⟩, ⟨bookingDay, day⟩]
      answer := ⟨bookingRoom, room⟩ })

/-- A greeting to give and a belief about food. -/
def initialState : InformationState :=
  .withBeliefs .initial [⟨favoriteFood, "pizza"⟩]

def session (config : Config) : Except ConfigError Session :=
  Session.new domain rooms config initialState

end Dialogue.Lecture
