import Dialogue.Config
import Dialogue.Console
import Dialogue.Contact
import Dialogue.Content
import Dialogue.Cycle
import Dialogue.Database
import Dialogue.Decimal.Fixed
import Dialogue.Decimal.Literal
import Dialogue.Decimal.Shortest
import Dialogue.Decimal.Style
import Dialogue.Domain.Basic
import Dialogue.Domain.Blueprint
import Dialogue.Domain.Draft
import Dialogue.Json.Basic
import Dialogue.Json.Reader
import Dialogue.Json.Saved
import Dialogue.Json.Token
import Dialogue.Json.Writer
import Dialogue.Lecture.Phrases
import Dialogue.Lecture.Speech
import Dialogue.Lecture.Task
import Dialogue.Main
import Dialogue.Move
import Dialogue.Plan
import Dialogue.Proofs.Cycle.Acknowledging
import Dialogue.Proofs.Cycle.Answers
import Dialogue.Proofs.Cycle.Asking
import Dialogue.Proofs.Cycle.Assuming
import Dialogue.Proofs.Cycle.Bisimulation
import Dialogue.Proofs.Cycle.Comments
import Dialogue.Proofs.Cycle.Commitments
import Dialogue.Proofs.Cycle.Composition
import Dialogue.Proofs.Cycle.Counting
import Dialogue.Proofs.Cycle.Dispatch
import Dialogue.Proofs.Cycle.Escalation
import Dialogue.Proofs.Cycle.Exclusiveness
import Dialogue.Proofs.Cycle.Idling
import Dialogue.Proofs.Cycle.Interpreting
import Dialogue.Proofs.Cycle.Leads
import Dialogue.Proofs.Cycle.Log
import Dialogue.Proofs.Cycle.Misunderstanding
import Dialogue.Proofs.Cycle.Phases
import Dialogue.Proofs.Cycle.PlanSteps
import Dialogue.Proofs.Cycle.Reading
import Dialogue.Proofs.Cycle.Realizing
import Dialogue.Proofs.Cycle.Replies
import Dialogue.Proofs.Cycle.Reset
import Dialogue.Proofs.Cycle.Rows
import Dialogue.Proofs.Cycle.Settling
import Dialogue.Proofs.Cycle.SilentTurns
import Dialogue.Proofs.Cycle.Trace
import Dialogue.Proofs.Cycle.Visibility
import Dialogue.Proofs.Domain.Defaults
import Dialogue.Proofs.Domain.Faults
import Dialogue.Proofs.Domain.Listing
import Dialogue.Proofs.Domain.Plans
import Dialogue.Proofs.Domain.Searches
import Dialogue.Proofs.Domain.Validation
import Dialogue.Proofs.Domain.Violations
import Dialogue.Proofs.Lecture.Ceiling
import Dialogue.Proofs.Lecture.Load
import Dialogue.Proofs.Lecture.Progress
import Dialogue.Proofs.Lecture.Questions
import Dialogue.Proofs.Lecture.Room
import Dialogue.Proofs.Lecture.Slots
import Dialogue.Proofs.Lecture.Spelling
import Dialogue.Proofs.Lecture.Spoken
import Dialogue.Proofs.Lecture.Timetable
import Dialogue.Proofs.Lecture.Turns
import Dialogue.Proofs.Lecture.Typed
import Dialogue.Proofs.Saved.Confidence
import Dialogue.Proofs.Saved.Loading
import Dialogue.Proofs.Saved.Roundtrip
import Dialogue.Proofs.Session.Beliefs
import Dialogue.Proofs.Session.Calls
import Dialogue.Proofs.Session.Contact
import Dialogue.Proofs.Session.Echoes
import Dialogue.Proofs.Session.Ending
import Dialogue.Proofs.Session.FormFilling
import Dialogue.Proofs.Session.Lockstep
import Dialogue.Proofs.Session.Lookups
import Dialogue.Proofs.Session.Metrics
import Dialogue.Proofs.Session.Muteness
import Dialogue.Proofs.Session.Politeness
import Dialogue.Proofs.Session.Recording
import Dialogue.Proofs.Session.Refusals
import Dialogue.Proofs.Session.Restoring
import Dialogue.Proofs.Session.SideQuestions
import Dialogue.Proofs.Session.Silence
import Dialogue.Proofs.Session.Spelling
import Dialogue.Proofs.Session.Turns
import Dialogue.Proofs.Session.Validated
import Dialogue.Proofs.State.Pending
import Dialogue.Proofs.State.Version
import Dialogue.Proofs.Telemetry.Changes
import Dialogue.Proofs.Telemetry.Counts
import Dialogue.Proofs.Telemetry.Recording
import Dialogue.Proofs.Telemetry.Tail
import Dialogue.Proofs.Text.Casing
import Dialogue.Proofs.Update.Echo
import Dialogue.Proofs.Update.Firing
import Dialogue.Proofs.Update.Form
import Dialogue.Proofs.Update.Hearing
import Dialogue.Proofs.Update.Priority
import Dialogue.Proofs.Update.Pursuing
import Dialogue.Proofs.Update.Quiet
import Dialogue.Proofs.Update.Ranking
import Dialogue.Proofs.Update.Taking
import Dialogue.Saved.Config
import Dialogue.Saved.Content
import Dialogue.Saved.Domain
import Dialogue.Saved.Event
import Dialogue.Saved.Move
import Dialogue.Saved.Plan
import Dialogue.Saved.State
import Dialogue.Saved.Tagged
import Dialogue.Session
import Dialogue.Stack
import Dialogue.State.Basic
import Dialogue.State.Delta
import Dialogue.Table
import Dialogue.Telemetry.Buffer
import Dialogue.Telemetry.Event
import Dialogue.Telemetry.Recorder
import Dialogue.Telemetry.Snapshot
import Dialogue.Text.Blank
import Dialogue.Text.CaseRuns
import Dialogue.Text.Casing
import Dialogue.Update.Feedback
import Dialogue.Update.Pursuit
import Dialogue.Update.Rule
import Dialogue.Update.Rules
import Dialogue.Update.Selection
import Dialogue.Update.Uptake
