import CodeQuality.ApiError
import CodeQuality.Http.Message

/-!
# What calls leave behind

A call gives a result and leaves traces: the requests that a server has seen, the errors that were
reported, and the events that were logged. An `Action` is a call that may fail; its traces are kept
also when it does. Errors are reported to a sink, which either collects them or logs one event for
each: a warning for what the client did wrong and an error for all else.
-/

namespace CodeQuality

/-- How grave an event is. -/
inductive Severity where
  | debug
  | warning
  | error
deriving DecidableEq, Repr

/-- Something that was logged. -/
structure Event where
  severity : Severity
  message : String
  /-- what else is known about it, by name -/
  details : List (String × String) := []
deriving DecidableEq, Repr

/-- The traces of calls, in the order in which they were left. -/
structure Journal where
  sent : List Http.Request := []
  reported : List ApiError := []
  log : List Event := []
deriving DecidableEq, Repr

/-- Where failed calls are reported. -/
inductive Sink where
  | collector
  | logger
deriving DecidableEq, Repr

/-- A call that leaves traces and may fail. -/
abbrev Action := ExceptT ApiError (StateM Journal)

/-- The event that is logged for a failed call. -/
def Event.ofError (e : ApiError) : Event :=
  match e.status? with
  | some s =>
    if s.isClientError then
      { severity := .warning, message := "request rejected: " ++ e.message,
        details := [("status", s.text)] }
    else { severity := .error, message := "request failed: " ++ e.message }
  | none => { severity := .error, message := "request failed: " ++ e.message }

namespace Journal

/-- The warnings and errors among the events; the others are remarks. -/
def alarms (j : Journal) : List Event :=
  j.log.filter fun event => event.severity = .warning || event.severity = .error

/-- `j` with one more event. -/
def note (event : Event) (j : Journal) : Journal := { j with log := j.log ++ [event] }

/-- `j` with one more request that a server has seen. -/
def deliver (request : Http.Request) (j : Journal) : Journal := { j with sent := j.sent ++ [request] }

/-- `j` with one more error that was reported to `sink`. -/
def report (sink : Sink) (e : ApiError) (j : Journal) : Journal :=
  match sink with
  | .collector => { j with reported := j.reported ++ [e] }
  | .logger => j.note (.ofError e)

end Journal

namespace Action

/-- Logs an event. -/
def note (event : Event) : Action Unit := modify (·.note event)

/-- Carries out `action`, and reports the error if it fails. -/
def reporting {α : Type} (sink : Sink) (action : Action α) : Action α :=
  tryCatch action fun e => do
    modify (·.report sink e)
    throw e

/-- Result and traces of an action that starts with an empty journal. -/
def outcome {α : Type} (action : Action α) : Except ApiError α × Journal := action.run {}

end Action
end CodeQuality
