/-
# The log of a batch

Every event is logged in one line: a level, a message, and fields.  The time that a file took is
not known to a batch, so the text of it is given from outside.
-/
import ScriptWeave.Batch.Run

namespace ScriptWeave

/-- How important a line of the log is. -/
inductive LogLevel where
  | debug
  | info
  | error
  deriving DecidableEq

namespace LogLevel

/-- The word for a level. -/
def word : LogLevel → String
  | debug => "DEBUG"
  | info => "INFO"
  | error => "ERROR"

end LogLevel

/-- The value of a field of a log line. -/
inductive LogField where
  | text (s : String)
  | texts (l : List String)
  | count (n : Nat)

/-- A line of the log. -/
structure LogLine where
  level : LogLevel
  message : String
  fields : List (String × LogField) := []

namespace LogLine

/-- The file that a line is about, if it says so in a field. -/
def filename? (line : LogLine) : Option String :=
  line.fields.findSome? fun
    | ("filename", .text s) => some s
    | _ => none

/-- The line that reports a file that could not be processed. -/
def failure (filename message : String) : LogLine :=
  ⟨.error, Report.failureLine filename message, []⟩

/-- The line of an event, given the text of the time it took. -/
def ofEvent (elapsed : String) : Builder.Event → LogLine
  | .skipped filename =>
    ⟨.debug, "skipping file removed in the same batch", [("filename", .text filename)]⟩
  | .invoked filename request =>
    ⟨.debug, "invoking compiler",
      [("filename", .text filename), ("features", .texts request.options.features)]⟩
  | .transformed filename before after =>
    ⟨.info, Report.doneLine filename elapsed before after, []⟩
  | .passedThrough filename => ⟨.debug, "passthrough", [("filename", .text filename)]⟩
  | .failed filename e => failure filename e.message

end LogLine

end ScriptWeave
