/-
# Running a batch

**One file.**  A file that passes through keeps its bytes, whatever they are.  A page is woven, a
script is compiled whole; both must be UTF-8.

**A batch.**  First every removed file gets its tombstone.  Then the other files are visited in the
order of their names.  A file that is also removed is skipped and keeps its tombstone.  A file's
output goes into the map at once, its source map before it, so that a file of the batch wins over
another file's source map of the same name: `a.js` comes before `a.js.map`.  The first file that
fails ends the batch; what was made before it stays.

**The trace.**  A batch leaves a trace of *events*: compile calls and what is reported, in order.
-/
import ScriptWeave.Batch.Changes
import ScriptWeave.Project.Config
import ScriptWeave.Markup.Weave
import ScriptWeave.Batch.Report

namespace ScriptWeave

/-! ## 1. The builder -/

/-- What a build is set up with. -/
structure Builder where
  compiler : Compiler
  routes : Routes
  dialectMarker : String
  runtimeMarker : String
  featureFlag : String

namespace Builder

/-- The builder of a configuration, given which markers can be looked for. -/
def ofConfig (compiler : Compiler) (accepts : String → Bool) (config : BuildConfig) :
    Except BuildError Builder :=
  if accepts config.dialectMarker then
    .ok { compiler, routes := config.routes, dialectMarker := config.dialectMarker,
          runtimeMarker := config.runtimeMarker, featureFlag := config.featureFlag }
  else .error .invalidMarker

/-! ## 2. One file -/

/-- The output of one file; nothing if it passes through. -/
def handle (builder : Builder) (args : Option OptionLayer) (filename : String)
    (content : ByteArray) : Work (Option Compiled) :=
  match builder.routes.classify filename with
  | .passthrough => pure none
  | kind =>
    match String.fromUTF8? content with
    | none => .fail (.invalidEncoding filename)
    | some source =>
      let setup : CompileSetup := ⟨builder.compiler, builder.featureFlag, args⟩
      if kind = .script then do
        let output ← setup.compile filename source none
        pure (some output)
      else do
        let page ← Markup.weave setup builder.dialectMarker builder.runtimeMarker filename source
        pure (page.map fun code => { code })

/-- The entries that a file's output makes, in the order they are put into the map. -/
def entriesOf (filename : String) (output : Compiled) : List (String × Artifact) :=
  (output.sourceMap.map fun map => (sourceMapName filename, .content map.indented.toUTF8)).toList
    ++ [(filename, .content output.code.toUTF8)]

/-! ## 3. Events -/

/-- Something that happens in a batch. -/
inductive Event where
  /-- A changed file was also removed, and is left alone. -/
  | skipped (filename : String)
  /-- The compiler was asked. -/
  | invoked (filename : String) (request : CompileRequest)
  /-- A file was compiled: its size before and after. -/
  | transformed (filename : String) (before after : Nat)
  /-- A file passed through. -/
  | passedThrough (filename : String)
  /-- A file failed, and with it the batch. -/
  | failed (filename : String) (error : BuildError)

/-- The request of an event that is a compile call. -/
def Event.request? : Event → Option CompileRequest
  | .invoked _ request => some request
  | _ => none

/-- What came of a visit to a file: the entries it makes, or its error; and its events. -/
structure Visit where
  entries : Except BuildError (List (String × Artifact))
  events : List Event

/-- Visits a file that was not removed. -/
def visit (builder : Builder) (args : Option OptionLayer) (past : List CompileRequest)
    (filename : String) (content : ByteArray) : Visit :=
  let outcome := builder.handle args filename content past
  let asked := outcome.requests.map (Event.invoked filename)
  match outcome.result with
  | .ok (some output) =>
    ⟨.ok (entriesOf filename output),
      asked ++ [.transformed filename content.size output.code.utf8ByteSize]⟩
  | .ok none => ⟨.ok [(filename, .content content)], asked ++ [.passedThrough filename]⟩
  | .error e => ⟨.error e, asked ++ [.failed filename e]⟩

/-! ## 4. The batch -/

/-- The file at which a batch failed, and why. -/
structure FailedFile where
  file : String
  error : BuildError

/-- How a batch ends: its output, complete or up to the failure, and its events. -/
structure BatchResult where
  output : Artifacts
  events : List Event
  failure : Option FailedFile

/-- Visits the files of a list in turn, given the requests made before. -/
def visitAll (builder : Builder) (args : Option OptionLayer) (removed : NameSet) :
    List (String × ByteArray) → List CompileRequest → Artifacts → BatchResult
  | [], _, output => ⟨output, [], none⟩
  | (filename, content) :: rest, past, output =>
    if removed.contains filename then
      let later := visitAll builder args removed rest past output
      { later with events := .skipped filename :: later.events }
    else
      let here := builder.visit args past filename content
      match here.entries with
      | .error e => ⟨output, here.events, some ⟨filename, e⟩⟩
      | .ok entries =>
        let output := entries.foldl (fun output e => output.insert e.1 e.2) output
        let later :=
          visitAll builder args removed rest (past ++ here.events.filterMap Event.request?) output
        { later with events := here.events ++ later.events }

/-- Runs a batch on an output map, given the requests made before. -/
def run (builder : Builder) (changes : Changes) (output : Artifacts) (args : Option OptionLayer)
    (past : List CompileRequest) : BatchResult :=
  visitAll builder args changes.removed changes.updated.entries past
    (output.bury changes.removed)

namespace BatchResult

/-- The compile calls of the batch. -/
def requests (r : BatchResult) : List CompileRequest := r.events.filterMap Event.request?

/-- The maps that are handed on when the batch is done: its output, unless it failed. -/
def delivered (r : BatchResult) : List Artifacts := if r.failure.isSome then [] else [r.output]

end BatchResult

namespace FailedFile

/-- The text of the failure. -/
def message (f : FailedFile) : String :=
  "Failed to process " ++ f.file ++ " due to " ++ f.error.message

/-- It is the text that is logged when the file fails. -/
theorem message_eq_failureLine (f : FailedFile) :
    f.message = Report.failureLine f.file f.error.message := rfl

/-- The code under which a failed batch is documented. -/
def code : String := "jsxpipe::batch_failed"

end FailedFile

end Builder

end ScriptWeave
