/-
# The program

    [--path DIRECTORY] [--verbose] [--no-color] init
    [--path DIRECTORY] [--verbose] [--no-color] build [--out DIRECTORY] [--watch]

The program is handed a project as a snapshot, in the first line of its input, and the project is
the current directory of the run.  What the run prints is printed, its notices are written to the
errors, and the last line printed is the snapshot of the project as the run leaves it.  A watching
build takes every further line as the project as it has become.

The variable `NO_COLOR` forbids colours, whatever its value.  Commands are run by the shell of this
library, and times are not measured.
-/
import ScriptWeave.CommandLine.Run
import ScriptWeave.FileTree.Snapshot
import ScriptWeave.Shell.Start

namespace ScriptWeave.CommandLine

/-- What is printed when help is asked for. -/
def usage : String :=
  String.intercalate "\n" [
    "Compile JSX files and JSX blocks embedded in HTML pages.",
    "",
    "Usage: jsxpipe [OPTIONS] [COMMAND]",
    "",
    "Commands:",
    "  init   Create a sample `jsxpipe.toml` in the project root",
    "  build  Compile the project into an output directory",
    "  help   Print this message",
    "",
    "Options:",
    "  -p, --path <PATH>  Path to the project root directory",
    "  -v, --verbose      Enable verbose output",
    "      --no-color     Disable colored output",
    "  -h, --help         Print help",
    "  -V, --version      Print version",
    "",
    "Options of build:",
    "  -o, --out <OUT>    Directory the output is written to [default: dist]",
    "      --watch        Keep running and rebuild files as they change",
    ""]

/-- What is told when the arguments start no command. -/
def Decline.text : Decline → String
  | help => usage
  | version => "jsxpipe 0.1.0\n"
  | unknownArgument => "error: unexpected argument\n"
  | unknownCommand => "error: unrecognized subcommand\n"
  | noValue => "error: a value is required\n"
  | unwantedValue => "error: unexpected value\n"
  | repeated => "error: the argument cannot be used multiple times\n"

/-- The tree in a line of input, if the line holds a snapshot. -/
def readTree? (line : String) : Option FileTree := (Json.read? line).bind FileTree.ofSnapshot?

/-- Shows how a run ended: what it printed, its notices, and the project. -/
def showFinish (coloured : Bool) (finish : Finish) : IO Unit := do
  IO.print finish.output
  IO.eprint (finish.errors coloured)
  IO.println finish.tree.snapshot.compact
  (← IO.getStdout).flush

/-- Builds again for every further line of input. -/
partial def watch (plan : Plan) (setting : Setting) (invocation : Invocation) : IO Unit := do
  let line ← (← IO.getStdin).getLine
  if line.isEmpty then return ()
  match readTree? line with
  | none => IO.eprintln "error: no snapshot"
  | some tree =>
    let paths := FileTree.changedPaths setting.tree tree
    let finish := plan.rebuild { setting with tree } invocation paths
    showFinish (setting.coloured invocation) finish
    watch plan { setting with tree := finish.tree } invocation

/-- Runs a command on a project, and goes on watching it if that is asked for. -/
def runOn (setting : Setting) (invocation : Invocation) : IO UInt32 := do
  let finish := perform setting invocation
  match invocation.command, finish.exitCode with
  | some (.build outDir true), 0 =>
    showFinish (setting.coloured invocation) { finish with output := finish.output ++ watchingLine }
    match Plan.make setting invocation.path outDir with
    | .ok plan => watch plan { setting with tree := finish.tree } invocation
    | .error _ => pure ()
  | _, _ => showFinish (setting.coloured invocation) finish
  return UInt32.ofNat finish.exitCode

end ScriptWeave.CommandLine

open ScriptWeave ScriptWeave.CommandLine in
/-- The entry point of the program. -/
def main (args : List String) : IO UInt32 := do
  match Invocation.read args with
  | .error d =>
    if d.exitCode = 0 then IO.print d.text else IO.eprint d.text
    return UInt32.ofNat d.exitCode
  | .ok invocation =>
    match readTree? (← (← IO.getStdin).getLine) with
    | none =>
      IO.eprintln "error: no snapshot"
      return 2
    | some tree =>
      let colour := (← IO.getEnv "NO_COLOR").isNone
      let accepts := Markup.acceptsMarker
      runOn { tree, directory := "/", runner := Shell.start, accepts, colour, elapsed := "?" }
        invocation
