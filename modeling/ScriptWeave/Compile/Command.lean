/-
# Compilers that are commands

A project names its compiler by a shell command.  For every compile call the command is run once,
in the project's root: the source text is its input, and the options are in a variable of its
environment, as JSON.

**What counts as an answer.**  A command that ends with status zero has compiled.  If its output is
a JSON object with a text at `code`, that text is the code, and a `map` that is not null is the
source map.  Any other output is the code, as it is.

**What counts as a failure.**  A command that cannot be started or waited for, that ends with
another status, or that is killed has failed.  What it wrote about that is read leniently and cut
into message and stack.  If it wrote nothing but blanks, the message says how it ended.  A command
that succeeds has failed all the same if its source could not be written to it, since what it
compiled is then a part of the source; or if it writes no well-formed UTF-8.  But a command need not
read all of its input, and that it has closed it is no failure.

How commands are run is an argument here, a `CommandRunner`: it takes a tree of files and a call,
and gives the tree as the command leaves it, and how the command ended.
-/
import ScriptWeave.Compile.Compiler
import ScriptWeave.FileTree.Operations
import ScriptWeave.Json.Reader
import ScriptWeave.Text.Lenient

namespace ScriptWeave

/-! ## 1. Running commands -/

/-- A command to be run, and what it is given. -/
structure CommandCall where
  command : String
  /-- The directory it runs in. -/
  directory : String
  environment : List (String × String)
  input : ByteArray

/-- Why a command cannot be started, or its end not waited for. -/
inductive StartError where
  | nulByte
  | argumentTooLong
  | directory (cause : StorageError)
  /-- The system starts no process, for the reason of this text. -/
  | refused (reason : String)
  /-- The system does not tell how the process ends, for the reason of this text. -/
  | lost (reason : String)

/-- How the writing of a command's input ended. -/
inductive InputEnd where
  | written
  /-- The command has closed its input before it was all written. -/
  | closed
  /-- The system has refused to write on, for the reason of this text. -/
  | refused (reason : String)
  /-- The writer has broken off. -/
  | brokenOff

/-- How a command ended. -/
structure CommandResult where
  /-- Its status; none if it was killed. -/
  status : Option Nat
  output : ByteArray
  errors : ByteArray
  /-- How the writing of its input ended. -/
  input : InputEnd

/-- A way to run commands. -/
abbrev CommandRunner := FileTree → CommandCall → FileTree × Except StartError CommandResult

/-- The text of the error. -/
def StartError.message : StartError → String
  | nulByte => "nul byte found in provided data"
  | argumentTooLong => "Argument list too long (os error 7)"
  | directory cause => cause.message
  | refused reason | lost reason => reason

/-! ## 2. Answers -/

/-- The output that a reply stands for: the members of an object with code, or the reply as it is.
-/
def Compiled.ofReply (reply : String) : Compiled :=
  match Json.read? reply with
  | some v =>
    match v.member? "code" with
    | some (.string code) => { code, sourceMap := (v.member? "map").filter fun map => !map.isNull }
    | _ => { code := reply }
  | none => { code := reply }

/-- A compiler that is a command, and the directory it runs in. -/
structure ExternalCompiler where
  command : String
  directory : String

namespace ExternalCompiler

/-- The variable that holds the options. -/
def optionsVariable : String := "JSXPIPE_OPTIONS"

/-- The command between backticks, as messages show it. -/
def shown (compiler : ExternalCompiler) : String := "`" ++ compiler.command ++ "`"

/-- The call that a request comes to. -/
def call (compiler : ExternalCompiler) (request : CompileRequest) : CommandCall where
  command := compiler.command
  directory := compiler.directory
  environment := [(optionsVariable, request.options.encode)]
  input := request.source.toUTF8

/-- The failure of a command that ended with a status other than zero. -/
def failure (compiler : ExternalCompiler) (status : Option Nat) (errors : String) : Diagnosis :=
  if (Text.trim errors.toList).isEmpty then
    .ofMessage (compiler.shown ++ " exited with status " ++ (status.map toString).getD "unknown")
  else .ofOutput errors.toList

/-- What the end of the writing means for a command that ended well. -/
def checkInput (compiler : ExternalCompiler) : InputEnd → Except Diagnosis Unit
  | .written | .closed => .ok ()
  | .refused reason =>
    .error (.ofMessage ("failed to write source to " ++ compiler.shown ++ ": " ++ reason))
  | .brokenOff => .error (.ofMessage ("failed to write source to " ++ compiler.shown))

/-- What the end of a command means. -/
def answer (compiler : ExternalCompiler) :
    Except StartError CommandResult → Except Diagnosis Compiled
  | .error e => .error (.ofMessage ("failed to run " ++ compiler.shown ++ ": " ++ e.message))
  | .ok result =>
    if result.status = some 0 then do
      compiler.checkInput result.input
      match String.fromUTF8? result.output with
      | some reply => .ok (.ofReply reply)
      | none => .error (.ofMessage (compiler.shown ++ " wrote invalid UTF-8"))
    else .error (compiler.failure result.status (Text.Lenient.read result.errors))

/-! ## 3. The compiler -/

/-- The tree of files after some requests. -/
def treeAfter (compiler : ExternalCompiler) (runner : CommandRunner) (tree : FileTree)
    (requests : List CompileRequest) : FileTree :=
  requests.foldl (fun tree request => (runner tree (compiler.call request)).1) tree

/-- The compiler that runs the command for each request, on what the requests before have left. -/
def compiler (compiler : ExternalCompiler) (runner : CommandRunner) (tree : FileTree) : Compiler :=
  fun past request =>
    compiler.answer (runner (compiler.treeAfter runner tree past) (compiler.call request)).2

end ExternalCompiler

end ScriptWeave
