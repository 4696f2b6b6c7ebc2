/-
# What a run shows

A run of the program leaves a tree of files and a status, prints text on its output, and writes
*notices* to its errors: lines of the log, and at the end perhaps a complaint.  This module says how
notices look.

**Lines of the log.**  The level stands in five columns, then come the message and the fields.
Characters that could steer a terminal are written by their codes, so that a message cannot do
that.  In colour, the level has the colour of its importance and the names of fields are slanted.

**Complaints.**  A storage error outside of a build's own files is told in one line, and so is an
obstacle to collecting them.  A build error is told by its code, its text and its advice.  A program
that breaks off says what it did not expect; where in the program that was is left out here.
-/
import ScriptWeave.Batch.Log
import ScriptWeave.CommandLine.Arguments
import ScriptWeave.Compile.Command
import ScriptWeave.Project.Collect
import ScriptWeave.Text.Quoted

namespace ScriptWeave

/-! ## 1. Colours -/

namespace Colour

/-- A text between the sequence that sets a style and the one that ends it. -/
def wrap (start finish : Nat) (coloured : Bool) (text : String) : String :=
  if coloured then
    "\x1b[" ++ toString start ++ "m" ++ text ++ "\x1b[" ++ toString finish ++ "m"
  else text

/-- A text in red. -/
def red : Bool → String → String := wrap 31 39

/-- A text in green. -/
def green : Bool → String → String := wrap 32 39

end Colour

/-! ## 2. Lines of the log -/

namespace LogLevel

/-- The level in five columns. -/
def column (level : LogLevel) : String :=
  String.ofList (List.replicate (5 - level.word.length) ' ') ++ level.word

/-- The number of a level's colour. -/
def colour : LogLevel → Nat
  | debug => 34
  | info => 32
  | error => 31

end LogLevel

namespace LogField

/-- The text of a field's value. -/
def shown : LogField → String
  | text s => Text.quoted s
  | texts l => Text.quotedList l
  | count n => toString n

end LogField

namespace LogLine

/-- A character of a message, written by its code if it could steer a terminal. -/
def tamed (c : Char) : List Char :=
  if c = '\x1b' then ['\\', 'x', '1', 'b']
  else if c = '\x07' then ['\\', 'x', '0', '7']
  else if c = '\x08' then ['\\', 'x', '0', '8']
  else if c = '\x0c' then ['\\', 'x', '0', 'c']
  else if c = '\x7f' then ['\\', 'x', '7', 'f']
  else if 0x80 ≤ c.toNat && c.toNat ≤ 0x9F then
    ['\\', 'u', '\x7b'] ++ Nat.toDigits 16 c.toNat ++ ['\x7d']
  else [c]

/-- The text of a line. -/
def shown (coloured : Bool) (line : LogLine) : String :=
  let field (f : String × LogField) : String :=
    " " ++ Colour.wrap 3 0 coloured f.1 ++ Colour.wrap 2 0 coloured "=" ++ f.2.shown
  Colour.wrap line.level.colour 0 coloured line.level.column ++ " "
    ++ String.ofList (line.message.toList.flatMap tamed) ++ String.join (line.fields.map field)

/-- A line is logged, if the run tells details or the line is more than a detail. -/
def isLogged (verbose : Bool) (line : LogLine) : Bool := verbose || line.level ≠ .debug

end LogLine

/-! ## 3. Complaints -/

namespace CommandLine

/-- Why a run ends without having done what it should. -/
inductive Complaint where
  | noCommand
  | storage (cause : StorageError)
  | collect (cause : ProjectScope.CollectError)
  | build (cause : BuildError)
  /-- The program has come to a state that it takes to be impossible. -/
  | impossible (message : String)

/-- Something that is written to the errors of a run. -/
inductive Notice where
  | log (line : LogLine)
  | complaint (c : Complaint)

/-- The text of a complaint. -/
def Complaint.shown (coloured : Bool) : Complaint → String
  | noCommand => "No subcommand specified. Run `jsxpipe --help` for usage."
  | storage cause => Colour.red coloured "error:" ++ " " ++ cause.message
  | collect cause => Colour.red coloured "error:" ++ " " ++ cause.message
  | build cause =>
    let message := String.intercalate "\n  | " (cause.message.splitOn "\n")
    String.intercalate "\n" ([Colour.red coloured cause.code, "", "  x " ++ message]
      ++ (cause.help.map fun advice => "  help: " ++ advice).toList)
  | impossible message => message

/-- The text of a notice. -/
def Notice.shown (coloured : Bool) : Notice → String
  | log line => line.shown coloured
  | complaint c => c.shown coloured

/-- How a run ends. -/
structure Finish where
  tree : FileTree
  exitCode : Nat
  /-- What is printed. -/
  output : String := ""
  notices : List Notice := []

/-- What a run writes to its errors. -/
def Finish.errors (coloured : Bool) (finish : Finish) : String :=
  String.join (finish.notices.map fun n => n.shown coloured ++ "\n")

/-- Where and how the program is run. -/
structure Setting where
  tree : FileTree
  /-- The current directory. -/
  directory : String
  runner : CommandRunner
  /-- Which markers can be looked for. -/
  accepts : String → Bool
  /-- Colours are wanted unless a switch forbids them. -/
  colour : Bool
  /-- The text of the time that a file takes. -/
  elapsed : String

/-- Colours are shown. -/
def Setting.coloured (setting : Setting) (invocation : Invocation) : Bool :=
  setting.colour && !invocation.noColour

/-- A run that fails with a complaint and changes no file. -/
def Setting.fail (setting : Setting) (c : Complaint) : Finish :=
  { tree := setting.tree, exitCode := 2, notices := [.complaint c] }

/-- A run that breaks off and changes no file. -/
def Setting.breakOff (setting : Setting) (message : String) : Finish :=
  { tree := setting.tree, exitCode := 101, notices := [.complaint (.impossible message)] }

end CommandLine

end ScriptWeave
