/-
# Programs by name

The programs that a shell can run and that run no other program, each by its name.  A program that
finds its output closed complains of that and fails.
-/
import ScriptWeave.Shell.Machine
import ScriptWeave.Shell.Printf
import ScriptWeave.Shell.Program.Cat
import ScriptWeave.Shell.Program.Ends
import ScriptWeave.Shell.Program.Grep
import ScriptWeave.Shell.Program.Ls
import ScriptWeave.Shell.Program.Tr
import ScriptWeave.Shell.Program.Wc

namespace ScriptWeave.Shell

namespace Program

/-- Writes its arguments as they are. -/
def echo (args : List Bytes) : Ran :=
  let quiet : Bool := args.head? = some (utf8 "-n")
  let text := [0x20].intercalate (if quiet then args.drop 1 else args)
  { pieces := [.output (if quiet then text else text ++ [0x0A])], left := none }

/-- The programs that only read and write. -/
def run? (m : Machine) (name : String) (args : List Bytes) : Option Ran :=
  let input := m.inputOf 0
  match name with
  | "cat" => some (Cat.run args input m.readFile m.isOutput)
  | "tr" => some (Tr.run args input)
  | "wc" => some (Wc.run args input m.readFile)
  | "head" => some (Ends.head args input m.readFile)
  | "tail" => some (Ends.tail args input m.readFile)
  | "grep" => some (Grep.run args input m.readFile m.filesBelow)
  | "egrep" => some (Grep.run (utf8 "-E" :: args) input m.readFile m.filesBelow)
  | "fgrep" => some (Grep.run (utf8 "-F" :: args) input m.readFile m.filesBelow)
  | "ls" => some (Ls.run args m.tree m.path)
  | "echo" => some (echo args)
  | "printf" => some (Printf.printf (utf8 "printf: ") args)
  | "pwd" => some { pieces := [.output (utf8 (FileTree.pathTo m.directory ++ "\n"))], left := none }
  | "true" | "sleep" => some { left := none }
  | "false" => some { status := 1, left := none }
  | _ => none

/-- Runs a program that only reads and writes.  One that copies asks for its output before it
begins. -/
def run (m : Machine) (name : String) (ran : Ran) : Machine :=
  let unwritable (m : Machine) : Machine :=
    let about := if name = "cat" then "standard output" else "write error"
    m.put 2 (complaint name (utf8 about) "Bad file descriptor")
  if name = "cat" ∧ (m.streamOf? 1).isNone then (unwritable m).ended 1 else m.took unwritable ran

end Program

end ScriptWeave.Shell
