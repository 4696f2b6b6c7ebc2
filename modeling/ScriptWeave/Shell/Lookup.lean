/-
# What the name of a command stands for

A name without a slash is that of a special command of the shell, of a function, of another command
of the shell, or of a program in one of the directories that `PATH` lists, and in this order.  A
name with a slash is a path.

No file in a file tree is a program, so a path that leads to one is there and cannot be run.
-/
import ScriptWeave.Shell.Machine
import ScriptWeave.Shell.Reader

namespace ScriptWeave.Shell

/-- What the name of a command stands for. -/
inductive Meaning where
  /-- A command of the shell itself. -/
  | builtin (isSpecial : Bool)
  | function (body : Command)
  | program (name : String) (path : Bytes)
  /-- Something that cannot be run; the status says how it was found. -/
  | denied (status : Nat)
  | missing

/-- The commands of the shell that are not special. -/
def plainBuiltins : List String :=
  ["[", "alias", "bg", "cd", "chdir", "command", "echo", "false", "fg", "getopts", "hash", "jobs",
    "kill", "printf", "pwd", "read", "test", "true", "type", "ulimit", "umask", "unalias", "wait"]

/-- The commands whose arguments can be assignments. -/
def assigningBuiltins : List String := ["alias", "export", "local", "readonly"]

namespace Machine

/-- The directories that `PATH` lists, each with the sign that stands before a name in it. -/
def searchPath (m : Machine) : List Bytes :=
  match m.valueOf? "PATH" with
  | none => []
  | some path => (path.splitOn 0x3A).map fun d => if d.isEmpty then d else d ++ [0x2F]

/-- Looks for a program in directories. -/
def findProgram (m : Machine) (name : Bytes) : List Bytes → Meaning
  | [] => .missing
  | directory :: rest =>
    let path := directory ++ name
    match programAt? (m.path path) with
    | some program => .program program path
    | none =>
      match m.nodeAt path, m.findProgram name rest with
      | .ok (.file _), .missing => .denied 127
      | _, found => found

/-- What a name stands for if no function is meant. -/
def commandMeaning (m : Machine) (name : Bytes) : Meaning :=
  let text := nameOf name
  if Reader.specialNames.contains text then .builtin true
  else if plainBuiltins.contains text then .builtin false
  else if name.isEmpty then .denied 126
  else if name.contains 0x2F then
    match programAt? (m.path name) with
    | some program => .program program name
    | none => if (m.nodeAt name).isOk then .denied 126 else .missing
  else m.findProgram name m.searchPath

/-- What a name stands for. -/
def meaning (m : Machine) (name : Bytes) : Meaning :=
  match m.functions.lookup (nameOf name), m.commandMeaning name with
  | some body, .builtin false | some body, .program .. | some body, .denied _
  | some body, .missing => .function body
  | _, meaning => meaning

/-- A text as a shell would read it back as one word: quotation marks stand between the other kind.
-/
def shellQuoted (s : Bytes) : Bytes :=
  let isMark (c : UInt8) : Bool := c = 0x27
  let runs := s.splitBy fun a b => isMark a == isMark b
  let shown := runs.flatMap fun run =>
    let mark : UInt8 := if run.any isMark then 0x22 else 0x27
    mark :: run ++ [mark]
  if s.head?.all isMark then 0x27 :: 0x27 :: shown else shown

/-- An alias as it could be read back. -/
def shownAlias (name : String) (text : List Char) : Bytes :=
  utf8 (name ++ "=") ++ shellQuoted (bytesOf text)

/-- What a name stands for, in a line of its own; none if it stands for nothing. -/
def describe (m : Machine) (isBrief : Bool) (name : Bytes) : Option Bytes :=
  let text := nameOf name
  let line (rest : String) : Option Bytes :=
    some ((if isBrief then name else name ++ utf8 rest) ++ [0x0A])
  if Reader.keywords.contains text then line " is a shell keyword"
  else
    match m.aliases.lookup text with
    | some other =>
      if isBrief then some (utf8 "alias " ++ shownAlias text other ++ [0x0A])
      else some (name ++ utf8 " is an alias for " ++ bytesOf other ++ [0x0A])
    | none =>
      match m.meaning name with
      | .builtin true => line " is a special shell builtin"
      | .builtin false => line " is a shell builtin"
      | .function _ => line " is a shell function"
      | .program _ path =>
        let isTracked := (m.located.lookup text).isSome
        some (if isBrief then path ++ [0x0A]
          else name ++ utf8 (if isTracked then " is a tracked alias for " else " is ") ++ path
            ++ [0x0A])
      | .denied 126 =>
        if name.isEmpty then none
        else some (if isBrief then name ++ [0x0A] else name ++ utf8 " is " ++ name ++ [0x0A])
      | _ => none

end Machine

/-- The row of a name in a table of some size, which is the order in which such a table is shown. -/
def tableRow (size : Nat) (name : String) : Nat :=
  let codes := (utf8 name).map UInt8.toNat
  (codes.headD 0 * 16 + codes.foldl (· + ·) 0) % Nat.pow 2 15 % size

/-- The entries of a table of some size, in the order in which they are shown. -/
def tableOrder {α : Type} (size : Nat) (entries : List (String × α)) : List (String × α) :=
  entries.mergeSort fun a b => decide (tableRow size a.1 ≤ tableRow size b.1)

end ScriptWeave.Shell
