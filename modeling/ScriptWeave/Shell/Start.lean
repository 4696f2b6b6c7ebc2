/-
# Starting commands

A command is started in a directory, with variables and an input, and a fresh shell runs it.  Before
that, three things can go wrong, in this order: a zero byte in what it is given, a directory
that is none, and an argument or a variable that is too long for a process to be handed.
-/
import ScriptWeave.Compile.Command
import ScriptWeave.Shell.Run

namespace ScriptWeave.Shell

/-- How many bytes an argument or a variable may have, with the zero byte that ends it. -/
def argumentLimit : Nat := 131072

/-- How many steps a command may take. -/
def stepLimit : Nat := 200000

/-- The strings that a shell is handed when it is started on a call. -/
def strings (call : CommandCall) : List String :=
  call.command :: call.environment.map fun v => v.1 ++ "=" ++ v.2

/-- The place of the directory that a call names. -/
def placeOf (tree : FileTree) (call : CommandCall) : Except StorageError Location := do
  match ← tree.lookUp call.directory with
  | (place, .directory) => .ok place
  | _ => .error .notADirectory

/-- A shell that is about to run something. -/
def Machine.fresh (tree : FileTree) (directory : Location) (environment : List (String × String))
    (input : Bytes) : Machine :=
  let m : Machine :=
    { name := utf8 "sh", values := [], directory, tree
      streams := #[.source input none, .sink [], .sink []] }
  m.withValues (environment.map fun v => (v.1, { value := some (utf8 v.2), exported := true }))

/-- Runs a command in a shell to its end: the shell afterwards, and the status of its process; none
if it was killed. -/
def runCommand (start : Machine) (command : String) : Machine × Option Nat :=
  let text := charsOf (utf8 command)
  let body : Act Unit := do
    let _ ← Run.runText stepLimit text
  match (Run.conclude stepLimit body).run start with
  | (.ok none, m) => (m, some m.status)
  | (_, m) => (m, none)

/-- Starts a shell on a call and waits for its end. -/
def start : CommandRunner := fun tree call =>
  if (call.directory :: strings call).any fun s => s.toList.contains '\x00' then
    (tree, .error .nulByte)
  else
    match placeOf tree call with
    | .error cause => (tree, .error (.directory cause))
    | .ok place =>
      if (strings call).any fun s => argumentLimit ≤ s.utf8ByteSize then
        (tree, .error .argumentTooLong)
      else
        let (m, status) :=
          runCommand (.fresh tree place call.environment call.input.toList) call.command
        (m.tree, .ok {
          status
          output := ByteArray.mk (m.written 1).toArray
          errors := ByteArray.mk (m.written 2).toArray
          input := .written })

end ScriptWeave.Shell
