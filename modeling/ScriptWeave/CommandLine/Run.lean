/-
# Running the program

The arguments are read, and the command that they ask for is run.  The status is 0 if all went well,
1 if no command was given, and 2 if the arguments were not understood or the command failed.
-/
import ScriptWeave.CommandLine.Build
import ScriptWeave.CommandLine.Init

namespace ScriptWeave.CommandLine

/-- Runs what arguments ask for. -/
def perform (setting : Setting) (invocation : Invocation) : Finish :=
  match invocation.command with
  | some .init => init setting invocation
  | some (.build outDir _) => build setting invocation outDir
  | none => { tree := setting.tree, exitCode := 1, notices := [.complaint .noCommand] }

end ScriptWeave.CommandLine
