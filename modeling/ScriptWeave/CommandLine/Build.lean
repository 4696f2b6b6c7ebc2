/-
# The command `build`

A build first settles everything that can be settled without compiling: the root, the configuration,
the command, the marker, the scope.  This is its *plan*.  Then all files of the scope are collected
and run as one batch, and the output of the batch is written, if no file failed.

Nothing is written before the whole batch is done.  So a build that fails before it writes leaves
every file as it was, except for what the compiler's command may have done.
-/
import ScriptWeave.CommandLine.Finish
import ScriptWeave.Project.Collect
import ScriptWeave.Project.Output

namespace ScriptWeave.CommandLine

/-- What a build is made with. -/
structure Plan where
  config : BuildConfig
  compiler : ExternalCompiler
  builder : Builder
  scope : ProjectScope

/-- Settles how to build the project at a root into a directory, which may be given relative to
the root. -/
def Plan.make (setting : Setting) (path : Option String) (outDir : String) :
    Except Complaint Plan := do
  let given := FilePath.join setting.directory (path.getD ".")
  let place ← (setting.tree.canonical given).mapError .storage
  let root := FileTree.pathTo place
  let config := ((← (BuildConfig.load setting.tree root).mapError .build)).getD {}
  match config.command with
  | none => .error (.build .missingCommand)
  | some command =>
    let compiler : ExternalCompiler := ⟨command, root⟩
    let compile := compiler.compiler setting.runner setting.tree
    let builder ← (Builder.ofConfig compile setting.accepts config).mapError .build
    return {
      config, compiler, builder
      scope := ProjectScope.ofTree setting.tree root (FilePath.join root outDir) }

/-- The line that tells how large a batch is. -/
def batchLine (changes : Changes) : LogLine where
  level := .debug
  message := "running batch"
  fields := [("changed", .count changes.updated.size), ("removed", .count changes.removed.size)]

/-- The line that tells what was written. -/
def summaryLine (coloured : Bool) (summary : WriteCounts) (outDir : String) : String :=
  let counts := "Wrote " ++ toString summary.written ++ " file(s), removed "
    ++ toString summary.removed ++ " file(s)"
  Colour.green coloured counts ++ " in " ++ outDir ++ "\n"

/-- Runs a change set as one batch, on the files as they are now, and writes its output. -/
def Plan.runBatch (plan : Plan) (setting : Setting) (invocation : Invocation) (changes : Changes) :
    Finish :=
  let compile := plan.compiler.compiler setting.runner setting.tree
  let builder := { plan.builder with compiler := compile }
  let result := builder.run changes ∅ (some plan.config.args) []
  let lines := batchLine changes :: result.events.map (LogLine.ofEvent setting.elapsed)
  let notices := (lines.filter (LogLine.isLogged invocation.verbose)).map Notice.log
  let tree := plan.compiler.treeAfter setting.runner setting.tree result.requests
  match result.failure with
  | some failure =>
    { tree, exitCode := 2, notices := notices ++ [.complaint (.build failure.error)] }
  | none =>
    match result.output.write plan.scope.outDir tree with
    | (tree, .error cause) =>
      { tree, exitCode := 2, notices := notices ++ [.complaint (.storage cause)] }
    | (tree, .ok summary) =>
      { tree, exitCode := 0, notices
        output := summaryLine (setting.coloured invocation) summary plan.scope.outDir }

/-- Runs `build`. -/
def build (setting : Setting) (invocation : Invocation) (outDir : String) : Finish :=
  match Plan.make setting invocation.path outDir with
  | .error c => setting.fail c
  | .ok plan =>
    match plan.scope.collect setting.tree setting.directory with
    | .error cause => setting.fail (.collect cause)
    | .ok changes => plan.runBatch setting invocation changes

/-! ## Watching -/

/-- What is printed when a build goes on to watch. -/
def watchingLine : String := "\nWatching for file changes... (press Ctrl+C to stop)\n"

/-- Builds again what happened to some paths.  Nothing is run, and nothing printed, if none of them
belongs to the build. -/
def Plan.rebuild (plan : Plan) (setting : Setting) (invocation : Invocation) (paths : List String) :
    Finish :=
  match plan.scope.changesOf setting.tree paths with
  | .error (.read cause) => setting.fail (.storage cause)
  | .error (.astray path) =>
    setting.breakOff (ProjectScope.ChangesError.astray path).message
  | .ok changes =>
    if changes.isEmpty then { tree := setting.tree, exitCode := 0 }
    else
      let finish := plan.runBatch setting invocation changes
      { finish with output := "\nFile change detected, rebuilding...\n" ++ finish.output }

end ScriptWeave.CommandLine
