/-
# The command `init`

Puts a sample configuration into the root of a project, unless there is a configuration already.
Paths are shown as the root was given, so that a relative root gives relative paths.
-/
import ScriptWeave.CommandLine.Finish
import ScriptWeave.Project.Scope

namespace ScriptWeave.CommandLine

/-- The configuration that a project starts with. -/
def starterConfig : String :=
  String.intercalate "\n" [
    "# jsxpipe configuration",
    "",
    "[compiler]",
    "# Shell command run once per script file or embedded block.",
    "# The source is written to stdin and the compile options are",
    "# available as JSON in $JSXPIPE_OPTIONS.",
    "# Print the compiled code, or `\x7b\"code\": ..., \"map\": ...\x7d`, to stdout.",
    "command = \"npx babel --presets @babel/preset-react\"",
    "",
    "# dialect_marker = \"text/jsx\"",
    "# runtime_marker = \"text/javascript\"",
    "# markup_extensions = [\"html\", \"htm\"]",
    "# script_extensions = [\"js\", \"jsx\"]",
    "",
    "# Options forwarded to every compile call.",
    "# [args]",
    "# whitelist = [\"es6.arrowFunctions\"]",
    ""]

/-- The name of the configuration file that is made. -/
def configName : String := "jsxpipe.toml"

/-- What is printed when a configuration was made. -/
def nextSteps (configFile : String) : String :=
  String.intercalate "\n" [
    "Created jsxpipe.toml",
    "",
    "Next steps:",
    "  1. Set the compiler command in " ++ configFile,
    "  2. Run `jsxpipe build` to compile the project into dist/",
    ""]

/-- The configuration that a root has already, as it is shown. -/
def existingConfig (setting : Setting) (root : String) : Option String :=
  (BuildConfig.candidates.map (FilePath.join root)).find? fun path =>
    setting.tree.isFile (FilePath.join setting.directory path)

/-- Runs `init`. -/
def init (setting : Setting) (invocation : Invocation) : Finish :=
  let root := invocation.path.getD setting.directory
  match existingConfig setting root with
  | some path =>
    { tree := setting.tree, exitCode := 0
      output := "Config file already exists: " ++ path ++ "\n" }
  | none =>
    let configFile := FilePath.join root configName
    match setting.tree.write (FilePath.join setting.directory configFile) starterConfig.toUTF8 with
    | .ok tree => { tree, exitCode := 0, output := nextSteps configFile }
    | .error cause => setting.fail (.storage cause)

end ScriptWeave.CommandLine
