/-
# The configuration of a build

A project is configured by one TOML file, in which everything is optional:

    dialect_marker = "text/jsx"
    runtime_marker = "text/javascript"
    feature_flag = "react"
    markup_extensions = ["html", "htm"]
    script_extensions = ["js", "jsx"]

    [compiler]
    command = "node scripts/compile.js"

    [args]
    whitelist = ["es6.arrowFunctions"]
    moduleId = "app"

Keys that mean nothing are passed by; a key of the wrong kind makes the file unreadable.  The
`compiler` section may also be written as an array of its one field.
-/
import ScriptWeave.BuildError
import ScriptWeave.Options.Layer
import ScriptWeave.Project.Routes
import ScriptWeave.Toml.Document

namespace ScriptWeave

/-- The configuration of a build. -/
structure BuildConfig where
  /-- What marks an embedded block in the value of its `type`. -/
  dialectMarker : String := "text/jsx"
  /-- What is written in place of the dialect marker. -/
  runtimeMarker : String := "text/javascript"
  /-- The feature that every compile call enables. -/
  featureFlag : String := "react"
  markupExtensions : List String := ["html", "htm"]
  scriptExtensions : List String := ["js", "jsx"]
  /-- The command that compiles. -/
  command : Option String := none
  /-- The options of every compile call. -/
  args : OptionLayer := {}

namespace BuildConfig

/-- The routes that the lists of extensions come to. -/
def routes (config : BuildConfig) : Routes :=
  Routes.ofExtensions config.markupExtensions config.scriptExtensions

/-! ## Reading -/

open Toml (Entries lookup)

/-- A text, or a value of its own if the key is missing. -/
def readText? (missing : String) : Option Toml → Option String
  | none => some missing
  | some v => v.text?

/-- A list of texts, or a value of its own if the key is missing. -/
def readTexts? (missing : List String) : Option Toml → Option (List String)
  | none => some missing
  | some v => v.texts?

/-- The command in the entries of a `compiler` section. -/
def readCommandEntry? (entries : Entries) : Option (Option String) :=
  if entries.all (fun e => e.1 = "command" || e.2.isSkippable) then
    match lookup "command" entries with
    | none => some none
    | some v => v.text?.map some
  else none

/-- The command in a `compiler` section.  A date is a section without one. -/
def readCommand? : Option Toml → Option (Option String)
  | none => some none
  | some (.table _ entries) => readCommandEntry? entries
  | some (.datetime _) => some none
  | some (.array []) => some none
  | some (.array (v :: _)) => v.text?.map some
  | some _ => none

/-- The options in an `args` section. -/
def readArgs? : Option Toml → Option OptionLayer
  | none => some {}
  | some v => v.toJson?.bind OptionLayer.ofJson?

/-- The keys that mean something. -/
def keys : List String :=
  ["dialect_marker", "runtime_marker", "feature_flag", "markup_extensions", "script_extensions",
    "compiler", "args"]

/-- The configuration that the entries of a document describe. -/
def ofEntries? (entries : Entries) : Option BuildConfig := do
  let missing : BuildConfig := {}
  if entries.any (fun e => e.1 ∉ keys && !e.2.isSkippable) then none
  return {
    dialectMarker := ← readText? missing.dialectMarker (lookup "dialect_marker" entries)
    runtimeMarker := ← readText? missing.runtimeMarker (lookup "runtime_marker" entries)
    featureFlag := ← readText? missing.featureFlag (lookup "feature_flag" entries)
    markupExtensions :=
      ← readTexts? missing.markupExtensions (lookup "markup_extensions" entries)
    scriptExtensions :=
      ← readTexts? missing.scriptExtensions (lookup "script_extensions" entries)
    command := ← readCommand? (lookup "compiler" entries)
    args := ← readArgs? (lookup "args" entries) }

/-- The configuration that a TOML document describes. -/
def parse (document : String) : Except BuildError BuildConfig :=
  match (Toml.read? document).bind ofEntries? with
  | some config => .ok config
  | none => .error .configSyntax

end BuildConfig

end ScriptWeave
