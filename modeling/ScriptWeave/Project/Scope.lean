/-
# What belongs to a project

A build reads the files below a project's root, but not all of them.  A *scope* says which: not the
output directory, not the configuration file, nothing hidden, and nothing that the project's own
ignore file ignores.  The configuration file and the ignore rules are looked up once, when the
scope is made.

Paths are compared component by component and as they are written; no link is followed and no `..`
is resolved.  A path that is not below the root is excluded, and so is one with a component that
starts with a dot, `..` included.  Only the ignore rules look at the text of a path.  They cannot be
asked about every one that has the components of a path below the root, and the scope gives no
answer then.

**Stated here.**  An excluded path stays excluded whatever is put behind it, as far as the output
directory goes (`startsWith_append`).
-/
import ScriptWeave.Project.Config
import ScriptWeave.FileTree.Operations
import ScriptWeave.Ignore.Rules

namespace ScriptWeave

/-! ## 1. Finding the configuration -/

namespace BuildConfig

/-- Where a configuration file may be, the first place first. -/
def candidates : List String := ["jsxpipe.toml", ".jsxpipe.toml", ".config/jsxpipe.toml"]

/-- The configuration file of a project: the first candidate that is a file. -/
def discover (tree : FileTree) (root : String) : Option String :=
  (candidates.map (FilePath.join root)).find? tree.isFile

/-- The configuration of a project, if it has a configuration file. -/
def load (tree : FileTree) (root : String) : Except BuildError (Option BuildConfig) :=
  match discover tree root with
  | none => .ok none
  | some path =>
    match tree.readText path with
    | .error cause => .error (.storage cause)
    | .ok document => (parse document).map some

end BuildConfig

/-! ## 2. The scope -/

/-- Which paths belong to a build. -/
structure ProjectScope where
  root : String
  outDir : String
  configFile : Option String
  rules : List Ignore.Rule

namespace ProjectScope

open FilePath

/-- The name of an ignore file. -/
def gitignore : String := ".gitignore"

/-- The rules of an ignore file; none if it cannot be read. -/
def rulesAt (tree : FileTree) (path : String) : List Ignore.Rule :=
  match tree.read path with
  | .ok content => Ignore.rulesOf content
  | .error _ => []

/-- The scope of a project as it is now. -/
def ofTree (tree : FileTree) (root outDir : String) : ProjectScope where
  root := root
  outDir := outDir
  configFile := BuildConfig.discover tree root
  rules := rulesAt tree (join root gitignore)

/-- The components of one path with those of another in front. -/
def startsWith (path front : List Component) : Bool := front.isPrefixOf path

/-- The components of a path below another one. -/
def relative? (root path : String) : Option (List Component) :=
  let front := components root.toList
  let all := components path.toList
  if startsWith all front then some (all.drop front.length) else none

/-- The name of a path in a change set: relative to the root, with slashes between its parts.  The
root itself has none. -/
def key? (scope : ProjectScope) (path : String) : Option String :=
  match relative? scope.root path with
  | none | some [] => none
  | some parts => some (String.intercalate "/" (parts.map (·.text)))

/-- A component that starts with a dot. -/
def isHidden (c : Component) : Bool := c.text.toList.head? = some '.'

/-- Whether a path does not belong to the build.  There is no answer where the ignore rules are to
give it and cannot be asked. -/
def excludes? (scope : ProjectScope) (path : String) : Option Bool :=
  let all := components path.toList
  if startsWith all (components scope.outDir.toList)
      || scope.configFile.any (fun p => components p.toList = all) then some true
  else
    match relative? scope.root path with
    | none => some true
    | some parts =>
      if parts.any isHidden then some true
      else
        (Ignore.verdict? scope.rules (join scope.root gitignore).toList path.toList).map fun v =>
          decide (v = .ignored)

/-- The path does not belong to the build, or there is no telling. -/
def excludes (scope : ProjectScope) (path : String) : Bool := (scope.excludes? path).getD true

theorem excludes_eq_false_iff {scope : ProjectScope} {path : String} :
    scope.excludes path = false ↔ scope.excludes? path = some false := by
  rw [excludes]
  cases scope.excludes? path <;> simp

/-- What is below the output directory stays below it, however far down. -/
theorem startsWith_append {path front more : List Component} (h : startsWith path front = true) :
    startsWith (path ++ more) front = true := by
  simp only [startsWith, List.isPrefixOf_iff_prefix] at h ⊢
  exact h.trans (List.prefix_append _ _)

end ProjectScope

end ScriptWeave
