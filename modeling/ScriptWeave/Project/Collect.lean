/-
# Collecting the files of a project

There are two ways to a change set.

* **The whole project.**  The tree below the root is walked.  The walk stays out of the output
  directory and out of hidden and ignored directories, and it honours the ignore files of every
  directory it comes to and of those above the root, not only the one at the root.  Links are not
  followed.  Of what it finds, the files in the scope are collected.
* **Given paths.**  Each path that is no directory and is in the scope is added, if there is a file,
  and otherwise removed.  Links are followed.

**Whose rules count on the walk.**  Of the files named `.ignore`, the one nearest to an entry that
says anything about it decides; if none does, the same goes for those named `.gitignore`; and then
for the exclude files of repositories.  Rules of the two latter kinds do not reach into a repository
below.

**Obstacles.**  The walk ends at a directory that cannot be listed and at a file of the scope that
cannot be read: it may be barred, or its path may have become too long.  Then nothing is collected
at all.  Given paths end in an error at a file that cannot be read, too, and at a path about which
the scope gives no answer.  The walk comes to no such path, if the scope's root is a canonical path.
-/
import ScriptWeave.Batch.Changes
import ScriptWeave.Project.Scope

namespace ScriptWeave

namespace ProjectScope

open FilePath

/-! ## 1. Ignore files on the walk -/

/-- The first line of a file. -/
def firstLine? (tree : FileTree) (path : String) : Option String :=
  match tree.read path with
  | .error _ => none
  | .ok content =>
    if content.isEmpty then none
    else
      match content.toList.splitOn 0x0A with
      | [] => none
      | [line] => String.fromUTF8? (ByteArray.mk line.toArray)
      | line :: _ =>
        let line := if line.getLast? = some 0x0D then line.dropLast else line
        String.fromUTF8? (ByteArray.mk line.toArray)

/-- Where the repository of a directory keeps what its working trees share.  That is in `.git`,
unless `.git` is a file: then it names a directory, and a file in there names the place.  Relative
names start from the directory that the program is in. -/
def sharedDirectory? (tree : FileTree) (current directory : String) : Option String := do
  let git := join directory ".git"
  if !tree.isFile git then return git
  let line ← firstLine? tree git
  let own ← (line.dropPrefix? "gitdir: ").map fun rest => join current rest.toString
  let shared ← firstLine? tree (join own "commondir")
  return if shared.startsWith "." then join own shared else join current shared

/-- The ignore rules of a directory, for what is below it. -/
structure DirectoryRules where
  place : Location
  ignore : List Ignore.Rule
  gitignore : List Ignore.Rule
  exclude : List Ignore.Rule
  isRepository : Bool

/-- The rules of the directory at a location, for a program that is in the directory `current`. -/
def directoryRules (tree : FileTree) (current : String) (place : Location) : DirectoryRules :=
  let directory := FileTree.pathTo place
  { place
    ignore := rulesAt tree (join directory ".ignore")
    gitignore := rulesAt tree (join directory ProjectScope.gitignore)
    exclude := match sharedDirectory? tree current directory with
      | some shared => rulesAt tree (join shared "info/exclude")
      | none => []
    isRepository := (tree.nodeAt (join directory ".git")).isOk }

/-- The rules of a directory and of those above it, the nearest first. -/
def rulesUpward (tree : FileTree) (current : String) (place : Location) : List DirectoryRules :=
  (List.range (place.length + 1)).reverse.map fun n => directoryRules tree current (place.take n)

/-- What the rules of directories say about an entry, the nearest directory first. -/
def nearest (select : DirectoryRules → List Ignore.Rule) (place : Location) (isDirectory : Bool)
    (chain : List DirectoryRules) : Ignore.Verdict :=
  chain.foldl (fun v d => v.orElse fun _ =>
    if (select d).isEmpty then .silent
    else
      let name := String.intercalate "/" (place.drop d.place.length)
      Ignore.verdict (select d) name.toUTF8.toList isDirectory) .silent

/-- The directories up to the nearest one that is a repository, that one included. -/
def withinRepository : List DirectoryRules → List DirectoryRules
  | [] => []
  | d :: rest => if d.isRepository then [d] else d :: withinRepository rest

/-- What all ignore files together say about an entry, the nearest directory first. -/
def walkVerdict (chain : List DirectoryRules) (place : Location) (isDirectory : Bool) :
    Ignore.Verdict :=
  let own := withinRepository chain
  (nearest (·.ignore) place isDirectory chain).orElse fun _ =>
    (nearest (·.gitignore) place isDirectory own).orElse fun _ =>
      nearest (·.exclude) place isDirectory own

/-! ## 2. The walk -/

/-- The walk passes an entry by. -/
def skips (scope : ProjectScope) (chain : List DirectoryRules) (place : Location)
    (node : Node) : Bool :=
  let path := FileTree.pathTo place
  let verdict := walkVerdict chain place (node = .directory)
  let hidden := (place.getLast?.bind (·.toList.head?)) = some '.'
  startsWith (FilePath.components path.toList) (FilePath.components scope.outDir.toList)
    || verdict = .ignored || (hidden && verdict = .silent)

/-- The locations of the files that the walk finds in a directory, whose own entries are given. -/
def walk (scope : ProjectScope) (tree : FileTree) (current : String) (chain : List DirectoryRules)
    (place : Location) : FileTree → List (Location × ByteArray)
  | .nil => []
  | .cons name node inside rest =>
    let entry := place ++ [name]
    let found :=
      if scope.skips chain entry node then []
      else
        match node with
        | .file (.bytes content) => [(entry, content)]
        | .file (.barred _) => []
        | .directory =>
          walk scope tree current (directoryRules tree current entry :: chain) entry inside
        | .link _ => []
    found ++ walk scope tree current chain place rest

/-! ## 3. Change sets -/

/-- Every file of the scope, as one change set, for a program that is in the directory `current`. -/
def wholeProject (scope : ProjectScope) (tree : FileTree) (current : String) : Changes :=
  let place := (tree.canonical scope.root).toOption.getD []
  let found := walk scope tree current (rulesUpward tree current place) place (tree.inside place)
  { updated := SortedMap.ofList (found.filterMap fun (place, content) =>
      let path := FileTree.pathTo place
      if scope.excludes path then none
      else (scope.key? path).map fun key => (key, content)) }

/-- Why the files of a project cannot be collected. -/
inductive CollectError where
  /-- A directory cannot be listed. -/
  | list (directory : String) (cause : StorageError)
  /-- A file cannot be read. -/
  | read (cause : StorageError)

/-- The text of the error; the path of the directory is told twice. -/
def CollectError.message : CollectError → String
  | list directory cause =>
    directory ++ ": IO error for operation on " ++ directory ++ ": " ++ cause.message
  | read cause => cause.message

/-- The first obstacle that the walk meets in a directory, whose own entries are given. -/
def obstacle? (scope : ProjectScope) (tree : FileTree) (current : String)
    (chain : List DirectoryRules) (place : Location) : FileTree → Option CollectError
  | .nil => none
  | .cons name node inside rest =>
    let entry := place ++ [name]
    let path := FileTree.pathTo entry
    let met :=
      if scope.skips chain entry node then none
      else
        match node with
        | .file _ =>
          if scope.excludes path || (scope.key? path).isNone then none
          else
            match tree.read path with
            | .error cause => some (.read cause)
            | .ok _ => none
        | .directory =>
          match tree.nodeAt path with
          | .error cause => some (.list path cause)
          | .ok _ =>
            obstacle? scope tree current (directoryRules tree current entry :: chain) entry inside
        | .link _ => none
    met.or (obstacle? scope tree current chain place rest)

/-- Collects every file of the scope, unless the walk meets an obstacle. -/
def collect (scope : ProjectScope) (tree : FileTree) (current : String) :
    Except CollectError Changes :=
  match tree.canonical scope.root with
  | .error cause => .error (.list scope.root cause)
  | .ok place =>
    let chain := rulesUpward tree current place
    match obstacle? scope tree current chain place (tree.inside place) with
    | some e => .error e
    | none => .ok (scope.wholeProject tree current)

/-- Why there is no change set for given paths. -/
inductive ChangesError where
  /-- A file cannot be read. -/
  | read (cause : StorageError)
  /-- The ignore rules cannot be asked about a path.  The program breaks off. -/
  | astray (path : String)

/-- The text of the error. -/
def ChangesError.message : ChangesError → String
  | read cause => cause.message
  | astray _ => "path is expected to be under the root"

/-- The change set that given paths come to, and those before them. -/
def addChange (scope : ProjectScope) (tree : FileTree) (changes : Changes) (path : String) :
    Except ChangesError Changes :=
  if tree.isDirectory path then .ok changes
  else
    match scope.excludes? path with
    | none => .error (.astray path)
    | some true => .ok changes
    | some false =>
      match scope.key? path with
      | none => .ok changes
      | some key =>
        if tree.isFile path then
          match tree.read path with
          | .error cause => .error (.read cause)
          | .ok content => .ok { changes with updated := changes.updated.insert key content }
        else .ok { changes with removed := changes.removed.insert key () }

/-- The change set of paths that something happened to. -/
def changesOf (scope : ProjectScope) (tree : FileTree) (paths : List String) :
    Except ChangesError Changes :=
  paths.foldlM (scope.addChange tree) {}

end ProjectScope

end ScriptWeave
