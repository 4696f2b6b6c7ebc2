/-
# Paths

A path is text with slashes in it.  What it means is its row of *components*: repeated slashes count
once, a slash at the end counts for nothing, and neither does a dot, except at the very front of a
relative path.  Two dots are kept: what they lead to depends on the directories there are.

Paths are ordered component by component: the root before a leading dot, that before two dots,
and those before every name.
-/

namespace ScriptWeave.FilePath

/-! ## 1. Components -/

/-- A component of a path. -/
inductive Component where
  | root
  | here
  | up
  | name (text : String)
  deriving DecidableEq

namespace Component

/-- The text of a component. -/
def text : Component → String
  | root => "/"
  | here => "."
  | up => ".."
  | name t => t

/-- Where a component stands among those of other kinds. -/
def rank : Component → Nat
  | root => 0
  | here => 1
  | up => 2
  | name _ => 3

/-- One component comes before another. -/
def before (a b : Component) : Bool :=
  a.rank < b.rank || (a.rank == b.rank && decide (a.text < b.text))

end Component

/-- The component that a piece between slashes is, if it is one. -/
def componentOf (piece : List Char) : Option Component :=
  if piece = [] ∨ piece = ['.'] then none
  else if piece = ['.', '.'] then some .up
  else some (.name (String.ofList piece))

/-- The components of a path. -/
def components (path : List Char) : List Component :=
  let pieces := path.splitOn '/'
  let front : List Component :=
    match path with
    | '/' :: _ => [.root]
    | _ => if pieces.head? = some ['.'] then [.here] else []
  front ++ pieces.filterMap componentOf

/-- The path begins at the root. -/
def isAbsolute (path : String) : Bool := path.toList.head? == some '/'

/-- One row of components comes before another. -/
def listBefore : List Component → List Component → Bool
  | _, [] => false
  | [], _ :: _ => true
  | a :: as, b :: bs => a.before b || (a == b && listBefore as bs)

/-- A path followed from another one: an absolute path stands for itself. -/
def join (base path : String) : String :=
  if isAbsolute path then path
  else if base = "" then path
  else if base.toList.getLast? = some '/' then base ++ path
  else base ++ "/" ++ path

/-! ## 2. Extensions -/

/-- The last component, if it is a name. -/
def fileName? (path : List Char) : Option (List Char) :=
  match (components path).getLast? with
  | some (.name text) => some text.toList
  | _ => none

/-- What stands behind the last dot of a name, unless nothing stands before it. -/
def extensionOf (name : List Char) : Option (List Char) :=
  let pieces := name.splitOn '.'
  match pieces.getLast?, pieces.dropLast with
  | some _, [] => none
  | some _, [[]] => none
  | extension, _ => extension

/-- The extension of a path. -/
def extension? (path : List Char) : Option (List Char) := (fileName? path).bind extensionOf

end ScriptWeave.FilePath
