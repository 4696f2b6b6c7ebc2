/-
# Where a path leads

A path is a row of *pieces* between slashes.  It is walked piece by piece: a dot stays where it is,
two dots go up, a link sends the walk along the path that it holds, and every other name must be
that of a directory, except the last.  So a path leads to an entry of a directory, which need not
exist yet, or, when it ends in a dot, in two dots or at the top, to a directory itself.

A link at the end is followed or not, as the operation needs it.  A slash at the end is kept in
mind: it asks for a directory, but what comes of it depends on the operation.
-/
import ScriptWeave.BuildError
import ScriptWeave.FilePath
import ScriptWeave.FileTree.Basic

namespace ScriptWeave.FileTree

/-! ## 1. Limits -/

/-- How many links may be followed on one path. -/
def linkLimit : Nat := 40

/-- How many bytes a name may have. -/
def nameLimit : Nat := 255

/-- How many bytes a path may have. -/
def pathLimit : Nat := 4095

/-! ## 2. Walking -/

/-- The pieces of a path. -/
def piecesOf (path : String) : List String :=
  ((path.toList.splitOn '/').filter (· ≠ [])).map String.ofList

/-- The path ends in a slash. -/
def endsInSlash (path : String) : Bool := path.toList.getLast? = some '/'

/-- The directories that lead to one, the nearest first, each with its name and what it holds. -/
abbrev Trail := List (String × FileTree)

/-- What the directory at the end of a trail holds. -/
def Trail.holds (top : FileTree) : Trail → FileTree
  | [] => top
  | (_, inside) :: _ => inside

/-- Where a path leads: to an entry of a directory, or to the directory itself. -/
structure Destination where
  trail : Trail
  name? : Option String
  /-- A slash stands behind the last name. -/
  slash : Bool

/-- What is done about a link that a path ends in. -/
inductive LastLink where
  | kept
  | followed
  | followedWithoutSlash
  deriving DecidableEq

/-- A link at the end of a path is followed. -/
def LastLink.follows (last : LastLink) (slash : Bool) : Bool :=
  match last with
  | kept => false
  | followed => true
  | followedWithoutSlash => !slash

/-- Walks along pieces of a path. -/
def follow (top : FileTree) (last : LastLink) (links : Nat) (trail : Trail) (pieces : List String)
    (slash : Bool) : Except StorageError Destination :=
  match pieces with
  | [] => .ok ⟨trail, none, slash⟩
  | piece :: rest =>
    if piece = "." then follow top last links trail rest slash
    else if piece = ".." then follow top last links trail.tail rest slash
    else if rest ≠ [] ∧ nameLimit < piece.utf8ByteSize then .error .nameTooLong
    else
      match (trail.holds top).find? piece with
      | none => if rest = [] then .ok ⟨trail, some piece, slash⟩ else .error .notFound
      | some (.file _, _) =>
        if rest = [] then .ok ⟨trail, some piece, slash⟩ else .error .notADirectory
      | some (.directory, inside) =>
        if rest = [] then .ok ⟨trail, some piece, slash⟩
        else follow top last links ((piece, inside) :: trail) rest slash
      | some (.link target, _) =>
        if rest = [] ∧ !last.follows slash then .ok ⟨trail, some piece, slash⟩
        else
          match links with
          | 0 => .error .linkLoop
          | links + 1 =>
            let trail := if FilePath.isAbsolute target then [] else trail
            let slash := slash || (rest = [] && endsInSlash target)
            follow top last links trail (piecesOf target ++ rest) slash
termination_by (links, pieces.length)

/-- Where a path leads, seen from the top. -/
def reach (tree : FileTree) (last : LastLink) (path : String) : Except StorageError Destination :=
  if path.toList.contains '\x00' then .error .nulInPath
  else if path.isEmpty then .error .notFound
  else if pathLimit < path.utf8ByteSize then .error .nameTooLong
  else tree.follow last linkLimit [] (piecesOf path) (endsInSlash path)

/-- The location of a destination. -/
def Destination.place (d : Destination) : Location :=
  (d.trail.map (·.1)).reverse ++ d.name?.toList

/-- The node at a destination, if there is one. -/
def Destination.node? (top : FileTree) (d : Destination) : Except StorageError (Option Node) :=
  match d.name? with
  | none => .ok (some .directory)
  | some name =>
    if nameLimit < name.utf8ByteSize then .error .nameTooLong
    else .ok (((d.trail.holds top).find? name).map (·.1))

/-! ## 3. What is there -/

/-- The location of what a path leads to, links followed, and the node there. -/
def lookUp (tree : FileTree) (path : String) : Except StorageError (Location × Node) := do
  let d ← tree.reach .followed path
  match ← d.node? tree with
  | none => .error .notFound
  | some node => if d.slash ∧ node ≠ .directory then .error .notADirectory else .ok (d.place, node)

/-- The node that a path leads to, links followed. -/
def nodeAt (tree : FileTree) (path : String) : Except StorageError Node :=
  (tree.lookUp path).map (·.2)

/-- The location of what a path leads to, links followed. -/
def canonical (tree : FileTree) (path : String) : Except StorageError Location :=
  (tree.lookUp path).map (·.1)

/-- The node that a path leads to; a link at its end is not followed unless a slash is behind it. -/
def entryAt (tree : FileTree) (path : String) : Except StorageError Node := do
  if endsInSlash path then tree.nodeAt path
  else
    let d ← tree.reach .kept path
    match ← d.node? tree with
    | none => .error .notFound
    | some node => .ok node

/-- The path leads to a file. -/
def isFile (tree : FileTree) (path : String) : Bool :=
  match tree.nodeAt path with
  | .ok (.file _) => true
  | _ => false

/-- The path leads to a directory. -/
def isDirectory (tree : FileTree) (path : String) : Bool :=
  match tree.nodeAt path with
  | .ok .directory => true
  | _ => false

end ScriptWeave.FileTree
