/-
# Reading and changing a file tree

The operations that a build and its surroundings need, each with the errors it can end in.  A change
yields the changed tree; where an operation makes several changes and fails in between, what was
done before stays done.

* A file is written through a link, also through one that leads nowhere yet.
* A link is removed itself, never what it leads to.
* A file that is barred is neither read nor written, but it is removed.
* A path that ends in a slash is never written as a file.
-/
import ScriptWeave.FileTree.Locate

namespace ScriptWeave.FileTree

/-! ## 1. Reading -/

/-- The bytes of a file. -/
def read (tree : FileTree) (path : String) : Except StorageError ByteArray := do
  match ← tree.nodeAt path with
  | .file (.bytes content) => .ok content
  | .file (.barred cause) => .error cause
  | _ => .error .isADirectory

/-- The text of a file. -/
def readText (tree : FileTree) (path : String) : Except StorageError String := do
  match String.fromUTF8? (← tree.read path) with
  | some text => .ok text
  | none => .error .notUtf8

/-- The nodes in a directory, by name. -/
def children (tree : FileTree) (place : Location) : List (String × Node) :=
  (tree.inside place).entries

/-- The locations below a location, relative to it, each with its node. -/
def nodesBelow (tree : FileTree) (place : Location) : List (Location × Node) :=
  (tree.inside place).nodes

/-! ## 2. Files -/

/-- The location at which a file is written. -/
def placeToWrite (tree : FileTree) (path : String) : Except StorageError Location := do
  let d ← tree.reach .followedWithoutSlash path
  if d.slash then .error .isADirectory
  else
    match ← d.node? tree with
    | some .directory => .error .isADirectory
    | _ => .ok d.place

/-- Writes a file, in place of what it held before. -/
def write (tree : FileTree) (path : String) (content : ByteArray) :
    Except StorageError FileTree := do
  let place ← tree.placeToWrite path
  match tree.barrier? place with
  | some cause => .error cause
  | none => .ok (tree.putFile place content)

/-- Removes a file or a link. -/
def removeFile (tree : FileTree) (path : String) : Except StorageError FileTree := do
  let d ← tree.reach .kept path
  match ← d.node? tree with
  | none => .error .notFound
  | some .directory => .error .isADirectory
  | some _ => if d.slash then .error .notADirectory else .ok (tree.remove d.place)

/-- Removes a file, a link, or a directory with all that is in it. -/
def removeAll (tree : FileTree) (path : String) : Except StorageError FileTree := do
  let d ← tree.reach .kept path
  match ← d.node? tree with
  | none => .error .notFound
  | some node =>
    if d.slash ∧ node ≠ .directory then .error .notADirectory else .ok (tree.remove d.place)

/-- Makes a link. -/
def makeLink (tree : FileTree) (path target : String) : Except StorageError FileTree := do
  if target.toList.contains '\x00' then .error .nulInPath
  else if target.isEmpty then .error .notFound
  else if pathLimit < target.utf8ByteSize then .error .nameTooLong
  else
    let d ← tree.reach .kept path
    match ← d.node? tree with
    | some _ => .error .alreadyExists
    | none => if d.slash then .error .notFound else .ok (tree.put d.place (.link target))

/-! ## 3. Directories -/

/-- Makes a directory in one that exists. -/
def makeDirectory (tree : FileTree) (path : String) : Except StorageError FileTree := do
  let d ← tree.reach .kept path
  match ← d.node? tree with
  | some _ => .error .alreadyExists
  | none => .ok (tree.put d.place .directory)

/-- The path without its last component. -/
def parent? (path : String) : Option String :=
  match (FilePath.components path.toList).reverse with
  | [] | [.root] => none
  | _ :: rest =>
    match rest.reverse with
    | .root :: names => some ("/" ++ String.intercalate "/" (names.map (·.text)))
    | names => some (String.intercalate "/" (names.map (·.text)))

/-- Makes a directory where there may be one already. -/
def ensureDirectory (tree : FileTree) (path : String) : Except StorageError FileTree :=
  match tree.makeDirectory path with
  | .ok tree => .ok tree
  | .error e => if tree.isDirectory path then .ok tree else .error e

/-- Makes a directory and, as far as they are missing, the directories above it, given how many
there can be.  The empty path asks for none.  The tree is also the one that a failure leaves
behind. -/
def makeDirectoriesWithin : Nat → FileTree → String → FileTree × Except StorageError Unit
  | 0, tree, _ => (tree, .error .notFound)
  | n + 1, tree, path =>
    if path = "" then (tree, .ok ())
    else
      match tree.makeDirectory path with
      | .ok tree => (tree, .ok ())
      | .error .notFound =>
        match parent? path with
        | none => (tree, .error .notFound)
        | some parent =>
          match makeDirectoriesWithin n tree parent with
          | (tree, .error e) => (tree, .error e)
          | (tree, .ok ()) =>
            match tree.ensureDirectory path with
            | .ok tree => (tree, .ok ())
            | .error e => (tree, .error e)
      | .error e => (tree, if tree.isDirectory path then .ok () else .error e)

/-- Makes a directory and the directories above it, as far as they are missing. -/
def makeDirectories (tree : FileTree) (path : String) : FileTree × Except StorageError Unit :=
  makeDirectoriesWithin (path.length + 1) tree path

/-- Writes a file, making the directories above it as far as they are missing. -/
def writeDeep (tree : FileTree) (path : String) (content : ByteArray) :
    FileTree × Except StorageError Unit :=
  match (parent? path).map tree.makeDirectories with
  | some (tree, .error e) => (tree, .error e)
  | made =>
    let tree := (made.map (·.1)).getD tree
    match tree.write path content with
    | .ok tree => (tree, .ok ())
    | .error e => (tree, .error e)

end ScriptWeave.FileTree
