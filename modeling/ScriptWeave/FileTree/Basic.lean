/-
# File trees

A file tree is everything a build can see of a disk: files with their bytes, directories, and
symbolic links with the path they hold.  It is the row of what a directory holds, by increasing
name; what is inside a directory of the row is such a row in turn.  The top is a directory itself.

Not every file gives its bytes.  One that is *barred*, since the program may not use it or its
device fails, can be found and removed like any other file, but neither read nor written.

A *location* is the row of names that leads from the top to a node.

**Stated here.**  What is found under a name after an entry was put there (`find?_insert`) or all
entries of that name were erased (`find?_erase`), and what is found at a location after a change at
another one (`node?_change_of_ne`).
-/
import ScriptWeave.BuildError

namespace ScriptWeave

/-- Contents are compared byte by byte. -/
local instance decEqContent : DecidableEq ByteArray := ByteArray.instDecidableEq

/-- What there is to be had of a file. -/
inductive FileContent where
  | bytes (b : ByteArray)
  /-- Reading the file and writing it end in this error. -/
  | barred (cause : StorageError)
  deriving DecidableEq

instance : Coe ByteArray FileContent := ⟨.bytes⟩

/-- What is at a place in a file tree. -/
inductive Node where
  | file (content : FileContent)
  | directory
  | link (target : String)
  deriving DecidableEq

/-- The error that keeps a node from being used, if it is a file that is barred. -/
def Node.barrier? : Node → Option StorageError
  | file (.barred cause) => some cause
  | _ => none

/-- The names that lead from the top of a file tree to a place in it. -/
abbrev Location := List String

/-- What a directory holds: every name with its node, and with what is inside that. -/
inductive FileTree where
  | nil
  | cons (name : String) (node : Node) (inside rest : FileTree)
  deriving DecidableEq

namespace FileTree

instance : EmptyCollection FileTree := ⟨nil⟩
instance : Inhabited FileTree := ⟨nil⟩

/-! ## 1. One directory -/

/-- The node of a name, and what is inside it. -/
def find? : FileTree → String → Option (Node × FileTree)
  | nil, _ => none
  | cons other node inside rest, name =>
    if other = name then some (node, inside) else rest.find? name

/-- The directory with an entry, in place of what had its name. -/
def insert : FileTree → String → Node → FileTree → FileTree
  | nil, name, node, inside => cons name node inside nil
  | cons other old within rest, name, node, inside =>
    if other = name then cons name node inside rest
    else if name < other then cons name node inside (cons other old within rest)
    else cons other old within (rest.insert name node inside)

/-- The directory without the entries of a name. -/
def erase : FileTree → String → FileTree
  | nil, _ => nil
  | cons other node inside rest, name =>
    if other = name then rest.erase name else cons other node inside (rest.erase name)

/-- What is found after an entry was put: that entry under its name, and all else as before. -/
theorem find?_insert (tree : FileTree) (name : String) (node : Node) (inside : FileTree)
    (other : String) : (tree.insert name node inside).find? other =
      if other = name then some (node, inside) else tree.find? other := by
  induction tree with
  | nil => by_cases h : other = name <;> simp [insert, find?, h, eq_comm (a := name)]
  | cons first old within rest _ ih =>
    rw [insert]
    split
    · next hf =>
      subst hf
      by_cases h : other = first <;> simp [find?, h, eq_comm (a := first)]
    · next hf =>
      split
      · by_cases h : other = name <;> simp [find?, h, eq_comm (a := name)]
      · by_cases h : other = name
        · subst h; simp [find?, hf, ih]
        · simp [find?, h, ih]

/-- What is found after the entries of a name were erased: nothing under that name, and all else as
before. -/
theorem find?_erase (tree : FileTree) (name other : String) :
    (tree.erase name).find? other = if other = name then none else tree.find? other := by
  induction tree with
  | nil => simp [erase, find?]
  | cons first old within rest _ ih =>
    rw [erase]
    split
    · next hf =>
      subst hf
      by_cases h : other = first
      · simp_all
      · simp [ih, h, find?, eq_comm (a := first)]
    · next hf =>
      by_cases h : other = name
      · subst h; simp [find?, hf, ih]
      · simp [find?, h, ih]

/-- The names in a directory with their nodes. -/
def entries : FileTree → List (String × Node)
  | nil => []
  | cons name node _ rest => (name, node) :: rest.entries

/-! ## 2. Locations -/

/-- What the directory at a location holds. -/
def inside (tree : FileTree) : Location → FileTree
  | [] => tree
  | name :: place =>
    match tree.find? name with
    | some (_, within) => within.inside place
    | none => nil

/-- The node at a location. -/
def node? (tree : FileTree) : Location → Option Node
  | [] => some .directory
  | [name] => (tree.find? name).map (·.1)
  | name :: place =>
    match tree.find? name with
    | some (_, within) => within.node? place
    | none => none

/-- The tree in which one entry is changed; without its directory there is nothing to change. -/
def change (f : Option (Node × FileTree) → Option (Node × FileTree)) (tree : FileTree) :
    Location → FileTree
  | [] => tree
  | [name] =>
    match f (tree.find? name) with
    | some (node, within) => tree.insert name node within
    | none => tree.erase name
  | name :: place =>
    match tree.find? name with
    | some (node, within) => tree.insert name node (within.change f place)
    | none => tree

/-- The tree with a node put at a location; what was inside stays there. -/
def put (tree : FileTree) (place : Location) (node : Node) : FileTree :=
  tree.change (fun old => some (node, (old.map (·.2)).getD nil)) place

/-- The tree with a file put at a location. -/
def putFile (tree : FileTree) (place : Location) (content : ByteArray) : FileTree :=
  tree.put place (.file content)

/-- The error that keeps what is at a location from being used, if it is a file that is barred. -/
def barrier? (tree : FileTree) (place : Location) : Option StorageError :=
  (tree.node? place).bind Node.barrier?

/-- The tree without what is at a location, and without all that is inside it. -/
def remove (tree : FileTree) (place : Location) : FileTree := tree.change (fun _ => none) place

/-- A change in one entry leaves other names alone. -/
theorem find?_change_of_ne (f : Option (Node × FileTree) → Option (Node × FileTree))
    (tree : FileTree) {name other : String} (place : Location) (h : other ≠ name) :
    (tree.change f (name :: place)).find? other = tree.find? other := by
  cases place with
  | nil => simp only [change]; split <;> simp [find?_insert, find?_erase, h]
  | cons next place => simp only [change]; split <;> simp [find?_insert, h]

/-- What is at a location that begins with another name stays. -/
theorem node?_change_of_ne (f : Option (Node × FileTree) → Option (Node × FileTree))
    (tree : FileTree) {name other : String} (place : Location) (h : other ≠ name) :
    ∀ rest : Location, (tree.change f (name :: place)).node? (other :: rest)
      = tree.node? (other :: rest)
  | [] => by simp [node?, find?_change_of_ne f tree place h]
  | _ :: _ => by simp [node?, find?_change_of_ne f tree place h]

/-- The nodes below a directory, each with its location below another place. -/
def nodesFrom (above : Location) : FileTree → List (Location × Node)
  | nil => []
  | cons name node inside rest =>
    let place := above ++ [name]
    (place, node) :: (inside.nodesFrom place ++ rest.nodesFrom above)

/-- All nodes with their locations; every directory stands right before what is inside it. -/
def nodes (tree : FileTree) : List (Location × Node) := tree.nodesFrom []

/-- The path from the top to a location. -/
def pathTo (place : Location) : String :=
  if place = [] then "/" else String.join (place.map ("/" ++ ·))

end FileTree

end ScriptWeave
