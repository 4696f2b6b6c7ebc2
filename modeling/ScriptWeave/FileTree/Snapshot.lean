/-
# Snapshots of file trees

A snapshot is a file tree as one JSON object.  Its keys are the paths from the top, its values the
nodes: a text for a file, or an array of bytes where they are no text, or false where they may not
be read; null for a directory; an object with a `link` for a symbolic link.  Directories above a
node need not be listed.
-/
import ScriptWeave.FileTree.Basic
import ScriptWeave.Json.Reader
import ScriptWeave.Json.Printer

namespace ScriptWeave

/-- The node that a value of a snapshot stands for. -/
def Node.ofJson? : Json → Option Node
  | .string text => some (.file text.toUTF8)
  | .bool false => some (.file (.barred .denied))
  | .null => some .directory
  | .array items => do
    let bytes ← items.mapM fun
      | .number (.integer n) => if 0 ≤ n ∧ n < 256 then some (UInt8.ofNat n.toNat) else none
      | _ => none
    some (.file (ByteArray.mk bytes.toArray))
  | v =>
    match v.member? "link" with
    | some (.string target) => some (.link target)
    | _ => none

/-- The value that stands for a node in a snapshot. -/
def Node.json : Node → Json
  | .file (.bytes content) =>
    match String.fromUTF8? content with
    | some text => .string text
    | none => .array (content.toList.map fun b => .ofInt b.toNat)
  | .file (.barred _) => .bool false
  | .directory => .null
  | .link target => .object [("link", .string target)]

namespace FileTree

/-- The tree with a node put at a location, and with the directories above it. -/
def plant (tree : FileTree) (place : Location) (node : Node) : FileTree :=
  let above := (List.range place.length).map place.take
  let tree := above.foldl (fun tree d =>
    if (tree.node? d).isSome then tree else tree.put d .directory) tree
  tree.put place node

/-- The tree that a snapshot shows, if it is one. -/
def ofSnapshot? : Json → Option FileTree
  | .object members => members.foldlM (fun tree m => do
      let pieces := (m.1.toList.splitOn '/').filter (· ≠ [])
      return plant tree (pieces.map String.ofList) (← Node.ofJson? m.2)) (∅ : FileTree)
  | _ => none

/-- The snapshot of a tree. -/
def snapshot (tree : FileTree) : Json :=
  .object (tree.nodes.map fun e => (String.intercalate "/" e.1, e.2.json))

/-- The paths at which something was put, changed or removed between two trees. -/
def changedPaths (before after : FileTree) : List String :=
  let places := (before.nodes ++ after.nodes).map (·.1)
  let changed := places.filter fun place => decide (before.node? place ≠ after.node? place)
  changed.eraseDups.map pathTo

end FileTree

end ScriptWeave
