/-
# Listing directories

`ls` writes the names of files, and what is in directories, one name to a line and by the order of
their bytes.  Files come first, then the directories, with titles if there is anything else.
-/
import ScriptWeave.FileTree.Operations
import ScriptWeave.Shell.Program.Basic

namespace ScriptWeave.Shell.Program.Ls

/-! ## 1. How names are written -/

/-- How names are listed. -/
structure Style where
  /-- Names that begin with a dot are listed. -/
  hidden : Bool
  /-- So are the directory itself and the one above. -/
  dots : Bool
  reversed : Bool
  recursive : Bool
  /-- A slash stands behind directories. -/
  slashes : Bool
  /-- An at sign stands behind links. -/
  links : Bool
  quotes : Bool
  /-- Names stand side by side with commas between them, in lines of so many places. -/
  commas : Option Nat

/-- A name as it is listed. -/
def Style.name (style : Style) (name : Bytes) (node : Node) : Bytes :=
  let mark : Bytes :=
    match node with
    | .directory => if style.slashes then [0x2F] else []
    | .link _ => if style.links then [0x40] else []
    | .file _ => []
  let escaped : Bytes :=
    if style.quotes then
      0x22 :: name.flatMap (fun c => if c = 0x22 ∨ c = 0x5C then [0x5C, c] else [c]) ++ [0x22]
    else name
  escaped ++ mark

/-- Names side by side, with commas between them. -/
def withCommas (width : Nat) (names : List Bytes) : Bytes :=
  (names.foldl (fun (written, place) name =>
    if written = [] then (name, name.length)
    else if place + name.length + 2 < width then
      (written ++ [0x2C, 0x20] ++ name, place + 2 + name.length)
    else (written ++ [0x2C, 0x0A] ++ name, name.length)) (([] : Bytes), 0)).1 ++ [0x0A]

/-- Names as they are listed together. -/
def Style.together (style : Style) (names : List Bytes) : Bytes :=
  match style.commas with
  | some width => if names.isEmpty then [] else withCommas width names
  | none => names.flatMap (· ++ [0x0A])

/-- Entries in the order in which they are listed. -/
def Style.ordered {α : Type} (style : Style) (entries : List (Bytes × α)) : List (Bytes × α) :=
  let sorted := entries.mergeSort fun a b => decide (a.1 ≤ b.1)
  if style.reversed then sorted.reverse else sorted

/-! ## 2. Directories -/

/-- The entries of a directory that are listed, in order. -/
def Style.entries (style : Style) (inside : FileTree) : List (Bytes × Node) :=
  let names := inside.entries.map fun e => (utf8 e.1, e.2)
  let shown := names.filter fun e => style.hidden || e.1.head? ≠ some 0x2E
  let dots : List (Bytes × Node) :=
    if style.dots then [([0x2E], .directory), ([0x2E, 0x2E], .directory)] else []
  style.ordered (dots ++ shown)

/-- A title, and what is in a directory; with the directories in it, if those are listed too, given
how deep they can be.  A blank line stands before every title but the first. -/
def Style.block (style : Style) (titled : Bool) :
    Nat → Bool → Bytes → FileTree → Bytes
  | 0, _, _, _ => []
  | n + 1, first, title, inside =>
    let entries := style.entries inside
    let head : Bytes := if titled then title ++ [0x3A, 0x0A] else []
    let own := (if first then [] else [0x0A]) ++ head
      ++ style.together (entries.map fun e => style.name e.1 e.2)
    if !style.recursive then own
    else
      let below := entries.filter fun e =>
        e.2 = .directory && e.1 ≠ [0x2E] && e.1 ≠ [0x2E, 0x2E]
      own ++ below.flatMap fun e =>
        let name := (String.fromUTF8? (ByteArray.mk e.1.toArray)).getD ""
        let path := if title.getLast? = some 0x2F then title ++ e.1 else title ++ 0x2F :: e.1
        Style.block style titled n false path (inside.inside [name])

/-! ## 3. Operands -/

/-- How `ls` is called. -/
def usage : Usage where
  program := "ls"
  letters :=
    ['1', 'a', 'A', 'd', 'p', 'F', 'r', 'R', 'm', 'Q', 'N', 'U', 'G', 'q', 'B', 'L', 'H', 'f', 'h',
      'k']
  valued := ['w']
  failure := 2
  names := [⟨"all", 'a', .none_⟩, ⟨"almost-all", 'A', .none_⟩, ⟨"directory", 'd', .none_⟩,
    ⟨"reverse", 'r', .none_⟩, ⟨"recursive", 'R', .none_⟩, ⟨"quote-name", 'Q', .none_⟩,
    ⟨"literal", 'N', .none_⟩, ⟨"file-type", 'F', .none_⟩, ⟨"classify", 'F', .optional⟩,
    ⟨"width", 'w', .needed⟩, ⟨"no-group", 'G', .none_⟩, ⟨"ignore-backups", 'B', .none_⟩]
  refuses letter value :=
    match letter, leadingInteger 0 value with
    | 'w', (some n, []) =>
      if n < 0 then some (fails "ls" (utf8 "invalid line width: " ++ quoted value) 2) else none
    | 'w', _ => some (fails "ls" (utf8 "invalid line width: " ++ quoted value) 2)
    | _, _ => none

/-- How names are listed under some options. -/
def styleOf (given : Given) : Style where
  hidden := (given.lastOf? ['a', 'A', 'f']).isSome
  dots := (given.lastOf? ['a', 'A', 'f']).any (· ≠ 'A')
  reversed := given.has 'r'
  recursive := given.has 'R'
  slashes := given.has 'p' || given.has 'F'
  links := given.lastOf? ['p', 'F'] = some 'F'
  quotes := given.lastOf? ['Q', 'N'] = some 'Q'
  commas :=
    if given.lastOf? ['m', '1'] = some 'm' then some (((given.valueOf? 'w').bind number?).getD 80)
    else none

/-- Lists its operands, or the directory that the shell is in. -/
def run (args : List Bytes) (tree : FileTree) (path : Bytes → String) : Ran :=
  withOptions usage args fun given =>
    let style := styleOf given
    let operands := if given.operands.isEmpty then [[0x2E]] else given.operands
    let nodeOf (name : Bytes) : Except StorageError Node :=
      if name.isEmpty then .error .notFound
      else
        match tree.entryAt (path name) with
        | .ok (.link target) =>
          if given.has 'd' || given.has 'F' then .ok (.link target)
          else
            match tree.nodeAt (path name) with
            | .ok .directory => .ok .directory
            | _ => .ok (.link target)
        | found => found
    let found := operands.map fun name => (name, nodeOf name)
    let isListed (node : Node) : Bool := node = .directory && !given.has 'd'
    let present := style.ordered (found.filterMap fun e => e.2.toOption.map (e.1, ·))
    let files := present.filter fun e => !isListed e.2
    let directories := (present.filter fun e => isListed e.2).map (·.1)
    let errors : List Piece := found.flatMap fun (name, node) =>
      match node with
      | .error e =>
        [.error (utf8 "ls: cannot access " ++ quotedName name ++ utf8 (": " ++ reasonOf e ++ "\n"))]
      | .ok _ => []
    let titled := 1 < operands.length || style.recursive
    let blocks := directories.map fun name =>
      let inside := ((tree.canonical (path name)).map tree.inside).toOption.getD ∅
      style.block titled 4096 true name inside
    let blocks :=
      if files.isEmpty then blocks
      else style.together (files.map fun e => style.name e.1 e.2) :: blocks
    { pieces := errors ++ [.output ([0x0A].intercalate blocks)], status := statusOf errors 2
      left := none }

end ScriptWeave.Shell.Program.Ls
