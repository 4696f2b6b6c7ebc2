/-
# Fields

What a word expands to is a row of *pieces*.  Some stay as they are; others, which come from
expansions outside of quotes, are split where separators stand in them.  A separator that is white
space may be repeated, and at the front of a field it does not count; any other separator ends a
field, even an empty one.  A zero byte, which no value holds, separates the arguments of a shell
from each other like white space does.

The last variable that a line is read into takes all that is left, without the white space at its
end.  If one field is left and one separator behind it, it takes the field.
-/
import ScriptWeave.Shell.Machine
import ScriptWeave.Shell.Pattern

namespace ScriptWeave.Shell

/-- A piece of what a word expands to. -/
inductive WordPiece where
  /-- Bytes that stay together. -/
  | solid (bytes : Bytes) (quoted : Bool)
  /-- Bytes that are split at separators. -/
  | split (bytes : Bytes)
  /-- The end of a field, with another one behind it. -/
  | boundary

namespace WordPiece

/-- White space that separates fields if nothing else was asked for. -/
def isBlankSeparator (c : UInt8) : Bool := c = 0x20 || c = 0x09 || c = 0x0A || c = 0

/-! ## 1. Splitting -/

/-- Fields in the making. -/
structure Splitting where
  /-- The fields that are complete, the latest first. -/
  complete : List Field := []
  /-- The one that is being filled, its bytes reversed. -/
  current : Option Field := none
  /-- How many fields there may be, the current one included. -/
  most : Option Nat := none
  /-- How many bytes at the end of the last field are separators only. -/
  spare : Option Nat := none
  /-- The separator before was white space. -/
  afterBlank : Bool := false
  deriving Inhabited

namespace Splitting

/-- One more byte in the current field. -/
def add (s : Splitting) (c : UInt8) (quoted : Bool) : Splitting :=
  { s with current := some ((c, quoted) :: s.current.getD []), spare := s.spare.map (· + 1) }

/-- The current field is complete. -/
def close (s : Splitting) : Splitting :=
  { s with complete := (s.current.getD []).reverse :: s.complete, current := none }

/-- The separators at the front of some bytes that belong to one before them. -/
def behindSeparator (separators : Bytes) (afterBlank : Bool) : Bytes → Bytes
  | [] => []
  | c :: rest =>
    if isBlankSeparator c && (c = 0 || separators.contains c) then
      behindSeparator separators afterBlank rest
    else if separators.contains c && afterBlank then behindSeparator separators false rest
    else c :: rest

theorem length_behindSeparator_le (separators : Bytes) (afterBlank : Bool) (s : Bytes) :
    (behindSeparator separators afterBlank s).length ≤ s.length := by
  induction s generalizing afterBlank with
  | nil => simp [behindSeparator]
  | cons c rest ih =>
    simp only [behindSeparator]
    split
    · exact Nat.le_succ_of_le (ih afterBlank)
    · split
      · exact Nat.le_succ_of_le (ih false)
      · exact Nat.le_refl _

/-- One more byte of the last field, which may turn out to be spare. -/
def addLast (s : Splitting) (isSeparator isBlank : Bool) (c : UInt8) : Splitting :=
  if isBlank then
    let spare := some ((s.spare.getD 0) + 1)
    { s with current := some ((c, false) :: s.current.getD []), spare }
  else
    let spare := if isSeparator && s.afterBlank then s.spare else none
    { s.add c false with spare := spare.map (· + 1), afterBlank := false }

/-- Goes on with bytes that are split. -/
def splitting (separators : Bytes) (s : Splitting) : Bytes → Splitting
  | [] => s
  | c :: rest =>
    let isSeparator : Bool := c = 0 || separators.contains c
    let isBlank := isSeparator && isBlankSeparator c
    if s.most = some 0 then splitting separators (s.addLast isSeparator isBlank c) rest
    else if !isSeparator then splitting separators (s.add c false) rest
    else if isBlank && s.current.isNone then
      splitting separators { s with afterBlank := false } rest
    else if s.most = some 1 then
      let current := some ((c, false) :: s.current.getD [])
      splitting separators
        { s with most := some 0, current, spare := some 1, afterBlank := isBlank } rest
    else
      splitting separators { s.close with most := s.most.map (· - 1), afterBlank := isBlank }
        (behindSeparator separators isBlank rest)
termination_by s => s.length
decreasing_by
  all_goals simp only [List.length_cons]
  all_goals first
    | omega
    | exact Nat.lt_succ_of_le (length_behindSeparator_le ..)

/-- Goes on with a piece. -/
def next (separators : Bytes) (s : Splitting) : WordPiece → Splitting
  | .solid bytes quoted =>
    bytes.foldl (fun s c => s.add c quoted) { s with current := some (s.current.getD []) }
  | .split bytes => splitting separators { s with afterBlank := false } bytes
  | .boundary => { s.close with current := some [] }

/-- The fields, once there are no more pieces. -/
def fields (s : Splitting) : List Field :=
  let last := s.current.map fun field => (field.drop (s.spare.getD 0)).reverse
  (last.toList ++ s.complete).reverse

end Splitting

/-- The fields that pieces come to. -/
def fields (separators : Bytes) (pieces : List WordPiece) : List Field :=
  (pieces.foldl (Splitting.next separators) {}).fields

/-- The fields that a line comes to that is read into some variables. -/
def fieldsOfLine (separators : Bytes) (most : Nat) (pieces : List WordPiece) : List Bytes :=
  ((pieces.foldl (Splitting.next separators) { most := some most }).fields).map Field.bytes

/-! ## 2. Without splitting -/

/-- The bytes that pieces come to, unsplit. -/
def joined (pieces : List WordPiece) : Bytes :=
  pieces.flatMap fun
    | .solid bytes _ | .split bytes => bytes
    | .boundary => [0x20]

/-- The pattern that pieces come to. -/
def asPattern (pieces : List WordPiece) : Field :=
  pieces.flatMap fun
    | .solid bytes quoted => bytes.map (·, quoted)
    | .split bytes => bytes.map (·, false)
    | .boundary => [(0x20, true)]

end WordPiece

/-! ## 3. Names that a field stands for -/

namespace Machine

/-- The names in a directory that a pattern matches; hidden ones only if the pattern begins with a
dot. -/
def namesLike (m : Machine) (place : Location) (pattern : Field) : List Bytes :=
  let hidden := pattern.head?.map (·.1) = some 0x2E
  let expression := pattern.pattern
  let dots : List Bytes := if hidden then [[0x2E], [0x2E, 0x2E]] else []
  let names := dots ++ (m.tree.children place).map fun n => utf8 n.1
  names.filter fun n => (hidden || n.head? ≠ some 0x2E) && expression.matchesAll n

/-- The bytes of a field, with the backslashes that are no bytes of their own left out. -/
def unescaped : Field → Bytes
  | [] => []
  | [(c, _)] => [c]
  | (0x5C, false) :: (c, _) :: rest => c :: unescaped rest
  | (c, _) :: rest => c :: unescaped rest

/-- The paths that the pieces of a pattern between slashes lead to, from those that lead there. -/
def pathsLike (m : Machine) : List Bytes → List Field → List Bytes
  | found, [] => found
  | found, piece :: rest =>
    let next := found.flatMap fun front =>
      if piece.any Field.isMagic then
        match m.tree.canonical (m.path (if front.isEmpty then [0x2E] else front)) with
        | .ok place => (m.namesLike place piece).map (front ++ ·)
        | .error _ => []
      else
        let path := front ++ unescaped piece
        if path.isEmpty || (m.nodeAt path).isOk then [path] else []
    if rest.isEmpty then next else pathsLike m (next.map (· ++ [0x2F])) rest

/-- The pieces of a field between slashes. -/
def betweenSlashes (field : Field) : List Field :=
  field.splitOnP fun c => c.1 = 0x2F

/-- The words that a field stands for: the paths that match it, or itself if there are none. -/
def wordsOf (m : Machine) (field : Field) : List Bytes :=
  if field.any Field.isMagic && !m.has 'f' then
    match m.pathsLike [[]] (betweenSlashes field) with
    | [] => [field.bytes]
    | paths => paths.mergeSort fun a b => decide (a ≤ b)
  else [field.bytes]

end Machine

end ScriptWeave.Shell
