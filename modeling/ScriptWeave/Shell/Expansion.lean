/-
# What words expand to, as far as no command is run

A tilde at the front of a word means the home directory, up to the next slash; in a value that is
assigned, a tilde behind a colon does so too.  Arguments all at once are separated by the first
separator, or stay apart where fields are wanted.
-/
import ScriptWeave.Shell.Act
import ScriptWeave.Shell.Arithmetic
import ScriptWeave.Shell.Fields
import ScriptWeave.Shell.Reader

namespace ScriptWeave.Shell

/-- What a word is expanded for. -/
structure Wanted where
  /-- Fields, and not one text. -/
  fields : Bool := false
  /-- A value, in which a colon may stand before a tilde. -/
  value : Bool := false
  /-- The word is part of another one, where also what is written is split. -/
  inner : Bool := false

namespace Expansion

/-! ## 1. Home directories -/

/-- The home directory of a user; an empty name is that of the user of the shell. -/
def homeOf (m : Machine) (user : List Char) : Option Bytes :=
  match user with
  | [] => m.valueOf? "HOME"
  | ['r', 'o', 'o', 't'] => some (utf8 "/root")
  | _ => none

/-- A text with a home directory in place of the tilde at its front; `isWhole` says that the text
ends where a name can end. -/
def withHome (m : Machine) (isWhole : Bool) (text : List Char) : Word :=
  match text with
  | '~' :: rest =>
    let user := rest.takeWhile (· ≠ '/')
    let after := rest.drop user.length
    match if after.isEmpty && !isWhole then none else homeOf m user with
    | some home => [.literal (charsOf home) true, .literal after false]
    | none => [.literal text false]
  | text => [.literal text false]

/-- A word with home directories in place of tildes; `isFront` says that it is whole. -/
def withHomes (m : Machine) (value : Bool) : Bool → Word → Word
  | _, [] => []
  | isFront, .literal text false :: rest =>
    let pieces := if value then text.splitOn ':' else [text]
    let shown := pieces.zipIdx.map fun (piece, i) =>
      if i = 0 && !isFront then [.literal piece false]
      else withHome m (i + 1 < pieces.length || rest.isEmpty) piece
    [WordPart.literal [':'] false].intercalate shown ++ withHomes m value false rest
  | _, part :: rest => part :: withHomes m value false rest

/-! ## 2. Parameters -/

/-- A piece that is split unless it is quoted. -/
def piece (bytes : Bytes) (quoted : Bool) : WordPiece :=
  if quoted then .solid bytes true else .split bytes

/-- The parameter stands for all arguments. -/
def isAll (name : String) : Bool := name = "@" || name = "*"

/-- All arguments as one text. -/
def joinedArguments (m : Machine) : Bytes := (m.separators.take 1).intercalate m.arguments

/-- The value of a parameter, if it has one. -/
def valueOf? (m : Machine) (name : String) : Option Bytes :=
  if isAll name then some (joinedArguments m) else m.parameter? name

/-- All arguments are wanted as fields of their own. -/
def isRow (wanted : Wanted) (name : String) (quoted : Bool) : Bool :=
  wanted.fields && isAll name && !(name = "*" && quoted)

/-- Arguments as pieces. -/
def row (arguments : List Bytes) (quoted : Bool) : List WordPiece :=
  if quoted then (arguments.map fun a => WordPiece.solid a true).intersperse .boundary
  else [.split ([0].intercalate arguments)]

/-- What a parameter shows that stands for its value. -/
def shown (m : Machine) (wanted : Wanted) (name : String) (quoted : Bool) : List WordPiece :=
  if isRow wanted name quoted then row m.arguments quoted
  else
    match valueOf? m name with
    | some value => [piece value quoted]
    | none => []

/-- A parameter has no value, or one that counts as none. -/
def isMissing (m : Machine) (name : String) (orEmpty : Bool) : Bool :=
  match valueOf? m name with
  | none => true
  | some value => orEmpty && value.isEmpty

/-- The value of a parameter that must have one if unset parameters are errors. -/
def required (name : String) : Act Bytes := do
  let m ← get
  match valueOf? m name with
  | some value => return value
  | none => if m.has 'u' then Act.fail (utf8 (name ++ ": parameter not set")) else return []

/-- What a parameter shows that stands for its value with something cut off. -/
def cut (wanted : Wanted) (name : String) (quoted : Bool) (shorten : Bytes → Bytes) :
    Act (List WordPiece) := do
  let value ← required name
  if isRow wanted name quoted then
    let kept := shorten ([0].intercalate (← get).arguments)
    return row (kept.splitOn 0) quoted
  else return [piece (shorten value) quoted]

/-! ## 3. Arithmetic -/

/-- The number that a variable holds. -/
def variableNumber (m : Machine) (name : String) : Except Arithmetic.Fault Int :=
  match m.valueOf? name with
  | none => .ok 0
  | some s =>
    match leadingInteger 0 s with
    | (some n, rest) => if rest.all isSpace then .ok (clamped n) else .error (.illegalNumber s)
    | (none, rest) => if rest.all isSpace then .ok 0 else .error (.illegalNumber s)

/-- Arithmetic on the variables of a shell. -/
def access : Arithmetic.Access Machine where
  read := variableNumber
  write m name n :=
    match m.assign name (decimalInt n) with
    | .ok m => .ok m
    | .error _ => .error (.readOnly name)

/-- The value of an expression. -/
def calculate (expression : Bytes) : Act Bytes := do
  match Arithmetic.evaluate access (← get) (charsOf expression) with
  | .ok (n, m) =>
    set m
    return decimalInt n
  | .error fault => Act.fail (fault.message expression)

end Expansion

end ScriptWeave.Shell
