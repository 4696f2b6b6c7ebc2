/-
# Printing JSON

One printer with two styles.  The compact style puts nothing between tokens; the indented style
puts every member and item on a line of its own, two blanks deeper than the bracket it stands in,
and one blank after a colon.  An empty array or object is two brackets in both.

In a text only the quotation mark, the backslash and the characters below U+0020 are escaped.
-/
import ScriptWeave.Json.Number

namespace ScriptWeave.Json

/-! ## 1. Texts -/

/-- A hexadecimal digit, in lower case. -/
def hexDigit (n : Nat) : Char := Nat.digitChar (n % 16)

/-- How a character is written between quotation marks. -/
def escape (c : Char) : List Char :=
  if c = '"' then ['\\', '"']
  else if c = '\\' then ['\\', '\\']
  else if 0x20 ≤ c.toNat then [c]
  else if c = '\x08' then ['\\', 'b']
  else if c = '\t' then ['\\', 't']
  else if c = '\n' then ['\\', 'n']
  else if c = '\x0c' then ['\\', 'f']
  else if c = '\r' then ['\\', 'r']
  else ['\\', 'u', '0', '0', hexDigit (c.toNat / 16), hexDigit c.toNat]

/-- A text between quotation marks. -/
def quote (s : String) : List Char := '"' :: (s.toList.flatMap escape ++ ['"'])

/-! ## 2. Values -/

/-- Where blanks and line ends are put. -/
inductive Style where
  | compact
  | indented
  deriving DecidableEq

/-- What stands before an item, or before the closing bracket, at a depth. -/
def Style.lineBreak : Style → Nat → List Char
  | compact, _ => []
  | indented, depth => '\n' :: List.replicate (2 * depth) ' '

/-- What separates a key from its value. -/
def Style.colon : Style → List Char
  | compact => [':']
  | indented => [':', ' ']

mutual

/-- The text of a value that stands at a depth. -/
def renderAt (style : Style) (depth : Nat) : Json → List Char
  | null => ['n', 'u', 'l', 'l']
  | bool true => ['t', 'r', 'u', 'e']
  | bool false => ['f', 'a', 'l', 's', 'e']
  | number n => n.render
  | string s => quote s
  | array [] => ['[', ']']
  | array (v :: vs) =>
    '[' :: (style.lineBreak (depth + 1) ++ renderAt style (depth + 1) v ++
      renderItems style (depth + 1) vs ++ style.lineBreak depth ++ [']'])
  | object [] => ['{', '}']
  | object ((k, v) :: ms) =>
    '{' :: (style.lineBreak (depth + 1) ++ quote k ++ style.colon ++ renderAt style (depth + 1) v ++
      renderMembers style (depth + 1) ms ++ style.lineBreak depth ++ ['}'])

/-- The items after the first, each after its comma. -/
def renderItems (style : Style) (depth : Nat) : List Json → List Char
  | [] => []
  | v :: vs =>
    ',' :: (style.lineBreak depth ++ renderAt style depth v ++ renderItems style depth vs)

/-- The members after the first, each after its comma. -/
def renderMembers (style : Style) (depth : Nat) : List (String × Json) → List Char
  | [] => []
  | (k, v) :: ms =>
    ',' :: (style.lineBreak depth ++ quote k ++ style.colon ++ renderAt style depth v ++
      renderMembers style depth ms)

end

/-- The text of a value. -/
def render (style : Style) (v : Json) : String := String.ofList (renderAt style 0 v)

/-- The text without blanks. -/
def compact (v : Json) : String := render .compact v

/-- The text with a line for every item. -/
def indented (v : Json) : String := render .indented v

end ScriptWeave.Json
