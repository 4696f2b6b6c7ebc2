/-
# The tokens of JSON

A JSON text is a row of tokens with blanks between them, and a blank is one of four characters:
space, tab, line feed and carriage return.  Splitting a text into tokens settles all that is
lexical: the spelling of numbers and words, and the escapes of texts.

An escape of a surrogate is only half a character.  A high one must be followed at once by the
escape of a low one, and a low one must follow a high one; otherwise the text is refused.
-/
import ScriptWeave.Json.Number

namespace ScriptWeave.Json

/-- A token. -/
inductive Token where
  | openBrace
  | closeBrace
  | openBracket
  | closeBracket
  | comma
  | colon
  | null
  | bool (b : Bool)
  | number (n : JsonNumber)
  | string (s : String)
  deriving DecidableEq

/-! ## 1. Texts -/

/-- The value of a hexadecimal digit, of either case. -/
def hexValue? (c : Char) : Option Nat :=
  if '0' ≤ c ∧ c ≤ '9' then some (c.toNat - '0'.toNat)
  else if 'a' ≤ c ∧ c ≤ 'f' then some (c.toNat - 'a'.toNat + 10)
  else if 'A' ≤ c ∧ c ≤ 'F' then some (c.toNat - 'A'.toNat + 10)
  else none

/-- The sixteen bits that four hexadecimal digits write. -/
def codeUnit? (a b c d : Char) : Option Nat := do
  return (((← hexValue? a) * 16 + (← hexValue? b)) * 16 + (← hexValue? c)) * 16 + (← hexValue? d)

/-- The first half of a character beyond sixteen bits. -/
def isHighSurrogate (n : Nat) : Bool := 0xD800 ≤ n && n < 0xDC00

/-- The second half of a character beyond sixteen bits. -/
def isLowSurrogate (n : Nat) : Bool := 0xDC00 ≤ n && n < 0xE000

/-- The character that two surrogates make. -/
def joinSurrogates (high low : Nat) : Char :=
  Char.ofNat (0x10000 + (high - 0xD800) * 0x400 + (low - 0xDC00))

/-- The character that a backslash and a letter write. -/
def shortEscape? : Char → Option Char
  | '"' => some '"'
  | '\\' => some '\\'
  | '/' => some '/'
  | 'b' => some '\x08'
  | 'f' => some '\x0c'
  | 'n' => some '\n'
  | 'r' => some '\r'
  | 't' => some '\t'
  | _ => none

/-- Reads the rest of a text behind its opening quotation mark.  `seen` holds the characters read
so far, the latest first. -/
def readString (seen : List Char) : List Char → Option (String × List Char)
  | [] => none
  | '"' :: rest => some (String.ofList seen.reverse, rest)
  | '\\' :: 'u' :: a :: b :: c :: d :: rest =>
    match codeUnit? a b c d with
    | none => none
    | some unit =>
      if isLowSurrogate unit then none
      else if isHighSurrogate unit then
        match rest with
        | '\\' :: 'u' :: e :: f :: g :: h :: rest =>
          match codeUnit? e f g h with
          | none => none
          | some low =>
            if isLowSurrogate low then readString (joinSurrogates unit low :: seen) rest else none
        | _ => none
      else readString (Char.ofNat unit :: seen) rest
  | '\\' :: c :: rest =>
    match shortEscape? c with
    | some e => readString (e :: seen) rest
    | none => none
  | c :: rest => if 0x20 ≤ c.toNat ∧ c ≠ '\\' then readString (c :: seen) rest else none

/-! ## 2. Tokens -/

/-- The characters that may stand between tokens. -/
def isSpace (c : Char) : Bool := c == ' ' || c == '\t' || c == '\n' || c == '\r'

/-- Reads the token at the front of a text. -/
def readToken : List Char → Option (Token × List Char)
  | '{' :: rest => some (.openBrace, rest)
  | '}' :: rest => some (.closeBrace, rest)
  | '[' :: rest => some (.openBracket, rest)
  | ']' :: rest => some (.closeBracket, rest)
  | ',' :: rest => some (.comma, rest)
  | ':' :: rest => some (.colon, rest)
  | '"' :: rest => (readString [] rest).map fun (s, rest) => (.string s, rest)
  | 'n' :: 'u' :: 'l' :: 'l' :: rest => some (.null, rest)
  | 't' :: 'r' :: 'u' :: 'e' :: rest => some (.bool true, rest)
  | 'f' :: 'a' :: 'l' :: 's' :: 'e' :: rest => some (.bool false, rest)
  | s => do
    let (literal, rest) ← JsonNumber.Literal.read s
    let n ← literal.value?
    return (.number n, rest)

/-- The tokens of a text, given at least as many steps as it has characters; `seen` holds the
tokens read so far, the latest first. -/
def tokensWithin : Nat → List Token → List Char → Option (List Token)
  | _, seen, [] => some seen.reverse
  | 0, _, _ => none
  | n + 1, seen, c :: rest =>
    if isSpace c then tokensWithin n seen rest
    else
      match readToken (c :: rest) with
      | some (t, rest) => tokensWithin n (t :: seen) rest
      | none => none

/-- The tokens of a text. -/
def tokens? (s : List Char) : Option (List Token) := tokensWithin s.length [] s

end ScriptWeave.Json
