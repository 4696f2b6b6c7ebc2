/-
# Bytes

A shell works on bytes: it never asks what text they are.  Where it looks for signs, every byte is
read as the character of the same number, so that the signs can be written as what they are; bytes
of other text pass through unchanged (`bytesOf_charsOf`).
-/

namespace ScriptWeave.Shell

/-- What a shell works on. -/
abbrev Bytes := List UInt8

/-- The bytes of a text. -/
def utf8 (s : String) : Bytes := s.toUTF8.toList

/-- The text of bytes; what is not UTF-8 is no text. -/
def textOf (b : Bytes) : String := (String.fromUTF8? (ByteArray.mk b.toArray)).getD ""

/-- Bytes as characters, one for each. -/
def charsOf (b : Bytes) : List Char := b.map fun c => Char.ofNat c.toNat

/-- The bytes that characters stand for. -/
def bytesOf (s : List Char) : Bytes := s.map fun c => UInt8.ofNat c.toNat

/-- Reading bytes as characters loses nothing. -/
theorem bytesOf_charsOf (b : Bytes) : bytesOf (charsOf b) = b := by
  simp only [bytesOf, charsOf, List.map_map]
  refine (List.map_congr_left fun c _ => ?_).trans (List.map_id _)
  have hc : c.toNat < 256 := c.toNat_lt
  have hv : c.toNat.isValidChar := Or.inl (by omega)
  have hval : (Char.ofNat c.toNat).toNat = c.toNat := by
    rw [Char.ofNat, dif_pos hv]
    rfl
  simp [Function.comp, hval]

/-- The bytes that a string of ASCII names. -/
def nameOf (b : Bytes) : String := String.ofList (charsOf b)

/-- The decimal text of a number. -/
def decimal (n : Nat) : Bytes := bytesOf (Nat.toDigits 10 n)

/-- The decimal text of an integer. -/
def decimalInt (n : Int) : Bytes := if n < 0 then 0x2D :: decimal n.natAbs else decimal n.natAbs

/-- The number at the front of a text, and the text behind it. -/
def leadingNumber (s : Bytes) : Option Nat × Bytes :=
  let digits := s.takeWhile fun c => 0x30 ≤ c && c ≤ 0x39
  (if digits.isEmpty then none
    else some (digits.foldl (fun n c => n * 10 + (c.toNat - 0x30)) 0), s.drop digits.length)

/-- The number that bytes write, if they write one. -/
def number? (s : Bytes) : Option Nat :=
  match leadingNumber s with
  | (some n, []) => some n
  | _ => none

/-- White space between numbers. -/
def isSpace (c : UInt8) : Bool := c = 0x20 || (0x09 ≤ c && c ≤ 0x0D)

/-- The value of a digit, also of one that is a letter. -/
def digitValue (c : UInt8) : Nat :=
  if 0x30 ≤ c ∧ c ≤ 0x39 then c.toNat - 0x30
  else if 0x61 ≤ c ∧ c ≤ 0x7A then c.toNat - 0x57
  else if 0x41 ≤ c ∧ c ≤ 0x5A then c.toNat - 0x37
  else 99

/-- The base of a number that says so itself, and the text behind what says it: sixteen behind `0x`,
two behind `0b`, eight behind a zero, ten otherwise. -/
def ownBase (s : Bytes) : Nat × Bytes :=
  match s with
  | 0x30 :: x :: d :: rest =>
    if (x = 0x78 ∨ x = 0x58) ∧ digitValue d < 16 then (16, d :: rest)
    else if (x = 0x62 ∨ x = 0x42) ∧ digitValue d < 2 then (2, d :: rest)
    else (8, s)
  | 0x30 :: _ => (8, s)
  | s => (10, s)

/-- A text without the white space at its front and without the sign behind that, which may be a
minus sign. -/
def unsigned (s : Bytes) : Bool × Bytes :=
  match s.dropWhile isSpace with
  | 0x2D :: rest => (true, rest)
  | 0x2B :: rest => (false, rest)
  | rest => (false, rest)

/-- The integer at the front of a text, with white space and a sign before it, and the text behind
it; the whole text if there is none.  Base zero is that of the number itself. -/
def leadingInteger (base : Nat) (s : Bytes) : Option Int × Bytes :=
  let (negative, body) := unsigned s
  let (base, body) := if base = 0 then ownBase body else (base, body)
  let digits := body.takeWhile fun c => digitValue c < base
  if digits.isEmpty then (none, s)
  else
    let n := digits.foldl (fun n c => n * base + digitValue c) 0
    (some (if negative then -(n : Int) else n), body.drop digits.length)

/-- The least and the greatest number that a word holds. -/
def wordRange : Int × Int := (-Int.pow 2 63, Int.pow 2 63 - 1)

/-- A number that a word holds: itself, or else the nearest. -/
def clamped (n : Int) : Int := max wordRange.1 (min wordRange.2 n)

/-- A number as a word holds it when what is too large is cut off. -/
def wrapped (n : Int) : Int := Int.bmod n (Nat.pow 2 64)

/-- Small letters for the capitals of ASCII. -/
def lowered (s : Bytes) : Bytes := s.map fun c => if 0x41 ≤ c ∧ c ≤ 0x5A then c + 0x20 else c

/-- The lines of bytes; a line end at the end of all ends the last line. -/
def linesOf (s : Bytes) : List Bytes :=
  let pieces := s.splitOn 0x0A
  if pieces.getLast? = some [] then pieces.dropLast else pieces

/-- The lines of bytes, each with its line end. -/
def wholeLines (s : Bytes) : List Bytes :=
  let pieces := s.splitOn 0x0A
  (pieces.dropLast.map (· ++ [0x0A]))
    ++ (if pieces.getLast? = some [] then [] else pieces.getLast?.toList)

end ScriptWeave.Shell
