/-
# Number literals of JSON

How the text of a number becomes a value, and how a value becomes text.

**Reading.**  A literal without fraction and exponent that fits in 64 bits, signed or unsigned, is
a whole number; minus zero is not, being a double.  Any other literal is a double, computed as
follows.  Digits are gathered into a significand as long as it stays below `2 ^ 64`; after that,
a digit of the whole part only raises the exponent and a digit of the fraction is dropped.  The
significand, as a double, is then multiplied or divided once by a power of ten.  The
result need not be the double nearest to the literal.  A literal beyond the largest double has no
value at all.

**Writing.**  A double is written with the fewest digits that read back, positionally from
`10 ^ -5` up to `10 ^ 16` and with an exponent outside; one without a fraction gets `.0`.
-/
import ScriptWeave.Json.Basic

namespace ScriptWeave.JsonNumber

/-! ## 1. Literals -/

/-- The exponent part of a literal. -/
structure ExponentPart where
  negative : Bool
  digits : List Char

/-- A number as it is written. -/
structure Literal where
  negative : Bool
  whole : List Char
  fraction : Option (List Char)
  exponent : Option ExponentPart

/-- The value of a decimal digit. -/
def digitValue (c : Char) : Nat := c.toNat - '0'.toNat

/-- The number that a run of decimal digits writes. -/
def ofDigits (digits : List Char) : Nat := digits.foldl (fun n c => n * 10 + digitValue c) 0

/-- Splits the decimal digits off the front of a text. -/
def spanDigits (s : List Char) : List Char × List Char := s.span Char.isDigit

/-- Reads a fraction, if one begins here; a point must be followed by a digit. -/
def readFraction : List Char → Option (Option (List Char) × List Char)
  | '.' :: s =>
    match spanDigits s with
    | ([], _) => none
    | (digits, rest) => some (some digits, rest)
  | s => some (none, s)

/-- Reads the sign of an exponent, if there is one: whether it is a minus. -/
def readSign : List Char → Bool × List Char
  | '-' :: s => (true, s)
  | '+' :: s => (false, s)
  | s => (false, s)

/-- Reads an exponent, if one begins here; its mark must be followed by a digit. -/
def readExponent (s : List Char) : Option (Option ExponentPart × List Char) :=
  match s with
  | [] => some (none, [])
  | c :: rest =>
    if c = 'e' ∨ c = 'E' then
      match spanDigits (readSign rest).2 with
      | ([], _) => none
      | (digits, s) => some (some ⟨(readSign rest).1, digits⟩, s)
    else some (none, s)

/-- Reads the whole part of a literal.  A zero at its front stands alone. -/
def readWhole : List Char → Option (List Char × List Char)
  | '0' :: rest => some (['0'], rest)
  | s =>
    match spanDigits s with
    | ([], _) => none
    | (digits, rest) => some (digits, rest)

/-- Reads a literal without its sign. -/
def readUnsigned (negative : Bool) (s : List Char) : Option (Literal × List Char) := do
  let (whole, rest) ← readWhole s
  let (fraction, rest) ← readFraction rest
  let (exponent, rest) ← readExponent rest
  return (⟨negative, whole, fraction, exponent⟩, rest)

/-- Reads a literal. -/
def Literal.read : List Char → Option (Literal × List Char)
  | '-' :: s => readUnsigned true s
  | s => readUnsigned false s

/-! ## 2. The value of a literal -/

/-- Appends digits to a significand as long as it stays below `2 ^ 64`; also how many were
appended and how many were left. -/
def gather (significand taken : Nat) : List Char → Nat × Nat × Nat
  | [] => (significand, taken, 0)
  | c :: rest =>
    let next := significand * 10 + digitValue c
    if next < Nat.pow 2 64 then gather next (taken + 1) rest
    else (significand, taken, rest.length + 1)

/-- A power of ten, as a double. -/
def powerOfTen (n : Nat) : Float := Float.ofScientific 1 false n

/-- Scales a double by a power of ten.  Beyond the range of powers it goes down in steps, which
after three of them have reached zero. -/
def scaleTen : Nat → Float → Int → Option Float
  | 0, _, _ => some 0.0
  | n + 1, f, e =>
    if e.natAbs ≤ 308 then
      if 0 ≤ e then
        let scaled := f * powerOfTen e.natAbs
        if scaled.isInf then none else some scaled
      else some (f / powerOfTen e.natAbs)
    else if f == 0.0 then some f
    else if 0 ≤ e then none
    else scaleTen n (f / powerOfTen 308) (e + 308)

/-- The double `± significand · 10 ^ exponent`. -/
def double? (negative : Bool) (significand : Nat) (exponent : Int) : Option JsonNumber :=
  (scaleTen 4 (Float.ofNat significand) exponent).map fun f =>
    .double (Binary64.ofFloat (if negative then -f else f))

/-- The largest exponent that is computed with. -/
def largestExponent : Nat := Nat.pow 2 31 - 1

/-- The value of a literal, if there is a double that large. -/
def Literal.value? (l : Literal) : Option JsonNumber :=
  let (whole, _, beyond) := gather 0 0 l.whole
  match l.fraction, l.exponent, beyond with
  | none, none, 0 =>
    if !l.negative then some (.integer whole)
    else if whole = 0 ∨ Nat.pow 2 63 < whole then double? true whole 0
    else some (.integer (-whole))
  | fraction, exponent, _ =>
    let (significand, taken, _) := gather whole 0 (fraction.getD [])
    let shift : Int := beyond - taken
    match exponent with
    | none => double? l.negative significand shift
    | some e =>
      let size := ofDigits e.digits
      if largestExponent < size then
        if significand ≠ 0 ∧ !e.negative then none
        else some (.double (Binary64.ofFloat (if l.negative then -0.0 else 0.0)))
      else double? l.negative significand (if e.negative then shift - size else shift + size)

/-! ## 3. The text of a number -/

/-- Which powers of ten a double is written positionally for. -/
structure Format where
  leastPositional : Int
  mostPositional : Int

/-- Doubles from `10 ^ -5` up to `10 ^ 16` are written positionally. -/
def format : Format := ⟨-5, 15⟩

/-- A decimal without its sign; an exponent always has one. -/
def renderDecimal (d : Binary64.Decimal) : List Char :=
  let digits := Nat.toDigits 10 d.digits
  let power : Int := d.exponent + digits.length - 1
  if format.leastPositional ≤ power ∧ power ≤ format.mostPositional then
    if 0 ≤ d.exponent then digits ++ List.replicate d.exponent.toNat '0' ++ ['.', '0']
    else if 0 ≤ power then
      digits.take (power.toNat + 1) ++ '.' :: digits.drop (power.toNat + 1)
    else '0' :: '.' :: (List.replicate (-power - 1).toNat '0' ++ digits)
  else
    let mark := ['e', if power < 0 then '-' else '+'] ++ Nat.toDigits 10 power.natAbs
    match digits with
    | [d] => d :: mark
    | d :: rest => d :: '.' :: (rest ++ mark)
    | [] => mark

/-- The text of a number.  What is no finite number is written as `null`. -/
def render : JsonNumber → List Char
  | .integer n => (toString n).toList
  | .double x =>
    if x.isFinite then
      (if x.isNegative then ['-'] else []) ++
        (if x.mantissa = 0 then ['0', '.', '0'] else renderDecimal x.shortest)
    else ['n', 'u', 'l', 'l']

end ScriptWeave.JsonNumber
