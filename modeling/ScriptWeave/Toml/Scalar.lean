/-
# Numbers, truth values and dates in TOML

A value that is neither a text nor a bracket is one run of characters; what it is follows from how
it is spelled.

* **Whole numbers** are decimal, without a zero in front, or hexadecimal, octal or binary behind
  `0x`, `0o` or `0b`, without a sign.  Underscores may stand between digits.
* **Floats** have a fraction, an exponent or both, and mean the nearest double.  `inf` and `nan` may
  have a sign.
* **Dates and times** follow the calendar, leap years included.  A date and a time may be separated
  by a blank, and the seconds may be left out.  The normal form has a `T` between date and time,
  a capital `Z`, and no zeros at the end of the fraction.
-/
import ScriptWeave.Toml.Value
import ScriptWeave.Toml.Text

namespace ScriptWeave.Toml

/-! ## 1. Numbers -/

/-- The digits of a run in which underscores may stand between digits. -/
def groupedDigits? (isDigit : Char → Bool) (s : List Char) : Option (List Char) :=
  let groups := s.splitOn '_'
  if groups.all (fun g => g ≠ [] ∧ g.all isDigit) then some groups.flatten else none

/-- The digits of a decimal whole number: no zero in front of another digit. -/
def wholeDigits? (s : List Char) : Option (List Char) :=
  match groupedDigits? Char.isDigit s with
  | some ('0' :: _ :: _) => none
  | digits => digits

/-- A sign and what follows it. -/
def splitSign : List Char → Bool × List Char
  | '-' :: rest => (true, rest)
  | '+' :: rest => (false, rest)
  | s => (false, s)

/-- The number that digits write in a base. -/
def ofBase (base : Nat) (digits : List Char) : Nat :=
  digits.foldl (fun n c => n * base + (Json.hexValue? c).getD 0) 0

/-- A digit of a base up to sixteen. -/
def isDigitOf (base : Nat) (c : Char) : Bool := (Json.hexValue? c).any (· < base)

/-- Reads a whole number. -/
def readInteger? : List Char → Option Toml
  | '0' :: 'x' :: s => (groupedDigits? (isDigitOf 16) s).map fun d => integer (ofBase 16 d)
  | '0' :: 'o' :: s => (groupedDigits? (isDigitOf 8) s).map fun d => integer (ofBase 8 d)
  | '0' :: 'b' :: s => (groupedDigits? (isDigitOf 2) s).map fun d => integer (ofBase 2 d)
  | s =>
    let (negative, body) := splitSign s
    (wholeDigits? body).map fun d =>
      integer (if negative then -(ofBase 10 d : Int) else ofBase 10 d)

/-- The double nearest to `digits · 10 ^ exponent`; what is beyond every double is infinite, and
what is far below the least one is zero. -/
def nearest (digits : Nat) (exponent : Int) : Float :=
  let power := exponent + (Nat.toDigits 10 digits).length
  if digits = 0 ∨ power < -400 then 0.0
  else if 400 < power then 1.0 / 0.0
  else if 0 ≤ exponent then Float.ofScientific (digits * Nat.pow 10 exponent.toNat) false 0
  else Float.ofScientific digits true (-exponent).toNat

/-- Splits a run at its exponent mark. -/
def splitExponent (s : List Char) : List Char × Option (List Char) :=
  match s.span fun c => c ≠ 'e' ∧ c ≠ 'E' with
  | (mantissa, []) => (mantissa, none)
  | (mantissa, _ :: exponent) => (mantissa, some exponent)

/-- Reads an exponent behind its mark. -/
def readExponent? (s : List Char) : Option Int :=
  let (negative, body) := splitSign s
  (groupedDigits? Char.isDigit body).map fun d =>
    if negative then -(ofBase 10 d : Int) else ofBase 10 d

/-- Reads the digits of a float without its sign. -/
def readMagnitude? (s : List Char) : Option Float := do
  let (mantissa, exponent) := splitExponent s
  let shift ← match exponent with
    | some e => readExponent? e
    | none => some 0
  match mantissa.span (· ≠ '.'), exponent with
  | (_, []), none => none
  | (whole, []), some _ => return nearest (ofBase 10 (← wholeDigits? whole)) shift
  | (whole, _ :: fraction), _ =>
    let whole ← wholeDigits? whole
    let fraction ← groupedDigits? Char.isDigit fraction
    return nearest (ofBase 10 (whole ++ fraction)) (shift - fraction.length)

/-- Reads a float. -/
def readFloat? (s : List Char) : Option Toml :=
  let (negative, body) := splitSign s
  let signed (x : Float) : Toml := float (Binary64.ofFloat (if negative then -x else x))
  match body with
  | ['i', 'n', 'f'] => some (signed (1.0 / 0.0))
  | ['n', 'a', 'n'] => some (signed (0.0 / 0.0))
  | body =>
    match readMagnitude? body with
    | some x => some (if x.isInf then overflow else signed x)
    | none => none

/-! ## 2. Dates and times -/

/-- A year has a 29th of February. -/
def isLeapYear (year : Nat) : Bool := year % 4 = 0 && (year % 100 != 0 || year % 400 = 0)

/-- The number of days of a month. -/
def monthLength (year month : Nat) : Nat :=
  if month = 2 then (if isLeapYear year then 29 else 28)
  else if month = 4 ∨ month = 6 ∨ month = 9 ∨ month = 11 then 30 else 31

/-- Reads exactly `width` decimal digits. -/
def readDigits (width : Nat) (s : List Char) : Option (Nat × List Char) :=
  let digits := s.take width
  if digits.length = width ∧ digits.all Char.isDigit then some (ofBase 10 digits, s.drop width)
  else none

/-- Reads one given character. -/
def expect (c : Char) : List Char → Option (List Char)
  | d :: rest => if d = c then some rest else none
  | [] => none

/-- A date in its normal form, and what follows it. -/
def readDate (s : List Char) : Option (List Char × List Char) := do
  let (year, s₁) ← readDigits 4 s
  let (month, s₂) ← readDigits 2 (← expect '-' s₁)
  let (day, rest) ← readDigits 2 (← expect '-' s₂)
  if 1 ≤ month ∧ month ≤ 12 ∧ 1 ≤ day ∧ day ≤ monthLength year month then return (s.take 10, rest)
  else none

/-- The digits of a fraction of a second in their normal form: at most nine of them, and no zeros at
the end. -/
def normalFraction (digits : List Char) : List Char :=
  match ((digits.take 9).reverse.dropWhile (· = '0')).reverse with
  | [] => ['0']
  | digits => digits

/-- The seconds of a time in their normal form, if there are any, and what follows them. -/
def readSeconds : List Char → Option (List Char × List Char)
  | ':' :: s => do
    let (second, rest) ← readDigits 2 s
    if 60 < second then none
    else
      match rest with
      | '.' :: rest =>
        match rest.span Char.isDigit with
        | ([], _) => none
        | (digits, rest) => return (':' :: s.take 2 ++ '.' :: normalFraction digits, rest)
      | rest => return (':' :: s.take 2, rest)
  | s => some ([], s)

/-- A time in its normal form, and what follows it. -/
def readTime (s : List Char) : Option (List Char × List Char) := do
  let (hour, s₁) ← readDigits 2 s
  let (minute, s₂) ← readDigits 2 (← expect ':' s₁)
  let (seconds, rest) ← readSeconds s₂
  if hour ≤ 23 ∧ minute ≤ 59 then return (s.take 5 ++ seconds, rest) else none

/-- A distance from universal time in its normal form, if there is one; nothing may follow it.  A
distance of nothing is positive. -/
def readOffset : List Char → Option (List Char)
  | [] => some []
  | ['Z'] => some ['Z']
  | ['z'] => some ['Z']
  | sign :: s => do
    let (hour, s₁) ← readDigits 2 s
    let (minute, rest) ← readDigits 2 (← expect ':' s₁)
    if (sign = '+' ∨ sign = '-') ∧ hour ≤ 23 ∧ minute ≤ 59 ∧ rest = [] then
      return (if hour = 0 ∧ minute = 0 then '+' else sign) :: s.take 5
    else none

/-- Reads a date, a time, or both. -/
def readDatetime? (s : List Char) : Option Toml :=
  match readDate s with
  | some (date, []) => some (datetime (String.ofList date))
  | some (date, mark :: rest) =>
    if mark = 'T' ∨ mark = 't' ∨ mark = ' ' then do
      let (time, rest) ← readTime rest
      let offset ← readOffset rest
      return datetime (String.ofList (date ++ 'T' :: (time ++ offset)))
    else none
  | none =>
    match readTime s with
    | some (time, []) => some (datetime (String.ofList time))
    | _ => none

/-! ## 3. Runs -/

/-- A character of a run. -/
def isRunChar (c : Char) : Bool :=
  c.isAlphanum || c == '_' || c == '-' || c == '+' || c == '.' || c == ':'

/-- Splits a run off the front of a text.  A date takes the time behind one blank with it. -/
def spanRun (s : List Char) : List Char × List Char :=
  let (run, rest) := s.span isRunChar
  match rest with
  | ' ' :: d :: rest' =>
    if (readDate run).any (fun r => r.2 = []) ∧ d.isDigit then
      let (time, rest'') := (d :: rest').span isRunChar
      (run ++ ' ' :: time, rest'')
    else (run, rest)
  | _ => (run, rest)

/-- The value of a run. -/
def ofRun? (run : List Char) : Option Toml :=
  if run = ['t', 'r', 'u', 'e'] then some (bool true)
  else if run = ['f', 'a', 'l', 's', 'e'] then some (bool false)
  else (readInteger? run).or ((readFloat? run).or (readDatetime? run))

end ScriptWeave.Toml
