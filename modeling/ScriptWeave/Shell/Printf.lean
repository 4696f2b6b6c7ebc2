/-
# Printing by a format

`printf` writes its arguments by a format, which is used again as long as arguments are left.  In a
format a backslash writes a control character or a byte in octal, and a percent sign the next
argument: as text, as text with escapes of its own, as its first byte, or as a number, whole or not.

`echo` writes its arguments with blanks between them; it knows the escapes of `%b`.
-/
import ScriptWeave.Number.Binary64
import ScriptWeave.Shell.Program.Basic

namespace ScriptWeave.Shell.Printf

/-! ## 1. Escapes -/

/-- The byte of an escape by a letter. -/
def letterEscape? (c : UInt8) : Option UInt8 :=
  match c with
  | 0x5C => some 0x5C
  | 0x61 => some 0x07
  | 0x62 => some 0x08
  | 0x65 => some 0x1B
  | 0x66 => some 0x0C
  | 0x6E => some 0x0A
  | 0x72 => some 0x0D
  | 0x74 => some 0x09
  | 0x76 => some 0x0B
  | _ => none

/-- The byte that up to `width` octal digits at the front of a text write. -/
def octal? (width : Nat) (s : Bytes) : Option (UInt8 × Bytes) :=
  let digits := (s.take width).takeWhile fun c => 0x30 ≤ c && c ≤ 0x37
  if digits.isEmpty then none
  else some (digits.foldl (fun n c => n * 8 + (c - 0x30)) 0, s.drop digits.length)

/-- What an escape in a format writes, behind its backslash. -/
def formatEscape (s : Bytes) : Bytes × Bytes :=
  match octal? 3 s, s with
  | some (b, rest), _ => ([b], rest)
  | none, c :: rest =>
    match letterEscape? c with
    | some b => ([b], rest)
    | none => ([0x5C, c], rest)
  | none, [] => ([0x5C], [])

/-- A text with escapes, up to the one that ends all output; `seen` holds what is written, the
latest first.  Also whether output ends. -/
def escaped (seen : Bytes) : Nat → Bytes → Bytes × Bool
  | 0, _ => (seen.reverse, false)
  | _, [] => (seen.reverse, false)
  | _ + 1, 0x5C :: 0x63 :: _ => (seen.reverse, true)
  | n + 1, 0x5C :: 0x30 :: rest =>
    match octal? 3 rest with
    | some (b, rest) => escaped (b :: seen) n rest
    | none => escaped (0 :: seen) n rest
  | n + 1, 0x5C :: rest =>
    let (bytes, rest) := formatEscape rest
    escaped (bytes.reverse ++ seen) n rest
  | n + 1, c :: rest => escaped (c :: seen) n rest

/-! ## 2. Numbers that are given -/

/-- What is wrong with an argument that should be a number. -/
inductive NumberFault where
  | noNumber
  | moreThanNumber
  | outOfRange

/-- The text of the fault. -/
def NumberFault.message : NumberFault → String
  | noNumber => "expected numeric value"
  | moreThanNumber => "not completely converted"
  | outOfRange => "Numerical result out of range"

/-- The byte behind a quotation mark at the front of an argument, whose code is its value. -/
def quotedByte? (arg : Bytes) : Option UInt8 :=
  match arg with
  | 0x22 :: b :: _ | 0x27 :: b :: _ => some b
  | [0x22] | [0x27] => some 0
  | _ => none

/-- What is wrong with an argument, by what is left of it behind its number. -/
def faultOf (arg rest : Bytes) (inRange : Bool) : Option NumberFault :=
  if rest = arg ∧ !arg.isEmpty then some .noNumber
  else if !rest.isEmpty then some .moreThanNumber
  else if inRange then none else some .outOfRange

/-- The value of an argument as a whole number. -/
def integerOf (isSigned : Bool) (arg : Bytes) : Int × Option NumberFault :=
  match quotedByte? arg with
  | some b => (b.toNat, none)
  | none =>
    let (n, rest) := leadingInteger 0 arg
    let n := n.getD 0
    if isSigned then (clamped n, faultOf arg rest (clamped n = n))
    else
      let inRange : Bool := n.natAbs < Nat.pow 2 64
      (if inRange then n else Int.pow 2 64 - 1, faultOf arg rest inRange)

/-- A number that need not be whole: its sign, and its magnitude as a quotient, unless it is
infinite or none. -/
structure Real where
  negative : Bool := false
  value : Except String (Nat × Nat)

/-- The magnitude nearest to a decimal that a double holds, as a quotient. -/
def magnitude (digits : Nat) (exponent : Int) : Except String (Nat × Nat) :=
  let x := Binary64.ofFloat (Float.ofScientific digits (exponent < 0) exponent.natAbs)
  if x.isFinite then .ok (Binary64.scaled x.mantissa x.exponent) else .error "inf"

/-- An exponent behind a number, and the text behind that. -/
def leadingExponent (s : Bytes) : Int × Bytes :=
  match s with
  | e :: rest =>
    if e = 0x65 ∨ e = 0x45 then
      let (negative, digits) :=
        match rest with
        | 0x2D :: rest => (true, rest)
        | 0x2B :: rest => (false, rest)
        | rest => (false, rest)
      match leadingNumber digits with
      | (some n, after) =>
        let n : Int := min n 100000
        (if negative then -n else n, after)
      | (none, _) => (0, s)
    else (0, s)
  | [] => (0, [])

/-- The value of an argument as a number that need not be whole. -/
def realOf (arg : Bytes) : Real × Option NumberFault :=
  match quotedByte? arg with
  | some b => (⟨false, .ok (b.toNat, 1)⟩, none)
  | none =>
    let (negative, body) := unsigned arg
    let word (w : String) : Option Bytes :=
      if utf8 w = lowered (body.take w.length) then some (body.drop w.length) else none
    match (word "infinity" <|> word "inf"), word "nan" with
    | some rest, _ => (⟨negative, .error "inf"⟩, faultOf arg rest true)
    | none, some rest => (⟨negative, .error "nan"⟩, faultOf arg rest true)
    | none, none =>
      let isDigit (c : UInt8) : Bool := 0x30 ≤ c && c ≤ 0x39
      let whole := body.takeWhile isDigit
      let after := body.drop whole.length
      let (places, rest) :=
        match after with
        | 0x2E :: more =>
          let places := more.takeWhile isDigit
          if whole.isEmpty && places.isEmpty then ([], after)
          else (places, more.drop places.length)
        | after => ([], after)
      if whole.isEmpty && places.isEmpty then (⟨false, .ok (0, 1)⟩, faultOf arg arg true)
      else
        match ownBase body with
        | (16, hex) =>
          let digits := hex.takeWhile fun c => digitValue c < 16
          let n := digits.foldl (fun n c => n * 16 + digitValue c) 0
          (⟨negative, magnitude n 0⟩, faultOf arg (hex.drop digits.length) true)
        | _ =>
          let (exponent, rest) := leadingExponent rest
          let n := (whole ++ places).foldl (fun n c => n * 10 + digitValue c) 0
          let value := if n = 0 then .ok (0, 1) else magnitude n (exponent - places.length)
          (⟨negative, value⟩, faultOf arg rest (value.toOption.isSome))

/-! ## 3. Conversions -/

/-- A conversion: its flags, width and precision, and its letter. -/
structure Conversion where
  left : Bool
  zeros : Bool
  plus : Bool
  blank : Bool
  alternate : Bool
  width : Option Nat
  precision : Option Nat
  letter : UInt8

/-- A text, filled up with blanks to the width of a conversion. -/
def filled (c : Conversion) (s : Bytes) : Bytes :=
  let room := List.replicate (c.width.getD 0 - s.length) 0x20
  if c.left then s ++ room else room ++ s

/-- A number, filled up to the width of a conversion; zeros go between its sign and its digits. -/
def filledNumber (c : Conversion) (zeros : Bool) (sign digits : Bytes) : Bytes :=
  if zeros ∧ !c.left then
    sign ++ List.replicate (c.width.getD 0 - sign.length - digits.length) 0x30 ++ digits
  else filled c (sign ++ digits)

/-- The sign of a number that may be positive. -/
def signOf (c : Conversion) (negative : Bool) : Bytes :=
  if negative then [0x2D] else if c.plus then [0x2B] else if c.blank then [0x20] else []

/-- Capitals for the small letters of ASCII. -/
def raised (s : Bytes) : Bytes := s.map fun c => if 0x61 ≤ c ∧ c ≤ 0x7A then c - 0x20 else c

/-- The digits of a number in the base of a conversion. -/
def digitsOf (letter : UInt8) (n : Nat) : Bytes :=
  match letter with
  | 0x6F => bytesOf (Nat.toDigits 8 n)
  | 0x78 => bytesOf (Nat.toDigits 16 n)
  | 0x58 => raised (bytesOf (Nat.toDigits 16 n))
  | _ => bytesOf (Nat.toDigits 10 n)

/-- A whole number as a conversion writes it. -/
def numeral (c : Conversion) (n : Int) : Bytes :=
  let isSigned := c.letter = 0x64 ∨ c.letter = 0x69
  let magnitude := if isSigned then n.natAbs else (n % Int.pow 2 64).toNat
  let digits := if magnitude = 0 ∧ c.precision = some 0 then [] else digitsOf c.letter magnitude
  let digits := List.replicate (c.precision.getD 1 - digits.length) 0x30 ++ digits
  let digits := if c.alternate ∧ c.letter = 0x6F ∧ digits.head? ≠ some 0x30 then 0x30 :: digits
    else digits
  let sign : Bytes :=
    if isSigned then signOf c (n < 0)
    else if c.alternate ∧ c.letter = 0x78 ∧ n ≠ 0 then [0x30, 0x78]
    else if c.alternate ∧ c.letter = 0x58 ∧ n ≠ 0 then [0x30, 0x58] else []
  filledNumber c (c.zeros && c.precision.isNone) sign digits

/-! ## 4. Numbers that need not be whole -/

/-- Digits with a point before the last `places` of them. -/
def pointed (places : Nat) (keepsPoint : Bool) (n : Nat) : Bytes :=
  let digits := decimal n
  let digits := List.replicate (places + 1 - digits.length) 0x30 ++ digits
  let whole := digits.take (digits.length - places)
  if places = 0 then whole ++ (if keepsPoint then [0x2E] else [])
  else whole ++ 0x2E :: digits.drop (digits.length - places)

/-- A quotient with so many places. -/
def fixed (places : Nat) (keepsPoint : Bool) (num den : Nat) : Bytes :=
  pointed places keepsPoint (Number.roundDiv (num * Nat.pow 10 places) den)

/-- The digits of a quotient, one before the point and so many behind it, and the power of ten. -/
def scientific (places : Nat) (num den : Nat) : Nat × Int :=
  if num = 0 then (0, 0)
  else
    let power := Binary64.decimalMagnitude num den - 1
    let shift := (places : Int) - power
    let n := Number.roundDiv (num * Nat.pow 10 shift.toNat) (den * Nat.pow 10 (-shift).toNat)
    if n = Nat.pow 10 (places + 1) then (n / 10, power + 1) else (n, power)

/-- A power of ten behind a number; it has two digits or more. -/
def powerOfTen (power : Int) : Bytes :=
  let digits := decimal power.natAbs
  [0x65, if power < 0 then 0x2D else 0x2B] ++ (if digits.length < 2 then 0x30 :: digits else digits)

/-- A text without the zeros at its end that stand behind a point, and without a point there. -/
def withoutZeros (s : Bytes) : Bytes :=
  if s.contains 0x2E then
    let kept := s.reverse.dropWhile (· = 0x30)
    (if kept.head? = some 0x2E then kept.drop 1 else kept).reverse
  else s

/-- A quotient with so many digits in all, with a power of ten where it is very large or small. -/
def general (digits : Nat) (alternate : Bool) (num den : Nat) : Bytes :=
  let digits := max digits 1
  let (n, power) := scientific (digits - 1) num den
  let strip (s : Bytes) : Bytes := if alternate then s else withoutZeros s
  if -4 ≤ power ∧ power < digits then
    strip (fixed ((digits : Int) - 1 - power).toNat alternate num den)
  else strip (pointed (digits - 1) alternate n) ++ powerOfTen power

/-- A double in base sixteen, with a power of two. -/
def hexadecimal (num den : Nat) : Bytes :=
  if num = 0 then utf8 "0x0p+0"
  else
    let power : Int := (Nat.log2 num : Int) - Nat.log2 den
    let power :=
      if num * Nat.pow 2 (-power).toNat < den * Nat.pow 2 power.toNat then power - 1 else power
    let shift := 52 - power
    let n := num * Nat.pow 2 shift.toNat / (den * Nat.pow 2 (-shift).toNat)
    let digits := bytesOf (Nat.toDigits 16 n)
    let shown := withoutZeros (digits.take 1 ++ 0x2E :: digits.drop 1)
    utf8 "0x" ++ shown ++ [0x70, if power < 0 then 0x2D else 0x2B] ++ decimal power.natAbs

/-- A number that need not be whole, as a conversion writes it. -/
def realNumeral (c : Conversion) (x : Real) : Bytes :=
  let sign := signOf c x.negative
  let raise (s : Bytes) : Bytes := if c.letter < 0x61 then raised s else s
  match x.value with
  | .error name => filledNumber c false sign (raise (utf8 name))
  | .ok (num, den) =>
    let precision := c.precision.getD 6
    let digits :=
      match c.letter with
      | 0x66 | 0x46 => fixed precision c.alternate num den
      | 0x65 | 0x45 =>
        let (n, power) := scientific precision num den
        pointed precision c.alternate n ++ powerOfTen power
      | 0x67 | 0x47 => general precision c.alternate num den
      | _ => hexadecimal num den
    filledNumber c c.zeros sign (raise digits)

/-! ## 5. Formats -/

/-- What has been written so far. -/
structure Progress where
  /-- The latest first. -/
  output : List Bytes := []
  errors : Bytes := []
  args : List Bytes
  /-- An argument was asked for. -/
  asked : Bool := false
  ended : Bool := false
  status : Nat := 0

/-- The progress with something written. -/
def Progress.put (p : Progress) (bytes : Bytes) : Progress := { p with output := bytes :: p.output }

/-- The progress with a complaint about an argument, if there is something wrong with it. -/
def Progress.about (p : Progress) (place arg : Bytes) (fault : Option NumberFault) : Progress :=
  match fault with
  | none => p
  | some fault =>
    { p with
      errors := p.errors ++ place ++ arg ++ utf8 (": " ++ fault.message ++ "\n"), status := 1 }

/-- The progress after a format that cannot go on. -/
def Progress.broken (p : Progress) (place text : Bytes) : Progress :=
  { p with errors := p.errors ++ place ++ text ++ [0x0A], status := 2, ended := true }

/-- The next argument. -/
def Progress.next (p : Progress) : Bytes × Progress :=
  (p.args.headD [], { p with args := p.args.drop 1, asked := true })

/-- A number of a conversion: one that is given in the format, or by an argument. -/
def readAmount (place : Bytes) (s : Bytes) (p : Progress) : Option Int × Bytes × Progress :=
  match s with
  | 0x2A :: rest =>
    let (arg, p) := p.next
    let (n, fault) := integerOf true arg
    (some n, rest, p.about place arg fault)
  | s =>
    let digits := s.takeWhile fun c => 0x30 ≤ c && c ≤ 0x39
    (((leadingNumber digits).1).map Int.ofNat, s.drop digits.length, p)

/-- Reads a conversion behind its percent sign; none if the text ends before its letter. -/
def readConversion (place : Bytes) (s : Bytes) (p : Progress) :
    Option (Conversion × Bytes) × Progress :=
  let flags := s.takeWhile fun c => [0x2D, 0x30, 0x2B, 0x20, 0x23].contains c
  let (width, rest, p) := readAmount place (s.drop flags.length) p
  let (precision, rest, p) :=
    match rest with
    | 0x2E :: rest =>
      let (n, rest, p) := readAmount place rest p
      (some (n.getD 0), rest, p)
    | rest => (none, rest, p)
  match rest with
  | [] => (none, p)
  | c :: rest =>
    let conversion : Conversion :=
      { left := flags.contains 0x2D || width.any (· < 0), zeros := flags.contains 0x30
        plus := flags.contains 0x2B, blank := flags.contains 0x20
        alternate := flags.contains 0x23, width := width.map Int.natAbs
        precision := (precision.filter (0 ≤ ·)).map Int.toNat, letter := c }
    (some (conversion, rest), p)

/-- Writes an argument by a conversion; `spelling` is how the conversion is written. -/
def convert (place spelling : Bytes) (c : Conversion) (p : Progress) : Progress :=
  match Char.ofNat c.letter.toNat with
  | 's' =>
    let (arg, p) := p.next
    p.put (filled c ((c.precision.map fun k => arg.take k).getD arg))
  | 'b' =>
    let (arg, p) := p.next
    let (text, ended) := escaped [] (arg.length + 1) arg
    let p := p.put (filled c ((c.precision.map fun k => text.take k).getD text))
    { p with ended }
  | 'c' =>
    let (arg, p) := p.next
    p.put (filled c (if arg.isEmpty then [0] else arg.take 1))
  | 'd' | 'i' =>
    let (arg, p) := p.next
    let (n, fault) := integerOf true arg
    (p.about place arg fault).put (numeral c n)
  | 'o' | 'u' | 'x' | 'X' =>
    let (arg, p) := p.next
    let (n, fault) := integerOf false arg
    (p.about place arg fault).put (numeral c n)
  | 'e' | 'E' | 'f' | 'F' | 'g' | 'G' | 'a' | 'A' =>
    let (arg, p) := p.next
    let (x, fault) := realOf arg
    (p.about place arg fault).put (realNumeral c x)
  | _ => p.broken place (0x25 :: spelling ++ utf8 ": invalid directive")

/-- Writes by a format once, given enough steps; `place` is put before a complaint. -/
def once (place : Bytes) : Nat → Bytes → Progress → Progress
  | 0, _, p => p
  | _, [], p => p
  | n + 1, c :: rest, p =>
    match c with
    | 0x5C =>
      let (bytes, rest) := formatEscape rest
      once place n rest (p.put bytes)
    | 0x25 =>
      match rest with
      | 0x25 :: rest => once place n rest (p.put [0x25])
      | rest =>
        match readConversion place rest p with
        | (none, p) => p.broken place (utf8 "missing format character")
        | (some (conversion, after), p) =>
          let p := convert place (rest.take (rest.length - after.length)) conversion p
          if p.ended then p else once place n after p
    | _ =>
      let run := (c :: rest).takeWhile fun c => c ≠ 0x5C && c ≠ 0x25
      once place n ((c :: rest).drop run.length) (p.put run)

/-- Writes by a format as often as there are arguments for, given enough steps. -/
def repeatedly (place format : Bytes) : Nat → Progress → Progress
  | 0, p => p
  | n + 1, p =>
    let p := once place (format.length + 1) format { p with asked := false }
    if p.ended ∨ !p.asked ∨ p.args.isEmpty then p else repeatedly place format n p

/-- What a command of the shell writes: what it complains of comes before what it has gathered. -/
def ran (output errors : Bytes) (status : Nat) : Ran where
  pieces :=
    (if errors.isEmpty then [] else [Piece.error errors])
      ++ (if output.isEmpty then [] else [Piece.output output])
  status := status
  left := none

/-- Writes its arguments by its first one. -/
def printf (place : Bytes) (args : List Bytes) : Ran :=
  let marked := args.head? = some [0x2D, 0x2D]
  match if marked then args.drop 1 else args with
  | [] => ran [] (place ++ utf8 "usage: printf format [arg ...]\n") 2
  | format :: args =>
    match if marked then [] else format with
    | 0x2D :: letter :: _ => ran [] (place ++ utf8 "Illegal option -" ++ [letter, 0x0A]) 2
    | _ =>
      let p := repeatedly place format (args.length + 1) { args }
      ran p.output.reverse.flatten p.errors p.status

/-- Writes its arguments. -/
def echo (args : List Bytes) : Ran :=
  let (quiet, args) :=
    match args with
    | [0x2D, 0x6E] :: rest => (true, rest)
    | args => (false, args)
  let text := [0x20].intercalate args
  let (text, ended) := escaped [] (text.length + 1) text
  ran (if quiet ∨ ended then text else text ++ [0x0A]) [] 0

end ScriptWeave.Shell.Printf
