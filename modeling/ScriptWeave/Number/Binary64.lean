/-
# Doubles, exactly

A number that is no 64-bit integer is a double of IEEE 754.  Everything that is printed of one
is decided in exact natural-number arithmetic on its decoded form, mantissa times a power of
two; the floating-point unit only computes values, it never chooses digits.

* **Decoding.**  A finite double is `± mantissa · 2 ^ exponent` (sections 1 and 2).
* **The shortest decimal.**  Reals that are nearer to the double than to its neighbours form an
  interval, ends included exactly when the mantissa is even.  A decimal reads back as the double
  exactly when it lies in it.  `shortest` takes the coarsest decimal grid that has a point there,
  and of two such points the nearer one (section 3).
* **One decimal.**  The exact value, rounded, ties to even; a negative value that rounds to zero
  keeps its sign (section 4).
-/
import ScriptWeave.Number.Rounding

namespace ScriptWeave

/-- A double, by its sixty-four bits. -/
structure Binary64 where
  bits : UInt64
  deriving DecidableEq, Inhabited

namespace Binary64

/-! ## 1. Bits -/

/-- The bits of a computed value. -/
def ofFloat (x : Float) : Binary64 := ⟨x.toBits⟩

/-- The sign bit is set. -/
def isNegative (x : Binary64) : Bool := Nat.pow 2 63 ≤ x.bits.toNat

/-- The eleven bits of the biased exponent. -/
def biasedExponent (x : Binary64) : Nat := x.bits.toNat / Nat.pow 2 52 % Nat.pow 2 11

/-- The fifty-two bits of the fraction. -/
def fraction (x : Binary64) : Nat := x.bits.toNat % Nat.pow 2 52

/-- Neither infinite nor a NaN. -/
def isFinite (x : Binary64) : Bool := x.biasedExponent != Nat.pow 2 11 - 1

/-! ## 2. The decoded value -/

/-- The whole number that is scaled; the hidden bit is in it. -/
def mantissa (x : Binary64) : Nat :=
  if x.biasedExponent = 0 then x.fraction else Nat.pow 2 52 + x.fraction

/-- The power of two that scales the mantissa. -/
def exponent (x : Binary64) : Int := (max x.biasedExponent 1 : Nat) - 1075

/-- The mantissa times a power of two, as a quotient of naturals. -/
def scaled (m : Nat) (e : Int) : Nat × Nat :=
  if 0 ≤ e then (m * Nat.pow 2 e.toNat, 1) else (m, Nat.pow 2 (-e).toNat)

/-! ## 3. The shortest decimal that reads back -/

/-- A decimal number `digits · 10 ^ exponent`. -/
structure Decimal where
  digits : Nat
  exponent : Int
  deriving DecidableEq

/-- How many decimal digits a number is written with. -/
def digitCount (n : Nat) : Nat := (Nat.toDigits 10 n).length

/-- The number of digits before the decimal point of `num / den`, or minus the number of zeros
after it: the `k` with `10 ^ (k - 1) ≤ num / den < 10 ^ k`. -/
def decimalMagnitude (num den : Nat) : Int :=
  let k : Int := digitCount num - digitCount den
  let reaches := if 0 ≤ k then den * Nat.pow 10 k.toNat ≤ num else den ≤ num * Nat.pow 10 (-k).toNat
  if reaches then k + 1 else k

/-- The reals that round to a double, as quotients over one denominator. -/
structure Interval where
  low : Nat
  value : Nat
  high : Nat
  den : Nat
  closed : Bool

/-- The point `num / den` lies in the interval. -/
def Interval.holds (i : Interval) (num den : Nat) : Bool :=
  let low := compare (i.low * den) (num * i.den)
  let high := compare (num * i.den) (i.high * den)
  if i.closed then low.isLE && high.isLE else low.isLT && high.isLT

/-- The reals nearer to `x` than to another double.  The gap below a power of two is half the gap
above it. -/
def interval (x : Binary64) : Interval :=
  let m := x.mantissa
  let below := if x.fraction = 0 ∧ 1 < x.biasedExponent then 1 else 2
  let up := Nat.pow 2 (x.exponent - 2).toNat
  let down := Nat.pow 2 (2 - x.exponent).toNat
  { low := (4 * m - below) * up, value := 4 * m * up, high := (4 * m + 2) * up, den := down,
    closed := m % 2 = 0 }

/-- The point nearest to the value on the grid of multiples of `10 ^ e`, if it or its neighbour on
the other side of the value lies in the interval. -/
def Interval.gridPoint? (i : Interval) (e : Int) : Option Nat :=
  let num := i.value * Nat.pow 10 (-e).toNat
  let den := i.den * Nat.pow 10 e.toNat
  let c := num / den
  let fits (c : Nat) : Bool := i.holds (c * Nat.pow 10 e.toNat) (Nat.pow 10 (-e).toNat)
  match fits c, fits (c + 1) with
  | true, true => some (Number.roundDiv num den)
  | true, false => some c
  | false, true => some (c + 1)
  | false, false => none

/-- The same number with no zero at the end of its digits. -/
def Decimal.strip : Nat → Decimal → Decimal
  | 0, d => d
  | n + 1, d =>
    if d.digits ≠ 0 ∧ d.digits % 10 = 0 then Decimal.strip n ⟨d.digits / 10, d.exponent + 1⟩ else d

/-- The decimal with the fewest digits that reads back as the finite double `x`, its sign set
aside.  Seventeen digits always suffice. -/
def shortest (x : Binary64) : Decimal :=
  if x.mantissa = 0 then ⟨0, 0⟩
  else
    let i := x.interval
    let k := decimalMagnitude i.value i.den
    let hit := (List.range 17).findSome? fun (n : Nat) =>
      (i.gridPoint? (k - (n + 1))).map fun c => Decimal.mk c (k - (n + 1))
    Decimal.strip 20 (hit.getD ⟨0, 0⟩)

/-! ## 4. One decimal -/

/-- A finite double with exactly one decimal. -/
def oneDecimal (x : Binary64) : String :=
  let (num, den) := scaled x.mantissa x.exponent
  (if x.isNegative then "-" else "") ++ Number.oneDecimal num den

end Binary64

end ScriptWeave
