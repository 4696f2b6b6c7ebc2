/-
# Sizes, times and percentages for people

Every transformed file is reported in one line:

    Transformed a.js, took 12 ms (1.5 KB -> 512 B, -66.7%)

**Sizes** below 1024 are whole bytes.  A larger size is divided by 1024 until it is below 1024 or
measured in terabytes, and printed with one decimal.  The size is a double while it is divided,
so of a size of `2 ^ 53` bytes and more only the leading 53 bits count; division by 1024 is exact.

**Times** below a second are whole milliseconds, below a minute seconds with one decimal, and
otherwise minutes with one decimal.

**The change of size** is a percentage of the old one, zero for an old size of zero.

The unit of a size is chosen by its exact value and the decimal is rounded after that, so the
printed number can be 1024.0.
-/
import ScriptWeave.Number.Binary64

namespace ScriptWeave.Report

/-! ## 1. Sizes -/

/-- The number of bytes as a double: its leading 53 bits, rounded. -/
def leadingBits (n : Nat) : Nat :=
  let excess := n.log2 + 1 - 53
  Number.roundDiv n (Nat.pow 2 excess) * Nat.pow 2 excess

/-- The larger units, each 1024 times the one before; the first is 1024 bytes. -/
def units : List String := ["KB", "MB", "GB", "TB"]

/-- The unit in which a size of `value / unit` is measured, and how many bytes it has. -/
def chooseUnit (value unit : Nat) : List String → Nat × String
  | [] => (unit, "B")
  | [name] => (unit, name)
  | name :: larger =>
    if value < 1024 * unit then (unit, name) else chooseUnit value (1024 * unit) larger

/-- A number of bytes for people. -/
def sizeText (n : Nat) : String :=
  if n < 1024 then toString n ++ " B"
  else
    let value := leadingBits n
    let (unit, name) := chooseUnit value 1024 units
    Number.oneDecimal value unit ++ " " ++ name

/-! ## 2. Times -/

/-- A time that has passed. -/
structure Elapsed where
  seconds : Nat
  nanoseconds : Nat

/-- A time for people. -/
def timeText (e : Elapsed) : String :=
  let millis := e.seconds * 1000 + e.nanoseconds / 1000000
  if millis < 1000 then toString millis ++ " ms"
  else
    let seconds := Float.ofNat e.seconds + Float.ofNat e.nanoseconds / 1000000000.0
    if seconds < 60.0 then (Binary64.ofFloat seconds).oneDecimal ++ " s"
    else (Binary64.ofFloat (seconds / 60.0)).oneDecimal ++ " min"

/-! ## 3. Changes of size -/

/-- The change of a size in percent of the old one. -/
def growth (before after : Nat) : Binary64 :=
  Binary64.ofFloat <|
    if before = 0 then 0.0 else (Float.ofNat after / Float.ofNat before - 1.0) * 100.0

/-- The report on a transformed file, given the text of the time it took. -/
def doneLine (filename elapsed : String) (before after : Nat) : String :=
  "Transformed " ++ filename ++ ", took " ++ elapsed ++ " (" ++ sizeText before ++ " -> " ++
    sizeText after ++ ", " ++ (growth before after).oneDecimal ++ "%)"

/-- The report on a file that could not be processed, given the text of what went wrong. -/
def failureLine (filename message : String) : String :=
  "Failed to process " ++ filename ++ " due to " ++ message

end ScriptWeave.Report
