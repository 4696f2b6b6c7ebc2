/-
# Texts in complaints

A program that complains of a text puts it between quotation marks, with escapes for what cannot be
seen.  The name of a file is shown as a shell would read it: unchanged if that is possible, between
single quotation marks otherwise, or between double ones if single ones are all that is special in
it.  Bytes that cannot be seen stand outside of them, as escapes.
-/
import ScriptWeave.Shell.Bytes

namespace ScriptWeave.Shell.Program

/-- A byte that can be seen, or a blank. -/
def isVisible (c : UInt8) : Bool := 0x20 ≤ c && c ≤ 0x7E

/-- The three digits of a byte in base eight. -/
def octal (c : UInt8) : Bytes :=
  let n := c.toNat
  bytesOf ([n / 64, n / 8 % 8, n % 8].map Nat.digitChar)

/-- How a byte that cannot be seen is written behind a backslash. -/
def escapeOf? (c : UInt8) : Option Bytes :=
  if isVisible c then none
  else
    match ([(7, 'a'), (8, 'b'), (9, 't'), (10, 'n'), (11, 'v'), (12, 'f'), (13, 'r')] :
        List (UInt8 × Char)).lookup c with
    | some letter => some (bytesOf [letter])
    | none => some (octal c)

/-- A text between quotation marks, with escapes. -/
def quoted (s : Bytes) : Bytes :=
  let shown (c : UInt8) : Bytes :=
    match escapeOf? c with
    | some escape => 0x5C :: escape
    | none => if c = 0x27 ∨ c = 0x5C then [0x5C, c] else [c]
  0x27 :: s.flatMap shown ++ [0x27]

/-- A text between quotation marks as it is. -/
def enclosed (s : Bytes) : Bytes := 0x27 :: s ++ [0x27]

/-! ## 1. Names of files -/

/-- The signs that a name cannot hold unquoted. -/
def specialSigns : Bytes := utf8 " !\"$&'()*:;<=>?[\\^|" ++ [0x60]

/-- A sign at some place of a name of some length is special. -/
def isSpecialAt (length i : Nat) (c : UInt8) : Bool :=
  !isVisible c || specialSigns.contains c
    || (i = 0 && (c = 0x23 || c = 0x7E || (length = 1 && (c = 0x7B || c = 0x7D))))

/-- The sign may stand between double quotation marks. -/
def isPlainAt (length i : Nat) (c : UInt8) : Bool :=
  !isSpecialAt length i c && c ≠ 0x23 && c ≠ 0x7E && c ≠ 0x7B && c ≠ 0x7D
    || c = 0x20 || c = 0x3A || c = 0x27
    || (isSpecialAt length i c && (c = 0x23 || c = 0x7E || c = 0x7B || c = 0x7D))

/-- What remains of a name between single quotation marks; `escaping` says that escapes stand before
it. -/
def singleQuoted (escaping : Bool) : Bytes → Bytes
  | [] => [0x27]
  | c :: rest =>
    match escapeOf? c with
    | some escape =>
      (if escaping then [] else utf8 "'$'") ++ 0x5C :: escape ++ singleQuoted true rest
    | none =>
      if c = 0x27 then utf8 "'\\''" ++ singleQuoted false rest
      else (if escaping then utf8 "''" else []) ++ c :: singleQuoted false rest

/-- The name of a file between quotation marks. -/
def quotedName (name : Bytes) : Bytes :=
  let isPlain : Bool := name.zipIdx.all fun (c, i) => isPlainAt name.length i c
  if name.contains 0x27 && isPlain then 0x22 :: name ++ [0x22]
  else 0x27 :: singleQuoted false name

/-- The name of a file, between quotation marks if it needs them. -/
def shownName (name : Bytes) : Bytes :=
  let isSpecial : Bool := name.zipIdx.any fun (c, i) => isSpecialAt name.length i c
  if isSpecial || name.isEmpty then quotedName name else name

end ScriptWeave.Shell.Program
