/-
# Text between quotation marks, for people

Names are shown between quotation marks where blanks at their ends, or characters that cannot be
seen, would otherwise be lost.  A quotation mark and a backslash get a backslash in front; tab, line
end, carriage return and NUL are written by a letter; any other unprintable character by its code
point, in hexadecimal, between braces.
-/
import ScriptWeave.Text.Unprintable

namespace ScriptWeave.Text

/-- How a character is written between quotation marks. -/
def quotedChar (c : Char) : List Char :=
  if c = '"' then ['\\', '"']
  else if c = '\\' then ['\\', '\\']
  else if c = '\t' then ['\\', 't']
  else if c = '\n' then ['\\', 'n']
  else if c = '\r' then ['\\', 'r']
  else if c = '\x00' then ['\\', '0']
  else if isUnprintable c then ['\\', 'u', '\x7b'] ++ Nat.toDigits 16 c.toNat ++ ['\x7d']
  else [c]

/-- A text between quotation marks. -/
def quoted (s : String) : String := String.ofList ('"' :: (s.toList.flatMap quotedChar ++ ['"']))

/-- Texts between quotation marks, in brackets and with commas between them. -/
def quotedList (l : List String) : String := "[" ++ String.intercalate ", " (l.map quoted) ++ "]"

end ScriptWeave.Text
