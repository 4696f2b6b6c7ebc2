/-
# What a compiler says when it fails

A failing compiler prints text: a message, usually followed by the frames of a stack.  Two things
are done with it.

* **Cutting** (`Diagnosis.ofOutput`).  The message ends before the first line, after the
  very first one, that is a stack frame; the stack is the rest.
* **Resetting** (`Diagnosis.resetText`).  Compilers colour their messages and do not always end the
  colour.  So every line after the first that is no stack frame gets a sequence in front that
  resets the terminal's style.  Message and stack are reset as one text and parted again behind as
  many lines as the message has.

A stack frame is a line of one blank or more, the word `at`, and then a blank or nothing.

**Stated here.**  Resetting keeps the number of lines (`length_resetLines`), and a line is a stack
frame after it exactly when it was one before (`isFrame_resetLine`).
-/
import ScriptWeave.Text.Blank

namespace ScriptWeave

/-- What a compiler says when it fails: its message, and the frames of a stack. -/
structure Diagnosis where
  message : String
  stack : Option String
  deriving DecidableEq, Inhabited

namespace Diagnosis

open ScriptWeave.Text

/-! ## 1. Lines -/

/-- The lines of a text; a text without a line end is one line. -/
def lines (s : List Char) : List (List Char) := s.splitOn '\n'

/-- The text of some lines. -/
def unlines (ls : List (List Char)) : List Char := ['\n'].intercalate ls

/-- The lines of a text make it up. -/
theorem unlines_lines (s : List Char) : unlines (lines s) = s :=
  List.intercalate_splitOn '\n'

/-! ## 2. Stack frames -/

/-- The line is a stack frame. -/
def isFrame (line : List Char) : Bool :=
  match line with
  | [] => false
  | c :: _ =>
    isBlank c &&
      match trimStart line with
      | 'a' :: 't' :: rest => rest.head?.all isBlank
      | _ => false

/-! ## 3. Resetting -/

/-- The sequence that resets all colours and styles of a terminal. -/
def resetCode : List Char := ['\x1b', '[', '0', 'm']

/-- A later line of a message: reset, unless it is a stack frame. -/
def resetLine (line : List Char) : List Char :=
  if isFrame line then line else resetCode ++ line

/-- The lines, every one after the first reset. -/
def resetLines : List (List Char) → List (List Char)
  | [] => []
  | first :: rest => first :: rest.map resetLine

/-- The text, every line after the first reset. -/
def resetText (s : List Char) : List Char := unlines (resetLines (lines s))

/-- Message and stack, reset as one text and parted again. -/
def resetBoth (message : List Char) (stack : Option (List Char)) :
    List Char × Option (List Char) :=
  match stack with
  | none => (resetText message, none)
  | some stack =>
    let combined := lines (resetText (message ++ '\n' :: stack))
    let count := (lines message).length
    (unlines (combined.take count), some (unlines (combined.drop count)))

/-- A line that is reset is no stack frame. -/
theorem isFrame_resetCode (line : List Char) : isFrame (resetCode ++ line) = false := by
  simp [resetCode, isFrame, isBlank]

/-- Resetting a line does not change whether it is a stack frame. -/
theorem isFrame_resetLine (line : List Char) :
    isFrame (resetLine line) = isFrame line := by
  unfold resetLine
  split
  · rfl
  · next h => simp [isFrame_resetCode, h]

theorem length_resetLines (ls : List (List Char)) : (resetLines ls).length = ls.length := by
  cases ls <;> simp [resetLines]

/-! ## 4. Cutting -/

/-- The lines before the first stack frame after the first line, and the lines from it on. -/
def cut : List (List Char) → List (List Char) × List (List Char)
  | [] => ([], [])
  | first :: rest =>
    (first :: rest.takeWhile fun line => !isFrame line,
      rest.dropWhile fun line => !isFrame line)

/-- Cutting loses no line. -/
theorem cut_append (ls : List (List Char)) : (cut ls).1 ++ (cut ls).2 = ls := by
  cases ls with
  | nil => rfl
  | cons first rest =>
    simp [cut, List.takeWhile_append_dropWhile]

/-- A diagnosis without a stack. -/
def ofMessage (message : String) : Diagnosis := ⟨message, none⟩

/-- The diagnosis that a compiler's output makes. -/
def ofOutput (text : List Char) : Diagnosis :=
  let text := Text.trimEnd text
  match cut (lines text) with
  | (_, []) => ofMessage (String.ofList text)
  | (message, frames) => ⟨String.ofList (unlines message), some (String.ofList (unlines frames))⟩

/-- The diagnosis with its message and stack reset. -/
def withResets (d : Diagnosis) : Diagnosis :=
  let (message, stack) := resetBoth d.message.toList (d.stack.map String.toList)
  ⟨String.ofList message, stack.map String.ofList⟩

end Diagnosis

end ScriptWeave
