/-
# Shell commands

A compiler is a command that a shell runs.  Here is what such a command is: words with quotes and
expansions in them, simple commands with redirections, and the ways to put commands together.

Words are kept unexpanded.  Every part of a word says whether it stood between quotes, because that
decides whether what it expands to is split into fields, and whether it can be part of a pattern.

The text of a here-document comes after the command that reads it, perhaps after the whole line.  So
a command holds the number of the document only, and the texts are kept apart.
-/

namespace ScriptWeave.Shell

/-- What an expansion of a parameter does besides giving its value. -/
inductive ParameterUse where
  | value
  | length
  /-- The value, or a word if there is none; `orEmpty` says that an empty value is none. -/
  | orElse (orEmpty : Bool)
  /-- As before, and the word becomes the value. -/
  | orAssign (orEmpty : Bool)
  /-- The value; if there is none, the word is what is complained of. -/
  | orFail (orEmpty : Bool)
  /-- The word, if there is a value. -/
  | ifSet (orEmpty : Bool)
  /-- The value without a pattern at its front; `longest` says which of several matches. -/
  | withoutFront (longest : Bool)
  /-- The value without a pattern at its end. -/
  | withoutEnd (longest : Bool)
  /-- There is no such use. -/
  | bad

/-- How a redirection opens a file. -/
inductive OpenKind where
  | read
  | write
  /-- As before, even where files are protected from it. -/
  | overwrite
  | append
  | readWrite
  deriving DecidableEq

mutual

/-- A part of a word. -/
inductive WordPart where
  | literal (text : List Char) (quoted : Bool)
  /-- Quotes stand here, perhaps with nothing in them. -/
  | quotes
  | parameter (name : String) (use : ParameterUse) (argument : List WordPart) (quoted : Bool)
  | substitution (command : Command) (quoted : Bool)
  | arithmetic (expression : List WordPart) (quoted : Bool)

/-- A redirection of a descriptor. -/
inductive Redirect where
  | file (descriptor : Nat) (kind : OpenKind) (target : List WordPart)
  /-- To where another descriptor goes. -/
  | duplicate (descriptor : Nat) (source : List WordPart)
  /-- From the here-document of a number. -/
  | document (descriptor : Nat) (number : Nat)

/-- A command. -/
inductive Command where
  | simple (line : Nat) (assignments : List (String × List WordPart))
      (words : List (List WordPart)) (redirects : List Redirect)
  | pipeline (commands : List Command)
  | negated (command : Command)
  | both (first second : Command)
  | either (first second : Command)
  | sequence (commands : List Command)
  | background (command : Command)
  | redirected (line : Nat) (body : Command) (redirects : List Redirect)
  | subshell (line : Nat) (body : Command) (redirects : List Redirect)
  | conditional (test yes no : Command)
  | loop (untilTrue : Bool) (test body : Command)
  | each (line : Nat) (name : String) (words : Option (List (List WordPart))) (body : Command)
  | choice (line : Nat) (subject : List WordPart)
      (arms : List (List (List WordPart) × Command))
  | define (name : String) (body : Command)

end

/-- A word: parts side by side. -/
abbrev Word := List WordPart

/-- The command that does nothing. -/
def Command.nothing : Command := .sequence []

end ScriptWeave.Shell
