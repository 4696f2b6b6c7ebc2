/-
# The text of a script, being read

A script is read from its front to its end, line by line: a line is run before the next one is read.
What remains to be read is a `Source`, together with the here-documents whose text is still to come,
and the texts of those that have been read.
-/
import ScriptWeave.Shell.Bytes
import ScriptWeave.Shell.Syntax

namespace ScriptWeave.Shell

/-! ## 1. Errors -/

/-- What is wrong with a command. -/
inductive SyntaxError where
  | unterminatedQuote
  | unterminatedSubstitution
  | missingBrace
  | missingParentheses
  | badFunctionName
  | badLoopVariable
  | badDescriptor
  /-- Something stands where it cannot; perhaps something else was needed. -/
  | unexpected (found : String) (needed : Option String)
  deriving DecidableEq

namespace SyntaxError

/-- The text of the error. -/
def message : SyntaxError → String
  | unterminatedQuote => "Unterminated quoted string"
  | unterminatedSubstitution => "EOF in backquote substitution"
  | missingBrace => "Missing '\x7d'"
  | missingParentheses => "Missing '))'"
  | badFunctionName => "Bad function name"
  | badLoopVariable => "Bad for loop variable"
  | badDescriptor => "Bad fd number"
  | unexpected found none => found ++ " unexpected"
  | unexpected found (some needed) => found ++ " unexpected (expecting " ++ needed ++ ")"

end SyntaxError

/-! ## 2. Sources -/

/-- A here-document whose text is still to come. -/
structure Document where
  number : Nat
  /-- The line that ends the text. -/
  ending : List Char
  /-- Tabs at the fronts of its lines do not count. -/
  stripsTabs : Bool
  /-- Nothing is expanded in it. -/
  plain : Bool

/-- What is being read. -/
structure Source where
  text : List Char
  line : Nat := 1
  /-- How many here-documents there have been. -/
  documents : Nat := 0
  /-- Those whose text is still to come, in order. -/
  pending : List Document := []
  /-- The texts of the others, by number. -/
  bodies : List (Nat × Word) := []
  /-- The words that stand for other text at the front of a command. -/
  aliases : List (String × List Char) := []

/-- Reading something, which may fail on a line. -/
abbrev Reading := StateT Source (Except (SyntaxError × Nat))

namespace Reading

/-- Fails where reading has come to. -/
def fail {α : Type} (e : SyntaxError) : Reading α := do throw (e, (← get).line)

/-- The text that remains. -/
def remaining : Reading (List Char) := return (← get).text

/-- Goes on with another text. -/
def goOn (text : List Char) : Reading Unit := modify fun s => { s with text }

/-- Goes on behind a number of characters, none of them a line end. -/
def skip (n : Nat) : Reading Unit := modify fun s => { s with text := s.text.drop n }

/-- Goes on with another text, on the next line. -/
def nextLine (text : List Char) : Reading Unit :=
  modify fun s => { s with text, line := s.line + 1 }

/-- Reads something from a text of its own, and then goes on where reading was. -/
def within {α : Type} (text : List Char) (read : Reading α) : Reading α := do
  let outer ← get
  set { outer with text, pending := [] }
  let found ← read
  modify fun s => { s with text := outer.text, line := outer.line, pending := outer.pending }
  return found

end Reading

/-! ## 3. Characters and words -/

namespace Reader

/-- A blank inside a line. -/
def isBlank (c : Char) : Bool := c = ' ' || c = '\t'

/-- A character that ends a word unless it is quoted. -/
def isMeta (c : Char) : Bool :=
  isBlank c || c = '\n' || c = ';' || c = '&' || c = '|' || c = '<' || c = '>' || c = '(' || c = ')'

/-- A character that a name can start with. -/
def isNameStart (c : Char) : Bool := c.isAlpha || c = '_'

/-- A character of a name. -/
def isNameChar (c : Char) : Bool := c.isAlphanum || c = '_'

/-- The characters are a name. -/
def isName (s : List Char) : Bool := s.head?.any isNameStart && s.all isNameChar

/-- The quotation mark that opens and closes a substitution. -/
def backquote : Char := Char.ofNat 0x60

/-- The text behind line ends that are taken back by a backslash, and how many there are. -/
def joined : List Char → List Char × Nat
  | '\\' :: '\n' :: rest => let (text, n) := joined rest; (text, n + 1)
  | rest => (rest, 0)

/-- The text behind blanks, joined lines and a comment; and how many lines were joined. -/
def behindBlanks : List Char → List Char × Nat
  | '\\' :: '\n' :: rest => let (text, n) := behindBlanks rest; (text, n + 1)
  | c :: rest =>
    if isBlank c then behindBlanks rest
    else if c = '#' then (rest.dropWhile (· ≠ '\n'), 0)
    else (c :: rest, 0)
  | [] => ([], 0)

/-- Goes on behind blanks; what comes there. -/
def skipBlanks : Reading (List Char) := do
  let s ← get
  let (text, joined) := behindBlanks s.text
  set { s with text, line := s.line + joined }
  return text

/-- Goes on behind joined lines; what comes there. -/
def skipJoined : Reading (List Char) := do
  let s ← get
  let (text, joined) := joined s.text
  set { s with text, line := s.line + joined }
  return text

/-- The word at the front of a text, if it is not quoted and nothing is expanded in it. -/
def plainWord (s : List Char) : String :=
  let run := s.takeWhile (!isMeta ·)
  if run.any (fun c => c = '\'' || c = '"' || c = '\\' || c = '$' || c = backquote) then ""
  else String.ofList run

/-- A text in which the word that comes next is replaced if it stands for other text; so is the one
behind it if that text ends in a blank. -/
def withAlias (aliases : List (String × List Char)) : Nat → List Char → List Char
  | 0, text => text
  | n + 1, text =>
    let blanks := text.takeWhile isBlank
    let word := plainWord (text.drop blanks.length)
    match aliases.lookup word with
    | some other =>
      let rest := text.drop (blanks.length + word.length)
      blanks ++ other
        ++ (if other.getLast?.any isBlank then withAlias aliases n rest else rest)
    | none => text

/-- The words that close a compound command, or a part of one. -/
def closers : List String := ["then", "elif", "else", "fi", "do", "done", "esac", "\x7d"]

/-- The words that open a compound command, and the others that are no names of commands. -/
def keywords : List String :=
  closers ++ ["!", "case", "for", "if", "in", "until", "while", "\x7b"]

/-- A word between quotation marks, as errors show it. -/
def shown (s : String) : String := "\"" ++ s ++ "\""

/-- What stands at the front of a text, for an error. -/
def describe (s : List Char) : String :=
  match s with
  | [] => "end of file"
  | '\n' :: _ => "newline"
  | ';' :: ';' :: _ => shown ";;"
  | '&' :: '&' :: _ => shown "&&"
  | '|' :: '|' :: _ => shown "||"
  | c :: rest =>
    if c = '<' ∨ c = '>' ∨ (c.isDigit ∧ (rest.head? = some '<' ∨ rest.head? = some '>')) then
      "redirection"
    else if isMeta c then shown (String.ofList [c])
    else if keywords.contains (plainWord s) then shown (plainWord s)
    else "word"

/-- Fails because of what comes next. -/
def stray {α : Type} (needed : Option String) : Reading α := do
  let text ← skipBlanks
  Reading.fail (.unexpected (describe text) needed)

/-- Fails because of what comes next, where no word is more than a word. -/
def strayWord {α : Type} (needed : Option String) : Reading α := do
  let text ← skipBlanks
  let found := if keywords.contains (plainWord text) then "word" else describe text
  Reading.fail (.unexpected found needed)

end Reader

end ScriptWeave.Shell
