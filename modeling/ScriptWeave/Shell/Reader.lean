/-
# Reading shell commands

The grammar of the shell: lists with `;`, `&`, `&&`, `||` and line ends, pipelines, `if`, `while`,
`until`, `for`, `case`, braces and parentheses, functions, redirections and here-documents, and
words with quotes, parameters, arithmetic and command substitutions.

A word that opens or closes a compound command does so only where a command may begin.  A line that
is not well formed is not run at all, and what is wrong with it is a `SyntaxError`.

All functions take the number of steps that are left, which the length of the text bounds.
-/
import ScriptWeave.Shell.Source

namespace ScriptWeave.Shell.Reader

open Reading

/-! ## 1. Words -/

/-- Where a word is being read, which decides where it ends and what is quoted. -/
inductive Context where
  | bare
  | quotes
  /-- The argument of a parameter in braces. -/
  | braces
  /-- The same inside quotes; inner quotes may be open, which hide a closing brace. -/
  | quotedBraces (open_ : Bool)
  | document
  /-- An arithmetic expression, with a number of open parentheses. -/
  | arithmetic (depth : Nat)
  deriving DecidableEq

namespace Context

/-- What is read there is quoted. -/
def quoted : Context → Bool
  | bare | braces => false
  | _ => true

/-- A backslash inside quotes takes this character as it is; before others it stays. -/
def escapes (context : Context) (c : Char) : Bool :=
  c = '\\' || c = '$' || c = backquote ||
    match context with
    | quotedBraces _ => c = '"' || c = '\x7d'
    | document => false
    | _ => c = '"'

/-- A character that stands for itself there. -/
def holds (context : Context) (c : Char) : Bool :=
  !(c = '\\' || c = '$' || c = backquote || c = '\n') &&
    match context with
    | bare => !(isMeta c || c = '\'' || c = '"')
    | quotes => c ≠ '"'
    | braces => !(c = '\x7d' || c = '\'' || c = '"')
    | quotedBraces _ => !(c = '\x7d' || c = '"')
    | document => true
    | arithmetic _ => !(c = '(' || c = ')')

/-- The context of an argument in braces inside another one. -/
def inner (context : Context) (use : ParameterUse) : Context :=
  match use with
  | .withoutFront _ | .withoutEnd _ => braces
  | _ => if context.quoted then quotedBraces false else braces

end Context

/-- The parts with a character put in front. -/
def prepend (c : Char) (quoted : Bool) : Word → Word
  | .literal text q :: rest =>
    if q = quoted then .literal (c :: text) q :: rest
    else .literal [c] quoted :: .literal text q :: rest
  | parts => .literal [c] quoted :: parts

/-- A backquoted command up to its end, with its own escapes undone; and the text behind it. -/
def backquoted (quoted : Bool) (seen : List Char) : List Char → Option (List Char × List Char)
  | [] => none
  | '\\' :: '\n' :: rest => backquoted quoted seen rest
  | '\\' :: c :: rest =>
    if c = backquote ∨ c = '\\' ∨ c = '$' ∨ (quoted ∧ c = '"') then
      backquoted quoted (c :: seen) rest
    else backquoted quoted (c :: '\\' :: seen) rest
  | c :: rest =>
    if c = backquote then some (seen.reverse, rest) else backquoted quoted (c :: seen) rest

/-- A parameter that is no name: one of the shell's own. -/
def isSpecial (c : Char) : Bool := c.isDigit || ['?', '$', '#', '@', '*', '!', '-'].contains c

/-- The name of a parameter at the front of a text. -/
def parameterName : List Char → Option (String × List Char)
  | [] => none
  | c :: rest =>
    if isNameStart c then
      some (String.ofList ((c :: rest).takeWhile isNameChar), (c :: rest).dropWhile isNameChar)
    else if isSpecial c then some (String.ofList [c], rest)
    else none

/-- The name of a parameter in braces, where a number may have several digits. -/
def bracedName (s : List Char) : Option (String × List Char) :=
  match s.takeWhile Char.isDigit with
  | [] => parameterName s
  | digits => some (String.ofList digits, s.drop digits.length)

/-- The use of a parameter in braces, and the text behind its sign. -/
def parameterUse : List Char → ParameterUse × List Char
  | '\x7d' :: rest => (.value, '\x7d' :: rest)
  | ':' :: '-' :: rest => (.orElse true, rest)
  | '-' :: rest => (.orElse false, rest)
  | ':' :: '=' :: rest => (.orAssign true, rest)
  | '=' :: rest => (.orAssign false, rest)
  | ':' :: '?' :: rest => (.orFail true, rest)
  | '?' :: rest => (.orFail false, rest)
  | ':' :: '+' :: rest => (.ifSet true, rest)
  | '+' :: rest => (.ifSet false, rest)
  | '#' :: '#' :: rest => (.withoutFront true, rest)
  | '#' :: rest => (.withoutFront false, rest)
  | '%' :: '%' :: rest => (.withoutEnd true, rest)
  | '%' :: rest => (.withoutEnd false, rest)
  | ':' :: '\x7d' :: rest => (.bad, '\x7d' :: rest)
  | ':' :: _ :: rest => (.bad, rest)
  | _ :: rest => (.bad, rest)
  | [] => (.bad, [])

/-- The name and the use of a parameter behind its brace, and the text behind them. -/
def bracedHead (s : List Char) : String × ParameterUse × List Char :=
  let used (found : Option (String × List Char)) : String × ParameterUse × List Char :=
    match found with
    | some (name, rest) => (name, parameterUse rest)
    | none => ("", .bad, if s.head? = some '\x7d' then s else s.drop 1)
  match s with
  | '#' :: c :: rest =>
    if isNameChar c then
      match bracedName (c :: rest) with
      | some (name, '\x7d' :: rest) => (name, .length, '\x7d' :: rest)
      | _ => ("", .bad, rest)
    else if c ≠ '\x7d' ∧ rest.head? = some '\x7d' then
      (String.ofList [c], if isSpecial c then .length else .bad, rest)
    else used (some ("#", c :: rest))
  | s => used (bracedName s)

/-- The text of a name and an equals sign at the front of a word, if it assigns. -/
def assignedName (s : List Char) : Option (String × List Char) :=
  match s with
  | c :: _ =>
    if isNameStart c then
      match s.dropWhile isNameChar with
      | '=' :: rest => some (String.ofList (s.takeWhile isNameChar), rest)
      | _ => none
    else none
  | [] => none

/-- The parts between double quotes, as a part of a word.  Where they are nothing but all arguments,
and there are none, there is no field either. -/
def inQuotes (parts : Word) : Word :=
  match parts with
  | [.parameter "@" .value [] true] => parts
  | parts => .quotes :: parts

/-! ## 2. Redirections -/

/-- The sign of a redirection. -/
inductive RedirectSign where
  | opens (kind : OpenKind)
  | duplicates
  | reads (stripsTabs : Bool)

/-- A redirection sign at the front of a text, perhaps behind the number of a descriptor. -/
def redirectSign (s : List Char) : Option (Nat × RedirectSign × List Char) :=
  let (number, s') : Option Nat × List Char :=
    match s with
    | c :: rest => if c.isDigit then (some (c.toNat - '0'.toNat), rest) else (none, s)
    | [] => (none, [])
  match s' with
  | '>' :: '>' :: rest => some (number.getD 1, .opens .append, rest)
  | '>' :: '&' :: rest => some (number.getD 1, .duplicates, rest)
  | '>' :: '|' :: rest => some (number.getD 1, .opens .overwrite, rest)
  | '>' :: rest => some (number.getD 1, .opens .write, rest)
  | '<' :: '&' :: rest => some (number.getD 0, .duplicates, rest)
  | '<' :: '<' :: '-' :: rest => some (number.getD 0, .reads true, rest)
  | '<' :: '<' :: rest => some (number.getD 0, .reads false, rest)
  | '<' :: '>' :: rest => some (number.getD 0, .opens .readWrite, rest)
  | '<' :: rest => some (number.getD 0, .opens .read, rest)
  | _ => none

/-- The word that ends a here-document, its quotes undone; whether there were any; and the text
behind it.  Nothing is expanded in it. -/
def endingWord (seen : List Char) (quoted : Bool) :
    List Char → Option (List Char × Bool × List Char)
  | '\\' :: '\n' :: rest => endingWord seen quoted rest
  | '\\' :: c :: rest => endingWord (c :: seen) true rest
  | '\'' :: rest =>
    let text := rest.takeWhile (· ≠ '\'')
    match _h : rest.drop text.length with
    | [] => none
    | _ :: after => endingWord (text.reverse ++ seen) true after
  | '"' :: rest =>
    let text := rest.takeWhile (· ≠ '"')
    match _h : rest.drop text.length with
    | [] => none
    | _ :: after => endingWord (text.reverse ++ seen) true after
  | c :: rest =>
    if isMeta c then some (seen.reverse, quoted, c :: rest) else endingWord (c :: seen) quoted rest
  | [] => some (seen.reverse, quoted, [])
termination_by s => s.length
decreasing_by
  · simp only [List.length_cons]; omega
  · simp only [List.length_cons]; omega
  · have := congrArg List.length _h
    simp only [List.length_drop, List.length_cons] at this ⊢
    omega
  · have := congrArg List.length _h
    simp only [List.length_drop, List.length_cons] at this ⊢
    omega
  · simp only [List.length_cons]; omega

/-- How long the sign at the front of a text is; a word or the end of the text is none. -/
def signLength (s : List Char) : Nat :=
  match s with
  | ';' :: ';' :: _ | '&' :: '&' :: _ | '|' :: '|' :: _ => 2
  | c :: _ => if isMeta c then 1 else 0
  | [] => 0

/-- The lines of a here-document, and the text behind its last line; also how many lines there are,
the last one included. -/
def documentLines (document : Document) (seen : List Char) (count : Nat) :
    Nat → List Char → List Char × List Char × Nat
  | 0, rest => (seen, rest, count)
  | _, [] => (seen, [], count)
  | n + 1, text =>
    let text := if document.stripsTabs then text.dropWhile (· = '\t') else text
    let line := text.takeWhile (· ≠ '\n')
    let rest := text.drop line.length
    let count := if rest.isEmpty then count else count + 1
    if line = document.ending then (seen, rest.drop 1, count)
    else documentLines document (seen ++ line ++ rest.take 1) count n (rest.drop 1)

/-! ## 3. Commands -/

/-- The next thing to read is the end of a list: the end of the text, or what closes a compound
command. -/
def endsList (s : List Char) : Bool :=
  match s with
  | [] => true
  | ')' :: _ => true
  | ';' :: ';' :: _ => true
  | s => closers.contains (plainWord s)

/-- The commands of the shell that are special: they cannot be functions, and a shell in which one
of them is used wrongly ends. -/
def specialNames : List String :=
  [".", ":", "break", "continue", "eval", "exec", "exit", "export", "local", "readonly", "return",
    "set", "shift", "times", "trap", "unset"]

mutual

/-- Reads the parts of a word. -/
def readParts : Nat → Context → Reading Word
  | 0, _ => fail .unterminatedQuote
  | n + 1, context => do
    match ← remaining with
    | [] =>
      match context with
      | .bare | .document => return []
      | .braces => fail .missingBrace
      | .quotes | .quotedBraces _ => fail .unterminatedQuote
      | .arithmetic _ => fail .missingParentheses
    | '\\' :: '\n' :: rest =>
      nextLine rest
      readParts n context
    | ['\\'] =>
      goOn []
      return prepend '\\' true (← readParts n context)
    | '\\' :: c :: rest =>
      goOn rest
      let parts := prepend c true (← readParts n context)
      return if context.quoted && !context.escapes c then prepend '\\' true parts else parts
    | '\n' :: rest =>
      if context = .bare then return []
      nextLine rest
      return prepend '\n' context.quoted (← readParts n context)
    | '$' :: rest =>
      goOn rest
      let parts ← readDollar n context
      return parts ++ (← readParts n context)
    | c :: rest =>
      let run := (c :: rest).takeWhile context.holds
      if !run.isEmpty then
        skip run.length
        return .literal run context.quoted :: (← readParts n context)
      else if c = backquote then
        match backquoted context.quoted [] rest with
        | none => fail .unterminatedSubstitution
        | some (body, rest) =>
          let command ← within body (readList n true)
          goOn rest
          return .substitution command context.quoted :: (← readParts n context)
      else readSign n context c rest

/-- Reads a character that means something in its context. -/
def readSign : Nat → Context → Char → List Char → Reading Word
  | 0, _, _, _ => fail .unterminatedQuote
  | n + 1, context, c, rest => do
    goOn rest
    match context, c with
    | .quotes, _ => return []
    | .quotedBraces open_, '"' => readParts n (.quotedBraces !open_)
    | .quotedBraces true, c => return prepend c true (← readParts n context)
    | .quotedBraces false, _ => return []
    | .arithmetic depth, '(' =>
      return prepend '(' true (← readParts n (.arithmetic (depth + 1)))
    | .arithmetic 0, _ =>
      match rest with
      | ')' :: rest =>
        goOn rest
        return []
      | _ => return prepend ')' true (← readParts n context)
    | .arithmetic (depth + 1), _ => return prepend ')' true (← readParts n (.arithmetic depth))
    | .braces, '\x7d' => return []
    | _, '"' =>
      let inner ← readParts n .quotes
      return inQuotes inner ++ (← readParts n context)
    | _, '\'' =>
      let text := rest.takeWhile (· ≠ '\'')
      match rest.drop text.length with
      | [] => fail .unterminatedQuote
      | _ :: after =>
        modify fun s => { s with text := after, line := s.line + text.count '\n' }
        return .quotes :: .literal text true :: (← readParts n context)
    | _, _ =>
      goOn (c :: rest)
      return []

/-- Reads an expansion behind its dollar sign. -/
def readDollar : Nat → Context → Reading Word
  | 0, _ => fail .missingBrace
  | n + 1, context => do
    match ← skipJoined with
    | '(' :: rest =>
      goOn rest
      match ← skipJoined with
      | '(' :: rest =>
        goOn rest
        return [.arithmetic (← readParts n (.arithmetic 0)) context.quoted]
      | _ =>
        let outer := (← get).pending
        modify fun s => { s with pending := [] }
        let command ← readList n true
        match ← skipBlanks with
        | ')' :: rest =>
          modify fun s => { s with text := rest, pending := outer ++ s.pending }
          return [.substitution command context.quoted]
        | _ => stray (some (shown ")"))
    | '\x7b' :: rest =>
      goOn rest
      let (name, use, rest) := bracedHead (← skipJoined)
      goOn rest
      let argument ← readParts n (context.inner use)
      return [.parameter name use argument context.quoted]
    | text =>
      match parameterName text with
      | some (name, rest) =>
        goOn rest
        return [.parameter name .value [] context.quoted]
      | none => return [.literal ['$'] context.quoted]

/-- Reads a word that must be there. -/
def readWord : Nat → Option String → Reading Word
  | 0, needed => stray needed
  | n + 1, needed => do
    match ← skipBlanks with
    | [] => stray needed
    | c :: _ => if isMeta c then stray needed else readParts n .bare

/-- Reads the rest of a redirection behind its sign. -/
def readRedirect : Nat → Nat → RedirectSign → Reading Redirect
  | 0, _, _ => stray none
  | n + 1, descriptor, sign => do
    match sign with
    | .opens kind => return .file descriptor kind (← readWord n none)
    | .duplicates => return .duplicate descriptor (← readWord n none)
    | .reads stripsTabs =>
      let text ← skipBlanks
      match text with
      | [] => stray none
      | c :: _ =>
        if isMeta c then stray none
        else
          match endingWord [] false text with
          | none => fail .unterminatedQuote
          | some (ending, plain, rest) =>
            let s ← get
            let document : Document := ⟨s.documents, ending, stripsTabs, plain⟩
            set { s with
              text := rest, documents := s.documents + 1, pending := s.pending ++ [document] }
            return .document descriptor document.number

/-- Reads the texts of the here-documents that are still to come. -/
def readDocuments : Nat → Reading Unit
  | 0 => return ()
  | n + 1 => do
    let s ← get
    match s.pending with
    | [] => return ()
    | document :: pending =>
      let (lines, rest, count) := documentLines document [] 0 s.text.length s.text
      set { s with text := rest, pending := [], line := s.line + count }
      let body ←
        if document.plain then pure [.literal lines true] else within lines (readParts n .document)
      modify fun s => { s with pending, bodies := (document.number, body) :: s.bodies }
      readDocuments n

/-- Goes on behind blanks and line ends; what comes there. -/
def skipLines : Nat → Reading (List Char)
  | 0 => remaining
  | n + 1 => do
    match ← skipBlanks with
    | '\n' :: rest =>
      nextLine rest
      readDocuments n
      skipLines n
    | text => return text

/-- Reads redirections, as many as there are. -/
def readRedirects : Nat → Reading (List Redirect)
  | 0 => return []
  | n + 1 => do
    match redirectSign (← skipBlanks) with
    | none => return []
    | some (descriptor, sign, rest) =>
      goOn rest
      let redirect ← readRedirect n descriptor sign
      return redirect :: (← readRedirects n)

/-- Reads a simple command, part by part; `opened` says that its first word has been read. -/
def readSimple :
    Nat → Bool → Reading (List (String × Word) × List Word × List Redirect)
  | 0, _ => return ([], [], [])
  | n + 1, opened => do
    let text ← skipBlanks
    match redirectSign text with
    | some (descriptor, sign, rest) =>
      goOn rest
      let redirect ← readRedirect n descriptor sign
      let (assignments, words, redirects) ← readSimple n opened
      return (assignments, words, redirect :: redirects)
    | none =>
      match text with
      | [] => return ([], [], [])
      | c :: _ =>
        if isMeta c then return ([], [], [])
        else
          match if opened then none else assignedName text with
          | some (name, rest) =>
            goOn rest
            let value ← readParts n .bare
            let (assignments, words, redirects) ← readSimple n false
            return ((name, value) :: assignments, words, redirects)
          | none =>
            let word ← readParts n .bare
            let (assignments, words, redirects) ← readSimple n true
            return (assignments, word :: words, redirects)

/-- Reads the word that must close what comes before. -/
def readCloser : Nat → String → Reading Unit
  | 0, closer => stray (some (shown closer))
  | n + 1, closer => do
    let text ← skipLines n
    if plainWord text = closer then skip closer.length else stray (some (shown closer))

/-- Reads the rest of a conditional behind `if` or `elif`. -/
def readConditional : Nat → Reading Command
  | 0 => stray none
  | n + 1 => do
    let test ← readList n false
    readCloser n "then"
    let yes ← readList n false
    match plainWord (← skipLines n) with
    | "elif" =>
      skip 4
      return .conditional test yes (← readConditional n)
    | "else" =>
      skip 4
      let no ← readList n false
      readCloser n "fi"
      return .conditional test yes no
    | _ =>
      readCloser n "fi"
      return .conditional test yes .nothing

/-- Reads words up to the end of a command. -/
def readWords : Nat → Reading (List Word)
  | 0 => return []
  | n + 1 => do
    match ← skipBlanks with
    | [] => return []
    | c :: _ =>
      if isMeta c then return []
      else
        let word ← readParts n .bare
        return word :: (← readWords n)

/-- Reads the rest of a loop over words, behind `for`. -/
def readEach : Nat → Nat → Reading Command
  | 0, _ => stray none
  | n + 1, line => do
    let text ← skipBlanks
    let name := (text.takeWhile (!isMeta ·))
    if !isName name then fail .badLoopVariable
    skip name.length
    let text ← skipLines n
    let words ← do
      if plainWord text = "in" then
        skip 2
        let words ← readWords n
        match ← skipBlanks with
        | ';' :: rest => goOn rest
        | '\n' :: _ => pure ()
        | _ => stray none
        pure (some words)
      else
        match text with
        | ';' :: rest => goOn rest
        | _ => pure ()
        pure none
    readCloser n "do"
    let body ← readList n false
    readCloser n "done"
    return .each line (String.ofList name) words body

/-- Reads the patterns of an arm up to their parenthesis.  A sign in the place of a pattern is taken
for one that nothing is like. -/
def readPatterns : Nat → Reading (List Word)
  | 0 => stray none
  | n + 1 => do
    let text ← skipBlanks
    let pattern ←
      match signLength text with
      | 0 => if text.isEmpty then pure [] else readParts n .bare
      | length =>
        if text.head? = some '\n' then nextLine (text.drop 1) else skip length
        pure []
    match ← skipBlanks with
    | '|' :: rest =>
      if rest.head? = some '|' then strayWord (some (shown ")"))
      goOn rest
      return pattern :: (← readPatterns n)
    | ')' :: rest =>
      goOn rest
      return [pattern]
    | _ => strayWord (some (shown ")"))

/-- Reads the arms of a choice up to its end. -/
def readArms : Nat → Reading (List (List Word × Command))
  | 0 => stray none
  | n + 1 => do
    let text ← skipLines n
    if plainWord text = "esac" then
      skip 4
      return []
    match text with
    | '(' :: rest => goOn rest
    | _ => pure ()
    let patterns ← readPatterns n
    let body ← readList n true
    match ← skipLines n with
    | ';' :: ';' :: rest =>
      goOn rest
      return (patterns, body) :: (← readArms n)
    | text =>
      if plainWord text = "esac" then
        skip 4
        return [(patterns, body)]
      else stray (some (shown ";;"))

/-- Reads a command and the redirections behind it, given what its first word can still be: a word
that stands for other text does so once only. -/
def readCommand : Nat → List String → Reading Command
  | 0, _ => stray none
  | n + 1, replaced => do
    let text ← skipBlanks
    let line := (← get).line
    let compound (body : Command) : Reading Command := do
      let redirects ← readRedirects n
      return if redirects.isEmpty then body else .redirected line body redirects
    match text with
    | '(' :: rest =>
      goOn rest
      let body ← readList n false
      match ← skipBlanks with
      | ')' :: rest =>
        goOn rest
        return .subshell line body (← readRedirects n)
      | _ => stray (some (shown ")"))
    | text =>
      match plainWord text with
      | "\x7b" =>
        skip 1
        let body ← readList n false
        readCloser n "\x7d"
        compound body
      | "if" =>
        skip 2
        compound (← readConditional n)
      | "while" | "until" =>
        skip 5
        let test ← readList n false
        readCloser n "do"
        let body ← readList n false
        readCloser n "done"
        compound (.loop (plainWord text = "until") test body)
      | "for" =>
        skip 3
        compound (← readEach n line)
      | "case" =>
        skip 4
        let subject ← readWord n (some "word")
        let after ← skipLines n
        if plainWord after ≠ "in" then stray (some (shown "in"))
        skip 2
        compound (.choice line subject (← readArms n))
      | word =>
        let aliases := (← get).aliases
        if keywords.contains word ∧ word ≠ "in" then stray none
        else
          match aliases.find? fun a => a.1 = word ∧ !replaced.contains word with
          | some (_, other) =>
            let rest := text.drop word.length
            goOn (other
              ++ (if other.getLast?.any isBlank then withAlias aliases rest.length rest else rest))
            readCommand n (word :: replaced)
          | none => readSimpleOrFunction n line

/-- Reads a simple command or the definition of a function. -/
def readSimpleOrFunction : Nat → Nat → Reading Command
  | 0, _ => stray none
  | n + 1, line => do
    let text ← remaining
    let name := plainWord text
    match (behindBlanks (text.drop name.length)).1 with
    | '(' :: rest =>
      if name = "" ∨ (assignedName text).isSome then readPlain n line
      else
        goOn rest
        match ← skipBlanks with
        | ')' :: rest =>
          goOn rest
          if !isName name.toList ∨ specialNames.contains name then fail .badFunctionName
          let _ ← skipLines n
          return .define name (← readCommand n [])
        | _ => strayWord (some (shown ")"))
    | _ => readPlain n line

/-- Reads a simple command, which must have something in it.  One word with a parenthesis behind it
that is no name is a function that cannot be. -/
def readPlain : Nat → Nat → Reading Command
  | 0, _ => stray none
  | n + 1, line => do
    let (assignments, words, redirects) ← readSimple n false
    match assignments, words, redirects, ← skipBlanks with
    | [], [], [], _ => stray none
    | [], [_], [], '(' :: rest =>
      goOn rest
      match ← skipBlanks with
      | ')' :: _ => fail .badFunctionName
      | _ => strayWord (some (shown ")"))
    | assignments, words, redirects, _ => return .simple line assignments words redirects

/-- Reads the commands of a pipeline. -/
def readStages : Nat → Reading (List Command)
  | 0 => stray none
  | n + 1 => do
    let command ← readCommand n []
    match ← skipBlanks with
    | '|' :: '|' :: _ => return [command]
    | '|' :: rest =>
      goOn rest
      let _ ← skipLines n
      return command :: (← readStages n)
    | _ => return [command]

/-- Reads a pipeline. -/
def readPipeline : Nat → Reading Command
  | 0 => stray none
  | n + 1 => do
    let isNegated : Bool := plainWord (← skipBlanks) = "!"
    if isNegated then skip 1
    let command ← do
      match ← readStages n with
      | [command] => pure command
      | stages => pure (.pipeline stages)
    return if isNegated then .negated command else command

/-- Reads what `&&` and `||` join to a command that has been read. -/
def readJoined : Nat → Command → Reading Command
  | 0, first => return first
  | n + 1, first => do
    match ← skipBlanks with
    | '&' :: '&' :: rest =>
      goOn rest
      let _ ← skipLines n
      let second ← readPipeline n
      readJoined n (.both first second)
    | '|' :: '|' :: rest =>
      goOn rest
      let _ ← skipLines n
      let second ← readPipeline n
      readJoined n (.either first second)
    | _ => return first

/-- Reads a list of commands up to something that cannot be part of it.  It must begin with a
command, unless it may be empty or the text ends. -/
def readList : Nat → Bool → Reading Command
  | 0, _ => return .nothing
  | n + 1, mayBeEmpty => do
    let text ← skipLines n
    if text.isEmpty || (mayBeEmpty && endsList text) then return .nothing
    let first ← readPipeline n
    let first ← readJoined n first
    match ← skipBlanks with
    | ';' :: ';' :: _ => return first
    | ';' :: rest =>
      goOn rest
      return .sequence [first, ← readList n true]
    | '&' :: rest =>
      goOn rest
      return .sequence [.background first, ← readList n true]
    | '\n' :: _ => return .sequence [first, ← readList n true]
    | _ => return first

end

/-! ## 4. Lines -/

/-- Reads the commands of a line, one of which may have been read already. -/
def readLineFrom : Nat → Command → Reading Command
  | 0, before => return before
  | n + 1, before => do
    let steps := 16 * n + 64
    match ← skipBlanks with
    | [] => return before
    | '\n' :: rest =>
      nextLine rest
      readDocuments steps
      return before
    | _ =>
      let command ← readPipeline steps
      let command ← readJoined steps command
      match ← skipBlanks with
      | ';' :: ';' :: _ => stray none
      | ';' :: rest =>
        goOn rest
        readLineFrom n (.sequence [before, command])
      | '&' :: rest =>
        goOn rest
        readLineFrom n (.sequence [before, .background command])
      | '\n' :: _ | [] => readLineFrom n (.sequence [before, command])
      | _ => stray none

/-- Reads the commands of a line. -/
def readLine : Reading Command := do
  let length := (← remaining).length
  let command ← readLineFrom (length + 2) .nothing
  if (← remaining).isEmpty then readDocuments (16 * length + 64)
  return command

end ScriptWeave.Shell.Reader
