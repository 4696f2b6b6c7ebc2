/-
# Searching

`grep` selects the lines that a pattern matches, or those that none matches, and writes them, parts
of them, their number, or the names of the files they are in.  Around a selected line it may write
others as context; a separator stands between groups of lines that are not side by side.

A file with a zero byte is no text: zero bytes end its lines, and instead of lines it is only told
that there are some.
-/
import ScriptWeave.Shell.Program.Basic
import ScriptWeave.Shell.RegexReader

namespace ScriptWeave.Shell.Program.Grep

/-! ## 1. What is asked for -/

/-- How lines are written. -/
structure Style where
  names : Bool
  numbers : Bool
  offsets : Bool
  /-- A tab stands before the line, and numbers are aligned. -/
  tabs : Bool
  /-- A zero byte stands behind a name. -/
  zeros : Bool
  /-- What ends a line. -/
  mark : UInt8
  /-- Only the parts that match are written. -/
  parts : Bool
  before : Option Nat
  after : Option Nat
  separator : Option Bytes

/-- What is written about a file. -/
inductive Report where
  | lines
  | count
  | nameIfAny
  | nameIfNone
  | nothing
  deriving DecidableEq

/-- A search. -/
structure Search where
  tests : List Regex
  inverted : Bool
  wholeLines : Bool
  words : Bool
  most : Option Nat
  report : Report
  style : Style
  /-- What is told of a file with zero bytes; none if it is taken as text. -/
  binary : Option Bool

/-- A line of a file: its number, the byte it begins at, and whether it is selected. -/
structure Line where
  number : Nat
  offset : Nat
  text : Bytes
  selected : Bool

/-- The line matches. -/
def Search.isMatch (search : Search) (line : Bytes) : Bool :=
  search.tests.any fun r =>
    if search.wholeLines then r.matchesAll line
    else if search.words then r.matchesWord line else r.matchesLine line

/-- The lines of a text, in order. -/
def Search.lines (search : Search) (mark : UInt8) (s : Bytes) : List Line :=
  let pieces := s.splitOn mark
  let pieces := if pieces.getLast? = some [] then pieces.dropLast else pieces
  (pieces.foldl (fun (found, number, offset) text =>
    let line : Line := ⟨number, offset, text, search.isMatch text != search.inverted⟩
    (line :: found, number + 1, offset + text.length + 1)) (([] : List Line), 1, 0)).1.reverse

/-! ## 2. Writing lines -/

/-- A number before a line. -/
def Style.number (style : Style) (n : Nat) : Bytes := if style.tabs then aligned 19 n else decimal n

/-- What stands before a line, or before a part of it. -/
def Style.head (style : Style) (name : Bytes) (sign : UInt8) (number offset length : Nat) : Bytes :=
  let named : Bytes := if style.names then name ++ [if style.zeros then 0 else sign] else []
  let numbered : Bytes := if style.numbers then style.number number ++ [sign] else []
  let placed : Bytes := if style.offsets then style.number offset ++ [sign] else []
  let tabbed : Bool :=
    style.tabs && (style.names || style.numbers || style.offsets) && 0 < length
  named ++ numbered ++ placed ++ (if tabbed then [0x09] else [])

/-- A line, or its parts, as it is written: selected or as context. -/
def Search.write (search : Search) (name : Bytes) (selected : Bool) (line : Line) : Bytes :=
  let style := search.style
  let sign : UInt8 := if selected then 0x3A else 0x2D
  if style.parts then
    if selected = search.inverted then []
    else
      let found := (Regex.oneOfThese search.tests).occurrences search.words line.text
      let found :=
        if search.wholeLines then
          if line.text.isEmpty || !search.isMatch line.text then [] else [(0, line.text.length)]
        else found
      found.flatMap fun (start, length) =>
        style.head name sign line.number (line.offset + start) length
          ++ (line.text.drop start).take length ++ [style.mark]
  else
    style.head name sign line.number line.offset line.text.length ++ line.text ++ [style.mark]

/-- What has been written of the lines of a file. -/
structure Writing where
  output : List Bytes := []
  /-- Something has been written before, perhaps of another file. -/
  started : Bool
  /-- The number of the line that was written last. -/
  last : Nat := 0
  /-- How many more lines are context. -/
  following : Nat := 0
  /-- The lines before that were not written, the latest first. -/
  waiting : List Line := []
  /-- How many more lines are selected. -/
  most : Option Nat

/-- Goes on with a line. -/
def Search.next (search : Search) (name : Bytes) (w : Writing) (line : Line) : Writing :=
  let style := search.style
  if line.selected ∧ w.most ≠ some 0 then
    let context := (w.waiting.take (style.before.getD 0)).reverse
    let first := line.number - context.length
    let separator : Bytes :=
      match style.separator with
      | some text =>
        if w.started && (style.before.isSome || style.after.isSome)
            && (w.last = 0 || w.last + 1 < first) then text ++ [0x0A] else []
      | none => []
    let written :=
      separator :: context.map (search.write name false) ++ [search.write name true line]
    { output := written.reverse ++ w.output, started := true, last := line.number
      following := style.after.getD 0, waiting := [], most := w.most.map (· - 1) }
  else
    match w.following with
    | n + 1 =>
      { w with output := search.write name false line :: w.output, last := line.number
               following := n }
    | 0 => { w with waiting := (line :: w.waiting).take (style.before.getD 0) }

/-! ## 3. Files -/

/-- What a search of one file comes to. -/
structure Found where
  output : Bytes
  any : Bool
  started : Bool
  /-- The byte behind the last selected line, if no more of them were looked for. -/
  stopped : Option Nat

/-- Searches one file. -/
def Search.file (search : Search) (started : Bool) (name content : Bytes) : Found :=
  let style := search.style
  let isBinary : Bool := search.binary.isSome && style.mark ≠ 0 && content.contains 0
  let content := if isBinary then content.map fun c => if c = 0 then style.mark else c else content
  let lines := if isBinary ∧ search.binary = some false then [] else search.lines style.mark content
  let selected := lines.filter (·.selected)
  let selected := (search.most.map selected.take).getD selected
  let any := !selected.isEmpty
  let ending : UInt8 := if style.zeros then 0 else 0x0A
  let stopped :=
    match search.most, selected.getLast? with
    | some most, some line =>
      if selected.length = most then some (line.offset + line.text.length + 1) else none
    | _, _ => none
  let telling (output : Bytes) : Found := { output, any, started, stopped }
  match search.report with
  | .nothing => telling []
  | .nameIfAny => telling (if any then name ++ [ending] else [])
  | .nameIfNone => telling (if any then [] else name ++ [ending])
  | .count =>
    let named : Bytes := if style.names then name ++ [if style.zeros then 0 else 0x3A] else []
    telling (named ++ decimal selected.length ++ [0x0A])
  | .lines =>
    if isBinary then
      telling (if any then utf8 "grep: " ++ name ++ utf8 ": binary file matches\n" else [])
    else
      let w := lines.foldl (search.next name) { started, most := search.most }
      { output := w.output.reverse.flatten, any, started := w.started, stopped }

/-- Searches operands: what is written, whether anything was selected, and what is left of the
input. -/
def Search.operands (search : Search) (label : Bytes) (quiet : Bool) (read : ReadFile) :
    Bool → Except ReadFault Bytes → List Bytes → List Piece × Bool × Bytes
  | _, input, [] => ([], false, input.toOption.getD [])
  | started, input, name :: rest =>
    let isInput : Bool := name = inputName
    let shown := if isInput then label else name
    match if isInput then input else read name with
    | .error e =>
      let (pieces, any, left) := Search.operands search label quiet read started input rest
      let told : List Piece := if quiet then [] else [.error (complaint "grep" shown (reason e))]
      (told ++ pieces, any, left)
    | .ok content =>
      let found := search.file started shown content
      let input := if isInput then .ok ((found.stopped.map content.drop).getD []) else input
      let (pieces, any, left) := Search.operands search label quiet read found.started input rest
      (.output found.output :: pieces, found.any || any, left)

/-! ## 4. Options -/

/-- The digits, which together are a number of lines of context. -/
def digitLetters : List Char := ['0', '1', '2', '3', '4', '5', '6', '7', '8', '9']

/-- The letters of the ways to read a pattern. -/
def matcherLetters : List Char := ['E', 'F', 'G', 'P']

/-- An integer, of which too large a one is as good as none. -/
def wholeNumber? (value : Bytes) : Option Int :=
  match leadingInteger 10 value with
  | (some n, []) => some n
  | _ => none

/-- What is done about directories. -/
def actions : List Bytes := [utf8 "read", utf8 "recurse", utf8 "skip"]

/-- How `grep` is called. -/
def usage : Usage where
  program := "grep"
  letters := matcherLetters ++ digitLetters ++
    ['i', 'y', 'v', 'w', 'x', 'c', 'l', 'L', 'q', 's', 'n', 'h', 'H', 'o', 'a', 'b', 'I', 'T', 'U',
      'Z', 'z', 'u', 'r', 'R']
  valued := ['e', 'f', 'm', 'A', 'B', 'C', 'd', 'D', 'X']
  failure := 2
  synopsis := ["Usage: grep [OPTION]... PATTERNS [FILE]..."]
  names := [⟨"basic-regexp", 'G', .none_⟩, ⟨"extended-regexp", 'E', .none_⟩,
    ⟨"fixed-regexp", 'F', .none_⟩, ⟨"fixed-strings", 'F', .none_⟩, ⟨"perl-regexp", 'P', .none_⟩,
    ⟨"after-context", 'A', .needed⟩, ⟨"before-context", 'B', .needed⟩,
    ⟨"binary-files", '%', .needed⟩, ⟨"binary", 'U', .none_⟩, ⟨"byte-offset", 'b', .none_⟩,
    ⟨"context", 'C', .needed⟩, ⟨"color", 'k', .optional⟩, ⟨"colour", 'k', .optional⟩,
    ⟨"count", 'c', .none_⟩, ⟨"devices", 'D', .needed⟩, ⟨"directories", 'd', .needed⟩,
    ⟨"exclude", '!', .needed⟩, ⟨"exclude-from", '!', .needed⟩, ⟨"exclude-dir", '!', .needed⟩,
    ⟨"file", 'f', .needed⟩, ⟨"files-with-matches", 'l', .none_⟩,
    ⟨"files-without-match", 'L', .none_⟩, ⟨"group-separator", '#', .needed⟩,
    ⟨"ignore-case", 'i', .none_⟩, ⟨"no-ignore-case", '+', .none_⟩, ⟨"include", '!', .needed⟩,
    ⟨"initial-tab", 'T', .none_⟩, ⟨"label", '@', .needed⟩, ⟨"line-buffered", '~', .none_⟩,
    ⟨"line-number", 'n', .none_⟩, ⟨"line-regexp", 'x', .none_⟩, ⟨"max-count", 'm', .needed⟩,
    ⟨"no-filename", 'h', .none_⟩, ⟨"no-group-separator", '-', .none_⟩, ⟨"no-messages", 's', .none_⟩,
    ⟨"null", 'Z', .none_⟩, ⟨"null-data", 'z', .none_⟩, ⟨"only-matching", 'o', .none_⟩,
    ⟨"quiet", 'q', .none_⟩, ⟨"recursive", 'r', .none_⟩, ⟨"dereference-recursive", 'R', .none_⟩,
    ⟨"regexp", 'e', .needed⟩, ⟨"invert-match", 'v', .none_⟩, ⟨"silent", 'q', .none_⟩,
    ⟨"text", 'a', .none_⟩, ⟨"unix-byte-offsets", 'u', .none_⟩, ⟨"with-filename", 'H', .none_⟩,
    ⟨"word-regexp", 'w', .none_⟩]
  refuses letter value :=
    let failing (text : Bytes) : Option Ran := some (fails "grep" text 2)
    match letter with
    | 'A' | 'B' | 'C' =>
      if (wholeNumber? value).any (0 ≤ ·) then none
      else failing (value ++ utf8 ": invalid context length argument")
    | 'm' => if (wholeNumber? value).isSome then none else failing (utf8 "invalid max count")
    | '%' =>
      if [utf8 "binary", utf8 "text", utf8 "without-match"].contains value then none
      else failing (utf8 "unknown binary-files type")
    | 'd' =>
      if actions.contains value then none
      else
        let choices := actions.flatMap fun a => utf8 "\n  - " ++ quoted a
        let hint := utf8 "\nTry 'grep --help' for more information."
        failing (utf8 "invalid argument " ++ quoted value ++ utf8 " for '--directories'"
          ++ utf8 "\nValid arguments are:" ++ choices
          ++ utf8 "\nUsage: grep [OPTION]... PATTERNS [FILE]..." ++ hint)
    | 'D' =>
      if [utf8 "read", utf8 "skip"].contains value then none
      else failing (utf8 "unknown devices method")
    | _ => none

/-- The number that the digits among the options write, the last ones side by side. -/
def digitsOf (options : List (Char × Bytes)) : Option Nat :=
  (options.foldl (fun (found, open_) (letter, _) =>
    if letter.isDigit then
      let digit := letter.toNat - '0'.toNat
      (some (if open_ then (found.getD 0) * 10 + digit else digit), true)
    else (found, false)) ((none : Option Nat), false)).1

/-- How many lines of context an option asks for. -/
def contextOf (given : Given) (letter : Char) : Option Nat :=
  ((given.valueOf? letter).bind wholeNumber?).map Int.toNat

/-- The lines of context on both sides: the last number that asks for them. -/
def contextBoth (given : Given) : Option Nat :=
  match given.lastOf? ('C' :: digitLetters) with
  | some 'C' => contextOf given 'C'
  | some _ => digitsOf given.options
  | none => none

/-- The expression that matches one string. -/
def literally (ignoresCase : Bool) (s : Bytes) : Regex :=
  .concat (s.map fun b =>
    if ignoresCase then .oneOf false (Regex.bothCases [(b, b)]) else Regex.byte b)

/-- The expressions of patterns, and what is warned of. -/
def expressions (given : Given) (patterns : List Bytes) :
    Except Regex.Fault (List Regex × List String) := do
  let ignoresCase := (given.lastOf? ['i', 'y', '+']).any (· ≠ '+')
  let spelled := given.lastOf? matcherLetters
  let read ← patterns.mapM fun p =>
    if spelled = some 'F' then .ok (literally ignoresCase p, ([] : List String))
    else Regex.read { extended := spelled = some 'E' || spelled = some 'P', ignoresCase } p
  return (read.map (·.1), read.flatMap (·.2))

/-- The patterns that options give: by themselves or in files. -/
def patternsOf (input : Bytes) (read : ReadFile) (given : Given) :
    Except (Bytes × ReadFault) (Option (List Bytes)) := do
  let asked := given.options.filter fun o => o.1 = 'e' || o.1 = 'f'
  if asked.isEmpty then return none
  let found ← asked.mapM fun (letter, value) =>
    if letter = 'e' then .ok (value.splitOn 0x0A)
    else if value = inputName then .ok (linesOf input)
    else
      match read value with
      | .ok content => .ok (linesOf content)
      | .error e => .error (value, e)
  return some found.flatten

/-- What is written about each file. -/
def reportOf (given : Given) : Report :=
  if given.has 'q' then .nothing
  else
    match given.lastOf? ['l', 'L'] with
    | some 'l' => .nameIfAny
    | some _ => .nameIfNone
    | none => if given.has 'c' then .count else .lines

/-- How lines are written, if there can be several files or if not. -/
def styleOf (given : Given) (severalFiles : Bool) : Style where
  names :=
    match given.lastOf? ['h', 'H'] with
    | some letter => letter = 'H'
    | none => severalFiles
  numbers := given.has 'n'
  offsets := given.has 'b'
  tabs := given.has 'T'
  zeros := given.has 'Z'
  mark := if given.has 'z' then 0 else 0x0A
  parts := given.has 'o'
  before := contextOf given 'B' <|> contextBoth given
  after := contextOf given 'A' <|> contextBoth given
  separator :=
    match given.lastOf? ['#', '-'] with
    | some '#' => given.valueOf? '#'
    | some _ => none
    | none => some (utf8 "--")

/-- What is told of files with zero bytes. -/
def binaryOf (given : Given) : Option Bool :=
  match given.lastOf? ['a', 'I', '%'] with
  | some 'a' => none
  | some 'I' => some false
  | some _ =>
    let kind := (given.valueOf? '%').getD []
    if kind = utf8 "text" then none else some (kind = utf8 "binary")
  | none => some true

/-- The patterns and the other operands; none if there is no pattern. -/
def split (explicit : Option (List Bytes)) (operands : List Bytes) :
    Option (List Bytes × List Bytes) :=
  match explicit, operands with
  | some patterns, operands => some (patterns, operands)
  | none, pattern :: operands => some (pattern.splitOn 0x0A, operands)
  | none, [] => none

/-- The search that options ask for, for some expressions. -/
def searchOf (given : Given) (tests : List Regex) (severalFiles : Bool) : Search where
  tests := tests
  inverted := given.has 'v'
  wholeLines := given.has 'x'
  words := given.has 'w'
  most := (((given.valueOf? 'm').bind wholeNumber?).filter (0 ≤ ·)).map Int.toNat
  report := reportOf given
  style := styleOf given severalFiles
  binary := binaryOf given

/-- What is done about directories, if anything else than reading them; and whether links are
followed. -/
def actionOf (given : Given) : Option (Bytes × Bool) :=
  match given.lastOf? ['d', 'r', 'R'] with
  | some 'd' => (given.valueOf? 'd').map (·, false)
  | some letter => some (utf8 "recurse", letter = 'R')
  | none => none

/-- The files that operands stand for: those below a directory if that is asked for.  Where there
are no operands, they are those below the directory the shell is in. -/
def filesOf (given : Given) (below : Bool → Bytes → Option (List Bytes)) (operands : List Bytes) :
    List Bytes :=
  let inside (followed : Bool) (name : Bytes) : Option (List Bytes) :=
    if name = inputName then none else below followed name
  match actionOf given with
  | some (action, followed) =>
    if action = utf8 "skip" then (orInput operands).filter fun name => (inside false name).isNone
    else if action ≠ utf8 "recurse" then orInput operands
    else if operands.isEmpty then ((below followed [0x2E]).getD []).map (·.drop 2)
    else operands.flatMap fun name => (inside followed name).getD [name]
  | none => orInput operands

/-- Writes the lines that match a pattern, or only says whether there are any. -/
def run (args : List Bytes) (input : Input) (read : ReadFile)
    (below : Bool → Bytes → Option (List Bytes)) : Ran :=
  withOptions usage args fun given =>
    let matchers := (given.options.map (·.1)).filter matcherLetters.contains
    if matchers.any fun m => some m ≠ matchers.head? then
      fails "grep" (utf8 "conflicting matchers specified") 2
    else
      let warning (text : String) : Piece := .error (utf8 ("grep: warning: " ++ text ++ "\n"))
      let warned := if given.has 'u' then [warning "--unix-byte-offsets (-u) is obsolete"] else []
      match patternsOf input.bytes read given with
      | .error (name, e) => fails "grep" (name ++ utf8 (": " ++ reason e)) 2
      | .ok explicit =>
        match split explicit given.operands with
        | none =>
          let lines := usage.synopsis ++ ["Try 'grep --help' for more information."]
          { pieces := warned ++ lines.map fun l => .error (utf8 (l ++ "\n")), status := 2,
            left := none }
        | some (patterns, operands) =>
          match expressions given patterns with
          | .error fault => fails "grep" (utf8 fault.message) 2
          | .ok (tests, warnings) =>
            let warned := warned ++ warnings.map warning
            let isDeep : Bool := (actionOf given).any fun a => a.1 = utf8 "recurse"
            let isDirectory (name : Bytes) : Bool := name ≠ inputName && (below false name).isSome
            let severalFiles : Bool :=
              1 < operands.length || isDeep && (operands.isEmpty || operands.any isDirectory)
            let search := searchOf given tests severalFiles
            if search.most = some 0 then { pieces := warned, status := 1, left := none }
            else
              let operands := filesOf given below operands
              let unreadable := operands.any fun name =>
                (if name = inputName then input.content else read name).toOption.isNone
              let (pieces, any, left) :=
                search.operands ((given.valueOf? '@').getD (utf8 "(standard input)"))
                  (given.has 's') read false input.content operands
              { pieces := warned ++ pieces
                status :=
                  if any ∧ (!unreadable ∨ given.has 'q') then 0 else if unreadable then 2 else 1
                left :=
                  if operands.contains inputName then some (if input.size?.isSome then left else [])
                  else none }

end ScriptWeave.Shell.Program.Grep
