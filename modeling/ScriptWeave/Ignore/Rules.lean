/-
# Ignore files

A line of an ignore file is a rule: a pattern for paths, relative to the directory that the file is
in.

* Blank lines and lines that start with `#` are no rules.  Blanks at the end of a line do not count,
  unless the last one has a backslash in front.  A backslash before a leading `#` or `!` takes it
  as it is.
* A rule with `!` in front keeps what it matches.
* A rule with a slash at its end is for directories only.
* A pattern with a slash at its front or inside is matched from the directory of the file on; any
  other at every depth.  `/**` at the end means what is inside, not the directory itself.

The last rule that matches a path decides on it.  A rule whose pattern is not well formed is left
out.

Whoever asks the rules about a path gives its whole text, and that of the directory in front is cut
off.  Of two texts for one path the rules may know only one: behind `/p`, what is left of `/p//a` is
the text `a` with a slash in front.  About such a text there is no answer; asking for one is an
error of the program, and it breaks off.
-/
import ScriptWeave.Ignore.Glob
import ScriptWeave.Text.Blank

namespace ScriptWeave.Ignore

/-! ## 1. Rules -/

/-- A rule of an ignore file. -/
structure Rule where
  pattern : List Glob
  /-- The rule keeps what it matches. -/
  keeps : Bool
  /-- The rule is for directories. -/
  onlyDirectories : Bool

/-- What rules say about a path. -/
inductive Verdict where
  | silent
  | ignored
  | kept
  deriving DecidableEq

namespace Verdict

/-- The first verdict that is not silent; the second is only asked for then. -/
def orElse : Verdict → (Unit → Verdict) → Verdict
  | silent, other => other ()
  | decided, _ => decided

end Verdict

/-- A line without the blanks at its end, unless the last one is escaped. -/
def trimLine (line : List Char) : List Char :=
  match line.reverse with
  | ' ' :: '\\' :: _ => line
  | _ => Text.trimEnd line

/-- The pattern of a rule as a glob: with `**/` in front if it may match at every depth, and with a
star behind a final `/**`. -/
def completePattern (anchored : Bool) (pattern : List Char) : List Char :=
  let deep := ['*', '*', '/']
  let pattern :=
    if !anchored ∧ !pattern.contains '/' ∧ pattern ≠ ['*', '*'] then deep ++ pattern else pattern
  if ['/', '*', '*'].isSuffixOf pattern then pattern ++ ['/', '*'] else pattern

/-- The rule of a line, if it is one. -/
def ruleOf (line : List Char) : Option Rule :=
  if line.head? = some '#' then none
  else
    match trimLine line with
    | [] => none
    | trimmed =>
      let (keeps, anchored, body) : Bool × Bool × List Char :=
        match trimmed with
        | '\\' :: '!' :: rest => (false, false, '!' :: rest)
        | '\\' :: '#' :: rest => (false, false, '#' :: rest)
        | '!' :: '/' :: rest => (true, true, rest)
        | '!' :: rest => (true, false, rest)
        | '/' :: rest => (false, true, rest)
        | rest => (false, false, rest)
      let (onlyDirectories, body) :=
        match body.reverse with
        | '/' :: '\\' :: rest => (true, rest.reverse)
        | '/' :: rest => (true, rest.reverse)
        | _ => (false, body)
      (Glob.read? (completePattern anchored body)).map fun pattern =>
        { pattern, keeps, onlyDirectories }

/-! ## 2. Ignore files -/

/-- The lines of bytes, up to the first that is not UTF-8. -/
def readableLines (content : ByteArray) : List (List Char) :=
  let lines := content.toList.splitOn 0x0A
  let texts := lines.map fun line =>
    let line := if line.getLast? = some 0x0D then line.dropLast else line
    (String.fromUTF8? (ByteArray.mk line.toArray)).map String.toList
  (texts.takeWhile Option.isSome).filterMap id

/-- The rules of an ignore file. -/
def rulesOf (content : ByteArray) : List Rule :=
  match readableLines content with
  | [] => []
  | first :: rest => ((first.dropWhile (· = '\uFEFF')) :: rest).filterMap ruleOf

/-! ## 3. Verdicts -/

/-- The rule matches the path. -/
def Rule.matchesPath (rule : Rule) (path : List UInt8) : Bool :=
  Glob.matchesAll rule.pattern || Glob.matchesPath rule.pattern path

/-- What rules say about a path, which may be a directory. -/
def verdict (rules : List Rule) (path : List UInt8) (isDirectory : Bool) : Verdict :=
  match rules.reverse.find? fun r =>
      r.matchesPath path && (!r.onlyDirectories || isDirectory) with
  | some rule => if rule.keeps then .kept else .ignored
  | none => .silent

/-- A piece of a path is a component: it is not empty, and it is a dot only as the first one. -/
def isComponent (piece : List Char) (isFirst : Bool) : Bool :=
  piece ≠ [] ∧ (piece ≠ ['.'] ∨ isFirst)

/-- The pieces of a path, the last one first, from the last component on. -/
def trimPieces : List (List Char) → List (List Char)
  | [] => []
  | piece :: rest => if isComponent piece rest.isEmpty then piece :: rest else trimPieces rest

/-- The path without its last component, as it is written. -/
def parentOf? (path : List Char) : Option (List Char) :=
  match trimPieces (path.splitOn '/').reverse with
  | [] => none
  | _ :: rest => some (['/'].intercalate (trimPieces rest).reverse)

/-- The path and those above it, given how many there can be. -/
def withParents : Nat → List Char → List (List Char)
  | 0, path => [path]
  | n + 1, path =>
    match parentOf? path with
    | some parent => path :: withParents n parent
    | none => [path]

/-- What rules say about a path that is no directory, or else about the nearest directory above it
that they say something about. -/
def verdictWithParents (rules : List Rule) (path : List Char) : Verdict :=
  match withParents path.length path with
  | [] => .silent
  | path :: parents =>
    let bytes (p : List Char) : List UInt8 := (String.ofList p).toUTF8.toList
    parents.foldl (fun v parent => v.orElse fun _ => verdict rules (bytes parent) true)
      (verdict rules (bytes path) false)

/-! ## 4. Paths that rules can be asked about -/

/-- The directory of an ignore file, as the file's path says it; a leading `./` says nothing. -/
def directoryOf (file : List Char) : List Char :=
  match parentOf? file with
  | none => ['/']
  | some [] => if file.head? = some '/' then ['/'] else []
  | some directory => (['.', '/'].isPrefixOf? directory).getD directory

/-- The path that rules are asked about: what stands in the text of a path behind that of their
directory.  Where the text does not begin with the directory's, all of it is asked about.  There is
nothing to ask about if it still begins with a slash. -/
def below? (directory path : List Char) : Option (List Char) :=
  let path := (['.', '/'].isPrefixOf? path).getD path
  let rest :=
    if directory = ['.'] ∨ '/' ∉ path then path
    else
      match directory.isPrefixOf? path with
      | some rest => (['/'].isPrefixOf? rest).getD rest
      | none => path
  if rest.head? = some '/' then none else some rest

/-- What the rules of an ignore file say about a path, or else about the nearest directory above it.
Without rules anything can be asked. -/
def verdict? (rules : List Rule) (file path : List Char) : Option Verdict :=
  if rules.isEmpty then some .silent
  else (below? (directoryOf file) path).map (verdictWithParents rules)

end ScriptWeave.Ignore
