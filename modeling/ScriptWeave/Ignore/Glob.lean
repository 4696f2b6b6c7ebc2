/-
# Glob patterns

A pattern is matched against the bytes of a path, from its first to its last.

* `?` is one byte other than a slash, `*` any number of them.
* `[ab-d]` is one byte of a set, and `[!ab-d]` or `[^ab-d]` one outside it.
* `{x,y}` is one of several patterns; empty ones do not count.
* `**` between slashes is any number of directories: `**/` at the front of a pattern, `/**` at its
  end, `/**/` in between.  Elsewhere it is two stars.
* A backslash takes the next character as it is.

Whether a pattern matches is found from its end to its front.  For every rest of the path a *table*
says whether what is to follow matches that rest; putting a token in front gives the next table.  So
the work grows with the number of tokens and the length of the path, however many stars there are.
-/

namespace ScriptWeave.Ignore

/-! ## 1. Patterns -/

/-- A token of a pattern. -/
inductive Glob where
  | byte (b : UInt8)
  | any
  | star
  /-- Directories before what follows, none included. -/
  | leading
  /-- A slash and everything behind it. -/
  | trailing
  /-- A slash, or directories between two slashes. -/
  | between
  | oneOf (negated : Bool) (ranges : List (UInt8 × UInt8))
  | alternatives (patterns : List (List Glob))
  /-- No text: what braces without a pattern come to. -/
  | nothing

namespace Glob

/-- The byte that parts names. -/
def slash : UInt8 := 0x2F

/-! ## 2. Matching -/

/-- For every rest of a text, the text itself first and the empty rest last: what is to follow
matches it. -/
abbrev Table := List Bool

/-- The table that comes of another one by a pass from the end to the front.  The empty rest is
judged by its own entry; a rest that begins with a byte by that byte, by its own entry, by that of
the next rest, and by what came of the next rest. -/
def sweep (last : Bool → Bool) (step : UInt8 → Bool → Bool → Bool → Bool) :
    List UInt8 → Table → Table
  | [], table => (table.take 1).map last
  | c :: rest, here :: table =>
    let later := sweep last step rest table
    step c here (table.headD false) (later.headD false) :: later
  | _ :: _, [] => []

/-- One byte that `accepts`, and then what is to follow. -/
def oneByte (accepts : UInt8 → Bool) : List UInt8 → Table → Table :=
  sweep (fun _ => false) fun c _ next _ => accepts c && next

/-- Some slash, and behind it what is to follow. -/
def behindSlash : List UInt8 → Table → Table :=
  sweep (fun _ => false) fun c _ next later => (c = slash && next) || later

/-- The rest or some later one, where what is to follow matches. -/
def somewhere : List UInt8 → Table → Table := sweep id fun _ here _ later => here || later

mutual

/-- The table of a token with what is to follow. -/
def tableOf : Glob → List UInt8 → Table → Table
  | byte b, s, table => oneByte (· = b) s table
  | any, s, table => oneByte (· ≠ slash) s table
  | star, s, table => sweep id (fun c here _ later => here || (c ≠ slash && later)) s table
  | leading, s, table => table.zipWith (· || ·) (behindSlash s table)
  | trailing, s, table => oneByte (· = slash) s (somewhere s table)
  | between, s, table =>
    (oneByte (· = slash) s (table.map fun _ => true)).zipWith (· && ·) (behindSlash s table)
  | oneOf negated ranges, s, table =>
    oneByte (fun c => (ranges.any fun r => r.1 ≤ c && c ≤ r.2) != negated) s table
  | nothing, _, table => table
  | alternatives patterns, s, table => tableOfAny patterns s table

/-- The table of a row of tokens with what is to follow. -/
def tableOfAll : List Glob → List UInt8 → Table → Table
  | [], _, table => table
  | g :: gs, s, table => tableOf g s (tableOfAll gs s table)

/-- The table of one of several patterns with what is to follow. -/
def tableOfAny : List (List Glob) → List UInt8 → Table → Table
  | [], _, table => table.map fun _ => false
  | p :: ps, s, table => (tableOfAll p s table).zipWith (· || ·) (tableOfAny ps s table)

end

/-- The pattern matches the whole path. -/
def matchesPath (pattern : List Glob) (path : List UInt8) : Bool :=
  (tableOfAll pattern path (path.map (fun _ => false) ++ [true])).headD false

/-! ## 3. Reading a pattern -/

/-- The bytes of a character. -/
def bytesOf (c : Char) : List UInt8 := String.utf8EncodeChar c

/-- The tokens that stand for a character itself. -/
def literal (c : Char) : List Glob := (bytesOf c).map byte

/-- What comes of reading a set behind its opening bracket. -/
inductive SetReading where
  /-- There is no closing bracket. -/
  | unclosed
  /-- A range runs backwards. -/
  | backwards
  | read (ranges : List (Char × Char)) (rest : List Char)

/-- Reads the members of a set, the latest first in `seen`; `inRange` says that the last member is
the start of a range whose end is still to come. -/
def readSet (seen : List (Char × Char)) (first inRange : Bool) : List Char → SetReading
  | [] => .unclosed
  | c :: rest =>
    if c = ']' ∧ !first then
      .read ((if inRange then ('-', '-') :: seen else seen).reverse) rest
    else if c = '-' ∧ !first ∧ !inRange then readSet seen false true rest
    else if inRange ∧ c ≠ ']' then
      match seen with
      | (low, _) :: seen =>
        if c < low then .backwards else readSet ((low, c) :: seen) false false rest
      | [] => readSet [(c, c)] false false rest
    else readSet ((c, c) :: seen) false false rest

/-- The ranges of bytes that a range of characters comes to. -/
def byteRanges (r : Char × Char) : List (UInt8 × UInt8) :=
  let low := bytesOf r.1
  if r.1 = r.2 then low.map fun b => (b, b)
  else
    let high := bytesOf r.2
    (low.dropLast.map fun b => (b, b)) ++ [(low.getLastD 0, high.headD 0)]
      ++ (high.drop 1).map fun b => (b, b)

/-- An open brace: the alternatives before the one being read, and the tokens before the brace; both
the latest first. -/
structure Brace where
  alternatives : List (List Glob)
  outer : List Glob

/-- Nothing in a pattern stands for any text. -/
def isVoid (pattern : List Glob) : Bool :=
  pattern.all fun
    | nothing => true
    | _ => false

/-- A character before two stars lets them stand for directories: a slash, and between braces also
a comma or a brace, an escaped one included. -/
def parts (braces : List Brace) (before : Option Char) : Bool :=
  before = some '/'
    || (!braces.isEmpty && (before = some ',' || before = some (Char.ofNat 0x7B)))

/-- Reads a pattern, given enough steps.  `braces` are the open braces, the innermost first; `seen`
holds the tokens of the pattern or alternative being read, the latest first; `before` is the
character before the place. -/
def readWithin : Nat → List Brace → List Glob → Option Char → List Char → Option (List Glob)
  | 0, _, _, _, _ => none
  | _ + 1, braces, seen, _, [] => if braces.isEmpty then some seen.reverse else none
  | n + 1, braces, seen, before, c :: rest =>
    match c, rest with
    | '?', rest => readWithin n braces (any :: seen) (some c) rest
    | '*', '*' :: rest =>
      let twoStars := readWithin n braces (star :: star :: seen) (some c) rest
      if seen.isEmpty then
        match rest with
        | [] => readWithin n braces [leading] (some c) []
        | '/' :: rest => readWithin n braces [leading] (some '/') rest
        | _ => twoStars
      else if !parts braces before then twoStars
      else
        let joined (g : Glob) : List Glob :=
          match seen with
          | leading :: seen => leading :: seen
          | trailing :: seen => trailing :: seen
          | _ :: seen => g :: seen
          | [] => [g]
        match rest with
        | [] => readWithin n braces (joined trailing) (some c) []
        | '/' :: rest => readWithin n braces (joined between) (some '/') rest
        | d :: rest' =>
          if (d = ',' ∨ d = '}') ∧ !braces.isEmpty then
            readWithin n braces (joined trailing) (some c) (d :: rest')
          else twoStars
    | '*', rest => readWithin n braces (star :: seen) (some c) rest
    | '[', rest =>
      let (negated, body) :=
        match rest with
        | '!' :: body => (true, body)
        | '^' :: body => (true, body)
        | body => (false, body)
      match readSet [] true false body with
      | .unclosed => readWithin n braces (byte 0x5B :: seen) (some c) rest
      | .backwards => none
      | .read ranges rest =>
        readWithin n braces (oneOf negated (ranges.flatMap byteRanges) :: seen) (some ']') rest
    | '\\', d :: rest => readWithin n braces ((literal d).reverse ++ seen) (some d) rest
    | '\\', [] => none
    | '\x7b', rest => readWithin n (⟨[], seen⟩ :: braces) [] (some c) rest
    | '\x7d', rest =>
      match braces with
      | [] => none
      | b :: braces =>
        let all := (seen.reverse :: b.alternatives).reverse.filter (!isVoid ·)
        let group := if all.isEmpty then nothing else alternatives all
        readWithin n braces (group :: b.outer) (some c) rest
    | ',', rest =>
      match braces with
      | [] => readWithin n [] (byte 0x2C :: seen) (some c) rest
      | b :: braces =>
        readWithin n (⟨seen.reverse :: b.alternatives, b.outer⟩ :: braces) [] (some c) rest
    | c, rest => readWithin n braces ((literal c).reverse ++ seen) (some c) rest

/-- The tokens of a pattern, if it is well formed. -/
def read? (pattern : List Char) : Option (List Glob) :=
  readWithin (pattern.length + 1) [] [] none pattern

/-- The pattern that is `**` alone matches everything. -/
def matchesAll (pattern : List Glob) : Bool :=
  match pattern with
  | [leading] => true
  | _ => false

end Glob

end ScriptWeave.Ignore
