/-
# Reading regular expressions

Expressions are read as `grep` reads them, in the basic and in the extended spelling: `.`, sets in
brackets, `*`, groups and alternatives, repetition, the anchors of lines and of words, and groups
matched again.  In the extended spelling a sign of repetition with nothing before it repeats nothing
and is warned of; in the basic one it stands for itself.
-/
import ScriptWeave.Shell.Regex

namespace ScriptWeave.Shell.Regex

/-- What is wrong with an expression. -/
inductive Fault where
  | openBracket
  | unknownClass
  | loneClass
  | unknownElement
  | rangeEnd
  | openGroup
  | closeGroup
  | openCount
  | badCount
  | largeCount
  | lastBackslash
  | unknownGroup
  | invalid
  deriving DecidableEq

/-- The text of a fault. -/
def Fault.message : Fault → String
  | openBracket => "Unmatched [, [^, [:, [., or [="
  | unknownClass => "Invalid character class name"
  | loneClass => "character class syntax is [[:space:]], not [:space:]"
  | unknownElement => "Invalid collation character"
  | rangeEnd => "Invalid range end"
  | openGroup => "Unmatched ( or \\("
  | closeGroup => "Unmatched ) or \\)"
  | openCount => "Unmatched \\\x7b"
  | badCount => "Invalid content of \\\x7b\\\x7d"
  | largeCount => "Regular expression too big"
  | lastBackslash => "Trailing backslash"
  | unknownGroup => "Invalid back reference"
  | invalid => "Invalid regular expression"

/-! ## 1. Sets in brackets -/

/-- The bytes of a named class. -/
def classRanges? (name : String) : Option (List (UInt8 × UInt8)) :=
  let upper : List (UInt8 × UInt8) := [(0x41, 0x5A)]
  let lower : List (UInt8 × UInt8) := [(0x61, 0x7A)]
  let digit : List (UInt8 × UInt8) := [(0x30, 0x39)]
  match name with
  | "upper" => some upper
  | "lower" => some lower
  | "digit" => some digit
  | "alpha" => some (upper ++ lower)
  | "alnum" => some (digit ++ upper ++ lower)
  | "space" => some [(0x09, 0x0D), (0x20, 0x20)]
  | "blank" => some [(0x09, 0x09), (0x20, 0x20)]
  | "punct" => some [(0x21, 0x2F), (0x3A, 0x40), (0x5B, 0x60), (0x7B, 0x7E)]
  | "cntrl" => some [(0x00, 0x1F), (0x7F, 0x7F)]
  | "print" => some [(0x20, 0x7E)]
  | "graph" => some [(0x21, 0x7E)]
  | "xdigit" => some [(0x30, 0x39), (0x41, 0x46), (0x61, 0x66)]
  | _ => none

/-- What stands up to a mark and a closing bracket, and the text behind them. -/
def upToMark (mark : UInt8) (seen : Bytes) : Bytes → Option (Bytes × Bytes)
  | [] => none
  | c :: rest =>
    if c = mark ∧ rest.head? = some 0x5D then some (seen.reverse, rest.drop 1)
    else upToMark mark (c :: seen) rest

/-- A member of a set. -/
inductive Member where
  | one (b : UInt8)
  | all (ranges : List (UInt8 × UInt8))

/-- The member at the front of a text: a byte, a named class, or a byte with a bracket of its own.
-/
def readMember (c : UInt8) (rest : Bytes) : Except Fault (Member × Bytes) :=
  match if c = 0x5B then rest else [] with
  | 0x3A :: inner =>
    match upToMark 0x3A [] inner with
    | none => .error .openBracket
    | some (name, rest) =>
      match classRanges? (nameOf name) with
      | some ranges => .ok (.all ranges, rest)
      | none => .error .unknownClass
  | mark :: inner =>
    if mark = 0x2E ∨ mark = 0x3D then
      match upToMark mark [] inner with
      | none => .error .openBracket
      | some ([b], rest) => .ok (.one b, rest)
      | some _ => .error .unknownElement
    else .ok (.one c, rest)
  | [] => .ok (.one c, rest)

/-- Reads the members of a set up to its closing bracket, given enough steps. -/
def readSet : Nat → Bool → List (UInt8 × UInt8) → Bytes →
    Except Fault (List (UInt8 × UInt8) × Bytes)
  | 0, _, _, _ => .error .openBracket
  | _, _, _, [] => .error .openBracket
  | n + 1, first, seen, c :: rest => do
    if c = 0x5D ∧ !first then return (seen, rest)
    match ← readMember c rest with
    | (.all ranges, rest) =>
      match rest with
      | 0x2D :: d :: _ => if d = 0x5D then pure () else .error .rangeEnd
      | _ => pure ()
      readSet n false (seen ++ ranges) rest
    | (.one low, rest) =>
      match rest with
      | 0x2D :: d :: rest' =>
        if d = 0x5D then readSet n false (seen ++ [(low, low)]) rest
        else
          match ← readMember d rest' with
          | (.all _, _) => .error .rangeEnd
          | (.one high, rest) =>
            if high < low then .error .rangeEnd
            else readSet n false (seen ++ [(low, high)]) rest
      | rest => readSet n false (seen ++ [(low, low)]) rest

/-- The ranges with the other case of their letters. -/
def bothCases (ranges : List (UInt8 × UInt8)) : List (UInt8 × UInt8) :=
  ranges ++ ranges.flatMap fun r =>
    let upper := (max r.1 0x41, min r.2 0x5A)
    let lower := (max r.1 0x61, min r.2 0x7A)
    (if upper.1 ≤ upper.2 then [(upper.1 + 0x20, upper.2 + 0x20)] else [])
      ++ (if lower.1 ≤ lower.2 then [(lower.1 - 0x20, lower.2 - 0x20)] else [])

/-- Reads a set behind its opening bracket.  Where nothing stands behind that, there is not even a
set that is left open. -/
def readBrackets (negations : List UInt8) (s : Bytes) :
    Except Fault ((Bool × List (UInt8 × UInt8)) × Bytes) := do
  let (negated, body) :=
    match s with
    | c :: rest => if negations.contains c then (true, rest) else (false, s)
    | [] => (false, [])
  if body.isEmpty then .error .invalid
  else
    let (ranges, rest) ← readSet (body.length + 1) true [] body
    return ((negated, ranges), rest)

/-- The set at the front of a text looks like a named class without its own brackets. -/
def isLoneClass (s : Bytes) : Bool :=
  let inner := s.takeWhile (· ≠ 0x5D)
  s.length > inner.length && inner.length > 1 && inner.head? = some 0x3A
    && inner.getLast? = some 0x3A && !inner.contains 0x5B

/-! ## 2. Signs -/

/-- The signs of an expression, which differ between the spellings. -/
inductive Sign where
  | open_
  | close
  | choice
  | star
  | plus
  | question
  | countOpen
  /-- A set or an anchor that a backslash and a letter stand for. -/
  | special (r : Regex)
  | group (number : Nat)
  | self (b : UInt8)
  | other (b : UInt8)

/-- The bytes of words, as ranges. -/
def wordRanges : List (UInt8 × UInt8) := [(0x30, 0x39), (0x41, 0x5A), (0x5F, 0x5F), (0x61, 0x7A)]

/-- What a backslash and a letter stand for in both spellings. -/
def escaped (c : UInt8) : Sign :=
  let space : List (UInt8 × UInt8) := [(0x09, 0x0D), (0x20, 0x20)]
  let wordStart : Regex := .wordEdge false true
  let wordEnd : Regex := .wordEdge true false
  match Char.ofNat c.toNat with
  | '<' => .special wordStart
  | '>' => .special wordEnd
  | 'b' => .special (.oneOfThese [wordStart, wordEnd])
  | 'B' => .special (.oneOfThese [.wordEdge true true, .wordEdge false false])
  | 'w' => .special (.oneOf false wordRanges)
  | 'W' => .special (.oneOf true wordRanges)
  | 's' => .special (.oneOf false space)
  | 'S' => .special (.oneOf true space)
  | '\'' => .special .lineEnd
  | c' =>
    if c = 0x60 then .special .lineStart
    else if '1' ≤ c' ∧ c' ≤ '9' then .group (c.toNat - 0x30)
    else .self c

/-- The sign at the front of a text. -/
def sign (extended : Bool) : Bytes → Option (Sign × Bytes)
  | [] => none
  | 0x5C :: c :: rest =>
    if extended then some (escaped c, rest)
    else
      match Char.ofNat c.toNat with
      | '(' => some (.open_, rest)
      | ')' => some (.close, rest)
      | '|' => some (.choice, rest)
      | '+' => some (.plus, rest)
      | '?' => some (.question, rest)
      | '\x7b' => some (.countOpen, rest)
      | _ => some (escaped c, rest)
  | c :: rest =>
    match Char.ofNat c.toNat, extended with
    | '*', _ => some (.star, rest)
    | '(', true => some (.open_, rest)
    | ')', true => some (.close, rest)
    | '|', true => some (.choice, rest)
    | '+', true => some (.plus, rest)
    | '?', true => some (.question, rest)
    | '\x7b', true => some (.countOpen, rest)
    | _, _ => some (.other c, rest)

/-! ## 3. Expressions -/

/-- The largest count of a repetition. -/
def countLimit : Nat := 32767

/-- Reads a repetition count behind its brace.  In the extended spelling, a brace without a count
stands for itself, which is the answer of none. -/
def readCount (extended : Bool) (s : Bytes) : Except Fault (Option ((Nat × Option Nat) × Bytes)) :=
  let close (s : Bytes) : Option Bytes :=
    match s, extended with
    | 0x7D :: rest, true => some rest
    | 0x5C :: 0x7D :: rest, false => some rest
    | _, _ => none
  let (least, rest) := leadingNumber s
  let (most, rest) :=
    match rest with
    | 0x2C :: rest => leadingNumber rest
    | rest => (least, rest)
  match close rest with
  | none =>
    if extended then .ok none else .error (if rest.isEmpty then .openCount else .badCount)
  | some after =>
    if s.length = rest.length then (if extended then .ok none else .error .badCount)
    else if countLimit < least.getD 0 ∨ countLimit < most.getD 0 then .error .largeCount
    else
      match most with
      | some most =>
        if most < least.getD 0 then .error .badCount
        else .ok (some ((least.getD 0, some (most - least.getD 0)), after))
      | none => .ok (some ((least.getD 0, none), after))

/-- How expressions are read. -/
structure Spelling where
  extended : Bool
  ignoresCase : Bool := false

/-- The state of reading: how many groups there have been, and what is warned of. -/
structure Progress where
  groups : Nat := 0
  warnings : List String := []

/-- The alternative being read may still begin: nothing stands in it but the start of a line. -/
def isFresh (seen : List Regex) : Bool :=
  match seen with
  | [] | [.lineStart] => true
  | _ => false

/-- Reads an expression, given enough steps, up to its end or the sign that closes its group.
`choices` are the alternatives before the one being read, and `seen` the parts of that one, both the
latest first; `depth` is how many groups are open. -/
def readWithin (how : Spelling) :
    Nat → Nat → Progress → List Regex → List Regex → Bytes →
      Except Fault (Regex × Progress × Bytes)
  | 0, _, _, _, _, _ => .error .invalid
  | n + 1, depth, progress, choices, seen, s =>
    let goOn (progress : Progress) (seen : List Regex) (rest : Bytes) :=
      readWithin how n depth progress choices seen rest
    let take (r : Regex) (rest : Bytes) := goOn progress (r :: seen) rest
    let folded (ranges : List (UInt8 × UInt8)) : List (UInt8 × UInt8) :=
      if how.ignoresCase then bothCases ranges else ranges
    let one (b : UInt8) : Regex := .oneOf false (folded [(b, b)])
    let again (least : Nat) (spare : Option Nat) (mark : UInt8) (name : String) (rest : Bytes) :=
      let progress :=
        if how.extended ∧ isFresh seen then
          { progress with warnings := progress.warnings ++ [name ++ " at start of expression"] }
        else progress
      match seen with
      | [] =>
        if how.extended then
          match rest with
          | 0x29 :: after => if 0 < depth then goOn progress [one 0x29] after
            else goOn progress [] rest
          | rest => goOn progress [] rest
        else take (one mark) rest
      | last :: before =>
        if !how.extended ∧ isFresh seen then take (one mark) rest
        else goOn progress (.repeated last least spare :: before) rest
    match sign how.extended s with
    | none => .ok (.oneOfThese ((.concat seen.reverse :: choices).reverse), progress, [])
    | some (.close, rest) =>
      if 0 < depth then .ok (.oneOfThese ((.concat seen.reverse :: choices).reverse), progress, s)
      else if how.extended then take (one 0x29) rest else .error .closeGroup
    | some (.choice, rest) =>
      readWithin how n depth progress (.concat seen.reverse :: choices) [] rest
    | some (.star, rest) => again 0 none 0x2A "*" rest
    | some (.plus, rest) => again 1 none 0x2B "+" rest
    | some (.question, rest) => again 0 (some 1) 0x3F "?" rest
    | some (.countOpen, rest) => do
      if !how.extended ∧ seen.isEmpty then take (one 0x7B) rest
      else
        match ← readCount how.extended rest with
        | some ((least, spare), rest) => again least spare 0x7B "\x7b...\x7d" rest
        | none => take (one 0x7B) rest
    | some (.open_, rest) => do
      let number := progress.groups + 1
      let (body, progress, rest) ←
        readWithin how n (depth + 1) { progress with groups := number } [] [] rest
      match sign how.extended rest with
      | some (.close, rest) => goOn progress (.group number body :: seen) rest
      | _ => .error .openGroup
    | some (.special r, rest) => take r rest
    | some (.group number, rest) =>
      if progress.groups < number then .error .unknownGroup
      else take (.again number how.ignoresCase) rest
    | some (.self c, rest) => take (one c) rest
    | some (.other c, rest) =>
      match c with
      | 0x5C => .error .lastBackslash
      | 0x2E => take any rest
      | 0x5B => do
        if isLoneClass rest then .error .loneClass
        let ((negated, ranges), rest) ← readBrackets [0x5E] rest
        take (.oneOf negated (folded ranges)) rest
      | 0x5E => take (if how.extended ∨ seen.isEmpty then .lineStart else one c) rest
      | 0x24 =>
        let atEnd :=
          match sign how.extended rest with
          | none | some (.close, _) | some (.choice, _) => true
          | _ => how.extended
        take (if atEnd then .lineEnd else one c) rest
      | c => take (one c) rest

mutual

/-- Some group is matched again. -/
def asksAgain : Regex → Bool
  | again _ _ => true
  | repeated body _ _ => asksAgain body
  | group _ body => asksAgain body
  | concat parts => anyAsksAgain parts
  | oneOfThese choices => anyAsksAgain choices
  | _ => false

/-- Some group is matched again in one of several expressions. -/
def anyAsksAgain : List Regex → Bool
  | [] => false
  | r :: rs => asksAgain r || anyAsksAgain rs

end

mutual

/-- The expression in which nothing is remembered. -/
def forgetful : Regex → Regex
  | repeated body least spare => repeated (forgetful body) least spare
  | group _ body => forgetful body
  | concat parts => concat (allForgetful parts)
  | oneOfThese choices => oneOfThese (allForgetful choices)
  | r => r

/-- Several expressions in which nothing is remembered. -/
def allForgetful : List Regex → List Regex
  | [] => []
  | r :: rs => forgetful r :: allForgetful rs

end

/-- Reads an expression, and what is warned of. -/
def read (how : Spelling) (s : Bytes) : Except Fault (Regex × List String) := do
  let (r, progress, _) ← readWithin how (2 * s.length + 2) 0 {} [] [] s
  return (if asksAgain r then r else forgetful r, progress.warnings)

end ScriptWeave.Shell.Regex
