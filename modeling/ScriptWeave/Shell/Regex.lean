/-
# Regular expressions over bytes

What an expression matches is said by the *places* in a line: from given places, the places that a
match can end in.  A row of places is kept in the order of the line and without repetition, so that
matching from every place of a line at once costs little more than from one.

A place knows the byte before it, for the anchors, and what the groups have matched, for expressions
that ask for it again.
-/
import ScriptWeave.Shell.Bytes

namespace ScriptWeave.Shell

/-- A regular expression over bytes. -/
inductive Regex where
  | oneOf (negated : Bool) (ranges : List (UInt8 × UInt8))
  | lineStart
  | lineEnd
  /-- The byte before the place is one of a word if the first says so, and the byte behind it if the
  second does. -/
  | wordEdge (before behind : Bool)
  /-- As many as `least`, and more if `more` says so, at most `least + spare` otherwise. -/
  | repeated (body : Regex) (least : Nat) (spare : Option Nat)
  | concat (parts : List Regex)
  | oneOfThese (choices : List Regex)
  /-- What the body matches is remembered under a number. -/
  | group (number : Nat) (body : Regex)
  /-- What is remembered under a number; capitals may count as small letters. -/
  | again (number : Nat) (ignoresCase : Bool)

namespace Regex

/-- Any byte. -/
def any : Regex := .oneOf true []

/-- One given byte. -/
def byte (b : UInt8) : Regex := .oneOf false [(b, b)]

/-- A byte of a word. -/
def isWordByte (c : UInt8) : Bool :=
  (0x30 ≤ c && c ≤ 0x39) || (0x41 ≤ c && c ≤ 0x5A) || (0x61 ≤ c && c ≤ 0x7A) || c = 0x5F

/-! ## 1. Places -/

/-- A place in a line. -/
structure Place where
  /-- How many bytes follow. -/
  left : Nat
  rest : Bytes
  before : Option UInt8 := none
  groups : List (Nat × Bytes) := []

namespace Place

/-- The front of a text. -/
def front (s : Bytes) : Place := { left := s.length, rest := s }

/-- Two places of one line are the same. -/
def same (p q : Place) : Bool := p.left = q.left && p.groups = q.groups

/-- The place behind the next byte, if that is accepted. -/
def step? (accepts : UInt8 → Bool) (p : Place) : Option Place :=
  match p.rest with
  | c :: rest =>
    if accepts c then some { p with left := p.left - 1, rest, before := some c } else none
  | [] => none

/-- The place behind a text, if that comes next. -/
def pass? (ignoresCase : Bool) : Bytes → Place → Option Place
  | [], p => some p
  | c :: text, p =>
    (p.step? fun d => c = d || (ignoresCase && lowered [c] = lowered [d])).bind
      (pass? ignoresCase text)

/-- All places of a line, the front first. -/
def allOf (before : Option UInt8) : Bytes → List Place
  | [] => [{ left := 0, rest := [], before }]
  | c :: rest => { left := rest.length + 1, rest := c :: rest, before } :: allOf (some c) rest

end Place

/-- Two rows of places as one, given enough steps. -/
def union : Nat → List Place → List Place → List Place
  | 0, ps, _ => ps
  | _, [], qs => qs
  | _, ps, [] => ps
  | n + 1, p :: ps, q :: qs =>
    if p.left > q.left then p :: union n ps (q :: qs)
    else if q.left > p.left then q :: union n (p :: ps) qs
    else if p.same q then union n (p :: ps) qs
    else if (ps.takeWhile fun r => r.left = q.left).any q.same then union n (p :: ps) qs
    else p :: union n ps (q :: qs)

/-- The first row with what the second adds. -/
def merge (ps qs : List Place) : List Place := union (ps.length + qs.length + 1) ps qs

/-- The places of the first row that are not in the second, which is in the same order. -/
def without : List Place → List Place → List Place
  | [], _ => []
  | p :: ps, qs =>
    let qs := qs.dropWhile fun q => q.left > p.left
    if (qs.takeWhile fun q => q.left = p.left).any p.same then without ps qs
    else p :: without ps qs

/-- A row of places, put in order. -/
def ordered (ps : List Place) : List Place := ps.foldr (fun p all => merge [p] all) []

/-- The places that repeating a step leads to, given how many more times it may be taken; `new` are
those that were reached last. -/
def closure (step : List Place → List Place) : Nat → List Place → List Place → List Place
  | 0, all, _ => all
  | n + 1, all, new =>
    match without (step new) all with
    | [] => all
    | next => closure step n (merge all next) next

/-- The places that taking a step a number of times leads to. -/
def steps (step : List Place → List Place) : Nat → List Place → List Place
  | 0, places => places
  | n + 1, places => if places.isEmpty then [] else steps step n (step places)

/-- The places that some places lead to along any number of accepted bytes: those places themselves,
and what can be reached from a place before; `on` says that the place in hand can be. -/
def spread (accepts : UInt8 → Bool) (on : Bool) (before : Option UInt8) (left : Nat)
    (ps : List Place) (rest : Bytes) : List Place :=
  let here := ps.head?.any (·.left = left)
  let ps := if here then ps.drop 1 else ps
  let on := on || here
  let later :=
    match rest with
    | [] => []
    | c :: rest => spread accepts (on && accepts c) (some c) (left - 1) ps rest
  if on then { left, rest, before } :: later else later

/-! ## 2. Matching -/

/-- A byte of a set, or one outside it. -/
def isIn (negated : Bool) (ranges : List (UInt8 × UInt8)) (c : UInt8) : Bool :=
  (ranges.any fun r => r.1 ≤ c && c ≤ r.2) != negated

/-- The bytes that an expression is one of, if it is no more than that. -/
def set? : Regex → Option (UInt8 → Bool)
  | oneOf negated ranges => some (isIn negated ranges)
  | _ => none

mutual

/-- The places that a match from one of some places can end in. -/
def ends : Regex → List Place → List Place
  | oneOf negated ranges, ps => ps.filterMap (Place.step? (isIn negated ranges))
  | lineStart, ps => ps.filter (·.before.isNone)
  | lineEnd, ps => ps.filter (·.left = 0)
  | wordEdge before behind, ps =>
    ps.filter fun p =>
      p.before.any isWordByte = before && p.rest.head?.any isWordByte = behind
  | repeated body least spare, ps =>
    match steps (ends body) least ps, set? body, spare with
    | p :: rest, some accepts, none =>
      if (p :: rest).all (·.groups.isEmpty) then
        spread accepts false p.before p.left (p :: rest) p.rest
      else closure (ends body) (p.left + 1) (p :: rest) (p :: rest)
    | first, _, spare =>
      closure (ends body) (spare.getD ((ps.map (·.left)).max?.getD 0 + 1)) first first
  | concat parts, ps => endsOfAll parts ps
  | oneOfThese choices, ps => endsOfAny choices ps
  | group number body, ps =>
    ordered (ps.flatMap fun p =>
      (ends body [p]).map fun q =>
        let matched := p.rest.take (p.left - q.left)
        { q with groups := (number, matched) :: q.groups.filter (·.1 ≠ number) })
  | again number ignoresCase, ps =>
    ordered (ps.filterMap fun p =>
      (p.groups.find? (·.1 = number)).bind fun g => p.pass? ignoresCase g.2)

/-- The places that a match of parts one after another can end in. -/
def endsOfAll : List Regex → List Place → List Place
  | [], ps => ps
  | r :: rs, ps =>
    match ends r ps with
    | [] => []
    | ps => endsOfAll rs ps

/-- The places that a match of one of several can end in. -/
def endsOfAny : List Regex → List Place → List Place
  | [], _ => []
  | r :: rs, ps => merge (ends r ps) (endsOfAny rs ps)

end

/-- The expression matches somewhere in a line. -/
def matchesLine (r : Regex) (line : Bytes) : Bool := !(ends r (Place.allOf none line)).isEmpty

/-- The expression matches a whole text. -/
def matchesAll (r : Regex) (s : Bytes) : Bool := (ends r [.front s]).any (·.left = 0)

/-- The lengths of the fronts of a text that the expression matches. -/
def fronts (r : Regex) (s : Bytes) : List Nat :=
  (ends r [.front s]).map fun p => s.length - p.left

/-- No byte of a word stands beside a match between two places. -/
def standsAlone (p q : Place) : Bool :=
  !p.before.any isWordByte && !q.rest.head?.any isWordByte

/-- The expression matches somewhere in a line with no byte of a word beside the match. -/
def matchesWord (r : Regex) (line : Bytes) : Bool :=
  (Place.allOf none line).any fun p => (ends r [p]).any (standsAlone p)

/-- Where parts of a line match, from left to right, each as long as it can be, and empty ones left
out: the byte that each begins at, and its length.  `words` says that no byte of a word may stand
beside one. -/
def occurrences (r : Regex) (words : Bool) (line : Bytes) : List (Nat × Nat) :=
  ((Place.allOf none line).foldl (fun (found, free) p =>
    let here := line.length - p.left
    if here < free then (found, free)
    else
      let lengths := ((ends r [p]).filter fun q => !words || standsAlone p q).map fun q =>
        p.left - q.left
      match lengths.max? with
      | some (n + 1) => ((here, n + 1) :: found, here + n + 1)
      | _ => (found, free)) (([] : List (Nat × Nat)), 0)).1.reverse

end Regex

end ScriptWeave.Shell
