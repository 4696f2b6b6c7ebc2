/-
# Exchanging, deleting and squeezing bytes

`tr` reads one or two sets of bytes.  A set is written as bytes with escapes, ranges, named classes,
and, between brackets, repeated bytes.  The n-th byte of the first set is exchanged for the n-th of
the second one, whose last byte is repeated as needed; a class of capitals against one of small
letters exchanges every letter for its other case.
-/
import ScriptWeave.Shell.Program.Basic
import ScriptWeave.Shell.RegexReader

namespace ScriptWeave.Shell.Program.Tr

/-! ## 1. Escapes -/

/-- The bytes of a set, and whether each was escaped; and what is warned of. -/
def unescaped (seen : List (UInt8 × Bool)) (warnings : Bytes) :
    Nat → Bytes → List (UInt8 × Bool) × Bytes
  | 0, _ => (seen.reverse, warnings)
  | _, [] => (seen.reverse, warnings)
  | _, [0x5C] =>
    (((0x5C, false) :: seen).reverse, warnings
      ++ utf8 "tr: warning: an unescaped backslash at end of string is not portable\n")
  | n + 1, 0x5C :: c :: rest =>
    let digits := ((c :: rest).take 3).takeWhile fun c => 0x30 ≤ c && c ≤ 0x37
    let value (digits : Bytes) : Nat := digits.foldl (fun n c => n * 8 + (c.toNat - 0x30)) 0
    if digits.isEmpty then
      let b : UInt8 :=
        match Char.ofNat c.toNat with
        | 'n' => 0x0A
        | 't' => 0x09
        | 'r' => 0x0D
        | 'f' => 0x0C
        | 'v' => 0x0B
        | 'a' => 0x07
        | 'b' => 0x08
        | _ => c
      unescaped ((b, true) :: seen) warnings n rest
    else if 255 < value digits then
      let two := digits.take 2
      let warning := utf8 "tr: warning: the ambiguous octal escape \\" ++ digits
        ++ utf8 " is being\n\tinterpreted as the 2-byte sequence \\0" ++ two ++ utf8 ", "
        ++ digits.drop 2 ++ [0x0A]
      unescaped ((UInt8.ofNat (value two), true) :: seen) (warnings ++ warning) n (rest.drop 1)
    else
      unescaped ((UInt8.ofNat (value digits), true) :: seen) warnings n
        ((c :: rest).drop digits.length)
  | n + 1, c :: rest => unescaped ((c, false) :: seen) warnings n rest

/-! ## 2. Sets -/

/-- An element of a set. -/
inductive Element where
  | one (b : UInt8)
  | range (low high : UInt8)
  | named (name : String) (members : Bytes)
  | equivalent (b : UInt8)
  /-- Without a count, as often as it takes. -/
  | repeated (b : UInt8) (count : Option Nat)

/-- The bytes from one to another. -/
def span (low high : UInt8) : Bytes :=
  (List.range (high.toNat + 1 - low.toNat)).map fun i => low + UInt8.ofNat i

/-- The bytes of an element, where what is repeated as needed fills a room. -/
def Element.members (room : Nat) : Element → Bytes
  | one b | equivalent b => [b]
  | range low high => span low high
  | named _ members => members
  | repeated b count => List.replicate (count.getD room) b

/-- A byte as a message shows it. -/
def printable (b : UInt8) : Bytes :=
  if 0x20 ≤ b ∧ b ≤ 0x7E then [b]
  else
    let digits := bytesOf (Nat.toDigits 8 b.toNat)
    0x5C :: (List.replicate (3 - digits.length) 0x30 ++ digits)

/-- What stands up to a mark and a closing bracket, neither escaped; and what follows. -/
def upToMark (mark : UInt8) (seen : Bytes) :
    List (UInt8 × Bool) → Option (Bytes × List (UInt8 × Bool))
  | (c, false) :: (0x5D, false) :: rest =>
    if c = mark then some (seen.reverse, rest)
    else upToMark mark (c :: seen) ((0x5D, false) :: rest)
  | (c, _) :: rest => upToMark mark (c :: seen) rest
  | [] => none

/-- The bytes of a class. -/
def classMembers? (name : Bytes) : Option Bytes :=
  (Regex.classRanges? (nameOf name)).map fun ranges =>
    (ranges.flatMap fun r => span r.1 r.2).mergeSort (· ≤ ·)

/-- A repetition behind its opening bracket; the answer of none is that there is none. -/
def readRepeated (s : List (UInt8 × Bool)) :
    Except Bytes (Option (Element × List (UInt8 × Bool))) :=
  match s with
  | (b, _) :: (0x2A, false) :: rest =>
    let inner := rest.takeWhile fun c => !c.2 && c.1 ≠ 0x5D
    let digits := inner.map (·.1)
    match rest.drop inner.length with
    | (0x5D, false) :: after =>
      let base := if digits.head? = some 0x30 then 8 else 10
      if digits.isEmpty then .ok (some (.repeated b none, after))
      else if digits.all fun d => digitValue d < base then
        let count := digits.foldl (fun n d => n * base + digitValue d) 0
        .ok (some (.repeated b (if count = 0 then none else some count), after))
      else
        .error (utf8 "invalid repeat count " ++ quoted (digits.flatMap printable)
          ++ utf8 " in [c*n] construct")
    | _ => .ok none
  | _ => .ok none

/-- Reads an element between brackets, behind the opening one; the answer of none is that there is
none. -/
def readBracketed (s : List (UInt8 × Bool)) :
    Except Bytes (Option (Element × List (UInt8 × Bool))) := do
  match s with
  | (mark, false) :: rest =>
    if mark = 0x3A ∨ mark = 0x3D then
      match upToMark mark [] rest with
      | none => readRepeated s
      | some (name, after) =>
        if name.isEmpty then
          .error (utf8 (if mark = 0x3A then "missing character class name '[::]'"
            else "missing equivalence class character '[==]'"))
        else if mark = 0x3A then
          match classMembers? name, ← readRepeated s with
          | some members, _ => return some (.named (nameOf name) members, after)
          | none, some found => return some found
          | none, none =>
            .error (utf8 "invalid character class " ++ quoted (name.flatMap printable))
        else
          match name, ← readRepeated s with
          | [b], _ => return some (.equivalent b, after)
          | _, some found => return some found
          | name, none =>
            .error (name.flatMap printable
              ++ utf8 ": equivalence class operand must be a single character")
    else readRepeated s
  | _ => readRepeated s

/-- Reads the elements of a set, given enough steps. -/
def readElements : Nat → List (UInt8 × Bool) → Except Bytes (List Element)
  | 0, _ => .ok []
  | n + 1, s => do
    match s with
    | c :: d :: e :: rest =>
      match ← if c = (0x5B, false) then readBracketed (d :: e :: rest) else pure none with
      | some (element, rest) => return element :: (← readElements n rest)
      | none =>
        if d = (0x2D, false) then
          if e.1 < c.1 then
            .error (utf8 "range-endpoints of '" ++ printable c.1 ++ utf8 "-" ++ printable e.1
              ++ utf8 "' are in reverse collating sequence order")
          else return .range c.1 e.1 :: (← readElements n rest)
        else return .one c.1 :: (← readElements n (d :: e :: rest))
    | s => return s.map fun c => .one c.1

/-- Some element of a set is like this. -/
def isClass : Element → Bool
  | .named _ _ => true
  | _ => false

/-- The element is repeated as needed. -/
def isFilling : Element → Bool
  | .repeated _ none => true
  | _ => false

/-- The class of capitals or of small letters that an element is; true for capitals. -/
def caseOf? : Element → Option Bool
  | .named "upper" _ => some true
  | .named "lower" _ => some false
  | _ => none

/-- Every byte that is not a member. -/
def complement (members : Bytes) : Bytes :=
  (List.range 256).filterMap fun i =>
    if members.contains (UInt8.ofNat i) then none else some (UInt8.ofNat i)

/-! ## 3. Exchanging -/

/-- A byte of a set; at the start of a class of one case, also that case and how many follow. -/
abbrev SetByte := UInt8 × Option (Bool × Nat)

/-- The bytes of a set, one by one. -/
def unitsOf (room : Nat) (set : List Element) : List SetByte :=
  set.flatMap fun e =>
    match caseOf? e, e.members room with
    | some isUpper, b :: rest => (b, some (isUpper, rest.length)) :: rest.map (·, none)
    | _, members => members.map (·, none)

/-- The pairs of bytes that two sets come to, what is left of the first, and whether the classes
stand side by side as they must; given enough steps. -/
def pairs : Nat → List SetByte → List SetByte → List (UInt8 × UInt8) × List SetByte × Bool
  | 0, left, _ => ([], left, true)
  | _, [], (_, some _) :: _ => ([], [], false)
  | _, [], _ => ([], [], true)
  | _, left, [] => ([], left, true)
  | _, (_, none) :: _, (_, some _) :: _ => ([], [], false)
  | n + 1, (_, some (up₁, k₁)) :: s, (_, some (up₂, k₂)) :: t =>
    let (more, left, fits) := pairs n (s.drop k₁) (t.drop k₂)
    let letters := if up₁ then span 0x41 0x5A else span 0x61 0x7A
    let exchanged := letters.map fun b =>
      (b, if up₁ = up₂ then b else if up₁ then b + 0x20 else b - 0x20)
    (exchanged ++ more, left, fits)
  | n + 1, (a, _) :: s, (b, none) :: t =>
    let (more, left, fits) := pairs n s t
    ((a, b) :: more, left, fits)

/-- The table that pairs come to: every other byte stays. -/
def tableOf (pairs : List (UInt8 × UInt8)) : Array UInt8 :=
  pairs.foldl (fun table p => table.setIfInBounds p.1.toNat p.2)
    ((Array.range 256).map UInt8.ofNat)

/-- The members of a set, as a table. -/
def memberTable (members : Bytes) : Array Bool :=
  members.foldl (fun table b => table.setIfInBounds b.toNat true) (Array.replicate 256 false)

/-- Every run of one and the same member becomes a single byte; `seen` holds what is kept, the
latest first. -/
def squeeze (members : Array Bool) (seen : Bytes) : Bytes → Bytes
  | [] => seen.reverse
  | c :: rest =>
    if seen.head? = some c ∧ members.getD c.toNat false then squeeze members seen rest
    else squeeze members (c :: seen) rest

/-- The pairs by which two sets are exchanged, and the bytes of the second one; or what is wrong
with them. -/
def exchange (isComplement truncates : Bool) (set₁ set₂ : List Element) :
    Except Bytes (List (UInt8 × UInt8) × Bytes) := do
  let given := set₁.flatMap (·.members 0)
  let all := if isComplement then complement given else given
  let size := (set₂.flatMap (·.members 0)).length
  let room := all.length - size
  let units₁ : List SetByte := if isComplement then all.map (·, none) else unitsOf 0 set₁
  let units₂ : List SetByte :=
    if isComplement then (set₂.flatMap (·.members room)).map (·, none) else unitsOf room set₂
  if set₂.any fun | .equivalent _ => true | _ => false then
    .error (utf8 "[=c=] expressions may not appear in string2 when translating")
  if set₂.any fun e => isClass e && (caseOf? e).isNone then
    .error (utf8 ("when translating, the only character classes that may appear in\n"
      ++ "string2 are 'upper' and 'lower'"))
  let (found, left, fits) := pairs (units₁.length + 1) units₁ units₂
  if !fits then .error (utf8 "misaligned [:upper:] and/or [:lower:] construct")
  let second := set₂.flatMap (·.members room)
  if left.isEmpty ∨ truncates then
    homogeneous found second
  else
    match set₂.getLast?, second.getLast? with
    | some (.named _ _), _ =>
      .error (utf8 ("when translating with string1 longer than string2,\n"
        ++ "the latter string must not end with a character class"))
    | _, some last => homogeneous (found ++ left.map fun u => (u.1, last)) second
    | _, none => .error (utf8 "when not truncating set1, string2 must be non-empty")
where
  /-- What a complement of classes is exchanged for must be one byte. -/
  homogeneous (found : List (UInt8 × UInt8)) (second : Bytes) :
      Except Bytes (List (UInt8 × UInt8) × Bytes) :=
    if isComplement ∧ set₁.any isClass
        ∧ (found.map (·.2) ++ second).any fun b => some b ≠ second.head? then
      .error (utf8 ("when translating with complemented character classes,\n"
        ++ "string2 must map all characters in the domain to one"))
    else .ok (found, second)

/-! ## 4. The program -/

/-- How `tr` is called. -/
def usage : Usage where
  program := "tr"
  letters := ['d', 's', 'c', 'C', 't']
  names := [⟨"complement", 'c', .none_⟩, ⟨"delete", 'd', .none_⟩, ⟨"squeeze-repeats", 's', .none_⟩,
    ⟨"truncate-set1", 't', .none_⟩]
  mixed := false

/-- What is wrong with the number of operands, by whether bytes are deleted and squeezed. -/
def operandFault? (operands : List Bytes) (deletes squeezes : Bool) : Option Bytes :=
  match operands, deletes, squeezes with
  | [], _, _ => some (utf8 "missing operand")
  | [s], false, false =>
    some (utf8 "missing operand after " ++ quoted s
      ++ utf8 "\nTwo strings must be given when translating.")
  | [s], true, true =>
    some (utf8 "missing operand after " ++ quoted s
      ++ utf8 "\nTwo strings must be given when both deleting and squeezing repeats.")
  | [_, s], true, false =>
    some (utf8 "extra operand " ++ quoted s
      ++ utf8 "\nOnly one string may be given when deleting without squeezing repeats.")
  | _ :: _ :: s :: _, true, false =>
    some (utf8 "extra operand " ++ quoted s
      ++ utf8 "\nOnly one string may be given when deleting without squeezing repeats.")
  | _ :: _ :: s :: _, _, _ => some (utf8 "extra operand " ++ quoted s)
  | _, _, _ => none

/-- What is written, by the options and the sets. -/
def output (given : Given) (input : Bytes) (set₁ : List Element) (set₂ : Option (List Element)) :
    Except Bytes Bytes := do
  let isComplement := given.has 'c' || given.has 'C'
  if set₁.any isFilling then
    .error (utf8 "the [c*] repeat construct may not appear in string1")
  if 1 < ((set₂.getD []).filter isFilling).length then
    .error (utf8 "only one [c*] repeat construct may appear in string2")
  let listed := set₁.flatMap (·.members 0)
  let first := memberTable (if isComplement then complement listed else listed)
  let kept := input.filter fun b => !first.getD b.toNat false
  match set₂ with
  | none => return if given.has 'd' then kept else squeeze first [] input
  | some set₂ =>
    if given.has 'd' then
      if set₂.any isFilling then
        .error (utf8 "the [c*] construct may appear in string2 only when translating")
      return squeeze (memberTable (set₂.flatMap (·.members 0))) [] kept
    else
      let (pairs, second) ← exchange isComplement (given.has 't') set₁ set₂
      let table := tableOf pairs
      let exchanged := input.map fun b => table.getD b.toNat b
      return if given.has 's' then squeeze (memberTable second) [] exchanged else exchanged

/-- The elements of a set, and what is warned of. -/
def readSet (s : Bytes) : Except Bytes (List Element) × Bytes :=
  let (bytes, warnings) := unescaped [] [] (s.length + 1) s
  (readElements (bytes.length + 1) bytes, warnings)

/-- Exchanges, deletes or squeezes bytes of its input. -/
def run (args : List Bytes) (input : Input) : Ran :=
  withOptions usage args fun given =>
    match operandFault? given.operands (given.has 'd') (given.has 's') with
    | some text => usage.misused text
    | none =>
      let read := given.operands.map readSet
      let result : Except Bytes Bytes := do
        let sets ← read.mapM (·.1)
        let exchanged ← output given input.bytes (sets.headD []) sets[1]?
        match input.content with
        | .ok _ => return exchanged
        | .error e => .error (utf8 ("read error: " ++ reason e))
      let warnings := read.flatMap (·.2)
      let warned : List Piece := if warnings.isEmpty then [] else [.error warnings]
      match result with
      | .ok output => { pieces := warned ++ [.output output] }
      | .error text =>
        let failed := fails "tr" text 1
        { failed with pieces := warned ++ failed.pieces }

end ScriptWeave.Shell.Program.Tr
