/-
# Counting

`wc` counts lines, words, characters and bytes, and measures the longest line, for each operand and
for all together.  The columns are as wide as the number of bytes in all files needs; where
something is counted that is no file, they have seven places.
-/
import ScriptWeave.Shell.Program.Basic

namespace ScriptWeave.Shell.Program.Wc

/-- A byte that can be seen, or a blank. -/
def isPrinted (c : UInt8) : Bool := 0x20 ≤ c && c ≤ 0x7E

/-- How many words there are: what stands between white space and can be seen. -/
def words (s : Bytes) : Nat :=
  (s.foldl (fun (n, inside) c =>
    if isSpace c then (n, false)
    else if isPrinted c then (if inside then n else n + 1, true)
    else (n, inside)) (0, false)).1

/-- The width of the widest line, where a tab goes on to the next multiple of eight. -/
def longest (s : Bytes) : Nat :=
  let (widest, last) := s.foldl (fun (widest, here) c =>
    if c = 0x0A ∨ c = 0x0D ∨ c = 0x0C then (max widest here, 0)
    else if c = 0x09 then (widest, here + 8 - here % 8)
    else if isPrinted c then (widest, here + 1)
    else (widest, here)) (0, 0)
  max widest last

/-- What is counted, in the order of the columns. -/
def columns : List (Char × (Bytes → Nat)) :=
  [('l', fun s => s.count 0x0A), ('w', words), ('m', List.length), ('c', List.length),
    ('L', longest)]

/-- How `wc` is called. -/
def usage : Usage where
  program := "wc"
  letters := ['l', 'w', 'm', 'c', 'L']
  names := [⟨"bytes", 'c', .none_⟩, ⟨"chars", 'm', .none_⟩, ⟨"lines", 'l', .none_⟩,
    ⟨"words", 'w', .none_⟩, ⟨"files0-from", '0', .needed⟩, ⟨"max-line-length", 'L', .none_⟩,
    ⟨"total", 't', .needed⟩]

/-- When the sums are written. -/
def totals : List String := ["auto", "always", "only", "never"]

/-- How wide the columns are.  The input may be a file, whose size is known. -/
def width (wanted : Nat) (operands : List Bytes) (input : Input) (read : ReadFile) : Nat :=
  if operands.length ≤ 1 && wanted = 1 then 1
  else if operands.isEmpty && input.isClosed then 1
  else
    let sizes := (orInput operands).filterMap fun name =>
      if name = inputName then some input.size?
      else
        match read name with
        | .ok content => some (some content.length)
        | .error (.storage .isADirectory) => some none
        | .error _ => none
    let total := (sizes.filterMap id).foldl (· + ·) 0
    let digits := (Nat.toDigits 10 total).length
    if sizes.contains none then max 7 digits else digits

/-- Counts what its operands hold, or its input.  A directory is complained of and counts as empty.
-/
def run (args : List Bytes) (input : Input) (read : ReadFile) : Ran :=
  withOptions usage args fun given =>
    let wanted := columns.filter fun c => given.has c.1
    let wanted :=
      if wanted.isEmpty then columns.filter fun c => ['l', 'w', 'c'].contains c.1 else wanted
    let asked := nameOf ((given.valueOf? 't').getD (utf8 "auto"))
    match totals.find? fun t => asked.toList.isPrefixOf t.toList with
    | none =>
      let choices := totals.flatMap fun t => utf8 "\n  - " ++ quoted (utf8 t)
      usage.misused (utf8 "invalid argument " ++ quoted (utf8 asked) ++ utf8 " for '--total'"
        ++ utf8 "\nValid arguments are:" ++ choices)
    | some total =>
      let operands := given.operands
      let found := contents read input.content (orInput operands)
      let width := if total = "only" then 1 else width wanted.length operands input read
      let line (counts : List Nat) (name : Bytes) : Bytes :=
        [0x20].intercalate (counts.map (aligned width))
          ++ (if name.isEmpty then [] else 0x20 :: name) ++ [0x0A]
      let counted (s : Bytes) : List Nat := wanted.map fun c => c.2 s
      let isCounted (name : Bytes) (e : ReadFault) : Bool :=
        e = .storage .isADirectory || name = inputName
      let counts := found.filterMap fun (name, content) =>
        match content with
        | .ok content => some (counted content)
        | .error e => if isCounted name e then some (counted []) else none
      let sums := counts.foldl (fun all c => List.zipWith (· + ·) all c) (wanted.map fun _ => 0)
      let written (name : Bytes) (s : Bytes) : List Piece :=
        if total = "only" then []
        else [.output (line (counted s) (if operands.isEmpty then [] else name))]
      let pieces := found.flatMap fun (name, content) =>
        match content with
        | .ok content => written name content
        | .error e =>
          let shown :=
            if operands.isEmpty then enclosed (utf8 "standard input") else shownName name
          let told :=
            if name.isEmpty then utf8 "wc: invalid zero-length file name\n"
            else complaint "wc" shown (reason e)
          .error told :: (if isCounted name e then written name [] else [])
      let summed : Bool :=
        total = "always" || total = "only" || (total = "auto" && 1 < operands.length)
      let last : List Piece :=
        if summed then [.output (line sums (if total = "only" then [] else utf8 "total"))] else []
      let closing : List Piece :=
        if input.isClosed ∧ (orInput operands).contains inputName then
          [.error (complaint "wc" inputName (reason .closed))]
        else []
      { pieces := pieces ++ last ++ closing, status := statusOf pieces 1
        left := leftBy (orInput operands) }

end ScriptWeave.Shell.Program.Wc
