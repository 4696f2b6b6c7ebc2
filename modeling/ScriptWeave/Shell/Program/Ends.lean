/-
# Fronts and ends

`head` writes the front of each operand, `tail` its end.  How much that is is a number of lines or
of bytes, and it can be counted from the other side as well: all but the last ones, or all from a
certain one on.  Several operands get titles.

`head` leaves of its input what it did not need.  From a file that is exactly what it did not write;
from a pipe it takes lines in blocks, so that the rest of the last block is lost.
-/
import ScriptWeave.Shell.Program.Basic

namespace ScriptWeave.Shell.Program.Ends

/-! ## 1. Numbers -/

/-- Why a number cannot be taken. -/
inductive CountFault where
  | invalid
  | tooLarge

/-- The factor that letters behind a number stand for. -/
def factor? (s : Bytes) : Option Nat :=
  let powers := ['K', 'M', 'G', 'T', 'P', 'E', 'Z', 'Y', 'R', 'Q']
  match charsOf s with
  | [] => some 1
  | ['b'] => some 512
  | c :: unit =>
    let c := if c = 'k' then 'K' else if c = 'm' then 'M' else c
    match powers.idxOf? c, String.ofList unit with
    | some i, "" | some i, "iB" => some (Nat.pow 1024 (i + 1))
    | some i, "B" | some i, "D" => some (Nat.pow 1000 (i + 1))
    | _, _ => none

/-- The number that a text writes, with letters behind it or with nothing else. -/
def count (s : Bytes) : Except CountFault Nat :=
  let body := s.dropWhile isSpace
  let unsigned := if body.head? = some 0x2B then body.drop 1 else body
  match leadingNumber unsigned with
  | (none, _) =>
    match factor? s with
    | some factor => if s.isEmpty then .error .invalid else .ok factor
    | none => .error .invalid
  | (some n, letters) =>
    match factor? letters with
    | none => .error .invalid
    | some factor => if n * factor < Nat.pow 2 64 then .ok (n * factor) else .error .tooLarge

/-- How much is written of an operand. -/
structure Amount where
  ofBytes : Bool := false
  count : Nat := 10
  /-- It is counted from the other side. -/
  turned : Bool := false

/-- A number that stands for nothing, and the text that is complained of. -/
def refused (program : String) (ofBytes : Bool) (value : Bytes) : Option Ran :=
  let what := utf8 ("invalid number of " ++ (if ofBytes then "bytes" else "lines") ++ ": ")
  match count value with
  | .ok _ => none
  | .error .invalid => some (fails program (what ++ quoted value) 1)
  | .error .tooLarge =>
    some (fails program (what ++ quoted value ++ utf8 ": Value too large for defined data type") 1)

/-! ## 2. Cutting -/

/-- The lines of a text with what ends each. -/
def linesBy (mark : UInt8) (s : Bytes) : List Bytes :=
  let pieces := s.splitOn mark
  (pieces.dropLast.map (· ++ [mark]))
    ++ (if pieces.getLast? = some [] then [] else pieces.getLast?.toList)

/-- The front of a text. -/
def front (amount : Amount) (mark : UInt8) (s : Bytes) : Bytes :=
  let cut {α : Type} (l : List α) : List α :=
    l.take (if amount.turned then l.length - amount.count else amount.count)
  if amount.ofBytes then cut s else (cut (linesBy mark s)).flatten

/-- The end of a text. -/
def ending (amount : Amount) (mark : UInt8) (s : Bytes) : Bytes :=
  let cut {α : Type} (l : List α) : List α :=
    l.drop (if amount.turned then amount.count - 1 else l.length - amount.count)
  if amount.ofBytes then cut s else (cut (linesBy mark s)).flatten

/-- How many bytes are read from a pipe at once. -/
def blockSize : Nat := 8192

/-- What is left of an input whose front has been written. -/
def leftBehind (amount : Amount) (isFile : Bool) (input written : Bytes) : Bytes :=
  if isFile then input.drop written.length
  else if amount.turned then []
  else if amount.ofBytes then input.drop written.length
  else input.drop ((written.length + blockSize - 1) / blockSize * blockSize)

/-! ## 3. Operands -/

/-- What is complained of when an operand cannot be read.  The input is open already, and so is a
directory. -/
def complain (program : String) (name : Bytes) (e : ReadFault) : Bytes :=
  let shown := quotedName (if name = inputName then utf8 "standard input" else name)
  let text : Bytes :=
    if program = "tail" ∧ e = .closed then utf8 "cannot fstat " ++ shown
    else if name = inputName ∨ e = .storage .isADirectory then utf8 "error reading " ++ shown
    else utf8 "cannot open " ++ shown ++ utf8 " for reading"
  utf8 (program ++ ": ") ++ text ++ utf8 (": " ++ reason e ++ "\n")

/-- What is written of operands, and what is left of the input; `titles` are written before what
they name, and `titled` says that one has been. -/
def parts (program : String) (titles : Bool) (cut : Bytes → Bytes)
    (leave : Bytes → Bytes → Bytes) (read : ReadFile) :
    Bool → Except ReadFault Bytes → List Bytes → List Piece × Bytes
  | _, input, [] => ([], input.toOption.getD [])
  | titled, input, name :: rest =>
    let isInput : Bool := name = inputName
    let shown := if isInput then utf8 "standard input" else name
    let title : List Piece :=
      if titles then
        [.output ((if titled then [0x0A] else []) ++ utf8 "==> " ++ shown ++ utf8 " <==\n")]
      else []
    match if isInput then input else read name with
    | .ok content =>
      let written := cut content
      let input := if isInput then .ok (leave content written) else input
      let (pieces, left) := parts program titles cut leave read true input rest
      (title ++ .output written :: pieces, left)
    | .error e =>
      let isOpen : Bool := isInput || e = .storage .isADirectory
      let (pieces, left) := parts program titles cut leave read (titled || isOpen) input rest
      ((if isOpen then title else []) ++ .error (complain program name e) :: pieces, left)

/-- Runs one of both on options and operands that are in order. -/
def runWith (program : String) (cut : Bytes → Bytes) (leave : Bytes → Bytes → Bytes)
    (given : Given) (input : Input) (read : ReadFile) : Ran :=
  let operands := orInput given.operands
  let titles :=
    match given.lastOf? ['q', 'v'] with
    | some 'q' => false
    | some _ => true
    | none => 1 < operands.length
  let (pieces, left) := parts program titles cut leave read false input.content operands
  let readsInput := operands.contains inputName
  let closing : List Piece :=
    if readsInput ∧ input.isClosed then [.error (complaint program inputName (reason .closed))]
    else []
  { pieces := pieces ++ closing, status := statusOf pieces 1
    left := if readsInput then some left else none }

/-- The digits, which are no options but may stand where one could. -/
def digitLetters : List Char := ['0', '1', '2', '3', '4', '5', '6', '7', '8', '9']

/-- The names of the options that both have. -/
def sharedNames : List OptionName :=
  [⟨"bytes", 'c', .needed⟩, ⟨"lines", 'n', .needed⟩, ⟨"quiet", 'q', .none_⟩,
    ⟨"silent", 'q', .none_⟩, ⟨"verbose", 'v', .none_⟩, ⟨"zero-terminated", 'z', .none_⟩]

/-- What ends a line. -/
def markOf (given : Given) : UInt8 := if given.has 'z' then 0x00 else 0x0A

/-! ## 4. Fronts -/

/-- The value of an option of `head`, and whether it is turned around. -/
def turnedValue (value : Bytes) : Bytes × Bool :=
  match value with
  | 0x2D :: rest => (rest, true)
  | value => (value, false)

/-- How `head` is called. -/
def headUsage : Usage where
  program := "head"
  letters := ['q', 'v', 'z'] ++ digitLetters
  valued := ['c', 'n']
  names := sharedNames
  refuses letter value :=
    if letter = 'c' ∨ letter = 'n' then refused "head" (letter = 'c') (turnedValue value).1
    else if letter.isDigit then
      some (Usage.misused { program := "head", letters := [] }
        (utf8 "invalid trailing option -- " ++ bytesOf [letter]))
    else none

/-- What `head` is asked for, one option after another. -/
def headAmount (given : Given) : Amount :=
  given.options.foldl (fun amount (letter, value) =>
    if letter = 'c' ∨ letter = 'n' then
      let (value, turned) := turnedValue value
      ⟨letter = 'c', (count value).toOption.getD 0, turned⟩
    else amount) {}

/-- The options that a first argument of digits and letters stands for; or the letter that is none.
-/
def spelledOut (digits letters : Bytes) : Except UInt8 (List Bytes) :=
  let found : Except UInt8 (Bool × Bytes × List Bytes) :=
    letters.foldlM (fun (ofBytes, multiplier, others) c =>
      match Char.ofNat c.toNat with
      | 'c' => .ok (true, [], others)
      | 'b' | 'k' | 'm' => .ok (true, [c], others)
      | 'l' => .ok (false, multiplier, others)
      | 'q' | 'v' | 'z' => .ok (ofBytes, multiplier, others ++ [[0x2D, c]])
      | _ => .error c) (false, [], [])
  found.map fun (ofBytes, multiplier, others) =>
    utf8 (if ofBytes then "-c" else "-n") :: (digits ++ multiplier) :: others

/-- The first lines or bytes of its operands, or of its input. -/
def head (args : List Bytes) (input : Input) (read : ReadFile) : Ran :=
  let run (args : List Bytes) : Ran :=
    withOptions headUsage args fun given =>
      let amount := headAmount given
      let leave := leftBehind amount input.size?.isSome
      runWith "head" (front amount (markOf given)) leave given input read
  match args with
  | (0x2D :: text) :: rest =>
    match leadingNumber text with
    | (some _, letters) =>
      match spelledOut (text.take (text.length - letters.length)) letters with
      | .ok options => run (options ++ rest)
      | .error c =>
        headUsage.misused (utf8 "invalid trailing option -- " ++ [c])
    | (none, _) => run args
  | args => run args

/-! ## 5. Ends -/

/-- The value of an option of `tail` without the minus sign, which changes nothing. -/
def plainValue (value : Bytes) : Bytes := if value.head? = some 0x2D then value.drop 1 else value

/-- The value is a number of seconds. -/
def isSeconds (value : Bytes) : Bool :=
  let whole := (leadingNumber value).2
  let rest :=
    match whole with
    | 0x2E :: rest => (leadingNumber rest).2
    | rest => rest
  rest.isEmpty && value.any fun c => 0x30 ≤ c && c ≤ 0x39

/-- How `tail` is called. -/
def tailUsage : Usage where
  program := "tail"
  letters := ['q', 'v', 'z', 'f', 'F'] ++ digitLetters
  valued := ['c', 'n', 's']
  names := sharedNames ++
    [⟨"follow", 'f', .optional⟩, ⟨"max-unchanged-stats", 'u', .needed⟩, ⟨"pid", 'p', .needed⟩,
      ⟨"retry", 'r', .none_⟩, ⟨"sleep-interval", 's', .needed⟩]
  refuses letter value :=
    if letter = 'c' ∨ letter = 'n' then refused "tail" (letter = 'c') (plainValue value)
    else if letter = 's' ∧ !isSeconds value then
      some (fails "tail" (utf8 "invalid number of seconds: " ++ quoted value) 1)
    else if letter = 'p' ∧ (number? value).isNone then
      some (fails "tail" (utf8 "invalid PID: " ++ quoted value) 1)
    else if letter.isDigit then
      some (fails "tail" (utf8 "option used in invalid context -- " ++ bytesOf [letter]) 1)
    else none

/-- What `tail` is asked for, one option after another. -/
def tailAmount (amount : Amount) (given : Given) : Amount :=
  given.options.foldl (fun amount (letter, value) =>
    if letter = 'c' ∨ letter = 'n' then
      { ofBytes := letter = 'c', count := (count (plainValue value)).toOption.getD 0,
        turned := amount.turned || value.head? = some 0x2B }
    else amount) amount

/-- The amount that a first argument alone asks for: a sign, digits, and a letter. -/
def signedAmount? (args : List Bytes) : Option Amount :=
  let alone : Bool :=
    match args with
    | [_] => true
    | [_, second] => second = inputName || second.head? ≠ some 0x2D || second = utf8 "--"
    | [_, second, _] => second = utf8 "--"
    | _ => false
  if !alone then none
  else
    let read (turned : Bool) (text : Bytes) : Option Amount :=
      let (n, letters) := leadingNumber text
      let letters := if letters.getLast? = some 0x66 then letters.dropLast else letters
      match charsOf letters with
      | [] | ['l'] => some ⟨false, n.getD 10, turned⟩
      | ['c'] => some ⟨true, n.getD 10, turned⟩
      | ['b'] => some ⟨true, (n.getD 10) * 512, turned⟩
      | _ => none
    match args.head? with
    | some (0x2B :: text) => read true text
    | some [0x2D] | some [0x2D, 0x63] => none
    | some (0x2D :: text) => read false text
    | _ => none

/-- The last lines or bytes of its operands, or of its input. -/
def tail (args : List Bytes) (input : Input) (read : ReadFile) : Ran :=
  let run (amount : Amount) (args : List Bytes) : Ran :=
    withOptions tailUsage args fun given =>
      let amount := tailAmount amount given
      if amount.count = 0 ∧ !amount.turned then { left := none }
      else
        runWith "tail" (ending amount (markOf given)) (fun _ _ => []) given input read
  match signedAmount? args with
  | some amount => run amount (args.drop 1)
  | none => run {} args

end ScriptWeave.Shell.Program.Ends
