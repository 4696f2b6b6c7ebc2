/-
# Copying

`cat` writes what its operands hold, one after another.  It may number the lines, leave out blank
lines that follow another one, and show bytes that cannot be seen.
-/
import ScriptWeave.Shell.Program.Basic

namespace ScriptWeave.Shell.Program.Cat

/-- A byte, written so that it can be seen. -/
def visible (c : UInt8) : Bytes :=
  let plain (c : UInt8) : Bytes :=
    if c < 0x20 then [0x5E, c + 0x40] else if c = 0x7F then [0x5E, 0x3F] else [c]
  if c < 0x80 then plain c else [0x4D, 0x2D] ++ plain (c - 0x80)

/-- A line as it is written by the options. -/
def line (ends tabs unseen : Bool) (line : Bytes) : Bytes :=
  let ended := line.getLast? = some 0x0A
  let body := if ended then line.dropLast else line
  let returns := ended && ends && !unseen && body.getLast? = some 0x0D
  let body := if returns then body.dropLast else body
  let shown := body.flatMap fun c =>
    if c = 0x09 then (if tabs then [0x5E, 0x49] else [c]) else if unseen then visible c else [c]
  shown ++ (if returns then [0x5E, 0x4D] else [])
    ++ (if ended then (if ends then [0x24, 0x0A] else [0x0A]) else [])

/-- The lines without the blank ones that follow another blank one. -/
def squeezed (afterBlank : Bool) : List Bytes → List Bytes
  | [] => []
  | line :: rest =>
    let blank : Bool := line = [0x0A]
    if blank && afterBlank then squeezed true rest else line :: squeezed blank rest

/-- Lines with numbers, each beside its plain text: all of them or those that are not blank. -/
def numbered (all : Bool) : Nat → List (Bytes × Bytes) → List Bytes
  | _, [] => []
  | n, (plain, line) :: rest =>
    if all || plain ≠ [0x0A] then (aligned 6 n ++ 0x09 :: line) :: numbered all (n + 1) rest
    else line :: numbered all n rest

/-- How `cat` is called. -/
def usage : Usage where
  program := "cat"
  letters := ['u', 'n', 'b', 's', 'E', 'T', 'v', 'e', 't', 'A']
  names := [⟨"number-nonblank", 'b', .none_⟩, ⟨"number", 'n', .none_⟩,
    ⟨"squeeze-blank", 's', .none_⟩, ⟨"show-nonprinting", 'v', .none_⟩, ⟨"show-ends", 'E', .none_⟩,
    ⟨"show-tabs", 'T', .none_⟩, ⟨"show-all", 'A', .none_⟩]

/-- A text as it is written by the options. -/
def shown (given : Given) (s : Bytes) : Bytes :=
  let any (letters : List Char) : Bool := letters.any given.has
  let ends := any ['E', 'e', 'A']
  let tabs := any ['T', 't', 'A']
  let unseen := any ['v', 'e', 't', 'A']
  if ends || tabs || unseen || any ['n', 'b', 's'] then
    let lines := if given.has 's' then squeezed false (wholeLines s) else wholeLines s
    let shown := lines.map fun l => (l, line ends tabs unseen l)
    if any ['n', 'b'] then (numbered (!given.has 'b') 1 shown).flatten
    else shown.flatMap (·.2)
  else s

/-- What is written of operands.  A line may begin in one and end in another, so what is new about
each is what is shown of all so far.  What is being written to is not read. -/
def pieces (given : Given) (isOutput : Option Bytes → Bool) (before : Bytes) :
    List (Bytes × Except ReadFault Bytes) → List Piece
  | [] => []
  | (name, .error e) :: rest =>
    .error (complaint "cat" (shownName name) (reason e)) :: pieces given isOutput before rest
  | (name, .ok content) :: rest =>
    if isOutput (if name = inputName then none else some name) then
      .error (complaint "cat" (shownName name) "input file is output file")
        :: pieces given isOutput before rest
    else
      let new := (shown given (before ++ content)).drop (shown given before).length
      .output new :: pieces given isOutput (before ++ content) rest

/-- Copies its operands, or its input. -/
def run (args : List Bytes) (input : Input) (read : ReadFile) (isOutput : Option Bytes → Bool) :
    Ran :=
  withOptions usage args fun given =>
    let operands := orInput given.operands
    let pieces := pieces given isOutput [] (contents read input.content operands)
    let pieces :=
      if operands.contains inputName ∧ input.isClosed then
        pieces ++ [.error (utf8 "cat: closing standard input: Bad file descriptor\n")]
      else pieces
    { pieces, status := statusOf pieces 1, left := leftBy operands }

end ScriptWeave.Shell.Program.Cat
