/-
# Programs that a shell runs

A program is a function of its arguments, of what comes in, and of the files it may be told to read.
Here is what programs share: what they leave behind, how they read options, and how they read their
operands.

Options are letters, several of them in one argument if need be, or names behind two dashes, which
may be cut short as long as no other name begins the same way.  An option that takes a value takes
the rest of its argument, or the next one.

A program that reads its input reads all of it, unless it is made to stop before.  Where several
operands mean the input, the first of them gets all of it.
-/
import ScriptWeave.BuildError
import ScriptWeave.Shell.Program.Quoting

namespace ScriptWeave.Shell

/-- A piece of what a program writes. -/
inductive Piece where
  | output (bytes : Bytes)
  | error (bytes : Bytes)

/-- What a program leaves behind. -/
structure Ran where
  /-- What it has written, in order. -/
  pieces : List Piece := []
  status : Nat := 0
  /-- What it has left of its input; none if it has read nothing of it. -/
  left : Option Bytes := some []

/-- Why something cannot be read. -/
inductive ReadFault where
  | storage (cause : StorageError)
  /-- There is nothing to read from. -/
  | closed
  deriving DecidableEq

/-- How files are read by name. -/
abbrev ReadFile := Bytes → Except ReadFault Bytes

/-- What comes into a program. -/
structure Input where
  content : Except ReadFault Bytes
  /-- The size of the file that it comes from, if it is one. -/
  size? : Option Nat := none

/-- The bytes that come in. -/
def Input.bytes (input : Input) : Bytes := input.content.toOption.getD []

/-- Nothing comes in. -/
def Input.isClosed (input : Input) : Bool :=
  match input.content with
  | .error .closed => true
  | _ => false

namespace Program

/-! ## 1. Errors -/

/-- The reason for an error, without its number. -/
def reasonOf (e : StorageError) : String :=
  match e.message.splitOn " (os error" with
  | text :: _ => text
  | [] => ""

/-- The reason for which something cannot be read. -/
def reason : ReadFault → String
  | .storage cause => reasonOf cause
  | .closed => "Bad file descriptor"

/-- The line that a program writes about an error. -/
def complaint (program : String) (about : Bytes) (text : String) : Bytes :=
  utf8 (program ++ ": ") ++ about ++ utf8 (": " ++ text ++ "\n")

/-- A program that fails with a line about it. -/
def fails (program : String) (text : Bytes) (status : Nat) : Ran :=
  { pieces := [.error (utf8 (program ++ ": ") ++ text ++ [0x0A])], status, left := none }

/-! ## 2. Options -/

/-- Whether an option takes a value. -/
inductive Taking where
  | none_
  | needed
  /-- Only in the same argument. -/
  | optional
  deriving DecidableEq

/-- An option: its name behind two dashes, if it has one, and the letter it is known by. -/
structure OptionName where
  name : String
  letter : Char
  taking : Taking := .none_

/-- What a program knows of its options. -/
structure Usage where
  program : String
  letters : List Char
  /-- The letters that take a value. -/
  valued : List Char := []
  names : List OptionName := []
  /-- Options may stand behind operands. -/
  mixed : Bool := true
  /-- The status of a program that is called wrongly. -/
  failure : Nat := 1
  /-- What is told besides. -/
  synopsis : List String := []
  /-- What comes of an option that cannot be, by itself or because of its value. -/
  refuses : Char → Bytes → Option Ran := fun _ _ => none

/-- Options with their values, in order, and the operands. -/
structure Given where
  options : List (Char × Bytes) := []
  operands : List Bytes := []

/-- The option was given. -/
def Given.has (given : Given) (letter : Char) : Bool := given.options.any (·.1 = letter)

/-- The value that was last given to an option. -/
def Given.valueOf? (given : Given) (letter : Char) : Option Bytes :=
  (given.options.reverse.find? (·.1 = letter)).map (·.2)

/-- The last of some options that was given. -/
def Given.lastOf? (given : Given) (letters : List Char) : Option Char :=
  (given.options.reverse.find? fun o => letters.contains o.1).map (·.1)

/-- A program that is called wrongly. -/
def Usage.misused (usage : Usage) (text : Bytes) : Ran :=
  let hint := "Try '" ++ usage.program ++ " --help' for more information."
  fails usage.program ([0x0A].intercalate (text :: (usage.synopsis ++ [hint]).map utf8))
    usage.failure

/-- The option letters in an argument, each perhaps with the value behind it; the letter at the end
that needs a value; and what is wrong with the first that is no option. -/
def splitLetters (usage : Usage) (seen : List (Char × Bytes)) :
    Bytes → List (Char × Bytes) × Option Char × Option Bytes
  | [] => (seen, none, none)
  | c :: more =>
    let letter := Char.ofNat c.toNat
    if usage.valued.contains letter then
      if more.isEmpty then (seen, some letter, none)
      else (seen ++ [(letter, more)], none, none)
    else if usage.letters.contains letter then splitLetters usage (seen ++ [(letter, [])]) more
    else (seen, none, some (utf8 "invalid option -- " ++ enclosed [c]))

/-- The option that a name means, which may be cut short. -/
def Usage.named (usage : Usage) (name text : Bytes) : Except Bytes OptionName :=
  let isFront (o : OptionName) : Bool := name.isPrefixOf (utf8 o.name)
  match usage.names.find? fun o => utf8 o.name = name with
  | some o => .ok o
  | none =>
    match usage.names.filter isFront with
    | [] => .error (utf8 "unrecognized option " ++ enclosed (utf8 "--" ++ text))
    | o :: others =>
      if others.all fun p => p.letter = o.letter && p.taking = o.taking then .ok o
      else
        let possible := (o :: others).flatMap fun p => utf8 " " ++ enclosed (utf8 ("--" ++ p.name))
        .error (utf8 "option " ++ enclosed (utf8 "--" ++ text)
          ++ utf8 " is ambiguous; possibilities:" ++ possible)

/-- What an argument is. -/
inductive Argument where
  | operand
  /-- No options follow. -/
  | ending
  | given (found : List (Char × Bytes))
  /-- The next argument is the value of a letter; or else something is wrong. -/
  | wanting (found : List (Char × Bytes)) (letter : Char) (fault : Bytes)
  | faulty (found : List (Char × Bytes)) (fault : Bytes)

/-- What an argument is. -/
def Usage.argument (usage : Usage) (arg : Bytes) : Argument :=
  match arg with
  | [0x2D, 0x2D] => .ending
  | 0x2D :: 0x2D :: text =>
    let name := text.takeWhile (· ≠ 0x3D)
    match usage.named name text with
    | .error fault => .faulty [] fault
    | .ok o =>
      let shown := enclosed (utf8 ("--" ++ o.name))
      match text.drop name.length, o.taking with
      | _ :: _, .none_ => .faulty [] (utf8 "option " ++ shown ++ utf8 " doesn't allow an argument")
      | _ :: value, _ => .given [(o.letter, value)]
      | [], .needed =>
        .wanting [] o.letter (utf8 "option " ++ shown ++ utf8 " requires an argument")
      | [], _ => .given [(o.letter, [])]
  | 0x2D :: c :: letters =>
    match splitLetters usage [] (c :: letters) with
    | (found, _, some fault) => .faulty found fault
    | (found, none, none) => .given found
    | (found, some letter, none) =>
      .wanting found letter (utf8 "option requires an argument -- " ++ enclosed (bytesOf [letter]))
  | _ => .operand

/-- The options and the operands that arguments give, up to an argument that is wrong, and what is
wrong with it. -/
def options (usage : Usage) : List Bytes → Given × Option Bytes
  | [] => ({}, none)
  | arg :: rest =>
    match usage.argument arg with
    | .ending => ({ operands := rest }, none)
    | .operand =>
      if usage.mixed then
        let (given, fault) := options usage rest
        ({ given with operands := arg :: given.operands }, fault)
      else ({ operands := arg :: rest }, none)
    | .given found =>
      let (given, fault) := options usage rest
      ({ given with options := found ++ given.options }, fault)
    | .wanting found letter missing =>
      match rest with
      | value :: rest =>
        let (given, fault) := options usage rest
        ({ given with options := found ++ (letter, value) :: given.options }, fault)
      | [] => ({ options := found }, some missing)
    | .faulty found fault => ({ options := found }, some fault)

/-- Runs a program on its options and operands.  Of several things that are wrong, the first one
ends it. -/
def withOptions (usage : Usage) (args : List Bytes) (run : Given → Ran) : Ran :=
  let (given, fault) := options usage args
  match given.options.findSome? fun o => usage.refuses o.1 o.2 with
  | some refused => refused
  | none =>
    match fault with
    | some text => usage.misused text
    | none => run given

/-! ## 3. Operands -/

/-- The operand that means the input. -/
def inputName : Bytes := [0x2D]

/-- The operands, each with what it holds or why that cannot be read. -/
def contents (read : ReadFile) (input : Except ReadFault Bytes) :
    List Bytes → List (Bytes × Except ReadFault Bytes)
  | [] => []
  | name :: rest =>
    if name = inputName then (name, input) :: contents read (input.map fun _ => []) rest
    else (name, read name) :: contents read input rest

/-- A piece that is an error. -/
def Piece.isError : Piece → Bool
  | .error _ => true
  | .output _ => false

/-- The status of a program that fails if it has complained. -/
def statusOf (pieces : List Piece) (failure : Nat) : Nat :=
  if pieces.any Piece.isError then failure else 0

/-- What a program has left of its input that reads all of it if an operand asks for it. -/
def leftBy (operands : List Bytes) : Option Bytes :=
  if operands.contains inputName then some [] else none

/-- The operands, or the input if there are none. -/
def orInput (operands : List Bytes) : List Bytes :=
  if operands.isEmpty then [inputName] else operands

/-- A number, filled up with blanks at the front. -/
def aligned (width n : Nat) : Bytes :=
  let digits := decimal n
  List.replicate (width - digits.length) 0x20 ++ digits

end Program

end ScriptWeave.Shell
