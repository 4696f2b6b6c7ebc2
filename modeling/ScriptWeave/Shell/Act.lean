/-
# What a shell does

Whatever a shell does changes it and may end what it is part of: a loop, a function, or the shell.
An `Act` is such a step.  Here are the steps that the commands of a shell have in common:
complaining, reading options and numbers, setting variables, and writing.
-/
import ScriptWeave.Shell.Machine
import ScriptWeave.Shell.Printf

namespace ScriptWeave.Shell

/-- Something that a shell does, which may end what it is part of. -/
abbrev Act := ExceptT Flow (StateM Machine)

namespace Act

/-- Ends with a status that is kept. -/
def finish (status : Nat) : Act Unit := modify (·.ended status)

/-- What comes of a step that may end early, which does not end what is around it. -/
def outcome {α : Type} (step : Act α) : Act (Except Flow α) :=
  ExceptT.mk (Except.ok <$> step.run)

/-- Takes a step, and then another one, however the first one has ended. -/
def andThen {α : Type} (step : Act α) (after : Act Unit) : Act α := do
  let ended ← step.outcome
  after
  MonadExcept.ofExcept ended

/-- Fails with a complaint. -/
def fail {α : Type} (text : Bytes) : Act α := do
  modify fun m => (m.warn text).ended 2
  throw .failed

/-- What there is, or a failure with what is complained of. -/
def orFail {α : Type} : Except Bytes α → Act α
  | .ok a => return a
  | .error text => fail text

/-- Complains of a number that is none. -/
def illegalNumber {α : Type} (arg : Bytes) : Act α := fail (utf8 "Illegal number: " ++ arg)

/-- The largest number that a command of the shell takes. -/
def numberLimit : Int := Int.pow 2 31 - 1

/-- The number that an argument writes. -/
def number (arg : Bytes) : Act Nat :=
  match leadingInteger 10 arg with
  | (some n, rest) =>
    if rest.all isSpace ∧ 0 ≤ n ∧ n ≤ numberLimit then return n.toNat else illegalNumber arg
  | (none, _) => illegalNumber arg

/-- The options at the front of arguments, and the arguments behind them.  A letter that takes a
value takes the rest of its argument, or the next one. -/
def optionsWithin (letters valued : List Char) :
    Nat → List Bytes → Act (List (Char × Bytes) × List Bytes)
  | 0, args => return ([], args)
  | n + 1, args =>
    match args with
    | [0x2D, 0x2D] :: rest => return ([], rest)
    | (0x2D :: c :: more) :: rest => do
      let letter := Char.ofNat c.toNat
      if valued.contains letter then
        match more, rest with
        | [], [] => fail (utf8 "No arg for -" ++ [c] ++ utf8 " option")
        | [], value :: rest =>
          let (found, rest) ← optionsWithin letters valued n rest
          return ((letter, value) :: found, rest)
        | more, rest =>
          let (found, rest) ← optionsWithin letters valued n rest
          return ((letter, more) :: found, rest)
      else if letters.contains letter then
        let (found, rest) ←
          optionsWithin letters valued n (if more.isEmpty then rest else (0x2D :: more) :: rest)
        return ((letter, []) :: found, rest)
      else fail (utf8 "Illegal option -" ++ [c])
    | args => return ([], args)

/-- The options at the front of arguments, and the arguments behind them. -/
def options (letters valued : List Char) (args : List Bytes) :
    Act (List (Char × Bytes) × List Bytes) :=
  optionsWithin letters valued ((args.map List.length).foldl (· + ·) (args.length + 1)) args

/-- A name that a variable can have. -/
def isVariableName (name : Bytes) : Bool :=
  let isStart (c : UInt8) : Bool :=
    (0x41 ≤ c && c ≤ 0x5A) || (0x61 ≤ c && c ≤ 0x7A) || c = 0x5F
  name.head?.any isStart && name.all fun c => isStart c || (0x30 ≤ c && c ≤ 0x39)

/-- The name of a variable, or a failure if it can be none. -/
def variableName (name : Bytes) : Act String :=
  if isVariableName name then return nameOf name else fail (name ++ utf8 ": bad variable name")

/-- Sets a variable. -/
def assign (name : Bytes) (value : Bytes) : Act Unit := do
  let name ← variableName name
  set (← orFail ((← get).assign name value))

/-- Takes what a command of the shell has written. -/
def wrote (ran : Ran) : Act Unit :=
  modify fun m =>
    let unwritable (m : Machine) : Machine :=
      m.warn ((m.running.getD []) ++ utf8 ": I/O error")
    m.took unwritable ran

/-- Writes a text and ends with a status. -/
def say (text : Bytes) (status : Nat) : Act Unit := wrote (Printf.ran text [] status)

end Act

end ScriptWeave.Shell
