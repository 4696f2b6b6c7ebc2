/-
# Tests

`test` asks about files, texts and numbers.  Three arguments with an operator in the middle are
always a comparison; otherwise an argument is an operator as far as it can be one: a sign with one
operand is a text if no operand follows, or if a comparison does.
-/
import ScriptWeave.Shell.Machine

namespace ScriptWeave.Shell.Test

/-! ## 1. Operators -/

/-- What an operator asks of a file. -/
inductive FileQuestion where
  | exists_ | isFile | isDirectory | isLink | isDevice | hasContent
  | isReadable | isWritable | isExecutable
  /-- What no file here is. -/
  | isOther
  deriving DecidableEq

/-- A comparison of two operands. -/
inductive Comparison where
  | texts (holds : Ordering → Bool)
  | numbers (holds : Ordering → Bool)
  | sameFile
  /-- One file is newer than another; nothing here has an age. -/
  | newer

/-- An operator. -/
inductive Operator where
  | isEmpty
  | isFull
  | file (question : FileQuestion)
  | isTerminal
  | compare (comparison : Comparison)
  | not_ | and_ | or_ | open_ | close

/-- The operator has one operand. -/
def Operator.isUnary : Operator → Bool
  | isEmpty | isFull | file _ | isTerminal => true
  | _ => false

/-- The operator that an argument writes. -/
def operator? (arg : Bytes) : Option Operator :=
  match nameOf arg with
  | "-z" => some .isEmpty
  | "-n" => some .isFull
  | "-e" | "-O" | "-G" => some (.file .exists_)
  | "-f" => some (.file .isFile)
  | "-d" => some (.file .isDirectory)
  | "-h" | "-L" => some (.file .isLink)
  | "-c" => some (.file .isDevice)
  | "-s" => some (.file .hasContent)
  | "-r" => some (.file .isReadable)
  | "-w" => some (.file .isWritable)
  | "-x" => some (.file .isExecutable)
  | "-b" | "-p" | "-u" | "-g" | "-k" | "-S" => some (.file .isOther)
  | "-t" => some .isTerminal
  | "=" => some (.compare (.texts (· = .eq)))
  | "!=" => some (.compare (.texts (· ≠ .eq)))
  | "<" => some (.compare (.texts (· = .lt)))
  | ">" => some (.compare (.texts (· = .gt)))
  | "-eq" => some (.compare (.numbers (· = .eq)))
  | "-ne" => some (.compare (.numbers (· ≠ .eq)))
  | "-lt" => some (.compare (.numbers (· = .lt)))
  | "-le" => some (.compare (.numbers (· ≠ .gt)))
  | "-gt" => some (.compare (.numbers (· = .gt)))
  | "-ge" => some (.compare (.numbers (· ≠ .lt)))
  | "-ef" => some (.compare .sameFile)
  | "-nt" | "-ot" => some (.compare .newer)
  | "!" => some .not_
  | "-a" => some .and_
  | "-o" => some .or_
  | "(" => some .open_
  | ")" => some .close
  | _ => none

/-- The argument writes a comparison. -/
def isComparison (arg : Bytes) : Bool :=
  match operator? arg with
  | some (.compare _) => true
  | _ => false

/-- What the first of some arguments is: an operator, or none if it is an operand. -/
def readOperator (args : List Bytes) : Option Operator :=
  match args with
  | [] => none
  | arg :: rest =>
    (operator? arg).filter fun o =>
      let isOperand : Bool :=
        match rest with
        | [] => true
        | [_] => false
        | next :: _ => isComparison next
      let isLone : Bool :=
        match o with
        | .open_ => rest.isEmpty
        | _ => false
      !(o.isUnary && isOperand) && !isLone

/-! ## 2. Answers -/

/-- The number that an operand writes. -/
def number (s : Bytes) : Except Bytes Int :=
  let illegal : Except Bytes Int := .error (utf8 "Illegal number: " ++ s)
  match leadingInteger 10 s with
  | (some n, rest) => if rest.all isSpace && clamped n = n then .ok n else illegal
  | (none, _) => illegal

/-- The answer about a file. -/
def FileQuestion.answer (m : Machine) (name : Bytes) (question : FileQuestion) : Bool :=
  let isProgram := (Machine.programAt? (m.path name)).isSome
  let isDevice' := !name.isEmpty && (Machine.deviceAt? (m.path name)).isSome
  let node := (m.nodeAt name).toOption
  match question with
  | exists_ => node.isSome || isProgram
  | isReadable | isWritable => node.any (· ≠ .file (.barred .denied)) || isProgram
  | isFile =>
    match node with
    | some (.file _) => !isDevice'
    | _ => isProgram
  | isDirectory => node = some .directory
  | isLink =>
    match m.tree.entryAt (m.path name) with
    | .ok (.link _) => !name.isEmpty
    | _ => false
  | isDevice => isDevice' && (Machine.deviceAt? (m.path name)).any Option.isNone
  | hasContent =>
    match node with
    | some (.file (.bytes content)) => 0 < content.size
    | some (.file (.barred _)) => false
    | some _ => true
    | none => isProgram
  | isExecutable => node = some .directory || isProgram
  | isOther => false

/-- The answer about one operand. -/
def Operator.ask (m : Machine) (o : Operator) (s : Bytes) : Except Bytes Bool :=
  match o with
  | isEmpty => .ok s.isEmpty
  | isFull => .ok !s.isEmpty
  | file question => .ok (question.answer m s)
  | isTerminal => (number s).map fun _ => false
  | _ => .ok false

/-- The answer about two operands. -/
def Comparison.ask (m : Machine) (c : Comparison) (a b : Bytes) : Except Bytes Bool :=
  match c with
  | texts holds => .ok (holds (compare a b))
  | numbers holds => do
    let x ← number a
    let y ← number b
    return holds (compare x y)
  | sameFile =>
    match m.tree.canonical (m.path a), m.tree.canonical (m.path b) with
    | .ok p, .ok q => .ok (p = q)
    | _, _ => .ok false
  | newer => .ok false

/-! ## 3. Expressions -/

/-- An answer, and the arguments from the one on that was read last. -/
abbrev Answered := Bool × List Bytes

section

variable (m : Machine)

mutual

/-- Answers alternatives. -/
def alternatives : Nat → List Bytes → Except Bytes Answered
  | 0, args => .ok (false, args)
  | n + 1, args => do
    let (a, args) ← conjunction n args
    match readOperator (args.drop 1) with
    | some .or_ =>
      let (b, args) ← alternatives n (args.drop 2)
      return (a || b, args)
    | _ => return (a, args)

/-- Answers what is joined by `-a`. -/
def conjunction : Nat → List Bytes → Except Bytes Answered
  | 0, args => .ok (false, args)
  | n + 1, args => do
    let (a, args) ← negation n args
    match readOperator (args.drop 1) with
    | some .and_ =>
      let (b, args) ← conjunction n (args.drop 2)
      return (a && b, args)
    | _ => return (a, args)

/-- Answers what may be negated. -/
def negation : Nat → List Bytes → Except Bytes Answered
  | 0, args => .ok (false, args)
  | n + 1, args =>
    match readOperator args with
    | some .not_ =>
      if args.length ≤ 1 then .ok (true, args)
      else do
        let (a, args) ← negation n (args.drop 1)
        return (!a, args)
    | _ => primary n args

/-- Answers one question. -/
def primary : Nat → List Bytes → Except Bytes Answered
  | 0, args => .ok (false, args)
  | _, [] => .ok (false, [])
  | n + 1, arg :: rest =>
    match readOperator (arg :: rest) with
    | some .open_ =>
      match readOperator rest with
      | some .close => .ok (false, rest)
      | _ => do
        let (a, args) ← alternatives n rest
        match readOperator (args.drop 1) with
        | some .close => return (a, args.drop 1)
        | _ => .error (utf8 "closing paren expected")
    | o =>
      match o.filter Operator.isUnary, rest with
      | some _, [] => .error (arg ++ utf8 ": argument expected")
      | some o, operand :: _ => do return (← o.ask m operand, rest)
      | none, rest =>
        match readOperator rest, rest with
        | some (.compare _), [op] => .error (op ++ utf8 ": argument expected")
        | some (.compare c), _ :: other :: more => do return (← c.ask m arg other, other :: more)
        | _, _ => .ok (!arg.isEmpty, arg :: rest)

end

/-- Answers all of some arguments. -/
def whole (args : List Bytes) : Except Bytes Bool := do
  match ← alternatives m (4 * args.length + 8) args with
  | (_, arg :: _ :: _) =>
    .error (if arg.isEmpty then utf8 "unexpected operator" else arg ++ utf8 ": unexpected operator")
  | (a, _) => return a

/-- The answer to a test; or what is wrong with it. -/
def evaluate : Nat → List Bytes → Except Bytes Bool
  | 0, _ => .ok false
  | _, [] => .ok false
  | n + 1, args =>
    match args with
    | [a, op, b] =>
      match operator? op with
      | some (.compare c) => c.ask m a b
      | _ =>
        if a = utf8 "(" ∧ b = utf8 ")" then whole m [op]
        else if a = utf8 "!" then (evaluate n [op, b]).map (!·)
        else whole m args
    | [a, b, c, d] =>
      if a = utf8 "(" ∧ d = utf8 ")" then whole m [b, c]
      else if a = utf8 "!" then (evaluate n [b, c, d]).map (!·)
      else whole m args
    | args => whole m args

end

/-- The answer to the arguments of `test`; or what is wrong with them. -/
def answer (m : Machine) (args : List Bytes) : Except Bytes Bool :=
  evaluate m (args.length + 1) args

end ScriptWeave.Shell.Test
