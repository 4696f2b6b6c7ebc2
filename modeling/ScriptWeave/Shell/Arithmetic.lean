/-
# Arithmetic in a shell

An arithmetic expression has the operators of C, without those that count up and down, on numbers of
64 bits, which wrap.  A name stands for the number that its variable holds.  Assignments happen as
the expression is evaluated, so that evaluating passes a state along; what is not to be evaluated,
as behind `&&`, assigns nothing.

Between operands, an operator that binds more tightly than the one before takes its operands first.
-/
import ScriptWeave.Shell.Bytes

namespace ScriptWeave.Shell.Arithmetic

/-! ## 1. Tokens -/

/-- An operator between two operands. -/
inductive Operator where
  | times | divide | remainder
  | plus | minus
  | shiftLeft | shiftRight
  | less | lessEqual | greater | greaterEqual
  | equal | notEqual
  | bitAnd | bitXor | bitOr
  deriving DecidableEq

/-- How loosely an operator binds. -/
def Operator.looseness : Operator → Nat
  | times | divide | remainder => 0
  | plus | minus => 1
  | shiftLeft | shiftRight => 2
  | less | lessEqual | greater | greaterEqual => 3
  | equal | notEqual => 4
  | bitAnd => 5
  | bitXor => 6
  | bitOr => 7

/-- A token of an expression. -/
inductive Token where
  | number (n : Int)
  | name (text : String)
  | op (o : Operator)
  /-- Assigns, perhaps after an operator has been applied. -/
  | assign (o : Option Operator)
  | and_ | or_ | not_ | complement
  | question | colon
  | open_ | close
  | bad
  | ending
  deriving DecidableEq

/-- The operators by their spelling, the longer ones first. -/
def signs : List (List Char × Token) :=
  [(['<', '<', '='], .assign (some .shiftLeft)), (['>', '>', '='], .assign (some .shiftRight)),
    (['*', '='], .assign (some .times)), (['/', '='], .assign (some .divide)),
    (['%', '='], .assign (some .remainder)), (['+', '='], .assign (some .plus)),
    (['-', '='], .assign (some .minus)), (['&', '='], .assign (some .bitAnd)),
    (['^', '='], .assign (some .bitXor)), (['|', '='], .assign (some .bitOr)),
    (['=', '='], .op .equal), (['!', '='], .op .notEqual), (['<', '='], .op .lessEqual),
    (['>', '='], .op .greaterEqual), (['<', '<'], .op .shiftLeft), (['>', '>'], .op .shiftRight),
    (['&', '&'], .and_), (['|', '|'], .or_), (['='], .assign none), (['*'], .op .times),
    (['/'], .op .divide), (['%'], .op .remainder), (['+'], .op .plus), (['-'], .op .minus),
    (['<'], .op .less), (['>'], .op .greater), (['&'], .op .bitAnd), (['^'], .op .bitXor),
    (['|'], .op .bitOr), (['!'], .not_), (['~'], .complement), (['?'], .question),
    ([':'], .colon), (['('], .open_), ([')'], .close)]

/-- The tokens of an expression, given enough steps. -/
def tokensWithin : Nat → List Char → List Token
  | 0, _ => []
  | n + 1, s =>
    match s with
    | [] => []
    | c :: rest =>
      if c = ' ' ∨ c = '\t' ∨ c = '\n' then tokensWithin n rest
      else if c.isDigit then
        match leadingInteger 0 (bytesOf s) with
        | (some value, rest) => .number (clamped value) :: tokensWithin n (charsOf rest)
        | (none, _) => [.bad]
      else if c.isAlpha ∨ c = '_' then
        let name := s.takeWhile fun c => c.isAlphanum || c = '_'
        .name (String.ofList name) :: tokensWithin n (s.drop name.length)
      else
        match signs.find? fun sign => sign.1.isPrefixOf s with
        | some (spelling, token) => token :: tokensWithin n (s.drop spelling.length)
        | none => .bad :: tokensWithin n rest

/-- The tokens of an expression. -/
def tokens (s : List Char) : List Token := tokensWithin (s.length + 1) s

/-! ## 2. Evaluation -/

/-- Why an expression has no value. -/
inductive Fault where
  | expectingPrimary
  | expectingEnd
  | expectingClose
  | expectingColon
  | divisionByZero
  /-- A variable holds no number. -/
  | illegalNumber (text : Bytes)
  | readOnly (name : String)
  deriving DecidableEq

/-- The text of a fault in an expression. -/
def Fault.message (expression : Bytes) : Fault → Bytes
  | .illegalNumber text => utf8 "Illegal number: " ++ text
  | .readOnly name => utf8 (name ++ ": is read only")
  | fault =>
    let text := match fault with
      | .expectingPrimary => "expecting primary"
      | .expectingEnd => "expecting EOF"
      | .expectingClose => "expecting ')'"
      | .expectingColon => "expecting ':'"
      | _ => "division by zero"
    utf8 ("arithmetic expression: " ++ text ++ ": \"") ++ expression ++ utf8 "\""

/-- How variables are read and set in a state. -/
structure Access (σ : Type) where
  read : σ → String → Except Fault Int
  write : σ → String → Int → Except Fault σ

/-- Truth as a number. -/
def truth (b : Bool) : Int := if b then 1 else 0

/-- The value of two operands under an operator, if there is one. -/
def Operator.apply (o : Operator) (a b : Int) : Except Fault Int :=
  let bits (f : UInt64 → UInt64 → UInt64) : Int :=
    wrapped (f (UInt64.ofInt a) (UInt64.ofInt b)).toNat
  match o with
  | times => .ok (wrapped (a * b))
  | divide => if b = 0 then .error .divisionByZero else .ok (wrapped (a.tdiv b))
  | remainder => if b = 0 then .error .divisionByZero else .ok (a.tmod b)
  | plus => .ok (wrapped (a + b))
  | minus => .ok (wrapped (a - b))
  | shiftLeft => .ok (wrapped (a * Int.pow 2 (b % 64).toNat))
  | shiftRight => .ok (a / Int.pow 2 (b % 64).toNat)
  | less => .ok (truth (a < b))
  | lessEqual => .ok (truth (a ≤ b))
  | greater => .ok (truth (a > b))
  | greaterEqual => .ok (truth (a ≥ b))
  | equal => .ok (truth (a = b))
  | notEqual => .ok (truth (a ≠ b))
  | bitAnd => .ok (bits (· &&& ·))
  | bitXor => .ok (bits (· ^^^ ·))
  | bitOr => .ok (bits (· ||| ·))

/-- A value, the state afterwards, and the tokens that follow. -/
abbrev Found (σ : Type) := Int × σ × List Token

section Evaluation

variable {σ : Type} (access : Access σ)

mutual

/-- The value of an operand with the signs in front of it. -/
def primary : Nat → Bool → σ → List Token → Except Fault (Found σ)
  | 0, _, _, _ => .error .expectingPrimary
  | n + 1, quiet, state, tokens =>
    match tokens with
    | .number value :: rest => .ok (value, state, rest)
    | .name name :: rest =>
      if quiet then .ok (0, state, rest)
      else do return (← access.read state name, state, rest)
    | .open_ :: rest => do
      match ← assignment n quiet state rest with
      | (value, state, .close :: rest) => return (value, state, rest)
      | _ => .error .expectingClose
    | .op .plus :: rest => primary n quiet state rest
    | .op .minus :: rest => do
      let (value, state, rest) ← primary n quiet state rest
      return (wrapped (-value), state, rest)
    | .not_ :: rest => do
      let (value, state, rest) ← primary n quiet state rest
      return (truth (value = 0), state, rest)
    | .complement :: rest => do
      let (value, state, rest) ← primary n quiet state rest
      return (-value - 1, state, rest)
    | _ => .error .expectingPrimary

/-- The value of an operand and an operator and what follows, up to an operator that binds no more
tightly than the bound. -/
def operations : Nat → Bool → Int → Operator → Nat → σ → List Token → Except Fault (Found σ)
  | 0, _, _, _, _, _, _ => .error .expectingPrimary
  | n + 1, quiet, a, o, bound, state, tokens => do
    let (b, state, rest) ← primary n quiet state tokens
    let (b, state, rest) ←
      match rest with
      | .op next :: after =>
        if next.looseness < o.looseness then operations n quiet b next o.looseness state after
        else pure (b, state, rest)
      | rest => pure (b, state, rest)
    let value ← if quiet then pure b else o.apply a b
    match rest with
    | .op next :: after =>
      if next.looseness < bound then operations n quiet value next bound state after
      else return (value, state, rest)
    | rest => return (value, state, rest)

/-- The value of operands with operators between them. -/
def arithmetic : Nat → Bool → σ → List Token → Except Fault (Found σ)
  | 0, _, _, _ => .error .expectingPrimary
  | n + 1, quiet, state, tokens => do
    match ← primary n quiet state tokens with
    | (a, state, .op o :: rest) => operations n quiet a o 8 state rest
    | found => return found

/-- The value of a conjunction. -/
def conjunction : Nat → Bool → σ → List Token → Except Fault (Found σ)
  | 0, _, _, _ => .error .expectingPrimary
  | n + 1, quiet, state, tokens => do
    match ← arithmetic n quiet state tokens with
    | (a, state, .and_ :: rest) =>
      let (b, state, rest) ← conjunction n (quiet || a = 0) state rest
      return (truth (a ≠ 0 && b ≠ 0), state, rest)
    | found => return found

/-- The value of a disjunction. -/
def disjunction : Nat → Bool → σ → List Token → Except Fault (Found σ)
  | 0, _, _, _ => .error .expectingPrimary
  | n + 1, quiet, state, tokens => do
    match ← conjunction n quiet state tokens with
    | (a, state, .or_ :: rest) =>
      let (b, state, rest) ← disjunction n (quiet || a ≠ 0) state rest
      return (truth (a ≠ 0 || b ≠ 0), state, rest)
    | found => return found

/-- The value of a condition with its two cases. -/
def conditional : Nat → Bool → σ → List Token → Except Fault (Found σ)
  | 0, _, _, _ => .error .expectingPrimary
  | n + 1, quiet, state, tokens => do
    match ← disjunction n quiet state tokens with
    | (a, state, .question :: rest) =>
      match ← assignment n (quiet || a = 0) state rest with
      | (b, state, .colon :: rest) =>
        let (c, state, rest) ← conditional n (quiet || a ≠ 0) state rest
        return (if a ≠ 0 then b else c, state, rest)
      | _ => .error .expectingColon
    | found => return found

/-- The value of an assignment, or of what is none. -/
def assignment : Nat → Bool → σ → List Token → Except Fault (Found σ)
  | 0, _, _, _ => .error .expectingPrimary
  | n + 1, quiet, state, tokens =>
    match tokens with
    | .name name :: .assign o :: rest => do
      let (b, state, rest) ← assignment n quiet state rest
      if quiet then return (b, state, rest)
      let value ←
        match o with
        | none => pure b
        | some o => do o.apply (← access.read state name) b
      return (value, ← access.write state name value, rest)
    | tokens => conditional n quiet state tokens

end

/-- The value of an expression, and the state afterwards. -/
def evaluate (state : σ) (expression : List Char) : Except Fault (Int × σ) := do
  let tokens := tokens expression
  match ← assignment access (8 * tokens.length + 16) false state tokens with
  | (value, state, []) => return (value, state)
  | _ => .error .expectingEnd

end Evaluation

end ScriptWeave.Shell.Arithmetic
