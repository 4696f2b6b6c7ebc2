/-
# Shells inside shells

A shell in parentheses, in a pipeline or in a substitution begins as a copy of the one around it;
one that is started as a program begins anew, with the variables that are handed on.  When it ends,
the outer shell goes on as it was, except for the files, the streams and the signals that have
arrived.

What a shell is told to run is a `Script`: a text among its arguments, a file, or all of its input.
-/
import ScriptWeave.Shell.Builtin
import ScriptWeave.Shell.Redirection

namespace ScriptWeave.Shell

/-! ## 1. Beginning and going on -/

namespace Machine

/-- What a shell keeps of itself while one inside of it is running: all but the streams and the
files. -/
def kept (m : Machine) : Machine := { m with streams := #[], tree := ∅ }

/-- A shell that begins as a copy of this one; traps that do something are not for it. -/
def copied (m : Machine) : Machine :=
  { m with depth := m.depth + 1, traps := m.traps.filter fun t => t.2.isEmpty }

/-- The shell goes on after one inside of it. -/
def resumed (kept inner : Machine) : Machine :=
  { kept with
    streams := inner.streams, tree := inner.tree, arrived := inner.arrived, status := inner.status }

/-- The variables that every shell has. -/
def initialValues (m : Machine) : List (String × Variable) :=
  [("IFS", { value := some [0x20, 0x09, 0x0A] }), ("OPTIND", { value := some (utf8 "1") }),
    ("PS1", { value := some (utf8 "# ") }), ("PS2", { value := some (utf8 "> ") }),
    ("PS4", { value := some (utf8 "+ ") }),
    ("PATH", { value := some standardPath, exported := true }),
    ("PPID", { value := some (decimal (m.outer.headD 1)) }),
    ("PWD", { value := some (utf8 m.shown), exported := true })]

/-- The shell with the variables that it is handed. -/
def withValues (m : Machine) (environment : List (String × Variable)) : Machine :=
  let isOwn (name : String) : Bool := ["IFS", "OPTIND", "PPID", "PWD"].contains name
  let environment := environment.filter fun v => !isOwn v.1 && Act.isVariableName (utf8 v.1)
  let values := m.initialValues.filter fun v => (environment.lookup v.1).isNone
  { m with values := environment ++ values }

/-- A new shell, which is handed the variables that are to be handed on. -/
def started (m : Machine) (name : Bytes) (arguments : List Bytes) (options : List Char) : Machine :=
  let fresh : Machine :=
    { name, process := m.process + 1, outer := m.process :: m.outer, arguments, values := []
      options, arrived := m.arrived, tested := false
      traps := m.traps.filter fun t => t.2.isEmpty
      directory := m.directory, shown := m.shown, tree := m.tree, streams := m.streams
      descriptors := m.descriptors, mask := m.mask }
  fresh.withValues (m.values.filter fun v => v.2.exported && v.2.value.isSome)

end Machine

/-! ## 2. Scripts -/

/-- What a new shell is to run. -/
structure Script where
  text : Bytes
  name : Bytes
  arguments : List Bytes := []
  options : List Char := []

namespace Script

/-- The options in the arguments of a shell, whether a text to be run is among them, and the
operands. -/
def readOptions (seen : List Char) (isText : Bool) :
    List Bytes → Except Bytes (List Char × Bool × List Bytes)
  | [] => .ok (seen, isText, [])
  | arg :: rest =>
    match arg with
    | [0x2D] | [0x2D, 0x2D] => .ok (seen, isText, rest)
    | 0x2D :: letters | 0x2B :: letters =>
      let on : Bool := arg.head? = some 0x2D
      let names := (letters.map fun c => Char.ofNat c.toNat).filter fun c => c ≠ 'c' && c ≠ 'l'
      let known := Builtin.optionNames.map (·.2)
      match names.find? fun c => c ≠ 'o' ∧ (!c.isAlpha ∨ !known.contains c) with
      | some c => .error (utf8 "Illegal option -" ++ bytesOf [c])
      | none =>
        let change (seen names : List Char) : List Char :=
          seen.filter (!names.contains ·) ++ (if on then names else [])
        let isText := isText || letters.contains 0x63
        if names.contains 'o' then
          match rest with
          | [] => .ok (seen, isText, [])
          | name :: rest =>
            match Builtin.optionNames.find? fun o => utf8 o.1 = name with
            | none => .error (utf8 "Illegal option -o " ++ name)
            | some o => readOptions (change seen (o.2 :: names.filter (· ≠ 'o'))) isText rest
        else readOptions (change seen names) isText rest
    | arg => .ok (seen, isText, arg :: rest)

/-- What the arguments of a shell tell it to run, and what is left to be read besides; or what is
wrong with them. -/
def ofArguments (m : Machine) (name : Bytes) (args : List Bytes) :
    Except Bytes (Script × Option Bytes) := do
  let (options, isText, operands) ← readOptions [] false args
  let fromInput : Script :=
    { text := (m.readable 0).toOption.getD [], name, arguments := operands
      options := if options.contains 's' then options else 's' :: options }
  match isText, operands with
  | true, [] => .error (utf8 "-c requires an argument")
  | true, text :: operands =>
    return ({ text, name := operands.headD name, arguments := operands.drop 1, options }, none)
  | false, [] => return (fromInput, some [])
  | false, file :: arguments =>
    if options.contains 's' then return (fromInput, some [])
    else
      match m.readFile file with
      | .ok text => return ({ text, name := file, arguments, options }, none)
      | .error (.storage e) => .error (Machine.cannotOpen false file e)
      | .error .closed => .error (Machine.cannotOpen false file .notFound)

end Script

end ScriptWeave.Shell
