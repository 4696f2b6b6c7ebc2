/-
# The commands of a shell

A shell has commands of its own, which read and change it.  Here are those that run no other
command; each takes its arguments.  One that is called wrongly fails, which ends the shell if the
command is special.
-/
import ScriptWeave.Shell.Act
import ScriptWeave.Shell.Fields
import ScriptWeave.Shell.Lookup
import ScriptWeave.Shell.Signal
import ScriptWeave.Shell.Test

namespace ScriptWeave.Shell.Builtin

open Act

/-! ## 1. Directories -/

/-- The pieces of a path seen from another one, dots taken out of it. -/
def shownPath (shown : String) (target : Bytes) : String :=
  let pieces := FileTree.piecesOf (FilePath.join shown (textOf target))
  let walk (place : Location) (piece : String) : Location :=
    if piece = "." then place else if piece = ".." then place.dropLast else place ++ [piece]
  FileTree.pathTo (pieces.foldl walk [])

/-- The directories in which the target of `cd` is looked for, each with whether it is shown. -/
def candidates (m : Machine) (target : Bytes) : List (Bytes × Bool) :=
  let isFixed : Bool :=
    match target with
    | 0x2F :: _ | [0x2E] | 0x2E :: 0x2F :: _ | [0x2E, 0x2E] | 0x2E :: 0x2E :: 0x2F :: _ => true
    | _ => false
  let listed : List (Bytes × Bool) :=
    if isFixed then []
    else
      match m.valueOf? "CDPATH" with
      | none => []
      | some path => (path.splitOn 0x3A).map fun d =>
        if d.isEmpty then (target, false) else (d ++ 0x2F :: target, true)
  let exists_ := listed.filter fun c => m.tree.isDirectory (m.path c.1)
  exists_ ++ [(target, false)]

/-- Goes to another directory. -/
def cd (args : List Bytes) : Act Unit := do
  let (options, args) ← options ['L', 'P'] [] args
  let m ← get
  let isPhysical := options.getLast?.any fun o => o.1 = 'P'
  let (target, isBack) :=
    match args with
    | [] => ((m.valueOf? "HOME").getD [], false)
    | [0x2D] :: _ => ((m.valueOf? "OLDPWD").getD [], true)
    | target :: _ => (target, false)
  let named := if target.isEmpty then [0x2E] else target
  match candidates m named with
  | [] => finish 0
  | (chosen, isListed) :: _ =>
    let path := if isPhysical then m.path chosen else shownPath m.shown chosen
    match m.tree.canonical path, m.tree.isDirectory path with
    | .ok place, true =>
      let shown := if isPhysical then FileTree.pathTo place else path
      assign (utf8 "OLDPWD") (utf8 m.shown)
      assign (utf8 "PWD") (utf8 shown)
      modify fun m => { m with directory := place, shown }
      if isBack || isListed then say (utf8 (shown ++ "\n")) 0 else finish 0
    | _, _ => fail (utf8 "can't cd to " ++ target)

/-- Says which directory the shell is in. -/
def pwd (args : List Bytes) : Act Unit := do
  let (options, _) ← options ['L', 'P'] [] args
  let m ← get
  let isPhysical := options.getLast?.any fun o => o.1 = 'P'
  say (utf8 ((if isPhysical then FileTree.pathTo m.directory else m.shown) ++ "\n")) 0

/-! ## 2. Reading -/

/-- The pieces of a line, what is behind it, and whether it has an end.  A backslash takes what it
is meant for out of those, unless the line is read as it is. -/
def linePieces (isRaw : Bool) (run : Bytes) : Bytes → List WordPiece × Bytes × Bool
  | [] => ([.split run.reverse], [], false)
  | 0x0A :: rest => ([.split run.reverse], rest, true)
  | 0 :: rest => linePieces isRaw run rest
  | [0x5C] => if isRaw then ([.split (0x5C :: run).reverse], [], false)
    else ([.split run.reverse], [], false)
  | 0x5C :: c :: rest =>
    if isRaw then linePieces isRaw (0x5C :: run) (c :: rest)
    else
      let (pieces, rest, ended) := linePieces isRaw [] rest
      let kept : List WordPiece := if c = 0x0A then [] else [.solid [c] true]
      (.split run.reverse :: (kept ++ pieces), rest, ended)
  | c :: rest => linePieces isRaw (c :: run) rest
termination_by s => s.length

/-- Gives fields to variables; those that are left over are empty. -/
def give : List Bytes → List Bytes → Act Unit
  | [], _ => return ()
  | name :: names, fields => do
    assign name (fields.headD [])
    give names (fields.drop 1)

/-- Reads a line into variables. -/
def read (args : List Bytes) : Act Unit := do
  let (options, names) ← options ['r'] ['p'] args
  if names.isEmpty then fail (utf8 "arg count")
  let m ← get
  let isRaw := options.any fun o => o.1 = 'r'
  let (pieces, rest, ended) := linePieces isRaw [] ((m.readable 0).toOption.getD [])
  modify fun m => m.leave 0 rest
  finish (if ended then 0 else 1)
  give names (WordPiece.fieldsOfLine m.separators names.length pieces)

/-! ## 3. Options among arguments -/

/-- How an option letter stands in the text that lists the letters: with a value or without. -/
def letterTakes (letters : Bytes) (c : UInt8) : Option Bool :=
  match letters with
  | [] => none
  | d :: rest =>
    let takes : Bool := rest.head? = some 0x3A
    if c = d then some takes
    else letterTakes (if takes then rest.drop 1 else rest) c
termination_by letters.length
decreasing_by
  split <;> simp only [List.length_drop, List.length_cons] <;> omega

/-- The letter that comes next, with what is behind it in its argument and the number of the
argument that follows; or the number of the first argument that is no option. -/
def nextLetter (args : List Bytes) (place : Nat × Nat) : Except Nat (UInt8 × Bytes × Nat) :=
  let (index, offset) := place
  let before := if index ≤ 1 ∨ offset = 0 then [] else (args[index - 2]?).getD []
  match before.drop offset with
  | c :: more => .ok (c, more, index)
  | [] =>
    match args[index - 1]? with
    | some [0x2D, 0x2D] => .error (index + 1)
    | some (0x2D :: c :: more) => .ok (c, more, index + 1)
    | _ => .error index

/-- Sets the variable of an option, and keeps how far the options have been read. -/
def noteLetter (name : Bytes) (c : UInt8) (place : Nat × Nat) (status : Nat) : Act Unit := do
  assign (utf8 "OPTIND") (decimal place.1)
  assign name [c]
  modify fun m => { m with optionPlace := place }
  finish status

/-- Forgets the value of an option. -/
def dropValue : Act Unit := do set (← orFail ((← get).unassign "OPTARG"))

/-- Reads one option from the arguments. -/
def getopts (args : List Bytes) : Act Unit := do
  match args with
  | letters :: name :: given =>
    let m ← get
    let args := if given.isEmpty then m.arguments else given
    let place := if m.optionPlace.1 > args.length + 1 then (1, 0) else m.optionPlace
    let quiet : Bool := letters.head? = some 0x3A
    let complain (text : String) (c : UInt8) : Act Unit :=
      modify fun m => m.put 2 (utf8 text ++ [c])
    match nextLetter args place with
    | .error index => noteLetter name 0x3F (index, 0) 1
    | .ok (c, more, index) =>
      let offset := if more.isEmpty then 0 else ((args[index - 2]?).getD []).length - more.length
      match letterTakes letters c with
      | none =>
        if quiet then assign (utf8 "OPTARG") [c]
        else
          complain "Illegal option -" c
          modify fun m => m.put 2 [0x0A]
          dropValue
        noteLetter name 0x3F (index, offset) 0
      | some false =>
        assign (utf8 "OPTARG") []
        noteLetter name c (index, offset) 0
      | some true =>
        match more, args[index - 1]? with
        | [], some value =>
          assign (utf8 "OPTARG") value
          noteLetter name c (index + 1, 0) 0
        | [], none =>
          if quiet then
            assign (utf8 "OPTARG") [c]
            noteLetter name 0x3A (index, 0) 0
          else
            complain "No arg for -" c
            modify fun m => m.put 2 (utf8 " option\n")
            dropValue
            noteLetter name 0x3F (index, 0) 0
        | more, _ =>
          assign (utf8 "OPTARG") more
          noteLetter name c (index, 0) 0
  | _ => fail (utf8 "Usage: getopts optstring var [arg...]")

/-! ## 4. Variables -/

/-- Variables as they could be read back, by name. -/
def listing (front : String) (entries : List (String × Variable)) : Bytes :=
  let sorted := entries.mergeSort fun a b => decide (utf8 a.1 ≤ utf8 b.1)
  sorted.flatMap fun (name, v) =>
    let value := (v.value.map fun s => 0x3D :: Machine.shellQuoted s).getD []
    utf8 (front ++ name) ++ value ++ [0x0A]

/-- The name in an argument that may assign, and the value. -/
def assignment (arg : Bytes) : Bytes × Option Bytes :=
  let name := arg.takeWhile (· ≠ 0x3D)
  (name, if name.length < arg.length then some (arg.drop (name.length + 1)) else none)

/-- Marks variables, which may be assigned as well; without arguments, shows those that are marked.
-/
def mark (command : String) (isMarked : Variable → Bool) (marked : Variable → Variable)
    (args : List Bytes) : Act Unit := do
  let (options, names) ← options ['p'] [] args
  let m ← get
  if names.isEmpty || !options.isEmpty then
    say (listing (command ++ " ") (m.values.filter fun v => isMarked v.2)) 0
  else
    for arg in names do
      let (name, value) := assignment arg
      let name ← variableName name
      if let some value := value then set (← orFail ((← get).assign name value))
      modify fun m => m.setVariable name (some (marked ((m.entryOf? name).getD {})))
    finish 0

/-- Hands variables on to programs. -/
def export_ : List Bytes → Act Unit := mark "export" (·.exported) ({ · with exported := true })

/-- Keeps variables as they are. -/
def readonly : List Bytes → Act Unit := mark "readonly" (·.readOnly) ({ · with readOnly := true })

/-- Forgets variables or functions. -/
def unset (args : List Bytes) : Act Unit := do
  let (options, names) ← options ['v', 'f'] [] args
  for name in names do
    if options.getLast?.any fun o => o.1 = 'f' then
      modify fun m => { m with functions := m.functions.filter (·.1 ≠ nameOf name) }
    else
      let name ← variableName name
      set (← orFail ((← get).unassign name))
  finish 0

/-- Makes variables of a function its own. -/
def local_ (args : List Bytes) : Act Unit := do
  if (← get).calls = 0 then fail (utf8 "not in a function")
  for arg in args do
    if arg ≠ [0x2D] then
      let (name, value) := assignment arg
      let name ← variableName name
      modify fun m => m.makeLocal name
      if let some value := value then set (← orFail ((← get).assign name value))
  finish 0

/-- Drops arguments at the front. -/
def shift (args : List Bytes) : Act Unit := do
  let n ← match args with
    | [] => pure 1
    | arg :: _ => number arg
  if (← get).arguments.length < n then fail (utf8 "can't shift that many")
  modify fun m => { m with arguments := m.arguments.drop n, optionPlace := (1, 0) }
  finish 0

/-! ## 5. Options of the shell -/

/-- The options by name and letter, in the order in which they are shown. -/
def optionNames : List (String × Char) :=
  [("errexit", 'e'), ("noglob", 'f'), ("ignoreeof", 'I'), ("interactive", 'i'), ("monitor", 'm'),
    ("noexec", 'n'), ("stdin", 's'), ("xtrace", 'x'), ("verbose", 'v'), ("vi", 'V'), ("emacs", 'E'),
    ("noclobber", 'C'), ("allexport", 'a'), ("notify", 'b'), ("nounset", 'u'), ("privileged", 'p'),
    ("nolog", '\x01'), ("debug", '\x02')]

/-- Switches the option of a letter. -/
def switchLetter (on : Bool) (c : UInt8) : Act Unit := do
  let letter := Char.ofNat c.toNat
  if optionNames.any fun o => o.2 = letter ∧ letter.isAlpha then modify (·.switch letter on)
  else fail (utf8 "Illegal option -" ++ [c])

/-- Switches the option of a name. -/
def switchName (on : Bool) (name : Bytes) : Act Unit := do
  match optionNames.find? fun o => utf8 o.1 = name with
  | some o => modify (·.switch o.2 on)
  | none => fail (utf8 "Illegal option -o " ++ name)

/-- Shows the options. -/
def showOptions (isReadable : Bool) : Act Unit := do
  let m ← get
  let line (o : String × Char) : String :=
    if isReadable then
      o.1 ++ String.ofList (List.replicate (16 - o.1.length) ' ')
        ++ (if m.has o.2 then "on\n" else "off\n")
    else "set " ++ (if m.has o.2 then "-o " else "+o ") ++ o.1 ++ "\n"
  let heading := if isReadable then "Current option settings\n" else ""
  say (utf8 (heading ++ String.join (optionNames.map line))) 0

/-- Switches options by arguments, up to one that is none.  What is left are arguments; none is left
where those of the shell stay as they are. -/
def switchAll : List Bytes → Act (Option (List Bytes))
  | [] => return none
  | arg :: rest => do
    match arg with
    | [0x2D] =>
      modify fun m => (m.switch 'x' false).switch 'v' false
      return if rest.isEmpty then none else some rest
    | [0x2D, 0x2D] => return some rest
    | 0x2D :: letters | 0x2B :: letters =>
      let on : Bool := arg.head? = some 0x2D
      for c in letters.filter (· ≠ 0x6F) do switchLetter on c
      if letters.contains 0x6F then
        match rest with
        | name :: rest =>
          switchName on name
          switchAll rest
        | [] =>
          showOptions on
          return none
      else switchAll rest
    | arg => return some (arg :: rest)

/-- Switches options and sets the arguments; alone, shows all variables. -/
def set_ (args : List Bytes) : Act Unit := do
  if args.isEmpty then
    say (listing "" ((← get).values.filter fun v => v.2.value.isSome)) 0
  else
    finish 0
    match ← switchAll args with
    | some arguments => modify fun m => { m with arguments, optionPlace := (1, 0) }
    | none => return ()

/-! ## 6. Signals -/

/-- The signal that an operand of `trap` means. -/
def trapped (action : Option Bytes) (signals : List Bytes) : Act Unit := do
  for arg in signals do
    match Signal.number? arg with
    | none =>
      modify fun m => (m.put 2 (utf8 "trap: " ++ arg ++ utf8 ": bad trap\n")).ended 1
      return ()
    | some signal =>
      modify fun m =>
        let others := m.traps.filter (·.1 ≠ signal)
        { m with traps := (action.map (signal, ·)).toList ++ others }

/-- Says what is run when a signal arrives. -/
def trap (args : List Bytes) : Act Unit := do
  let (_, args) ← options [] [] args
  finish 0
  match args with
  | [] =>
    let sorted := (← get).traps.mergeSort fun a b => decide (a.1 ≤ b.1)
    let line (t : Nat × Bytes) : Bytes :=
      utf8 "trap -- " ++ Machine.shellQuoted t.2 ++ utf8 (" " ++ Signal.nameOf t.1 ++ "\n")
    say (sorted.flatMap line) 0
  | action :: signals =>
    if signals.isEmpty ∨ (Shell.number? action).any (· ≤ Signal.names.length) then
      trapped none (action :: signals)
    else trapped (if action = [0x2D] then none else some action) signals

/-- A process gets a signal, if there is such a process. -/
def signalled (process signal : Nat) : Act Bool := do
  let m ← get
  if process = m.process ∧ m.depth = 0 then
    match (m.traps.lookup signal).filter fun _ => signal ≠ 9 with
    | some action =>
      if !action.isEmpty then modify fun m => { m with arrived := m.arrived ++ [(process, signal)] }
      return true
    | none => if Signal.harmless.contains signal then return true else throw (.killed signal)
  else if process = m.process ∨ m.outer.contains process then
    if signal ≠ 0 then modify fun m => { m with arrived := m.arrived ++ [(process, signal)] }
    return true
  else return process = 1 || (m.jobs.any (·.1 = process))

/-- How `kill` is called. -/
def killUsage : Bytes :=
  utf8 ("Usage: kill [-s sigspec | -signum | -sigspec] [pid | job]... or\n"
    ++ "kill -l [exitstatus]")

/-- Names the signal of a status, or all signals. -/
def listSignals (args : List Bytes) : Act Unit := do
  match args with
  | [] => say (utf8 ("0\n" ++ String.join (Signal.names.map (· ++ "\n")))) 0
  | arg :: _ =>
    let n ← number arg
    let signal := if n > 128 then n - 128 else n
    if 0 < signal ∧ signal ≤ Signal.names.length then say (utf8 (Signal.nameOf signal ++ "\n")) 0
    else fail (utf8 "invalid signal number or exit status: " ++ arg)

/-- Sends a signal to processes. -/
def sendAll (signal : Nat) : List Bytes → Act Unit
  | [] => return ()
  | target :: rest => do
    let process ←
      match target with
      | 0x25 :: _ => fail (utf8 "No such job: " ++ target)
      | 0x2D :: digits => do
        let _ ← number digits
        pure none
      | target => some <$> number target
    let isThere ← match process with
      | some process => signalled process signal
      | none => pure false
    if !isThere then modify fun m => (m.warn (utf8 "No such process\n")).ended 1
    sendAll signal rest

/-- Sends a signal to processes, or names signals. -/
def kill (args : List Bytes) : Act Unit := do
  let first := args.headD []
  let known : Option Nat :=
    if first.head? = some 0x2D then Signal.number? (first.drop 1) else none
  match known.filter fun signal => signal ≠ 0 ∨ first = [0x2D, 0x30] with
  | some signal =>
    if args.length < 2 then fail killUsage
    finish 0
    sendAll signal (args.drop 1)
  | none =>
    let (options, operands) ← options ['l'] ['s'] args
    let isList := options.any fun o => o.1 = 'l'
    let mut signal : Option Nat := none
    for (letter, name) in options do
      if letter = 's' then
        match Signal.number? name with
        | some n => signal := some n
        | none => fail (utf8 "invalid signal number or name: " ++ name)
    if isList then
      if signal.isSome ∧ !operands.isEmpty then fail killUsage
      listSignals operands
    else
      if operands.isEmpty then fail killUsage
      finish 0
      sendAll (signal.getD 15) operands

/-! ## 7. Jobs -/

/-- Waits for commands that run beside the shell; their status is known already. -/
def wait (args : List Bytes) : Act Unit := do
  let (_, args) ← options [] [] args
  finish 0
  for arg in args do
    if arg.head? = some 0x25 then fail (utf8 "No such job: " ++ arg)
    let process ← number arg
    finish (((← get).jobs.lookup process).getD 127)

/-- Goes on with a job, which there is none of. -/
def resume (args : List Bytes) : Act Unit := do
  let (_, args) ← options [] [] args
  match args with
  | [] => fail (utf8 "No current job")
  | job :: _ => fail (utf8 "No such job: " ++ job)

/-- Shows jobs, which there are none of. -/
def jobs (args : List Bytes) : Act Unit := do
  let _ ← options ['l', 'p'] [] args
  finish 0

/-- Says how long processes have taken. -/
def times : Act Unit := say (utf8 "0m0.000000s 0m0.000000s\n0m0.000000s 0m0.000000s\n") 0

/-- Shows or sets a limit; nothing here has one. -/
def ulimit (args : List Bytes) : Act Unit := do
  let (_, args) ← options ("HSatfdscmlpnvwr".toList) [] args
  if args.isEmpty then say (utf8 "unlimited\n") 0 else finish 0

/-- The permissions that are left of those of a class. -/
def shownClass (name : String) (mask : Nat) : String :=
  let letter (bit : Nat) (c : String) : String := if mask / bit % 2 = 0 then c else ""
  name ++ "=" ++ letter 4 "r" ++ letter 2 "w" ++ letter 1 "x"

/-- Shows or sets the permissions that new files are not given. -/
def umask (args : List Bytes) : Act Unit := do
  let (options, args) ← options ['S'] [] args
  match args with
  | [] =>
    let mask := (← get).mask
    let octal := String.ofList (Nat.toDigits 8 mask)
    let classes := [shownClass "u" (mask / 64), shownClass "g" (mask / 8), shownClass "o" mask]
    let text :=
      if options.isEmpty then String.ofList (List.replicate (4 - octal.length) '0') ++ octal
      else String.intercalate "," classes
    say (utf8 (text ++ "\n")) 0
  | arg :: _ =>
    if arg.head?.any fun c => 0x30 ≤ c ∧ c ≤ 0x39 then
      if arg.all fun c => digitValue c < 8 then
        let mask := arg.foldl (fun n c => n * 8 + digitValue c) 0
        modify fun m => { m with mask := mask % 512 }
        finish 0
      else illegalNumber arg
    else if arg.all fun c => (utf8 "ugoarwxXst+-=,").contains c then finish 0
    else fail (utf8 "Illegal mode: " ++ arg)

/-! ## 8. Names of commands -/

/-- Shows or sets words that stand for other text. -/
def alias_ (args : List Bytes) : Act Unit := do
  finish 0
  if args.isEmpty then
    let line (a : String × List Char) : Bytes := Machine.shownAlias a.1 a.2 ++ [0x0A]
    say ((tableOrder 39 (← get).aliases).flatMap line) 0
  for arg in args do
    match assignment arg with
    | (name@(_ :: _), some text) =>
      modify fun m =>
        let others := m.aliases.filter (·.1 ≠ nameOf name)
        { m with aliases := others ++ [(nameOf name, charsOf text)] }
    | _ =>
      let status := (← get).status
      match (← get).aliases.lookup (nameOf arg) with
      | some text => say (Machine.shownAlias (nameOf arg) text ++ [0x0A]) status
      | none => modify fun m => (m.put 2 (utf8 "alias: " ++ arg ++ utf8 " not found\n")).ended 1

/-- Forgets words that stand for other text. -/
def unalias (args : List Bytes) : Act Unit := do
  let (options, names) ← options ['a'] [] args
  finish 0
  if !options.isEmpty then modify fun m => { m with aliases := [] }
  else
    for name in names do
      if ((← get).aliases.lookup (nameOf name)).isSome then
        modify fun m => { m with aliases := m.aliases.filter (·.1 ≠ nameOf name) }
      else
        modify fun m => (m.put 2 (utf8 "unalias: " ++ name ++ utf8 " not found\n")).ended 1

/-- Says what names stand for. -/
def describeAll (isBrief : Bool) (names : List Bytes) : Act Unit := do
  let m ← get
  let found := names.map fun name => (name, m.describe isBrief name)
  let text := found.flatMap fun (name, description) =>
    description.getD (if isBrief then [] else name ++ utf8 ": not found\n")
  say text (if found.all (·.2.isSome) then 0 else 127)

/-- Keeps where a program was found. -/
def locate (name path : Bytes) : Act Unit :=
  modify fun m =>
    if name.contains 0x2F ∨ (m.located.lookup (nameOf name)).isSome then m
    else { m with located := m.located ++ [(nameOf name, path)] }

/-- Looks for programs, or shows those that were found. -/
def hash (args : List Bytes) : Act Unit := do
  let (options, names) ← options ['r'] [] args
  finish 0
  if !options.isEmpty then modify fun m => { m with located := [] }
  else if names.isEmpty then
    say ((tableOrder 31 (← get).located).flatMap fun l => l.2 ++ [0x0A]) 0
  else
    for name in names do
      match (← get).meaning name with
      | .program _ path => locate name path
      | .missing => modify fun m => (m.warn (name ++ utf8 ": not found")).ended 1
      | _ => return ()

/-! ## 9. Going elsewhere -/

/-- How many levels `break` and `continue` mean; none if no loop is around. -/
def levels (args : List Bytes) : Act (Option Nat) := do
  let n ← match args with
    | [] => pure 1
    | arg :: _ => do
      let n ← number arg
      if n = 0 then illegalNumber arg else pure n
  finish 0
  let loops := (← get).loops
  return if loops = 0 then none else some (min n loops)

/-- Leaves loops. -/
def break_ (args : List Bytes) : Act Unit := do
  if let some n ← levels args then throw (.leaveLoop n)

/-- Goes on with the next round of a loop. -/
def continue_ (args : List Bytes) : Act Unit := do
  if let some n ← levels args then throw (.nextRound n)

/-- Ends with the status of an argument, if there is one. -/
def endWith (flow : Flow) (args : List Bytes) : Act Unit := do
  if let arg :: _ := args then finish (← number arg)
  throw flow

/-- Answers a test. -/
def test (args : List Bytes) : Act Unit := do
  let answer ← orFail (Test.answer (← get) args)
  finish (if answer then 0 else 1)

/-- Answers a test between brackets. -/
def bracket (args : List Bytes) : Act Unit := do
  if args.getLast? = some [0x5D] then test args.dropLast else fail (utf8 "missing ]")

/-- The command of a name. -/
def named? (name : String) : Option (List Bytes → Act Unit) :=
  match name with
  | ":" | "true" => some fun _ => finish 0
  | "false" => some fun _ => finish 1
  | "[" => some bracket
  | "alias" => some alias_
  | "bg" | "fg" => some resume
  | "break" => some break_
  | "cd" | "chdir" => some cd
  | "continue" => some continue_
  | "echo" => some fun args => wrote (Printf.echo args)
  | "exit" => some (endWith .exited)
  | "export" => some export_
  | "getopts" => some getopts
  | "hash" => some hash
  | "jobs" => some jobs
  | "kill" => some kill
  | "local" => some local_
  | "printf" => some fun args => do wrote (Printf.printf (← get).complaintPlace args)
  | "pwd" => some pwd
  | "read" => some read
  | "readonly" => some readonly
  | "return" => some (endWith .returned)
  | "set" => some set_
  | "shift" => some shift
  | "test" => some test
  | "times" => some fun _ => times
  | "trap" => some trap
  | "type" => some (describeAll false)
  | "ulimit" => some ulimit
  | "umask" => some umask
  | "unalias" => some unalias
  | "unset" => some unset
  | "wait" => some wait
  | _ => none

end ScriptWeave.Shell.Builtin
