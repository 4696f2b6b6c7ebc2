/-
# Running shell commands

A command is run in a shell and changes it.  What is run in parentheses, in a pipeline or in a
substitution changes no variable outside, but what it reads is read and what it writes is written.

* A simple command expands its words, makes its redirections, assigns, and then runs what its name
  stands for.  Assignments before a special command stay, those before another one do not.
* A pipeline runs its commands one after another, each with what the one before has written as its
  input; its status is that of the last one.
* A shell that fails complains, and ends with the status 2.  A minor command of it that fails does
  not end it.
* What a trap is set for runs when the signal has arrived and the command that runs is over.

Loops may not end, so running is given a number of steps, which every command and every round of a
loop takes one of.
-/
import ScriptWeave.Shell.Expansion
import ScriptWeave.Shell.Nested
import ScriptWeave.Shell.Program.ByName

namespace ScriptWeave.Shell

/-! ## 1. Simple commands -/

namespace Run

/-- How many functions can be around what is being run. -/
def callLimit : Nat := 1000

/-- The bytes without the line ends at their end, and without zero bytes. -/
def substituted (output : Bytes) : Bytes :=
  (output.filter (· ≠ 0)).reverse.dropWhile (· = 0x0A) |>.reverse

/-- What is left of a loop that is left early, outside of it: nothing, or another loop to be left or
gone on with. -/
def outside : Flow → Option Flow
  | .leaveLoop n => if n ≤ 1 then none else some (.leaveLoop (n - 1))
  | .nextRound n => if n ≤ 1 then none else some (.nextRound (n - 1))
  | flow => some flow

/-- A round of a loop; the loop goes on after it, or is over. -/
def round (body : Act Unit) : Act Bool := do
  match ← body.outcome with
  | .ok () => return true
  | .error flow =>
    match outside flow with
    | some flow => throw flow
    | none => return flow = .nextRound 1 || flow = .nextRound 0

/-- Tells of a process that a signal has ended. -/
def tell (signal : Nat) : Act Unit := do
  let text := Signal.told signal
  modify fun m =>
    (if text.isEmpty then m else m.put 2 (utf8 (text ++ "\n"))).ended (128 + signal)

/-- Ends the shell if a command has failed and that is not tested for. -/
def settle : Act Unit := do
  let m ← get
  if m.has 'e' ∧ !m.tested ∧ m.status ≠ 0 then throw .exited

/-- Runs something with redirections, which are undone afterwards unless they are to stay; if one of
them is impossible, that is a failure of a special command. -/
def withTargets (targets : List (Nat × Target)) (isSpecial stay : Bool) (body : Act Unit) :
    Act Unit := do
  let m ← get
  let (before, streams) := (m.descriptors, m.streams.size)
  let restore : Act Unit := modify (·.restored (targets.map (·.1)) before streams)
  let fault ← modifyGet fun m =>
    let (m, fault) := m.redirectAll targets
    (fault, m)
  match fault with
  | some text =>
    restore
    modify fun m => (m.warn text).ended 2
    if isSpecial then throw .failed
  | none => if stay then body else body.andThen restore

/-- Runs something inside a loop. -/
def inLoop (body : Act Unit) : Act Unit := do
  modify fun m => { m with loops := m.loops + 1 }
  body.andThen (modify fun m => { m with loops := m.loops - 1 })

/-- The name in a word that may assign, and the rest of the word. -/
def assigned? : Word → Option (String × Word)
  | .literal text false :: rest =>
    (Reader.assignedName text).map fun (name, more) => (name, .literal more false :: rest)
  | _ => none

/-- A command without the `command` before it, where that runs a command. -/
def behindCommand : Nat → List Bytes → List Bytes
  | 0, fields => fields
  | n + 1, fields =>
    match fields with
    | name :: rest =>
      if name ≠ utf8 "command" then fields
      else
        match behindOptions rest with
        | some (inner :: args) => behindCommand n (inner :: args)
        | _ => fields
    | [] => []
where
  behindOptions : List Bytes → Option (List Bytes)
    | [] => some []
    | arg :: rest =>
      match arg with
      | [0x2D, 0x2D] => some rest
      | 0x2D :: c :: letters =>
        if (c :: letters).all (· = 0x70) then behindOptions rest else none
      | arg => some (arg :: rest)

/-- Says what names stand for, as `command` does. -/
def explain (args : List Bytes) : Act Unit := do
  let (options, names) ← Act.options ['p', 'v', 'V'] [] args
  match names, options.getLast? with
  | name :: _, some (letter, _) =>
    if letter = 'p' then Act.finish 0 else Builtin.describeAll (letter = 'v') [name]
  | _, _ => Act.finish 0

/-- The file that is read in the place of a command. -/
def fileToRead (name : Bytes) : Act Bytes := do
  let m ← get
  if name.contains 0x2F then return name
  else
    let isFile (path : Bytes) : Bool :=
      match m.nodeAt path with
      | .ok (.file _) => true
      | _ => false
    match (m.searchPath.map (· ++ name)).find? isFile with
    | some path => return path
    | none => Act.fail (name ++ utf8 ": not found")

/-- A text between quotation marks, read as a word that is expanded. -/
def promptWord (text : Bytes) : Word :=
  let s := charsOf text
  match (Reader.readParts (2 * s.length + 2) .document).run { text := s } with
  | .ok (word, _) => word
  | .error _ => [.literal s true]

/-! ## 2. Running -/

mutual

/-- Expands a word into pieces. -/
def expandWord : Nat → Wanted → Word → Act (List WordPiece)
  | 0, _, _ => throw .stuck
  | n + 1, wanted, word => do
    let word := Expansion.withHomes (← get) wanted.value true word
    return (← word.mapM (expandPart n wanted)).flatten

/-- Expands a part of a word. -/
def expandPart : Nat → Wanted → WordPart → Act (List WordPiece)
  | 0, _, _ => throw .stuck
  | n + 1, wanted, part => do
    match part with
    | .literal text quoted =>
      let bytes := bytesOf text
      return [if wanted.inner && !quoted then .split bytes else .solid bytes quoted]
    | .quotes => return [.solid [] true]
    | .parameter name use argument quoted => expandParameter n wanted name use argument quoted
    | .substitution command quoted => return [Expansion.piece (← substitute n command) quoted]
    | .arithmetic expression quoted =>
      let text ← expandText n false expression
      return [Expansion.piece (← Expansion.calculate text) quoted]

/-- Expands a parameter. -/
def expandParameter :
    Nat → Wanted → String → ParameterUse → Word → Bool → Act (List WordPiece)
  | 0, _, _, _, _, _ => throw .stuck
  | n + 1, wanted, name, use, argument, quoted => do
    let m ← get
    let shown := Expansion.shown m wanted name quoted
    let other : Act (List WordPiece) := expandWord n { wanted with inner := true } argument
    match use with
    | .value =>
      let _ ← Expansion.required name
      return shown
    | .length =>
      let value ← Expansion.required name
      return [Expansion.piece (decimal value.length) quoted]
    | .orElse orEmpty => if Expansion.isMissing m name orEmpty then other else return shown
    | .ifSet orEmpty => if Expansion.isMissing m name orEmpty then return [] else other
    | .orAssign orEmpty =>
      if Expansion.isMissing m name orEmpty then
        let value ← expandText n false argument
        Act.assign (utf8 name) value
        return [Expansion.piece value quoted]
      else return shown
    | .orFail orEmpty =>
      if Expansion.isMissing m name orEmpty then
        let given ← expandText n false argument
        let text :=
          if !argument.isEmpty then given
          else utf8 ("parameter not set" ++ if orEmpty then " or null" else "")
        Act.fail (utf8 (name ++ ": ") ++ text)
      else return shown
    | .withoutFront longest =>
      let _ ← Expansion.required name
      let pattern := WordPiece.asPattern (← expandWord n {} argument)
      Expansion.cut wanted name quoted (pattern.withoutFront longest)
    | .withoutEnd longest =>
      let _ ← Expansion.required name
      let pattern := WordPiece.asPattern (← expandWord n {} argument)
      Expansion.cut wanted name quoted (pattern.withoutEnd longest)
    | .bad => Act.fail (utf8 "Bad substitution")

/-- Expands a word into one text. -/
def expandText : Nat → Bool → Word → Act Bytes
  | 0, _, _ => throw .stuck
  | n + 1, value, word => return WordPiece.joined (← expandWord n { value } word)

/-- Expands a word into fields. -/
def expandFields : Nat → Word → Act (List Bytes)
  | 0, _ => throw .stuck
  | n + 1, word => do
    let pieces ← expandWord n { fields := true } word
    let m ← get
    return (WordPiece.fields m.separators pieces).flatMap m.wordsOf

/-- Expands the words of a simple command; once its name is known, words that assign may not be
split. -/
def expandWords : Nat → List Bytes → List Word → Act (List Bytes)
  | 0, _, _ => throw .stuck
  | _, seen, [] => return seen
  | n + 1, seen, word :: rest => do
    let command := (behindCommand seen.length seen).headD []
    let assigns := assigningBuiltins.contains (nameOf command)
    match if assigns then assigned? word else none with
    | some (name, value) =>
      let value ← expandText n true value
      expandWords n (seen ++ [utf8 (name ++ "=") ++ value]) rest
    | none => expandWords n (seen ++ (← expandFields n word)) rest

/-- The status and the output of a command that is run in a shell inside this one. -/
def substitute : Nat → Command → Act Bytes
  | 0, _ => throw .stuck
  | n + 1, command => do
    let m ← get
    let (before, streams, status) := (m.descriptors, m.streams.size, m.status)
    modify fun m =>
      let (m, index) := m.opened (.sink [])
      m.direct 1 (some index)
    runInside n do
      modify fun m => { m with tested := false }
      runCommand n command
    modifyGet fun m =>
      let output := substituted (m.written streams)
      let m := m.restored [1] before streams
      (output, { m with substituted := m.status, status })

/-- Expands redirections. -/
def expandRedirects : Nat → List Redirect → Act (List (Nat × Target))
  | 0, _ => throw .stuck
  | n + 1, redirects =>
    redirects.mapM fun
      | .file descriptor kind target => do
        return (descriptor, .file kind (← expandText n false target))
      | .duplicate descriptor source => do
        match ← expandText n false source with
        | [0x2D] => return (descriptor, .same none)
        | [c] =>
          if digitValue c < 10 then return (descriptor, .same (some (digitValue c)))
          else Act.fail (utf8 ("Syntax error: " ++ SyntaxError.badDescriptor.message))
        | _ => Act.fail (utf8 ("Syntax error: " ++ SyntaxError.badDescriptor.message))
      | .document descriptor number => do
        let body := ((← get).documents.lookup number).getD []
        return (descriptor, .text (← expandText n false body))

/-- Runs a simple command. -/
def runSimple : Nat → List (String × Word) → List Word → List Redirect → Act Unit
  | 0, _, _, _ => throw .stuck
  | n + 1, assignments, words, redirects => do
    modify fun m => { m with substituted := 0 }
    let fields ← expandWords n [] words
    let trace := ((← get).streamOf? 2).map (·.1)
    let isSpecial (name : Bytes) : Bool := Reader.specialNames.contains (nameOf name)
    let first := isSpecial (fields.headD [])
    let behind := behindCommand fields.length fields
    let stays : Bool := behind = [utf8 "exec"]
    let targets ← expandRedirects n redirects
    withTargets targets first stays do
      match fields with
      | [] =>
        let values ← assignments.mapM fun (name, word) => do
          let value ← expandText n true word
          Act.assign (utf8 name) value
          return utf8 (name ++ "=") ++ value
        showTrace n trace values
        Act.finish (← get).substituted
      | _ =>
        let m ← get
        let old := assignments.map fun a => (a.1, m.entryOf? a.1)
        let run : Act Unit := do
          let values ← assignments.mapM fun (name, word) => do
            let value ← expandText n true word
            Act.assign (utf8 name) value
            if !first then
              modify fun m => m.setVariable name
                ((m.entryOf? name).map fun v => { v with exported := true })
            return utf8 (name ++ "=") ++ value
          showTrace n trace (values ++ fields)
          let isPlain := behind.length = fields.length
          runNamed n isPlain first (behind.headD []) (behind.drop 1)
        if first ∨ assignments.isEmpty then run
        else run.andThen (modify (·.withVariables old))
    settle

/-- Shows a command before it is run, if that is asked for. -/
def showTrace : Nat → Option Nat → List Bytes → Act Unit
  | 0, _, _ => throw .stuck
  | n + 1, index, fields => do
    let m ← get
    if m.has 'x' ∧ !fields.isEmpty then
      let shown ← expandText n false (promptWord ((m.valueOf? "PS4").getD []))
      let line := shown ++ [0x20].intercalate fields ++ [0x0A]
      modify fun m => ((index.bind fun i => m.writeTo? i line)).getD m

/-- Runs a command by its name; `isPlain` says that it may be a function, and `isSpecial` that the
shell ends if it fails. -/
def runNamed : Nat → Bool → Bool → Bytes → List Bytes → Act Unit
  | 0, _, _, _, _ => throw .stuck
  | n + 1, isPlain, isSpecial, name, args => do
    let m ← get
    match if isPlain then m.meaning name else m.commandMeaning name with
    | .function body => callFunction n body args
    | .builtin _ =>
      let before := m.running
      modify fun m => { m with running := some name }
      let restore : Act Unit := modify fun m => { m with running := before }
      match ← ((runBuiltin n (nameOf name) args).andThen restore).outcome with
      | .ok () => return ()
      | .error flow => if isSpecial ∨ flow ≠ .failed then throw flow
    | .program program path =>
      Builtin.locate name path
      runProgram n program name args
    | .denied status => modify fun m => (m.warn (name ++ utf8 ": Permission denied")).ended status
    | .missing => modify fun m => (m.warn (name ++ utf8 ": not found")).ended 127

/-- Runs a command of the shell. -/
def runBuiltin : Nat → String → List Bytes → Act Unit
  | 0, _, _ => throw .stuck
  | n + 1, name, args => do
    match name with
    | "command" => explain args
    | "eval" =>
      let (_, args) ← Act.options [] [] args
      let ran ← runText n (charsOf ([0x20].intercalate args))
      if !ran then Act.finish 0
    | "." =>
      match ← Act.options [] [] args with
      | (_, []) => Act.finish 0
      | (_, file :: _) =>
        let path ← fileToRead file
        match (← get).readFile path with
        | .error fault =>
          let e := match fault with
            | .storage e => e
            | .closed => .notFound
          Act.fail (Machine.cannotOpen false path e)
        | .ok text =>
          let tested := (← get).tested
          modify fun m => { m with running := some path, tested := false }
          let body : Act Unit := do
            let ran ← runText n (charsOf text)
            if !ran then Act.finish 0
          match ← (body.andThen (modify fun m => { m with tested })).outcome with
          | .ok () | .error .returned => return ()
          | .error flow => throw flow
    | "exec" =>
      match ← Act.options [] [] args with
      | (_, []) => Act.finish 0
      | (_, command :: args) => runInPlace n command args
    | name =>
      match Builtin.named? name with
      | some run => run args
      | none => return ()

/-- Runs a program in the place of the shell. -/
def runInPlace : Nat → Bytes → List Bytes → Act Unit
  | 0, _, _ => throw .stuck
  | n + 1, name, args => do
    let m ← get
    let meaning :=
      if name.contains 0x2F ∨ name.isEmpty then m.commandMeaning name
      else m.findProgram name m.searchPath
    match meaning with
    | .program program _ =>
      modify fun m => { m with traps := [] }
      runProgram n program name args
    | .denied _ => modify fun m => (m.warn (name ++ utf8 ": Permission denied")).ended 126
    | _ => modify fun m => (m.warn (name ++ utf8 ": not found")).ended 127
    throw .exited

/-- Runs a program. -/
def runProgram : Nat → String → Bytes → List Bytes → Act Unit
  | 0, _, _, _ => throw .stuck
  | n + 1, program, name, args => do
    match program with
    | "sh" | "dash" =>
      match Script.ofArguments (← get) name args with
      | .error text => modify fun m => (m.put 2 (name ++ utf8 ": 0: " ++ text ++ [0x0A])).ended 2
      | .ok (script, rest) =>
        modify fun m => (rest.map (m.leave 0)).getD m
        let kept := (← get).kept
        modify fun m => m.started script.name script.arguments script.options
        let signal ← conclude n (do let _ ← runText n (charsOf script.text))
        modify kept.resumed
        if let some signal := signal then tell signal
    | "kill" | "test" | "[" =>
      let before := (← get).running
      let restore : Act Unit := modify fun m => { m with running := before }
      let run := (Builtin.named? program).getD fun _ => return ()
      match ← ((run args).andThen restore).outcome with
      | .ok () | .error .failed => return ()
      | .error flow => throw flow
    | program => modify fun m => (Program.run? m program args).elim m (Program.run m program)

/-- Calls a function. -/
def callFunction : Nat → Command → List Bytes → Act Unit
  | 0, _, _ => throw .stuck
  | n + 1, body, args => do
    let m ← get
    let (arguments, loops, locals, optionPlace) := (m.arguments, m.loops, m.locals, m.optionPlace)
    if m.calls ≥ callLimit then
      Act.fail (utf8 ("Maximum function recursion depth (" ++ toString callLimit ++ ") reached"))
    modify fun m =>
      { m with arguments := args, loops := 0, locals := [], optionPlace := (1, 0)
               calls := m.calls + 1 }
    let leave : Act Unit := modify fun m =>
      { m.withVariables m.locals with
        arguments, loops, locals, optionPlace, calls := m.calls - 1 }
    match ← ((runCommand n body).andThen leave).outcome with
    | .ok () | .error .returned => return ()
    | .error flow => throw flow

/-- Runs something to the end of a shell, with what its trap does there; a signal may have ended it.
-/
def conclude : Nat → Act Unit → Act (Option Nat)
  | 0, _ => throw .stuck
  | n + 1, body => do
    let signal ←
      match ← body.outcome with
      | .error (.killed signal) => pure (some signal)
      | .error .stuck => throw .stuck
      | _ => do
        let m ← get
        match (m.traps.lookup 0).filter (!·.isEmpty) with
        | none => pure none
        | some action =>
          modify fun m => { m with traps := m.traps.filter (·.1 ≠ 0), tested := false }
          match ← (runText n (charsOf action)).outcome with
          | .ok _ => do
            Act.finish m.status
            pure none
          | .error (.killed signal) => pure (some signal)
          | .error .stuck => throw .stuck
          | .error _ => pure none
    modify fun m => m.ended (m.status % 256)
    return signal

/-- Runs something in a shell inside this one. -/
def runInside : Nat → Act Unit → Act Unit
  | 0, _ => throw .stuck
  | n + 1, body => do
    let kept := (← get).kept
    modify (·.copied)
    let signal ← conclude n body
    modify kept.resumed
    if let some signal := signal then tell signal

/-- Runs what is to be run when a signal arrives. -/
def deliver : Nat → Act Unit
  | 0 => throw .stuck
  | n + 1 => do
    let m ← get
    if m.depth = 0 then
      match m.arrived.find? (·.1 = m.process) with
      | none => return ()
      | some (process, signal) =>
        modify fun m => { m with arrived := m.arrived.erase (process, signal) }
        match (m.traps.lookup signal).filter fun _ => signal ≠ 9 with
        | none => if !Signal.harmless.contains signal then throw (.killed signal)
        | some action =>
          let tested := m.tested
          modify fun m => { m with tested := false }
          let _ ← runText n (charsOf action)
          modify fun m => { m.ended m.status with tested }
          Act.finish m.status
        deliver n

/-- Reads lines of a text and runs them; whether there was anything to run. -/
def runText : Nat → List Char → Act Bool
  | 0, _ => throw .stuck
  | n + 1, text => runLines n { text } false

/-- Runs the lines that remain of a text. -/
def runLines : Nat → Source → Bool → Act Bool
  | 0, _, _ => throw .stuck
  | n + 1, source, ran => do
    if source.text.isEmpty then return ran
    let m ← get
    let source := { source with
      aliases := m.aliases, documents := m.documents.length, bodies := [], pending := [] }
    match Reader.readLine.run source with
    | .error (e, line) =>
      modify fun m => { m with line }
      Act.fail (utf8 ("Syntax error: " ++ e.message))
    | .ok (command, source) =>
      modify fun m => { m with documents := source.bodies ++ m.documents }
      match command with
      | .sequence [] => runLines n source ran
      | command =>
        runCommand n command
        runLines n source true

/-- Runs the commands of a pipeline, the input of each being what the one before has written. -/
def runStages : Nat → List Command → Act Unit
  | 0, _ => throw .stuck
  | _, [] => return ()
  | n + 1, [last] => runInside n (runCommand n last)
  | n + 1, stage :: rest => do
    let m ← get
    let (before, streams) := (m.descriptors, m.streams.size)
    modify fun m =>
      let (m, index) := m.opened (.sink [])
      m.direct 1 (some index)
    match ← (runInside n (runCommand n stage)).outcome with
    | .ok () | .error .stuck => pure ()
    | .error flow => throw flow
    modify fun m =>
      let written := m.written streams
      let m := m.restored [1] before streams
      let (m, index) := m.opened (.source written none)
      m.direct 0 (some index)
    (runStages n rest).andThen (modify (·.restored [0] before streams))

/-- Runs the rounds of a loop; `status` is what the loop ends with unless its body is run once more.
-/
def runRounds : Nat → Bool → Command → Command → Nat → Act Unit
  | 0, _, _, _, _ => throw .stuck
  | n + 1, untilTrue, test, body, status => do
    let goesOn ← round (runTested n test)
    let m ← get
    if !goesOn ∨ (m.status = 0) = (untilTrue = true) then Act.finish status
    else
      let goesOn ← round (runCommand n body)
      if goesOn then runRounds n untilTrue test body (← get).status

/-- Runs a body for each of some values. -/
def runEach : Nat → String → List Bytes → Command → Act Unit
  | 0, _, _, _ => throw .stuck
  | _, _, [], _ => return ()
  | n + 1, name, value :: rest, body => do
    Act.assign (utf8 name) value
    let goesOn ← round (runCommand n body)
    if goesOn then runEach n name rest body

/-- Runs the first arm with a pattern that matches. -/
def runChoice : Nat → Bytes → List (List Word × Command) → Act Unit
  | 0, _, _ => throw .stuck
  | _, _, [] => Act.finish 0
  | n + 1, subject, (patterns, body) :: rest => do
    if ← anyMatches n subject patterns then
      match body with
      | .sequence [] => Act.finish 0
      | body => runCommand n body
    else runChoice n subject rest

/-- One of some patterns matches. -/
def anyMatches : Nat → Bytes → List Word → Act Bool
  | 0, _, _ => throw .stuck
  | _, _, [] => return false
  | n + 1, subject, pattern :: rest => do
    let field := WordPiece.asPattern (← expandWord n {} pattern)
    if field.pattern.matchesAll subject then return true else anyMatches n subject rest

/-- Runs a command whose failure is tested for. -/
def runTested : Nat → Command → Act Unit
  | 0, _ => throw .stuck
  | n + 1, command => do
    let tested := (← get).tested
    modify fun m => { m with tested := true }
    (runCommand n command).andThen (modify fun m => { m with tested })

/-- Runs a command. -/
def runCommand : Nat → Command → Act Unit
  | 0, _ => throw .stuck
  | n + 1, command => do
    if (← get).has 'n' then return ()
    match command with
    | .sequence commands => commands.forM (runCommand n)
    | .both first second =>
      runTested n first
      if (← get).status = 0 then runCommand n second
    | .either first second =>
      runTested n first
      if (← get).status ≠ 0 then runCommand n second
    | .negated command =>
      runTested n command
      modify fun m => m.ended (if m.status = 0 then 1 else 0)
    | .pipeline stages =>
      runStages n stages
      deliver n
      settle
    | .background command =>
      let before := (← get).descriptors
      let streams := (← get).streams.size
      modify fun m =>
        let (m, index) := m.opened .null
        m.direct 0 (some index)
      runInside n (runCommand n command)
      modify fun m =>
        let job := (m.process + 1 + m.jobs.length, m.status)
        ({ m.restored [0] before streams with jobs := job :: m.jobs }).ended 0
    | .redirected line body redirects =>
      modify fun m => { m with line }
      withTargets (← expandRedirects n redirects) false false (runCommand n body)
      settle
    | .subshell line body redirects =>
      modify fun m => { m with line }
      let targets ← expandRedirects n redirects
      runInside n (withTargets targets true true (runCommand n body))
      deliver n
      settle
    | .conditional test yes no =>
      runTested n test
      if (← get).status = 0 then runCommand n yes
      else
        match no with
        | .sequence [] => Act.finish 0
        | no => runCommand n no
    | .loop untilTrue test body => inLoop (runRounds n untilTrue test body 0)
    | .each line name words body =>
      modify fun m => { m with line }
      let values ←
        match words with
        | some words => List.flatten <$> words.mapM (expandFields n)
        | none => pure (← get).arguments
      if values.isEmpty then Act.finish 0 else inLoop (runEach n name values body)
    | .choice line subject arms =>
      modify fun m => { m with line }
      let subject ← expandText n false subject
      runChoice n subject arms
    | .define name body =>
      modify fun m =>
        let others := m.functions.filter (·.1 ≠ name)
        ({ m with functions := (name, body) :: others }).ended 0
    | .simple line assignments words redirects =>
      modify fun m => { m with line }
      runSimple n assignments words redirects
      deliver n

end

end Run

end ScriptWeave.Shell
