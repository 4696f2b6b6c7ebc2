/-
# The arguments of the program

A command line names a command and sets switches:

    [switches] init
    [switches] build [--out DIRECTORY] [--watch]

`--path`, `--verbose` and `--no-color` may stand on either side of the command's name, and once on
each.  What stands behind it wins.  A switch has a long name, and most have a letter too.  Letters
may be written together, and the last of them may have its value right behind it: `-vp web`,
`-pweb`.

**Values are waited for.**  A switch whose value has not come is *pending*, and so is one with its
value until the next switch is met, or the end.  Only then is it looked at.  That decides which of
two faults is told: `--out --help` has no value for `--out`, but in `--out --nope` the unknown
switch comes first.

A word is the name of a command, unless a switch waits for a value.  Behind `--` nothing is a
switch or a command any more, and since no command takes plain arguments, nothing may stand there.

**Stated here.**  Declining an argument list is a success exactly if help or the version was
asked for (`exitCode_eq_zero_iff`).
-/

namespace ScriptWeave.CommandLine

/-! ## 1. Commands and switches -/

/-- A command. -/
inductive Command where
  | init
  | build (outDir : String) (watch : Bool)
  deriving DecidableEq

/-- What a command line asks for. -/
structure Invocation where
  command : Option Command
  /-- The root of the project, if it is not the current directory. -/
  path : Option String
  verbose : Bool
  noColour : Bool
  deriving DecidableEq

/-- Why the arguments start no command. -/
inductive Decline where
  | help
  | version
  | unknownArgument
  | unknownCommand
  /-- A switch has no value, or an empty one. -/
  | noValue
  /-- A switch that takes no value has one. -/
  | unwantedValue
  /-- A switch is set twice. -/
  | repeated
  deriving DecidableEq

/-- The status that the program ends with when it declines. -/
def Decline.exitCode : Decline → Nat
  | help | version => 0
  | _ => 2

/-- To ask for help or for the version is no fault. -/
theorem Decline.exitCode_eq_zero_iff (d : Decline) : d.exitCode = 0 ↔ d = help ∨ d = version := by
  cases d <;> simp [exitCode]

/-- A switch. -/
inductive Switch where
  | path
  | verbose
  | noColour
  | outDir
  | watch
  | help
  | version
  deriving DecidableEq

/-- The switch has a value. -/
def Switch.takesValue : Switch → Bool
  | path | outDir => true
  | _ => false

/-- The names that commands have; `help` is one of them. -/
inductive CommandName where
  | init
  | build
  | help
  deriving DecidableEq

/-- The command that a word names. -/
def commandName? : String → Option CommandName
  | "init" => some .init
  | "build" => some .build
  | "help" => some .help
  | _ => none

/-- Where a switch stands: before the name of the command, or behind it. -/
inductive Level where
  | top
  | behind (command : CommandName)
  deriving DecidableEq

namespace Level

/-- The switch with a long name. -/
def long? (level : Level) (name : String) : Option Switch :=
  match name, level with
  | "path", _ => some .path
  | "verbose", _ => some .verbose
  | "no-color", _ => some .noColour
  | "help", _ => some .help
  | "version", .top => some .version
  | "out", .behind .build => some .outDir
  | "watch", .behind .build => some .watch
  | _, _ => none

/-- The switch with a letter. -/
def short? (level : Level) (letter : Char) : Option Switch :=
  match letter, level with
  | 'p', _ => some .path
  | 'v', _ => some .verbose
  | 'h', _ => some .help
  | 'V', .top => some .version
  | 'o', .behind .build => some .outDir
  | _, _ => none

end Level

/-! ## 2. Setting switches -/

/-- The switches that are set. -/
structure Settings where
  path : Option String := none
  verbose : Bool := false
  noColour : Bool := false
  outDir : Option String := none
  watch : Bool := false

namespace Settings

/-- A value where there was none. -/
def fill (old : Option String) (value : String) : Except Decline (Option String) :=
  if old.isSome then .error .repeated
  else if value = "" then .error .noValue
  else .ok (some value)

/-- A truth where there was none. -/
def raise (old : Bool) : Except Decline Bool := if old then .error .repeated else .ok true

/-- Sets a switch, to a value if it takes one. -/
def set (settings : Settings) (switch : Switch) (value : String) : Except Decline Settings := do
  match switch with
  | .path => return { settings with path := ← fill settings.path value }
  | .outDir => return { settings with outDir := ← fill settings.outDir value }
  | .verbose => return { settings with verbose := ← raise settings.verbose }
  | .noColour => return { settings with noColour := ← raise settings.noColour }
  | .watch => return { settings with watch := ← raise settings.watch }
  | .help => .error .help
  | .version => .error .version

end Settings

/-- The switches that are set, and the one that is pending, perhaps with its value. -/
structure Reading where
  settings : Settings := {}
  pending : Option (Switch × Option String) := none

namespace Reading

/-- A switch waits for its value. -/
def awaits (r : Reading) : Bool :=
  match r.pending with
  | some (_, none) => true
  | _ => false

/-- The settings, the pending switch among them. -/
def settle (r : Reading) : Except Decline Settings :=
  match r.pending with
  | none => .ok r.settings
  | some (_, none) => .error .noValue
  | some (switch, some value) => r.settings.set switch value

/-- Meets a switch, perhaps with a value attached to it. -/
def meet (r : Reading) (switch : Switch) (attached : Option String) : Except Decline Reading := do
  let settings ← r.settle
  match attached, switch.takesValue with
  | none, true => return { settings, pending := some (switch, none) }
  | value, _ => return { settings := ← settings.set switch (value.getD "") }

/-- Meets a switch by its long name, and what follows an equals sign as its value. -/
def meetLong (r : Reading) (level : Level) (text : List Char) : Except Decline Reading :=
  let name := text.takeWhile (· ≠ '=')
  let attached := (text.dropWhile (· ≠ '=')).tail?.map String.ofList
  match level.long? (String.ofList name) with
  | none => .error .unknownArgument
  | some switch =>
    if attached.isSome && !switch.takesValue then .error .unwantedValue
    else r.meet switch attached

/-- The value right behind the letter of a switch. -/
def valueBehind : List Char → Option String
  | [] => none
  | '=' :: value => some (String.ofList value)
  | value => some (String.ofList value)

/-- Meets switches by their letters. -/
def meetLetters (r : Reading) (level : Level) : List Char → Except Decline Reading
  | [] => .ok r
  | letter :: rest =>
    match level.short? letter with
    | none => .error .unknownArgument
    | some switch =>
      if switch.takesValue then r.meet switch (valueBehind rest)
      else
        match r.meet switch none with
        | .ok r => meetLetters r level rest
        | .error d => .error d

end Reading

/-! ## 3. Reading arguments -/

/-- Where reading one level stopped: at the end, or at the name of a command with what follows it.
-/
structure Stop where
  reading : Reading
  command : Option (CommandName × List String) := none

/-- The command that a word names at a level. -/
def Level.command? (level : Level) (word : String) : Option CommandName :=
  if level = .top then commandName? word else none

/-- What is wrong with a word that stands where none may stand. -/
def strayWord (level : Level) (afterDashes : Bool) (word : String) : Decline :=
  if level = .top && !(afterDashes && (commandName? word).isSome) then .unknownCommand
  else .unknownArgument

/-- Reads the arguments of one level. -/
def readLevel (level : Level) : Reading → List String → Except Decline Stop
  | r, [] => .ok { reading := r }
  | r, word :: rest =>
    match if r.awaits then none else level.command? word with
    | some name => .ok { reading := r, command := some (name, rest) }
    | none =>
      match word.toList with
      | ['-', '-'] =>
        match rest with
        | [] => .ok { reading := r }
        | stray :: _ => .error (strayWord level true stray)
      | '-' :: '-' :: text => do readLevel level (← r.meetLong level text) rest
      | '-' :: letter :: letters => do
        readLevel level (← r.meetLetters level (letter :: letters)) rest
      | _ =>
        match r.pending with
        | some (switch, none) => readLevel level { r with pending := some (switch, some word) } rest
        | _ => .error (strayWord level false word)

/-- What asking for help on some words comes to. -/
def helpOn : List String → Decline
  | [] => .help
  | [word] => if (commandName? word).isSome then .help else .unknownCommand
  | _ => .unknownCommand

/-- What the settings of both levels come to. -/
def combine (top below : Settings) (command : Option Command) : Invocation where
  command := command
  path := below.path.or top.path
  verbose := top.verbose || below.verbose
  noColour := top.noColour || below.noColour

/-- The directory that a build writes to unless it is told another one. -/
def defaultOutDir : String := "dist"

/-- What the arguments of the program ask for. -/
def Invocation.read (args : List String) : Except Decline Invocation := do
  let top ← readLevel .top {} args
  match top.command with
  | none => return combine (← top.reading.settle) {} none
  | some (.help, words) => .error (helpOn words)
  | some (name, rest) =>
    let below ← readLevel (.behind name) {} rest
    let below ← below.reading.settle
    let top ← top.reading.settle
    let command : Command :=
      if name = .init then .init else .build (below.outDir.getD defaultOutDir) below.watch
    return combine top below (some command)

end ScriptWeave.CommandLine
