/-
# The state of a shell

A running shell has variables, functions, options and traps, a directory it is in, and the files it
can see.  Everything it reads from or writes to is a *stream*, and a table says which stream a
descriptor stands for, so that several descriptors can share one.

A shell inside another one, in parentheses or in a substitution, begins as a copy.  Afterwards the
outer shell goes on as it was, except for the files and the streams.
-/
import ScriptWeave.FileTree.Operations
import ScriptWeave.Shell.Program.Basic
import ScriptWeave.Shell.Syntax

namespace ScriptWeave.Shell

/-! ## 1. The parts of a shell -/

/-- What a descriptor can stand for. -/
inductive Stream where
  /-- What is still to be read, and the file it comes from, if it is one. -/
  | source (rest : Bytes) (file? : Option Location)
  /-- What has been written, the latest first. -/
  | sink (written : List Bytes)
  /-- A file that is written from some byte on, or always at its end. -/
  | file (place : Location) (offset : Nat) (appends : Bool)
  /-- A directory, which cannot be read like a file. -/
  | directory
  | null

/-- A variable; it may be known without having a value. -/
structure Variable where
  value : Option Bytes := none
  /-- It is handed on to the programs that are run. -/
  exported : Bool := false
  readOnly : Bool := false

/-- How what is being run ends early. -/
inductive Flow where
  | leaveLoop (levels : Nat)
  | nextRound (levels : Nat)
  /-- The function ends, or what is run in the place of a command. -/
  | returned
  /-- A complaint that ends the shell, unless what caused it is one of its minor commands. -/
  | failed
  | exited
  /-- The process is ended by a signal. -/
  | killed (signal : Nat)
  /-- No steps are left. -/
  | stuck
  deriving DecidableEq

/-- A running shell. -/
structure Machine where
  /-- The name the shell was started by. -/
  name : Bytes
  /-- The number of its process, and of the processes it is inside of. -/
  process : Nat := 4096
  outer : List Nat := []
  /-- How many shells that go by the same number this one is inside of. -/
  depth : Nat := 0
  arguments : List Bytes := []
  values : List (String × Variable)
  functions : List (String × Command) := []
  /-- The words that stand for other text at the front of a command. -/
  aliases : List (String × List Char) := []
  /-- The letters of the options that are on. -/
  options : List Char := []
  /-- What is run when a signal arrives, or at the end, which has the number zero. -/
  traps : List (Nat × Bytes) := []
  /-- The signals that have arrived: to which process, and which. -/
  arrived : List (Nat × Nat) := []
  /-- What is being run is tested, so that its failure does not end the shell. -/
  tested : Bool := false
  directory : Location
  /-- The path by which the shell came to its directory. -/
  shown : String := FileTree.pathTo directory
  tree : FileTree
  streams : Array Stream
  descriptors : List (Nat × Nat) := [(0, 0), (1, 1), (2, 2)]
  status : Nat := 0
  /-- The status of the last command that was substituted. -/
  substituted : Nat := 0
  /-- The line that is being run. -/
  line : Nat := 1
  /-- The command of the shell that is being run. -/
  running : Option Bytes := none
  /-- The texts of the here-documents that have been read. -/
  documents : List (Nat × Word) := []
  /-- How many loops are around what is being run. -/
  loops : Nat := 0
  /-- How many functions are. -/
  calls : Nat := 0
  /-- The variables that the function has made its own, with what they were before. -/
  locals : List (String × Option Variable) := []
  /-- How far the options among the arguments have been read: the argument, and the letter in it. -/
  optionPlace : Nat × Nat := (1, 0)
  /-- The commands that were run beside the shell: their process and status. -/
  jobs : List (Nat × Nat) := []
  /-- The programs that have been found. -/
  located : List (String × Bytes) := []
  /-- The permissions that new files are not given. -/
  mask : Nat := 0o22

namespace Machine

/-- The shell with the status of what was run last. -/
def ended (m : Machine) (status : Nat) : Machine := { m with status }

/-- An option is on. -/
def has (m : Machine) (option : Char) : Bool := m.options.contains option

/-- The shell with an option on or off. -/
def switch (m : Machine) (option : Char) (on : Bool) : Machine :=
  let others := m.options.filter (· ≠ option)
  { m with options := if on then option :: others else others }

/-! ## 2. Streams -/

/-- The stream that a descriptor stands for, and its number. -/
def streamOf? (m : Machine) (descriptor : Nat) : Option (Nat × Stream) := do
  let index ← m.descriptors.lookup descriptor
  let stream ← m.streams[index]?
  return (index, stream)

/-- The shell with a descriptor standing for a stream, or for none. -/
def direct (m : Machine) (descriptor : Nat) (index : Option Nat) : Machine :=
  let others := m.descriptors.filter (·.1 ≠ descriptor)
  { m with descriptors := (index.map (descriptor, ·)).toList ++ others }

/-- The shell with one more stream, and its number. -/
def opened (m : Machine) (stream : Stream) : Machine × Nat :=
  ({ m with streams := m.streams.push stream }, m.streams.size)

/-- The content of a file that has been opened. -/
def contentAt (tree : FileTree) (place : Location) : ByteArray :=
  match tree.node? place with
  | some (.file (.bytes content)) => content
  | _ => ByteArray.empty

/-- A content with bytes written into it from an offset on; a gap is filled with zeros. -/
def overwritten (old : ByteArray) (offset : Nat) (bytes : Bytes) : ByteArray :=
  let new := ByteArray.mk bytes.toArray
  if old.size = offset then old ++ new
  else
    let gap := ByteArray.mk (List.replicate (offset - old.size) 0).toArray
    old.extract 0 offset ++ gap ++ new ++ old.extract (offset + bytes.length) old.size

/-- Writes bytes to a stream; none if it cannot be written to. -/
def writeTo? (m : Machine) (index : Nat) (bytes : Bytes) : Option Machine :=
  match m.streams[index]? with
  | some (.sink _) =>
    some { m with
      streams := m.streams.modify index fun
        | .sink written => .sink (bytes :: written)
        | other => other }
  | some (.file place offset appends) =>
    let old := contentAt m.tree place
    let offset := if appends then old.size else offset
    some { m with
      tree := m.tree.putFile place (overwritten old offset bytes)
      streams := m.streams.set! index (.file place (offset + bytes.length) appends) }
  | some .null => some m
  | _ => none

/-- Writes bytes to a descriptor; none if that is not possible. -/
def write? (m : Machine) (descriptor : Nat) (bytes : Bytes) : Option Machine := do
  let index ← m.descriptors.lookup descriptor
  m.writeTo? index bytes

/-- Writes bytes to a descriptor, if that is possible. -/
def put (m : Machine) (descriptor : Nat) (bytes : Bytes) : Machine :=
  if bytes.isEmpty then m else (m.write? descriptor bytes).getD m

/-- What has been written to a stream. -/
def written (m : Machine) (index : Nat) : Bytes :=
  match m.streams[index]? with
  | some (.sink written) => written.reverse.flatten
  | _ => []

/-- What can still be read from a descriptor; or why nothing can. -/
def readable (m : Machine) (descriptor : Nat) : Except ReadFault Bytes :=
  match m.streamOf? descriptor with
  | some (_, .source rest _) => .ok rest
  | some (_, .file place offset _) => .ok ((contentAt m.tree place).toList.drop offset)
  | some (_, .directory) => .error (.storage .isADirectory)
  | some (_, .null) => .ok []
  | some (_, .sink _) | none => .error .closed

/-- The shell with less left to be read from a descriptor. -/
def leave (m : Machine) (descriptor : Nat) (rest : Bytes) : Machine :=
  match m.streamOf? descriptor with
  | some (index, .source _ file?) =>
    { m with streams := m.streams.set! index (.source rest file?) }
  | some (index, .file place _ appends) =>
    let offset := (contentAt m.tree place).size - rest.length
    { m with streams := m.streams.set! index (.file place offset appends) }
  | _ => m

/-- What comes in by a descriptor. -/
def inputOf (m : Machine) (descriptor : Nat) : Input where
  content := m.readable descriptor
  size? :=
    match m.streamOf? descriptor with
    | some (_, .source _ (some place)) | some (_, .file place _ _) =>
      some (contentAt m.tree place).size
    | _ => none

/-- The shell with some descriptors as they were; streams that were opened since then, and that no
descriptor stands for any more, are given up. -/
def restored (m : Machine) (changed : List Nat) (before : List (Nat × Nat)) (streams : Nat) :
    Machine :=
  let isChanged (d : Nat × Nat) : Bool := changed.contains d.1
  let descriptors := before.filter isChanged ++ m.descriptors.filter (!isChanged ·)
  { m with
    descriptors
    streams := if descriptors.all (·.2 < streams) then m.streams.shrink streams else m.streams }

/-! ## 3. Complaints -/

/-- What a complaint of the shell begins with. -/
def complaintPlace (m : Machine) : Bytes :=
  m.name ++ utf8 (": " ++ toString m.line ++ ": ")
    ++ (m.running.map (· ++ utf8 ": ")).getD []

/-- Complains of something. -/
def warn (m : Machine) (text : Bytes) : Machine :=
  m.put 2 (m.complaintPlace ++ text ++ [0x0A])

/-! ## 4. Variables -/

/-- A variable that is known. -/
def entryOf? (m : Machine) (name : String) : Option Variable := m.values.lookup name

/-- The value of a variable. -/
def valueOf? (m : Machine) (name : String) : Option Bytes := (m.entryOf? name).bind (·.value)

/-- The shell with another variable of a name, or with none. -/
def setVariable (m : Machine) (name : String) (v : Option Variable) : Machine :=
  let others := m.values.filter (·.1 ≠ name)
  { m with values := (v.map (name, ·)).toList ++ others }

/-- What is complained of about a variable that cannot be changed. -/
def readOnlyText (name : String) : Bytes := utf8 (name ++ ": is read only")

/-- The shell with a variable set; or what is wrong with that. -/
def assign (m : Machine) (name : String) (value : Bytes) : Except Bytes Machine :=
  let old := (m.entryOf? name).getD {}
  if old.readOnly then .error (readOnlyText name)
  else
    let m := if name = "OPTIND" then { m with optionPlace := ((number? value).getD 1, 0) } else m
    let m := if name = "PATH" then { m with located := [] } else m
    .ok (m.setVariable name
      (some { old with value := some value, exported := old.exported || m.has 'a' }))

/-- The shell without a variable; or what is wrong with that. -/
def unassign (m : Machine) (name : String) : Except Bytes Machine :=
  if ((m.entryOf? name).getD {}).readOnly then .error (readOnlyText name)
  else
    let m := if name = "PATH" then { m with located := [] } else m
    .ok (m.setVariable name none)

/-- The shell in which a function has made a variable its own, if it has not yet. -/
def makeLocal (m : Machine) (name : String) : Machine :=
  if m.locals.any (·.1 = name) then m
  else { m with locals := (name, m.entryOf? name) :: m.locals }

/-- The shell with some variables as they were before. -/
def withVariables (m : Machine) (before : List (String × Option Variable)) : Machine :=
  before.foldl (fun m (name, v) => m.setVariable name v) m

/-- The letters of the options, in the order in which they are shown. -/
def optionLetters : List Char :=
  ['p', 'u', 'b', 'a', 'C', 'E', 'V', 'v', 'x', 's', 'n', 'm', 'i', 'I', 'f', 'e']

/-- The value of a parameter: a variable, an argument, or one of the shell's own. -/
def parameter? (m : Machine) (name : String) : Option Bytes :=
  match name with
  | "?" => some (decimal m.status)
  | "$" => some (decimal m.process)
  | "#" => some (decimal m.arguments.length)
  | "0" => some m.name
  | "-" => some (bytesOf (optionLetters.filter m.has))
  | "!" => m.jobs.head?.map fun job => decimal job.1
  | name =>
    match number? (utf8 name) with
    | some n => m.arguments[n - 1]?
    | none => m.valueOf? name

/-- What separates fields. -/
def separators (m : Machine) : Bytes :=
  match m.entryOf? "IFS" with
  | some v => v.value.getD [0x20, 0x09, 0x0A]
  | none => [0x20, 0x09, 0x0A]

/-! ## 5. Files -/

/-- A path that a command names, seen from the top. -/
def path (m : Machine) (name : Bytes) : String :=
  FilePath.join (FileTree.pathTo m.directory) (textOf name)

/-- The descriptor that a path of a device means, and the device that takes and gives nothing. -/
def deviceAt? (path : String) : Option (Option Nat) :=
  match path with
  | "/dev/null" => some none
  | "/dev/stdin" => some (some 0)
  | "/dev/stdout" => some (some 1)
  | "/dev/stderr" => some (some 2)
  | path =>
    match path.toList with
    | '/' :: 'd' :: 'e' :: 'v' :: '/' :: 'f' :: 'd' :: '/' :: digits =>
      (number? (bytesOf digits)).map some
    | _ => none

/-- Reads a file by name. -/
def readFile (m : Machine) : ReadFile := fun name =>
  if name.isEmpty then .error (.storage .notFound)
  else
    match deviceAt? (m.path name) with
    | some none => .ok []
    | some (some descriptor) =>
      if (m.streamOf? descriptor).isSome then m.readable descriptor else .error (.storage .notFound)
    | none =>
      match m.tree.read (m.path name) with
      | .ok content => .ok content.toList
      | .error e => .error (.storage e)

/-- What a name leads to, or else the input, is the file that is being written to, and not all of it
has been read; so that reading it might never end. -/
def isOutput (m : Machine) (name : Option Bytes) : Bool :=
  match m.streamOf? 1 with
  | some (_, .file place _ _) =>
    let size := (contentAt m.tree place).size
    match name with
    | some name =>
      match m.tree.canonical (m.path name) with
      | .ok other => other = place && 0 < size
      | .error _ => false
    | none =>
      match m.streamOf? 0 with
      | some (_, .source rest (some other)) => other = place && !rest.isEmpty
      | some (_, .file other offset _) => other = place && offset < size
      | _ => false
  | _ => false

/-- The names of the files below a directory, in order, which begin with the name of the directory;
none if it is not one.  Links lead to files only if they are followed. -/
def filesBelow (m : Machine) (followed : Bool) (name : Bytes) : Option (List Bytes) :=
  match m.tree.lookUp (m.path name) with
  | .ok (place, .directory) =>
    let front := if name.getLast? = some 0x2F then name else name ++ [0x2F]
    some ((m.tree.nodesBelow place).filterMap fun (below, node) =>
      let path := front ++ utf8 (String.intercalate "/" below)
      match node with
      | .file _ => some path
      | .link _ => if followed && m.tree.isFile (m.path path) then some path else none
      | .directory => none)
  | _ => none

/-- The node that a name leads to; devices are files. -/
def nodeAt (m : Machine) (name : Bytes) : Except StorageError Node :=
  if name.isEmpty then .error .notFound
  else if (deviceAt? (m.path name)).isSome then .ok (.file ByteArray.empty)
  else m.tree.nodeAt (m.path name)

/-- The directories in which programs are kept. -/
def programDirectories : List String := ["/usr/bin/", "/bin/"]

/-- Where programs are looked for if nothing else is said. -/
def standardPath : Bytes := utf8 "/usr/local/sbin:/usr/local/bin:/usr/sbin:/usr/bin:/sbin:/bin"

/-- The programs that there are. -/
def programNames : List String :=
  ["sh", "dash", "cat", "tr", "wc", "head", "tail", "grep", "egrep", "fgrep", "ls", "kill", "echo",
    "printf", "pwd", "test", "[", "true", "false", "sleep"]

/-- The program that is kept at a path. -/
def programAt? (path : String) : Option String :=
  programDirectories.findSome? fun d =>
    programNames.find? fun name => decide (d ++ name = path)

/-- The shell after a program has been run in it; `unwritable` is what becomes of the shell if the
program cannot write its output. -/
def took (m : Machine) (unwritable : Machine → Machine) (ran : Ran) : Machine :=
  let m := (ran.left.map (m.leave 0)).getD m
  ran.pieces.foldl (fun m piece =>
    match piece with
    | .output [] => m
    | .output bytes => (m.write? 1 bytes).getD ((unwritable m).ended 1)
    | .error bytes => m.put 2 bytes) (m.ended ran.status)

end Machine

end ScriptWeave.Shell
