/-
# Redirections

A redirection makes a descriptor stand for something else: a file that is opened for it, what
another descriptor stands for, a text, or nothing.  Redirections are made one after another, so that
a later one sees what the ones before have done.

A file that is opened to be written is made if it is missing and emptied otherwise, unless what is
written is put behind what is there.  The devices under `/dev` are other names of descriptors.
-/
import ScriptWeave.Shell.Machine

namespace ScriptWeave.Shell

/-- What a descriptor is to stand for. -/
inductive Target where
  | file (kind : OpenKind) (name : Bytes)
  /-- What another descriptor stands for, or nothing. -/
  | same (descriptor : Option Nat)
  | text (bytes : Bytes)

namespace Machine

/-- What is complained of a file that cannot be opened. -/
def cannotOpen (isMade : Bool) (name : Bytes) (e : StorageError) : Bytes :=
  let missing := if isMade then "Directory nonexistent" else "No such file"
  let reason :=
    match e with
    | .notFound | .notADirectory => missing
    | .alreadyExists => "File exists"
    | e => Program.reasonOf e
  utf8 (if isMade then "cannot create " else "cannot open ") ++ name ++ utf8 (": " ++ reason)

/-- Opens a file to be read. -/
def openToRead (m : Machine) (path : String) : Except StorageError (Machine × Nat) := do
  match ← m.tree.lookUp path with
  | (place, .file (.bytes content)) => return m.opened (.source content.toList (some place))
  | (_, .file (.barred cause)) => .error cause
  | _ => return m.opened .directory

/-- The shell after a file has been emptied: those who were still reading it find its end. -/
def emptied (m : Machine) (place : Location) : Machine :=
  { m with
    tree := m.tree.putFile place ByteArray.empty
    streams := m.streams.map fun
      | .source rest (some other) => .source (if other = place then [] else rest) (some other)
      | other => other }

/-- Opens a file to be written. -/
def openToWrite (m : Machine) (kind : OpenKind) (path : String) :
    Except StorageError (Machine × Nat) := do
  let place ← m.tree.placeToWrite path
  let isThere := (m.tree.node? place).isSome
  if kind = .write ∧ isThere ∧ m.has 'C' then .error .alreadyExists
  else
    match m.tree.barrier? place with
    | some cause => .error cause
    | none =>
      let keeps := isThere && (kind = .append || kind = .readWrite)
      let m := if keeps then m else m.emptied place
      return m.opened (.file place 0 (kind = .append))

/-- Opens what has a name. -/
def openNamed (m : Machine) (kind : OpenKind) (name : Bytes) :
    Except StorageError (Machine × Nat) :=
  if name.isEmpty then .error .notFound
  else
    let path := m.path name
    match deviceAt? path with
    | some none => .ok (m.opened .null)
    | some (some descriptor) =>
      match m.descriptors.lookup descriptor with
      | some index => .ok (m, index)
      | none => .error .notFound
    | none => if kind = .read then m.openToRead path else m.openToWrite kind path

/-- The shell with a descriptor standing for something else; or what is wrong with that. -/
def redirect (m : Machine) (descriptor : Nat) : Target → Except Bytes Machine
  | .file kind name =>
    match m.openNamed kind name with
    | .ok (m, index) => .ok (m.direct descriptor (some index))
    | .error e => .error (cannotOpen (kind ≠ .read) name e)
  | .same none => .ok (m.direct descriptor none)
  | .same (some other) =>
    if other = descriptor then .ok m
    else
      match m.descriptors.lookup other with
      | some index => .ok (m.direct descriptor (some index))
      | none => .error (decimal other ++ utf8 ": Bad file descriptor")
  | .text bytes =>
    let (m, index) := m.opened (.source bytes none)
    .ok (m.direct descriptor (some index))

/-- The shell after redirections, or after those before one that is impossible; and what is wrong
with that one. -/
def redirectAll (m : Machine) : List (Nat × Target) → Machine × Option Bytes
  | [] => (m, none)
  | (descriptor, target) :: rest =>
    match m.redirect descriptor target with
    | .ok m => m.redirectAll rest
    | .error text => (m, some text)

end Machine

end ScriptWeave.Shell
