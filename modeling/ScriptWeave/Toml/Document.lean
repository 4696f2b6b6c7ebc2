/-
# Reading a TOML document

A document is a row of lines; a line holds an entry, a header, or nothing.  The reader keeps the
tables made so far and the path of the header that is open, and enters each value there.

Arrays and tables in braces may be spread over lines, with comments, and may have a comma before
the closing bracket.  They nest at most `depthLimit` deep, which is what the recursion is on.
-/
import ScriptWeave.Toml.Scalar

namespace ScriptWeave.Toml

/-- How deep brackets may nest. -/
def depthLimit : Nat := 80

/-! ## 1. Values -/

/-- Reads items separated by commas up to a closing bracket, given enough steps. -/
def readItems {α : Type} (item : List Char → Option (α × List Char)) (close : Char) :
    Nat → List Char → Option (List α × List Char)
  | 0, _ => none
  | n + 1, s =>
    match skipSpace s with
    | [] => none
    | c :: rest =>
      if c = close then some ([], rest)
      else do
        let (v, s) ← item (c :: rest)
        match skipSpace s with
        | ',' :: s =>
          let (vs, s) ← readItems item close n s
          return (v :: vs, s)
        | d :: s => if d = close then return ([v], s) else none
        | [] => none

/-- Reads a key, an equals sign and a value. -/
def readEntry (value : List Char → Option (Toml × List Char)) (s : List Char) :
    Option ((List String × Toml) × List Char) := do
  let (path, rest) ← readKey s
  let (v, rest) ← value (skipBlanks (← expect '=' rest))
  return ((path, v), rest)

/-- The table of the entries between braces. -/
def ofEntries? (entries : List (List String × Toml)) : Option Toml :=
  (entries.foldlM (fun table e => putDotted e.2 e.1 table) []).map (table .braces)

/-- Reads a value in which brackets nest at most `depth` deep. -/
def readValue (depth : Nat) (s : List Char) : Option (Toml × List Char) :=
  match depth, s with
  | depth + 1, '[' :: rest =>
    (readItems (readValue depth) ']' (rest.length + 1) rest).map fun (vs, rest) => (array vs, rest)
  | depth + 1, '\x7b' :: rest => do
    let (entries, rest) ← readItems (readEntry (readValue depth)) '\x7d' (rest.length + 1) rest
    return (← ofEntries? entries, rest)
  | _, s =>
    match s with
    | '"' :: _ => (readText s).map fun (t, rest) => (string t, rest)
    | '\'' :: _ => (readText s).map fun (t, rest) => (string t, rest)
    | s =>
      let (run, rest) := spanRun s
      (ofRun? run).map fun v => (v, rest)

/-! ## 2. Lines -/

/-- The tables made so far, and the path of the header that is open. -/
structure Progress where
  root : Entries
  path : List String

/-- Reads a header behind its bracket. -/
def readHeader (p : Progress) : List Char → Option (Progress × List Char)
  | '[' :: s => do
    let (path, rest) ← readKey s
    let rest ← expect ']' (← expect ']' rest)
    return (⟨← openElement path p.root, path⟩, rest)
  | s => do
    let (path, rest) ← readKey s
    let rest ← expect ']' rest
    return (⟨← openTable path p.root, path⟩, rest)

/-- Reads an entry of the table that is open. -/
def readLineEntry (p : Progress) (s : List Char) : Option (Progress × List Char) := do
  let ((path, v), rest) ← readEntry (readValue depthLimit) s
  return (⟨← within (putDotted v path) p.path p.root, p.path⟩, rest)

/-- Reads line after line, given enough steps. -/
def readLines : Nat → Progress → List Char → Option Entries
  | 0, _, _ => none
  | n + 1, p, s =>
    match skipSpace s with
    | [] => some p.root
    | '[' :: s => do
      let (p, rest) ← readHeader p s
      readLines n p (← endLine? rest)
    | s => do
      let (p, rest) ← readLineEntry p s
      readLines n p (← endLine? rest)

/-- The table that a document writes, if it writes one.  A byte order mark at its front is
dropped. -/
def read? (document : String) : Option Entries :=
  let s := match document.toList with
    | '\uFEFF' :: rest => rest
    | s => s
  readLines (s.length + 1) ⟨[], []⟩ s

end ScriptWeave.Toml
