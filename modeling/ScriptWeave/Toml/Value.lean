/-
# TOML values and tables

A configuration file is a tree of tables.  While the file is being read a table remembers how it
came about, because that decides who may still add to it:

* a table that a **header** opened takes the entries under that header and nothing else;
* a table that a header only **passed** through may still get a header of its own, once, and may be
  extended by dotted keys;
* a table that **dotted** keys made may be extended by further dotted keys;
* a table in **braces** is closed.

An array of tables is its own kind of value: a header in double brackets adds an element, and every
path through it means its last element.  Dotted keys add no entry to an element itself, only to
tables in it.

A number may be too large for every reader.  It is a value all the same, and only a reader that
wants it finds out (`toJson?`, `isSkippable`).

**The two kinds of entry.**  `putDotted` enters a value under a dotted key, and `openTable` and
`openElement` follow headers; each refuses what the rules above forbid.  All three walk a path
of keys and are defined by recursion on it.
-/
import ScriptWeave.Json.Basic

namespace ScriptWeave

/-- How a table came about. -/
inductive TableOrigin where
  | header
  | passed
  | dotted
  | braces
  deriving DecidableEq

/-- A TOML value. -/
inductive Toml where
  | string (s : String)
  | integer (n : Int)
  | float (x : Binary64)
  /-- A float that is larger than every double, or less than every double. -/
  | overflow
  | bool (b : Bool)
  /-- A date, a time or both, in its normal form. -/
  | datetime (text : String)
  | array (items : List Toml)
  | table (origin : TableOrigin) (entries : List (String × Toml))
  | tables (elements : List (List (String × Toml)))
  deriving Inhabited

namespace Toml

/-- The entries of a table, in the order they were made. -/
abbrev Entries := List (String × Toml)

/-! ## 1. Paths into tables -/

/-- The value at a key. -/
def lookup (key : String) (entries : Entries) : Option Toml :=
  (entries.find? (fun e => e.1 = key)).map (·.2)

/-- The entries with the value at a key replaced, or put at the end if the key is new. -/
def put (key : String) (value : Toml) (entries : Entries) : Entries :=
  if entries.any (fun e => e.1 = key) then
    entries.map fun e => if e.1 = key then (key, value) else e
  else entries ++ [(key, value)]

/-- The list with its last element replaced by what `f` makes of it. -/
def modifyLast {α : Type} (f : α → Option α) : List α → Option (List α)
  | [] => none
  | [x] => (f x).map ([·])
  | x :: xs => (modifyLast f xs).map (x :: ·)

/-- Enters a value under a dotted key. -/
def putDotted (value : Toml) : List String → Entries → Option Entries
  | [], _ => none
  | [key], entries =>
    match lookup key entries with
    | none => some (put key value entries)
    | some _ => none
  | key :: path, entries =>
    match lookup key entries with
    | none =>
      (putDotted value path []).map fun inner => put key (table .dotted inner) entries
    | some (table .dotted inner) =>
      (putDotted value path inner).map fun inner => put key (table .dotted inner) entries
    | some (table .passed inner) =>
      (putDotted value path inner).map fun inner => put key (table .passed inner) entries
    | some (tables elements) =>
      if path.length = 1 then none
      else
        (modifyLast (putDotted value path) elements).map fun elements =>
          put key (tables elements) entries
    | some _ => none

/-- Opens the table of a header. -/
def openTable : List String → Entries → Option Entries
  | [], _ => none
  | [key], entries =>
    match lookup key entries with
    | none => some (put key (table .header []) entries)
    | some (table .passed inner) => some (put key (table .header inner) entries)
    | some _ => none
  | key :: path, entries =>
    match lookup key entries with
    | none => (openTable path []).map fun inner => put key (table .passed inner) entries
    | some (table .braces _) => none
    | some (table origin inner) =>
      (openTable path inner).map fun inner => put key (table origin inner) entries
    | some (tables elements) =>
      (modifyLast (openTable path) elements).map fun elements => put key (tables elements) entries
    | some _ => none

/-- Opens a new element of the array of tables of a header. -/
def openElement : List String → Entries → Option Entries
  | [], _ => none
  | [key], entries =>
    match lookup key entries with
    | none => some (put key (tables [[]]) entries)
    | some (tables elements) => some (put key (tables (elements ++ [[]])) entries)
    | some _ => none
  | key :: path, entries =>
    match lookup key entries with
    | none => (openElement path []).map fun inner => put key (table .passed inner) entries
    | some (table .braces _) => none
    | some (table origin inner) =>
      (openElement path inner).map fun inner => put key (table origin inner) entries
    | some (tables elements) =>
      (modifyLast (openElement path) elements).map fun elements => put key (tables elements) entries
    | some _ => none

/-- Changes the table that a header has opened. -/
def within (change : Entries → Option Entries) : List String → Entries → Option Entries
  | [], entries => change entries
  | key :: path, entries =>
    match lookup key entries with
    | some (table origin inner) =>
      (within change path inner).map fun inner => put key (table origin inner) entries
    | some (tables elements) =>
      (modifyLast (within change path) elements).map fun elements =>
        put key (tables elements) entries
    | _ => none

/-! ## 2. The same value as JSON -/

/-- The key under which a date or time stands in JSON. -/
def datetimeKey : String := "$__toml_private_datetime"

/-- A whole number that JSON takes: of 64 bits, signed or unsigned. -/
def fitsJson (n : Int) : Bool := -Int.pow 2 63 ≤ n && n < Int.pow 2 64

/-- A whole number that a reader passes by: of 128 bits, signed or unsigned. -/
def fitsSkipped (n : Int) : Bool := -Int.pow 2 127 ≤ n && n < Int.pow 2 128

mutual

/-- The value as JSON, if its numbers fit.  A float that is no finite number stays a number that is
none, and is written as `null`. -/
def toJson? : Toml → Option Json
  | string s => some (.string s)
  | integer n => if fitsJson n then some (.number (.integer n)) else none
  | float x => some (.number (.double x))
  | overflow => none
  | bool b => some (.bool b)
  | datetime text => some (.object [(datetimeKey, .string text)])
  | array items => (toJsonItems? items).map .array
  | table _ entries => (toJsonEntries? entries).map .ofMembers
  | tables elements => (toJsonElements? elements).map .array

/-- The items of an array as JSON. -/
def toJsonItems? : List Toml → Option (List Json)
  | [] => some []
  | v :: vs => do return (← toJson? v) :: (← toJsonItems? vs)

/-- The entries of a table as JSON. -/
def toJsonEntries? : List (String × Toml) → Option (List (String × Json))
  | [] => some []
  | (k, v) :: es => do return (k, ← toJson? v) :: (← toJsonEntries? es)

/-- The elements of an array of tables as JSON. -/
def toJsonElements? : List (List (String × Toml)) → Option (List Json)
  | [] => some []
  | es :: ess => do return .ofMembers (← toJsonEntries? es) :: (← toJsonElements? ess)

end

mutual

/-- The value can be passed by: its numbers are not too large for that. -/
def isSkippable : Toml → Bool
  | integer n => fitsSkipped n
  | overflow => false
  | array items => areSkippableItems items
  | table _ entries => areSkippableEntries entries
  | tables elements => areSkippableElements elements
  | _ => true

/-- The items of an array can be passed by. -/
def areSkippableItems : List Toml → Bool
  | [] => true
  | v :: vs => isSkippable v && areSkippableItems vs

/-- The entries of a table can be passed by. -/
def areSkippableEntries : List (String × Toml) → Bool
  | [] => true
  | (_, v) :: es => isSkippable v && areSkippableEntries es

/-- The elements of an array of tables can be passed by. -/
def areSkippableElements : List (List (String × Toml)) → Bool
  | [] => true
  | es :: ess => areSkippableEntries es && areSkippableElements ess

end

/-! ## 3. Parts of a value -/

/-- The text that the value is. -/
def text? : Toml → Option String
  | string s => some s
  | _ => none

/-- The texts of an array of texts. -/
def texts? : Toml → Option (List String)
  | array items => items.mapM text?
  | _ => none

end Toml

end ScriptWeave
