/-
# JSON values

The dynamic values that travel between a build and its compiler: options that the build does not
interpret, and source maps.  A number is a whole number, which stays exact, or a double.

The members of an object that was read stand in the order of their keys, each key once
(`Json.ofMembers`); the printer prints the members it is given, in the order given, so that an
object can also be written with named members first.
-/
import ScriptWeave.Number.Binary64
import ScriptWeave.SortedMap

namespace ScriptWeave

/-- A number: whole and exact, or a double. -/
inductive JsonNumber where
  | integer (n : Int)
  | double (x : Binary64)
  deriving DecidableEq, Inhabited

/-- A JSON value. -/
inductive Json where
  | null
  | bool (b : Bool)
  | number (n : JsonNumber)
  | string (s : String)
  | array (items : List Json)
  | object (members : List (String × Json))
  deriving Inhabited

namespace Json

/-- The object with these members, ordered by key; the last of several equal keys counts. -/
def ofMembers (members : List (String × Json)) : Json :=
  object (SortedMap.ofList members).entries

/-- A whole number. -/
def ofInt (n : Int) : Json := number (.integer n)

/-- The array of these texts. -/
def ofStrings (texts : List String) : Json := array (texts.map string)

/-- The member at a key of an object. -/
def member? (key : String) : Json → Option Json
  | object members => (members.find? (fun m => m.1 = key)).map (·.2)
  | _ => none

/-- The text, if the value is one. -/
def text? : Json → Option String
  | string s => some s
  | _ => none

/-- The items, if the value is an array. -/
def items? : Json → Option (List Json)
  | array items => some items
  | _ => none

/-- The value is `null`. -/
def isNull : Json → Bool
  | null => true
  | _ => false

end Json

end ScriptWeave
