/-
# Reading JSON

From tokens to a value, by the strict grammar: no comma before a closing bracket, and nothing after
the value.  Brackets nest at most `depthLimit` deep.  Of several members with the same key
the last one counts, and the members of an object are kept in the order of their keys.

The recursion is on the depth that is left, so that the limit is also what makes reading total; a
list of items inside one pair of brackets is read by `readList`, whatever an item is.
-/
import ScriptWeave.Json.Token

namespace ScriptWeave.Json

/-- How deep brackets may nest. -/
def depthLimit : Nat := 127

/-- Reads items separated by commas up to a closing token, given at least as many steps as there
are tokens. -/
def readList {α : Type} (item : List Token → Option (α × List Token)) (close : Token) :
    Nat → List Token → Option (List α × List Token)
  | 0, _ => none
  | n + 1, ts =>
    match item ts with
    | none => none
    | some (_, []) => none
    | some (v, t :: ts) =>
      if t = close then some ([v], ts)
      else if t = .comma then (readList item close n ts).map fun (vs, ts) => (v :: vs, ts)
      else none

/-- Reads a key, a colon and a value. -/
def readMember (value : List Token → Option (Json × List Token)) :
    List Token → Option ((String × Json) × List Token)
  | .string k :: .colon :: ts => (value ts).map fun (v, ts) => ((k, v), ts)
  | _ => none

/-- Reads a value in which brackets nest at most `depth` deep. -/
def readValue (depth : Nat) (ts : List Token) : Option (Json × List Token) :=
  match depth, ts with
  | _, .null :: ts => some (null, ts)
  | _, .bool b :: ts => some (bool b, ts)
  | _, .number n :: ts => some (number n, ts)
  | _, .string s :: ts => some (string s, ts)
  | _ + 1, .openBracket :: .closeBracket :: ts => some (array [], ts)
  | depth + 1, .openBracket :: ts =>
    (readList (readValue depth) .closeBracket ts.length ts).map fun (vs, ts) => (array vs, ts)
  | _ + 1, .openBrace :: .closeBrace :: ts => some (object [], ts)
  | depth + 1, .openBrace :: ts =>
    (readList (readMember (readValue depth)) .closeBrace ts.length ts).map
      fun (ms, ts) => (ofMembers ms, ts)
  | _, _ => none

/-- The value that a text writes, if it writes one. -/
def read? (s : String) : Option Json :=
  match tokens? s.toList with
  | none => none
  | some ts =>
    match readValue depthLimit ts with
    | some (v, []) => some v
    | _ => none

end ScriptWeave.Json
