/-
# Inline directives

A block of a page can carry options of its own, written behind the marker in the value of its
`type` attribute:

    text/jsx;harmony=true;stripTypes;moduleId=app

**The grammar.**  The text is cut at every semicolon, and the piece before the first one belongs
to no directive.  A piece is a key, or a key and a value with an equals sign between them; the
first equals sign counts.  A piece without a key says nothing, and an empty value is the same
as none.

**The values.**  A key alone is a *flag*; the words `true` and `false` are truth values; any other
value is a text, kept as it stands.  When a key is repeated, its last value counts.
-/
import ScriptWeave.SortedMap
import ScriptWeave.Json.Basic

namespace ScriptWeave

/-- The value of a directive. -/
inductive Directive.Value where
  | flag
  | bool (b : Bool)
  | text (t : String)
  deriving DecidableEq, Inhabited

/-- Directives by key. -/
abbrev DirectiveTable := SortedMap String Directive.Value

namespace Directive.Value

/-- The value that a text behind an equals sign has. -/
def ofText (raw : String) : Directive.Value :=
  if raw = "" then flag
  else if raw = "true" then bool true
  else if raw = "false" then bool false
  else text raw

/-- The text that has this value. -/
def toText : Directive.Value → String
  | flag => ""
  | bool true => "true"
  | bool false => "false"
  | text t => t

/-- The value as it is handed to a compiler: a flag is present without a value. -/
def toJson : Directive.Value → Json
  | flag => .null
  | bool b => .bool b
  | text t => .string t

/-- Every value is read back from its text, unless the text is one of the three that mean
something else. -/
theorem ofText_toText {v : Directive.Value}
    (h : ∀ t, v = text t → t ≠ "" ∧ t ≠ "true" ∧ t ≠ "false") : ofText v.toText = v := by
  cases v with
  | flag => rfl
  | bool b => cases b <;> decide
  | text t => obtain ⟨h1, h2, h3⟩ := h t rfl; simp [ofText, toText, h1, h2, h3]

/-- The text of a value is the text it was read from. -/
theorem toText_ofText (raw : String) : (ofText raw).toText = raw := by
  unfold ofText
  split
  · simp [toText, *]
  · split
    · simp [toText, *]
    · split <;> simp [toText, *]

end Directive.Value

namespace DirectiveTable

/-- The directive that a piece between semicolons writes, if it has a key. -/
def readPiece (piece : List Char) : Option (String × Directive.Value) :=
  let key := piece.takeWhile (· ≠ '=')
  let raw := (piece.dropWhile (· ≠ '=')).drop 1
  if key = [] then none else some (String.ofList key, Directive.Value.ofText (String.ofList raw))

/-- The directives in a text, in the order they are written. -/
def written (s : List Char) : List (String × Directive.Value) :=
  ((s.splitOn ';').drop 1).filterMap readPiece

/-- The directives of a text. -/
def parse (s : List Char) : DirectiveTable := SortedMap.ofList (written s)

end DirectiveTable

end ScriptWeave
