/-
# Texts, keys and blanks in TOML

A text is written in one of four ways: between double quotes, with escapes, or between single
quotes, without; and either kind on one line, or on several between three quotes.  In a text on
several lines a line end right behind the opening quotes is dropped, up to two quotes may
stand before the closing ones, and, where escapes are read, a backslash at the end of a line
swallows the line end and every blank up to the next visible character.

Control characters other than the tab stand nowhere, not even in a comment, and a carriage return
only before a line feed.
-/
import ScriptWeave.Json.Token

namespace ScriptWeave.Toml

/-! ## 1. Blanks and comments -/

/-- A blank inside a line. -/
def isLineBlank (c : Char) : Bool := c == ' ' || c == '\t'

/-- A character that may stand in a text or a comment. -/
def isVisible (c : Char) : Bool := c == '\t' || (0x20 ≤ c.toNat && c.toNat != 0x7F)

/-- The text behind its leading blanks. -/
def skipBlanks (s : List Char) : List Char := s.dropWhile isLineBlank

/-- The text behind a line end, if it begins with one. -/
def lineEnd? : List Char → Option (List Char)
  | '\n' :: rest => some rest
  | '\r' :: '\n' :: rest => some rest
  | _ => none

/-- The text behind a comment, if one begins here. -/
def skipComment : List Char → List Char
  | '#' :: rest => rest.dropWhile isVisible
  | s => s

/-- The text behind what may end a line: blanks, a comment, and the line end or the end of all. -/
def endLine? (s : List Char) : Option (List Char) :=
  match skipComment (skipBlanks s) with
  | [] => some []
  | rest => lineEnd? rest

/-- The text behind blanks, comments and line ends; `inComment` says that a comment has begun. -/
def skipLines : Bool → List Char → List Char
  | _, [] => []
  | _, '\n' :: rest => skipLines false rest
  | _, '\r' :: '\n' :: rest => skipLines false rest
  | inComment, c :: rest =>
    if inComment then if isVisible c then skipLines true rest else c :: rest
    else if isLineBlank c then skipLines false rest
    else if c = '#' then skipLines true rest
    else c :: rest

/-- The text behind all blanks, comments and line ends at its front. -/
def skipSpace (s : List Char) : List Char := skipLines false s

/-- A line end takes up a character. -/
theorem length_lt_of_lineEnd {s rest : List Char} (h : lineEnd? s = some rest) :
    rest.length < s.length := by
  unfold lineEnd? at h
  split at h
  · cases h; simp only [List.length_cons]; omega
  · cases h; simp only [List.length_cons]; omega
  · cases h

/-! ## 2. Escapes -/

/-- The number that hexadecimal digits write, if all of them are some. -/
def hexNumber? (digits : List Char) : Option Nat :=
  digits.foldl (fun n? c => do return (← n?) * 16 + (← Json.hexValue? c)) (some 0)

/-- The character with this code, if there is one. -/
def scalar? (n : Nat) : Option Char := if h : n.isValidChar then some (Char.ofNatAux n h) else none

/-- Reads a code of `width` hexadecimal digits. -/
def readCode (width : Nat) (s : List Char) : Option (Char × List Char) :=
  if (s.take width).length = width then do
    return (← scalar? (← hexNumber? (s.take width)), s.drop width)
  else none

/-- The character that an escape of one letter stands for. -/
def escaped? : Char → Option Char
  | 'b' => some '\x08'
  | 't' => some '\t'
  | 'n' => some '\n'
  | 'f' => some '\x0c'
  | 'r' => some '\r'
  | 'e' => some '\x1b'
  | '"' => some '"'
  | '\\' => some '\\'
  | _ => none

/-- How many digits the code behind a letter has. -/
def codeWidth? : Char → Option Nat
  | 'x' => some 2
  | 'u' => some 4
  | 'U' => some 8
  | _ => none

/-- Reads an escape behind its backslash. -/
def readEscape : List Char → Option (Char × List Char)
  | [] => none
  | c :: rest =>
    match escaped? c with
    | some e => some (e, rest)
    | none => (codeWidth? c).bind fun width => readCode width rest

/-- The text behind its leading blanks and line ends. -/
def skipGaps : List Char → List Char
  | [] => []
  | '\n' :: rest => skipGaps rest
  | '\r' :: '\n' :: rest => skipGaps rest
  | c :: rest => if isLineBlank c then skipGaps rest else c :: rest

/-- Gaps are only dropped. -/
theorem length_skipGaps_le (s : List Char) : (skipGaps s).length ≤ s.length := by
  fun_induction skipGaps s <;> simp only [List.length_cons, Nat.le_refl] <;> omega

/-- The text behind a backslash that ends its line, if this one does. -/
def joinLines? (s : List Char) : Option (List Char) := (lineEnd? (skipBlanks s)).map skipGaps

/-- A code takes up its digits. -/
theorem length_le_of_readCode {width : Nat} {s rest : List Char} {c : Char}
    (h : readCode width s = some (c, rest)) : rest.length ≤ s.length := by
  unfold readCode at h
  split at h
  · simp only [Option.bind_eq_bind, Option.bind_eq_some_iff, Option.pure_def, Option.some.injEq,
      Prod.mk.injEq] at h
    obtain ⟨_, _, _, _, _, rfl⟩ := h
    simp
  · exact absurd h (by simp)

/-- An escape takes up characters. -/
theorem length_le_of_readEscape {s rest : List Char} {c : Char}
    (h : readEscape s = some (c, rest)) : rest.length ≤ s.length := by
  unfold readEscape at h
  split at h
  · cases h
  · split at h
    · cases h; simp only [List.length_cons]; omega
    · obtain ⟨width, _, hcode⟩ := Option.bind_eq_some_iff.1 h
      have := length_le_of_readCode hcode
      simp only [List.length_cons]; omega

/-- A joined line takes up its end. -/
theorem length_le_of_joinLines {s rest : List Char} (h : joinLines? s = some rest) :
    rest.length ≤ s.length := by
  obtain ⟨line, hline, rfl⟩ := Option.map_eq_some_iff.1 h
  have hend := length_lt_of_lineEnd hline
  have hdrop := length_skipGaps_le line
  have hblanks : (skipBlanks s).length ≤ s.length := (List.dropWhile_sublist isLineBlank).length_le
  omega

/-! ## 3. Texts -/

/-- How a text is written. -/
structure Quotes where
  mark : Char
  escapes : Bool
  manyLines : Bool

/-- The text behind a joined line, in a text that may have several. -/
def Quotes.joinLines? (q : Quotes) (s : List Char) : Option (List Char) :=
  if q.manyLines then Toml.joinLines? s else none

/-- A joined line takes up its end, whatever the text is written in. -/
theorem Quotes.length_le_of_joinLines {q : Quotes} {s rest : List Char}
    (h : q.joinLines? s = some rest) : rest.length ≤ s.length := by
  unfold Quotes.joinLines? at h
  split at h
  · exact Toml.length_le_of_joinLines h
  · exact absurd h (by simp)

/-- The quotes at the front of a closing run that belong to the text: all but the last three. -/
def closing? (mark : Char) (s : List Char) : Option (Nat × List Char) :=
  let run := (s.takeWhile (· = mark)).length
  if run < 3 then none else some (min run 5 - 3, s.drop (min run 5))

/-- Reads the rest of a text behind its opening quotes.  `seen` holds the characters read so far,
the latest first. -/
def readRest (q : Quotes) (seen : List Char) : List Char → Option (String × List Char)
  | [] => none
  | c :: rest =>
    if c = q.mark then
      if q.manyLines then
        match closing? q.mark (c :: rest) with
        | some (own, rest) =>
          some (String.ofList (seen.reverse ++ List.replicate own q.mark), rest)
        | none => readRest q (c :: seen) rest
      else some (String.ofList seen.reverse, rest)
    else if c = '\\' ∧ q.escapes then
      match _ : q.joinLines? rest with
      | some joined => readRest q seen joined
      | none =>
        match _ : readEscape rest with
        | some (e, behind) => readRest q (e :: seen) behind
        | none => none
    else if isVisible c then readRest q (c :: seen) rest
    else if q.manyLines then
      match c, rest with
      | '\n', rest => readRest q ('\n' :: seen) rest
      | '\r', '\n' :: rest => readRest q ('\n' :: '\r' :: seen) rest
      | _, _ => none
    else none
termination_by s => s.length
decreasing_by
  · simp only [List.length_cons]; omega
  · have := Quotes.length_le_of_joinLines ‹_›
    simp only [List.length_cons]; omega
  · have := length_le_of_readEscape ‹_›
    simp only [List.length_cons]; omega
  · simp only [List.length_cons]; omega
  · simp only [List.length_cons]; omega
  · simp only [List.length_cons]; omega

/-- Reads a text on one line. -/
def readLineText : List Char → Option (String × List Char)
  | '"' :: rest => readRest ⟨'"', true, false⟩ [] rest
  | '\'' :: rest => readRest ⟨'\'', false, false⟩ [] rest
  | _ => none

/-- Reads a text on several lines behind its opening quotes. -/
def readManyLines (q : Quotes) (s : List Char) : Option (String × List Char) :=
  readRest q [] ((lineEnd? s).getD s)

/-- Reads a text. -/
def readText : List Char → Option (String × List Char)
  | '"' :: '"' :: '"' :: rest => readManyLines ⟨'"', true, true⟩ rest
  | '\'' :: '\'' :: '\'' :: rest => readManyLines ⟨'\'', false, true⟩ rest
  | s => readLineText s

/-! ## 4. Keys -/

/-- A character of a key without quotes. -/
def isKeyChar (c : Char) : Bool := c.isAlphanum || c == '_' || c == '-'

/-- Reads one part of a key. -/
def readKeyPart (s : List Char) : Option (String × List Char) :=
  match s.span isKeyChar with
  | ([], _) => readLineText s
  | (part, rest) => some (String.ofList part, rest)

/-- Reads the parts of a dotted key, up to so many; blanks may stand around the dots. -/
def readKeyParts : Nat → List Char → Option (List String × List Char)
  | 0, _ => none
  | n + 1, s => do
    let (part, rest) ← readKeyPart (skipBlanks s)
    match skipBlanks rest with
    | '.' :: rest =>
      let (parts, rest) ← readKeyParts n rest
      return (part :: parts, rest)
    | rest => return ([part], rest)

/-- How many parts a dotted key may have. -/
def keyLimit : Nat := 80

/-- Reads a dotted key and the blanks around it. -/
def readKey (s : List Char) : Option (List String × List Char) := readKeyParts keyLimit s

end ScriptWeave.Toml
