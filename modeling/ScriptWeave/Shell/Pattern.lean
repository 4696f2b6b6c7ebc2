/-
# Shell patterns

A pattern, as in `case`, stands for byte strings: a question mark is any byte, a star any number of
bytes, brackets a set.  What was quoted stands for itself, and so does what follows a backslash.
-/
import ScriptWeave.Shell.RegexReader

namespace ScriptWeave.Shell

/-- A field: bytes, and whether each was quoted. -/
abbrev Field := List (UInt8 × Bool)

namespace Field

/-- The bytes of a field. -/
def bytes (field : Field) : Bytes := field.map (·.1)

/-- The parts of a pattern, given enough steps. -/
def partsWithin : Nat → Field → List Regex
  | 0, _ => []
  | _, [] => []
  | n + 1, (c, quoted) :: rest =>
    if quoted then Regex.byte c :: partsWithin n rest
    else
      match c with
      | 0x2A => .repeated .any 0 none :: partsWithin n rest
      | 0x3F => .any :: partsWithin n rest
      | 0x5C =>
        match rest with
        | (d, _) :: rest => Regex.byte d :: partsWithin n rest
        | [] => [Regex.byte c]
      | 0x5B =>
        match Regex.readBrackets [0x21] (bytes rest) with
        | .ok ((negated, ranges), after) =>
          .oneOf negated ranges :: partsWithin n (rest.drop (rest.length - after.length))
        | .error _ => Regex.byte c :: partsWithin n rest
      | c => Regex.byte c :: partsWithin n rest

/-- The pattern that a field is. -/
def pattern (field : Field) : Regex := .concat (partsWithin field.length field)

/-- A byte that makes a pattern of a field, unless it is quoted. -/
def isMagic (c : UInt8 × Bool) : Bool := !c.2 && (c.1 = 0x2A || c.1 = 0x3F || c.1 = 0x5B)

/-! ## Cutting off

A zero byte, which no value holds, separates the arguments of a shell where they are taken for one
text.  What a pattern is compared with never goes beyond one; but what is cut off does. -/

/-- The length of a match of a pattern at the end of bytes, which is found by matching backwards. -/
def endLength? (field : Field) (longest : Bool) (s : Bytes) : Option Nat :=
  let lengths := (Regex.concat (partsWithin field.length field).reverse).fronts s.reverse
  if longest then lengths.max? else lengths.min?

/-- Arguments, the last one first, up to the shortest match of a pattern at the end of one. -/
def withoutShortEnd (field : Field) : List Bytes → Option (List Bytes)
  | [] => none
  | last :: before =>
    match field.endLength? false last with
    | some n => some (last.take (last.length - n) :: before)
    | none => withoutShortEnd field before

/-- The bytes without a match of a pattern at their end. -/
def withoutEnd (field : Field) (longest : Bool) (s : Bytes) : Bytes :=
  if longest then
    let first := s.takeWhile (· ≠ 0)
    match field.endLength? true first with
    | some n => first.take (first.length - n)
    | none => s
  else
    match field.withoutShortEnd (s.splitOn 0).reverse with
    | some kept => [0].intercalate kept.reverse
    | none => s

/-- The bytes without a match of a pattern at their front. -/
def withoutFront (field : Field) (longest : Bool) (s : Bytes) : Bytes :=
  let first := s.takeWhile (· ≠ 0)
  let lengths := field.pattern.fronts first
  match if longest then lengths.max? else lengths.min? with
  | some n => if longest && n = first.length then [] else s.drop n
  | none => s

end Field

end ScriptWeave.Shell
