/-
# Reading bytes as text, whatever they are

What a program writes about its failure should reach the reader even where it is no well-formed
UTF-8.  Reading *leniently* never fails: well-formed characters are read, and every stretch of bytes
that begins like a character and does not go on as one becomes a single replacement character.

The stretch is as long as it can be: `e2 82 28` is one replacement character, for the two bytes that
could have become a euro sign, and then an opening parenthesis.  A byte that cannot begin a
character is a stretch of its own.
-/

namespace ScriptWeave.Text.Lenient

/-- What is read in place of bytes that make no character. -/
def replacement : Char := '\ufffd'

/-- How a character goes on after its first byte: the bits that byte gives, the bounds of the second
byte, and how many bytes follow in all. -/
structure Form where
  bits : Nat
  low : UInt8
  high : UInt8
  follow : Nat

/-- The form of the characters that begin with a byte, if there are any. -/
def form? (b : UInt8) : Option Form :=
  if b < 0x80 then some ⟨b.toNat, 0x80, 0xBF, 0⟩
  else if b < 0xC2 then none
  else if b < 0xE0 then some ⟨b.toNat - 0xC0, 0x80, 0xBF, 1⟩
  else if b = 0xE0 then some ⟨0, 0xA0, 0xBF, 2⟩
  else if b = 0xED then some ⟨0xD, 0x80, 0x9F, 2⟩
  else if b < 0xF0 then some ⟨b.toNat - 0xE0, 0x80, 0xBF, 2⟩
  else if b = 0xF0 then some ⟨0, 0x90, 0xBF, 3⟩
  else if b < 0xF4 then some ⟨b.toNat - 0xF0, 0x80, 0xBF, 3⟩
  else if b = 0xF4 then some ⟨4, 0x80, 0x8F, 3⟩
  else none

/-- The byte continues a character. -/
def continues (b : UInt8) : Bool := 0x80 ≤ b && b ≤ 0xBF

/-- The bytes that go on with a character of a form: as many as there are, at most as many as the
form asks for. -/
def Form.continuation (f : Form) : List UInt8 → List UInt8
  | [] => []
  | second :: rest =>
    if f.follow = 0 then []
    else if f.low ≤ second && second ≤ f.high then
      second :: (rest.take (f.follow - 1)).takeWhile continues
    else []

/-- The character that a form and its continuation come to. -/
def Form.character (f : Form) (continuation : List UInt8) : Char :=
  Char.ofNat (continuation.foldl (fun n b => n * 64 + (b.toNat - 0x80)) f.bits)

/-- Reads one character, or one stretch that makes none: what is read, and how many bytes follow the
first one in it. -/
def readOne (b : UInt8) (rest : List UInt8) : Char × Nat :=
  match form? b with
  | none => (replacement, 0)
  | some f =>
    let continuation := f.continuation rest
    if continuation.length = f.follow then (f.character continuation, f.follow)
    else (replacement, continuation.length)

/-- Reads bytes; `done` is what was read before, the latest first. -/
def readFrom (done : List Char) : List UInt8 → List Char
  | [] => done.reverse
  | b :: rest =>
    let (c, more) := readOne b rest
    readFrom (c :: done) (rest.drop more)
termination_by bytes => bytes.length
decreasing_by
  simp only [List.length_drop, List.length_cons]
  omega

/-- The text of any bytes. -/
def read (bytes : ByteArray) : String :=
  match String.fromUTF8? bytes with
  | some text => text
  | none => String.ofList (readFrom [] bytes.toList)

end ScriptWeave.Text.Lenient
