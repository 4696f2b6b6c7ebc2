/-
# Embedded blocks

A page is text with script elements in it, and some of those are to be compiled: the ones whose
`type` attribute carries the dialect marker.  Such an element is an embedded block, and it is kept
in six pieces so that it can be put together again around a new marker and a new body:

    <script type="text/jsx;harmony=true" id="app">render()</script>
    |opening-----||marker|attributes----|tagClose-||body---||closing-|

A page, taken apart, is a list of segments: literal text and blocks.  Whatever the pieces
are, the segments spell the page (`Segment.spell`).

Pages are lists of characters here, since all that is done with them walks along them.
-/

namespace ScriptWeave.Markup

/-- A script element whose `type` carries the dialect marker, in six pieces. -/
structure Block where
  /-- From `<script` to the marker in the value of `type`. -/
  opening : List Char
  /-- The marker, as it is written here. -/
  marker : List Char
  /-- The rest of the value of `type`, where directives stand. -/
  attributes : List Char
  /-- From the quotation mark behind the value to the end of the tag. -/
  tagClose : List Char
  body : List Char
  closing : List Char
  deriving DecidableEq

namespace Block

/-- The pieces, in the order they stand in. -/
def pieces (b : Block) : List (List Char) :=
  [b.opening, b.marker, b.attributes, b.tagClose, b.body, b.closing]

/-- The text of the block. -/
def spell (b : Block) : List Char :=
  b.opening ++ b.marker ++ b.attributes ++ b.tagClose ++ b.body ++ b.closing

/-- The block with another marker and another body. -/
def withCode (b : Block) (marker code : List Char) : Block :=
  { b with marker := marker, body := code }

/-- The pieces spell the block. -/
theorem flatten_pieces (b : Block) : b.pieces.flatten = b.spell := by
  simp [pieces, spell]

end Block

/-- A stretch of a page: literal text, or a block. -/
inductive Segment where
  | literal (text : List Char)
  | block (b : Block)
  deriving DecidableEq

namespace Segment

/-- The text of a segment. -/
def spell : Segment → List Char
  | literal text => text
  | block b => b.spell

/-- The segment is a block. -/
def isBlock : Segment → Bool
  | literal _ => false
  | block _ => true

/-- The text of a list of segments. -/
def spellAll (segments : List Segment) : List Char := segments.flatMap spell

@[simp] theorem spellAll_nil : spellAll [] = [] := rfl

@[simp] theorem spellAll_cons (s : Segment) (rest : List Segment) :
    spellAll (s :: rest) = s.spell ++ spellAll rest := rfl

end Segment

end ScriptWeave.Markup
