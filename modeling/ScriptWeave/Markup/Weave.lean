/-
# Weaving compiled code into a page

The blocks of a page are compiled one after another, each with its own directives, and the page is
put together again with the compiled code in the place of each body and the runtime marker in the
place of each marker.  Everything else stays as it is.  The first block that fails ends it.

An empty page has no output at all.
-/
import ScriptWeave.Compile.Compiler
import ScriptWeave.Markup.Segments

namespace ScriptWeave.Markup

/-! ## 1. Markers -/

/-- How many bytes a dialect marker may have at most where this program is run.  Blocks may be
looked for by a library for patterns, and then it is the size of the pattern, made ready for the
search, that is limited.  That is no matter of bytes alone.  This number stands for it: no marker of
less than twenty thousand bytes makes the pattern too large, and every one of four hundred thousand
does. -/
def markerLimit : Nat := Nat.pow 2 17

/-- The marker is short enough to look for. -/
def acceptsMarker (marker : String) : Bool := marker.utf8ByteSize ≤ markerLimit

/-! ## 2. Weaving -/

/-- The layer of the directives of a block. -/
def directivesOf (b : Block) : OptionLayer :=
  OptionLayer.ofDirectives (DirectiveTable.parse b.attributes)

/-- The segments with every block compiled. -/
def weaveSegments (setup : CompileSetup) (runtimeMarker : List Char) (filename : String) :
    List Segment → Work (List Segment)
  | [] => pure []
  | .literal text :: rest => do
    let woven ← weaveSegments setup runtimeMarker filename rest
    pure (.literal text :: woven)
  | .block b :: rest => do
    let output ← setup.compile filename (String.ofList b.body) (some (directivesOf b))
    let woven ← weaveSegments setup runtimeMarker filename rest
    pure (.block (b.withCode runtimeMarker output.code.toList) :: woven)

/-- The page with every block compiled; nothing for an empty page. -/
def weave (setup : CompileSetup) (dialectMarker runtimeMarker filename page : String) :
    Work (Option String) :=
  if page = "" then pure none
  else do
    let woven ← weaveSegments setup runtimeMarker.toList filename
      (segments dialectMarker.toList page.toList)
    pure (some (String.ofList (Segment.spellAll woven)))

end ScriptWeave.Markup
