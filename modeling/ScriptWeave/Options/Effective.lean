/-
# Effective options

What a compiler is told about one compile call: the merged layers with everything decided.  A file
name that no layer gives is the name of the file being compiled, a missing feature list is
empty, and a computed module name is computed from the file being compiled, even where the
`filename` option says something else.

Effective options travel as one JSON object: the recognised keys first, in a fixed order, then
the extra ones in theirs.
-/
import ScriptWeave.Options.Layer
import ScriptWeave.Json.Printer

namespace ScriptWeave

/-- The options of one compile call. -/
structure EffectiveOptions where
  filename : String
  features : List String
  moduleName : Option String
  extra : SortedMap String Json

/-- The options that a merged layer comes to for a file. -/
def OptionLayer.resolve (layer : OptionLayer) (filename : String) : EffectiveOptions where
  filename := layer.filename.getD filename
  features := layer.features.getD []
  moduleName := layer.moduleName.map (·.resolve filename)
  extra := layer.extra

namespace EffectiveOptions

/-- The members of the object that the options travel as. -/
def members (o : EffectiveOptions) : List (String × Json) :=
  [(OptionLayer.fileKey, .string o.filename), (OptionLayer.featureListKey, .ofStrings o.features)]
    ++ (o.moduleName.map fun name => (OptionLayer.moduleKey, Json.string name)).toList
    ++ o.extra.entries

/-- The text that the options travel as. -/
def encode (o : EffectiveOptions) : String := (Json.object o.members).compact

end EffectiveOptions

end ScriptWeave
