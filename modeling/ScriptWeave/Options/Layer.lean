/-
# Option layers

The options of a compile call come from several places: the file's own name, the caller, and the
directives of a block.  Each gives one *layer*, and later layers are laid over earlier ones.

Three options are recognised, `filename`, `whitelist` and `moduleId`; every other key is *extra*,
and is handed on without being looked at.  A layer can do three things with a recognised key: give
it a value, clear it (a bare directive does), or leave it alone.  Clearing comes first, so a
layer that both clears a key and gives it a value gives it the value.

Extra values are replaced whole, never merged, and are never cleared.
-/
import ScriptWeave.Options.Directive
import ScriptWeave.Text.Blank

namespace ScriptWeave

/-! ## 1. The type -/

/-- The option that names a module: a fixed name, or a name computed from the file that is being
compiled. -/
inductive ModuleName where
  | literal (name : String)
  | resolver (resolve : String → String)

namespace ModuleName

/-- The module name for a file. -/
def resolve : ModuleName → String → String
  | literal name, _ => name
  | resolver f, filename => f filename

end ModuleName

/-- One layer of options. -/
structure OptionLayer where
  filename : Option String := none
  features : Option (List String) := none
  moduleName : Option ModuleName := none
  /-- The options that are handed on as they are. -/
  extra : SortedMap String Json := ∅
  /-- The recognised keys that this layer clears. -/
  unset : NameSet := ∅

namespace OptionLayer

/-- The key of the name of the file that is being compiled. -/
def fileKey : String := "filename"

/-- The key of the list of enabled features. -/
def featureListKey : String := "whitelist"

/-- The key of the module name. -/
def moduleKey : String := "moduleId"

/-- The keys that are recognised. -/
def recognizedKeys : List String := [fileKey, featureListKey, moduleKey]

instance : Inhabited OptionLayer := ⟨{}⟩

/-! ## 2. Building a layer -/

/-- The layer at the bottom: only the name of the file. -/
def ofFile (filename : String) : OptionLayer := { filename := some filename }

/-- The entries of a comma-separated list, trimmed; empty ones are dropped. -/
def readFeatures (s : String) : List String :=
  ((s.toList.splitOn ',').map Text.trim).filterMap fun entry =>
    if entry = [] then none else some (String.ofList entry)

/-- The layer with one directive added. -/
def withDirective (layer : OptionLayer) (key : String) (value : Directive.Value) : OptionLayer :=
  if key ∈ recognizedKeys ∧ value = .flag then { layer with unset := layer.unset.insert key () }
  else if key = fileKey then { layer with filename := some value.toText }
  else if key = moduleKey then { layer with moduleName := some (.literal value.toText) }
  else if key = featureListKey then { layer with features := some (readFeatures value.toText) }
  else { layer with extra := layer.extra.insert key value.toJson }

/-- The layer of a block's directives. -/
def ofDirectives (directives : DirectiveTable) : OptionLayer :=
  directives.entries.foldl (fun layer d => layer.withDirective d.1 d.2) {}

/-! ## 3. A layer from a JSON object -/

/-- A text or nothing; anything else is refused. -/
def readText? : Option Json → Option (Option String)
  | none => some none
  | some .null => some none
  | some (.string s) => some (some s)
  | some _ => none

/-- The texts of a list of texts. -/
def readTexts? (items : List Json) : Option (List String) := items.mapM Json.text?

/-- A list of texts or nothing; anything else is refused. -/
def readTextList? : Option Json → Option (Option (List String))
  | none => some none
  | some .null => some none
  | some (.array items) => (readTexts? items).map some
  | some _ => none

/-- The layer that a JSON object describes.  A recognised key of the wrong kind is refused; every
other key is extra. -/
def ofJson? : Json → Option OptionLayer
  | .object members => do
    let all := SortedMap.ofList members
    return {
      filename := ← readText? (all.get? fileKey)
      features := ← readTextList? (all.get? featureListKey)
      moduleName := (← readText? (all.get? moduleKey)).map .literal
      extra := all.filter fun key _ => key ∉ recognizedKeys }
  | _ => none

/-! ## 4. Laying one layer over another -/

/-- What becomes of a recognised field. -/
def overlayField {α : Type} (base upper : Option α) (cleared : Bool) : Option α :=
  upper.or (if cleared then none else base)

/-- The first layer with the second laid over it. -/
def overlay (base upper : OptionLayer) : OptionLayer where
  filename := overlayField base.filename upper.filename (upper.unset.contains fileKey)
  features := overlayField base.features upper.features (upper.unset.contains featureListKey)
  moduleName := overlayField base.moduleName upper.moduleName (upper.unset.contains moduleKey)
  extra := base.extra.overlay upper.extra
  unset := base.unset

/-- The layer with a feature appended to its list, whether the list has it already or not. -/
def appendFeature (layer : OptionLayer) (feature : String) : OptionLayer :=
  { layer with features := some (layer.features.getD [] ++ [feature]) }

/-- All layers laid over one another, the first at the bottom, and the feature appended. -/
def merge (layers : List OptionLayer) (feature : String) : OptionLayer :=
  (layers.foldl overlay {}).appendFeature feature

end OptionLayer

end ScriptWeave
