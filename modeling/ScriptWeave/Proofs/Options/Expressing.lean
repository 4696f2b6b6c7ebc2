/-
# Which layers directives can express

A layer is written as directives, one for each key under which it says something (`directives`).  A
value becomes the text behind the equals sign, with the entries of a feature list joined by commas;
a key that is cleared becomes a flag, and so does an extra option without a value.

Reading goes through the values of directives, where not every text stays a text.  An empty one is a
flag, and the words `true` and `false` are truth values.  Under a recognised key the words do no
harm, because what counts there is the text of the value (`Says`); under any other key they come out
as truth values.  A layer that avoids what cannot be written or would be read as something else is
expressible (`Expressible`).

**Stated here.**  An expressible layer is read back from its directives, in whatever order they are
written and whatever stands before the first semicolon (`ofDirectives_parse_spell`).
-/
import Mathlib.Data.List.Basic
import ScriptWeave.Proofs.Options.LastWord
import ScriptWeave.Proofs.Options.Stacking

namespace ScriptWeave

/-! ## 1. Values of directives -/

namespace Directive.Value

variable {raw : String}

/-- The value of the directive that gives an extra option this value, if there is one. -/
def ofJson? : Json → Option Directive.Value
  | .null => some .flag
  | .bool b => some (.bool b)
  | .string t => some (.text t)
  | _ => none

theorem ofJson?_toJson (v : Directive.Value) : ofJson? v.toJson = some v := by
  cases v <;> rfl

theorem ofText_ne_flag (h : raw ≠ "") : ofText raw ≠ .flag := by
  rw [ofText, if_neg h]
  split_ifs <;> simp

/-- What a text without a semicolon means can be written. -/
theorem text_of_ofText (h : ';' ∉ raw.toList) :
    ∀ t, ofText raw = .text t → t ≠ "" ∧ ';' ∉ t.toList ∧ t ≠ "true" ∧ t ≠ "false" := by
  intro t ht
  obtain ⟨rfl, hempty, htrue, hfalse⟩ := ofText_eq_text_iff.mp ht
  exact ⟨hempty, h, htrue, hfalse⟩

end Directive.Value

namespace OptionLayer

open Text

/-! ## 2. Feature lists -/

/-- An entry that can stand between commas in a feature list. -/
structure IsEntry (entry : String) : Prop where
  ne_empty : entry ≠ ""
  comma : ',' ∉ entry.toList
  semicolon : ';' ∉ entry.toList
  head : ∀ c ∈ entry.toList.head?, isBlank c = false
  last : ∀ c ∈ entry.toList.getLast?, isBlank c = false

/-- The text of a feature list. -/
def featureText (list : List String) : String := ",".intercalate list

section Features

variable {list : List String}

theorem IsEntry.toList_ne_nil {entry : String} (h : IsEntry entry) : entry.toList ≠ [] :=
  fun hnil => h.ne_empty (String.toList_eq_nil_iff.mp hnil)

/-- **A feature list is read back** from its text. -/
theorem readFeatures_featureText (hne : list ≠ []) (h : ∀ entry ∈ list, IsEntry entry) :
    readFeatures (featureText list) = list := by
  have hsplit : (featureText list).toList.splitOn ',' = list.map String.toList := by
    rw [featureText, String.toList_intercalate]
    refine List.splitOn_intercalate ',' ?_ (by simpa using hne)
    exact List.forall_mem_map.mpr fun entry hentry => (h entry hentry).comma
  rw [readFeatures, hsplit, List.map_map, List.filterMap_map]
  refine (List.filterMap_congr fun entry hentry => ?_).trans List.filterMap_some
  have htrim : trim entry.toList = entry.toList :=
    trim_eq_self (h entry hentry).head (h entry hentry).last
  simp [htrim, (h entry hentry).toList_ne_nil]

theorem featureText_ne_empty (hne : list ≠ []) (h : ∀ entry ∈ list, IsEntry entry) :
    featureText list ≠ "" := by
  have hlen : (list.map String.toList).length ≤ (featureText list).toList.length := by
    rw [featureText, String.toList_intercalate]
    exact length_le_length_intercalate _
      (List.forall_mem_map.mpr fun entry hentry => (h entry hentry).toList_ne_nil)
  intro hempty
  rw [hempty, List.length_map] at hlen
  exact hne (List.length_eq_zero_iff.mp (Nat.le_zero.mp hlen))

theorem semicolon_notMem_featureText (h : ∀ entry ∈ list, IsEntry entry) :
    ';' ∉ (featureText list).toList := by
  rw [featureText, String.toList_intercalate]
  intro hmem
  rcases mem_or_exists_of_mem_intercalate hmem with hsep | ⟨_, ht, hc⟩
  · exact absurd hsep (by decide)
  · obtain ⟨entry, hentry, rfl⟩ := List.mem_map.mp ht
    exact (h entry hentry).semicolon hc

end Features

/-! ## 3. Words of a layer as directives -/

/-- The text of a fixed module name.  A computed one has none. -/
def moduleText : ModuleName → String
  | .literal name => name
  | .resolver _ => ""

section Words

variable {α : Type} {field : OptionLayer → Option α} {key : String}
  {meaning : Directive.Value → α} {text : α → String} {layer : OptionLayer}
  {v : Directive.Value}

/-- The directive that says a word: none for silence, a flag where the key is cleared, and a text
for a value. -/
def Word.directive? (text : α → String) : Word α → Option Directive.Value
  | silent => none
  | cleared => some .flag
  | given a => some (.ofText (text a))

/-- A text can stand behind an equals sign, and it means this there. -/
structure Says (meaning : Directive.Value → α) (raw : String) (a : α) : Prop where
  ne_empty : raw ≠ ""
  semicolon : ';' ∉ raw.toList
  meaning : meaning (.ofText raw) = a

/-- What the directive of a recognised option is. -/
theorem directive?_wordOn_eq_some_iff :
    (wordOn field key layer).directive? text = some v ↔
      (∃ a, field layer = some a ∧ v = .ofText (text a)) ∨
        field layer = none ∧ layer.unset.contains key = true ∧ v = .flag := by
  unfold wordOn
  cases field layer with
  | some a =>
    constructor
    · intro hv
      exact .inl ⟨a, rfl, (Option.some.inj hv).symm⟩
    · rintro (⟨_, ⟨⟩, rfl⟩ | ⟨⟨⟩, -⟩)
      rfl
  | none =>
    cases layer.unset.contains key with
    | false => simp [Word.directive?]
    | true =>
      constructor
      · intro hv
        exact .inr ⟨rfl, rfl, (Option.some.inj hv).symm⟩
      · rintro (⟨_, ⟨⟩, -⟩ | ⟨-, -, rfl⟩)
        rfl

/-- The directive of a recognised option can be written. -/
theorem isCanonical_of_directive? (hkey : key ∈ recognizedKeys)
    (htext : ∀ a, field layer = some a → Says meaning (text a) a)
    (hv : (wordOn field key layer).directive? text = some v) : Directive.IsCanonical (key, v) := by
  have hkeys : ∀ key ∈ recognizedKeys, key ≠ "" ∧ ';' ∉ key.toList ∧ '=' ∉ key.toList := by
    decide
  obtain ⟨hne, hsemicolon, hequals⟩ := hkeys key hkey
  refine ⟨hne, hsemicolon, hequals, ?_⟩
  rcases directive?_wordOn_eq_some_iff.mp hv with ⟨a, ha, rfl⟩ | ⟨-, -, rfl⟩
  · exact Directive.Value.text_of_ofText (htext a ha).semicolon
  · nofun

/-- The directive is a flag exactly where the key is cleared. -/
theorem directive?_wordOn_eq_flag_iff
    (htext : ∀ a, field layer = some a → Says meaning (text a) a)
    (hclear : layer.unset.contains key = true → field layer = none) :
    (wordOn field key layer).directive? text = some .flag ↔
      layer.unset.contains key = true := by
  rw [directive?_wordOn_eq_some_iff]
  constructor
  · rintro (⟨a, ha, hflag⟩ | ⟨-, hcleared, -⟩)
    · exact absurd hflag.symm (Directive.Value.ofText_ne_flag (htext a ha).ne_empty)
    · exact hcleared
  · intro hcleared
    exact .inr ⟨hclear hcleared, hcleared, rfl⟩

/-- What the directive gives the option is what the layer gives it. -/
theorem givenBy_directive?_wordOn (htext : ∀ a, field layer = some a → Says meaning (text a) a) :
    givenBy meaning ((wordOn field key layer).directive? text) = field layer := by
  unfold wordOn
  cases ha : field layer with
  | some a =>
    obtain ⟨hne, -, hmeaning⟩ := htext a ha
    change givenBy meaning (some (.ofText (text a))) = some a
    cases hv : Directive.Value.ofText (text a) with
    | flag => exact absurd hv (Directive.Value.ofText_ne_flag hne)
    | bool b => rw [← hmeaning, hv]; rfl
    | text t => rw [← hmeaning, hv]; rfl
  | none =>
    dsimp only
    split <;> rfl

end Words

/-! ## 4. The directives of a layer -/

/-- The directive that says what a layer says under a key, if it says anything. -/
def directiveAt (layer : OptionLayer) (key : String) : Option Directive.Value :=
  if key = fileKey then (wordOn (·.filename) key layer).directive? id
  else if key = featureListKey then (wordOn (·.features) key layer).directive? featureText
  else if key = moduleKey then (wordOn (·.moduleName) key layer).directive? moduleText
  else (layer.extra.get? key).bind Directive.Value.ofJson?

/-- The directives that say what a layer says, one for each key. -/
def directives (layer : OptionLayer) : List (String × Directive.Value) :=
  (recognizedKeys ++ layer.extra.keys).filterMap fun key => (layer.directiveAt key).map (key, ·)

/-- A layer that directives can express.  Texts are not empty and have no semicolon, a module name
is fixed, no key is cleared that is also given a value, and an extra option has the value of a
directive that can be written. -/
structure Expressible (layer : OptionLayer) : Prop where
  filename : ∀ name, layer.filename = some name → name ≠ "" ∧ ';' ∉ name.toList
  features : ∀ list, layer.features = some list → list ≠ [] ∧ ∀ entry ∈ list, IsEntry entry
  moduleName : ∀ m, layer.moduleName = some m →
    ∃ name, m = .literal name ∧ name ≠ "" ∧ ';' ∉ name.toList
  unset : ∀ key, layer.unset.contains key = true → key ∈ recognizedKeys ∧ ¬ layer.Gives key
  extra : ∀ key value, layer.extra.get? key = some value →
    key ∉ recognizedKeys ∧ ∃ v, Directive.IsCanonical (key, v) ∧ value = v.toJson

variable {layer : OptionLayer} {key : String} {v : Directive.Value}

theorem directiveAt_of_notMem (hkey : key ∉ recognizedKeys) :
    layer.directiveAt key = (layer.extra.get? key).bind Directive.Value.ofJson? := by
  obtain ⟨hfile, hlist, hmodule⟩ := notMem_recognizedKeys_iff.mp hkey
  rw [directiveAt, if_neg hfile, if_neg hlist, if_neg hmodule]

theorem mem_directives_iff : (key, v) ∈ layer.directives ↔ layer.directiveAt key = some v := by
  simp only [directives, List.mem_filterMap, List.mem_append, Option.map_eq_some_iff,
    Prod.mk.injEq]
  constructor
  · rintro ⟨_, -, _, hv, rfl, rfl⟩
    exact hv
  · intro hv
    refine ⟨key, ?_, v, hv, rfl, rfl⟩
    by_cases hkey : key ∈ recognizedKeys
    · exact .inl hkey
    · rw [directiveAt_of_notMem hkey] at hv
      obtain ⟨value, hvalue, -⟩ := Option.bind_eq_some_iff.mp hv
      exact .inr (SortedMap.contains_eq_true_iff.mp
        (SortedMap.contains_iff_exists_get?.mpr ⟨value, hvalue⟩))

namespace Expressible

variable (h : layer.Expressible)
include h

theorem says_filename (name : String) (hname : layer.filename = some name) :
    Says (·.toText) (id name) name := by
  obtain ⟨hne, hsemicolon⟩ := h.filename name hname
  exact ⟨hne, hsemicolon, Directive.Value.toText_ofText name⟩

theorem says_features (list : List String) (hlist : layer.features = some list) :
    Says (readFeatures ·.toText) (featureText list) list := by
  obtain ⟨hne, hentry⟩ := h.features list hlist
  refine ⟨featureText_ne_empty hne hentry, semicolon_notMem_featureText hentry, ?_⟩
  rw [Directive.Value.toText_ofText, readFeatures_featureText hne hentry]

theorem says_moduleName (m : ModuleName) (hm : layer.moduleName = some m) :
    Says (.literal ·.toText) (moduleText m) m := by
  obtain ⟨name, rfl, hne, hsemicolon⟩ := h.moduleName m hm
  exact ⟨hne, hsemicolon, congrArg _ (Directive.Value.toText_ofText name)⟩

/-- The directives of an expressible layer can be written. -/
theorem isCanonical_of_mem {d : String × Directive.Value} (hd : d ∈ layer.directives) :
    Directive.IsCanonical d := by
  obtain ⟨key, v⟩ := d
  rw [mem_directives_iff] at hd
  by_cases hkey : key ∈ recognizedKeys
  · rcases mem_recognizedKeys_iff.mp hkey with rfl | rfl | rfl
    · exact isCanonical_of_directive? hkey h.says_filename hd
    · exact isCanonical_of_directive? hkey h.says_features hd
    · exact isCanonical_of_directive? hkey h.says_moduleName hd
  · rw [directiveAt_of_notMem hkey] at hd
    obtain ⟨value, hvalue, hv⟩ := Option.bind_eq_some_iff.mp hd
    obtain ⟨-, w, hcanonical, rfl⟩ := h.extra key value hvalue
    rw [Directive.Value.ofJson?_toJson] at hv
    obtain rfl := Option.some.inj hv
    exact hcanonical

theorem extra_ofDirectives {m : DirectiveTable} (hm : ∀ key, m.get? key = layer.directiveAt key) :
    (ofDirectives m).extra = layer.extra := by
  refine SortedMap.ext_get? fun key => ?_
  rw [get?_extra_ofDirectives, hm]
  cases hvalue : layer.extra.get? key with
  | none =>
    split
    · rfl
    · next hkey => rw [directiveAt_of_notMem hkey, hvalue, Option.bind_none, Option.map_none]
  | some value =>
    obtain ⟨hkey, v, -, rfl⟩ := h.extra key value hvalue
    rw [if_neg hkey, directiveAt_of_notMem hkey, hvalue, Option.bind_some,
      Directive.Value.ofJson?_toJson, Option.map_some]

theorem unset_ofDirectives {m : DirectiveTable} (hm : ∀ key, m.get? key = layer.directiveAt key) :
    (ofDirectives m).unset = layer.unset := by
  refine SortedMap.ext_contains fun key => ?_
  rw [contains_unset_ofDirectives, hm, Bool.eq_iff_iff, decide_eq_true_iff]
  by_cases hkey : key ∈ recognizedKeys
  · have hclear : layer.unset.contains key = true → ¬ layer.Gives key := fun hcleared =>
      (h.unset key hcleared).2
    rw [and_iff_right hkey]
    rcases mem_recognizedKeys_iff.mp hkey with rfl | rfl | rfl
    · rw [gives_fileKey_iff, not_not] at hclear
      exact directive?_wordOn_eq_flag_iff h.says_filename hclear
    · rw [gives_featureListKey_iff, not_not] at hclear
      exact directive?_wordOn_eq_flag_iff h.says_features hclear
    · rw [gives_moduleKey_iff, not_not] at hclear
      exact directive?_wordOn_eq_flag_iff h.says_moduleName hclear
  · exact iff_of_false (fun hflag => hkey hflag.1) fun hcleared => hkey (h.unset key hcleared).1

/-- A table that has the directives of an expressible layer, and no others, comes to the layer. -/
theorem ofDirectives_eq {m : DirectiveTable} (hm : ∀ key, m.get? key = layer.directiveAt key) :
    ofDirectives m = layer := by
  have hname : (ofDirectives m).filename = layer.filename := by
    rw [isField_filename.ofDirectives, hm]
    exact givenBy_directive?_wordOn h.says_filename
  have hfeatures : (ofDirectives m).features = layer.features := by
    rw [isField_features.ofDirectives, hm]
    exact givenBy_directive?_wordOn h.says_features
  have hmodule : (ofDirectives m).moduleName = layer.moduleName := by
    rw [isField_moduleName.ofDirectives, hm]
    exact givenBy_directive?_wordOn h.says_moduleName
  exact eq_of_parts hname hfeatures hmodule (h.extra_ofDirectives hm) (h.unset_ofDirectives hm)

end Expressible

/-- **Directives express every layer that can be written.**  An expressible layer is read back from
the text of its directives, in any order and behind any text without a semicolon. -/
theorem ofDirectives_parse_spell (h : layer.Expressible) {ds : List (String × Directive.Value)}
    (hds : ds.Perm layer.directives) {p : List Char} (hp : ';' ∉ p) :
    ofDirectives (.parse (p ++ DirectiveTable.spell ds)) = layer := by
  have hwritten := DirectiveTable.written_append_spell hp fun d hd =>
    h.isCanonical_of_mem (hds.mem_iff.mp hd)
  have hone : ∀ e ∈ ds, ∀ d ∈ ds, e.1 = d.1 → e.2 = d.2 := by
    rintro ⟨k, v⟩ he ⟨_, w⟩ hd rfl
    rw [hds.mem_iff, mem_directives_iff] at he hd
    exact Option.some.inj (he.symm.trans hd)
  refine h.ofDirectives_eq fun key => Option.ext fun v => ?_
  rw [DirectiveTable.parse, hwritten, SortedMap.get?_ofList_eq_some_iff hone, hds.mem_iff,
    mem_directives_iff]

/-- A layer with every kind of part: a cleared file name, the words for truth values as the only
feature and as a module name, and extra options without a value, with a truth value and with a
text. -/
def manifoldLayer : OptionLayer where
  features := some ["true"]
  moduleName := some (.literal "false")
  extra := ⟨[("bare", .null), ("debug", .bool false), ("pragma", .string "a=b")], by decide⟩
  unset := ⟨[(fileKey, ())], by decide⟩

theorem expressible_manifoldLayer : manifoldLayer.Expressible where
  filename := by rintro _ ⟨⟩
  features := by
    rintro _ ⟨⟩
    refine ⟨by decide, fun entry hentry => ?_⟩
    obtain rfl := List.mem_singleton.mp hentry
    refine ⟨by decide, by decide, by decide, ?_, ?_⟩ <;> rintro _ ⟨⟩ <;> rfl
  moduleName := by
    rintro _ ⟨⟩
    exact ⟨"false", rfl, by decide, by decide⟩
  unset := by
    intro key hkey
    have hkey : fileKey = key := by simpa [manifoldLayer, SortedMap.contains] using hkey
    subst hkey
    exact ⟨by decide, by rw [gives_fileKey_iff]; simp [manifoldLayer]⟩
  extra := by
    intro key value hvalue
    rw [SortedMap.get?_eq_some_iff] at hvalue
    have hvalue : (key, value) = ("bare", .null) ∨ (key, value) = ("debug", .bool false) ∨
        (key, value) = ("pragma", .string "a=b") := by
      simpa [manifoldLayer] using hvalue
    rcases hvalue with heq | heq | heq <;> obtain ⟨rfl, rfl⟩ := Prod.mk.inj heq
    · refine ⟨by decide, .flag, ⟨by decide, by decide, by decide, ?_⟩, rfl⟩
      rintro _ ⟨⟩
    · refine ⟨by decide, .bool false, ⟨by decide, by decide, by decide, ?_⟩, rfl⟩
      rintro _ ⟨⟩
    · refine ⟨by decide, .text "a=b", ⟨by decide, by decide, by decide, ?_⟩, rfl⟩
      rintro _ ⟨⟩
      decide

/-- It is read back from its directives behind a marker, against the order of their keys. -/
theorem ofDirectives_parse_manifold :
    manifoldLayer.Expressible ∧
      ofDirectives (.parse
          "text/jsx;whitelist=true;pragma=a=b;moduleId=false;filename;debug=false;bare".toList)
        = manifoldLayer := by
  have hds : List.Perm [("whitelist", .bool true), ("pragma", .text "a=b"),
      ("moduleId", .bool false), ("filename", .flag), ("debug", .bool false), ("bare", .flag)]
      manifoldLayer.directives := by
    decide
  exact ⟨expressible_manifoldLayer,
    ofDirectives_parse_spell expressible_manifoldLayer hds (p := "text/jsx".toList) (by decide)⟩

end OptionLayer

end ScriptWeave
