/-
# Directives laid over a layer

The layer of a table of directives is made by one directive after another, but the keys of a table
are all different, so each part of the layer is decided by the one directive at its key, if there
is one (`read_ofDirectives`): a recognised field by its value, the set of cleared keys by the flags
at recognised keys, and an extra option by the directive of its own name.

Of the directives in one text the last one at a key counts, and of several layers the last one that
says anything about it.  Both rules have the same effect.  A directive that clears a key drops what
was set before it, in the same text or in a layer below, and one that sets the key afterwards is not
hindered by that.

**Stated here.**  Directives in one text, and the same directives in two texts that are laid over a
layer one after the other, come to the same layer (`overlay_ofDirectives_append`).
-/
import ScriptWeave.Options.Layer
import ScriptWeave.Proofs.Options.Directives

namespace ScriptWeave

/-! ## 1. Tables of joined texts -/

/-- Directives behind others overwrite them, key by key. -/
theorem DirectiveTable.get?_parse_append (s₁ s₂ : List Char) (key : String) :
    (parse (s₁ ++ ';' :: s₂)).get? key
      = ((parse (';' :: s₂)).get? key).or ((parse s₁).get? key) := by
  have hjoin : parse (s₁ ++ ';' :: s₂) = (parse s₁).insertAll (written (';' :: s₂)) := by
    unfold parse
    rw [written_append]
    exact SortedMap.insertAll_append ∅ _ _
  rw [hjoin, SortedMap.get?_insertAll]
  rfl

namespace OptionLayer

/-! ## 2. One directive for each part -/

/-- A part of the layer of a list of directives with different keys is decided by the directive at
one key, if no other directive touches it. -/
theorem read_foldl_withDirective {β : Type} (read : OptionLayer → β) (key : String)
    (change : Directive.Value → β → β)
    (hself : ∀ layer v, read (layer.withDirective key v) = change v (read layer))
    (hother : ∀ layer k v, k ≠ key → read (layer.withDirective k v) = read layer) :
    ∀ (ds : List (String × Directive.Value)) (layer : OptionLayer),
      ds.Pairwise (fun a b => a.1 < b.1) →
      read (ds.foldl (fun layer d => layer.withDirective d.1 d.2) layer)
        = match ds.find? (fun d => d.1 = key) with
          | some d => change d.2 (read layer)
          | none => read layer
  | [], _, _ => rfl
  | (k, v) :: ds, layer, h => by
    obtain ⟨hlt, hds⟩ := List.pairwise_cons.mp h
    rw [List.foldl_cons, read_foldl_withDirective read key change hself hother ds _ hds,
      List.find?_cons]
    by_cases hk : k = key
    · subst hk
      -- the keys behind are larger, so none of them is this one
      have hnone : ds.find? (fun d => d.1 = k) = none := List.find?_eq_none.mpr fun d hd => by
        have hne : d.1 ≠ k := fun heq => Std.lt_irrefl (heq ▸ hlt d hd)
        simp [hne]
      rw [hnone]
      simp [hself]
    · simp [hk, hother layer k v hk]

/-- The same for the layer of a table. -/
theorem read_ofDirectives {β : Type} (read : OptionLayer → β) (key : String)
    (change : Directive.Value → β → β)
    (hself : ∀ layer v, read (layer.withDirective key v) = change v (read layer))
    (hother : ∀ layer k v, k ≠ key → read (layer.withDirective k v) = read layer)
    (m : DirectiveTable) :
    read (ofDirectives m)
      = match m.get? key with
        | some v => change v (read {})
        | none => read {} := by
  unfold ofDirectives SortedMap.get?
  rw [read_foldl_withDirective read key change hself hother _ _ m.sorted]
  cases m.entries.find? (fun d => d.1 = key) <;> rfl

/-! ## 3. Recognised options -/

/-- What the directive at a recognised key, if there is one, gives the option: a flag gives
nothing. -/
def givenBy {α : Type} (meaning : Directive.Value → α) : Option Directive.Value → Option α
  | none => none
  | some .flag => none
  | some v => some (meaning v)

/-- The field of a layer that holds the option of a recognised key, and what the values of
directives mean there. -/
structure IsField {α : Type} (field : OptionLayer → Option α) (key : String)
    (meaning : Directive.Value → α) : Prop where
  recognized : key ∈ recognizedKeys
  unsaid : field {} = none
  withDirective : ∀ layer v, field (layer.withDirective key v)
    = (givenBy meaning (some v)).or (field layer)
  untouched : ∀ layer k v, k ≠ key → field (layer.withDirective k v) = field layer
  overlay : ∀ base upper, field (base.overlay upper)
    = overlayField (field base) (field upper) (upper.unset.contains key)

theorem isField_filename : IsField (·.filename) fileKey (·.toText) where
  recognized := by decide
  unsaid := rfl
  withDirective := fun _ v => by cases v <;> rfl
  untouched := fun layer k v hk => by
    simp only [withDirective]
    split_ifs <;> rfl
  overlay := fun _ _ => rfl

theorem isField_features : IsField (·.features) featureListKey (readFeatures ·.toText) where
  recognized := by decide
  unsaid := rfl
  withDirective := fun _ v => by cases v <;> rfl
  untouched := fun layer k v hk => by
    simp only [withDirective]
    split_ifs <;> rfl
  overlay := fun _ _ => rfl

theorem isField_moduleName : IsField (·.moduleName) moduleKey (.literal ·.toText) where
  recognized := by decide
  unsaid := rfl
  withDirective := fun _ v => by cases v <;> rfl
  untouched := fun layer k v hk => by
    simp only [withDirective]
    split_ifs <;> rfl
  overlay := fun _ _ => rfl

section Field

variable {α : Type} {field : OptionLayer → Option α} {key : String}
  {meaning : Directive.Value → α}

/-- A field of the layer of a table has what the directive at its key gives. -/
theorem IsField.ofDirectives (h : IsField field key meaning) (m : DirectiveTable) :
    field (ofDirectives m) = givenBy meaning (m.get? key) := by
  rw [read_ofDirectives field key _ h.withDirective h.untouched]
  cases m.get? key with
  | none => exact h.unsaid
  | some v => simp only [h.unsaid, Option.or_none]

/-- A layer of directives clears the recognised keys that stand there as flags. -/
theorem contains_unset_ofDirectives (m : DirectiveTable) (key : String) :
    (ofDirectives m).unset.contains key
      = decide (key ∈ recognizedKeys ∧ m.get? key = some .flag) := by
  have hempty : ({} : OptionLayer).unset.contains key = false := rfl
  rw [read_ofDirectives (·.unset.contains key) key
    (fun v old => decide (key ∈ recognizedKeys ∧ v = .flag) || old), hempty]
  · cases m.get? key <;> simp
  · intro layer v
    rw [Bool.eq_iff_iff, Bool.or_eq_true, decide_eq_true_iff]
    by_cases hflag : key ∈ recognizedKeys ∧ v = .flag
    · simp [withDirective, hflag, SortedMap.contains_insert]
    · simp only [withDirective, hflag, false_or, if_false]
      split_ifs <;> rfl
  · intro layer k v hk
    rw [Bool.eq_iff_iff]
    simp only [withDirective]
    split_ifs <;> simp [SortedMap.contains_insert, Ne.symm hk]

/-- Two directives at a key, one layer after the other, have the effect of the later one. -/
theorem overlayField_givenBy (base : Option α) (v₁ v₂ : Option Directive.Value) :
    overlayField (overlayField base (givenBy meaning v₁) (decide (v₁ = some .flag)))
        (givenBy meaning v₂) (decide (v₂ = some .flag))
      = overlayField base (givenBy meaning (v₂.or v₁)) (decide (v₂.or v₁ = some .flag)) := by
  cases v₂ with
  | none => rfl
  | some v => cases v <;> rfl

/-- A field, after directives in two texts and after the same directives in one. -/
theorem IsField.overlay_append (h : IsField field key meaning) (x : OptionLayer)
    (s₁ s₂ : List Char) :
    field ((x.overlay (.ofDirectives (.parse s₁))).overlay (.ofDirectives (.parse (';' :: s₂))))
      = field (x.overlay (.ofDirectives (.parse (s₁ ++ ';' :: s₂)))) := by
  simp only [h.overlay, h.ofDirectives, contains_unset_ofDirectives, h.recognized, true_and]
  rw [overlayField_givenBy, DirectiveTable.get?_parse_append]

end Field

/-! ## 4. Extra options -/

theorem mem_recognizedKeys_iff {key : String} :
    key ∈ recognizedKeys ↔ key = fileKey ∨ key = featureListKey ∨ key = moduleKey := by
  simp [recognizedKeys]

theorem notMem_recognizedKeys_iff {key : String} :
    key ∉ recognizedKeys ↔ key ≠ fileKey ∧ key ≠ featureListKey ∧ key ≠ moduleKey := by
  rw [mem_recognizedKeys_iff, not_or, not_or]

/-- The extra options of a layer of directives are the directives at the other keys. -/
theorem get?_extra_ofDirectives (m : DirectiveTable) (key : String) :
    (ofDirectives m).extra.get? key
      = if key ∈ recognizedKeys then none else (m.get? key).map (·.toJson) := by
  rw [read_ofDirectives (·.extra.get? key) key
    (fun v old => if key ∈ recognizedKeys then old else some v.toJson)]
  · cases m.get? key with
    | none => simp
    | some v => split_ifs <;> rfl
  · intro layer v
    by_cases hkey : key ∈ recognizedKeys
    · rw [if_pos hkey]
      rcases mem_recognizedKeys_iff.mp hkey with rfl | rfl | rfl <;> cases v <;> rfl
    · obtain ⟨hfile, hlist, hmodule⟩ := notMem_recognizedKeys_iff.mp hkey
      simp [withDirective, hkey, hfile, hlist, hmodule, SortedMap.get?_insert]
  · intro layer k v hk
    simp only [withDirective]
    split_ifs <;> simp [SortedMap.get?_insert, Ne.symm hk]

/-! ## 5. Whole layers -/

/-- The layer gives a value to the option of this recognised key. -/
def Gives (layer : OptionLayer) (key : String) : Prop :=
  key = fileKey ∧ layer.filename ≠ none ∨ key = featureListKey ∧ layer.features ≠ none ∨
    key = moduleKey ∧ layer.moduleName ≠ none

section Gives

variable {layer : OptionLayer}

theorem gives_fileKey_iff : layer.Gives fileKey ↔ layer.filename ≠ none := by
  simp [Gives, fileKey, featureListKey, moduleKey]

theorem gives_featureListKey_iff : layer.Gives featureListKey ↔ layer.features ≠ none := by
  simp [Gives, fileKey, featureListKey, moduleKey]

theorem gives_moduleKey_iff : layer.Gives moduleKey ↔ layer.moduleName ≠ none := by
  simp [Gives, fileKey, featureListKey, moduleKey]

end Gives

/-- Two layers with the same parts are the same layer. -/
theorem eq_of_parts {x y : OptionLayer} (hname : x.filename = y.filename)
    (hfeatures : x.features = y.features) (hmodule : x.moduleName = y.moduleName)
    (hextra : x.extra = y.extra) (hunset : x.unset = y.unset) : x = y := by
  cases x
  cases y
  subst hname hfeatures hmodule hextra hunset
  rfl

/-- **Directives in one text do what they do one after another.**  Over every layer, the directives
of two texts come to the same when they are laid over it in turn and when they are written in one
text. -/
theorem overlay_ofDirectives_append (x : OptionLayer) (s₁ s₂ : List Char) :
    (x.overlay (ofDirectives (.parse s₁))).overlay (ofDirectives (.parse (';' :: s₂)))
      = x.overlay (ofDirectives (.parse (s₁ ++ ';' :: s₂))) := by
  have hextra : ((x.overlay (ofDirectives (.parse s₁))).overlay
        (ofDirectives (.parse (';' :: s₂)))).extra
      = (x.overlay (ofDirectives (.parse (s₁ ++ ';' :: s₂)))).extra := by
    refine SortedMap.ext_get? fun key => ?_
    simp only [overlay, SortedMap.get?_overlay, get?_extra_ofDirectives,
      DirectiveTable.get?_parse_append]
    split
    · rfl
    · rw [Option.map_or, Option.or_assoc]
  have hname := isField_filename.overlay_append x s₁ s₂
  have hfeatures := isField_features.overlay_append x s₁ s₂
  have hmodule := isField_moduleName.overlay_append x s₁ s₂
  exact eq_of_parts hname hfeatures hmodule hextra rfl

end OptionLayer
end ScriptWeave
