/-
# Layers that come from outside

The caller of a build gives it a layer of options, and does so in one of two ways: as the `args`
section of a configuration, or as a JSON object (`Supplied`).  Either way the layer is made from a
value whose objects have their members in the order of their keys and whose whole numbers have 64
bits (`IsValue`), by taking the recognised keys out of it.

So the extra options of such a layer have keys that are not recognised, and values of that kind
(`extras_of_supplied`).  This is a property of layers (`Extras`), which the layers of a file name and
of directives have as well.  Laying one layer over another keeps it.

**Stated here.**  The extra options of merged layers have keys that are not recognised and values of
some kind, if those of all the layers do (`Extras.merge`).
-/
import ScriptWeave.Project.Config
import ScriptWeave.Proofs.Json.Printing
import ScriptWeave.Proofs.Options.Stacking

namespace ScriptWeave

/-! ## 1. Values -/

namespace Json

open JsonNumber (IsWord)

/-- The value means itself, and its whole numbers have 64 bits. -/
structure IsValue (v : Json) : Prop where
  settled : v.settled = v
  words : AllNumbers (fun n => ∀ i, n = .integer i → IsWord i) v

theorem isValue_number {n : JsonNumber} (h : ∀ i, n = .integer i → IsWord i) :
    IsValue (number n) where
  settled := rfl
  words := by
    intro m hm i hi
    obtain rfl : m = n := by simpa [tokens] using hm
    exact h i hi

theorem isValue_bool (b : Bool) : IsValue (bool b) := ⟨rfl, allNumbers_bool b⟩

theorem isValue_string (s : String) : IsValue (string s) := ⟨rfl, allNumbers_string s⟩

theorem isValue_array {items : List Json} (h : ∀ v ∈ items, IsValue v) : IsValue (array items) where
  settled := settled_array_of_forall fun v hv => (h v hv).settled
  words := allNumbers_array.mpr fun v hv => (h v hv).words

theorem isValue_ofMembers {members : List (String × Json)} (h : ∀ m ∈ members, IsValue m.2) :
    IsValue (ofMembers members) where
  settled := settled_ofMembers fun m hm => (h m hm).settled
  words := AllNumbers.ofMembers fun m hm => (h m hm).words

end Json

/-! ## 2. Values from a configuration -/

namespace Toml

open Json (IsValue)

mutual

/-- What a TOML value is as JSON is a value. -/
theorem isValue_of_toJson? : ∀ {v : Toml} {j : Json}, v.toJson? = some j → IsValue j
  | .string s, j, h => by
    cases h
    exact Json.isValue_string s
  | .integer n, j, h => by
    rw [toJson?] at h
    split at h
    · next hfits =>
      cases h
      rw [fitsJson, Bool.and_eq_true, decide_eq_true_iff, decide_eq_true_iff] at hfits
      refine Json.isValue_number fun i hi => ?_
      obtain rfl := JsonNumber.integer.inj hi
      exact hfits
    · cases h
  | .float x, j, h => by
    cases h
    exact Json.isValue_number fun i hi => by cases hi
  | .overflow, j, h => by cases h
  | .bool b, j, h => by
    cases h
    exact Json.isValue_bool b
  | .datetime text, j, h => by
    cases h
    have hmember : ∀ m ∈ [(datetimeKey, Json.string text)], IsValue m.2 :=
      List.forall_mem_singleton.mpr (Json.isValue_string text)
    exact Json.isValue_ofMembers hmember
  | .array items, j, h => by
    rw [toJson?] at h
    obtain ⟨js, hjs, rfl⟩ := Option.map_eq_some_iff.mp h
    exact Json.isValue_array (isValue_of_toJsonItems? hjs)
  | .table _ entries, j, h => by
    rw [toJson?] at h
    obtain ⟨ms, hms, rfl⟩ := Option.map_eq_some_iff.mp h
    exact Json.isValue_ofMembers (isValue_of_toJsonEntries? hms)
  | .tables elements, j, h => by
    rw [toJson?] at h
    obtain ⟨js, hjs, rfl⟩ := Option.map_eq_some_iff.mp h
    exact Json.isValue_array (isValue_of_toJsonElements? hjs)

theorem isValue_of_toJsonItems? : ∀ {vs : List Toml} {js : List Json},
    toJsonItems? vs = some js → ∀ j ∈ js, IsValue j
  | [], js, h => by
    cases h
    simp
  | v :: vs, js, h => by
    simp only [toJsonItems?, Option.bind_eq_bind, Option.bind_eq_some_iff, Option.pure_def,
      Option.some.injEq] at h
    obtain ⟨j, hj, js, hjs, rfl⟩ := h
    exact List.forall_mem_cons.mpr ⟨isValue_of_toJson? hj, isValue_of_toJsonItems? hjs⟩

theorem isValue_of_toJsonEntries? : ∀ {es : List (String × Toml)} {ms : List (String × Json)},
    toJsonEntries? es = some ms → ∀ m ∈ ms, IsValue m.2
  | [], js, h => by
    cases h
    simp
  | (k, v) :: es, ms, h => by
    simp only [toJsonEntries?, Option.bind_eq_bind, Option.bind_eq_some_iff, Option.pure_def,
      Option.some.injEq] at h
    obtain ⟨j, hj, ms, hms, rfl⟩ := h
    exact List.forall_mem_cons.mpr ⟨isValue_of_toJson? hj, isValue_of_toJsonEntries? hms⟩

theorem isValue_of_toJsonElements? : ∀ {ess : List (List (String × Toml))} {js : List Json},
    toJsonElements? ess = some js → ∀ j ∈ js, IsValue j
  | [], js, h => by
    cases h
    simp
  | es :: ess, js, h => by
    simp only [toJsonElements?, Option.bind_eq_bind, Option.bind_eq_some_iff, Option.pure_def,
      Option.some.injEq] at h
    obtain ⟨ms, hms, js, hjs, rfl⟩ := h
    exact List.forall_mem_cons.mpr
      ⟨Json.isValue_ofMembers (isValue_of_toJsonEntries? hms), isValue_of_toJsonElements? hjs⟩

end

end Toml

/-! ## 3. The extra options of a layer -/

namespace OptionLayer

/-- Every extra option of the layer has a key that is not recognised and such a value. -/
def Extras (P : Json → Prop) (layer : OptionLayer) : Prop :=
  ∀ key v, layer.extra.get? key = some v → key ∉ recognizedKeys ∧ P v

section Extras

variable {P : Json → Prop} {base upper layer : OptionLayer}

theorem extras_of_empty (h : layer.extra = ∅) : Extras P layer := by
  intro key v hv
  rw [h, SortedMap.get?_empty] at hv
  cases hv

theorem Extras.mono {Q : Json → Prop} (h : Extras P layer)
    (hPQ : ∀ key v, layer.extra.get? key = some v → P v → Q v) : Extras Q layer :=
  fun key v hv => ⟨(h key v hv).1, hPQ key v hv (h key v hv).2⟩

theorem Extras.overlay (hbase : Extras P base) (hupper : Extras P upper) :
    Extras P (base.overlay upper) := by
  intro key v hv
  rw [OptionLayer.overlay, SortedMap.get?_overlay, Option.or_eq_some_iff] at hv
  rcases hv with hv | ⟨-, hv⟩
  · exact hupper key v hv
  · exact hbase key v hv

/-- **Merging keeps the extra options as they are in the layers.** -/
theorem Extras.merge {layers : List OptionLayer} (h : ∀ layer ∈ layers, Extras P layer)
    (feature : String) : Extras P (merge layers feature) := by
  have hfold : ∀ (layers : List OptionLayer) (base : OptionLayer), Extras P base →
      (∀ layer ∈ layers, Extras P layer) → Extras P (layers.foldl OptionLayer.overlay base) := by
    intro layers
    induction layers with
    | nil => exact fun base hbase _ => hbase
    | cons layer layers ih =>
      intro base hbase h
      exact ih _ (hbase.overlay (h layer List.mem_cons_self))
        fun layer hl => h layer (List.mem_cons_of_mem _ hl)
  exact hfold layers {} (extras_of_empty rfl) h

end Extras

/-! ## 4. The layers of callers -/

end OptionLayer
end ScriptWeave
