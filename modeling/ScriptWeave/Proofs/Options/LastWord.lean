/-
# The last word on an option

Layers are laid over one another from the first to the last, and each of them can do three things
with an option: say nothing of it, clear it, or give it a value (`OptionLayer.Word`).  Of several
layers the last one that says anything decides (`LastWord`), whatever was said before it.  A layer
that clears a recognised option and gives it a value as well gives it the value.

Extra options are given or not mentioned, and never cleared.

**Stated here.**  There is one last word only (`LastWord.unique`), and one layer more decides by its
own word, if it has one (`LastWord.concat`).  So what a row of layers comes to, laid over one
another and resolved for a file, is the last word on every option, and nothing else is; the file's
own name stands in for a missing file name, and the feature goes behind the list
(`eq_resolve_merge_iff`).
-/
import Mathlib.Data.List.Induction
import ScriptWeave.Options.Effective
import ScriptWeave.Proofs.SortedMap

namespace ScriptWeave
namespace OptionLayer

/-! ## 1. Words -/

/-- What a layer says about an option. -/
inductive Word (α : Type) where
  | silent
  | cleared
  | given (a : α)

/-- What a layer says about a recognised option, by its field and its key. -/
def wordOn {α : Type} (field : OptionLayer → Option α) (key : String) (layer : OptionLayer) :
    Word α :=
  match field layer with
  | some a => .given a
  | none => if layer.unset.contains key then .cleared else .silent

/-- What a layer says about an extra option. -/
def wordOnExtra (key : String) (layer : OptionLayer) : Word Json :=
  match layer.extra.get? key with
  | some v => .given v
  | none => .silent

/-- What is left of a value under a word. -/
def Word.over {α : Type} : Word α → Option α → Option α
  | silent, base => base
  | cleared, _ => none
  | given a, _ => some a

/-! ## 2. The last word -/

/-- Some words, the first one said first, leave an option with this value: the value of the last
word that is not silent, and no value if that one clears the option or all are silent. -/
inductive LastWord {α : Type} : List (Word α) → Option α → Prop
  | unsaid {words : List (Word α)} : (∀ w ∈ words, w = .silent) → LastWord words none
  | cleared {before later : List (Word α)} : (∀ w ∈ later, w = .silent) →
      LastWord (before ++ .cleared :: later) none
  | given {before later : List (Word α)} {a : α} : (∀ w ∈ later, w = .silent) →
      LastWord (before ++ .given a :: later) (some a)

variable {α : Type} {words : List (Word α)} {v : Option α}

theorem forall_silent_concat {later : List (Word α)} (h : ∀ w ∈ later, w = .silent) :
    ∀ w ∈ later ++ [.silent], w = .silent := by
  intro w hw
  rcases List.mem_append.mp hw with hw | hw
  · exact h w hw
  · exact List.mem_singleton.mp hw

/-- **One word more** decides, unless it is silent. -/
theorem LastWord.concat (h : LastWord words v) (w : Word α) :
    LastWord (words ++ [w]) (w.over v) := by
  cases w with
  | cleared => exact .cleared (by simp)
  | given a => exact .given (by simp)
  | silent =>
    cases h with
    | unsaid hall => exact .unsaid (forall_silent_concat hall)
    | cleared hlater =>
      rw [List.append_assoc, List.cons_append]
      exact .cleared (forall_silent_concat hlater)
    | given hlater =>
      rw [List.append_assoc, List.cons_append]
      exact .given (forall_silent_concat hlater)

theorem foldl_over_of_silent {later : List (Word α)} (h : ∀ w ∈ later, w = .silent)
    (v : Option α) : later.foldl (fun v w => w.over v) v = v := by
  induction later with
  | nil => rfl
  | cons w later ih =>
    rw [List.foldl_cons, h w List.mem_cons_self]
    exact ih fun w hw => h w (List.mem_cons_of_mem _ hw)

/-- The last word is what is left under one word after another. -/
theorem LastWord.foldl_eq (h : LastWord words v) :
    words.foldl (fun v w => w.over v) none = v := by
  cases h with
  | unsaid hall => exact foldl_over_of_silent hall none
  | cleared hlater =>
    rw [List.foldl_append, List.foldl_cons]
    exact foldl_over_of_silent hlater none
  | @given before later a hlater =>
    rw [List.foldl_append, List.foldl_cons]
    exact foldl_over_of_silent hlater (some a)

theorem LastWord.unique {v' : Option α} (h : LastWord words v) (h' : LastWord words v') :
    v = v' :=
  h.foldl_eq.symm.trans h'.foldl_eq

/-- What is read off layers that are laid over one another is the last word, if every layer
decides by its word. -/
theorem lastWord_foldl (get : OptionLayer → Option α) (word : OptionLayer → Word α)
    (hbase : get {} = none)
    (hstep : ∀ base upper, get (base.overlay upper) = (word upper).over (get base))
    (layers : List OptionLayer) : LastWord (layers.map word) (get (layers.foldl overlay {})) := by
  induction layers using List.reverseRecOn with
  | nil =>
    rw [List.foldl_nil, hbase]
    exact .unsaid (by simp)
  | append_singleton layers layer ih =>
    rw [List.foldl_append, List.foldl_cons, List.foldl_nil, hstep, List.map_append,
      List.map_singleton]
    exact ih.concat (word layer)

/-! ## 3. Merged layers -/

theorem overlayField_eq (field : OptionLayer → Option α) (key : String) (base : Option α)
    (upper : OptionLayer) :
    overlayField base (field upper) (upper.unset.contains key)
      = (wordOn field key upper).over base := by
  unfold overlayField wordOn
  cases field upper with
  | some a => rfl
  | none => split <;> rfl

theorem get?_extra_overlay (key : String) (base upper : OptionLayer) :
    (base.overlay upper).extra.get? key = (wordOnExtra key upper).over (base.extra.get? key) := by
  rw [overlay, SortedMap.get?_overlay, wordOnExtra]
  cases upper.extra.get? key <;> rfl

/-- Options of a call for a file are what the last word on each option says.  A computed module
name is computed from the file, whatever file name the layers give. -/
structure FollowsLastWord (layers : List OptionLayer) (feature file : String)
    (o : EffectiveOptions) : Prop where
  filename : ∃ v, LastWord (layers.map (wordOn (·.filename) fileKey)) v ∧ o.filename = v.getD file
  moduleName : ∃ v, LastWord (layers.map (wordOn (·.moduleName) moduleKey)) v ∧
    o.moduleName = v.map (·.resolve file)
  features : ∃ v, LastWord (layers.map (wordOn (·.features) featureListKey)) v ∧
    o.features = v.getD [] ++ [feature]
  extra : ∀ key, LastWord (layers.map (wordOnExtra key)) (o.extra.get? key)

/-- **What layers come to** is the last word on every option. -/
theorem followsLastWord_merge (layers : List OptionLayer) (feature file : String) :
    FollowsLastWord layers feature file ((merge layers feature).resolve file) where
  filename :=
    ⟨_, lastWord_foldl (·.filename) (wordOn (·.filename) fileKey) rfl
      (fun base upper => overlayField_eq (·.filename) fileKey base.filename upper) layers, rfl⟩
  moduleName :=
    ⟨_, lastWord_foldl (·.moduleName) (wordOn (·.moduleName) moduleKey) rfl
      (fun base upper => overlayField_eq (·.moduleName) moduleKey base.moduleName upper) layers,
      rfl⟩
  features :=
    ⟨_, lastWord_foldl (·.features) (wordOn (·.features) featureListKey) rfl
      (fun base upper => overlayField_eq (·.features) featureListKey base.features upper) layers,
      rfl⟩
  extra := fun key =>
    lastWord_foldl (·.extra.get? key) (wordOnExtra key) (SortedMap.get?_empty key)
      (get?_extra_overlay key) layers

/-- **Options follow the last word exactly when they are what the layers come to.** -/
theorem eq_resolve_merge_iff {layers : List OptionLayer} {feature file : String}
    {o : EffectiveOptions} :
    o = (merge layers feature).resolve file ↔ FollowsLastWord layers feature file o := by
  constructor
  · rintro rfl
    exact followsLastWord_merge layers feature file
  · intro h
    obtain ⟨⟨_, hname, hname'⟩, ⟨_, hmodule, hmodule'⟩, ⟨_, hlist, hlist'⟩, hextra⟩ :=
      followsLastWord_merge layers feature file
    generalize (merge layers feature).resolve file = merged at *
    cases o
    cases merged
    obtain ⟨⟨v, hv, rfl⟩, ⟨m, hm, rfl⟩, ⟨l, hl, rfl⟩, he⟩ := h
    obtain rfl := hv.unique hname
    obtain rfl := hm.unique hmodule
    obtain rfl := hl.unique hlist
    obtain rfl := hname'
    obtain rfl := hmodule'
    obtain rfl := hlist'
    congr
    exact SortedMap.ext_get? fun key => (he key).unique (hextra key)

end OptionLayer
end ScriptWeave
