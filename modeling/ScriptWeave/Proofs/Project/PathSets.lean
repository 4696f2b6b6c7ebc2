/-
# Sets of paths

A set of paths is a list in which every path comes before the ones behind it, component by
component, so that no path is in it twice, however it is spelled.  A path that is put in goes to its
place, unless the path is there already: then the set keeps the spelling it has.

**Stated here.**  `IsSetOf` says of which texts a list of paths is the set.  A set is made by
putting in one path after another (`IsSetOf.insertPath`), in whatever order (`isSetOf_ofBatch`,
`IsSetOf.extend`), and the texts leave no choice but that of the spelling (`IsSetOf.unique`).
-/
import Mathlib.Data.List.Sort
import Mathlib.Data.Prod.Lex
import Mathlib.Data.String.Basic
import ScriptWeave.Project.Debounce

namespace ScriptWeave

namespace FilePath

/-! ## 1. The order of paths -/

/-- Where a component stands: its kind comes first, and then its text. -/
def Component.place (c : Component) : ℕ ×ₗ String := toLex (c.rank, c.text)

theorem Component.place_injective : Function.Injective Component.place := by
  intro a b h
  have hpair : (a.rank, a.text) = (b.rank, b.text) := toLex.injective h
  cases a <;> cases b <;> simp_all [rank, text]

theorem Component.before_iff {a b : Component} : a.before b = true ↔ a.place < b.place := by
  simp [before, place, Prod.Lex.toLex_lt_toLex]

/-- The order of rows of components is that of the rows of their places. -/
theorem listBefore_iff {as bs : List Component} :
    listBefore as bs = true ↔ as.map Component.place < bs.map Component.place := by
  induction as generalizing bs with
  | nil => cases bs <;> simp [listBefore]
  | cons a as ih =>
    cases bs with
    | nil => simp [listBefore]
    | cons b bs =>
      simp [listBefore, Component.before_iff, ih, List.cons_lt_cons_iff,
        Component.place_injective.eq_iff]

/-- Where a path stands. -/
def placeOf (path : String) : List (ℕ ×ₗ String) := (components path.toList).map Component.place

end FilePath

namespace Debounce

open FilePath

/-! ## 2. Putting a path in -/

/-- Two spellings of one path. -/
def SamePath (p q : String) : Prop := components p.toList = components q.toList

instance (p q : String) : Decidable (SamePath p q) :=
  inferInstanceAs (Decidable (components p.toList = components q.toList))

/-- One path comes before another. -/
def PathBefore (p q : String) : Prop :=
  listBefore (components p.toList) (components q.toList) = true

instance (p q : String) : Decidable (PathBefore p q) :=
  inferInstanceAs (Decidable (listBefore _ _ = true))

section Order

variable {p q r path : String} {paths : List String}

theorem samePath_iff : SamePath p q ↔ placeOf p = placeOf q :=
  (List.map_injective_iff.mpr Component.place_injective).eq_iff.symm

theorem pathBefore_iff : PathBefore p q ↔ placeOf p < placeOf q := listBefore_iff

theorem PathBefore.trans (h : PathBefore p q) (h' : PathBefore q r) : PathBefore p r :=
  pathBefore_iff.mpr ((pathBefore_iff.mp h).trans (pathBefore_iff.mp h'))

/-- Of two paths one comes before the other. -/
theorem pathBefore_of_not (hsame : ¬ SamePath p q) (h : ¬ PathBefore p q) : PathBefore q p := by
  rw [samePath_iff] at hsame
  rw [pathBefore_iff] at h ⊢
  exact lt_of_le_of_ne (not_lt.mp h) (Ne.symm hsame)

theorem insertPath_cons (path p : String) (rest : List String) :
    insertPath path (p :: rest)
      = if SamePath path p then p :: rest
        else if PathBefore path p then path :: p :: rest
        else p :: insertPath path rest := rfl

/-- Nothing in the set is new but the path. -/
theorem mem_of_mem_insertPath (h : q ∈ insertPath path paths) : q = path ∨ q ∈ paths := by
  induction paths with
  | nil => exact Or.inl (List.mem_singleton.mp h)
  | cons p rest ih =>
    rw [insertPath_cons] at h
    split at h
    · exact Or.inr h
    · split at h
      · exact List.mem_cons.mp h
      · rcases List.mem_cons.mp h with rfl | h
        · exact Or.inr List.mem_cons_self
        · exact (ih h).imp_right (List.mem_cons_of_mem _)

theorem mem_insertPath_of_mem (h : q ∈ paths) : q ∈ insertPath path paths := by
  induction paths with
  | nil => cases h
  | cons p rest ih =>
    rw [insertPath_cons]
    split
    · exact h
    · split
      · exact List.mem_cons_of_mem _ h
      · rcases List.mem_cons.mp h with rfl | h
        · exact List.mem_cons_self
        · exact List.mem_cons_of_mem _ (ih h)

/-- The path is there, in one spelling or another. -/
theorem exists_samePath_insertPath (path : String) (paths : List String) :
    ∃ q ∈ insertPath path paths, SamePath path q := by
  induction paths with
  | nil => exact ⟨path, List.mem_singleton_self path, rfl⟩
  | cons p rest ih =>
    rw [insertPath_cons]
    split
    · next hsame => exact ⟨p, List.mem_cons_self, hsame⟩
    · split
      · exact ⟨path, List.mem_cons_self, rfl⟩
      · obtain ⟨q, hq, hsame⟩ := ih
        exact ⟨q, List.mem_cons_of_mem _ hq, hsame⟩

theorem pairwise_insertPath (h : paths.Pairwise PathBefore) :
    (insertPath path paths).Pairwise PathBefore := by
  induction paths with
  | nil => exact List.pairwise_singleton _ _
  | cons p rest ih =>
    obtain ⟨hp, hrest⟩ := List.pairwise_cons.mp h
    rw [insertPath_cons]
    split
    · exact h
    · next hsame =>
      split
      · next hbefore =>
        refine List.pairwise_cons.mpr ⟨fun q hq => ?_, h⟩
        rcases List.mem_cons.mp hq with rfl | hq
        · exact hbefore
        · exact hbefore.trans (hp q hq)
      · next hbefore =>
        refine List.pairwise_cons.mpr ⟨fun q hq => ?_, ih hrest⟩
        rcases mem_of_mem_insertPath hq with rfl | hq
        · exact pathBefore_of_not hsame hbefore
        · exact hp q hq

end Order

/-! ## 3. The set of some texts -/

/-- The paths are the set of these texts: they stand in order, none of them twice, each text is
there in one spelling or another, and each spelling is one of the texts. -/
structure IsSetOf (paths texts : List String) : Prop where
  ordered : paths.Pairwise PathBefore
  complete : ∀ p ∈ texts, ∃ q ∈ paths, SamePath p q
  sound : ∀ q ∈ paths, q ∈ texts

section Sets

variable {paths others texts : List String}

theorem isSetOf_nil : IsSetOf [] [] := ⟨.nil, by simp, by simp⟩

theorem IsSetOf.insertPath (h : IsSetOf paths texts) (path : String) :
    IsSetOf (insertPath path paths) (path :: texts) where
  ordered := pairwise_insertPath h.ordered
  complete := by
    intro p hp
    rcases List.mem_cons.mp hp with rfl | hp
    · exact exists_samePath_insertPath p paths
    · obtain ⟨q, hq, hsame⟩ := h.complete p hp
      exact ⟨q, mem_insertPath_of_mem hq, hsame⟩
  sound := by
    intro q hq
    rcases mem_of_mem_insertPath hq with rfl | hq
    · exact List.mem_cons_self
    · exact List.mem_cons_of_mem _ (h.sound q hq)

/-- The order of the texts makes no difference. -/
theorem IsSetOf.congr (h : IsSetOf paths texts) (hmem : ∀ p, p ∈ texts ↔ p ∈ others) :
    IsSetOf paths others where
  ordered := h.ordered
  complete p hp := h.complete p ((hmem p).mpr hp)
  sound q hq := (hmem q).mp (h.sound q hq)

theorem isSetOf_ofBatch (batch : List String) : IsSetOf (ofBatch batch) batch := by
  induction batch with
  | nil => exact isSetOf_nil
  | cons path batch ih => exact ih.insertPath path

theorem IsSetOf.extend (h : IsSetOf paths texts) (batch : List String) :
    IsSetOf (extend paths batch) (texts ++ batch) := by
  induction batch generalizing paths texts with
  | nil => rwa [List.append_nil]
  | cons path batch ih =>
    refine (ih (h.insertPath path)).congr fun p => ?_
    simp only [List.mem_append, List.mem_cons]
    tauto

theorem IsSetOf.pairwise_placeOf (h : IsSetOf paths texts) :
    (paths.map placeOf).Pairwise (· < ·) :=
  List.pairwise_map.mpr (h.ordered.imp pathBefore_iff.mp)

theorem IsSetOf.mem_map_placeOf_iff (h : IsSetOf paths texts) {place : List (ℕ ×ₗ String)} :
    place ∈ paths.map placeOf ↔ place ∈ texts.map placeOf := by
  constructor
  · intro hplace
    obtain ⟨q, hq, rfl⟩ := List.mem_map.mp hplace
    exact List.mem_map_of_mem (h.sound q hq)
  · intro hplace
    obtain ⟨p, hp, rfl⟩ := List.mem_map.mp hplace
    obtain ⟨q, hq, hsame⟩ := h.complete p hp
    rw [samePath_iff.mp hsame]
    exact List.mem_map_of_mem hq

/-- **Two sets of the same texts** have the same paths, in the same order. -/
theorem IsSetOf.unique (h : IsSetOf paths texts) (h' : IsSetOf others texts) :
    paths.map (components ·.toList) = others.map (components ·.toList) := by
  have hplaces : paths.map placeOf = others.map placeOf := by
    refine h.pairwise_placeOf.eq_of_mem_iff h'.pairwise_placeOf fun place => ?_
    rw [h.mem_map_placeOf_iff, h'.mem_map_placeOf_iff]
  have hinjective := List.map_injective_iff.mpr Component.place_injective
  refine List.map_injective_iff.mpr hinjective ?_
  rwa [List.map_map, List.map_map]

end Sets

end Debounce
end ScriptWeave
