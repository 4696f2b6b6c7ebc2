/-
# Maps that keep their keys in order

A batch visits its files in the order of their names, options are printed in the order of their
keys, and a directory is listed in the order of its entries.  So every map here is a list of
pairs whose keys increase strictly: the order is part of the value, and two maps with the same
entries are the same map.

Text is ordered by code point, which is also the order of its UTF-8 bytes; a path, as a list of
names, is ordered name by name.

**Stated here.**  What a look-up finds after an insertion (`get?_insert`), an erasure
(`get?_erase`) and in the empty map; and that a map is determined by its look-ups (`ext_get?`).
-/

namespace ScriptWeave

set_option linter.unusedSectionVars false

universe u v

/-! ## 1. Insertion into an ordered list -/

section Assoc

variable {κ : Type u} {α : Type v} [LT κ] [DecidableLT κ]

/-- The ordered list with `v` at the key `k`, in place of what stood there. -/
def putSorted (k : κ) (v : α) : List (κ × α) → List (κ × α)
  | [] => [(k, v)]
  | e :: rest =>
    if k < e.1 then (k, v) :: e :: rest
    else if e.1 < k then e :: putSorted k v rest
    else (k, v) :: rest

/-- An entry of the result is the new one or an old one. -/
theorem mem_putSorted {k : κ} {v : α} {e : κ × α} {l : List (κ × α)}
    (h : e ∈ putSorted k v l) : e = (k, v) ∨ e ∈ l := by
  induction l with
  | nil => simpa [putSorted] using h
  | cons d rest ih =>
    rw [putSorted] at h
    split at h
    · simpa using h
    · split at h
      · rcases List.mem_cons.1 h with rfl | h
        · simp
        · rcases ih h with rfl | h <;> simp [*]
      · rcases List.mem_cons.1 h with rfl | h <;> simp [*]

end Assoc

/-! ## 2. The type -/

/-- A map whose entries are listed by strictly increasing key. -/
structure SortedMap (κ : Type u) [LT κ] (α : Type v) where
  entries : List (κ × α)
  sorted : entries.Pairwise (fun a b => a.1 < b.1)

/-- A set of names, kept in order. -/
abbrev NameSet := SortedMap String Unit

namespace SortedMap

variable {κ : Type u} {α : Type v} [LT κ]

/-- The map without entries. -/
def empty : SortedMap κ α := ⟨[], List.Pairwise.nil⟩

instance : EmptyCollection (SortedMap κ α) := ⟨empty⟩
instance : Inhabited (SortedMap κ α) := ⟨empty⟩

/-- The keys, increasing. -/
def keys (m : SortedMap κ α) : List κ := m.entries.map (·.1)

/-- The values, in the order of their keys. -/
def values (m : SortedMap κ α) : List α := m.entries.map (·.2)

/-- No entry at all. -/
def isEmpty (m : SortedMap κ α) : Bool := m.entries.isEmpty

/-- How many entries there are. -/
def size (m : SortedMap κ α) : Nat := m.entries.length

/-- Two maps with the same entries are the same map. -/
@[ext] theorem ext_entries {m n : SortedMap κ α} (h : m.entries = n.entries) : m = n := by
  cases m; cases n; cases h; rfl

/-- The map of the entries that `keep` accepts. -/
def filter (keep : κ → α → Bool) (m : SortedMap κ α) : SortedMap κ α :=
  ⟨m.entries.filter (fun e => keep e.1 e.2), m.sorted.filter _⟩

section Lookup

variable [DecidableEq κ]

/-- The value at a key, if there is one. -/
def get? (m : SortedMap κ α) (k : κ) : Option α :=
  (m.entries.find? (fun e => e.1 = k)).map (·.2)

/-- There is an entry at this key. -/
def contains (m : SortedMap κ α) (k : κ) : Bool := m.entries.any (fun e => e.1 = k)

/-- The map without the entry at `k`. -/
def erase (m : SortedMap κ α) (k : κ) : SortedMap κ α := m.filter (fun k' _ => k' ≠ k)

/-- Nothing is found in the empty map. -/
@[simp] theorem get?_empty (k : κ) : (∅ : SortedMap κ α).get? k = none := rfl

/-- What is found after an erasure: nothing at the erased key, and all else as before. -/
theorem get?_erase (m : SortedMap κ α) (k k' : κ) :
    (m.erase k).get? k' = if k' = k then none else m.get? k' := by
  simp only [get?, erase, filter, List.find?_filter]
  split
  · next h => subst h; simp
  · next h =>
    congr 2
    funext e
    by_cases he : e.1 = k' <;> simp [he, h]

end Lookup

section Order

variable [LE κ] [DecidableLT κ] [Std.LawfulOrderLT κ] [Std.IsLinearOrder κ]

/-- Insertion keeps the order. -/
theorem sorted_putSorted (k : κ) (v : α) {l : List (κ × α)}
    (h : l.Pairwise (fun a b => a.1 < b.1)) :
    (putSorted k v l).Pairwise (fun a b => a.1 < b.1) := by
  induction l with
  | nil => simp [putSorted]
  | cons d rest ih =>
    obtain ⟨hd, hrest⟩ := List.pairwise_cons.1 h
    rw [putSorted]
    split
    · next hk =>
      refine List.pairwise_cons.2 ⟨fun e he => ?_, h⟩
      rcases List.mem_cons.1 he with rfl | he
      · exact hk
      · exact Std.lt_trans hk (hd e he)
    · next hk =>
      split
      · next hk' =>
        refine List.pairwise_cons.2 ⟨fun e he => ?_, ih hrest⟩
        rcases mem_putSorted he with rfl | he
        · exact hk'
        · exact hd e he
      · next hk' =>
        have heq : k = d.1 := Std.le_antisymm (Std.not_lt.1 hk') (Std.not_lt.1 hk)
        exact List.pairwise_cons.2 ⟨fun e he => heq ▸ hd e he, hrest⟩

/-- The map with `v` at the key `k`, in place of what stood there. -/
def insert (m : SortedMap κ α) (k : κ) (v : α) : SortedMap κ α :=
  ⟨putSorted k v m.entries, sorted_putSorted k v m.sorted⟩

/-- The map of a list of pairs; of two pairs with the same key, the later one counts. -/
def ofList (l : List (κ × α)) : SortedMap κ α := l.foldl (fun m e => m.insert e.1 e.2) ∅

/-- The first map with every entry of the second put in. -/
def overlay (m n : SortedMap κ α) : SortedMap κ α :=
  n.entries.foldl (fun m e => m.insert e.1 e.2) m

/-- Insertion keeps the order: the keys of a map still increase. -/
theorem insert_entries (m : SortedMap κ α) (k : κ) (v : α) :
    (m.insert k v).entries = putSorted k v m.entries := rfl

variable [DecidableEq κ]

/-- Looking up in an ordered list after an insertion. -/
theorem find?_putSorted (k : κ) (v : α) (k' : κ) (l : List (κ × α))
    (h : l.Pairwise (fun a b => a.1 < b.1)) :
    (putSorted k v l).find? (fun e => e.1 = k')
      = if k' = k then some (k, v) else l.find? (fun e => e.1 = k') := by
  induction l with
  | nil => by_cases hk : k' = k <;> simp [putSorted, hk, eq_comm]
  | cons d rest ih =>
    obtain ⟨hd, hrest⟩ := List.pairwise_cons.1 h
    rw [putSorted]
    split
    · by_cases hk : k' = k
      · simp [hk]
      · simp [hk, Ne.symm hk, List.find?_cons]
    · next hlt =>
      split
      · next hlt' =>
        have hne : d.1 ≠ k := fun e => Std.lt_irrefl (e ▸ hlt')
        rw [List.find?_cons, ih hrest, List.find?_cons]
        by_cases hk : k' = k
        · subst hk; simp [hne]
        · simp [hk]
      · next hlt' =>
        have heq : k = d.1 := Std.le_antisymm (Std.not_lt.1 hlt') (Std.not_lt.1 hlt)
        by_cases hk : k' = k
        · simp [hk]
        · have : d.1 ≠ k' := fun e => hk (by rw [heq, e])
          simp [hk, Ne.symm hk, this]

/-- What is found after an insertion: the new value at its key, and all else as before. -/
theorem get?_insert (m : SortedMap κ α) (k : κ) (v : α) (k' : κ) :
    (m.insert k v).get? k' = if k' = k then some v else m.get? k' := by
  simp only [get?, insert_entries, find?_putSorted k v k' _ m.sorted]
  split <;> rfl

/-- What an ordered list holds at a key is what is found there. -/
theorem find?_eq_some_of_mem {l : List (κ × α)} (h : l.Pairwise (fun a b => a.1 < b.1))
    {e : κ × α} (he : e ∈ l) : l.find? (fun d => d.1 = e.1) = some e := by
  induction l with
  | nil => simp at he
  | cons d rest ih =>
    obtain ⟨hd, hrest⟩ := List.pairwise_cons.1 h
    rcases List.mem_cons.1 he with rfl | he
    · simp
    · have hne : d.1 ≠ e.1 := fun heq => Std.lt_irrefl (heq ▸ hd e he)
      simp [hne, ih hrest he]

/-- A value is found at a key exactly when the pair is an entry. -/
theorem get?_eq_some_iff {m : SortedMap κ α} {k : κ} {v : α} :
    m.get? k = some v ↔ (k, v) ∈ m.entries := by
  constructor
  · intro h
    obtain ⟨e, he, rfl⟩ := Option.map_eq_some_iff.1 h
    have hk := List.find?_some he
    have hm := List.mem_of_find?_eq_some he
    simp only [decide_eq_true_eq] at hk
    subst hk
    exact hm
  · intro h
    have := find?_eq_some_of_mem m.sorted h
    simp only [get?, this, Option.map_some]

/-- Two ordered lists with the same members are the same list. -/
theorem eq_of_mem_iff {l l' : List (κ × α)} (h : l.Pairwise (fun a b => a.1 < b.1))
    (h' : l'.Pairwise (fun a b => a.1 < b.1)) (hm : ∀ e, e ∈ l ↔ e ∈ l') : l = l' := by
  induction l generalizing l' with
  | nil =>
    cases l' with
    | nil => rfl
    | cons d _ => exact absurd ((hm d).2 (by simp)) (by simp)
  | cons d rest ih =>
    cases l' with
    | nil => exact absurd ((hm d).1 (by simp)) (by simp)
    | cons d' rest' =>
      obtain ⟨hd, hrest⟩ := List.pairwise_cons.1 h
      obtain ⟨hd', hrest'⟩ := List.pairwise_cons.1 h'
      have heq : d = d' := by
        rcases List.mem_cons.1 ((hm d).1 (by simp)) with h1 | h1
        · exact h1
        · rcases List.mem_cons.1 ((hm d').2 (by simp)) with h2 | h2
          · exact h2.symm
          · exact absurd (Std.lt_trans (hd' _ h1) (hd _ h2)) Std.lt_irrefl
      subst heq
      congr 1
      refine ih hrest hrest' fun e => ⟨fun he => ?_, fun he => ?_⟩
      · rcases List.mem_cons.1 ((hm e).1 (by simp [he])) with rfl | h1
        · exact absurd (hd _ he) Std.lt_irrefl
        · exact h1
      · rcases List.mem_cons.1 ((hm e).2 (by simp [he])) with rfl | h1
        · exact absurd (hd' _ he) Std.lt_irrefl
        · exact h1

/-- A map is determined by its look-ups. -/
theorem ext_get? {m n : SortedMap κ α} (h : ∀ k, m.get? k = n.get? k) : m = n :=
  ext_entries (eq_of_mem_iff m.sorted n.sorted fun ⟨k, v⟩ => by
    rw [← get?_eq_some_iff, ← get?_eq_some_iff, h k])

end Order

end SortedMap

/-! ## 3. Sets of names -/

namespace NameSet

/-- The set of the names in a list. -/
def ofNames (names : List String) : NameSet := SortedMap.ofList (names.map (·, ()))

end NameSet

end ScriptWeave
