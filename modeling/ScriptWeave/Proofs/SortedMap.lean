/-
# What a row of insertions leaves

Several maps of a build come about by one insertion after another: the output of a batch, the
options of merged layers, the table of a list of pairs.  Of the insertions at one key only the
last one counts, and a key that none of them names keeps what it had.
-/
import ScriptWeave.SortedMap

namespace ScriptWeave
namespace SortedMap

universe u v

variable {κ : Type u} {α : Type v} [LT κ]

/-- A map holds a key exactly when the key is one of its keys. -/
theorem contains_eq_true_iff [DecidableEq κ] {m : SortedMap κ α} {k : κ} :
    m.contains k = true ↔ k ∈ m.keys := by
  simp [contains, keys]

section Insert

variable [LE κ] [DecidableLT κ] [Std.LawfulOrderLT κ] [Std.IsLinearOrder κ]

/-- The map with the pairs of a list put in, one after another. -/
def insertAll (m : SortedMap κ α) (l : List (κ × α)) : SortedMap κ α :=
  l.foldl (fun m e => m.insert e.1 e.2) m

@[simp] theorem insertAll_nil (m : SortedMap κ α) : m.insertAll [] = m := rfl

@[simp] theorem insertAll_cons (m : SortedMap κ α) (e : κ × α) (l : List (κ × α)) :
    m.insertAll (e :: l) = (m.insert e.1 e.2).insertAll l := rfl

theorem insertAll_append (m : SortedMap κ α) (l l' : List (κ × α)) :
    m.insertAll (l ++ l') = (m.insertAll l).insertAll l' :=
  List.foldl_append

variable [DecidableEq κ]

/-- A key that is not put in keeps what it had. -/
theorem get?_insertAll_of_forall_ne {k : κ} :
    ∀ {l : List (κ × α)} {m : SortedMap κ α}, (∀ e ∈ l, e.1 ≠ k) →
      (m.insertAll l).get? k = m.get? k
  | [], _, _ => rfl
  | e :: l, m, h => by
    have hne : ¬ k = e.1 := fun heq => h e List.mem_cons_self heq.symm
    rw [insertAll_cons, get?_insertAll_of_forall_ne fun d hd => h d (List.mem_cons_of_mem _ hd),
      get?_insert, if_neg hne]

/-- The last insertion at a key counts. -/
theorem get?_insertAll_of_last {k : κ} {v : α} {l l' : List (κ × α)} (m : SortedMap κ α)
    (h : ∀ e ∈ l', e.1 ≠ k) : (m.insertAll (l ++ (k, v) :: l')).get? k = some v := by
  rw [insertAll_append, insertAll_cons, get?_insertAll_of_forall_ne h, get?_insert, if_pos rfl]

/-- If no key is put in with two values, the pairs are found, and else what there was before. -/
theorem get?_insertAll_eq_some_iff {k : κ} {v : α} :
    ∀ {l : List (κ × α)} {m : SortedMap κ α}, (∀ e ∈ l, ∀ d ∈ l, e.1 = d.1 → e.2 = d.2) →
      ((m.insertAll l).get? k = some v ↔
        (k, v) ∈ l ∨ (∀ e ∈ l, e.1 ≠ k) ∧ m.get? k = some v)
  | [], _, _ => by simp
  | (key, w) :: l, m, h => by
    have htail : ∀ e ∈ l, ∀ d ∈ l, e.1 = d.1 → e.2 = d.2 := fun e he d hd =>
      h e (List.mem_cons_of_mem _ he) d (List.mem_cons_of_mem _ hd)
    rw [insertAll_cons, get?_insertAll_eq_some_iff htail, get?_insert]
    by_cases hk : k = key
    · subst hk
      simp only [if_true, Option.some.injEq, List.mem_cons, Prod.mk.injEq, true_and]
      constructor
      · rintro (hmem | ⟨-, rfl⟩)
        · exact Or.inl (Or.inr hmem)
        · exact Or.inl (Or.inl rfl)
      · rintro ((rfl | hmem) | ⟨hnone, -⟩)
        · -- the key may be put in again, with the same value
          by_cases hagain : ∃ e ∈ l, e.1 = k
          · obtain ⟨⟨_, w⟩, he, rfl⟩ := hagain
            obtain rfl : v = w := h _ List.mem_cons_self _ (List.mem_cons_of_mem _ he) rfl
            exact Or.inl he
          · exact Or.inr ⟨fun e he heq => hagain ⟨e, he, heq⟩, rfl⟩
        · exact Or.inl hmem
        · exact absurd rfl (hnone (k, w) (Or.inl rfl))
    · simp [hk, Ne.symm hk]

/-- The map of a list in which no key has two values. -/
theorem get?_ofList_eq_some_iff {k : κ} {v : α} {l : List (κ × α)}
    (h : ∀ e ∈ l, ∀ d ∈ l, e.1 = d.1 → e.2 = d.2) :
    (SortedMap.ofList l).get? k = some v ↔ (k, v) ∈ l := by
  change (insertAll ∅ l).get? k = some v ↔ (k, v) ∈ l
  rw [get?_insertAll_eq_some_iff h]
  simp

/-- What is found after a row of insertions: the last one at the key, else what there was before. -/
theorem get?_insertAll (m : SortedMap κ α) (l : List (κ × α)) (k : κ) :
    (m.insertAll l).get? k = ((SortedMap.ofList l).get? k).or (m.get? k) := by
  induction l generalizing m with
  | nil => rfl
  | cons e l ih =>
    have hlist : (SortedMap.ofList (e :: l)).get? k
        = ((SortedMap.ofList l).get? k).or ((insert ∅ e.1 e.2).get? k) := ih (insert ∅ e.1 e.2)
    rw [insertAll_cons, ih, hlist, Option.or_assoc, get?_insert, get?_insert]
    by_cases hk : k = e.1 <;> simp [hk]

/-- Putting in a row of pairs again changes nothing. -/
theorem insertAll_insertAll_self (m : SortedMap κ α) (l : List (κ × α)) :
    (m.insertAll l).insertAll l = m.insertAll l := by
  refine ext_get? fun k => ?_
  rw [get?_insertAll, get?_insertAll, ← Option.or_assoc, Option.or_self]

/-- In which order pairs are put in does not matter, if no key has two values. -/
theorem insertAll_congr (m : SortedMap κ α) {l l' : List (κ × α)}
    (h : ∀ e ∈ l, ∀ d ∈ l, e.1 = d.1 → e.2 = d.2) (hmem : ∀ e, e ∈ l ↔ e ∈ l') :
    m.insertAll l = m.insertAll l' := by
  have h' : ∀ e ∈ l', ∀ d ∈ l', e.1 = d.1 → e.2 = d.2 := fun e he d hd =>
    h e ((hmem e).mpr he) d ((hmem d).mpr hd)
  have hlist : SortedMap.ofList l = SortedMap.ofList l' := by
    refine ext_get? fun k => Option.ext fun v => ?_
    rw [get?_ofList_eq_some_iff h, get?_ofList_eq_some_iff h', hmem]
  refine ext_get? fun k => ?_
  rw [get?_insertAll, get?_insertAll, hlist]

/-- Putting in one value at many keys. -/
theorem get?_insertAll_const {k : κ} {v : α} :
    ∀ {keys : List κ} (m : SortedMap κ α),
      (m.insertAll (keys.map (·, v))).get? k = if k ∈ keys then some v else m.get? k
  | [], _ => by simp
  | d :: keys, m => by
    rw [List.map_cons, insertAll_cons, get?_insertAll_const, get?_insert]
    by_cases hk : k = d <;> simp [hk]

/-- What is found in one map laid over another. -/
theorem get?_overlay (m n : SortedMap κ α) (k : κ) :
    (m.overlay n).get? k = (n.get? k).or (m.get? k) := by
  change (m.insertAll n.entries).get? k = (n.get? k).or (m.get? k)
  cases hn : n.get? k with
  | none =>
    refine get?_insertAll_of_forall_ne ?_
    rintro ⟨key, v⟩ he rfl
    rw [get?_eq_some_iff.mpr he] at hn
    cases hn
  | some v =>
    obtain ⟨before, later, hsplit⟩ := List.append_of_mem (get?_eq_some_iff.mp hn)
    have hsorted := n.sorted
    rw [hsplit] at hsorted ⊢
    obtain ⟨-, hlater, -⟩ := List.pairwise_append.mp hsorted
    refine get?_insertAll_of_last m fun e he heq => ?_
    exact Std.lt_irrefl (heq ▸ (List.pairwise_cons.mp hlater).1 e he)

/-- A map has a key exactly when something is found at it. -/
theorem contains_iff_exists_get? {m : SortedMap κ α} {k : κ} :
    m.contains k = true ↔ ∃ v, m.get? k = some v := by
  simp only [contains_eq_true_iff, get?_eq_some_iff, keys, List.mem_map, Prod.exists,
    exists_and_right, exists_eq_right]

/-- Two sets with the same keys are the same set. -/
theorem ext_contains {m n : SortedMap κ Unit} (h : ∀ k, m.contains k = n.contains k) : m = n := by
  refine ext_get? fun k => Option.ext fun u => ?_
  have hk := h k
  rw [Bool.eq_iff_iff, contains_iff_exists_get?, contains_iff_exists_get?] at hk
  constructor
  · intro hm
    obtain ⟨_, hn⟩ := hk.mp ⟨u, hm⟩
    exact hn
  · intro hn
    obtain ⟨_, hm⟩ := hk.mpr ⟨u, hn⟩
    exact hm

/-- The keys of a map after an insertion. -/
theorem contains_insert {m : SortedMap κ α} {k k' : κ} {v : α} :
    (m.insert k v).contains k' = true ↔ k' = k ∨ m.contains k' = true := by
  rw [contains_iff_exists_get?, contains_iff_exists_get?, get?_insert]
  by_cases hk : k' = k
  · simp [hk]
  · simp [hk]

/-- What is found after a row of insertions was put in or was there before. -/
theorem mem_or_of_get?_insertAll {k : κ} {v : α} :
    ∀ {l : List (κ × α)} {m : SortedMap κ α}, (m.insertAll l).get? k = some v →
      (k, v) ∈ l ∨ m.get? k = some v
  | [], _, h => Or.inr h
  | e :: l, m, h => by
    rw [insertAll_cons] at h
    rcases mem_or_of_get?_insertAll h with hmem | hfound
    · exact Or.inl (List.mem_cons_of_mem _ hmem)
    · rw [get?_insert] at hfound
      split at hfound
      · next hk =>
        obtain rfl := Option.some.inj hfound
        exact Or.inl (hk ▸ List.mem_cons_self)
      · exact Or.inr hfound

/-- Every entry of the map of a list stands in the list. -/
theorem mem_of_mem_ofList {e : κ × α} {l : List (κ × α)} (h : e ∈ (SortedMap.ofList l).entries) :
    e ∈ l := by
  rcases mem_or_of_get?_insertAll (get?_eq_some_iff.mpr h) with hmem | hfound
  · exact hmem
  · rw [get?_empty] at hfound
    cases hfound

/-- In the map of a list the last entry of the list at a key is found. -/
theorem get?_ofList (l : List (κ × α)) (k : κ) :
    (SortedMap.ofList l).get? k = (l.reverse.find? fun e => e.1 = k).map (·.2) := by
  suffices h : ∀ m : SortedMap κ α,
      (m.insertAll l).get? k = ((l.reverse.find? fun e => e.1 = k).map (·.2)).or (m.get? k) by
    have := h ∅
    rwa [get?_empty, Option.or_none] at this
  intro m
  induction l generalizing m with
  | nil => rfl
  | cons e l ih =>
    rw [insertAll_cons, ih, get?_insert, List.reverse_cons, List.find?_append, List.find?_singleton]
    cases l.reverse.find? fun e => e.1 = k with
    | some d => rfl
    | none => by_cases hk : k = e.1 <;> simp [hk, eq_comm]

/-- The entries of a map, in whatever order, make the map. -/
theorem ofList_of_perm {m : SortedMap κ α} {l : List (κ × α)} (h : l.Perm m.entries) :
    SortedMap.ofList l = m := by
  have hone : ∀ e ∈ l, ∀ d ∈ l, e.1 = d.1 → e.2 = d.2 := by
    rintro ⟨k, v⟩ he ⟨_, w⟩ hd rfl
    have hv := get?_eq_some_iff.mpr (h.mem_iff.mp he)
    rw [get?_eq_some_iff.mpr (h.mem_iff.mp hd)] at hv
    exact (Option.some.inj hv).symm
  refine ext_get? fun k => Option.ext fun v => ?_
  rw [get?_ofList_eq_some_iff hone, get?_eq_some_iff, h.mem_iff]

/-- What is found among the entries that are kept. -/
theorem get?_filter_eq_some_iff {m : SortedMap κ α} {keep : κ → α → Bool} {k : κ} {v : α} :
    (m.filter keep).get? k = some v ↔ m.get? k = some v ∧ keep k v = true := by
  simp only [get?_eq_some_iff, filter, List.mem_filter]

end Insert

end SortedMap
end ScriptWeave
