/-
# Texts cut at a separator and joined again

Lines, pieces of a path and items of a list are all texts between separators.  Cutting a text and
joining the parts gives the text back; joining parts and cutting gives the parts back as long as no
part has the separator in it.  What is said here of joined texts holds for every separator.
-/

namespace ScriptWeave

section Split

variable {α : Type} [BEq α] [LawfulBEq α] {a : α}

theorem notMem_of_mem_splitOn : ∀ {s p : List α}, p ∈ s.splitOn a → a ∉ p
  | [], p, h => by
    rw [List.splitOn_nil, List.mem_singleton] at h
    simp [h]
  | c :: s, p, h => by
    rw [List.splitOn_cons_eq_if_modifyHead] at h
    split at h
    · rcases List.mem_cons.mp h with rfl | h
      · simp
      · exact notMem_of_mem_splitOn h
    · rename_i hc
      cases hs : s.splitOn a with
      | nil => exact absurd hs (List.splitOn_ne_nil a s)
      | cons q rest =>
        rw [hs, List.modifyHead_cons] at h
        have hall : ∀ r ∈ q :: rest, a ∉ r := fun r hr => notMem_of_mem_splitOn (hs ▸ hr)
        rcases List.mem_cons.mp h with rfl | h
        · rw [List.mem_cons, not_or]
          exact ⟨fun heq => hc (by simp [heq]), hall q List.mem_cons_self⟩
        · exact hall p (List.mem_cons_of_mem _ h)

/-- Texts without the separator come back, whether or not there are any. -/
theorem splitOn_intercalate_filter {texts : List (List α)} (h : ∀ t ∈ texts, a ∉ t ∧ t ≠ []) :
    (([a].intercalate texts).splitOn a).filter (fun t => !t.isEmpty) = texts := by
  by_cases hne : texts = []
  · subst hne
    rw [List.intercalate_nil, List.splitOn_nil]
    rfl
  · rw [List.splitOn_intercalate a (fun t ht => (h t ht).1) hne, List.filter_eq_self]
    intro t ht
    simpa using (h t ht).2

/-- Two rows of texts, joined, with the separator between them. -/
theorem intercalate_append_of_ne_nil {α : Type} (sep : List α) {texts more : List (List α)}
    (h : texts ≠ []) (h' : more ≠ []) :
    sep.intercalate (texts ++ more) = sep.intercalate texts ++ (sep ++ sep.intercalate more) := by
  induction texts with
  | nil => exact absurd rfl h
  | cons t texts ih =>
    by_cases hne : texts = []
    · subst hne
      rw [List.singleton_append, List.intercalate_cons_of_ne_nil h', List.intercalate_singleton,
        List.append_assoc]
    · rw [List.cons_append, List.intercalate_cons_of_ne_nil (by simp [hne]), ih hne,
        List.intercalate_cons_of_ne_nil hne, List.append_assoc, List.append_assoc,
        List.append_assoc]

theorem intercalate_concat {α : Type} (sep : List α) {texts : List (List α)} (h : texts ≠ [])
    (text : List α) :
    sep.intercalate (texts ++ [text]) = sep.intercalate texts ++ (sep ++ text) := by
  rw [intercalate_append_of_ne_nil sep h (List.cons_ne_nil text []), List.intercalate_singleton]

/-- Every character of a joined text comes from the separator or from one of the texts. -/
theorem mem_or_exists_of_mem_intercalate {α : Type} {sep : List α} {texts : List (List α)} {c : α}
    (h : c ∈ sep.intercalate texts) : c ∈ sep ∨ ∃ t ∈ texts, c ∈ t := by
  induction texts with
  | nil => simp at h
  | cons t texts ih =>
    by_cases hne : texts = []
    · subst hne
      rw [List.intercalate_singleton] at h
      exact .inr ⟨t, List.mem_cons_self, h⟩
    · rw [List.intercalate_cons_of_ne_nil hne, List.append_assoc] at h
      rcases List.mem_append.mp h with h | h
      · exact .inr ⟨t, List.mem_cons_self, h⟩
      · rcases List.mem_append.mp h with h | h
        · exact .inl h
        · rcases ih h with h | ⟨u, hu, hc⟩
          · exact .inl h
          · exact .inr ⟨u, List.mem_cons_of_mem _ hu, hc⟩

/-- What is added behind joined texts is added to the last one. -/
theorem intercalate_append {α : Type} (sep : List α) (texts : List (List α)) (text more : List α) :
    sep.intercalate (texts ++ [text]) ++ more = sep.intercalate (texts ++ [text ++ more]) := by
  by_cases hne : texts = []
  · subst hne
    simp [List.intercalate_singleton]
  · rw [intercalate_concat _ hne, intercalate_concat _ hne]
    simp

/-- Fewer texts make a shorter joined text, with the same characters in the same order. -/
theorem intercalate_sublist {α : Type} (sep : List α) {texts texts' : List (List α)}
    (h : texts.Sublist texts') : (sep.intercalate texts).Sublist (sep.intercalate texts') := by
  induction h with
  | slnil => exact List.Sublist.refl _
  | @cons l l' t h ih =>
    by_cases hne : l' = []
    · subst hne
      rw [List.sublist_nil.mp h]
      simp
    · rw [List.intercalate_cons_of_ne_nil hne]
      exact ih.trans (List.sublist_append_right _ _)
  | @cons_cons l l' t h ih =>
    by_cases hne : l = []
    · subst hne
      by_cases hne' : l' = []
      · subst hne'
        exact List.Sublist.refl _
      · rw [List.intercalate_singleton, List.intercalate_cons_of_ne_nil hne']
        exact (List.sublist_append_left _ _).trans (List.sublist_append_left _ _)
    · have hne' : l' ≠ [] := fun heq => hne (List.sublist_nil.mp (heq ▸ h))
      rw [List.intercalate_cons_of_ne_nil hne, List.intercalate_cons_of_ne_nil hne']
      exact (List.Sublist.refl _).append ih

/-- Texts that are not empty make a joined text that is no shorter than their number. -/
theorem length_le_length_intercalate {α : Type} (sep : List α) {texts : List (List α)}
    (h : ∀ t ∈ texts, t ≠ []) : texts.length ≤ (sep.intercalate texts).length := by
  induction texts with
  | nil => exact Nat.zero_le _
  | cons t texts ih =>
    have ht := List.length_pos_iff.mpr (h t List.mem_cons_self)
    have hrest := ih fun u hu => h u (List.mem_cons_of_mem _ hu)
    by_cases hne : texts = []
    · subst hne
      rw [List.intercalate_singleton]
      exact ht
    · rw [List.intercalate_cons_of_ne_nil hne, List.length_cons, List.length_append,
        List.length_append]
      omega

end Split

end ScriptWeave
