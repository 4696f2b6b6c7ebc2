/-
# What is at a location after a change

A file tree is a row of entries with rows inside them, and a change descends into it along a
location.  Nothing of that is seen from outside: a node that is put at a location whose directory
exists is found there, and what is found elsewhere is what was there before (`node?_put`); where a
location is removed, it goes with all that begins with it (`node?_remove`).

What stands inside a directory is reached from the directory as it is from the top
(`node?_append`), so a walk that keeps the directory it has come to sees the nodes of the tree.
-/
import ScriptWeave.FileTree.Basic

namespace ScriptWeave.FileTree

variable {tree : FileTree} {place above : Location} {name : String} {node : Node}

/-! ## 1. From a directory on -/

@[simp] theorem node?_nil (tree : FileTree) : tree.node? [] = some .directory := rfl

/-- Nothing is in an empty row. -/
theorem node?_of_nil (h : place ≠ []) : (nil : FileTree).node? place = none := by
  match place, h with
  | [_], _ => rfl
  | _ :: _ :: _, _ => rfl

theorem node?_cons_of_ne_nil (tree : FileTree) (name : String) (h : place ≠ []) :
    tree.node? (name :: place) = ((tree.find? name).map (·.2)).bind (·.node? place) := by
  match place, h with
  | _ :: _, _ => cases hf : tree.find? name <;> simp [node?, hf]

theorem inside_cons (tree : FileTree) (name : String) (place : Location) :
    tree.inside (name :: place) = (((tree.find? name).map (·.2)).getD nil).inside place := by
  cases hf : tree.find? name with
  | some e => simp [inside, hf]
  | none => cases place <;> simp [inside, hf, find?]

/-- What stands inside a directory, seen from there and from the top. -/
theorem node?_append (tree : FileTree) (above : Location) (h : place ≠ []) :
    tree.node? (above ++ place) = (tree.inside above).node? place := by
  induction above generalizing tree with
  | nil => rfl
  | cons first above ih =>
    have hne : above ++ place ≠ [] := by simp [h]
    rw [List.cons_append, node?_cons_of_ne_nil tree first hne, inside_cons]
    cases tree.find? first with
    | some e => exact ih e.2
    | none =>
      have hnil := ih nil
      rw [node?_of_nil hne] at hnil
      exact hnil

theorem inside_append (tree : FileTree) (above place : Location) :
    tree.inside (above ++ place) = (tree.inside above).inside place := by
  induction above generalizing tree with
  | nil => rfl
  | cons first above ih => rw [List.cons_append, inside_cons, inside_cons, ih]

/-- The entry of a directory, as it is found there. -/
theorem node?_concat (tree : FileTree) (above : Location) (name : String) :
    tree.node? (above ++ [name]) = ((tree.inside above).find? name).map (·.1) := by
  rw [node?_append tree above (List.cons_ne_nil name [])]
  rfl

/-- What has something inside is there itself. -/
theorem node?_ne_none_of_append (h : tree.node? (above ++ place) ≠ none) :
    tree.node? above ≠ none := by
  induction above generalizing tree with
  | nil => simp
  | cons first above ih =>
    by_cases hplace : above ++ place = []
    · obtain ⟨rfl, rfl⟩ := List.append_eq_nil_iff.mp hplace
      exact h
    · rw [List.cons_append, node?_cons_of_ne_nil tree first hplace] at h
      cases hf : tree.find? first with
      | none => simp [hf] at h
      | some e =>
        rw [hf] at h
        by_cases habove : above = []
        · subst habove
          simp [node?, hf]
        · rw [node?_cons_of_ne_nil tree first habove, hf]
          exact ih h

/-! ## 2. After a change -/

/-- An entry of the tree, and the nodes inside it. -/
theorem node?_cons_of_find {within : FileTree} (h : tree.find? name = some (node, within))
    (place : Location) :
    tree.node? (name :: place) = if place = [] then some node else within.node? place := by
  cases place <;> simp [node?, h]

theorem node?_cons_of_find_none (h : tree.find? name = none) (place : Location) :
    tree.node? (name :: place) = none := by
  cases place <;> simp [node?, h]

/-- What has another name than the first entry is behind it. -/
theorem node?_cons_of_ne {first : String} {inside rest : FileTree} (h : name ≠ first)
    (place : Location) :
    (cons first node inside rest).node? (name :: place) = rest.node? (name :: place) := by
  have hfind : (cons first node inside rest).find? name = rest.find? name := if_neg (Ne.symm h)
  cases place <;> simp only [node?, hfind]

/-- A change below an entry is made inside it. -/
theorem change_cons_of_find (f : Option (Node × FileTree) → Option (Node × FileTree))
    {within : FileTree} (h : tree.find? name = some (node, within)) (hplace : place ≠ []) :
    tree.change f (name :: place) = tree.insert name node (within.change f place) := by
  match place, hplace with
  | _ :: _, _ => simp [change, h]

theorem change_cons_of_find_none (f : Option (Node × FileTree) → Option (Node × FileTree))
    (h : tree.find? name = none) (hplace : place ≠ []) : tree.change f (name :: place) = tree := by
  match place, hplace with
  | _ :: _, _ => simp [change, h]

/-- What is found where an entry was inserted, and inside it. -/
theorem node?_insert (tree : FileTree) (name : String) (node : Node) (within : FileTree)
    (place : Location) : (tree.insert name node within).node? (name :: place)
      = if place = [] then some node else within.node? place :=
  node?_cons_of_find (by rw [find?_insert, if_pos rfl]) place

/-- **A node put at a location** is found there, and nothing else is changed.  The directory of the
location must be there. -/
theorem node?_put (hplace : place ≠ []) (hdir : tree.node? place.dropLast ≠ none)
    (other : Location) :
    (tree.put place node).node? other = if other = place then some node else tree.node? other := by
  induction place generalizing tree other with
  | nil => exact absurd rfl hplace
  | cons first place ih =>
    match other with
    | [] => simp
    | second :: other =>
      by_cases hne : second = first
      case neg =>
        have hcons : second :: other ≠ first :: place := fun heq => hne (List.cons.inj heq).1
        rw [put, node?_change_of_ne _ _ _ hne, if_neg hcons]
      subst hne
      by_cases hlast : place = []
      · -- the entry itself is put, and keeps what was inside it
        subst hlast
        have hput : tree.put [second] node
            = tree.insert second node (((tree.find? second).map (·.2)).getD nil) := rfl
        rw [hput, node?_insert]
        by_cases hother : other = []
        · simp [hother]
        · simp only [List.cons.injEq, true_and, hother, if_false]
          cases hf : tree.find? second with
          | none => rw [node?_cons_of_find_none hf, ← node?_of_nil hother]; rfl
          | some e => rw [node?_cons_of_find hf, if_neg hother]; rfl
      · rw [List.dropLast_cons_of_ne_nil hlast] at hdir
        cases hf : tree.find? second with
        | none => exact absurd (node?_cons_of_find_none hf _) hdir
        | some e =>
          obtain ⟨old, within⟩ := e
          have hwithin : within.node? place.dropLast ≠ none := by
            by_cases hd : place.dropLast = []
            · simp [hd]
            · rwa [node?_cons_of_find hf, if_neg hd] at hdir
          rw [put, change_cons_of_find _ hf hlast, node?_insert, node?_cons_of_find hf]
          by_cases hother : other = []
          · simp [hother, Ne.symm hlast]
          · simpa [hother, put] using ih hlast hwithin other

/-- **What is removed** goes with all that is inside it, and nothing else is changed. -/
theorem node?_remove (hplace : place ≠ []) (other : Location) :
    (tree.remove place).node? other = if place <+: other then none else tree.node? other := by
  induction place generalizing tree other with
  | nil => exact absurd rfl hplace
  | cons first place ih =>
    match other with
    | [] => simp
    | second :: other =>
      by_cases hne : second = first
      case neg =>
        have hnot : ¬ first :: place <+: second :: other := fun hpre =>
          hne (List.cons_prefix_cons.mp hpre).1.symm
        rw [remove, node?_change_of_ne _ _ _ hne, if_neg hnot]
      subst hne
      simp only [List.cons_prefix_cons, true_and]
      by_cases hlast : place = []
      · subst hlast
        have herased : (tree.erase second).find? second = none := by rw [find?_erase, if_pos rfl]
        rw [if_pos List.nil_prefix]
        exact node?_cons_of_find_none herased other
      · cases hf : tree.find? second with
        | none =>
          rw [remove, change_cons_of_find_none _ hf hlast, node?_cons_of_find_none hf, ite_self]
        | some e =>
          rw [remove, change_cons_of_find _ hf hlast, node?_insert, node?_cons_of_find hf]
          by_cases hother : other = []
          · simp [hother, List.prefix_nil, hlast]
          · simpa [hother, remove] using ih hlast other

/-- Every node below a directory is listed with its location. -/
theorem mem_nodesFrom_of_node? {above : Location} (hplace : place ≠ [])
    (h : tree.node? place = some node) : (above ++ place, node) ∈ tree.nodesFrom above := by
  induction tree generalizing above place with
  | nil =>
    rw [node?_of_nil hplace] at h
    cases h
  | cons first old inside rest ihInside ihRest =>
    obtain ⟨name, more, rfl⟩ := List.exists_cons_of_ne_nil hplace
    rw [nodesFrom]
    by_cases hname : name = first
    · subst hname
      have hfind : (cons name old inside rest).find? name = some (old, inside) := if_pos rfl
      rw [node?_cons_of_find hfind] at h
      split at h
      · rename_i hmore
        obtain rfl := Option.some.inj h
        rw [hmore]
        exact List.mem_cons_self
      · rename_i hmore
        have hinside := @ihInside _ (above ++ [name]) hmore h
        rw [List.append_assoc] at hinside
        exact List.mem_cons_of_mem _ (List.mem_append_left _ hinside)
    · rw [node?_cons_of_ne hname] at h
      exact List.mem_cons_of_mem _ (List.mem_append_right _ (ihRest hplace h))

theorem mem_nodes_of_node? (hplace : place ≠ []) (h : tree.node? place = some node) :
    (place, node) ∈ tree.nodes :=
  mem_nodesFrom_of_node? hplace h

end ScriptWeave.FileTree
