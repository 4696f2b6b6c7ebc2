/-
# Trees that grow

Making directories and writing files puts one node after another into a tree, each in a directory
that is there, and each where nothing or a file was.  What follows from this is proved of the row of
steps (`Growth`), once for every way to it: directories and links stay, a file stays a file, and
there are no new links.

The names of what is put come from the path, or from the path in a link on the way
(`name_of_follow`); so they are names that an entry can have, and a tree that is kept in order stays
so (`Growth.isTidy`).

**Stated here.**  Making directories (`growth_of_makeDirectories`) and writing a file
(`growth_of_writeDeep`) let a tree grow, and a file that was written is found by its path however
the tree grows on (`exists_lookUp_of_write`).
-/
import ScriptWeave.Proofs.FileTree.Effects

namespace ScriptWeave

/-- A link holds a path without the character that no path has. -/
def Node.isPlain : Node → Bool
  | .link target => !target.toList.contains '\x00'
  | _ => true

namespace FileTree

open FilePath

/-! ## 1. Trees in order -/

/-- A disk whose directories are kept in order: names increase, and only directories have something
inside. -/
def IsTidy : FileTree → Prop
  | nil => True
  | cons name node inside rest =>
    IsName name ∧ (∀ e ∈ rest.entries, name < e.1) ∧ (node ≠ .directory → inside = nil) ∧
      node.isPlain = true ∧ inside.IsTidy ∧ rest.IsTidy

instance : DecidablePred IsTidy := go
where
  /-- Decided entry by entry. -/
  go : (tree : FileTree) → Decidable tree.IsTidy
    | nil => isTrue trivial
    | cons name node inside rest =>
      have := go inside
      have := go rest
      inferInstanceAs (Decidable (IsName name ∧ (∀ e ∈ rest.entries, name < e.1) ∧
        (node ≠ .directory → inside = nil) ∧ node.isPlain = true ∧ inside.IsTidy ∧
        rest.IsTidy))

section Tidy

variable {tree within : FileTree} {name : String} {node : Node}

theorem mem_entries_of_find? (h : tree.find? name = some (node, within)) :
    (name, node) ∈ tree.entries := by
  induction tree with
  | nil => cases h
  | cons first old inside rest _ ih =>
    rw [find?] at h
    split at h
    · rename_i heq
      obtain ⟨rfl, rfl⟩ := Prod.mk.inj (Option.some.inj h)
      rw [heq]
      exact List.mem_cons_self
    · exact List.mem_cons_of_mem _ (ih h)

theorem mem_entries_insert {e : String × Node} (he : e ∈ (tree.insert name node within).entries) :
    e = (name, node) ∨ e ∈ tree.entries := by
  induction tree with
  | nil => exact Or.inl (List.mem_singleton.mp he)
  | cons first old inside rest _ ih =>
    rw [insert] at he
    split at he
    · rcases List.mem_cons.mp he with rfl | he
      · exact Or.inl rfl
      · exact Or.inr (List.mem_cons_of_mem _ he)
    · split at he
      · exact List.mem_cons.mp he
      · rcases List.mem_cons.mp he with rfl | he
        · exact Or.inr List.mem_cons_self
        · rcases ih he with heq | he
          · exact Or.inl heq
          · exact Or.inr (List.mem_cons_of_mem _ he)

/-- A tree in order is a disk. -/
theorem IsTidy.isDisk (h : tree.IsTidy) : tree.IsDisk := by
  induction tree with
  | nil => trivial
  | cons first node inside rest ihInside ihRest =>
    obtain ⟨hname, horder, hsolid, -, hinside, hrest⟩ := h
    refine ⟨hname, ?_, hsolid, ihInside hinside, ihRest hrest⟩
    cases hfind : rest.find? first with
    | none => rfl
    | some e => exact absurd (horder _ (mem_entries_of_find? hfind)) Std.lt_irrefl

/-- An entry of a tree in order. -/
theorem IsTidy.of_find? (h : tree.IsTidy) (hfind : tree.find? name = some (node, within)) :
    IsName name ∧ (node ≠ .directory → within = nil) ∧ node.isPlain = true ∧
      within.IsTidy := by
  induction tree with
  | nil => cases hfind
  | cons first old inside rest _ ih =>
    obtain ⟨hname, -, hsolid, hplain, hinside, hrest⟩ := h
    rw [find?] at hfind
    split at hfind
    · rename_i heq
      obtain ⟨rfl, rfl⟩ := Prod.mk.inj (Option.some.inj hfind)
      exact ⟨heq ▸ hname, hsolid, hplain, hinside⟩
    · exact ih hrest hfind

/-- Every link in a tree in order holds a path. -/
theorem IsTidy.isPlain (h : tree.IsTidy) {place : Location} (hnode : tree.node? place = some node) :
    node.isPlain = true := by
  induction place generalizing tree with
  | nil =>
    obtain rfl := Option.some.inj hnode
    rfl
  | cons first place ih =>
    cases hfind : tree.find? first with
    | none =>
      rw [node?_cons_of_find_none hfind] at hnode
      cases hnode
    | some e =>
      obtain ⟨-, -, hplain, hwithin⟩ := h.of_find? hfind
      rw [node?_cons_of_find hfind] at hnode
      split at hnode
      · obtain rfl := Option.some.inj hnode
        exact hplain
      · exact ih hwithin hnode

/-- **An entry is put into a directory in order.** -/
theorem IsTidy.insert (h : tree.IsTidy) (hname : IsName name)
    (hsolid : node ≠ .directory → within = nil) (hplain : node.isPlain = true)
    (hwithin : within.IsTidy) : (tree.insert name node within).IsTidy := by
  induction tree with
  | nil => exact ⟨hname, by simp [entries], hsolid, hplain, hwithin, trivial⟩
  | cons first old inside rest _ ih =>
    obtain ⟨hfirst, horder, hold, hplain', hinside, hrest⟩ := h
    rw [FileTree.insert]
    split
    · rename_i heq
      exact ⟨hname, heq ▸ horder, hsolid, hplain, hwithin, hrest⟩
    · rename_i hne
      split
      · rename_i hlt
        refine ⟨hname, ?_, hsolid, hplain, hwithin, hfirst, horder, hold, hplain', hinside, hrest⟩
        exact List.forall_mem_cons.mpr ⟨hlt, fun e he => Std.lt_trans hlt (horder e he)⟩
      · rename_i hnlt
        refine ⟨hfirst, fun e he => ?_, hold, hplain', hinside, ih hrest⟩
        rcases mem_entries_insert he with rfl | he
        · exact Std.lt_of_le_of_ne (String.not_lt.mp hnlt) hne
        · exact horder e he

/-- **A node is put into a tree in order**, in a directory, and where nothing or a file was. -/
theorem IsTidy.put (h : tree.IsTidy) {dir : Location}
    (hdir : tree.node? dir = some .directory) (hname : IsName name)
    (hfree : ∀ old, tree.node? (dir ++ [name]) = some old → ∃ bytes, old = .file (.bytes bytes))
    (hplain : node.isPlain = true) : (tree.put (dir ++ [name]) node).IsTidy := by
  induction dir generalizing tree with
  | nil =>
    have hput : tree.put [name] node
        = tree.insert name node (((tree.find? name).map (·.2)).getD nil) := rfl
    have hnil : ((tree.find? name).map (·.2)).getD nil = nil := by
      cases hfind : tree.find? name with
      | none => rfl
      | some e =>
        obtain ⟨content, hfile⟩ := hfree e.1 (by rw [List.nil_append, node?, hfind]; rfl)
        obtain ⟨-, hsolid, -⟩ := h.of_find? hfind
        exact hsolid (by rw [hfile]; simp)
    rw [List.nil_append, hput, hnil]
    exact h.insert hname (fun _ => rfl) hplain trivial
  | cons first dir ih =>
    cases hfind : tree.find? first with
    | none =>
      rw [node?_cons_of_find_none hfind] at hdir
      cases hdir
    | some e =>
      obtain ⟨old, within⟩ := e
      obtain ⟨hfirst, hsolid, hold, hwithin⟩ := h.of_find? hfind
      rw [node?_cons_of_find hfind] at hdir
      rw [List.cons_append, node?_cons_of_find hfind, if_neg (by simp)] at hfree
      have hinside : within.node? dir = some .directory := by
        split at hdir
        · rename_i hnil
          rw [hnil, node?_nil]
        · exact hdir
      have hnode : old = .directory := by
        split at hdir
        · exact Option.some.inj hdir
        · rename_i hne
          by_contra hnot
          rw [hsolid hnot, node?_of_nil hne] at hinside
          cases hinside
      rw [List.cons_append, FileTree.put, change_cons_of_find _ hfind (by simp)]
      exact h.insert hfirst (fun hne => absurd hnode hne) hold (ih hwithin hinside hfree)

end Tidy

/-! ## 2. Growth -/

/-- Directories and files were put into a tree one after another, each in a directory, under a name
that an entry can have, and where nothing was, or a file instead of one with its bytes. -/
inductive Growth (top : FileTree) : FileTree → Prop
  | refl : Growth top top
  | directory {tree : FileTree} {dir : Location} {name : String} :
      Growth top tree → tree.node? dir = some .directory → IsName name →
      tree.node? (dir ++ [name]) = none → Growth top (tree.put (dir ++ [name]) .directory)
  | file {tree : FileTree} {dir : Location} {name : String} {content : ByteArray} :
      Growth top tree → tree.node? dir = some .directory → IsName name →
      (∀ old, tree.node? (dir ++ [name]) = some old → ∃ bytes, old = .file (.bytes bytes)) →
      Growth top (tree.put (dir ++ [name]) (.file content))

/-- What is found after a node was put in a directory. -/
theorem node?_put_concat {tree : FileTree} {dir : Location} {name : String}
    (hdir : tree.node? dir = some .directory) (node : Node) (place : Location) :
    (tree.put (dir ++ [name]) node).node? place
      = if place = dir ++ [name] then some node else tree.node? place := by
  refine node?_put (by simp) ?_ place
  rw [List.dropLast_concat, hdir]
  simp

section Growth

variable {top tree later : FileTree}

theorem Growth.trans (h : Growth top tree) (h' : Growth tree later) : Growth top later := by
  induction h' with
  | refl => exact h
  | directory _ hdir hname hfree ih => exact ih.directory hdir hname hfree
  | file _ hdir hname hfree ih => exact ih.file hdir hname hfree

/-- **Directories and links stay.** -/
theorem Growth.keepsWays (h : Growth top tree) : KeepsWays top tree := by
  induction h with
  | refl => exact KeepsWays.refl top
  | directory _ hdir _ hfree ih =>
    intro place node hnode hfile
    have hnode' := ih place node hnode hfile
    rw [node?_put_concat hdir, if_neg, hnode']
    rintro rfl
    rw [hnode'] at hfree
    cases hfree
  | file _ hdir _ hfree ih =>
    intro place node hnode hfile
    have hnode' := ih place node hnode hfile
    rw [node?_put_concat hdir, if_neg, hnode']
    rintro rfl
    obtain ⟨bytes, rfl⟩ := hfree node hnode'
    exact hfile (.bytes bytes) rfl

/-- **A file that can be read** stays one. -/
theorem Growth.exists_file (h : Growth top tree) {place : Location} {content : ByteArray}
    (hfile : top.node? place = some (.file content)) :
    ∃ content', tree.node? place = some (.file (.bytes content')) := by
  induction h with
  | refl => exact ⟨content, hfile⟩
  | directory _ hdir _ hfree ih =>
    obtain ⟨content', hfile'⟩ := ih
    refine ⟨content', ?_⟩
    rw [node?_put_concat hdir, if_neg, hfile']
    rintro rfl
    rw [hfile'] at hfree
    cases hfree
  | @file _ _ _ content₁ _ hdir _ _ ih =>
    obtain ⟨content', hfile'⟩ := ih
    rw [node?_put_concat hdir]
    split
    · exact ⟨content₁, rfl⟩
    · exact ⟨content', hfile'⟩

/-- **There are no new links.** -/
theorem Growth.link_of_link (h : Growth top tree) {place : Location} {target : String}
    (hlink : tree.node? place = some (.link target)) : top.node? place = some (.link target) := by
  induction h with
  | refl => exact hlink
  | directory _ hdir _ _ ih | file _ hdir _ _ ih =>
    rw [node?_put_concat hdir] at hlink
    split at hlink
    · cases hlink
    · exact ih hlink

/-- **A tree in order stays in order.** -/
theorem Growth.isTidy (h : Growth top tree) (htidy : top.IsTidy) : tree.IsTidy := by
  induction h with
  | refl => exact htidy
  | directory _ hdir hname hfree ih =>
    refine ih.put hdir hname (fun old hold => ?_) rfl
    rw [hfree] at hold
    cases hold
  | file _ hdir hname hfree ih => exact ih.put hdir hname hfree rfl

end Growth

/-! ## 3. The name at the end of a walk -/

/-- All pieces but the dots are names, of any length. -/
def SpellNames (pieces : List String) : Prop :=
  ∀ piece ∈ pieces, piece ≠ "." → piece ≠ ".." →
    (Component.name piece).IsStep ∧ '\x00' ∉ piece.toList

/-- All links hold paths. -/
def PlainLinks (tree : FileTree) : Prop :=
  ∀ place target, tree.node? place = some (.link target) → '\x00' ∉ target.toList

section Names

variable {top tree : FileTree} {path : String} {d : Destination}

/-- A piece of a path that is no dot is a name. -/
theorem isStep_of_mem_pieces {piece : String} (hp : piece ∈ piecesOf path) (h₁ : piece ≠ ".")
    (h₂ : piece ≠ "..") : (Component.name piece).IsStep := by
  rw [piecesOf_eq] at hp
  obtain ⟨text, htext, rfl⟩ := List.mem_map.mp hp
  obtain ⟨hmem, hne⟩ := List.mem_filter.mp htext
  have hslash : '/' ∉ text := notMem_of_mem_splitOn hmem
  have hdot : text ≠ ['.'] := by
    rintro rfl
    exact h₁ rfl
  have hdots : text ≠ ['.', '.'] := by
    rintro rfl
    exact h₂ rfl
  have hlist : (Component.name (String.ofList text)).text.toList = text := String.toList_ofList
  refine ⟨?_, by rwa [hlist]⟩
  rw [hlist]
  simp [componentOf, hdot, hdots, show text ≠ [] by simpa using hne]

/-- A piece has no other characters than the path. -/
theorem mem_path_of_mem_piece {piece : String} (hp : piece ∈ piecesOf path) {c : Char}
    (hc : c ∈ piece.toList) : c ∈ path.toList := by
  rw [piecesOf_eq] at hp
  obtain ⟨text, htext, rfl⟩ := List.mem_map.mp hp
  rw [String.toList_ofList] at hc
  have hsub := intercalate_sublist ['/']
    (List.singleton_sublist.mpr (List.mem_filter.mp htext).1)
  rw [List.intercalate_splitOn, List.intercalate_singleton] at hsub
  exact hsub.subset hc

theorem spellNames_piecesOf (h : '\x00' ∉ path.toList) : SpellNames (piecesOf path) :=
  fun _ hp h₁ h₂ => ⟨isStep_of_mem_pieces hp h₁ h₂, fun hc => h (mem_path_of_mem_piece hp hc)⟩

theorem SpellNames.of_cons {piece : String} {pieces : List String}
    (h : SpellNames (piece :: pieces)) : SpellNames pieces :=
  fun p hp => h p (List.mem_cons_of_mem _ hp)

theorem SpellNames.append {pieces pieces' : List String} (h : SpellNames pieces)
    (h' : SpellNames pieces') : SpellNames (pieces ++ pieces') := by
  intro p hp
  rcases List.mem_append.mp hp with hp | hp
  · exact h p hp
  · exact h' p hp

theorem IsTidy.plainLinks (h : tree.IsTidy) : tree.PlainLinks := by
  intro place target hlink
  simpa [Node.isPlain] using h.isPlain hlink

/-- Links stay as they are when a tree grows. -/
theorem PlainLinks.of_growth (h : top.PlainLinks) (hgrowth : Growth top tree) : tree.PlainLinks :=
  fun place target hlink => h place target (hgrowth.link_of_link hlink)

/-- **The name at the end of a walk** is a piece of the path, or of the path in a link. -/
theorem name_of_follow (hlinks : top.PlainLinks) {last : LastLink} {links : Nat} {trail : Trail}
    {pieces : List String} {slash : Bool} (ht : trail.Of top) (hpieces : SpellNames pieces)
    (h : follow top last links trail pieces slash = .ok d) {name : String}
    (hname : d.name? = some name) : (Component.name name).IsStep ∧ '\x00' ∉ name.toList := by
  fun_induction follow top last links trail pieces slash with
  | case1 =>
    obtain rfl := Except.ok.inj h
    cases hname
  | case2 _ _ _ _ ih => exact ih ht hpieces.of_cons h
  | case3 _ _ _ _ _ ih => exact ih ht.tail hpieces.of_cons h
  | case4 | case6 | case8 | case12 => cases h
  | case5 _ _ _ piece h₁ h₂ | case7 _ _ _ piece h₁ h₂ | case9 _ _ _ piece h₁ h₂ =>
    obtain rfl := Except.ok.inj h
    obtain rfl := Option.some.inj hname
    exact hpieces piece List.mem_cons_self h₁ h₂
  | case10 _ _ _ _ _ _ _ _ _ hfind _ ih => exact ih (ht.cons hfind) hpieces.of_cons h
  | case11 _ _ _ piece _ h₁ h₂ =>
    obtain rfl := Except.ok.inj h
    obtain rfl := Option.some.inj hname
    exact hpieces piece List.mem_cons_self h₁ h₂
  | case13 trail _ piece _ _ _ _ target _ hfind _ _ _ _ ih =>
    have htarget : '\x00' ∉ target.toList :=
      hlinks (trail.place ++ [piece]) target (by rw [ht.node?_eq, hfind]; rfl)
    exact ih (ht.atLink target) ((spellNames_piecesOf htarget).append hpieces.of_cons) h

theorem isName_of_reach (hlinks : tree.PlainLinks) {last : LastLink}
    (hd : tree.reach last path = .ok d) {name : String} (hname : d.name? = some name)
    (hshort : name.utf8ByteSize ≤ nameLimit) : IsName name := by
  have hpass := passable_of_reach hd
  rw [reach_of_passable _ _ hpass] at hd
  obtain ⟨hstep, hplain⟩ :=
    name_of_follow hlinks (Trail.of_nil tree) (spellNames_piecesOf hpass.plain) hd hname
  exact ⟨hstep, hplain, hshort⟩

end Names

/-! ## 4. Operations -/

section Operations

variable {tree made tree' : FileTree} {path : String} {content : ByteArray}

theorem growth_of_makeDirectory (hlinks : tree.PlainLinks)
    (hmade : tree.makeDirectory path = .ok tree') : Growth tree tree' := by
  obtain ⟨d, name, hd, hname, hshort, hfree, rfl⟩ := exists_of_makeDirectory hmade
  rw [d.place_of_name? hname] at hfree ⊢
  exact .directory .refl (of_reach hd).node?_place (isName_of_reach hlinks hd hname hshort) hfree

/-- **Making directories** lets a tree grow. -/
theorem growth_of_makeDirectories (hlinks : tree.PlainLinks) {result : Except StorageError Unit}
    (hmade : tree.makeDirectories path = (tree', result)) : Growth tree tree' := by
  refine @makeDirectoriesWithin_induction (fun tree tree' => tree.PlainLinks → Growth tree tree')
    (fun _ => True) ?_ ?_ (fun _ h => h) ?_ _ _ _ _ _ trivial hmade hlinks
  · intro tree _
    exact .refl
  · intro tree tree' tree'' h h' hlinks
    exact (h hlinks).trans (h' (hlinks.of_growth (h hlinks)))
  · intro tree path tree' _ hmade hlinks
    exact growth_of_makeDirectory hlinks hmade

/-- **A file that is written** lets a tree grow by it. -/
theorem growth_of_write (hlinks : tree.PlainLinks)
    (hwrite : tree.write path content = .ok tree') : Growth tree tree' := by
  obtain ⟨d, name, node, hd, -, hname, hnode, -, hbefore, rfl⟩ := exists_of_write hwrite
  have hname' := isName_of_reach hlinks hd hname (d.short_of_node? hnode hname)
  rw [d.place_of_name? hname] at hbefore ⊢
  exact .file .refl (of_reach hd).node?_place hname' hbefore

/-- So does one for which directories are made. -/
theorem growth_of_writeDeep (hlinks : tree.PlainLinks)
    (hwrite : tree.writeDeep path content = (tree', .ok ())) : Growth tree tree' := by
  obtain ⟨made, hmade, hwritten⟩ := exists_of_writeDeep hwrite
  have hgrowth : Growth tree made := by
    rcases hmade with rfl | ⟨parent, result, -, hmade⟩
    · exact .refl
    · exact growth_of_makeDirectories hlinks hmade
  exact hgrowth.trans (growth_of_write (hlinks.of_growth hgrowth) hwritten)

end Operations

/-! ## 5. Files that are found again -/

section Finding

variable {top tree : FileTree} {links : Nat} {trail other : Trail} {pieces : List String}
  {slash : Bool} {d : Destination} {node : Option Node} {content : ByteArray}

/-- A file under the last name of a path is found, links followed or not. -/
theorem exists_follow_last {piece : String} (h₁ : piece ≠ ".") (h₂ : piece ≠ "..")
    (hd : Except.ok (ε := StorageError) ⟨trail, some piece, slash⟩ = .ok d)
    (hnode : d.node? top = .ok node) (hfile : tree.node? d.place = some (.file content))
    (ho : other.Of tree) (hplace : other.place = trail.place) :
    ∃ d', follow tree .followed links other [piece] slash = .ok d' ∧ d'.place = d.place ∧
      d'.node? tree = .ok (some (.file content)) ∧ d'.slash = d.slash := by
  obtain rfl := Except.ok.inj hd
  have hentry : ((other.holds tree).find? piece).map (·.1) = some (.file content) := by
    rw [← ho.node?_eq, hplace]
    exact hfile
  refine ⟨⟨other, some piece, slash⟩, follow_last h₁ h₂ (fun target within hlink => ?_) .., ?_, ?_,
    rfl⟩
  · rw [hlink] at hentry
    cases hentry
  · rw [Destination.place_of_name? rfl, Destination.place_of_name? rfl]
    exact congrArg (· ++ [piece]) hplace
  · have hsize := Destination.short_of_node? hnode rfl
    simp only [Destination.node?, if_neg (Nat.not_lt.mpr hsize), hentry]

/-- **Where a file can be written one is found** along the same path, in every tree that keeps the
ways and has a file there. -/
theorem exists_follow_of_keepsWays (hways : KeepsWays top tree)
    (h : follow top .followedWithoutSlash links trail pieces slash = .ok d)
    (hslash : d.slash = false) (hnode : d.node? top = .ok node) (hdir : node ≠ some .directory)
    (hfile : tree.node? d.place = some (.file content)) (ht : trail.Of top) (ho : other.Of tree)
    (hplace : other.place = trail.place) :
    ∃ d', follow tree .followed links other pieces slash = .ok d' ∧ d'.place = d.place ∧
      d'.node? tree = .ok (some (.file content)) ∧ d'.slash = d.slash := by
  fun_induction follow top .followedWithoutSlash links trail pieces slash generalizing other with
  | case1 =>
    obtain rfl := Except.ok.inj h
    exact absurd (Except.ok.inj hnode).symm hdir
  | case2 _ _ _ _ ih =>
    rw [follow, if_pos rfl]
    exact ih h ht ho hplace
  | case3 _ _ _ _ _ ih =>
    rw [follow, if_neg (by decide), if_pos rfl]
    exact ih h ht.tail ho.tail (Trail.place_tail hplace)
  | case4 | case6 | case8 | case12 => cases h
  | case5 _ _ _ _ h₁ h₂ | case7 _ _ _ _ h₁ h₂ | case9 _ _ _ _ h₁ h₂ =>
    exact exists_follow_last h₁ h₂ h hnode hfile ho hplace
  | case10 _ _ _ _ _ h₁ h₂ hsize _ hfind hrest ih =>
    obtain ⟨within', hfind'⟩ := exists_find?_of_keepsWays hways ht ho hplace hfind (by simp)
    rw [follow_directory h₁ h₂ (Nat.not_lt.mp fun hlong => hsize ⟨hrest, hlong⟩) hfind' hrest]
    exact ih h (ht.cons hfind) (ho.cons hfind') (by simp [hplace])
  | case11 _ _ _ _ _ _ _ _ _ _ _ hkept =>
    -- a link is the end only with a slash behind it
    obtain rfl := Except.ok.inj h
    have hfollowed : LastLink.followedWithoutSlash.follows _ = true := congrArg (!·) hslash
    rw [hfollowed] at hkept
    cases hkept.2
  | case13 _ _ _ _ h₁ h₂ hsize target _ hfind =>
    rename_i ih
    obtain ⟨within', hfind'⟩ := exists_find?_of_keepsWays hways ht ho hplace hfind (by simp)
    rw [follow, if_neg h₁, if_neg h₂, if_neg hsize, hfind']
    simp only [LastLink.follows, Bool.not_true, Bool.false_eq_true, and_false, if_false]
    exact ih h (ht.atLink target) (ho.atLink target) (Trail.place_atLink hplace target)

/-- **A file that was written is found** by its path, also when the tree grows on. -/
theorem exists_lookUp_of_write {path : String} (hwrite : top.write path content = .ok tree) :
    ∃ place, Puts top tree place (.file content) ∧
      ∀ later, Growth tree later →
        ∃ content', later.lookUp path = .ok (place, .file (.bytes content')) := by
  obtain ⟨d, name, node, hd, hslash, hname, hnode, hdir, hbefore, rfl⟩ := exists_of_write hwrite
  have hputs := puts_put (of_reach hd) hname (.file content)
  have hpass := passable_of_reach hd
  refine ⟨d.place, hputs, fun later hgrowth => ?_⟩
  have hways := (hputs.keepsWays hbefore).trans hgrowth.keepsWays
  obtain ⟨content', hfile⟩ := hgrowth.exists_file hputs.node?_place
  rw [reach_of_passable _ _ hpass] at hd
  obtain ⟨e, he, hplace, hfound, hslash'⟩ := exists_follow_of_keepsWays hways hd hslash hnode hdir
    hfile (Trail.of_nil top) (Trail.of_nil later) rfl
  refine ⟨content', lookUp_eq_ok_iff.mpr ⟨e, ?_, hfound, ?_, hplace⟩⟩
  · rw [reach_of_passable _ _ hpass]
    exact he
  · rw [hslash', hslash]
    nofun

end Finding

end FileTree
end ScriptWeave
