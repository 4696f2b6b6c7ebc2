/-
# Names that a path does not have

What is made for a path stands under names of that path, as long as no link sends the walk somewhere
else.  So a name that the path does not have keeps a part of the tree out of reach: nothing is made
under it, and nothing that has it on its way is changed (`KeepsUnder`).

**Stated here.**  In a tree without links, a walk ends at names of its path
(`mem_piecesOf_of_reach`), and writing a file leaves all alone that has another name on its way
(`keepsUnder_of_writeDeep`).
-/
import ScriptWeave.Proofs.FileTree.Growth

namespace ScriptWeave.FileTree

open FilePath

/-! ## 1. Trees without links -/

/-- No link stands anywhere in the tree. -/
def NoLinks (tree : FileTree) : Prop :=
  ∀ place target, tree.node? place ≠ some (.link target)

section NoLinks

variable {top tree : FileTree} {path name : String} {d : Destination}

theorem NoLinks.noLinkOn (h : tree.NoLinks) (place : Location) : tree.NoLinkOn place :=
  fun r _ target => h r target

theorem NoLinks.plainLinks (h : tree.NoLinks) : tree.PlainLinks :=
  fun place target hlink => absurd hlink (h place target)

theorem NoLinks.of_growth (h : top.NoLinks) (hgrowth : Growth top tree) : tree.NoLinks :=
  fun place target hlink => h place target (hgrowth.link_of_link hlink)

/-- **A walk that meets no link** ends at a location whose names are those it started from, and
pieces of its path. -/
theorem mem_of_follow (hlinks : top.NoLinks) {last : LastLink} {links : Nat} {trail : Trail}
    {pieces : List String} {slash : Bool} (ht : trail.Of top)
    (h : follow top last links trail pieces slash = .ok d) (hname : name ∈ d.place) :
    name ∈ trail.place ∨ name ∈ pieces := by
  fun_induction follow top last links trail pieces slash with
  | case1 =>
    obtain rfl := Except.ok.inj h
    exact Or.inl (by simpa [Destination.place, Trail.place] using hname)
  | case2 _ _ _ _ ih => exact (ih ht h).imp_right (List.mem_cons_of_mem _)
  | case3 _ trail _ _ _ ih =>
    refine (ih ht.tail h).imp (fun htail => ?_) (List.mem_cons_of_mem _)
    rw [Trail.place, List.mem_reverse, List.map_tail] at htail
    exact List.mem_reverse.mpr (List.mem_of_mem_tail htail)
  | case4 | case6 | case8 | case12 => cases h
  | case5 | case7 | case9 =>
    obtain rfl := Except.ok.inj h
    rw [Destination.place_of_name? rfl, List.mem_append, List.mem_singleton] at hname
    exact hname.imp_right fun heq => List.mem_cons.mpr (Or.inl heq)
  | case10 _ _ _ _ _ _ _ _ _ hfind _ ih =>
    rcases ih (ht.cons hfind) h with htrail | hrest
    · rw [Trail.place_cons, List.mem_append, List.mem_singleton] at htrail
      exact htrail.imp_right fun heq => List.mem_cons.mpr (Or.inl heq)
    · exact Or.inr (List.mem_cons_of_mem _ hrest)
  | case11 _ trail _ piece _ _ _ _ target _ hfind | case13 trail _ piece _ _ _ _ target _ hfind =>
    refine absurd ?_ (hlinks (trail.place ++ [piece]) target)
    rw [ht.node?_eq, hfind]
    rfl

theorem mem_piecesOf_of_reach (hlinks : tree.NoLinks) {last : LastLink}
    (hd : tree.reach last path = .ok d) (hname : name ∈ d.place) : name ∈ piecesOf path := by
  rw [reach_of_passable _ _ (passable_of_reach hd)] at hd
  exact (mem_of_follow hlinks (Trail.of_nil tree) hd hname).resolve_left List.not_mem_nil

end NoLinks

/-! ## 2. What stays as it was -/

/-- What has this name on its way is as it was. -/
def KeepsUnder (name : String) (tree tree' : FileTree) : Prop :=
  ∀ place, name ∈ place → tree'.node? place = tree.node? place

section KeepsUnder

variable {tree tree' tree'' : FileTree} {path name : String} {content : ByteArray}

theorem KeepsUnder.refl (name : String) (tree : FileTree) : KeepsUnder name tree tree :=
  fun _ _ => rfl

theorem KeepsUnder.trans (h : KeepsUnder name tree tree') (h' : KeepsUnder name tree' tree'') :
    KeepsUnder name tree tree'' :=
  fun place hplace => (h' place hplace).trans (h place hplace)

/-- A node at a location without the name. -/
theorem Puts.keepsUnder {place : Location} {node : Node} (h : Puts tree tree' place node)
    (hplace : name ∉ place) : KeepsUnder name tree tree' := by
  intro other hother
  refine h.node?_of_ne ?_
  rintro rfl
  exact hplace hother

theorem keepsUnder_of_makeDirectory (hlinks : tree.NoLinks) (hname : name ∉ piecesOf path)
    (hmade : tree.makeDirectory path = .ok tree') : KeepsUnder name tree tree' := by
  obtain ⟨d, last, hd, hlast, -, -, rfl⟩ := exists_of_makeDirectory hmade
  exact (puts_put (of_reach hd) hlast .directory).keepsUnder fun hmem =>
    hname (mem_piecesOf_of_reach hlinks hd hmem)

/-- **Directories that are made** for a path. -/
theorem keepsUnder_of_makeDirectories (hlinks : tree.NoLinks) (hdot : name ≠ ".")
    (hname : name ∉ piecesOf path) {result : Except StorageError Unit}
    (hmade : tree.makeDirectories path = (tree', result)) : KeepsUnder name tree tree' := by
  refine (@makeDirectoriesWithin_induction
    (fun tree tree' => tree.NoLinks → tree'.NoLinks ∧ KeepsUnder name tree tree')
    (fun path => name ∉ piecesOf path) ?_ ?_ ?_ ?_ _ _ _ _ _ hname hmade hlinks).2
  · intro tree hlinks
    exact ⟨hlinks, KeepsUnder.refl name tree⟩
  · intro tree tree' tree'' h h' hlinks
    obtain ⟨hlinks', hkeeps⟩ := h hlinks
    obtain ⟨hlinks'', hkeeps'⟩ := h' hlinks'
    exact ⟨hlinks'', hkeeps.trans hkeeps'⟩
  · intro path parent hparent hpath hmem
    exact hpath (mem_piecesOf_of_parent? hparent hdot hmem)
  · intro tree path tree' hpath hmade hlinks
    have hgrowth := growth_of_makeDirectory hlinks.plainLinks hmade
    exact ⟨hlinks.of_growth hgrowth, keepsUnder_of_makeDirectory hlinks hpath hmade⟩

theorem keepsUnder_of_write (hlinks : tree.NoLinks) (hname : name ∉ piecesOf path)
    (hwrite : tree.write path content = .ok tree') : KeepsUnder name tree tree' := by
  obtain ⟨d, last, node, hd, -, hlast, -, -, -, rfl⟩ := exists_of_write hwrite
  exact (puts_put (of_reach hd) hlast (.file content)).keepsUnder fun hmem =>
    hname (mem_piecesOf_of_reach hlinks hd hmem)

/-- **A file that is written**, and the directories above it. -/
theorem keepsUnder_of_writeDeep (hlinks : tree.NoLinks) (hdot : name ≠ ".")
    (hname : name ∉ piecesOf path)
    (hwrite : tree.writeDeep path content = (tree', .ok ())) : KeepsUnder name tree tree' := by
  obtain ⟨made, hmade, hwritten⟩ := exists_of_writeDeep hwrite
  rcases hmade with rfl | ⟨parent, result, hparent, hmade⟩
  · exact keepsUnder_of_write hlinks hname hwritten
  · have habove : name ∉ piecesOf parent := fun hmem =>
      hname (mem_piecesOf_of_parent? hparent hdot hmem)
    have hlinks' := hlinks.of_growth (growth_of_makeDirectories hlinks.plainLinks hmade)
    exact (keepsUnder_of_makeDirectories hlinks hdot habove hmade).trans
      (keepsUnder_of_write hlinks' hname hwritten)

end KeepsUnder

end ScriptWeave.FileTree
