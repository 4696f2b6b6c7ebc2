/-
# A path on which directories may be missing

The directories above a file are made before it is written, so a path may be written along that
leads nowhere yet.  It leads somewhere once the directories are made that are missing (`Aims`), and
to no other place than before if it did already.  A file that is removed has no such help: on a
path that leads nowhere there is nothing to remove.

**Stated here.**  A file is written in the directory that its path leads to once directories are
made (`exists_openBelow_of_writeDeep`), and on a path that leads nowhere nothing is removed
(`eq_of_removeIfPresent`).
-/
import ScriptWeave.Proofs.FileTree.Files

namespace ScriptWeave.FileTree

open FilePath

/-! ## 1. Where the output goes -/

/-- The path leads to the directory at this place, once directories that are missing are made. -/
def Aims (tree : FileTree) (dir : String) (out : Location) : Prop :=
  ∃ made, GainsDirectories tree made ∧ made.LeadsTo dir out

/-- Below the directory that the path leads to, once it is made, there are no links. -/
def NoLinksBelow (tree : FileTree) (dir : String) : Prop :=
  ∀ out, tree.Aims dir out → ∀ rest target, rest ≠ [] →
    tree.node? (out ++ rest) ≠ some (.link target)

section Aims

variable {tree made tree' : FileTree} {dir name : String} {out : Location} {content : ByteArray}

/-- The directory that the path leads to has no links below. -/
theorem openBelow_of_leadsTo (hsolid : tree.Solid) (hlinks : tree.NoLinksBelow dir)
    (hgains : GainsDirectories tree made) (hleads : made.LeadsTo dir out) :
    OpenBelow dir out made where
  leads := hleads
  noLinks := by
    intro rest target hrest hlink
    rcases hgains.nodes (out ++ rest) with heq | ⟨-, hdir⟩
    · exact hlinks out ⟨made, hgains, hleads⟩ rest target hrest (heq ▸ hlink)
    · rw [hdir] at hlink
      cases hlink
  solid := by
    intro rest name hne
    rw [← List.append_assoc] at hne
    exact hgains.solid hsolid _ _ hne

/-- Where the path leads somewhere already, it leads there still when directories were made. -/
theorem OpenBelow.noLinksBelow (h : OpenBelow dir out tree) : tree.NoLinksBelow dir := by
  rintro other ⟨made, hgains, hleads⟩
  obtain rfl := hleads.unique (h.leads.of_keepsWays hgains.keepsWays)
  exact h.noLinks

/-- A walk along the path of a file comes along the directory. -/
theorem exists_leadsTo_of_reach (hname : IsNormal name) {last : LastLink} {d : Destination}
    (hd : tree.reach last (FilePath.join dir name) = .ok d) : ∃ out, tree.LeadsTo dir out := by
  rw [reach_of_passable _ _ (passable_of_reach hd), piecesOf_join dir hname] at hd
  obtain ⟨links, trail, hleads⟩ := exists_leads_of_follow_append (piecesOf_ne_nil hname) hd
  exact ⟨trail.place, links, trail, hleads, rfl⟩

/-- **A file that is written** is written in the directory, when that is made. -/
theorem exists_openBelow_of_writeDeep (hsolid : tree.Solid) (hlinks : tree.NoLinksBelow dir)
    (hname : IsNormal name)
    (hwrite : tree.writeDeep (FilePath.join dir name) content = (tree', .ok ())) :
    ∃ out made, GainsDirectories tree made ∧ OpenBelow dir out made ∧
      made.write (FilePath.join dir name) content = .ok tree' := by
  obtain ⟨made, hmade, hwritten⟩ := exists_of_writeDeep hwrite
  have hgains : GainsDirectories tree made := by
    rcases hmade with rfl | ⟨parent, result, -, hmade⟩
    · exact GainsDirectories.refl made
    · exact gainsDirectories_of_makeDirectories hmade
  obtain ⟨d, node, hd, -⟩ := write_eq_ok_iff.mp hwritten
  obtain ⟨out, hleads⟩ := exists_leadsTo_of_reach hname hd
  exact ⟨out, made, hgains, openBelow_of_leadsTo hsolid hlinks hgains hleads, hwritten⟩

/-- On a path that leads nowhere there is no file. -/
theorem isFile_of_nowhere (hname : IsNormal name) (hnowhere : ∀ out, ¬ tree.LeadsTo dir out) :
    tree.isFile (FilePath.join dir name) = false := by
  by_contra hfile
  obtain ⟨content, hnode⟩ := isFile_eq_true_iff.mp ((Bool.not_eq_false _).mp hfile)
  obtain ⟨place, hlook⟩ := nodeAt_eq_ok_iff.mp hnode
  obtain ⟨d, hd, -⟩ := lookUp_eq_ok_iff.mp hlook
  obtain ⟨out, hleads⟩ := exists_leadsTo_of_reach hname hd
  exact hnowhere out hleads

/-- On a path that leads nowhere nothing is removed. -/
theorem eq_of_removeIfPresent (hname : IsNormal name) (hnowhere : ∀ out, ¬ tree.LeadsTo dir out)
    {wasThere : Bool}
    (hremove : Artifacts.removeIfPresent tree (FilePath.join dir name) = .ok (tree', wasThere)) :
    tree' = tree ∧ Passable (FilePath.join dir name) := by
  have hreach : ∀ last d, tree.reach last (FilePath.join dir name) ≠ .ok d := by
    intro last d hd
    obtain ⟨out, hleads⟩ := exists_leadsTo_of_reach hname hd
    exact hnowhere out hleads
  have hdir : tree.isDirectory (FilePath.join dir name) ≠ true := by
    intro hdir
    obtain ⟨d, hd, -⟩ := isDirectory_eq_true_iff.mp hdir
    exact hreach _ d hd
  rw [Artifacts.removeIfPresent, if_neg hdir, removeFile_eq] at hremove
  cases hkept : tree.reach .kept (FilePath.join dir name) with
  | ok d => exact absurd hkept (hreach _ d)
  | error e =>
    rw [hkept] at hremove
    cases e with
    | notFound =>
      obtain rfl := congrArg Prod.fst (Except.ok.inj hremove)
      exact ⟨rfl, passable_of_notFound hkept (join_ne_empty dir hname)⟩
    | _ => cases hremove

end Aims

/-! ## 2. Trees without links -/

/-- No link stands anywhere in the tree. -/
def isLinkFree : FileTree → Bool
  | nil => true
  | cons _ (.link _) _ _ => false
  | cons _ _ inside rest => inside.isLinkFree && rest.isLinkFree

theorem node?_ne_link_of_isLinkFree {tree : FileTree} (h : tree.isLinkFree = true)
    (place : Location) (target : String) : tree.node? place ≠ some (.link target) := by
  induction tree generalizing place with
  | nil =>
    intro hlink
    by_cases hplace : place = []
    · rw [hplace, node?_nil] at hlink
      cases hlink
    · rw [node?_of_nil hplace] at hlink
      cases hlink
  | cons name node inside rest ihInside ihRest =>
    intro hlink
    cases place with
    | nil => cases hlink
    | cons first place =>
      have hparts : (∀ target, node ≠ .link target) ∧ inside.isLinkFree = true ∧
          rest.isLinkFree = true := by
        cases node <;> simp_all [isLinkFree]
      obtain ⟨hnode, hinside, hrest⟩ := hparts
      by_cases hfirst : first = name
      · subst hfirst
        have hfind : (cons first node inside rest).find? first = some (node, inside) := if_pos rfl
        rw [node?_cons_of_find hfind] at hlink
        split at hlink
        · exact hnode target (Option.some.inj hlink)
        · exact ihInside hinside place hlink
      · rw [node?_cons_of_ne hfirst] at hlink
        exact ihRest hrest (first :: place) hlink

/-- Then none is below a directory. -/
theorem noLinksBelow_of_isLinkFree {tree : FileTree} (h : tree.isLinkFree = true) (dir : String) :
    tree.NoLinksBelow dir :=
  fun out _ rest target _ => node?_ne_link_of_isLinkFree h (out ++ rest) target

end ScriptWeave.FileTree
