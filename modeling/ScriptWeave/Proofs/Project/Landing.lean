/-
# Where the files of an output come to be

The path of an output directory may lead anywhere: it may go up again, come along links, and pass
through directories that are made only while the output is written.  So where a file comes to be is
seen on the disk and not in its path.  What can be said of every path is that content is found where
its path leads in the end, and that nothing else has changed, but for directories that were made
(`Landed`).

A path without `..` that meets no link is the exception: below it, files come to be where it says
(`place_of_spelledOut`).

**Stated here.**  What writing entries with content does on any path (`landed_of_writeEntries`), and
so what a batch that removes nothing does (`landed_of_update`).
-/
import ScriptWeave.Proofs.FileTree.Untouched
import ScriptWeave.Proofs.Project.Containment
import ScriptWeave.Proofs.Project.Entries
import ScriptWeave.Proofs.Project.Incremental

namespace ScriptWeave

open FilePath FileTree

namespace Artifacts

/-! ## 1. Content on any path -/

/-- Entries with content were written: each is a file where its path leads, also when the tree grows
on, and all else stays.  Without links, even what is new has names of the paths only. -/
structure Landed (dir : String) (entries : List (String × Artifact)) (tree tree' : FileTree) :
    Prop where
  growth : Growth tree tree'
  found : ∀ e ∈ entries, ∃ place, ∀ later, Growth tree' later →
    ∃ bytes, later.lookUp (FilePath.join dir e.1) = .ok (place, .file (.bytes bytes))
  others : ∀ place, (∀ e ∈ entries, tree'.canonical (FilePath.join dir e.1) ≠ .ok place) →
    Stays (tree.node? place) (tree'.node? place)
  under : tree.NoLinks → ∀ name, name ≠ "." →
    (∀ e ∈ entries, name ∉ piecesOf (FilePath.join dir e.1)) → KeepsUnder name tree tree'

section Landed

variable {dir : String} {entries later : List (String × Artifact)} {tree tree₁ tree' : FileTree}

theorem Landed.refl (dir : String) (tree : FileTree) : Landed dir [] tree tree where
  growth := .refl
  found := by simp
  others := fun _ _ => Or.inl rfl
  under := fun _ name _ _ => KeepsUnder.refl name tree

/-- A file that was written stays where its path leads, when the tree grows on. -/
theorem Landed.exists_file (h : Landed dir entries tree tree₁) (hgrowth : Growth tree₁ tree')
    {e : String × Artifact} (he : e ∈ entries) {place : Location}
    (hplace : tree₁.canonical (FilePath.join dir e.1) = .ok place) :
    ∃ bytes, tree'.lookUp (FilePath.join dir e.1) = .ok (place, .file (.bytes bytes)) := by
  obtain ⟨other, hother⟩ := h.found e he
  obtain ⟨content, hlook⟩ := hother tree₁ .refl
  obtain ⟨node, hnode⟩ := canonical_eq_ok_iff.mp hplace
  obtain ⟨rfl, -⟩ := Prod.mk.inj (Except.ok.inj (hlook.symm.trans hnode))
  exact hother tree' hgrowth

theorem Landed.trans (h : Landed dir entries tree tree₁) (h' : Landed dir later tree₁ tree') :
    Landed dir (entries ++ later) tree tree' where
  growth := h.growth.trans h'.growth
  found := by
    intro e he
    rcases List.mem_append.mp he with he | he
    · obtain ⟨place, hplace⟩ := h.found e he
      exact ⟨place, fun last hlast => hplace last (h'.growth.trans hlast)⟩
    · exact h'.found e he
  others := by
    intro place hplace
    have hfirst := h.others place fun e he hthere => by
      obtain ⟨content, hlook⟩ := h.exists_file h'.growth he hthere
      exact hplace e (List.mem_append_left _ he) (canonical_eq_ok_iff.mpr ⟨_, hlook⟩)
    have hthen := h'.others place fun e he => hplace e (List.mem_append_right _ he)
    exact hfirst.trans hthen
  under := by
    intro hlinks name hdot hnames
    have hfirst := h.under hlinks name hdot fun e he => hnames e (List.mem_append_left _ he)
    have hthen := h'.under (hlinks.of_growth h.growth) name hdot fun e he =>
      hnames e (List.mem_append_right _ he)
    exact hfirst.trans hthen

/-- **One file.** -/
theorem landed_of_writeDeep (hlinks : tree.PlainLinks) {name : String} {bytes : ByteArray}
    (hwrite : tree.writeDeep (FilePath.join dir name) bytes = (tree', .ok ())) :
    Landed dir [(name, .content bytes)] tree tree' := by
  obtain ⟨made, hmade, hwritten⟩ := exists_of_writeDeep hwrite
  have hgains : GainsDirectories tree made := by
    rcases hmade with rfl | ⟨parent, result, -, hmade⟩
    · exact GainsDirectories.refl made
    · exact gainsDirectories_of_makeDirectories hmade
  obtain ⟨place, hputs, hfound⟩ := exists_lookUp_of_write hwritten
  refine ⟨growth_of_writeDeep hlinks hwrite, ?_, fun other hother => ?_,
    fun hnone other hdot hother => ?_⟩
  · intro e he
    rw [List.mem_singleton.mp he]
    exact ⟨place, hfound⟩
  · have hne : other ≠ place := by
      rintro rfl
      obtain ⟨content, hlook⟩ := hfound tree' .refl
      exact hother _ List.mem_cons_self (canonical_eq_ok_iff.mpr ⟨_, hlook⟩)
    rw [hputs.node?_of_ne hne]
    exact hgains.nodes other
  · exact keepsUnder_of_writeDeep hnone hdot (hother _ List.mem_cons_self) hwrite

/-- **Entries with content in turn.** -/
theorem landed_of_writeEntries :
    ∀ {entries : List (String × Artifact)} {tree : FileTree} {summary summary' : WriteCounts},
      tree.PlainLinks → (∀ e ∈ entries, e.2 ≠ .tombstone) →
      writeEntries dir entries tree summary = (tree', .ok summary') →
      Landed dir entries tree tree'
  | [], tree, _, _, _, _, hwrite => by
    obtain rfl := congrArg Prod.fst hwrite
    exact Landed.refl dir tree
  | (name, .tombstone) :: rest, _, _, _, _, hcontent, _ =>
    absurd rfl (hcontent (name, .tombstone) List.mem_cons_self)
  | (name, .content bytes) :: rest, tree, summary, _, hlinks, hcontent, hwrite => by
    rw [writeEntries, writeEntry_content] at hwrite
    split at hwrite
    · cases hwrite
    rename_i hentry
    split at hentry
    · cases hentry
    rename_i hdeep
    obtain rfl := congrArg Prod.fst hentry
    have hone := landed_of_writeDeep hlinks hdeep
    exact hone.trans (landed_of_writeEntries (hlinks.of_growth hone.growth)
      (fun e he => hcontent e (List.mem_cons_of_mem _ he)) hwrite)

end Landed

end Artifacts

/-! ## 2. A batch that removes nothing -/

namespace Builder

section Batch

variable {builder : Builder} {args : Option OptionLayer} {changes : Changes} {key : String}

/-- A tombstone in the output of a batch that does not fail is that of a removed file. -/
theorem removed_of_tombstone {past : List CompileRequest}
    (hok : (builder.run changes ∅ args past).failure = none)
    (h : (builder.run changes ∅ args past).output.get? key = some .tombstone) :
    changes.removed.contains key = true := by
  have hfree : ∀ v ∈ builder.visits changes args past, v.name ≠ key := by
    rintro v hv rfl
    obtain ⟨hupdated, hkept⟩ := mem_of_mem_visits hv
    obtain ⟨w, hw, hname, -, entries, hentries⟩ := exists_visit_of_success hok hupdated hkept
    obtain ⟨bytes, -, hget⟩ := get?_output_run_of_mem hw hentries
    rw [hname, h] at hget
    cases hget
  have hmap : ∀ v ∈ builder.visits changes args past, ∀ map, builder.MadeMap args v map →
      sourceMapName v.name ≠ key := by
    rintro v hv map hm rfl
    rw [get?_output_run_of_madeMap hv hm hfree] at h
    cases h
  rw [get?_output_run_of_untouched hfree hmap] at h
  split at h
  · assumption
  · cases h

/-- **A batch that removes nothing** writes content only. -/
theorem landed_of_update {dir : String} {tree tree' : FileTree} (hlinks : tree.PlainLinks)
    (hremoved : changes.removed = ∅) (hup : builder.update args dir changes tree = some tree') :
    Artifacts.Landed dir (builder.run changes ∅ args []).output.entries tree tree' := by
  obtain ⟨hok, summary, hwrite⟩ := update_eq_some_iff.mp hup
  refine Artifacts.landed_of_writeEntries hlinks (fun e he hburied => ?_) hwrite
  have hcontains : changes.removed.contains e.1 = true :=
    removed_of_tombstone hok (hburied ▸ SortedMap.get?_eq_some_iff.mpr he)
  rw [hremoved] at hcontains
  cases hcontains

end Batch

end Builder

namespace ProjectScope

section Output

variable {scope : ProjectScope} {tree : FileTree} {base names : Location} {current key : String}
  {builder : Builder} {args : Option OptionLayer} {past : List CompileRequest} {entry : Artifact}
  {content : ByteArray}

/-- The name of a file that the walk comes to is visible. -/
theorem Walked.isVisible (h : scope.RootedAt tree base) (hne : names ≠ [])
    (hwalked : scope.Walked tree current base names content) :
    IsVisible (String.intercalate "/" names) := by
  have hsteps : ∀ n ∈ names, (Component.name n).IsStep := fun n hn =>
    (hwalked.isName h n (List.mem_append_right base hn)).step
  obtain ⟨-, hhidden, -⟩ := kept_of_excludes_eq_false hwalked.kept
    (h.root ▸ relative?_pathTo (h.isStep_append hsteps))
  have hvisible := isVisible_intercalate (by simpa using hne) (isStep_of_mem_map hsteps) hhidden
  simpa [Function.comp_def, Component.text] using hvisible

/-- What is put out for a whole project has the name of a file that the walk comes to, or of its
source map. -/
theorem exists_walked_of_output (h : scope.RootedAt tree base)
    (hget : (builder.run (scope.wholeProject tree current) ∅ args past).output.get? key
      = some entry) : ∃ names content, names ≠ [] ∧
        scope.Walked tree current base names content ∧
        (key = String.intercalate "/" names ∨
          key = sourceMapName (String.intercalate "/" names)) := by
  have hwalked : ∀ name, (scope.wholeProject tree current).Concerns name → ∃ names content,
      names ≠ [] ∧ scope.Walked tree current base names content ∧
        name = String.intercalate "/" names := by
    rintro name (hremoved | ⟨content, hupdated⟩)
    · cases hremoved
    · obtain ⟨names, hne, hname, hwalked⟩ := (get?_wholeProject_eq_some_iff h).mp hupdated
      exact ⟨names, content, hne, hwalked, hname⟩
  rcases Builder.concerns_of_get?_output_run hget with hkey | ⟨name, hname, rfl⟩
  · obtain ⟨names, content, hne, hw, heq⟩ := hwalked key hkey
    exact ⟨names, content, hne, hw, Or.inl heq⟩
  · obtain ⟨names, content, hne, hw, heq⟩ := hwalked name hname
    exact ⟨names, content, hne, hw, Or.inr (congrArg sourceMapName heq)⟩

/-- **The names in the output of a whole project** are visible. -/
theorem isVisible_of_output (h : scope.RootedAt tree base)
    (hget : (builder.run (scope.wholeProject tree current) ∅ args past).output.get? key
      = some entry) : IsVisible key := by
  obtain ⟨names, content, hne, hwalked, rfl | rfl⟩ := exists_walked_of_output h hget
  · exact hwalked.isVisible h hne
  · exact (hwalked.isVisible h hne).append (by decide)

end Output

end ProjectScope

/-! ## 3. Directories that are spelled out -/

namespace FileTree

/-- The path is written from the top without `..`, and no link stands on the way to the location of
its components, at it, or below it. -/
structure SpelledOut (tree : FileTree) (dir : String) (out : Location) : Prop where
  path : components dir.toList = .root :: out.map .name
  noLinks : ∀ rest, tree.NoLinkOn (out ++ rest)

/-- **Below a directory that is spelled out** a path leads where it says, also when the tree has
grown. -/
theorem place_of_spelledOut {tree tree' : FileTree} {dir name : String} {out place : Location}
    (h : tree.SpelledOut dir out) (hgrowth : Growth tree tree') (hname : IsNormal name)
    (hplace : tree'.canonical (FilePath.join dir name) = .ok place) :
    place = out ++ piecesOf name := by
  obtain ⟨node, hlook⟩ := canonical_eq_ok_iff.mp hplace
  have hpath : components (FilePath.join dir name).toList
      = .root :: (out ++ piecesOf name).map .name := by
    rw [components_join dir hname, h.path, List.map_append, List.cons_append]
  have hlinks : tree'.NoLinkOn (out ++ piecesOf name) := by
    intro r hr target hlink
    exact h.noLinks _ r hr target (hgrowth.link_of_link hlink)
  exact (place_of_lookUp hpath hlinks hlook).1

end FileTree
end ScriptWeave
