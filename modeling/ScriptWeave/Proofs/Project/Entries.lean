/-
# What the entries of an output do to the disk

Below a directory that is there, every entry that is carried out does what it says and nothing else
(`Wrote`): content is found at its place, the files of a tombstone are gone, and all other
places stay as they were, except that directories may have been made.

A directory that is not there is made by the first entry with content.  The tombstones before that
entry are carried out on a path that leads nowhere, and do nothing at all (`Idle`).

**Stated here.**  What entries do in turn, where the path leads to a directory
(`wrote_of_writeEntries`) and where it leads nowhere (`exists_idle_of_writeEntries`).
-/
import ScriptWeave.Proofs.FileTree.Aims
import ScriptWeave.Proofs.Project.Writing

namespace ScriptWeave
namespace FileTree

open FilePath

/-! ## 1. Files by name -/

section Held

variable {tree : FileTree} {dir name : String} {out : Location}

theorem held_eq_some_iff {content : FileContent} :
    tree.held out name = some content ↔
      tree.node? (out ++ piecesOf name) = some (.file content) :=
  fileAt_eq_some_iff

/-- Where no file is held there is none. -/
theorem OpenBelow.isFile_eq_false (h : OpenBelow dir out tree) (hname : IsNormal name)
    (hheld : tree.held out name = none) : tree.isFile (FilePath.join dir name) = false := by
  by_contra hfile
  obtain ⟨content, hnode⟩ := isFile_eq_true_iff.mp ((Bool.not_eq_false _).mp hfile)
  have hthere := h.node?_of_nodeAt hname hnode
  rw [held_eq_some_iff.mpr hthere] at hheld
  cases hheld

/-- Where there is none of a name that fits, none is held. -/
theorem OpenBelow.held_eq_none (h : OpenBelow dir out tree) (hfits : FitsBelow dir name)
    (hfile : tree.isFile (FilePath.join dir name) = false) : tree.held out name = none := by
  refine Option.eq_none_iff_forall_ne_some.mpr fun content hheld => ?_
  have hnode := h.nodeAt_of_fits hfits (held_eq_some_iff.mp hheld)
  rw [isFile_eq_true_iff.mpr ⟨content, hnode⟩] at hfile
  cases hfile

/-- What stands on a disk has no name that is too long. -/
theorem fitsBelow_of_held (hdisk : tree.IsDisk) (hname : IsNormal name)
    (hpass : Passable (FilePath.join dir name)) {content : FileContent}
    (hheld : tree.held out name = some content) : FitsBelow dir name where
  normal := hname
  passable := hpass
  short := by
    intro piece hpiece
    have hnode := held_eq_some_iff.mp hheld
    exact (hdisk.isName_of_mem (by rw [hnode]; simp) piece
      (List.mem_append_right _ hpiece)).short

end Held

/-- What was at a place stays; where nothing was, there may be a directory now. -/
def Stays (old new : Option Node) : Prop := new = old ∨ old = none ∧ new = some .directory

theorem Stays.trans {old mid new : Option Node} (h : Stays old mid) (h' : Stays mid new) :
    Stays old new := by
  rcases h with rfl | ⟨hnone, hdir⟩
  · exact h'
  · rcases h' with rfl | ⟨hnone', -⟩
    · exact Or.inr ⟨hnone, hdir⟩
    · rw [hdir] at hnone'
      cases hnone'

/-- So no file comes or goes. -/
theorem Stays.file_iff {old new : Option Node} (h : Stays old new) (content : FileContent) :
    new = some (.file content) ↔ old = some (.file content) := by
  rcases h with rfl | ⟨rfl, rfl⟩
  · exact Iff.rfl
  · simp

end FileTree

namespace Artifacts

open FilePath FileTree

/-! ## 2. What entries do -/

/-- The entries are about the file of this name. -/
def Concerned (entries : List (String × Artifact)) (k : String) : Prop :=
  ∃ e ∈ entries, k = e.1 ∨ e.2 = .tombstone ∧ k = sourceMapName e.1

/-- The entries were carried out below a directory: the files they are about are as they leave
them, all else stays, and content has a name that fits. -/
structure Wrote (dir : String) (out : Location) (entries : List (String × Artifact))
    (tree tree' : FileTree) : Prop where
  openBelow : OpenBelow dir out tree'
  solid : tree'.Solid
  held : ∀ k, IsNormal k → tree'.held out k = leavesAll entries k (tree.held out k)
  others : ∀ place, (∀ k, Concerned entries k → place ≠ out ++ piecesOf k) →
    Stays (tree.node? place) (tree'.node? place)
  fits : ∀ k bytes, (k, Artifact.content bytes) ∈ entries → FitsBelow dir k

section Wrote

variable {dir : String} {out : Location} {entries later : List (String × Artifact)}
  {tree made tree₁ tree' : FileTree} {name : String} {bytes : ByteArray}

theorem Wrote.refl (hopen : OpenBelow dir out tree) (hsolid : tree.Solid) :
    Wrote dir out [] tree tree where
  openBelow := hopen
  solid := hsolid
  held := fun _ _ => rfl
  others := fun _ _ => Or.inl rfl
  fits := by simp

theorem Wrote.trans (h : Wrote dir out entries tree tree₁)
    (h' : Wrote dir out later tree₁ tree') : Wrote dir out (entries ++ later) tree tree' where
  openBelow := h'.openBelow
  solid := h'.solid
  held := by
    intro k hk
    rw [h'.held k hk, h.held k hk, leavesAll_append]
  others := by
    intro place hplace
    have hfirst := h.others place fun k ⟨e, he, hk⟩ =>
      hplace k ⟨e, List.mem_append_left _ he, hk⟩
    have hthen := h'.others place fun k ⟨e, he, hk⟩ =>
      hplace k ⟨e, List.mem_append_right _ he, hk⟩
    exact hfirst.trans hthen
  fits := by
    intro k bytes hmem
    rcases List.mem_append.mp hmem with hmem | hmem
    · exact h.fits k bytes hmem
    · exact h'.fits k bytes hmem

theorem append_piecesOf_eq_iff {k other : String} (hk : IsNormal k) (hother : IsNormal other) :
    out ++ piecesOf k = out ++ piecesOf other ↔ k = other := by
  constructor
  · intro heq
    exact piecesOf_injective hk hother (List.append_cancel_left heq)
  · rintro rfl
    rfl

/-- **Content** is written in a directory that was made for it. -/
theorem wrote_content (hsolid : tree.Solid) (hname : IsNormal name)
    (hgains : GainsDirectories tree made) (hopen : OpenBelow dir out made)
    (hwritten : made.write (FilePath.join dir name) bytes = .ok tree') :
    Wrote dir out [(name, .content bytes)] tree tree' := by
  obtain ⟨hfits, hputs, hbefore⟩ := hopen.write_spec hname hwritten
  refine ⟨hopen.of_putFile hputs hbefore, hputs.solid (hgains.solid hsolid) hbefore,
    fun k hk => ?_, fun place hplace => ?_, fun k bytes' hmem => ?_⟩
  · change tree'.fileAt _ = if k = name then some (.bytes bytes) else tree.fileAt _
    split
    · rename_i heq
      rw [heq, fileAt_eq_some_iff, hputs.node?_place]
    · rename_i hne
      rw [← hgains.fileAt_eq]
      exact fileAt_congr
        (hputs.node?_of_ne fun heq => hne ((append_piecesOf_eq_iff hk hname).mp heq))
  · rw [hputs.node?_of_ne (hplace name ⟨_, List.mem_cons_self, Or.inl rfl⟩)]
    exact hgains.nodes place
  · obtain ⟨rfl, -⟩ := Prod.mk.inj (List.mem_singleton.mp hmem)
    exact hfits

/-- Where a file was removed, or none was, the directory is as it was, and so is all else. -/
theorem kept_of_removed (hopen : OpenBelow dir out tree) (hsolid : tree.Solid) {place : Location}
    (h : Removes tree tree' place ∨ tree' = tree ∧ tree.fileAt place = none) :
    OpenBelow dir out tree' ∧ tree'.Solid ∧
      ∀ other, other ≠ place → tree'.node? other = tree.node? other := by
  rcases h with hremoves | ⟨rfl, -⟩
  · exact ⟨hopen.of_removes hremoves, hremoves.solid hsolid, fun _ => hremoves.node?_of_ne⟩
  · exact ⟨hopen, hsolid, fun _ _ => rfl⟩

/-- **A tombstone** removes two files, if they are there. -/
theorem wrote_tombstone (hopen : OpenBelow dir out tree) (hsolid : tree.Solid)
    (hname : IsNormal name) {summary summary' : WriteCounts}
    (hwrite : writeTombstone dir name tree summary = (tree', .ok summary')) :
    Wrote dir out [(name, .tombstone)] tree tree' := by
  obtain ⟨tree₁, wasThere, mapThere, hown, hmap⟩ := exists_of_writeTombstone hwrite
  have hmapName := isNormal_sourceMapName hname
  have hfirst := hopen.removeIfPresent_cases hname hown
  obtain ⟨hopen₁, hsolid₁, hothers₁⟩ := kept_of_removed hopen hsolid hfirst
  have hsecond := hopen₁.removeIfPresent_cases hmapName hmap
  obtain ⟨hopen₂, hsolid₂, hothers₂⟩ := kept_of_removed hopen₁ hsolid₁ hsecond
  refine ⟨hopen₂, hsolid₂, fun k hk => ?_, fun place hplace => Or.inl ?_, by simp⟩
  · change tree'.fileAt _ = if k = name ∨ k = sourceMapName name then none else tree.fileAt _
    rw [fileAt_of_removed hsecond, fileAt_of_removed hfirst]
    simp only [append_piecesOf_eq_iff hk hname, append_piecesOf_eq_iff hk hmapName]
    by_cases hk₁ : k = name <;> by_cases hk₂ : k = sourceMapName name <;> simp [hk₁, hk₂]
  · rw [hothers₂ place (hplace _ ⟨_, List.mem_cons_self, Or.inr ⟨rfl, rfl⟩⟩),
      hothers₁ place (hplace _ ⟨_, List.mem_cons_self, Or.inl rfl⟩)]

/-- **Entries in turn**, below a directory that is there. -/
theorem wrote_of_writeEntries :
    ∀ {entries : List (String × Artifact)} {tree : FileTree} {summary summary' : WriteCounts},
      OpenBelow dir out tree → tree.Solid → (∀ e ∈ entries, IsNormal e.1) →
      writeEntries dir entries tree summary = (tree', .ok summary') →
      Wrote dir out entries tree tree'
  | [], tree, _, _, hopen, hsolid, _, hwrite => by
    obtain rfl := congrArg Prod.fst hwrite
    exact Wrote.refl hopen hsolid
  | (name, entry) :: rest, tree, summary, summary', hopen, hsolid, hnames, hwrite => by
    have hname : IsNormal name := hnames _ List.mem_cons_self
    rw [writeEntries] at hwrite
    split at hwrite
    · cases hwrite
    rename_i tree₁ summary₁ hentry
    have hone : Wrote dir out [(name, entry)] tree tree₁ := by
      cases entry with
      | tombstone => exact wrote_tombstone hopen hsolid hname hentry
      | content bytes =>
        rw [writeEntry_content] at hentry
        split at hentry
        · cases hentry
        rename_i hdeep
        obtain rfl := congrArg Prod.fst hentry
        obtain ⟨out', made, hgains, hopen', hwritten⟩ :=
          exists_openBelow_of_writeDeep hsolid hopen.noLinksBelow hname hdeep
        obtain rfl := hopen'.leads.unique (hopen.leads.of_keepsWays hgains.keepsWays)
        exact wrote_content hsolid hname hgains hopen' hwritten
    exact hone.trans (wrote_of_writeEntries hone.openBelow hone.solid
      (fun e he => hnames e (List.mem_cons_of_mem _ he)) hwrite)

end Wrote

/-! ## 3. Tombstones before the first content -/

/-- The tombstone was carried out on paths that led nowhere, though they could be walked along. -/
structure Idle (dir : String) (e : String × Artifact) : Prop where
  tombstone : e.2 = .tombstone
  passable : Passable (FilePath.join dir e.1)
  mapPassable : Passable (FilePath.join dir (sourceMapName e.1))

section Idle

variable {dir : String} {tree tree' : FileTree}

/-- A tombstone on a path that leads nowhere changes nothing. -/
theorem idle_of_writeTombstone {name : String} (hname : IsNormal name)
    (hnowhere : ∀ out, ¬ tree.LeadsTo dir out) {summary summary' : WriteCounts}
    (hwrite : writeTombstone dir name tree summary = (tree', .ok summary')) :
    tree' = tree ∧ Idle dir (name, .tombstone) := by
  obtain ⟨tree₁, wasThere, mapThere, hown, hmap⟩ := exists_of_writeTombstone hwrite
  obtain ⟨rfl, hpass⟩ := eq_of_removeIfPresent hname hnowhere hown
  obtain ⟨rfl, hpass'⟩ := eq_of_removeIfPresent (isNormal_sourceMapName hname) hnowhere hmap
  exact ⟨rfl, rfl, hpass, hpass'⟩

/-- **Entries in turn, on a path that leads nowhere**: tombstones change nothing, up to the first
content, for which the directory is made. -/
theorem exists_idle_of_writeEntries :
    ∀ {entries : List (String × Artifact)} {summary summary' : WriteCounts},
      tree.Solid → tree.NoLinksBelow dir → (∀ out, ¬ tree.LeadsTo dir out) →
      (∀ e ∈ entries, IsNormal e.1) →
      writeEntries dir entries tree summary = (tree', .ok summary') →
      ∃ idle later, entries = idle ++ later ∧ (∀ e ∈ idle, Idle dir e) ∧
        (later = [] ∧ tree' = tree ∨
          ∃ name bytes rest out, later = (name, .content bytes) :: rest ∧
            Wrote dir out later tree tree')
  | [], _, _, _, _, _, _, hwrite => by
    obtain rfl := congrArg Prod.fst hwrite
    exact ⟨[], [], rfl, by simp, Or.inl ⟨rfl, rfl⟩⟩
  | (name, entry) :: rest, summary, summary', hsolid, hlinks, hnowhere, hnames, hwrite => by
    have hname : IsNormal name := hnames _ List.mem_cons_self
    have hnames' : ∀ e ∈ rest, IsNormal e.1 := fun e he => hnames e (List.mem_cons_of_mem _ he)
    rw [writeEntries] at hwrite
    split at hwrite
    · cases hwrite
    rename_i tree₁ summary₁ hentry
    cases entry with
    | tombstone =>
      obtain ⟨htree, hidle⟩ := idle_of_writeTombstone hname hnowhere hentry
      rw [htree] at hwrite
      obtain ⟨idle, later, rfl, hall, hlater⟩ :=
        exists_idle_of_writeEntries hsolid hlinks hnowhere hnames' hwrite
      exact ⟨(name, .tombstone) :: idle, later, rfl, List.forall_mem_cons.mpr ⟨hidle, hall⟩,
        hlater⟩
    | content bytes =>
      rw [writeEntry_content] at hentry
      split at hentry
      · cases hentry
      rename_i hdeep
      obtain rfl := congrArg Prod.fst hentry
      obtain ⟨out, made, hgains, hopen, hwritten⟩ :=
        exists_openBelow_of_writeDeep hsolid hlinks hname hdeep
      have hone := wrote_content hsolid hname hgains hopen hwritten
      have hrest := wrote_of_writeEntries hone.openBelow hone.solid hnames' hwrite
      exact ⟨[], (name, .content bytes) :: rest, rfl, by simp,
        Or.inr ⟨name, bytes, rest, out, rfl, hone.trans hrest⟩⟩

end Idle

/-! ## 4. What is counted -/

/-- How many of the entries have content. -/
def contents (entries : List (String × Artifact)) : Nat :=
  entries.countP fun e => e.2.bytes?.isSome

section Count

variable {dir : String} {tree tree' : FileTree} {summary summary' : WriteCounts}

theorem contents_cons (e : String × Artifact) (entries : List (String × Artifact)) :
    contents (e :: entries) = contents [e] + contents entries := by
  rw [← List.singleton_append]
  exact List.countP_append

/-- One entry counts if it has content. -/
theorem written_of_writeEntry {name : String} {entry : Artifact}
    (hwrite : writeEntry dir tree summary name entry = (tree', .ok summary')) :
    summary'.written = summary.written + contents [(name, entry)] := by
  cases entry with
  | content bytes =>
    rw [writeEntry_content] at hwrite
    split at hwrite
    · cases hwrite
    · cases hwrite
      rfl
  | tombstone =>
    rw [writeEntry_tombstone] at hwrite
    unfold writeTombstone at hwrite
    split at hwrite
    · cases hwrite
    · split at hwrite
      · cases hwrite
      · cases hwrite
        rfl

/-- Every content that is written is counted. -/
theorem written_of_writeEntries :
    ∀ {entries : List (String × Artifact)} {tree : FileTree} {summary : WriteCounts},
      writeEntries dir entries tree summary = (tree', .ok summary') →
      summary'.written = summary.written + contents entries
  | [], _, _, hwrite => by
    obtain rfl := Except.ok.inj (congrArg Prod.snd hwrite)
    rfl
  | e :: rest, tree, summary, hwrite => by
    rw [writeEntries] at hwrite
    split at hwrite
    · cases hwrite
    rename_i hentry
    rw [written_of_writeEntries hwrite, written_of_writeEntry hentry, contents_cons e rest,
      Nat.add_assoc]

end Count

end Artifacts
end ScriptWeave
