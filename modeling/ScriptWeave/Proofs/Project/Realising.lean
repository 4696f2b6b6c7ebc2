/-
# The output that is found on the disk

Writing an output is to make the disk agree with it: content is found under its name, and under the
name of a tombstone there is no file, nor one under the name of its source map.  Below a directory
that is there this is what writing does.

Where the path of the directory leads nowhere at first, the tombstones before all content remove
nothing.  Most such paths lead to a new directory in the end, and there was nothing to remove.  But
where the path goes up again from the part that is missing, as `x/..` does, it leads to a directory
that was there all the time, with the files that these tombstones are for.

**Stated here.**  Where writing succeeds, the output is realised (`Realised`) exactly when the path
of the directory leads somewhere at first, or no file is there that a tombstone before all content
is for (`realised_iff`); `not_realised_detour` is a path with a detour, where one is.
-/
import ScriptWeave.Proofs.Project.Entries

namespace ScriptWeave.Artifacts

open FilePath FileTree

/-! ## 1. The output on the disk -/

/-- Everything that is carried out, and nothing else, is found on the disk: content under its name;
no file under the name of a tombstone, nor a source map of it, unless that is content; all other
places as they were, but for directories that were made; and every content is counted. -/
structure Realised (output : Artifacts) (dir : String) (tree tree' : FileTree)
    (counts : WriteCounts) : Prop where
  content : ∀ k bytes, output.get? k = some (.content bytes) →
    tree'.read (FilePath.join dir k) = .ok bytes
  buried : ∀ f, output.get? f = some .tombstone → tree'.isFile (FilePath.join dir f) = false
  sourceMaps : ∀ f, output.get? f = some .tombstone →
    (∀ bytes, output.get? (sourceMapName f) ≠ some (.content bytes)) →
    tree'.isFile (FilePath.join dir (sourceMapName f)) = false
  others : ∀ place, (∀ out, tree'.LeadsTo dir out → ∀ k, Concerned output.entries k →
    place ≠ out ++ piecesOf k) → Stays (tree.node? place) (tree'.node? place)
  written : counts.written = contents output.entries

section Realised

variable {output : Artifacts} {dir : String} {out : Location}
  {idle later : List (String × Artifact)} {tree tree' : FileTree} {counts : WriteCounts}

/-- What is carried out on a path that leads nowhere has names before all that is carried out
later. -/
theorem lt_of_mem_idle (hsplit : output.entries = idle ++ later) {e d : String × Artifact}
    (he : e ∈ idle) (hd : d ∈ later) : e.1 < d.1 := by
  have hsorted := output.sorted
  rw [hsplit] at hsorted
  exact (List.pairwise_append.mp hsorted).2.2 e he d hd

theorem pairwise_later (hsplit : output.entries = idle ++ later) :
    later.Pairwise fun a b => a.1 < b.1 := by
  have hsorted := output.sorted
  rw [hsplit] at hsorted
  exact (List.pairwise_append.mp hsorted).2.1

/-- An entry is carried out on a path that leads nowhere, or later. -/
theorem mem_idle_or_later (hsplit : output.entries = idle ++ later) {k : String} {e : Artifact}
    (hget : output.get? k = some e) : (k, e) ∈ idle ∨ (k, e) ∈ later := by
  have hmem := SortedMap.get?_eq_some_iff.mp hget
  rw [hsplit] at hmem
  exact List.mem_append.mp hmem

theorem get?_of_split (hsplit : output.entries = idle ++ later) {e : String × Artifact}
    (he : e ∈ idle ∨ e ∈ later) : output.get? e.1 = some e.2 := by
  rw [SortedMap.get?_eq_some_iff, hsplit]
  exact List.mem_append.mpr he

/-- The file of a tombstone that was carried out on a path that led nowhere stays. -/
theorem Wrote.held_of_idle (h : Wrote dir out later tree tree')
    (hsplit : output.entries = idle ++ later) {f : String} (hf : (f, .tombstone) ∈ idle)
    (hname : IsNormal f) : tree'.held out f = tree.held out f := by
  rw [h.held f hname]
  refine leavesAll_of_untouched (fun e he heq => ?_) fun e he _ heq => ?_
  · have hlt := lt_of_mem_idle hsplit hf he
    rw [heq] at hlt
    exact Std.lt_irrefl hlt
  · have hlt := Std.lt_trans (lt_of_mem_idle hsplit hf he) (lt_sourceMapName e.1)
    rw [heq] at hlt
    exact Std.lt_irrefl hlt

/-- And so does its source map, if the output has no entry for that. -/
theorem Wrote.held_sourceMap_of_idle (h : Wrote dir out later tree tree')
    (hsplit : output.entries = idle ++ later) {f : String} (hf : (f, .tombstone) ∈ idle)
    (hname : IsNormal f) (hfree : output.get? (sourceMapName f) = none) :
    tree'.held out (sourceMapName f) = tree.held out (sourceMapName f) := by
  rw [h.held _ (isNormal_sourceMapName hname)]
  refine leavesAll_of_untouched (fun e he heq => ?_) fun e he _ heq => ?_
  · rw [← heq, get?_of_split hsplit (Or.inr he)] at hfree
    cases hfree
  · have hlt := lt_of_mem_idle hsplit hf he
    rw [sourceMapName_injective heq] at hlt
    exact Std.lt_irrefl hlt

/-- Under the name of a tombstone no file is held, unless it was carried out on a path that led
nowhere. -/
theorem Wrote.held_of_buried (h : Wrote dir out later tree tree')
    (hsplit : output.entries = idle ++ later) {f : String}
    (hidle : (f, .tombstone) ∈ idle → tree.held out f = none) (hname : IsNormal f)
    (hf : output.get? f = some .tombstone) : tree'.held out f = none := by
  rcases mem_idle_or_later hsplit hf with hmem | hmem
  · rw [h.held_of_idle hsplit hmem hname]
    exact hidle hmem
  · rw [h.held f hname]
    exact leavesAll_of_mem (pairwise_later hsplit) hmem

/-- Nor is its source map, if the output has no entry for that. -/
theorem Wrote.held_of_sourceMap (h : Wrote dir out later tree tree')
    (hsplit : output.entries = idle ++ later) {f : String}
    (hidle : (f, .tombstone) ∈ idle → tree.held out (sourceMapName f) = none) (hname : IsNormal f)
    (hf : output.get? f = some .tombstone) (hfree : output.get? (sourceMapName f) = none) :
    tree'.held out (sourceMapName f) = none := by
  rcases mem_idle_or_later hsplit hf with hmem | hmem
  · rw [h.held_sourceMap_of_idle hsplit hmem hname hfree]
    exact hidle hmem
  · rw [h.held _ (isNormal_sourceMapName hname)]
    refine leavesAll_of_buried (fun e he heq => ?_) hmem rfl
    rw [← heq, get?_of_split hsplit (Or.inr he)] at hfree
    cases hfree

/-- **The output is realised** where tombstones on a path that led nowhere had nothing to remove. -/
theorem Wrote.realised (h : Wrote dir out later tree tree')
    (hsplit : output.entries = idle ++ later) (hidle : ∀ e ∈ idle, Idle dir e)
    (hnames : ∀ k e, output.get? k = some e → IsNormal k)
    (hcounts : counts.written = contents output.entries)
    (hnothing : ∀ f, (f, .tombstone) ∈ idle → tree.held out f = none ∧
      (output.get? (sourceMapName f) = none → tree.held out (sourceMapName f) = none)) :
    output.Realised dir tree tree' counts where
  content := by
    intro k bytes hk
    rcases mem_idle_or_later hsplit hk with hmem | hmem
    · cases (hidle _ hmem).tombstone
    · have hheld := h.held k (hnames k _ hk)
      rw [leavesAll_of_mem (pairwise_later hsplit) hmem] at hheld
      exact read_eq_ok_iff.mpr
        (h.openBelow.nodeAt_of_fits (h.fits k bytes hmem) (held_eq_some_iff.mp hheld))
  buried := by
    intro f hf
    have hname := hnames f _ hf
    exact h.openBelow.isFile_eq_false hname
      (h.held_of_buried hsplit (fun hmem => (hnothing f hmem).1) hname hf)
  sourceMaps := by
    intro f hf hno
    have hname := isNormal_sourceMapName (hnames f _ hf)
    refine h.openBelow.isFile_eq_false hname ?_
    cases hmap : output.get? (sourceMapName f) with
    | none =>
      exact h.held_of_sourceMap hsplit (fun hmem => (hnothing f hmem).2 hmap) (hnames f _ hf) hf
        hmap
    | some e =>
      cases e with
      | content bytes => exact absurd hmap (hno bytes)
      | tombstone =>
        exact h.held_of_buried hsplit (fun hmem => (hnothing _ hmem).1) hname hmap
  others := by
    intro place hplace
    refine h.others place fun k ⟨e, he, hk⟩ => hplace out h.openBelow.leads k ⟨e, ?_, hk⟩
    rw [hsplit]
    exact List.mem_append_right idle he
  written := hcounts

/-- Where the output is realised, they had nothing to remove. -/
theorem Wrote.held_of_realised (h : Wrote dir out later tree tree') (hdisk : tree.IsDisk)
    (hsplit : output.entries = idle ++ later) (hidle : ∀ e ∈ idle, Idle dir e)
    (hnames : ∀ k e, output.get? k = some e → IsNormal k)
    (hrealised : output.Realised dir tree tree' counts) {f : String}
    (hf : (f, .tombstone) ∈ idle) : tree.held out f = none ∧
      (output.get? (sourceMapName f) = none → tree.held out (sourceMapName f) = none) := by
  have hget : output.get? f = some .tombstone := get?_of_split hsplit (Or.inl hf)
  have hname := hnames f _ hget
  have hmapName := isNormal_sourceMapName hname
  refine ⟨?_, fun hfree => ?_⟩
  · refine Option.eq_none_iff_forall_ne_some.mpr fun content hheld => ?_
    have hfits := fitsBelow_of_held hdisk hname (hidle _ hf).passable hheld
    have hgone := h.openBelow.held_eq_none hfits (hrealised.buried f hget)
    rw [h.held_of_idle hsplit hf hname, hheld] at hgone
    cases hgone
  · refine Option.eq_none_iff_forall_ne_some.mpr fun content hheld => ?_
    have hfits := fitsBelow_of_held hdisk hmapName (hidle _ hf).mapPassable hheld
    have hfile := hrealised.sourceMaps f hget fun bytes hmap => by
      rw [hfree] at hmap
      cases hmap
    have hgone := h.openBelow.held_eq_none hfits hfile
    rw [h.held_sourceMap_of_idle hsplit hf hname hfree, hheld] at hgone
    cases hgone

/-- The tombstones on a path that leads nowhere are those before the first content. -/
theorem mem_idle_iff {name : String} {bytes : ByteArray} {rest : List (String × Artifact)}
    (hsplit : output.entries = idle ++ (name, .content bytes) :: rest)
    (hidle : ∀ e ∈ idle, Idle dir e) {f : String} : (f, .tombstone) ∈ idle ↔
      output.get? f = some .tombstone ∧
        ∀ k bytes, output.get? k = some (.content bytes) → f < k := by
  constructor
  · intro hmem
    refine ⟨get?_of_split hsplit (Or.inl hmem), fun k bytes' hk => ?_⟩
    rcases mem_idle_or_later hsplit hk with hk' | hk'
    · cases (hidle _ hk').tombstone
    · exact lt_of_mem_idle hsplit hmem hk'
  · rintro ⟨hf, hfirst⟩
    have hlt : f < name := hfirst name bytes (get?_of_split hsplit (Or.inr List.mem_cons_self))
    rcases mem_idle_or_later hsplit hf with hmem | hmem
    · exact hmem
    · rcases List.mem_cons.mp hmem with heq | hmem
      · cases (Prod.mk.inj heq).2
      · have hgt := (List.pairwise_cons.mp (pairwise_later hsplit)).1 _ hmem
        exact absurd (Std.lt_trans hlt hgt) Std.lt_irrefl

/-- Tombstones alone, on a path that leads nowhere, are realised as the disk is. -/
theorem realised_of_idle (hidle : ∀ e ∈ output.entries, Idle dir e)
    (hnames : ∀ k e, output.get? k = some e → IsNormal k)
    (hnowhere : ∀ out, ¬ tree.LeadsTo dir out)
    (hcounts : counts.written = contents output.entries) :
    output.Realised dir tree tree counts where
  content := by
    intro k bytes hk
    cases (hidle _ (SortedMap.get?_eq_some_iff.mp hk)).tombstone
  buried := fun f hf => isFile_of_nowhere (hnames f _ hf) hnowhere
  sourceMaps := fun f hf _ =>
    isFile_of_nowhere (isNormal_sourceMapName (hnames f _ hf)) hnowhere
  others := fun _ _ => Or.inl rfl
  written := hcounts

end Realised

/-- **An output that is written is realised** exactly when the path of the directory leads
somewhere at first, or where it leads in the end there is no file that a tombstone before all
content is for, and no source map of one.  No link is below the directory. -/
theorem realised_iff {output : Artifacts} {dir : String} {tree tree' : FileTree}
    {counts : WriteCounts} (hdisk : tree.IsDisk) (hlinks : tree.NoLinksBelow dir)
    (hnames : ∀ k e, output.get? k = some e → IsNormal k)
    (hwrite : output.write dir tree = (tree', .ok counts)) :
    output.Realised dir tree tree' counts ↔
      (∃ out, tree.LeadsTo dir out) ∨ ∀ out, tree'.LeadsTo dir out →
        ∀ f, output.get? f = some .tombstone →
          (∀ k bytes, output.get? k = some (.content bytes) → f < k) →
          tree.held out f = none ∧
            (output.get? (sourceMapName f) = none → tree.held out (sourceMapName f) = none) := by
  have hnames' : ∀ e ∈ output.entries, IsNormal e.1 :=
    fun e he => hnames e.1 e.2 (SortedMap.get?_eq_some_iff.mpr he)
  have hcounts : counts.written = contents output.entries := by
    rw [written_of_writeEntries hwrite]
    exact Nat.zero_add _
  by_cases hthere : ∃ out, tree.LeadsTo dir out
  · obtain ⟨out, hleads⟩ := hthere
    have hopen := openBelow_of_leadsTo hdisk.solid hlinks (GainsDirectories.refl tree) hleads
    have hwrote := wrote_of_writeEntries hopen hdisk.solid hnames' hwrite
    refine iff_of_true ?_ (Or.inl ⟨out, hleads⟩)
    exact hwrote.realised (List.nil_append _).symm (by simp) hnames hcounts (by simp)
  · have hnowhere := not_exists.mp hthere
    obtain ⟨idle, later, hsplit, hidle, hlater⟩ :=
      exists_idle_of_writeEntries hdisk.solid hlinks hnowhere hnames' hwrite
    rcases hlater with ⟨rfl, rfl⟩ | ⟨name, bytes, rest, out, rfl, hwrote⟩
    · -- tombstones alone
      rw [List.append_nil] at hsplit
      refine iff_of_true ?_ (Or.inr fun out hleads => absurd hleads (hnowhere out))
      exact realised_of_idle (hsplit ▸ hidle) hnames hnowhere hcounts
    · constructor
      · intro hrealised
        refine Or.inr fun out' hleads f hf hfirst => ?_
        obtain rfl := hleads.unique hwrote.openBelow.leads
        exact hwrote.held_of_realised hdisk hsplit hidle hnames hrealised
          ((mem_idle_iff hsplit hidle).mpr ⟨hf, hfirst⟩)
      · rintro (hleads | hnothing)
        · exact absurd hleads hthere
        · refine hwrote.realised hsplit hidle hnames hcounts fun f hf => ?_
          obtain ⟨hget, hfirst⟩ := (mem_idle_iff hsplit hidle).mp hf
          exact hnothing out hwrote.openBelow.leads f hget hfirst

/-! ## 2. A path with a detour -/

/-- One file is to take the place of another. -/
def replacement : Artifacts := .ofList [("f", .tombstone), ("g", .content "new".toUTF8)]

/-- The file that is to be replaced, and what stands behind it. -/
def oldFile (behind : FileTree) : FileTree := .cons "f" (.file "old".toUTF8) .nil behind

/-- The file that replaces it, and what stands behind it. -/
def newFile (behind : FileTree) : FileTree := .cons "g" (.file "new".toUTF8) .nil behind

theorem isNormal_replacement : ∀ k e, replacement.get? k = some e → IsNormal k := by
  intro k e hk
  have hmem : (k, e) ∈ [("f", Artifact.tombstone), ("g", .content "new".toUTF8)] :=
    SortedMap.get?_eq_some_iff.mp hk
  rcases List.mem_cons.mp hmem with heq | hmem
  · rw [(Prod.mk.inj heq).1]
    decide
  · rw [(Prod.mk.inj (List.mem_singleton.mp hmem)).1]
    decide

/-- A file or a directory in the top directory, or none. -/
theorem reach_top {tree : FileTree} {path name : String}
    (hpath : Passable path ∧ piecesOf path = [name] ∧ endsInSlash path = false ∧
      name ≠ "." ∧ name ≠ "..")
    (htree : tree.isLinkFree = true) (last : LastLink) :
    tree.reach last path = .ok ⟨[], some name, false⟩ := by
  obtain ⟨hpass, hpieces, hslash, h₁, h₂⟩ := hpath
  rw [reach_of_passable _ _ hpass, hpieces, hslash]
  refine follow_last h₁ h₂ (fun target within hfind => ?_) ..
  refine node?_ne_link_of_isLinkFree htree [name] target ?_
  rw [node?, show tree.find? name = _ from hfind]
  rfl

theorem entries_replacement :
    replacement.entries = [("f", .tombstone), ("g", .content "new".toUTF8)] := by decide +kernel

section Replacement

variable {dir : String} {tree tree₁ tree₂ tree' : FileTree} {wasThere mapThere : Bool}

/-- The three steps of the replacement. -/
theorem write_replacement
    (hown : removeIfPresent tree (FilePath.join dir "f") = .ok (tree₁, wasThere))
    (hmap : removeIfPresent tree₁ (FilePath.join dir "f.map") = .ok (tree₂, mapThere))
    (hwrite : tree₂.writeDeep (FilePath.join dir "g") "new".toUTF8 = (tree', .ok ())) :
    replacement.write dir tree = (tree', .ok ⟨1, if wasThere then 1 else 0⟩) := by
  have hname : sourceMapName "f" = "f.map" := by decide
  have hfirst : writeEntry dir tree {} "f" .tombstone
      = (tree₂, .ok ⟨0, if wasThere then 1 else 0⟩) := by
    rw [writeEntry_tombstone]
    unfold writeTombstone
    simp only [hname, hown, hmap, Nat.zero_add]
  rw [write, entries_replacement]
  simp only [writeEntries, hfirst, writeEntry_content, hwrite, Nat.zero_add]

/-- What is removed, by where the path leads. -/
theorem removeIfPresent_of_reach {path : String} {d : Destination}
    (hd : ∀ last, tree.reach last path = .ok d) (hslash : d.slash = false) :
    (∀ content, d.node? tree = .ok (some (.file content)) →
      removeIfPresent tree path = .ok (tree.remove d.place, true)) ∧
    (d.node? tree = .ok none → removeIfPresent tree path = .ok (tree, false)) := by
  rw [removeIfPresent, isDirectory, nodeAt, lookUp, removeFile_eq, hd, hd]
  constructor
  · intro content hnode
    simp [hnode, hslash, bind, Except.bind, Except.map]
  · intro hnode
    simp [hnode, bind, Except.bind, Except.map]

theorem makeDirectory_of_reach {path : String} {d : Destination}
    (hd : ∀ last, tree.reach last path = .ok d) (hnode : d.node? tree = .ok (some .directory)) :
    tree.makeDirectory path = .error .alreadyExists ∧ tree.isDirectory path = true := by
  refine ⟨?_, isDirectory_eq_true_iff.mpr ⟨d, hd _, hnode⟩⟩
  rw [makeDirectory_eq, hd]
  simp only [hnode]

end Replacement

/-- In the top directory the one file takes the place of the other. -/
theorem write_replacement_top :
    replacement.write "/" (oldFile .nil) = (newFile .nil, .ok ⟨1, 1⟩) := by
  have hf : ∀ last, (oldFile .nil).reach last (FilePath.join "/" "f")
      = .ok ⟨[], some "f", false⟩ := reach_top (by decide +kernel) (by decide)
  have hmap : ∀ last, FileTree.nil.reach last (FilePath.join "/" "f.map")
      = .ok ⟨[], some "f.map", false⟩ := reach_top (by decide +kernel) (by decide)
  have hg : ∀ last, FileTree.nil.reach last (FilePath.join "/" "g")
      = .ok ⟨[], some "g", false⟩ := reach_top (by decide +kernel) (by decide)
  have hroot : ∀ last, FileTree.nil.reach last "/" = .ok ⟨[], none, true⟩ := by
    intro last
    have hpieces : piecesOf "/" = [] := by decide +kernel
    rw [reach_of_passable _ _ ⟨by decide, by decide, by decide⟩, hpieces, follow]
    rfl
  have hmade : FileTree.nil.makeDirectories "/" = (.nil, .ok ()) := by
    obtain ⟨hthere, hdir⟩ := makeDirectory_of_reach hroot rfl
    rw [makeDirectories, makeDirectoriesWithin, hthere, hdir]
    rfl
  have hwritten : FileTree.nil.writeDeep (FilePath.join "/" "g") "new".toUTF8
      = (newFile .nil, .ok ()) := by
    have hparent : parent? (FilePath.join "/" "g") = some "/" := by decide +kernel
    refine (writeDeep_eq_ok_iff hparent).mpr ⟨_, hmade, ?_⟩
    exact write_eq_ok_iff.mpr ⟨_, none, hg _, rfl, rfl, by simp, rfl, rfl⟩
  have hown : removeIfPresent (oldFile .nil) (FilePath.join "/" "f") = .ok (.nil, true) :=
    (removeIfPresent_of_reach hf rfl).1 _ rfl
  have hnone : removeIfPresent .nil (FilePath.join "/" "f.map") = .ok (.nil, false) :=
    (removeIfPresent_of_reach hmap rfl).2 rfl
  exact write_replacement hown hnone hwritten

/-- An empty directory. -/
def emptyDir : FileTree := .cons "x" .directory .nil .nil

section Detour

variable {path : String} (more : List String)

/-- A path by way of `x`, which is missing. -/
theorem reach_missing (hpath : Passable path ∧ piecesOf path = "x" :: more ∧ more ≠ [])
    (last : LastLink) :
    (oldFile .nil).reach last path = .error .notFound := by
  obtain ⟨hpass, hpieces, hmore⟩ := hpath
  rw [reach_of_passable _ _ hpass, hpieces, follow, if_neg (by decide),
    if_neg (by decide), if_neg fun hlong => absurd hlong.2 (by decide)]
  exact if_neg hmore

/-- A path by way of `x`, and up again. -/
theorem reach_detour {tree : FileTree} (hx : tree.find? "x" = some (.directory, .nil))
    (hpath : Passable path ∧ piecesOf path = "x" :: ".." :: more ∧ endsInSlash path = false)
    (last : LastLink) :
    tree.reach last path = follow tree last linkLimit [] more false := by
  obtain ⟨hpass, hpieces, hslash⟩ := hpath
  have hholds : (Trail.holds tree []).find? "x" = some (.directory, .nil) := hx
  rw [reach_of_passable _ _ hpass, hpieces, hslash,
    follow_directory (by decide) (by decide) (by decide) hholds (List.cons_ne_nil ".." more),
    follow, if_neg (by decide), if_pos rfl]
  rfl

/-- Nothing is removed on a path that is missing. -/
theorem removeIfPresent_missing (hpath : Passable path ∧ piecesOf path = "x" :: more ∧ more ≠ []) :
    removeIfPresent (oldFile .nil) path = .ok (oldFile .nil, false) := by
  rw [removeIfPresent, isDirectory, nodeAt, lookUp, removeFile_eq,
    reach_missing more hpath, reach_missing more hpath]
  rfl

end Detour

/-- On the path with the detour the file stays, because the path leads nowhere at first. -/
theorem write_replacement_detour :
    replacement.write "/x/.." (oldFile .nil) = (oldFile (newFile emptyDir), .ok ⟨1, 0⟩) := by
  have hown : removeIfPresent (oldFile .nil) (FilePath.join "/x/.." "f")
      = .ok (oldFile .nil, false) :=
    removeIfPresent_missing ["..", "f"] (by decide +kernel)
  have hmap : removeIfPresent (oldFile .nil) (FilePath.join "/x/.." "f.map")
      = .ok (oldFile .nil, false) :=
    removeIfPresent_missing ["..", "f.map"] (by decide +kernel)
  have hx : ∀ last, (oldFile .nil).reach last "/x" = .ok ⟨[], some "x", false⟩ :=
    reach_top (by decide +kernel) (by decide)
  have hup : ∀ last, (oldFile emptyDir).reach last "/x/.." = .ok ⟨[], none, false⟩ := by
    intro last
    rw [reach_detour [] rfl (by decide +kernel), follow]
  have hg : ∀ last, (oldFile emptyDir).reach last (FilePath.join "/x/.." "g")
      = .ok ⟨[], some "g", false⟩ := by
    intro last
    rw [reach_detour ["g"] rfl (by decide +kernel)]
    exact follow_last (by decide) (by decide) (by simp [Trail.holds, oldFile, emptyDir, find?]) ..
  have hmade : (oldFile .nil).makeDirectories "/x/.." = (oldFile emptyDir, .ok ()) := by
    have hmissing : (oldFile .nil).makeDirectory "/x/.." = .error .notFound := by
      rw [makeDirectory_eq, reach_missing [".."] (by decide +kernel)]
    have hparent : parent? "/x/.." = some "/x" := by decide +kernel
    have hput : (oldFile .nil).makeDirectory "/x" = .ok (oldFile emptyDir) := by
      rw [makeDirectory_eq, hx]
      rfl
    obtain ⟨hthere, hdir⟩ := makeDirectory_of_reach hup rfl
    have hensure : (oldFile emptyDir).ensureDirectory "/x/.." = .ok (oldFile emptyDir) := by
      rw [ensureDirectory, hthere, hdir]
      rfl
    rw [makeDirectories, show "/x/..".length + 1 = 4 + 1 + 1 from rfl, makeDirectoriesWithin,
      if_neg (by decide), hmissing, hparent]
    simp only [makeDirectoriesWithin, if_neg (show "/x" ≠ "" by decide), hput, hensure]
  have hwritten : (oldFile .nil).writeDeep (FilePath.join "/x/.." "g") "new".toUTF8
      = (oldFile (newFile emptyDir), .ok ()) := by
    have hparent : parent? (FilePath.join "/x/.." "g") = some "/x/.." := by decide +kernel
    refine (writeDeep_eq_ok_iff hparent).mpr ⟨_, hmade, ?_⟩
    exact write_eq_ok_iff.mpr ⟨_, none, hg _, rfl, rfl, by simp, rfl, rfl⟩
  exact write_replacement hown hmap hwritten

/-- **A file stays** that is to be removed, though everything is written without an error: the path
leads nowhere when the tombstone is carried out, and to the file when content is. -/
theorem not_realised_detour : (oldFile .nil).IsDisk ∧ (oldFile .nil).NoLinksBelow "/x/.." ∧
    (∀ k e, replacement.get? k = some e → IsNormal k) ∧
    ∃ tree' counts, replacement.write "/x/.." (oldFile .nil) = (tree', .ok counts) ∧
      ¬ replacement.Realised "/x/.." (oldFile .nil) tree' counts := by
  refine ⟨by decide, noLinksBelow_of_isLinkFree rfl _, isNormal_replacement, _, _,
    write_replacement_detour, fun hrealised => ?_⟩
  have hreach : (oldFile (newFile emptyDir)).reach .followed (FilePath.join "/x/.." "f")
      = .ok ⟨[], some "f", false⟩ := by
    rw [reach_detour ["f"] rfl (by decide +kernel)]
    exact follow_last (by decide) (by decide) (by simp [Trail.holds, oldFile, find?]) ..
  have hgone := hrealised.buried "f" rfl
  rw [isFile, nodeAt, lookUp, hreach] at hgone
  cases hgone

/-- In the top directory everything is realised. -/
theorem realised_replacement_top : (oldFile .nil).IsDisk ∧ (oldFile .nil).NoLinksBelow "/" ∧
    (∀ k e, replacement.get? k = some e → IsNormal k) ∧
    ∃ tree' counts, replacement.write "/" (oldFile .nil) = (tree', .ok counts) ∧
      replacement.Realised "/" (oldFile .nil) tree' counts := by
  have hdisk : (oldFile .nil).IsDisk := by decide
  have hlinks : (oldFile .nil).NoLinksBelow "/" := noLinksBelow_of_isLinkFree rfl "/"
  have hleads : (oldFile .nil).LeadsTo "/" [] := by
    have hpieces : piecesOf "/" = [] := by decide +kernel
    exact ⟨linkLimit, [], hpieces ▸ .here, rfl⟩
  refine ⟨hdisk, hlinks, isNormal_replacement, _, _, write_replacement_top, ?_⟩
  exact (realised_iff hdisk hlinks isNormal_replacement write_replacement_top).mpr
    (Or.inl ⟨[], hleads⟩)

end ScriptWeave.Artifacts
