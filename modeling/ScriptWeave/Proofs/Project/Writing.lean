/-
# What writing an output leaves on the disk, name by name

An output is carried out entry by entry, in the order of the names, and each entry changes the file
of its own name; a tombstone also removes the file under the name of its source map.  That name
comes after the entry's own (`lt_sourceMapName`), so an entry under it, if there is one, is
carried out later and has the last word (`Carries`).

**Stated here.**  What is left under every name where the writing succeeds (`write_spec`), and that
it does succeed where only content is written and a tree exists that has all these files
(`write_ok`).
-/
import ScriptWeave.Proofs.Batch.Output
import ScriptWeave.Proofs.FileTree.Files

namespace ScriptWeave

open FilePath FileTree

/-- The file of a name below a location. -/
def FileTree.held (tree : FileTree) (out : Location) (name : String) : Option FileContent :=
  tree.fileAt (out ++ piecesOf name)

/-- The file that an entry stands for. -/
def Artifact.file? (entry : Artifact) : Option FileContent := entry.bytes?.map .bytes

theorem Artifact.file?_content_eq_some_iff {own bytes : ByteArray} :
    (content own).file? = some (.bytes bytes) ↔ own = bytes := by
  simp [file?, bytes?]

theorem isNormal_sourceMapName {name : String} (h : IsNormal name) :
    IsNormal (sourceMapName name) :=
  h.append (by decide) (by decide)

namespace Artifacts

/-! ## 1. What an entry leaves under a name -/

/-- What an entry leaves under a name, by what was there before. -/
def leaves (name : String) (entry : Artifact) (k : String) (old : Option FileContent) :
    Option FileContent :=
  match entry with
  | .content bytes => if k = name then some (.bytes bytes) else old
  | .tombstone => if k = name ∨ k = sourceMapName name then none else old

/-- What entries leave under a name, carried out in turn. -/
def leavesAll (entries : List (String × Artifact)) (k : String) (old : Option FileContent) :
    Option FileContent :=
  entries.foldl (fun old e => leaves e.1 e.2 k old) old

section Leaves

variable {entries : List (String × Artifact)} {k : String} {old : Option FileContent}

theorem leaves_self (name : String) (entry : Artifact) (old : Option FileContent) :
    leaves name entry name old = entry.file? := by
  cases entry <;> simp [leaves, Artifact.file?, Artifact.bytes?]

theorem leavesAll_append (entries later : List (String × Artifact)) (k : String)
    (old : Option FileContent) :
    leavesAll (entries ++ later) k old = leavesAll later k (leavesAll entries k old) :=
  List.foldl_append

/-- Entries that do not concern a name leave it alone. -/
theorem leavesAll_of_untouched (hname : ∀ e ∈ entries, e.1 ≠ k)
    (hmap : ∀ e ∈ entries, e.2 = .tombstone → sourceMapName e.1 ≠ k) :
    leavesAll entries k old = old := by
  induction entries with
  | nil => rfl
  | cons e entries ih =>
    have hne := (hname e List.mem_cons_self).symm
    have hstep : leaves e.1 e.2 k old = old := by
      cases he : e.2 with
      | content bytes => rw [leaves, if_neg hne]
      | tombstone =>
        rw [leaves, if_neg]
        rintro (heq | heq)
        · exact hne heq
        · exact hmap e List.mem_cons_self he heq.symm
    rw [leavesAll, List.foldl_cons, hstep]
    exact ih (fun d hd => hname d (List.mem_cons_of_mem _ hd))
      fun d hd => hmap d (List.mem_cons_of_mem _ hd)

/-- Where there is no file, only an entry of that very name can put one. -/
theorem leavesAll_none (hname : ∀ e ∈ entries, e.1 ≠ k) : leavesAll entries k none = none := by
  induction entries with
  | nil => rfl
  | cons e entries ih =>
    have hstep : leaves e.1 e.2 k none = none := by
      cases he : e.2 with
      | content bytes => rw [leaves, if_neg (hname e List.mem_cons_self).symm]
      | tombstone => simp [leaves]
    rw [leavesAll, List.foldl_cons, hstep]
    exact ih fun d hd => hname d (List.mem_cons_of_mem _ hd)

/-- The entry of a name decides: what comes behind it are larger names, and the names of
their source maps are larger still. -/
theorem leavesAll_of_mem (hsorted : entries.Pairwise fun a b => a.1 < b.1) {entry : Artifact}
    (hmem : (k, entry) ∈ entries) : leavesAll entries k old = entry.file? := by
  obtain ⟨before, later, rfl⟩ := List.append_of_mem hmem
  obtain ⟨-, hlater, -⟩ := List.pairwise_append.mp hsorted
  have hlt := (List.pairwise_cons.mp hlater).1
  have hstep : leavesAll ((k, entry) :: later) k (leavesAll before k old)
      = leavesAll later k entry.file? := by
    rw [leavesAll, List.foldl_cons, leaves_self]
    rfl
  rw [leavesAll_append, hstep]
  refine leavesAll_of_untouched (fun e he heq => ?_) fun e he _ heq => ?_
  · exact Std.lt_irrefl (heq ▸ hlt e he)
  · exact Std.lt_irrefl (heq ▸ Std.lt_trans (hlt e he) (lt_sourceMapName e.1))

/-- A tombstone removes the source map, unless that has an entry of its own. -/
theorem leavesAll_of_buried (hname : ∀ e ∈ entries, e.1 ≠ k) {t : String}
    (hmem : (t, Artifact.tombstone) ∈ entries) (hmap : sourceMapName t = k) :
    leavesAll entries k old = none := by
  obtain ⟨before, later, rfl⟩ := List.append_of_mem hmem
  have hstep : leavesAll ((t, .tombstone) :: later) k (leavesAll before k old)
      = leavesAll later k none := by
    rw [leavesAll, List.foldl_cons, leaves, if_pos (Or.inr hmap.symm)]
    rfl
  rw [leavesAll_append, hstep]
  exact leavesAll_none fun e he =>
    hname e (List.mem_append_right _ (List.mem_cons_of_mem _ he))

end Leaves

/-- An output was carried out at a name: by its entry there, else by the tombstone of the file whose
source map has this name, else not at all. -/
structure Carries (output : Artifacts) (k : String) (old new : Option FileContent) : Prop where
  entry : ∀ e, output.get? k = some e → new = e.file?
  cleared : output.get? k = none →
    ∀ t, output.get? t = some .tombstone → sourceMapName t = k → new = none
  kept : output.get? k = none →
    (∀ t, output.get? t = some .tombstone → sourceMapName t ≠ k) → new = old

theorem carries_leavesAll (output : Artifacts) (k : String) (old : Option FileContent) :
    output.Carries k old (leavesAll output.entries k old) := by
  have hfree : output.get? k = none → ∀ e ∈ output.entries, e.1 ≠ k := by
    rintro hnone ⟨name, entry⟩ he rfl
    rw [SortedMap.get?_eq_some_iff.mpr he] at hnone
    cases hnone
  refine ⟨fun e he => ?_, fun hnone t ht hmap => ?_, fun hnone hmap => ?_⟩
  · exact leavesAll_of_mem output.sorted (SortedMap.get?_eq_some_iff.mp he)
  · exact leavesAll_of_buried (hfree hnone) (SortedMap.get?_eq_some_iff.mp ht) hmap
  · refine leavesAll_of_untouched (hfree hnone) fun e he htomb => hmap e.1 ?_
    exact SortedMap.get?_eq_some_iff.mpr (htomb ▸ he)

/-! ## 2. Writing -/

section Write

variable {top tree tree' : FileTree} {dir : String} {out : Location}

theorem writeEntry_content (dir : String) (tree : FileTree) (summary : WriteCounts) (name : String)
    (bytes : ByteArray) : writeEntry dir tree summary name (.content bytes) =
      match tree.writeDeep (FilePath.join dir name) bytes with
      | (tree, .error e) => (tree, .error e)
      | (tree, .ok ()) => (tree, .ok { summary with written := summary.written + 1 }) := (rfl)

theorem writeEntry_tombstone (dir : String) (tree : FileTree) (summary : WriteCounts)
    (name : String) :
    writeEntry dir tree summary name .tombstone = writeTombstone dir name tree summary := rfl

/-- A tombstone removes two files, one after the other. -/
theorem exists_of_writeTombstone {name : String} {summary summary' : WriteCounts}
    (hwrite : writeTombstone dir name tree summary = (tree', .ok summary')) :
    ∃ tree₁ wasThere mapThere,
      removeIfPresent tree (FilePath.join dir name) = .ok (tree₁, wasThere) ∧
      removeIfPresent tree₁ (FilePath.join dir (sourceMapName name)) = .ok (tree', mapThere) := by
  unfold writeTombstone at hwrite
  cases hown : removeIfPresent tree (FilePath.join dir name) with
  | error e =>
    simp only [hown] at hwrite
    cases hwrite
  | ok own =>
    obtain ⟨tree₁, wasThere⟩ := own
    cases hmap : removeIfPresent tree₁ (FilePath.join dir (sourceMapName name)) with
    | error e =>
      simp only [hown, hmap] at hwrite
      cases hwrite
    | ok map =>
      simp only [hown, hmap] at hwrite
      obtain rfl := congrArg Prod.fst hwrite
      exact ⟨tree₁, wasThere, map.2, rfl, hmap⟩

/-- **What one entry leaves.** -/
theorem writeEntry_spec (hempty : top.IsEmptyAt dir out) (h : GrownBelow top dir out tree)
    {name : String} (hname : IsNormal name) {entry : Artifact} {summary summary' : WriteCounts}
    (hwrite : writeEntry dir tree summary name entry = (tree', .ok summary')) :
    GrownBelow top dir out tree' ∧ ∀ k, IsNormal k →
      tree'.held out k = leaves name entry k (tree.held out k) := by
  have hplace : ∀ {k other : String}, IsNormal k → IsNormal other →
      (out ++ piecesOf k = out ++ piecesOf other ↔ k = other) := fun hk hother =>
    ⟨fun heq => piecesOf_injective hk hother (List.append_cancel_left heq), fun heq => by rw [heq]⟩
  cases entry with
  | content bytes =>
    rw [writeEntry_content] at hwrite
    split at hwrite
    · cases hwrite
    · rename_i hdeep
      obtain rfl := congrArg Prod.fst hwrite
      obtain ⟨hgrown, hfiles⟩ := h.writeDeep_spec hempty hname hdeep
      refine ⟨hgrown, fun k hk => ?_⟩
      simp only [held, hfiles, leaves, hplace hk hname]
  | tombstone =>
    rw [writeEntry_tombstone] at hwrite
    obtain ⟨tree₁, wasThere, mapThere, hown, hmap⟩ := exists_of_writeTombstone hwrite
    have hmapName := isNormal_sourceMapName hname
    obtain ⟨h₁, hfiles₁⟩ := h.removeIfPresent_spec hempty hname hown
    obtain ⟨h₂, hfiles₂⟩ := h₁.removeIfPresent_spec hempty hmapName hmap
    refine ⟨h₂, fun k hk => ?_⟩
    simp only [held, hfiles₂, hfiles₁, leaves, hplace hk hname, hplace hk hmapName]
    by_cases hk₁ : k = name <;> by_cases hk₂ : k = sourceMapName name <;> simp [hk₁, hk₂]

/-- What entries leave, carried out in turn. -/
theorem writeEntries_spec (hempty : top.IsEmptyAt dir out) :
    ∀ {entries : List (String × Artifact)} {tree : FileTree} {summary summary' : WriteCounts},
      GrownBelow top dir out tree → (∀ e ∈ entries, IsNormal e.1) →
      writeEntries dir entries tree summary = (tree', .ok summary') →
      GrownBelow top dir out tree' ∧ ∀ k, IsNormal k →
        tree'.held out k = leavesAll entries k (tree.held out k)
  | [], tree, _, _, h, _, hwrite => by
    obtain rfl := congrArg Prod.fst hwrite
    exact ⟨h, fun _ _ => rfl⟩
  | (name, entry) :: rest, tree, summary, summary', h, hnames, hwrite => by
    rw [writeEntries] at hwrite
    split at hwrite
    · cases hwrite
    · rename_i hentry
      obtain ⟨h₁, hheld₁⟩ := writeEntry_spec hempty h (hnames _ List.mem_cons_self) hentry
      obtain ⟨h₂, hheld₂⟩ := writeEntries_spec hempty h₁
        (fun e he => hnames e (List.mem_cons_of_mem _ he)) hwrite
      refine ⟨h₂, fun k hk => ?_⟩
      rw [hheld₂ k hk, hheld₁ k hk]
      rfl

/-- **What writing an output leaves** under every name. -/
theorem write_spec (hempty : top.IsEmptyAt dir out) (h : GrownBelow top dir out tree)
    {output : Artifacts} (hnames : ∀ k e, output.get? k = some e → IsNormal k)
    {summary : WriteCounts} (hwrite : output.write dir tree = (tree', .ok summary)) :
    GrownBelow top dir out tree' ∧ ∀ k, IsNormal k →
      output.Carries k (tree.held out k) (tree'.held out k) := by
  obtain ⟨hgrown, hheld⟩ := writeEntries_spec hempty h
    (fun e he => hnames e.1 e.2 (SortedMap.get?_eq_some_iff.mpr he)) hwrite
  refine ⟨hgrown, fun k hk => ?_⟩
  rw [hheld k hk]
  exact output.carries_leavesAll k _

/-! ## 3. Writing that succeeds -/

/-- What the one tree has below a location, the other has, too, up to the contents of files. -/
structure FitsInto (out : Location) (tree goal : FileTree) : Prop where
  files : ∀ rest, tree.fileAt (out ++ rest) ≠ none → goal.fileAt (out ++ rest) ≠ none
  directories : ∀ rest, tree.node? (out ++ rest) = some .directory →
    goal.node? (out ++ rest) = some .directory

theorem fitsInto_of_isEmptyAt {goal : FileTree} (hempty : top.IsEmptyAt dir out)
    (hgoal : GrownBelow top dir out goal) : FitsInto out top goal := by
  refine ⟨fun rest hfile => ?_, fun rest hdir => ?_⟩
  · refine absurd ?_ hfile
    by_cases hrest : rest = []
    · rw [hrest, List.append_nil, fileAt, hempty.node?_out]
    · rw [fileAt, hempty.nothing rest hrest]
  · by_cases hrest : rest = []
    · rw [hrest, List.append_nil]
      exact (hgoal.openBelow hempty).node?_out
    · rw [hempty.nothing rest hrest] at hdir
      cases hdir

/-- Where the other tree has a directory there is nothing or a directory. -/
theorem FitsInto.free {goal : FileTree} (hempty : top.IsEmptyAt dir out)
    (h : GrownBelow top dir out tree) (hinto : FitsInto out tree goal) {rest : Location}
    (hdir : goal.node? (out ++ rest) = some .directory) :
    tree.node? (out ++ rest) = none ∨ tree.node? (out ++ rest) = some .directory := by
  cases hnode : tree.node? (out ++ rest) with
  | none => exact Or.inl rfl
  | some node =>
    cases node with
    | directory => exact Or.inr rfl
    | file old =>
      refine absurd ?_ (hinto.files rest (by simp [fileAt, hnode]))
      rw [fileAt, hdir]
    | link target =>
      by_cases hrest : rest = []
      · rw [hrest, List.append_nil, (h.openBelow hempty).node?_out] at hnode
        cases hnode
      · exact absurd hnode (h.noLinks rest target hrest)

/-- One file is written, if the other tree has a file of this name. -/
theorem FitsInto.writeDeep {goal : FileTree} (hempty : top.IsEmptyAt dir out)
    (h : GrownBelow top dir out tree) (hgoal : GrownBelow top dir out goal)
    (hinto : FitsInto out tree goal) {name : String} (hname : IsNormal name)
    (hheld : goal.held out name ≠ none) (bytes : ByteArray) :
    ∃ tree', tree.writeDeep (FilePath.join dir name) bytes = (tree', .ok ()) ∧
      GrownBelow top dir out tree' ∧ FitsInto out tree' goal := by
  obtain ⟨content, hcontent⟩ := Option.ne_none_iff_exists'.mp hheld
  have hfile := fileAt_eq_some_iff.mp hcontent
  -- above a file of the other tree there are directories
  have habove : ∀ r rest, piecesOf name = r ++ rest → rest ≠ [] →
      goal.node? (out ++ r) = some .directory := fun r rest hpieces hrest =>
    (hgoal.openBelow hempty).directory_of_append hrest (by rw [← hpieces, hfile]; simp)
  have hplace : tree.node? (out ++ piecesOf name) ≠ some .directory := by
    intro hdir
    rw [hinto.directories _ hdir] at hfile
    cases hfile
  obtain ⟨tree', hwrite⟩ := h.writeDeep_ok hempty (hgoal.fitsBelow_of_fileAt hname hcontent)
    (fun r rest hpieces hrest => hinto.free hempty h (habove r rest hpieces hrest)) hplace bytes
  obtain ⟨hgrown, hfiles⟩ := h.writeDeep_spec hempty hname hwrite
  refine ⟨tree', hwrite, hgrown, fun rest hne => ?_, fun rest hdir => ?_⟩
  · rw [hfiles] at hne
    split at hne
    · rename_i heq
      rw [heq]
      exact hheld
    · exact hinto.files rest hne
  · rcases h.directory_of_writeDeep hempty hname hwrite hdir with hold | ⟨r, more, hp, hne, heq⟩
    · exact hinto.directories rest hold
    · rw [heq]
      exact habove r more hp hne

/-- The entries of an output are written if there is content only and the other tree has all these
files. -/
theorem writeEntries_ok {goal : FileTree} (hempty : top.IsEmptyAt dir out)
    (hgoal : GrownBelow top dir out goal) {entries : List (String × Artifact)}
    (hentries : ∀ e ∈ entries, IsNormal e.1 ∧ e.2 ≠ .tombstone ∧ goal.held out e.1 ≠ none)
    (h : GrownBelow top dir out tree) (hinto : FitsInto out tree goal) (summary : WriteCounts) :
    ∃ tree' summary', writeEntries dir entries tree summary = (tree', .ok summary') := by
  induction entries generalizing tree summary with
  | nil => exact ⟨tree, summary, rfl⟩
  | cons e entries ih =>
    obtain ⟨name, entry⟩ := e
    obtain ⟨hname, hcontent, hheld⟩ := hentries _ List.mem_cons_self
    cases entry with
    | tombstone => exact absurd rfl hcontent
    | content bytes =>
      obtain ⟨tree₁, hwrite, h₁, hinto₁⟩ := hinto.writeDeep hempty h hgoal hname hheld bytes
      simp only [writeEntries, writeEntry_content, hwrite]
      exact ih (fun e he => hentries e (List.mem_cons_of_mem _ he)) h₁ hinto₁ _

/-- **Writing succeeds** if there is content only and all these files can stand in one tree. -/
theorem write_ok {goal : FileTree} (hempty : top.IsEmptyAt dir out)
    (hgoal : GrownBelow top dir out goal) {output : Artifacts}
    (houtput : ∀ k e, output.get? k = some e →
      IsNormal k ∧ e ≠ .tombstone ∧ goal.held out k ≠ none) :
    ∃ tree' summary, output.write dir top = (tree', .ok summary) :=
  writeEntries_ok hempty hgoal
    (fun e he => houtput e.1 e.2 (SortedMap.get?_eq_some_iff.mpr he)) hempty.grownBelow
    (fitsInto_of_isEmptyAt hempty hgoal) {}

end Write

end Artifacts
end ScriptWeave
