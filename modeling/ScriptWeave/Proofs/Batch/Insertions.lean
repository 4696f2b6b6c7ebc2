/-
# A batch as a row of insertions

What a batch does to the output map that it is run into comes to a row of insertions: tombstones for
the removed files, and then the entries of its visits (`Builder.insertions`).  The row does not
depend on the map, nor does anything else that the batch does: it never looks at what is in there.

So two batches run into different maps, or one after the other into the same map, can be compared by
their rows alone.

**Stated here.**  The output of a batch is its row put into the map (`output_run_eq_insertAll`); its
events and its failure are the same for every map (`events_run`, `failure_run`); and with a
compiler without a memory it does not matter when a batch is run (`run_of_memoryless`).
-/
import ScriptWeave.Proofs.Batch.Output
import ScriptWeave.Proofs.Compile.Memoryless

namespace ScriptWeave
namespace Builder

attribute [ext] BatchResult

/-- The row of what a batch puts in: tombstones, and the entries of its visits. -/
def insertions (builder : Builder) (changes : Changes) (args : Option OptionLayer)
    (past : List CompileRequest) : List (String × Artifact) :=
  changes.removed.keys.map (·, .tombstone) ++
    (builder.visits changes args past).flatMap (builder.entriesAt args)

section Insertions

variable {builder : Builder} {args : Option OptionLayer} {changes : Changes}
  {past : List CompileRequest}

/-- **The output of a batch** is its row of insertions, put into the map it is run into. -/
theorem output_run_eq_insertAll (output : Artifacts) :
    (builder.run changes output args past).output
      = output.insertAll (builder.insertions changes args past) := by
  rw [output_run, Artifacts.bury_eq_insertAll, insertions, SortedMap.insertAll_append]

/-- A batch that is run into another map does the same, apart from what is in the map. -/
theorem visitAll_of_output (removed : NameSet) (output other : Artifacts) :
    ∀ (files : List (String × ByteArray)) (past : List CompileRequest),
      (builder.visitAll args removed files past other).events
          = (builder.visitAll args removed files past output).events ∧
        (builder.visitAll args removed files past other).failure
          = (builder.visitAll args removed files past output).failure := by
  intro files
  induction files generalizing output other with
  | nil => exact fun _ => ⟨rfl, rfl⟩
  | cons file rest ih =>
    obtain ⟨name, content⟩ := file
    intro past
    by_cases hr : removed.contains name = true
    · obtain ⟨hevents, hfailure⟩ := ih output other past
      rw [visitAll_cons_of_removed hr, visitAll_cons_of_removed hr]
      exact ⟨congrArg (Event.skipped name :: ·) hevents, hfailure⟩
    · rcases builder.handle_error_or_visit_ok args past name content with
        ⟨e, hh⟩ | ⟨result, entries, hh, he⟩
      · rw [visitAll_cons_of_error hr hh, visitAll_cons_of_error hr hh]
        exact ⟨rfl, rfl⟩
      · obtain ⟨hevents, hfailure⟩ := ih (output.insertAll entries) (other.insertAll entries)
          (past ++ (builder.handle args name content past).requests)
        rw [visitAll_cons_of_ok hr he, visitAll_cons_of_ok hr he]
        exact ⟨congrArg ((builder.visit args past name content).events ++ ·) hevents, hfailure⟩

/-- What happens in a batch does not depend on the map that it is run into. -/
theorem events_run (output other : Artifacts) :
    (builder.run changes other args past).events = (builder.run changes output args past).events :=
  (visitAll_of_output changes.removed _ _ changes.updated.entries past).1

/-- Nor does its failure. -/
theorem failure_run (output other : Artifacts) :
    (builder.run changes other args past).failure
      = (builder.run changes output args past).failure :=
  (visitAll_of_output changes.removed _ _ changes.updated.entries past).2

/-- Runs into two maps that leave the same output are the same run. -/
theorem run_eq_of_output_eq {output other : Artifacts}
    (h : (builder.run changes other args past).output
      = (builder.run changes output args past).output) :
    builder.run changes other args past = builder.run changes output args past :=
  BatchResult.ext h (events_run output other) (failure_run output other)

/-! ## Batches at different times -/

theorem visit_of_memoryless (hpure : builder.compiler.Memoryless) (args : Option OptionLayer)
    (name : String) (content : ByteArray) (past past' : List CompileRequest) :
    builder.visit args past name content = builder.visit args past' name content := by
  unfold visit
  rw [steady_handle hpure args name content past past']

/-- **A batch comes to the same whatever the compiler was asked before**, if it has no memory. -/
theorem run_of_memoryless (hpure : builder.compiler.Memoryless) (output : Artifacts)
    (past past' : List CompileRequest) :
    builder.run changes output args past' = builder.run changes output args past := by
  have hall : ∀ (files : List (String × ByteArray)) (past past' : List CompileRequest)
      (output : Artifacts), builder.visitAll args changes.removed files past' output
        = builder.visitAll args changes.removed files past output := by
    intro files
    induction files with
    | nil => exact fun _ _ _ => rfl
    | cons file rest ih =>
      obtain ⟨name, content⟩ := file
      intro past past' output
      have hhandle := steady_handle hpure args name content past' past
      have hvisit := visit_of_memoryless hpure args name content past' past
      by_cases hr : changes.removed.contains name = true
      · rw [visitAll_cons_of_removed hr, visitAll_cons_of_removed hr, ih past past']
      · rcases builder.handle_error_or_visit_ok args past name content with
          ⟨e, hh⟩ | ⟨result, entries, hh, he⟩
        · rw [visitAll_cons_of_error hr hh, visitAll_cons_of_error hr (hhandle ▸ hh), hvisit]
        · rw [visitAll_cons_of_ok hr he, visitAll_cons_of_ok hr (hvisit ▸ he), hhandle, hvisit,
            ih (past ++ _) (past' ++ _)]
  exact hall changes.updated.entries past past' (output.bury changes.removed)

end Insertions
end Builder
end ScriptWeave
