/-
# A batch that is run again

A batch that has failed leaves what it has made so far.  Its cause may lie with the compiler, which
is then mended, and the same batch is run again, into the map that the first run has left.  That map
is not the one that the first run began with, so there is something to be said about it: every entry
that the first run has left is put in again, with the same value.

* The tombstones are put in by every run.
* The files that the first run has handled come before the one it has failed at.  Where the mended
  compiler answers for them as the first one did, their entries are the same, the source maps
  included; so the row of the second run begins with that of the first one
  (`exists_insertions_eq_append`).

A row that is put in twice is put in once, wherever the second run fails in turn.

**Stated here.**  A batch that is run again on its own output does what it would do on the map that
the first run began with (`run_again`).
-/
import ScriptWeave.Proofs.Batch.Failure
import ScriptWeave.Proofs.Batch.Insertions

namespace ScriptWeave
namespace Builder

/-- The file does not fail when it is visited. -/
def Handles (builder : Builder) (args : Option OptionLayer) (v : Visited) : Prop :=
  ∃ result, (builder.handle args v.name v.content v.past).result = .ok result

/-- All that was asked about the files that were handled is answered alike by another compiler. -/
def HandledAlike (builder : Builder) (args : Option OptionLayer) (other : Compiler)
    (visits : List Visited) : Prop :=
  ∀ v ∈ visits, builder.Handles args v →
    ∀ request ∈ (builder.handle args v.name v.content v.past).requests,
      builder.compiler.AnswersAlike other request

section Retrying

variable {builder : Builder} {other : Compiler} {args : Option OptionLayer} {changes : Changes}
  {past : List CompileRequest}

/-- What is handled alike puts in the same entries. -/
theorem entriesAt_withCompiler {name : String} {content : ByteArray}
    {past' : List CompileRequest}
    (h : (builder.withCompiler other).handle args name content past'
      = builder.handle args name content past) :
    (builder.withCompiler other).entriesAt args ⟨name, content, past'⟩
      = builder.entriesAt args ⟨name, content, past⟩ := by
  simp only [entriesAt, visit, h]

/-- The entries of the first run come first. -/
theorem exists_entries_eq_append {files : List (String × ByteArray)}
    (h : builder.HandledAlike args other (builder.visitsFrom args files past))
    (past' : List CompileRequest) :
    ∃ later, ((builder.withCompiler other).visitsFrom args files past').flatMap
        ((builder.withCompiler other).entriesAt args)
      = (builder.visitsFrom args files past).flatMap (builder.entriesAt args) ++ later := by
  induction files generalizing past past' with
  | nil => exact ⟨[], rfl⟩
  | cons file rest ih =>
    obtain ⟨name, content⟩ := file
    cases hh : (builder.handle args name content past).result with
    | error e =>
      -- here the first run has ended, and whatever the other one does comes later
      have hnone : builder.entriesAt args ⟨name, content, past⟩ = [] := by
        simp only [entriesAt, entries_visit_eq_error_iff.mpr hh]
      exact ⟨_, by rw [visitsFrom_cons_of_error hh, List.flatMap_singleton, hnone, List.nil_append]⟩
    | ok result =>
      rw [visitsFrom_cons_of_ok hh] at h ⊢
      have hasked : ∀ request ∈ (builder.handle args name content past).requests,
          builder.compiler.AnswersAlike other request :=
        h ⟨name, content, past⟩ List.mem_cons_self ⟨result, hh⟩
      have hsame := repeats_handle args name content past past' hasked
      obtain ⟨later, hlater⟩ := ih (fun v hv => h v (List.mem_cons_of_mem _ hv))
        (past' ++ (builder.handle args name content past).requests)
      refine ⟨later, ?_⟩
      rw [visitsFrom_cons_of_ok (hsame ▸ hh), List.flatMap_cons, List.flatMap_cons,
        entriesAt_withCompiler hsame, hsame, hlater, List.append_assoc]

/-- The row of the first run comes first in that of the second one. -/
theorem exists_insertions_eq_append
    (h : builder.HandledAlike args other (builder.visits changes args past))
    (past' : List CompileRequest) :
    ∃ later, (builder.withCompiler other).insertions changes args past'
      = builder.insertions changes args past ++ later := by
  obtain ⟨later, hlater⟩ := exists_entries_eq_append h past'
  refine ⟨later, ?_⟩
  rw [insertions, insertions, List.append_assoc]
  exact congrArg (_ ++ ·) hlater

/-- **A batch that is run again with another compiler**, on the output of the first run, does what
it would have done at first. -/
theorem run_withCompiler_run
    (h : builder.HandledAlike args other (builder.visits changes args past))
    (output : Artifacts) (past' : List CompileRequest) :
    (builder.withCompiler other).run changes (builder.run changes output args past).output args
        past'
      = (builder.withCompiler other).run changes output args past' := by
  obtain ⟨later, hlater⟩ := exists_insertions_eq_append h past'
  apply run_eq_of_output_eq
  rw [output_run_eq_insertAll, output_run_eq_insertAll, output_run_eq_insertAll, hlater,
    SortedMap.insertAll_append, SortedMap.insertAll_append, SortedMap.insertAll_insertAll_self]

end Retrying

/-- **A batch that is run again on its own output** converges: with a compiler that answers all that
was asked about the handled files as the first one did, it does what it would do on the map that the
first run began with, whether it succeeds or fails.  With the first compiler itself, nothing
changes. -/
theorem run_again (builder : Builder) (other : Compiler) (hpure : builder.compiler.Memoryless)
    (hother : other.Memoryless) (changes : Changes) (output : Artifacts)
    (args : Option OptionLayer) (past : List CompileRequest)
    (hagree : ∀ v ∈ builder.visits changes args past, builder.Handles args v →
      ∀ request ∈ (builder.handle args v.name v.content v.past).requests,
        other [] request = builder.compiler [] request)
    (past' past'' : List CompileRequest) :
    let left := (builder.run changes output args past).output
    (builder.withCompiler other).run changes left args past'
        = (builder.withCompiler other).run changes output args past'' ∧
      builder.run changes left args past' = builder.run changes output args past'' := by
  have halike : builder.HandledAlike args other (builder.visits changes args past) := by
    intro v hv hhandles request hr asked asked'
    rw [hother asked' [] request, hagree v hv hhandles request hr, hpure [] asked request]
  have hself : builder.HandledAlike args builder.compiler (builder.visits changes args past) :=
    fun _ _ _ request _ => hpure.answersAlike request
  constructor
  · rw [run_withCompiler_run halike]
    exact run_of_memoryless hother output past'' past'
  · have hagain := run_withCompiler_run hself output past'
    exact hagain.trans (run_of_memoryless hpure output past'' past')

/-- A builder whose compiler makes source maps, and refuses the text `no`. -/
def careful : Builder :=
  picky.withCompiler <| Compiler.pure fun r =>
    if r.source = "no" then .error ⟨"refused", none⟩
    else .ok { code := r.source, sourceMap := some (.object []) }

/-- Its compiler, mended: it takes the text `no` as well. -/
def mended : Compiler :=
  Compiler.pure fun r => .ok { code := r.source, sourceMap := some (.object []) }

/-- A batch that fails at its second script. -/
def retried : Changes :=
  ⟨NameSet.ofNames ["z.css"], SortedMap.ofList [("a.js", "x".toUTF8), ("b.js", "no".toUTF8)]⟩

/-- The batch fails with the first compiler, and does not with the mended one, which does the same
on the partial output. -/
theorem run_again_mended :
    (careful.run retried ∅ none []).failure.map (·.file) = some "b.js" ∧
    ((careful.withCompiler mended).run retried (careful.run retried ∅ none []).output none
        []).failure.map (·.file) = none ∧
    (careful.withCompiler mended).run retried (careful.run retried ∅ none []).output none []
      = (careful.withCompiler mended).run retried ∅ none [] := by
  refine ⟨by decide, by decide, ?_⟩
  refine (run_again careful mended (Compiler.memoryless_pure _) (Compiler.memoryless_pure _)
    retried ∅ none [] ?_ [] []).1
  have hvisits : careful.visits retried none [] = [⟨"a.js", "x".toUTF8, []⟩,
      ⟨"b.js", "no".toUTF8, [⟨"x", ⟨"a.js", ["jsx"], none, ∅⟩⟩]⟩] := by rfl
  rw [hvisits]
  intro v hv hhandles request hr
  simp only [List.mem_cons, List.not_mem_nil, or_false] at hv
  rcases hv with rfl | rfl
  · have hasked : (careful.handle none "a.js" "x".toUTF8 []).requests
        = [⟨"x", ⟨"a.js", ["jsx"], none, ∅⟩⟩] := by rfl
    rw [hasked, List.mem_singleton] at hr
    subst hr
    rfl
  · -- the second file is the one that failed
    obtain ⟨result, hresult⟩ := hhandles
    have hfails : (careful.handle none "b.js" "no".toUTF8
        [⟨"x", ⟨"a.js", ["jsx"], none, ∅⟩⟩]).result = .error (.compile "b.js" "refused" none) := by
      rfl
    rw [hfails] at hresult
    cases hresult

end Builder
end ScriptWeave
