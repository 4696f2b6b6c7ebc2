/-
# Whose source map stands in the output

A batch is run into an output map that may come from earlier batches, and puts its own entries over
what is there.  A source map has its entry under a name of its own, `a.js.map` for `a.js`.  Nothing
is put there when `a.js` is removed, no longer makes a source map, or is no script, so that an entry
from an earlier batch stays.

So there are two ways for bytes to stand under the source map name of a file of the batch: the
file made this source map now, or it made none, and the bytes were there before
(`content?_run_sourceMapName`).  The second way is what the documentation rules out when it says
that these entries appear only for files that produced a source map.

**Stated here.**  The entries under source map names are those of the source maps made in the batch
exactly when the output map carried in has no bytes under any of these names for which no source map
is made (`forall_ownSourceMap_iff`); so for every batch that is run into the empty map
(`ownSourceMap_of_empty`).  `not_ownSourceMap_of_removed` is the batch after that, which fails to.
-/
import ScriptWeave.Proofs.Batch.Output

namespace ScriptWeave

/-- The file was removed, added or changed. -/
def Changes.Concerns (changes : Changes) (name : String) : Prop :=
  changes.removed.contains name = true ∨ ∃ content, changes.updated.get? name = some content

/-- What is found at a key decides what bytes are there. -/
theorem Artifacts.content?_of_get?_eq {output output' : Artifacts} {k k' : String}
    (h : output.get? k = output'.get? k') : output.content? k = output'.content? k' := by
  unfold content?
  rw [h]

namespace Builder

section SourceMaps

variable {builder : Builder} {args : Option OptionLayer} {changes : Changes}
  {past : List CompileRequest}

/-- The bytes are those of the source map that was made for the file in this batch. -/
def IsSourceMapOf (builder : Builder) (args : Option OptionLayer) (changes : Changes)
    (past : List CompileRequest) (name : String) (bytes : ByteArray) : Prop :=
  ∃ v ∈ builder.visits changes args past, v.name = name ∧
    ∃ map, builder.MadeMap args v map ∧ bytes = map.indented.toUTF8

/-- What is visited is a file of the batch. -/
theorem concerns_of_mem_visits {v : Visited} (hv : v ∈ builder.visits changes args past) :
    changes.Concerns v.name :=
  Or.inr ⟨v.content, (mem_of_mem_visits hv).1⟩

/-! ## 1. One name -/

/-- A source map of a file is found under its name, if that is not the name of another file of the
batch. -/
theorem content?_run_of_isSourceMapOf {name : String} {bytes : ByteArray} (output : Artifacts)
    (hfree : ¬ changes.Concerns (sourceMapName name))
    (h : builder.IsSourceMapOf args changes past name bytes) :
    (builder.run changes output args past).output.content? (sourceMapName name) = some bytes := by
  obtain ⟨v, hv, rfl, map, hm, rfl⟩ := h
  have hother : ∀ w ∈ builder.visits changes args past, w.name ≠ sourceMapName v.name := by
    intro w hw heq
    exact hfree (heq ▸ concerns_of_mem_visits hw)
  rw [Artifacts.content?, get?_output_run_of_madeMap hv hm hother]
  rfl

/-- Where no source map of the file is made, its name keeps the bytes it had. -/
theorem content?_run_of_no_map {name : String} (output : Artifacts)
    (hfree : ¬ changes.Concerns (sourceMapName name))
    (hno : ∀ bytes, ¬ builder.IsSourceMapOf args changes past name bytes) :
    (builder.run changes output args past).output.content? (sourceMapName name)
      = output.content? (sourceMapName name) := by
  have hother : ∀ w ∈ builder.visits changes args past, w.name ≠ sourceMapName name := by
    intro w hw heq
    exact hfree (heq ▸ concerns_of_mem_visits hw)
  have hnone : ∀ w ∈ builder.visits changes args past, ∀ map, builder.MadeMap args w map →
      sourceMapName w.name ≠ sourceMapName name := by
    intro w hw map hm heq
    exact hno _ ⟨w, hw, sourceMapName_injective heq, map, hm, rfl⟩
  have hkept : changes.removed.contains (sourceMapName name) ≠ true := fun h => hfree (Or.inl h)
  apply Artifacts.content?_of_get?_eq
  rw [get?_output_run_of_untouched hother hnone, if_neg hkept]

/-- **What stands under the source map name of a file**: the source map that was made in this batch;
else the bytes that were there before. -/
theorem content?_run_sourceMapName {name : String} (output : Artifacts) (bytes : ByteArray)
    (hfree : ¬ changes.Concerns (sourceMapName name)) :
    (builder.run changes output args past).output.content? (sourceMapName name) = some bytes ↔
      builder.IsSourceMapOf args changes past name bytes ∨
        (∀ made, ¬ builder.IsSourceMapOf args changes past name made) ∧
          output.content? (sourceMapName name) = some bytes := by
  by_cases hmade : ∃ made, builder.IsSourceMapOf args changes past name made
  · obtain ⟨made, hmade⟩ := hmade
    rw [content?_run_of_isSourceMapOf output hfree hmade]
    constructor
    · intro h
      cases h
      exact Or.inl hmade
    · rintro (h | ⟨hno, -⟩)
      · rw [← content?_run_of_isSourceMapOf output hfree hmade]
        exact content?_run_of_isSourceMapOf output hfree h
      · exact absurd hmade (hno made)
  · have hno := not_exists.mp hmade
    rw [content?_run_of_no_map output hfree hno]
    constructor
    · intro h
      exact Or.inr ⟨hno, h⟩
    · rintro (h | ⟨-, h⟩)
      · exact absurd h (hno bytes)
      · exact h

/-! ## 2. All names of a batch -/

/-- **Source map entries appear only for files that produced a source map**, and hold it, exactly
when the output map carried in has no bytes under the source map name of a file of the batch that
makes none in it.  This holds of batches that fail, too. -/
theorem forall_ownSourceMap_iff (builder : Builder) (changes : Changes) (output : Artifacts)
    (args : Option OptionLayer) (past : List CompileRequest) :
    (∀ name, changes.Concerns name → ¬ changes.Concerns (sourceMapName name) → ∀ bytes,
        ((builder.run changes output args past).output.content? (sourceMapName name) = some bytes ↔
          ∃ v ∈ builder.visits changes args past, v.name = name ∧
            ∃ map, builder.MadeMap args v map ∧ bytes = map.indented.toUTF8)) ↔
      ∀ name, changes.Concerns name → ¬ changes.Concerns (sourceMapName name) →
        (∀ v ∈ builder.visits changes args past, v.name = name →
          ∀ map, ¬ builder.MadeMap args v map) →
        output.content? (sourceMapName name) = none := by
  constructor
  · intro h name hname hfree hno
    have hnone : ∀ bytes, ¬ builder.IsSourceMapOf args changes past name bytes := by
      rintro bytes ⟨v, hv, hvn, map, hm, -⟩
      exact hno v hv hvn map hm
    refine Option.eq_none_iff_forall_ne_some.mpr fun bytes hbytes => ?_
    rw [← content?_run_of_no_map output hfree hnone] at hbytes
    exact hnone bytes ((h name hname hfree bytes).mp hbytes)
  · intro h name hname hfree bytes
    rw [content?_run_sourceMapName output bytes hfree]
    constructor
    · rintro (hmade | ⟨hno, hbytes⟩)
      · exact hmade
      · -- nothing was there before
        have hout : output.content? (sourceMapName name) = none := by
          refine h name hname hfree fun v hv hvn map hm => ?_
          exact hno _ ⟨v, hv, hvn, map, hm, rfl⟩
        rw [hout] at hbytes
        cases hbytes
    · exact Or.inl

/-- A batch that is run into the empty map leaves no source map but those it makes. -/
theorem ownSourceMap_of_empty {name : String} (bytes : ByteArray)
    (hfree : ¬ changes.Concerns (sourceMapName name)) :
    (builder.run changes ∅ args past).output.content? (sourceMapName name) = some bytes ↔
      builder.IsSourceMapOf args changes past name bytes := by
  rw [content?_run_sourceMapName ∅ bytes hfree]
  constructor
  · rintro (h | ⟨-, h⟩)
    · exact h
    · cases h
  · exact Or.inl

end SourceMaps

/-- The output map of a batch in which `a.js` had a source map. -/
def outputWithMap : Artifacts :=
  (mapping.run ⟨∅, SortedMap.ofList [("a.js", "x".toUTF8)]⟩ ∅ none []).output

/-- The batch after it removes `a.js`.  Nothing fails, no compiler is asked for anything, and the
source map stays. -/
theorem not_ownSourceMap_of_removed :
    (mapping.run ⟨NameSet.ofNames ["a.js"], ∅⟩ outputWithMap none []).failure = none ∧
    ¬ ∀ name, Changes.Concerns ⟨NameSet.ofNames ["a.js"], ∅⟩ name →
      ¬ Changes.Concerns ⟨NameSet.ofNames ["a.js"], ∅⟩ (sourceMapName name) → ∀ bytes,
      ((mapping.run ⟨NameSet.ofNames ["a.js"], ∅⟩ outputWithMap none []).output.content?
          (sourceMapName name) = some bytes ↔
        ∃ v ∈ mapping.visits ⟨NameSet.ofNames ["a.js"], ∅⟩ none [], v.name = name ∧
          ∃ map, mapping.MadeMap none v map ∧ bytes = map.indented.toUTF8) := by
  refine ⟨by decide, fun h => ?_⟩
  have hfree : ¬ Changes.Concerns ⟨NameSet.ofNames ["a.js"], ∅⟩ (sourceMapName "a.js") := by
    rintro (hr | ⟨content, hu⟩)
    · exact absurd hr (by decide)
    · cases hu
  have hstale : (mapping.run ⟨NameSet.ofNames ["a.js"], ∅⟩ outputWithMap none []).output.content?
      (sourceMapName "a.js") = some (Json.object []).indented.toUTF8 := by
    decide
  obtain ⟨v, hv, -⟩ := (h "a.js" (Or.inl (by decide)) hfree _).mp hstale
  cases hv

end Builder
end ScriptWeave
