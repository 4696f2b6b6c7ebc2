/-
# A batch that is run in parts

A watcher does not choose its batches: what comes late is in the next one.  So what if one change
set is run in two parts, each into the output of the one before?  The tombstones of the second part
are then put in after the files of the first one, and files that were visited in the order of their
names are now visited in another.

None of this matters as long as no key is put in with two values.  With a compiler without a memory
a file makes the same entries in every batch, so what a batch puts in is a matter of its change set
alone, and comes in three kinds (`PutsIn`): tombstones, results of files, source maps.  Two kinds
meet at one key only where a source map has the name of a file of the batch.  Where none has, the
parts put in what the whole puts in, in whatever order.

**Stated here.**  What a batch puts in (`mem_insertions_iff`); any row of change sets that make up
the whole one comes to the same (`runInTurn_of_madeUpOf`), with the case of two complementary parts,
in either order (`runInTurn_only`).
-/
import ScriptWeave.Proofs.Batch.Insertions
import ScriptWeave.Proofs.Batch.Project
import ScriptWeave.Proofs.Batch.SourceMaps

namespace ScriptWeave

/-! ## 1. Parts of a change set -/

namespace Changes

/-- The part of the change set that is about the names of one side. -/
def only (changes : Changes) (side : String → Bool) : Changes where
  removed := changes.removed.filter fun name _ => side name
  updated := changes.updated.filter fun name _ => side name

/-- The change sets remove and change together what the whole one does. -/
structure MadeUpOf (changes : Changes) (parts : List Changes) : Prop where
  removed_iff : ∀ name, changes.removed.contains name = true ↔
    ∃ part ∈ parts, part.removed.contains name = true
  visited_iff : ∀ name content, changes.visited.get? name = some content ↔
    ∃ part ∈ parts, part.visited.get? name = some content

variable {changes : Changes} {parts : List Changes} {side : String → Bool} {name : String}
  {content : ByteArray}

theorem contains_removed_only : (changes.only side).removed.contains name = true ↔
    changes.removed.contains name = true ∧ side name = true := by
  simp only [only, SortedMap.contains_iff_exists_get?, SortedMap.get?_filter_eq_some_iff,
    exists_and_right]

/-- A name goes to one side as a whole, so it is removed there if it is removed at all. -/
theorem get?_visited_only : (changes.only side).visited.get? name = some content ↔
    changes.visited.get? name = some content ∧ side name = true := by
  have hupdated : (changes.only side).updated.get? name = some content ↔
      changes.updated.get? name = some content ∧ side name = true :=
    SortedMap.get?_filter_eq_some_iff
  rw [get?_visited_eq_some_iff, get?_visited_eq_some_iff, hupdated, and_right_comm]
  refine and_congr_left fun hside => and_congr_right fun _ => ?_
  rw [← Bool.not_eq_true, ← Bool.not_eq_true, contains_removed_only, and_iff_left hside]

/-- Two sides that are complementary make up the whole. -/
theorem madeUpOf_only (changes : Changes) (side : String → Bool) :
    changes.MadeUpOf [changes.only side, changes.only fun name => !side name] where
  removed_iff name := by
    simp only [List.mem_cons, List.not_mem_nil, or_false, exists_eq_or_imp, exists_eq_left,
      contains_removed_only]
    cases side name <;> simp
  visited_iff name content := by
    simp only [List.mem_cons, List.not_mem_nil, or_false, exists_eq_or_imp, exists_eq_left,
      get?_visited_only]
    cases side name <;> simp

/-- In which order the parts are listed does not matter. -/
theorem MadeUpOf.perm {parts' : List Changes} (h : changes.MadeUpOf parts)
    (hperm : parts.Perm parts') : changes.MadeUpOf parts' where
  removed_iff name := by simp only [h.removed_iff, hperm.mem_iff]
  visited_iff name content := by simp only [h.visited_iff, hperm.mem_iff]

end Changes

namespace Builder

section Parts

variable {builder : Builder} {args : Option OptionLayer} {changes : Changes}
  {parts : List Changes} {output : Artifacts} {past : List CompileRequest}

/-! ## 2. What a change set puts in -/

/-- **What a batch puts in** under a name, if all of its files have results. -/
inductive PutsIn (builder : Builder) (args : Option OptionLayer) (changes : Changes) (k : String) :
    Artifact → Prop
  | tombstone : changes.removed.contains k = true → PutsIn builder args changes k .tombstone
  | own {content bytes : ByteArray} :
      changes.visited.get? k = some content → builder.Delivers args ⟨k, content, []⟩ bytes →
      PutsIn builder args changes k (.content bytes)
  | sourceMap {f : String} {map : Json} :
      builder.MapIn args changes.visited f map → sourceMapName f = k →
      PutsIn builder args changes k (.content map.indented.toUTF8)

/-- The entries of a visit are the result of the file and its source map. -/
theorem putsIn_of_mem_entriesAt (hpure : builder.compiler.Memoryless) {v : Visited} {k : String}
    {a : Artifact} (hv : changes.visited.get? v.name = some v.content)
    (he : (k, a) ∈ builder.entriesAt args v) : builder.PutsIn args changes k a := by
  rw [entriesAt] at he
  cases hok : (builder.visit args v.past v.name v.content).entries with
  | error err =>
    rw [hok] at he
    cases he
  | ok entries =>
    rw [hok] at he
    obtain ⟨bytes, hd, hentries⟩ := visit_cases hok
    have hown : (k, a) = (v.name, .content bytes) → builder.PutsIn args changes k a := by
      intro heq
      cases heq
      exact .own hv (hd.of_memoryless hpure [])
    rcases hentries with ⟨-, rfl⟩ | ⟨map, hm, rfl⟩
    · exact hown (List.mem_singleton.mp he)
    · rcases List.mem_cons.mp he with heq | he
      · cases heq
        exact .sourceMap ⟨v.content, hv, hm.of_memoryless hpure []⟩ rfl
      · exact hown (List.mem_singleton.mp he)

/-- **The row of a batch** holds what its change set puts in. -/
theorem mem_insertions_iff (hpure : builder.compiler.Memoryless)
    (hsound : builder.Sound args changes.visited) (past : List CompileRequest) {k : String}
    {a : Artifact} :
    (k, a) ∈ builder.insertions changes args past ↔ builder.PutsIn args changes k a := by
  have hok : (builder.run changes ∅ args past).failure = none := by
    rw [run_of_memoryless hpure ∅ [] past]
    exact failure_eq_none_of_sound hpure hsound ∅
  rw [insertions, List.mem_append]
  constructor
  · rintro (htomb | he)
    · obtain ⟨name, hname, heq⟩ := List.mem_map.mp htomb
      cases heq
      exact .tombstone (SortedMap.contains_eq_true_iff.mpr hname)
    · obtain ⟨v, hv, he⟩ := List.mem_flatMap.mp he
      exact putsIn_of_mem_entriesAt hpure
        (Changes.get?_visited_eq_some_iff.mpr (mem_of_mem_visits hv)) he
  · intro h
    cases h with
    | tombstone hr =>
      exact Or.inl (List.mem_map.mpr ⟨k, SortedMap.contains_eq_true_iff.mp hr, rfl⟩)
    | own hget hd =>
      obtain ⟨hu, hr⟩ := Changes.get?_visited_eq_some_iff.mp hget
      obtain ⟨⟨_, _, asked⟩, hv, rfl, rfl, entries, he⟩ := exists_visit_of_success hok hu hr
      obtain ⟨bytes', before, hd', hrow⟩ := entriesAt_of_ok he
      obtain rfl := hd'.unique (hd.of_memoryless hpure asked)
      exact Or.inr (List.mem_flatMap.mpr ⟨_, hv, hrow ▸ List.mem_append_right before (by simp)⟩)
    | sourceMap hm hname =>
      obtain ⟨content, hget, hmade⟩ := hm
      obtain ⟨hu, hr⟩ := Changes.get?_visited_eq_some_iff.mp hget
      obtain ⟨⟨_, _, asked⟩, hv, rfl, rfl, -⟩ := exists_visit_of_success hok hu hr
      obtain ⟨bytes, hrow⟩ := entriesAt_of_madeMap (hmade.of_memoryless hpure asked)
      exact Or.inr (List.mem_flatMap.mpr ⟨_, hv, hrow ▸ hname ▸ List.mem_cons_self⟩)

/-- No key has two values, if no source map has the name of a file of the batch. -/
theorem PutsIn.unique {k : String} {a b : Artifact}
    (hfree : ∀ f map, builder.MapIn args changes.visited f map →
      ¬ changes.Concerns (sourceMapName f))
    (ha : builder.PutsIn args changes k a) (hb : builder.PutsIn args changes k b) : a = b := by
  have hvisited : ∀ {content}, changes.visited.get? k = some content →
      changes.removed.contains k ≠ true ∧ changes.Concerns k := by
    intro content hget
    obtain ⟨hu, hr⟩ := Changes.get?_visited_eq_some_iff.mp hget
    exact ⟨by simp [hr], Or.inr ⟨content, hu⟩⟩
  cases ha with
  | tombstone hr =>
    cases hb with
    | tombstone => rfl
    | own hget => exact absurd hr (hvisited hget).1
    | sourceMap hm hname => exact absurd (Or.inl (hname ▸ hr)) (hfree _ _ hm)
  | own hget hd =>
    cases hb with
    | tombstone hr => exact absurd hr (hvisited hget).1
    | own hget' hd' =>
      obtain rfl := Option.some.inj (hget.symm.trans hget')
      rw [hd.unique hd']
    | sourceMap hm hname => exact absurd (hname ▸ (hvisited hget).2) (hfree _ _ hm)
  | sourceMap hm hname =>
    cases hb with
    | tombstone hr => exact absurd (Or.inl (hname ▸ hr)) (hfree _ _ hm)
    | own hget => exact absurd (hname ▸ (hvisited hget).2) (hfree _ _ hm)
    | sourceMap hm' hname' =>
      obtain rfl := sourceMapName_injective (hname.trans hname'.symm)
      rw [hm.unique hm']

/-- What the whole puts in, one of the parts puts in. -/
theorem putsIn_iff_of_madeUpOf (h : changes.MadeUpOf parts) {k : String} {a : Artifact} :
    builder.PutsIn args changes k a ↔ ∃ part ∈ parts, builder.PutsIn args part k a := by
  constructor
  · intro he
    cases he with
    | tombstone hr =>
      obtain ⟨part, hp, hr⟩ := (h.removed_iff k).mp hr
      exact ⟨part, hp, .tombstone hr⟩
    | own hget hd =>
      obtain ⟨part, hp, hget⟩ := (h.visited_iff k _).mp hget
      exact ⟨part, hp, .own hget hd⟩
    | sourceMap hm hname =>
      obtain ⟨content, hget, hmade⟩ := hm
      obtain ⟨part, hp, hget⟩ := (h.visited_iff _ content).mp hget
      exact ⟨part, hp, .sourceMap ⟨content, hget, hmade⟩ hname⟩
  · rintro ⟨part, hp, he⟩
    cases he with
    | tombstone hr => exact .tombstone ((h.removed_iff k).mpr ⟨part, hp, hr⟩)
    | own hget hd => exact .own ((h.visited_iff k _).mpr ⟨part, hp, hget⟩) hd
    | sourceMap hm hname =>
      obtain ⟨content, hget, hmade⟩ := hm
      exact .sourceMap ⟨content, (h.visited_iff _ content).mpr ⟨part, hp, hget⟩, hmade⟩ hname

/-- The files of the whole have results exactly when those of every part have. -/
theorem sound_iff_of_madeUpOf (h : changes.MadeUpOf parts) :
    builder.Sound args changes.visited ↔ ∀ part ∈ parts, builder.Sound args part.visited := by
  constructor
  · exact fun hs part hp name content hget =>
      hs name content ((h.visited_iff _ _).mpr ⟨part, hp, hget⟩)
  · intro hs name content hget
    obtain ⟨part, hp, hget⟩ := (h.visited_iff _ _).mp hget
    exact hs part hp name content hget

/-! ## 3. Change sets in turn -/

/-- The output of a batch, unless it failed. -/
def BatchResult.output? (r : BatchResult) : Option Artifacts :=
  match r.failure with
  | none => some r.output
  | some _ => none

/-- Runs one change set after another, each into the output of the one before; the first one that
fails ends it. -/
def runInTurn (builder : Builder) (args : Option OptionLayer) :
    List CompileRequest → List Changes → Artifacts → Option Artifacts
  | _, [], output => some output
  | past, changes :: rest, output =>
    let r := builder.run changes output args past
    r.output?.bind (builder.runInTurn args (past ++ r.requests) rest)

/-- The output of one batch. -/
theorem output?_run_eq_some_iff (hpure : builder.compiler.Memoryless) {final : Artifacts} :
    (builder.run changes output args past).output? = some final ↔
      builder.Sound args changes.visited ∧
        final = output.insertAll (builder.insertions changes args past) := by
  rw [← output_run_eq_insertAll, run_of_memoryless hpure output [] past]
  constructor
  · intro h
    cases hf : (builder.run changes output args []).failure with
    | none =>
      rw [BatchResult.output?, hf] at h
      exact ⟨sound_of_success hpure hf, (Option.some.inj h).symm⟩
    | some f =>
      rw [BatchResult.output?, hf] at h
      cases h
  · rintro ⟨hsound, rfl⟩
    rw [BatchResult.output?, failure_eq_none_of_sound hpure hsound]

/-- **The output of a row of batches**, read through the rows of all of them. -/
theorem runInTurn_eq_some_iff (hpure : builder.compiler.Memoryless) {final : Artifacts} :
    builder.runInTurn args past parts output = some final ↔
      (∀ part ∈ parts, builder.Sound args part.visited) ∧
        final = output.insertAll (parts.flatMap (builder.insertions · args [])) := by
  induction parts generalizing past output with
  | nil => simp [runInTurn, eq_comm]
  | cons part rest ih =>
    have hrow : output.insertAll (builder.insertions part args past)
        = output.insertAll (builder.insertions part args []) := by
      rw [← output_run_eq_insertAll, ← output_run_eq_insertAll, run_of_memoryless hpure]
    simp only [runInTurn, Option.bind_eq_some_iff, output?_run_eq_some_iff hpure, ih,
      List.forall_mem_cons, List.flatMap_cons, SortedMap.insertAll_append, hrow]
    constructor
    · rintro ⟨_, ⟨hhere, rfl⟩, hrest, rfl⟩
      exact ⟨⟨hhere, hrest⟩, rfl⟩
    · rintro ⟨⟨hhere, hrest⟩, rfl⟩
      exact ⟨_, ⟨hhere, rfl⟩, hrest, rfl⟩

/-- **A batch in parts** leaves the output of the whole one, if no source map has the name of one of
its files. -/
theorem runInTurn_of_madeUpOf (hpure : builder.compiler.Memoryless) (h : changes.MadeUpOf parts)
    (hfree : ∀ f map, builder.MapIn args changes.visited f map →
      ¬ changes.Concerns (sourceMapName f)) :
    builder.runInTurn args past parts output
      = (builder.run changes output args past).output? := by
  refine Option.ext fun final => ?_
  rw [runInTurn_eq_some_iff hpure, output?_run_eq_some_iff hpure, ← sound_iff_of_madeUpOf h]
  refine and_congr_right fun hsound => ?_
  have hparts := (sound_iff_of_madeUpOf h).mp hsound
  have hwhole : ∀ {k a}, (k, a) ∈ builder.insertions changes args past ↔
      builder.PutsIn args changes k a := mem_insertions_iff hpure hsound past
  have hsame : output.insertAll (builder.insertions changes args past)
      = output.insertAll (parts.flatMap (builder.insertions · args [])) := by
    refine SortedMap.insertAll_congr output ?_ ?_
    · rintro ⟨k, a⟩ he ⟨_, b⟩ hd rfl
      exact PutsIn.unique hfree (hwhole.mp he) (hwhole.mp hd)
    · rintro ⟨k, a⟩
      rw [hwhole, putsIn_iff_of_madeUpOf h, List.mem_flatMap]
      exact exists_congr fun part => and_congr_right fun hp =>
        (mem_insertions_iff hpure (hparts part hp) []).symm
  rw [hsame]

end Parts

/-- **A batch in two parts**, each name in one of them, comes to the same as the whole batch, in
either order of the parts: it fails exactly when the whole does, and leaves the same output.  This
takes that no source map that is made has the name of a file of the batch. -/
theorem runInTurn_only (builder : Builder) (hpure : builder.compiler.Memoryless)
    (changes : Changes) (side : String → Bool) (output : Artifacts) (args : Option OptionLayer)
    (past : List CompileRequest)
    (hfree : ∀ f map, builder.MapIn args changes.visited f map →
      ¬ changes.Concerns (sourceMapName f)) :
    let here := changes.only side
    let there := changes.only fun name => !side name
    builder.runInTurn args past [here, there] output
        = (builder.run changes output args past).output? ∧
      builder.runInTurn args past [there, here] output
        = (builder.run changes output args past).output? := by
  have hparts := changes.madeUpOf_only side
  exact ⟨runInTurn_of_madeUpOf hpure hparts hfree,
    runInTurn_of_madeUpOf hpure (hparts.perm (List.Perm.swap _ _ [])) hfree⟩

/-- A batch in which a file was both removed and changed, and whose names are split unevenly. -/
def parted : Changes :=
  ⟨NameSet.ofNames ["b.js", "y.css"], SortedMap.ofList [("a.js", "x".toUTF8),
    ("b.js", "y".toUTF8), ("c.js", "z".toUTF8), ("d.css", "w".toUTF8)]⟩

/-- What is run first. -/
def comesFirst (name : String) : Bool := name ≠ "b.js" && name ≠ "c.js"

/-- The batch does not fail, and comes to the same when `b.js` and `c.js` come later. -/
theorem runInTurn_only_parted :
    (mapping.run parted ∅ none []).failure.isNone = true ∧
    mapping.runInTurn none [] [parted.only comesFirst, parted.only fun name => !comesFirst name] ∅
      = (mapping.run parted ∅ none []).output? := by
  refine ⟨by decide, (runInTurn_only mapping (Compiler.memoryless_pure _) parted
    comesFirst ∅ none [] ?_).1⟩
  rintro f map ⟨content, hget, -⟩
  obtain ⟨hu, -⟩ := Changes.get?_visited_eq_some_iff.mp hget
  have hnames : ∀ name ∈ parted.updated.keys,
      parted.removed.contains (sourceMapName name) = false ∧
        parted.updated.get? (sourceMapName name) = none := by decide
  have hf : f ∈ parted.updated.keys :=
    SortedMap.contains_eq_true_iff.mp (SortedMap.contains_iff_exists_get?.mpr ⟨content, hu⟩)
  obtain ⟨hremoved, hupdated⟩ := hnames f hf
  rintro (hr | ⟨_, hu⟩)
  · rw [hremoved] at hr
    cases hr
  · rw [hupdated] at hu
    cases hu

/-- The file `a.js.map` wins over the source map of `a.js` in one batch, and loses to it when `a.js`
comes in a later part. -/
example :
    let both : Changes := ⟨∅, SortedMap.ofList [("a.js", "x".toUTF8), ("a.js.map", "y".toUTF8)]⟩
    ((mapping.run both ∅ none []).output?.bind (·.content? "a.js.map")) = some "y".toUTF8 ∧
      ((mapping.runInTurn none [] [both.only (· == "a.js.map"), both.only (!· == "a.js.map")]
        ∅).bind (·.content? "a.js.map")) = some (Json.object []).indented.toUTF8 := by
  decide

end Builder
end ScriptWeave
