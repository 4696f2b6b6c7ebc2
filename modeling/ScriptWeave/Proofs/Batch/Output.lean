/-
# The output of a batch, key by key

Two kinds of keys are put into one output map: the names of the files and the names of their source
maps, and they may be the same (`a.js` with a source map, next to a file `a.js.map`).  Who wins is
decided by the order of the visits: a name comes before that of its source map (`lt_sourceMapName`),
so a file of the batch is put in after any source map of its name, and stays.

Tombstones are put in before all visits, and nothing protects them.  A removed file is not
visited, so no file's own result is put over its tombstone; but a source map is, if one is made
under that name.

**Stated here.**  What is found at the name of a visited file (`get?_output_run_of_mem`), at the
name of a source map (`get?_output_run_of_madeMap`) and at any other key
(`get?_output_run_of_untouched`); when the removed files stay buried
(`forall_removed_buried_iff`); the whole output of a batch without a failure
(`get?_output_run_of_success`).
-/
import ScriptWeave.Proofs.Batch.Visits

namespace ScriptWeave

/-! ## 1. The names of source maps -/

/-- A name comes before the name of its source map. -/
theorem lt_sourceMapName (name : String) : name < sourceMapName name := by
  have hle : name ≤ sourceMapName name := by
    refine String.not_lt.mp fun hlt => ?_
    rw [String.lt_iff, sourceMapName, String.toList_append] at hlt
    exact List.not_lt.mpr List.le_append_left hlt
  refine Std.lt_of_le_of_ne hle fun h => ?_
  have hlen := congrArg String.length h
  simp [sourceMapName] at hlen

theorem sourceMapName_injective {a b : String} (h : sourceMapName a = sourceMapName b) :
    a = b := by
  have ht := congrArg String.toList h
  simp only [sourceMapName, String.toList_append] at ht
  exact String.toList_injective (List.append_cancel_right ht)

/-- Tombstones are put in like other entries. -/
theorem Artifacts.bury_eq_insertAll (output : Artifacts) (names : NameSet) :
    output.bury names = output.insertAll (names.keys.map (·, .tombstone)) := by
  rw [bury, SortedMap.insertAll, List.foldl_map]

/-- What is found after tombstones are put in. -/
theorem Artifacts.get?_bury (output : Artifacts) (names : NameSet) (k : String) :
    (output.bury names).get? k
      = if names.contains k = true then some .tombstone else output.get? k := by
  rw [bury_eq_insertAll, SortedMap.get?_insertAll_const]
  simp only [SortedMap.contains_eq_true_iff]

namespace Builder

section Output

variable {builder : Builder} {args : Option OptionLayer}

/-! ## 2. The entries of a visit -/

/-- An entry of a visit is the file's own result, or its source map. -/
theorem mem_entriesAt {v : Visited} {e : String × Artifact} (he : e ∈ builder.entriesAt args v) :
    e.1 = v.name ∨ ∃ map, builder.MadeMap args v map ∧ e.1 = sourceMapName v.name := by
  rw [entriesAt] at he
  cases hv : (builder.visit args v.past v.name v.content).entries with
  | error err =>
    simp [hv] at he
  | ok entries =>
    rw [hv] at he
    obtain ⟨bytes, -, ⟨-, rfl⟩ | ⟨map, hm, rfl⟩⟩ := visit_cases hv
    · exact Or.inl (by rw [List.mem_singleton.mp he])
    · rcases List.mem_cons.mp he with rfl | he
      · exact Or.inr ⟨map, hm, rfl⟩
      · exact Or.inl (by rw [List.mem_singleton.mp he])

/-- No entry of a visit comes before the file itself. -/
theorem name_le_of_mem_entriesAt {v : Visited} {e : String × Artifact}
    (he : e ∈ builder.entriesAt args v) : v.name ≤ e.1 := by
  rcases mem_entriesAt he with h | ⟨-, -, h⟩
  · exact Std.le_of_eq h.symm
  · rw [h]
    exact Std.le_of_lt (lt_sourceMapName v.name)

/-- The own result is put in last. -/
theorem entriesAt_of_ok {v : Visited} {entries : List (String × Artifact)}
    (h : (builder.visit args v.past v.name v.content).entries = .ok entries) :
    ∃ bytes before, builder.Delivers args v bytes ∧
      builder.entriesAt args v = before ++ [(v.name, .content bytes)] := by
  have he : builder.entriesAt args v = entries := by rw [entriesAt, h]
  obtain ⟨bytes, hd, ⟨-, rfl⟩ | ⟨map, -, rfl⟩⟩ := visit_cases h
  · exact ⟨bytes, [], hd, he⟩
  · exact ⟨bytes, [_], hd, he⟩

/-- A visit in which a source map is made does not fail, and puts in the source map first. -/
theorem entriesAt_of_madeMap {v : Visited} {map : Json} (hm : builder.MadeMap args v map) :
    ∃ bytes, builder.entriesAt args v =
      [(sourceMapName v.name, .content map.indented.toUTF8), (v.name, .content bytes)] := by
  obtain ⟨hk, source, compiled, hs, hc, -⟩ := id hm
  have hh : (builder.handle args v.name v.content v.past).result = .ok (some compiled) := by
    rw [handle_of_script hk hs, Work.bind_pure_apply, hc]
    rfl
  rcases builder.handle_error_or_visit_ok args v.past v.name v.content with
    ⟨e, he⟩ | ⟨-, entries, -, he⟩
  · rw [hh] at he
    cases he
  · obtain ⟨bytes, -, ⟨hno, -⟩ | ⟨map', hm', rfl⟩⟩ := visit_cases he
    · exact absurd hm (hno map)
    · obtain rfl := hm.unique hm'
      exact ⟨bytes, by rw [entriesAt, he]⟩

/-! ## 3. One key of the output -/

variable {changes : Changes} {output : Artifacts} {past : List CompileRequest}

/-- **The output of a batch** is that of its visits, put in over the tombstones. -/
theorem output_run (changes : Changes) (output : Artifacts) (args : Option OptionLayer)
    (past : List CompileRequest) :
    (builder.run changes output args past).output = (output.bury changes.removed).insertAll
      ((builder.visits changes args past).flatMap (builder.entriesAt args)) :=
  output_visitAll changes.removed changes.updated.entries past (output.bury changes.removed)

/-- A visit of a batch, with the entries put in before and after it; the latter are at larger
names. -/
theorem exists_flatMap_eq {v : Visited} (hv : v ∈ builder.visits changes args past) :
    ∃ (before : List (String × Artifact)) (later : List Visited),
      (builder.visits changes args past).flatMap (builder.entriesAt args)
        = before ++ (builder.entriesAt args v ++ later.flatMap (builder.entriesAt args)) ∧
      ∀ w ∈ later, w ∈ builder.visits changes args past ∧ v.name < w.name := by
  obtain ⟨before, later, hsplit⟩ := List.append_of_mem hv
  have hp := builder.pairwise_visits changes args past
  rw [hsplit] at hp ⊢
  obtain ⟨-, hp, -⟩ := List.pairwise_append.mp hp
  have hlt := (List.pairwise_cons.mp hp).1
  refine ⟨before.flatMap (builder.entriesAt args), later, ?_, fun w hw => ⟨?_, hlt w hw⟩⟩
  · rw [List.flatMap_append, List.flatMap_cons]
  · exact List.mem_append_right _ (List.mem_cons_of_mem _ hw)

/-- At the name of a visited file stands the file's own result. -/
theorem get?_output_run_of_mem {v : Visited} {entries : List (String × Artifact)}
    (hv : v ∈ builder.visits changes args past)
    (hok : (builder.visit args v.past v.name v.content).entries = .ok entries) :
    ∃ bytes, builder.Delivers args v bytes ∧
      (builder.run changes output args past).output.get? v.name = some (.content bytes) := by
  obtain ⟨before, later, hflat, hlater⟩ := exists_flatMap_eq hv
  obtain ⟨bytes, own, hd, he⟩ := entriesAt_of_ok hok
  refine ⟨bytes, hd, ?_⟩
  rw [output_run, hflat, he, List.append_assoc, ← List.append_assoc, List.singleton_append]
  refine SortedMap.get?_insertAll_of_last _ fun e hmem => ?_
  -- behind it come files with larger names only, and their entries are at larger names still
  obtain ⟨w, hw, hew⟩ := List.mem_flatMap.mp hmem
  have hlt : v.name < e.1 := Std.lt_of_lt_of_le (hlater w hw).2 (name_le_of_mem_entriesAt hew)
  exact fun heq => Std.lt_irrefl (heq ▸ hlt)

/-- At the name of a source map stands that source map, if no file of that name is visited. -/
theorem get?_output_run_of_madeMap {v : Visited} {map : Json}
    (hv : v ∈ builder.visits changes args past) (hm : builder.MadeMap args v map)
    (hfree : ∀ w ∈ builder.visits changes args past, w.name ≠ sourceMapName v.name) :
    (builder.run changes output args past).output.get? (sourceMapName v.name)
      = some (.content map.indented.toUTF8) := by
  obtain ⟨before, later, hflat, hlater⟩ := exists_flatMap_eq hv
  obtain ⟨bytes, he⟩ := entriesAt_of_madeMap hm
  rw [output_run, hflat, he, List.cons_append, List.singleton_append]
  refine SortedMap.get?_insertAll_of_last _ fun e hmem => ?_
  rcases List.mem_cons.mp hmem with rfl | hmem
  · exact hfree v hv
  · obtain ⟨w, hw, hew⟩ := List.mem_flatMap.mp hmem
    obtain ⟨hwv, hlt⟩ := hlater w hw
    rcases mem_entriesAt hew with h | ⟨-, -, h⟩
    · rw [h]
      exact hfree w hwv
    · rw [h]
      intro heq
      rw [sourceMapName_injective heq] at hlt
      exact Std.lt_irrefl hlt

/-- A key that is neither the name of a visited file nor that of a source map made in the batch
keeps what it had, a removed file its tombstone. -/
theorem get?_output_run_of_untouched {k : String}
    (hfree : ∀ v ∈ builder.visits changes args past, v.name ≠ k)
    (hmap : ∀ v ∈ builder.visits changes args past, ∀ map, builder.MadeMap args v map →
      sourceMapName v.name ≠ k) :
    (builder.run changes output args past).output.get? k
      = if changes.removed.contains k = true then some .tombstone else output.get? k := by
  rw [output_run, SortedMap.get?_insertAll_of_forall_ne, Artifacts.get?_bury]
  intro e he
  obtain ⟨v, hv, hev⟩ := List.mem_flatMap.mp he
  rcases mem_entriesAt hev with h | ⟨map, hm, h⟩
  · rw [h]
    exact hfree v hv
  · rw [h]
    exact hmap v hv map hm

/-! ## 4. Removed files -/

/-- A removed file stays buried unless a source map is made under its name. -/
theorem get?_output_run_of_removed {name : String} (hr : changes.removed.contains name = true) :
    (builder.run changes output args past).output.get? name = some .tombstone ↔
      ∀ v ∈ builder.visits changes args past, ∀ map, builder.MadeMap args v map →
        sourceMapName v.name ≠ name := by
  have hfree : ∀ v ∈ builder.visits changes args past, v.name ≠ name := by
    rintro v hv rfl
    rw [(mem_of_mem_visits hv).2] at hr
    cases hr
  constructor
  · rintro ht v hv map hm rfl
    rw [get?_output_run_of_madeMap hv hm hfree] at ht
    cases ht
  · intro hmap
    rw [get?_output_run_of_untouched hfree hmap, if_pos hr]

/-- **Every removed file ends as a tombstone** exactly when no visited script makes a source map
under the name of a removed file.  This holds of batches that fail, too. -/
theorem forall_removed_buried_iff (builder : Builder) (changes : Changes) (output : Artifacts)
    (args : Option OptionLayer) (past : List CompileRequest) :
    (∀ name, changes.removed.contains name = true →
        (builder.run changes output args past).output.get? name = some .tombstone) ↔
      ∀ v ∈ builder.visits changes args past, ∀ map, builder.MadeMap args v map →
        changes.removed.contains (sourceMapName v.name) = false := by
  constructor
  · intro h v hv map hm
    by_cases hr : changes.removed.contains (sourceMapName v.name) = true
    · exact absurd rfl ((get?_output_run_of_removed hr).mp (h _ hr) v hv map hm)
    · simpa using hr
  · intro h name hr
    refine (get?_output_run_of_removed hr).mpr fun v hv map hm heq => ?_
    rw [← heq, h v hv map hm] at hr
    cases hr

end Output

/-- A builder whose compiler leaves scripts as they are, and makes a source map for each. -/
def mapping : Builder where
  compiler := Compiler.pure fun r => .ok { code := r.source, sourceMap := some (.object []) }
  routes := ⟨["html".toList], ["js".toList]⟩
  dialectMarker := "text/jsx"
  runtimeMarker := "text/javascript"
  featureFlag := "jsx"

/-- `a.js` was changed and `a.js.map` removed: the new source map takes the place of the
tombstone. -/
theorem removed_not_buried_of_source_map :
    ¬ ∀ name, (NameSet.ofNames ["a.js.map"]).contains name = true →
      (mapping.run ⟨NameSet.ofNames ["a.js.map"], SortedMap.ofList [("a.js", "x".toUTF8)]⟩ ∅ none
        []).output.get? name = some .tombstone := by
  intro h
  have hmap : (mapping.run ⟨NameSet.ofNames ["a.js.map"],
      SortedMap.ofList [("a.js", "x".toUTF8)]⟩ ∅ none []).output.get? "a.js.map"
        = some (.content (Json.object []).indented.toUTF8) := by decide
  rw [h "a.js.map" (by decide)] at hmap
  cases hmap

/-! ## 5. A batch without a failure -/

/-- **The output of a batch without a failure**, at every key that is not removed: a changed file's
own result; else the source map made under that name; else what there was before. -/
theorem get?_output_run_of_success (builder : Builder) (changes : Changes) (output : Artifacts)
    (args : Option OptionLayer) (past : List CompileRequest) (k : String)
    (hok : (builder.run changes output args past).failure = none)
    (hk : changes.removed.contains k = false) :
    (∀ content, changes.updated.get? k = some content →
      ∃ v ∈ builder.visits changes args past, v.name = k ∧ v.content = content ∧
        ∃ bytes, builder.Delivers args v bytes ∧
          (builder.run changes output args past).output.get? k = some (.content bytes)) ∧
    (changes.updated.get? k = none →
      (∀ v ∈ builder.visits changes args past, ∀ map, builder.MadeMap args v map →
        sourceMapName v.name = k →
        (builder.run changes output args past).output.get? k
          = some (.content map.indented.toUTF8)) ∧
      ((∀ v ∈ builder.visits changes args past, ∀ map, builder.MadeMap args v map →
          sourceMapName v.name ≠ k) →
        (builder.run changes output args past).output.get? k = output.get? k)) := by
  constructor
  · intro content hu
    obtain ⟨v, hv, rfl, hc, entries, he⟩ := exists_visit_of_success hok hu hk
    exact ⟨v, hv, rfl, hc, get?_output_run_of_mem hv he⟩
  · intro hu
    have hfree : ∀ v ∈ builder.visits changes args past, v.name ≠ k := by
      rintro v hv rfl
      rw [(mem_of_mem_visits hv).1] at hu
      cases hu
    constructor
    · rintro v hv map hm rfl
      exact get?_output_run_of_madeMap hv hm hfree
    · intro hmap
      rw [get?_output_run_of_untouched hfree hmap, hk]
      rfl

/-- A file that is called `a.js.map` is not lost to the source map of `a.js`. -/
theorem own_result_over_source_map :
    (mapping.run ⟨NameSet.ofNames ["b.js"],
        SortedMap.ofList [("a.js", "x".toUTF8), ("a.js.map", "y".toUTF8)]⟩ ∅ none []).output.get?
      "a.js.map" = some (.content "y".toUTF8) := by
  obtain ⟨hown, -⟩ := get?_output_run_of_success mapping ⟨NameSet.ofNames ["b.js"],
    SortedMap.ofList [("a.js", "x".toUTF8), ("a.js.map", "y".toUTF8)]⟩ ∅ none [] "a.js.map"
    (by decide) (by decide)
  obtain ⟨v, -, hname, hcontent, bytes, hd, hget⟩ := hown "y".toUTF8 (by decide)
  have hkind : mapping.routes.classify v.name = .passthrough := by
    rw [hname]
    decide
  rw [hget, hd.unique (Delivers.passthrough hkind), hcontent]

end Builder
end ScriptWeave
