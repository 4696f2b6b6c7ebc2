/-
# A project and its batches

A *project* is all its files by name.  A change set makes a new project of it: the removed files go,
the visited ones are put in (`Changes.applyTo`).

With a compiler without a memory a file has the same result and the same source map in every batch,
so both belong to the file, and what a whole project comes to is a matter of its files alone
(`Shows`).  The output of one batch is read in the same terms (`output_cases`): results of files,
source maps under free names, tombstones.
-/
import ScriptWeave.Proofs.Batch.Failure
import ScriptWeave.Proofs.Batch.Output

namespace ScriptWeave

/-- The files of a project. -/
abbrev Project := SortedMap String ByteArray

/-! ## 1. Change sets -/

namespace Changes

/-- The project after a change set. -/
def applyTo (changes : Changes) (project : Project) : Project :=
  (project.filter fun name _ => !changes.removed.contains name).overlay changes.visited

/-- The project after some change sets, begun with nothing. -/
def projectAfter (history : List Changes) : Project :=
  history.foldl (fun project changes => changes.applyTo project) ∅

/-- The change set says nothing about the file. -/
def Spares (changes : Changes) (k : String) : Prop :=
  changes.removed.contains k = false ∧ changes.visited.get? k = none

/-- The whole project as a change set. -/
def ofProject (project : Project) : Changes := { updated := project }

variable {changes : Changes} {project : Project} {k : String} {content : ByteArray}

theorem get?_visited_eq_some_iff : changes.visited.get? k = some content ↔
    changes.updated.get? k = some content ∧ changes.removed.contains k = false := by
  rw [visited, SortedMap.get?_filter_eq_some_iff]
  simp

/-- A removed file is not visited. -/
theorem get?_visited_of_removed (h : changes.removed.contains k = true) :
    changes.visited.get? k = none := by
  cases hv : changes.visited.get? k with
  | none => rfl
  | some content =>
    rw [(get?_visited_eq_some_iff.mp hv).2] at h
    cases h

/-- **The files of the project after a change set.** -/
theorem get?_applyTo_eq_some_iff : (changes.applyTo project).get? k = some content ↔
    changes.visited.get? k = some content ∨ changes.Spares k ∧ project.get? k = some content := by
  rw [applyTo, SortedMap.get?_overlay, Spares]
  cases hv : changes.visited.get? k with
  | some visited => simp
  | none =>
    rw [Option.none_or, SortedMap.get?_filter_eq_some_iff]
    simp [and_comm]

/-- A file that is spared stays as it is. -/
theorem get?_applyTo_of_spares (project : Project) (h : changes.Spares k) :
    (changes.applyTo project).get? k = project.get? k := by
  refine Option.ext fun content => ?_
  rw [get?_applyTo_eq_some_iff, h.2]
  simp [h]

/-- A removed file is gone. -/
theorem get?_applyTo_of_removed (project : Project) (h : changes.removed.contains k = true) :
    (changes.applyTo project).get? k = none := by
  refine Option.eq_none_iff_forall_ne_some.mpr fun content hget => ?_
  rcases get?_applyTo_eq_some_iff.mp hget with hv | ⟨hs, -⟩
  · rw [get?_visited_of_removed h] at hv
    cases hv
  · rw [hs.1] at h
    cases h

theorem projectAfter_concat (history : List Changes) (changes : Changes) :
    projectAfter (history ++ [changes]) = changes.applyTo (projectAfter history) :=
  List.foldl_append

theorem get?_visited_ofProject : (ofProject project).visited.get? k = project.get? k := by
  refine Option.ext fun content => ?_
  rw [get?_visited_eq_some_iff]
  exact and_iff_left rfl

theorem applyTo_ofProject : (ofProject project).applyTo ∅ = project := by
  refine SortedMap.ext_get? fun k => Option.ext fun content => ?_
  rw [get?_applyTo_eq_some_iff, get?_visited_ofProject]
  simp

end Changes

namespace Builder

section Project

variable {builder : Builder} {args : Option OptionLayer}

/-! ## 2. Files by themselves -/

/-- The result of a file does not depend on the requests made before it. -/
theorem Delivers.of_memoryless (hpure : builder.compiler.Memoryless) {name : String}
    {content bytes : ByteArray} {past : List CompileRequest}
    (h : builder.Delivers args ⟨name, content, past⟩ bytes) (past' : List CompileRequest) :
    builder.Delivers args ⟨name, content, past'⟩ bytes := by
  have hsetup : (builder.setup args).compiler.Memoryless := hpure
  generalize hv : (⟨name, content, past⟩ : Visited) = v at h
  cases h with
  | passthrough hk =>
    subst hv
    exact .passthrough hk
  | emptyPage hk hs =>
    subst hv
    exact .emptyPage hk hs
  | markup hk hs hw =>
    subst hv
    refine .markup hk hs ?_
    rw [← hw]
    exact congrArg Outcome.result
      (Markup.steady_weave hsetup _ _ _ _ past' past)
  | script hk hs ho =>
    subst hv
    refine .script hk hs ?_
    rw [← ho]
    exact congrArg Outcome.result
      (CompileSetup.steady_compile hsetup _ _ _ past' past)

/-- Neither does its source map. -/
theorem MadeMap.of_memoryless (hpure : builder.compiler.Memoryless) {name : String}
    {content : ByteArray} {past : List CompileRequest} {map : Json}
    (h : builder.MadeMap args ⟨name, content, past⟩ map) (past' : List CompileRequest) :
    builder.MadeMap args ⟨name, content, past'⟩ map := by
  have hsetup : (builder.setup args).compiler.Memoryless := hpure
  obtain ⟨hk, source, output, hs, ho, hm⟩ := h
  refine ⟨hk, source, output, hs, ?_, hm⟩
  rw [← ho]
  exact congrArg Outcome.result
    (CompileSetup.steady_compile hsetup _ _ _ past' past)

/-- These bytes are the result of the file, and no other bytes are. -/
theorem Delivers.eq_iff {v : Visited} {own bytes : ByteArray} (h : builder.Delivers args v own) :
    own = bytes ↔ builder.Delivers args v bytes := by
  constructor
  · rintro rfl
    exact h
  · exact h.unique

/-- A file that has a result does not fail. -/
theorem Delivers.not_fails {v : Visited} {bytes : ByteArray}
    (h : builder.Delivers args v bytes) (e : BuildError) : ¬ builder.Fails args v e := by
  intro hf
  rw [Fails] at hf
  cases h with
  | passthrough hk =>
    rw [handle_of_passthrough hk] at hf
    cases hf
  | emptyPage hk hs =>
    rw [handle_of_markup hk hs, Work.bind_pure_apply, weave_eq_ok_none_iff.mpr rfl] at hf
    cases hf
  | markup hk hs hw =>
    rw [handle_of_markup hk hs, Work.bind_pure_apply, hw] at hf
    cases hf
  | script hk hs ho =>
    rw [handle_of_script hk hs, Work.bind_pure_apply, ho] at hf
    cases hf

/-- One of the files, a script, has this source map. -/
def MapIn (builder : Builder) (args : Option OptionLayer) (files : Project) (f : String)
    (map : Json) : Prop :=
  ∃ content, files.get? f = some content ∧ builder.MadeMap args ⟨f, content, []⟩ map

/-- **What a whole project comes to** under a name: the result of the file, or, where there is no
file, the source map that has this name. -/
inductive Shows (builder : Builder) (args : Option OptionLayer) (project : Project) (k : String) :
    ByteArray → Prop
  | own {content bytes : ByteArray} :
      project.get? k = some content → builder.Delivers args ⟨k, content, []⟩ bytes →
      Shows builder args project k bytes
  | sourceMap {f : String} {map : Json} :
      project.get? k = none → builder.MapIn args project f map → sourceMapName f = k →
      Shows builder args project k map.indented.toUTF8

theorem shows_iff_of_file {project : Project} {k : String} {content bytes : ByteArray}
    (h : project.get? k = some content) : builder.Shows args project k bytes ↔
      builder.Delivers args ⟨k, content, []⟩ bytes := by
  constructor
  · intro hs
    cases hs with
    | own hget hd =>
      rw [h] at hget
      rwa [Option.some.inj hget]
    | sourceMap hnone =>
      rw [h] at hnone
      cases hnone
  · exact fun hd => .own h hd

theorem shows_iff_of_no_file {project : Project} {k : String} {bytes : ByteArray}
    (h : project.get? k = none) : builder.Shows args project k bytes ↔
      ∃ f map, builder.MapIn args project f map ∧ sourceMapName f = k ∧
        map.indented.toUTF8 = bytes := by
  constructor
  · intro hs
    cases hs with
    | own hget =>
      rw [h] at hget
      cases hget
    | sourceMap _ hm heq => exact ⟨_, _, hm, heq, rfl⟩
  · rintro ⟨f, map, hm, heq, rfl⟩
    exact .sourceMap h hm heq

/-- Every file of the project has a result. -/
def Sound (builder : Builder) (args : Option OptionLayer) (project : Project) : Prop :=
  ∀ k content, project.get? k = some content →
    ∃ bytes, builder.Delivers args ⟨k, content, []⟩ bytes

theorem MapIn.unique {files : Project} {f : String} {map map' : Json}
    (h : builder.MapIn args files f map) (h' : builder.MapIn args files f map') : map = map' := by
  obtain ⟨content, hget, hm⟩ := h
  obtain ⟨content', hget', hm'⟩ := h'
  obtain rfl := Option.some.inj (hget.symm.trans hget')
  exact hm.unique hm'

/-! ## 3. One batch -/

variable {changes : Changes}

/-- A batch of files that all have results does not fail. -/
theorem failure_eq_none_of_sound (hpure : builder.compiler.Memoryless)
    (hsound : builder.Sound args changes.visited) (output : Artifacts) :
    (builder.run changes output args []).failure = none := by
  cases hf : (builder.run changes output args []).failure with
  | none => rfl
  | some f =>
    obtain ⟨front, content, later, hfiles, hkept, -, -, -, hfail⟩ := visitAll_of_failure hf
    have hmem : changes.updated.get? f.file = some content :=
      SortedMap.get?_eq_some_iff.mpr (by rw [hfiles]; simp)
    obtain ⟨bytes, hd⟩ := hsound f.file content
      (Changes.get?_visited_eq_some_iff.mpr ⟨hmem, by simpa using hkept⟩)
    exact absurd hfail ((hd.of_memoryless hpure _).not_fails f.error)

/-- A batch that does not fail has found a result for each of its files. -/
theorem sound_of_success (hpure : builder.compiler.Memoryless) {output : Artifacts}
    (hok : (builder.run changes output args []).failure = none) :
    builder.Sound args changes.visited := by
  intro k content hk
  obtain ⟨hu, hr⟩ := Changes.get?_visited_eq_some_iff.mp hk
  obtain ⟨⟨name, _, past⟩, -, rfl, rfl, entries, he⟩ := exists_visit_of_success hok hu hr
  obtain ⟨bytes, hd, -⟩ := visit_cases (v := ⟨name, _, past⟩) he
  exact ⟨bytes, hd.of_memoryless hpure []⟩

/-- **What the output of a batch has under a name.** -/
theorem output_cases (hpure : builder.compiler.Memoryless)
    (hok : (builder.run changes ∅ args []).failure = none) (k : String) :
    (∃ content bytes, changes.visited.get? k = some content ∧
      builder.Delivers args ⟨k, content, []⟩ bytes ∧
      (builder.run changes ∅ args []).output.get? k = some (.content bytes)) ∨
    (changes.visited.get? k = none ∧
      ∃ f map, builder.MapIn args changes.visited f map ∧ sourceMapName f = k ∧
        (builder.run changes ∅ args []).output.get? k = some (.content map.indented.toUTF8)) ∨
    (changes.visited.get? k = none ∧
      (∀ f map, builder.MapIn args changes.visited f map → sourceMapName f ≠ k) ∧
      (builder.run changes ∅ args []).output.get? k
        = if changes.removed.contains k = true then some .tombstone else none) := by
  have hvisited : ∀ v ∈ builder.visits changes args [],
      changes.visited.get? v.name = some v.content := fun v hv =>
    Changes.get?_visited_eq_some_iff.mpr (mem_of_mem_visits hv)
  cases hk : changes.visited.get? k with
  | some content =>
    obtain ⟨hu, hr⟩ := Changes.get?_visited_eq_some_iff.mp hk
    obtain ⟨⟨name, _, past⟩, hv, rfl, rfl, entries, he⟩ := exists_visit_of_success hok hu hr
    obtain ⟨bytes, hd, hget⟩ := get?_output_run_of_mem hv he
    exact Or.inl ⟨_, bytes, rfl, hd.of_memoryless hpure [], hget⟩
  | none =>
    have hfree : ∀ v ∈ builder.visits changes args [], v.name ≠ k := by
      rintro v hv rfl
      rw [hvisited v hv] at hk
      cases hk
    by_cases hmap : ∃ f map, builder.MapIn args changes.visited f map ∧ sourceMapName f = k
    · obtain ⟨f, map, hm, rfl⟩ := hmap
      obtain ⟨content, hf, hmade⟩ := id hm
      obtain ⟨hu, hr⟩ := Changes.get?_visited_eq_some_iff.mp hf
      obtain ⟨⟨name, _, past⟩, hv, rfl, rfl, -⟩ := exists_visit_of_success hok hu hr
      exact Or.inr (Or.inl ⟨rfl, name, map, hm, rfl,
        get?_output_run_of_madeMap hv (hmade.of_memoryless hpure past) hfree⟩)
    · have hno : ∀ f map, builder.MapIn args changes.visited f map → sourceMapName f ≠ k :=
        fun f map hm heq => hmap ⟨f, map, hm, heq⟩
      refine Or.inr (Or.inr ⟨rfl, hno, get?_output_run_of_untouched hfree ?_⟩)
      rintro ⟨name, content, past⟩ hv map hm
      exact hno name map ⟨content, hvisited _ hv, hm.of_memoryless hpure []⟩

/-- The tombstones of a batch: for the removed files under whose name no source map is made. -/
theorem output_eq_tombstone_iff (hpure : builder.compiler.Memoryless)
    (hok : (builder.run changes ∅ args []).failure = none) (k : String) :
    (builder.run changes ∅ args []).output.get? k = some .tombstone ↔
      changes.removed.contains k = true ∧
        ∀ f map, builder.MapIn args changes.visited f map → sourceMapName f ≠ k := by
  rcases output_cases hpure hok k with ⟨content, bytes, hv, -, hget⟩ | ⟨-, f, map, hm, heq, hget⟩ |
    ⟨-, hno, hget⟩
  · rw [hget, (Changes.get?_visited_eq_some_iff.mp hv).2]
    simp
  · rw [hget]
    constructor
    · nofun
    · rintro ⟨-, hno⟩
      exact absurd heq (hno f map hm)
  · rw [hget]
    constructor
    · intro ht
      split at ht
      · exact ⟨‹_›, hno⟩
      · cases ht
    · rintro ⟨hr, -⟩
      rw [if_pos hr]

end Project
end Builder
end ScriptWeave
