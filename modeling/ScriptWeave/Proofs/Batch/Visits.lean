/-
# What one visit of a batch can do

A batch goes through its files in the order of their names, up to the first that fails, and the
compiler it asks may remember every request made before.  So a visit is a file together with
those requests (`Visited`), and the visits of a batch are a list of these (`Builder.visits`).

A visit that succeeds does one of two things, and `visit_cases` says which: it puts in the file's
own result (`Delivers`), or, for a script whose compiler made a source map (`MadeMap`), the source
map first and then the own result.  Nothing behind this file opens `visit` or `handle` again.

**Stated here.**  The names of the visits increase (`pairwise_visits`); the output of a batch is
that of its visits (`output_visitAll`); a batch without a failure visits every changed file that
is not removed (`exists_visit_of_success`).
-/
import ScriptWeave.Batch.Run
import ScriptWeave.Proofs.Compile.Asking
import ScriptWeave.Proofs.SortedMap

namespace ScriptWeave

/-! ## 1. Visits, and what they deliver -/

/-- A file that is visited, and the requests made before. -/
structure Visited where
  name : String
  content : ByteArray
  past : List CompileRequest

namespace Builder

/-- What the compile calls of a batch share. -/
def setup (builder : Builder) (args : Option OptionLayer) : CompileSetup :=
  ⟨builder.compiler, builder.featureFlag, args⟩

/-- What a visit that succeeds leaves under the file's own name: its bytes, the woven page, or the
compiled code.  An empty page keeps its bytes. -/
inductive Delivers (builder : Builder) (args : Option OptionLayer) (v : Visited) :
    ByteArray → Prop
  | passthrough : builder.routes.classify v.name = .passthrough → Delivers builder args v v.content
  | emptyPage :
      builder.routes.classify v.name = .markup → String.fromUTF8? v.content = some "" →
      Delivers builder args v v.content
  | markup {source page : String} :
      builder.routes.classify v.name = .markup → String.fromUTF8? v.content = some source →
      (Markup.weave (builder.setup args) builder.dialectMarker builder.runtimeMarker v.name source
        v.past).result = .ok (some page) →
      Delivers builder args v page.toUTF8
  | script {source : String} {output : Compiled} :
      builder.routes.classify v.name = .script → String.fromUTF8? v.content = some source →
      ((builder.setup args).compile v.name source none v.past).result = .ok output →
      Delivers builder args v output.code.toUTF8

/-- The file is a script, and compiling it made this source map. -/
def MadeMap (builder : Builder) (args : Option OptionLayer) (v : Visited) (map : Json) : Prop :=
  builder.routes.classify v.name = .script ∧ ∃ source output,
    String.fromUTF8? v.content = some source ∧
      ((builder.setup args).compile v.name source none v.past).result = .ok output ∧
      output.sourceMap = some map

/-- The visits to some files in turn, up to the first that fails. -/
def visitsFrom (builder : Builder) (args : Option OptionLayer) :
    List (String × ByteArray) → List CompileRequest → List Visited
  | [], _ => []
  | (name, content) :: rest, past =>
    ⟨name, content, past⟩ ::
      match builder.handle args name content past with
      | ⟨.ok _, asked⟩ => visitsFrom builder args rest (past ++ asked)
      | ⟨.error _, _⟩ => []

/-- The visits of a batch: to the files that are added or changed, and not removed. -/
def visits (builder : Builder) (changes : Changes) (args : Option OptionLayer)
    (past : List CompileRequest) : List Visited :=
  visitsFrom builder args changes.visited.entries past

/-- The entries that a visit puts in; none if it fails. -/
def entriesAt (builder : Builder) (args : Option OptionLayer) (v : Visited) :
    List (String × Artifact) :=
  match (builder.visit args v.past v.name v.content).entries with
  | .ok entries => entries
  | .error _ => []

/-! ## 2. One visit -/

section Visit

variable {builder : Builder} {args : Option OptionLayer}

/-- Weaving yields nothing for the empty page, and for no other. -/
theorem weave_eq_ok_none_iff {s : CompileSetup} {marker runtime name source : String}
    {past : List CompileRequest} :
    (Markup.weave s marker runtime name source past).result = .ok none ↔ source = "" := by
  constructor
  · intro h
    by_cases hne : source = ""
    · exact hne
    · rw [Markup.weave, if_neg hne, Work.bind_pure_apply] at h
      cases hw : (Markup.weaveSegments s runtime.toList name
          (Markup.segments marker.toList source.toList) past).result with
      | ok woven => simp [hw, Except.map] at h
      | error e => simp [hw, Except.map] at h
  · rintro rfl
    rw [Markup.weave, if_pos rfl, Work.pure_apply]

/-- A file has one result only. -/
theorem Delivers.unique {v : Visited} {bytes bytes' : ByteArray}
    (h : builder.Delivers args v bytes) (h' : builder.Delivers args v bytes') :
    bytes = bytes' := by
  cases h with
  | passthrough hk =>
    cases h' with
    | passthrough => rfl
    | emptyPage => rfl
    | markup hk' => simp [hk] at hk'
    | script hk' => simp [hk] at hk'
  | emptyPage hk hs =>
    cases h' with
    | passthrough => rfl
    | emptyPage => rfl
    | script hk' => simp [hk] at hk'
    | markup _ hs' hw =>
      obtain rfl := Option.some.inj (hs.symm.trans hs')
      rw [weave_eq_ok_none_iff.mpr rfl] at hw
      cases hw
  | markup hk hs hw =>
    cases h' with
    | passthrough hk' => simp [hk] at hk'
    | script hk' => simp [hk] at hk'
    | emptyPage _ hs' =>
      obtain rfl := Option.some.inj (hs.symm.trans hs')
      rw [weave_eq_ok_none_iff.mpr rfl] at hw
      cases hw
    | markup _ hs' hw' =>
      obtain rfl := Option.some.inj (hs.symm.trans hs')
      rw [Option.some.inj (Except.ok.inj (hw.symm.trans hw'))]
  | script hk hs ho =>
    cases h' with
    | passthrough hk' => simp [hk] at hk'
    | emptyPage hk' => simp [hk] at hk'
    | markup hk' => simp [hk] at hk'
    | script _ hs' ho' =>
      obtain rfl := Option.some.inj (hs.symm.trans hs')
      rw [Except.ok.inj (ho.symm.trans ho')]

/-- A file has one source map at most. -/
theorem MadeMap.unique {v : Visited} {map map' : Json} (h : builder.MadeMap args v map)
    (h' : builder.MadeMap args v map') : map = map' := by
  obtain ⟨-, source, output, hs, ho, hm⟩ := h
  obtain ⟨-, source', output', hs', ho', hm'⟩ := h'
  obtain rfl := Option.some.inj (hs.symm.trans hs')
  obtain rfl := Except.ok.inj (ho.symm.trans ho')
  exact Option.some.inj (hm.symm.trans hm')

theorem handle_of_passthrough {name : String} {content : ByteArray}
    (hk : builder.routes.classify name = .passthrough) :
    builder.handle args name content = pure none := by
  simp only [handle, hk]

theorem handle_of_not_utf8 {name : String} {content : ByteArray}
    (hk : builder.routes.classify name ≠ .passthrough) (hs : String.fromUTF8? content = none) :
    builder.handle args name content = .fail (.invalidEncoding name) := by
  unfold handle
  split
  · rename_i hp
    exact absurd hp hk
  · simp only [hs]

theorem handle_of_script {name source : String} {content : ByteArray}
    (hk : builder.routes.classify name = .script) (hs : String.fromUTF8? content = some source) :
    builder.handle args name content =
      (builder.setup args).compile name source none >>= fun output => pure (some output) := by
  simp only [handle, hk, hs, if_true, setup]

theorem handle_of_markup {name source : String} {content : ByteArray}
    (hk : builder.routes.classify name = .markup) (hs : String.fromUTF8? content = some source) :
    builder.handle args name content =
      Markup.weave (builder.setup args) builder.dialectMarker builder.runtimeMarker name source >>=
        fun page => pure (page.map fun code => { code }) := by
  simp only [handle, hk, hs, setup, reduceCtorEq, if_false]

/-- **What handling a file comes to**, if it does not fail. -/
theorem handle_cases {v : Visited} {output : Option Compiled}
    (h : (builder.handle args v.name v.content v.past).result = .ok output) :
    (output = none ∧ builder.Delivers args v v.content ∧ ∀ map, ¬ builder.MadeMap args v map) ∨
      ∃ compiled, output = some compiled ∧ builder.Delivers args v compiled.code.toUTF8 ∧
        ∀ map, compiled.sourceMap = some map ↔ builder.MadeMap args v map := by
  cases hk : builder.routes.classify v.name with
  | passthrough =>
    rw [handle_of_passthrough hk, Work.pure_apply] at h
    obtain rfl := Except.ok.inj h
    refine Or.inl ⟨rfl, Delivers.passthrough hk, fun map hm => ?_⟩
    rw [hm.1] at hk
    cases hk
  | markup =>
    have hnomap : ∀ map, ¬ builder.MadeMap args v map := fun map hm => by
      rw [hm.1] at hk
      cases hk
    cases hs : String.fromUTF8? v.content with
    | none =>
      rw [handle_of_not_utf8 (by simp [hk]) hs] at h
      cases h
    | some source =>
      rw [handle_of_markup hk hs, Work.bind_pure_apply] at h
      cases hw : (Markup.weave (builder.setup args) builder.dialectMarker builder.runtimeMarker
          v.name source v.past).result with
      | error e =>
        rw [hw] at h
        cases h
      | ok page =>
        rw [hw] at h
        obtain rfl := Except.ok.inj h
        cases page with
        | none =>
          obtain rfl := weave_eq_ok_none_iff.mp hw
          exact Or.inl ⟨rfl, Delivers.emptyPage hk hs, hnomap⟩
        | some page =>
          refine Or.inr ⟨_, rfl, Delivers.markup hk hs hw, fun map => ?_⟩
          simpa using hnomap map
  | script =>
    cases hs : String.fromUTF8? v.content with
    | none =>
      rw [handle_of_not_utf8 (by simp [hk]) hs] at h
      cases h
    | some source =>
      rw [handle_of_script hk hs, Work.bind_pure_apply] at h
      cases hc : ((builder.setup args).compile v.name source none v.past).result with
      | error e =>
        rw [hc] at h
        cases h
      | ok compiled =>
        rw [hc] at h
        obtain rfl := Except.ok.inj h
        refine Or.inr ⟨compiled, rfl, Delivers.script hk hs hc, fun map => ?_⟩
        constructor
        · intro hm
          exact ⟨hk, source, compiled, hs, hc, hm⟩
        · rintro ⟨-, source', compiled', hs', hc', hm⟩
          obtain rfl := Option.some.inj (hs.symm.trans hs')
          obtain rfl := Except.ok.inj (hc.symm.trans hc')
          exact hm

/-- The compile calls among the events of a visit are the requests of handling the file. -/
theorem requests_visit (past : List CompileRequest) (name : String) (content : ByteArray) :
    (builder.visit args past name content).events.filterMap Event.request?
      = (builder.handle args name content past).requests := by
  have hasked : ∀ asked : List CompileRequest,
      (asked.map (Event.invoked name)).filterMap Event.request? = asked := fun asked => by
    rw [List.filterMap_map]
    exact List.filterMap_some
  simp only [visit]
  split <;> simp [hasked, Event.request?]

/-- **What a visit that succeeds puts in.** -/
theorem visit_cases {v : Visited} {entries : List (String × Artifact)}
    (h : (builder.visit args v.past v.name v.content).entries = .ok entries) :
    ∃ bytes, builder.Delivers args v bytes ∧
      (((∀ map, ¬ builder.MadeMap args v map) ∧ entries = [(v.name, .content bytes)]) ∨
        ∃ map : Json, builder.MadeMap args v map ∧
          entries = [(sourceMapName v.name, .content map.indented.toUTF8),
            (v.name, .content bytes)]) := by
  unfold visit at h
  cases hh : (builder.handle args v.name v.content v.past).result with
  | error e =>
    simp only [hh] at h
    cases h
  | ok output =>
    simp only [hh] at h
    rcases handle_cases hh with ⟨rfl, hd, hm⟩ | ⟨compiled, rfl, hd, hm⟩
    · exact ⟨v.content, hd, Or.inl ⟨hm, (Except.ok.inj h).symm⟩⟩
    · refine ⟨_, hd, ?_⟩
      obtain rfl := Except.ok.inj h
      cases hmap : compiled.sourceMap with
      | none => exact Or.inl ⟨fun map => by simp [← hm map, hmap], by simp [entriesOf, hmap]⟩
      | some map => exact Or.inr ⟨map, (hm map).mp hmap, by simp [entriesOf, hmap]⟩

/-- A visit fails exactly when handling the file does. -/
theorem entries_visit_eq_error_iff {past : List CompileRequest} {name : String}
    {content : ByteArray} {e : BuildError} :
    (builder.visit args past name content).entries = .error e ↔
      (builder.handle args name content past).result = .error e := by
  simp only [visit]
  split <;> rename_i h <;> simp [h]

end Visit

/-! ## 3. The visits of a batch -/

section Batch

variable {builder : Builder} {args : Option OptionLayer}

theorem visitsFrom_cons_of_ok {name : String} {content : ByteArray} {output : Option Compiled}
    {rest : List (String × ByteArray)} {past : List CompileRequest}
    (h : (builder.handle args name content past).result = .ok output) :
    builder.visitsFrom args ((name, content) :: rest) past =
      ⟨name, content, past⟩ ::
        builder.visitsFrom args rest
          (past ++ (builder.handle args name content past).requests) := by
  rw [visitsFrom]
  cases hh : builder.handle args name content past with
  | mk result asked =>
    rw [hh] at h
    cases h
    rfl

theorem visitsFrom_cons_of_error {name : String} {content : ByteArray} {e : BuildError}
    {rest : List (String × ByteArray)} {past : List CompileRequest}
    (h : (builder.handle args name content past).result = .error e) :
    builder.visitsFrom args ((name, content) :: rest) past = [⟨name, content, past⟩] := by
  rw [visitsFrom]
  cases hh : builder.handle args name content past with
  | mk result asked =>
    rw [hh] at h
    cases h
    rfl

/-- The files that are visited are the first ones, in their order. -/
theorem visitsFrom_isPrefix :
    ∀ (files : List (String × ByteArray)) (past : List CompileRequest),
      (builder.visitsFrom args files past).map (fun v => (v.name, v.content)) <+: files
  | [], _ => List.prefix_rfl
  | (name, content) :: rest, past => by
    cases hh : (builder.handle args name content past).result with
    | ok output =>
      rw [visitsFrom_cons_of_ok hh, List.map_cons]
      exact List.cons_prefix_cons.mpr ⟨rfl, visitsFrom_isPrefix rest _⟩
    | error e =>
      rw [visitsFrom_cons_of_error hh, List.map_singleton]
      exact List.cons_prefix_cons.mpr ⟨rfl, List.nil_prefix⟩

/-- The names of the visits of a batch increase. -/
theorem pairwise_visits (changes : Changes) (args : Option OptionLayer)
    (past : List CompileRequest) :
    (builder.visits changes args past).Pairwise fun v w => v.name < w.name := by
  have hs : ((builder.visits changes args past).map fun v => (v.name, v.content)).Pairwise
      fun a b => a.1 < b.1 :=
    changes.visited.sorted.sublist (visitsFrom_isPrefix changes.visited.entries past).sublist
  rwa [List.pairwise_map] at hs

/-- A visited file is one of the changed files, and it is not removed. -/
theorem mem_of_mem_visits {changes : Changes} {past : List CompileRequest} {v : Visited}
    (hv : v ∈ builder.visits changes args past) :
    changes.updated.get? v.name = some v.content ∧ changes.removed.contains v.name = false := by
  have hm : (v.name, v.content) ∈ changes.visited.entries :=
    (visitsFrom_isPrefix changes.visited.entries past).subset
      (List.mem_map.mpr ⟨v, hv, rfl⟩)
  obtain ⟨hu, hr⟩ := List.mem_filter.mp hm
  exact ⟨SortedMap.get?_eq_some_iff.mpr hu, by simpa using hr⟩

/-- A removed file is skipped. -/
theorem visitAll_cons_of_removed {removed : NameSet} {name : String} {content : ByteArray}
    {rest : List (String × ByteArray)} {past : List CompileRequest} {output : Artifacts}
    (h : removed.contains name = true) :
    builder.visitAll args removed ((name, content) :: rest) past output =
      let later := builder.visitAll args removed rest past output
      ⟨later.output, .skipped name :: later.events, later.failure⟩ := by
  rw [visitAll, if_pos h]

/-- A file that cannot be handled is the last one. -/
theorem visitAll_cons_of_error {removed : NameSet} {name : String} {content : ByteArray}
    {rest : List (String × ByteArray)} {past : List CompileRequest} {output : Artifacts}
    {e : BuildError} (h : ¬ removed.contains name = true)
    (he : (builder.handle args name content past).result = .error e) :
    builder.visitAll args removed ((name, content) :: rest) past output =
      ⟨output, (builder.visit args past name content).events, some ⟨name, e⟩⟩ := by
  rw [visitAll, if_neg h]
  simp only [entries_visit_eq_error_iff.mpr he]

/-- Behind a file that is handled the batch goes on with its entries and its requests. -/
theorem visitAll_cons_of_ok {removed : NameSet} {name : String} {content : ByteArray}
    {rest : List (String × ByteArray)} {past : List CompileRequest} {output : Artifacts}
    {entries : List (String × Artifact)} (h : ¬ removed.contains name = true)
    (he : (builder.visit args past name content).entries = .ok entries) :
    builder.visitAll args removed ((name, content) :: rest) past output =
      let later := builder.visitAll args removed rest
        (past ++ (builder.handle args name content past).requests) (output.insertAll entries)
      ⟨later.output, (builder.visit args past name content).events ++ later.events,
        later.failure⟩ := by
  rw [visitAll, if_neg h]
  simp only [he, requests_visit]
  rfl

/-- Handling a file fails, or its visit puts in entries. -/
theorem handle_error_or_visit_ok (args : Option OptionLayer) (past : List CompileRequest)
    (name : String) (content : ByteArray) :
    (∃ e, (builder.handle args name content past).result = .error e) ∨
      ∃ output entries, (builder.handle args name content past).result = .ok output ∧
        (builder.visit args past name content).entries = .ok entries := by
  cases hh : (builder.handle args name content past).result with
  | error e => exact Or.inl ⟨e, rfl⟩
  | ok output =>
    cases he : (builder.visit args past name content).entries with
    | error e =>
      rw [entries_visit_eq_error_iff.mp he] at hh
      cases hh
    | ok entries => exact Or.inr ⟨output, entries, rfl, rfl⟩

/-- The files of a list that are not removed. -/
def kept (removed : NameSet) (files : List (String × ByteArray)) : List (String × ByteArray) :=
  files.filter fun e => !removed.contains e.1

theorem kept_cons_of_removed {removed : NameSet} {name : String} {content : ByteArray}
    {rest : List (String × ByteArray)} (h : removed.contains name = true) :
    kept removed ((name, content) :: rest) = kept removed rest := by
  simp [kept, h]

theorem kept_cons {removed : NameSet} {name : String} {content : ByteArray}
    {rest : List (String × ByteArray)} (h : ¬ removed.contains name = true) :
    kept removed ((name, content) :: rest) = (name, content) :: kept removed rest := by
  simp [kept, h]

/-- The output is what there was, with the entries of all visits put in. -/
theorem output_visitAll (removed : NameSet) :
    ∀ (files : List (String × ByteArray)) (past : List CompileRequest) (output : Artifacts),
      (builder.visitAll args removed files past output).output
        = output.insertAll
            ((builder.visitsFrom args (kept removed files) past).flatMap (builder.entriesAt args))
  | [], _, _ => rfl
  | (name, content) :: rest, past, output => by
    by_cases hr : removed.contains name = true
    · rw [visitAll_cons_of_removed hr, kept_cons_of_removed hr]
      exact output_visitAll removed rest past output
    · rw [kept_cons hr]
      rcases builder.handle_error_or_visit_ok args past name content with
        ⟨e, hh⟩ | ⟨result, entries, hh, he⟩
      · rw [visitAll_cons_of_error hr hh, visitsFrom_cons_of_error hh]
        simp [entriesAt, entries_visit_eq_error_iff.mpr hh]
      · rw [visitAll_cons_of_ok hr he, visitsFrom_cons_of_ok hh, List.flatMap_cons,
          SortedMap.insertAll_append, ← output_visitAll removed rest]
        simp only [entriesAt, he]

/-- Without a failure, the visits are to all files that are kept, and each puts in its entries. -/
theorem visits_of_failure_eq_none {removed : NameSet} :
    ∀ {files : List (String × ByteArray)} {past : List CompileRequest} {output : Artifacts},
      (builder.visitAll args removed files past output).failure = none →
      (builder.visitsFrom args (kept removed files) past).map (fun v => (v.name, v.content))
          = kept removed files ∧
        ∀ v ∈ builder.visitsFrom args (kept removed files) past,
          ∃ entries, (builder.visit args v.past v.name v.content).entries = .ok entries
  | [], _, _, _ => ⟨rfl, by simp [kept, visitsFrom]⟩
  | (name, content) :: rest, past, output, h => by
    by_cases hr : removed.contains name = true
    · rw [visitAll_cons_of_removed hr] at h
      rw [kept_cons_of_removed hr]
      exact visits_of_failure_eq_none h
    · rw [kept_cons hr]
      rcases builder.handle_error_or_visit_ok args past name content with
        ⟨e, hh⟩ | ⟨result, entries, hh, he⟩
      · rw [visitAll_cons_of_error hr hh] at h
        cases h
      · rw [visitAll_cons_of_ok hr he] at h
        obtain ⟨hmap, hok⟩ := visits_of_failure_eq_none h
        rw [visitsFrom_cons_of_ok hh]
        refine ⟨by rw [List.map_cons, hmap], fun v hv => ?_⟩
        rcases List.mem_cons.mp hv with rfl | hv
        · exact ⟨entries, he⟩
        · exact hok v hv

/-- A batch without a failure has visited every changed file that is not removed. -/
theorem exists_visit_of_success {changes : Changes} {output : Artifacts}
    {past : List CompileRequest} {k : String} {content : ByteArray}
    (hok : (builder.run changes output args past).failure = none)
    (hu : changes.updated.get? k = some content) (hk : changes.removed.contains k = false) :
    ∃ v ∈ builder.visits changes args past, v.name = k ∧ v.content = content ∧
      ∃ entries, (builder.visit args v.past v.name v.content).entries = .ok entries := by
  obtain ⟨hmap, hall⟩ := visits_of_failure_eq_none hok
  have hm : (k, content) ∈ kept changes.removed changes.updated.entries :=
    List.mem_filter.mpr ⟨SortedMap.get?_eq_some_iff.mp hu, by simpa using hk⟩
  rw [← hmap] at hm
  obtain ⟨v, hv, heq⟩ := List.mem_map.mp hm
  cases heq
  exact ⟨v, hv, rfl, rfl, hall v hv⟩

end Batch
end Builder
end ScriptWeave
