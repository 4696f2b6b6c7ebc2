/-
# A batch stops at the first file that fails

What a file comes to may depend on the requests made before it, so "this file fails" is said of a
file at its *turn*: with the requests that were made if every file before it was handled.  The
turns of a batch go through to its last file (`Builder.turns`), also where the batch itself has
stopped, so they can be compared with what the batch did.  For a compiler without a memory the
turn makes no difference (`steady_handle`).

A batch that fails is laid beside the batch of the same changes cut off before the failing file
(`Changes.before`): this one does not fail, and its output and its events are what the failed batch
has, up to the events of the failing file itself (`visitAll_of_failure`).

**Stated here.**  When a batch fails, at which file, with which output and which calls, and what is
handed on then and otherwise (`run_fails_fast`).
-/
import ScriptWeave.Proofs.Batch.Visits
import ScriptWeave.Proofs.Compile.Memoryless

namespace ScriptWeave

/-- The changes with only those changed files whose names come before a given one. -/
def Changes.before (changes : Changes) (name : String) : Changes :=
  { changes with updated := changes.updated.filter fun other _ => decide (other < name) }

namespace Builder

/-! ## 1. Turns -/

/-- Some files at their turns: each with the requests made before, when all of them are handled in
this order, whatever comes of it. -/
def turnsFrom (builder : Builder) (args : Option OptionLayer) :
    List (String × ByteArray) → List CompileRequest → List Visited
  | [], _ => []
  | (name, content) :: rest, past =>
    ⟨name, content, past⟩ ::
      turnsFrom builder args rest (past ++ (builder.handle args name content past).requests)

/-- The turns of a batch: of the files that are added or changed, and not removed. -/
def turns (builder : Builder) (changes : Changes) (args : Option OptionLayer)
    (past : List CompileRequest) : List Visited :=
  turnsFrom builder args changes.visited.entries past

/-- The file fails at its turn. -/
def Fails (builder : Builder) (args : Option OptionLayer) (v : Visited) (e : BuildError) : Prop :=
  (builder.handle args v.name v.content v.past).result = .error e

section Turns

variable {builder : Builder} {args : Option OptionLayer}

/-- Every file has its turn. -/
theorem map_turnsFrom :
    ∀ (files : List (String × ByteArray)) (past : List CompileRequest),
      (builder.turnsFrom args files past).map (fun v => (v.name, v.content)) = files
  | [], _ => rfl
  | (name, content) :: rest, past => by
    rw [turnsFrom, List.map_cons, map_turnsFrom rest]

/-- A file that passes through does not fail. -/
theorem Fails.classify_ne {v : Visited} {e : BuildError} (h : builder.Fails args v e) :
    builder.routes.classify v.name ≠ .passthrough := by
  intro hk
  rw [Fails, handle_of_passthrough hk, Work.pure_apply] at h
  cases h

/-! ## 2. The batch up to its failure -/

/-- Files that are all handled take their turns before the files that follow, and none of them
fails. -/
theorem turnsFrom_append {removed : NameSet} {files : List (String × ByteArray)}
    {past : List CompileRequest} {output : Artifacts}
    (h : (builder.visitAll args removed files past output).failure = none)
    (later : List (String × ByteArray)) :
    builder.turnsFrom args (kept removed (files ++ later)) past =
        builder.turnsFrom args (kept removed files) past ++
          builder.turnsFrom args (kept removed later)
            (past ++ (builder.visitAll args removed files past output).requests) ∧
      ∀ v ∈ builder.turnsFrom args (kept removed files) past, ∀ e, ¬ builder.Fails args v e := by
  induction files generalizing past output with
  | nil => simp [kept, turnsFrom, visitAll, BatchResult.requests]
  | cons file rest ih =>
    obtain ⟨name, content⟩ := file
    by_cases hr : removed.contains name = true
    · rw [visitAll_cons_of_removed hr] at h ⊢
      rw [List.cons_append, kept_cons_of_removed hr, kept_cons_of_removed hr]
      exact ih h
    · rw [List.cons_append, kept_cons hr, kept_cons hr, turnsFrom, turnsFrom]
      rcases builder.handle_error_or_visit_ok args past name content with
        ⟨e, hh⟩ | ⟨result, entries, hh, he⟩
      · rw [visitAll_cons_of_error hr hh] at h
        cases h
      · rw [visitAll_cons_of_ok hr he] at h ⊢
        obtain ⟨happ, hall⟩ := ih h
        constructor
        · simp only [happ, BatchResult.requests, List.filterMap_append, requests_visit,
            List.append_assoc, List.cons_append]
        · intro v hv e hf
          rcases List.mem_cons.mp hv with rfl | hv
          · rw [Fails, hh] at hf
            cases hf
          · exact hall v hv e hf

/-- **A failed batch and the batch cut off before the failing file.** -/
theorem visitAll_of_failure {removed : NameSet} {files : List (String × ByteArray)}
    {past : List CompileRequest} {output : Artifacts} {f : FailedFile}
    (h : (builder.visitAll args removed files past output).failure = some f) :
    ∃ front content later, files = front ++ (f.file, content) :: later ∧
      ¬ removed.contains f.file = true ∧
      let before := builder.visitAll args removed front past output
      before.failure = none ∧
        (builder.visitAll args removed files past output).output = before.output ∧
        (builder.visitAll args removed files past output).events
          = before.events ++ (builder.visit args (past ++ before.requests) f.file content).events ∧
        builder.Fails args ⟨f.file, content, past ++ before.requests⟩ f.error := by
  induction files generalizing past output with
  | nil => cases h
  | cons file rest ih =>
    obtain ⟨name, content⟩ := file
    by_cases hr : removed.contains name = true
    · rw [visitAll_cons_of_removed hr] at h
      obtain ⟨front, c, later, rfl, hkept, hok, hout, hev, hfail⟩ := ih h
      refine ⟨(name, content) :: front, c, later, rfl, hkept, ?_⟩
      rw [visitAll_cons_of_removed hr, visitAll_cons_of_removed hr]
      exact ⟨hok, hout, congrArg (Event.skipped name :: ·) hev, hfail⟩
    · rcases builder.handle_error_or_visit_ok args past name content with
        ⟨e, hh⟩ | ⟨result, entries, hh, he⟩
      · rw [visitAll_cons_of_error hr hh] at h
        obtain rfl := Option.some.inj h
        refine ⟨[], content, rest, rfl, hr, ?_⟩
        rw [visitAll_cons_of_error hr hh]
        simp [visitAll, BatchResult.requests, Fails, hh]
      · rw [visitAll_cons_of_ok hr he] at h
        obtain ⟨front, c, later, rfl, hkept, hok, hout, hev, hfail⟩ := ih h
        refine ⟨(name, content) :: front, c, later, rfl, hkept, ?_⟩
        -- the requests before the failing file are those of this file and of those after it
        have hpast : past ++ (builder.visitAll args removed ((name, content) :: front) past
            output).requests = past ++ (builder.handle args name content past).requests ++
              (builder.visitAll args removed front
                (past ++ (builder.handle args name content past).requests)
                (output.insertAll entries)).requests := by
          rw [visitAll_cons_of_ok hr he]
          simp [BatchResult.requests, requests_visit]
        simp only [hpast]
        rw [visitAll_cons_of_ok hr he, visitAll_cons_of_ok hr he]
        exact ⟨hok, hout, by simp only [hev, List.append_assoc], hfail⟩

/-- The entries of a list before one of them, if their names increase. -/
theorem filter_lt_of_pairwise {front later : List (String × ByteArray)}
    {file : String × ByteArray}
    (h : (front ++ file :: later).Pairwise fun a b => a.1 < b.1) :
    (front ++ file :: later).filter (fun e => decide (e.1 < file.1)) = front := by
  obtain ⟨-, hlater, hfront⟩ := List.pairwise_append.mp h
  have hbefore : front.filter (fun e => decide (e.1 < file.1)) = front :=
    List.filter_eq_self.mpr fun e he => by simpa using hfront e he file List.mem_cons_self
  have hbehind : (file :: later).filter (fun e => decide (e.1 < file.1)) = [] := by
    refine List.filter_eq_nil_iff.mpr fun e he => ?_
    rcases List.mem_cons.mp he with rfl | he
    · simp
    · simp only [decide_eq_true_eq]
      exact Std.not_lt.mpr (Std.le_of_lt ((List.pairwise_cons.mp hlater).1 e he))
  rw [List.filter_append, hbefore, hbehind, List.append_nil]

/-! ## 3. Calls -/

/-- The calls of a visit are made for the file that is visited. -/
theorem name_of_invoked_mem_visit {past : List CompileRequest} {name other : String}
    {content : ByteArray} {request : CompileRequest}
    (h : Event.invoked other request ∈ (builder.visit args past name content).events) :
    other = name := by
  simp only [visit] at h
  split at h <;> simp at h <;> exact h.2.symm

/-- The calls of a batch are made for its files. -/
theorem mem_of_invoked_mem_visitAll {removed : NameSet} {name : String}
    {request : CompileRequest} {files : List (String × ByteArray)} {past : List CompileRequest}
    {output : Artifacts}
    (h : Event.invoked name request ∈ (builder.visitAll args removed files past output).events) :
    ∃ content, (name, content) ∈ files := by
  induction files generalizing past output with
  | nil => cases h
  | cons file rest ih =>
    obtain ⟨other, content⟩ := file
    by_cases hr : removed.contains other = true
    · rw [visitAll_cons_of_removed hr] at h
      obtain ⟨c, hc⟩ := ih ((List.mem_cons.mp h).resolve_left (by simp))
      exact ⟨c, List.mem_cons_of_mem _ hc⟩
    · rcases builder.handle_error_or_visit_ok args past other content with
        ⟨e, hh⟩ | ⟨result, entries, hh, he⟩
      · rw [visitAll_cons_of_error hr hh] at h
        obtain rfl := name_of_invoked_mem_visit h
        exact ⟨content, List.mem_cons_self⟩
      · rw [visitAll_cons_of_ok hr he] at h
        rcases List.mem_append.mp h with h | h
        · obtain rfl := name_of_invoked_mem_visit h
          exact ⟨content, List.mem_cons_self⟩
        · obtain ⟨c, hc⟩ := ih h
          exact ⟨c, List.mem_cons_of_mem _ hc⟩

end Turns

/-! ## 4. The failure of a batch -/

section Failure

variable {builder : Builder} {changes : Changes} {output : Artifacts} {args : Option OptionLayer}
  {past : List CompileRequest}

/-- No file of a batch without a failure fails at its turn. -/
theorem not_fails_of_failure_eq_none
    (h : (builder.run changes output args past).failure = none) {v : Visited}
    (hv : v ∈ builder.turns changes args past) (e : BuildError) : ¬ builder.Fails args v e :=
  (turnsFrom_append h []).2 v hv e

/-- **A failed batch has come to the turn of a file that fails**, the first one; it has done what
the batch cut off before this file does, and the visit to the file. -/
theorem exists_turn_of_failure {f : FailedFile}
    (h : (builder.run changes output args past).failure = some f) :
    let before := builder.run (changes.before f.file) output args past
    ∃ v earlier later, builder.turns changes args past = earlier ++ v :: later ∧
      v.name = f.file ∧ changes.removed.contains f.file = false ∧
      builder.Fails args v f.error ∧ (∀ w ∈ earlier, ∀ e, ¬ builder.Fails args w e) ∧
      (∀ w ∈ later, f.file < w.name) ∧ before.failure = none ∧
      (builder.run changes output args past).output = before.output ∧
      (builder.run changes output args past).events
        = before.events ++ (builder.visit args v.past v.name v.content).events := by
  obtain ⟨front, content, later, heq, hkept, hok, hout, hev, hfail⟩ := visitAll_of_failure h
  have hsorted := changes.updated.sorted
  rw [heq] at hsorted
  have hlater := (List.pairwise_cons.mp (List.pairwise_append.mp hsorted).2.1).1
  -- the batch cut off visits the files in front
  have hbefore : (changes.before f.file).updated.entries = front := by
    show changes.updated.entries.filter (fun e => decide (e.1 < f.file)) = front
    rw [heq]
    have hfilter := filter_lt_of_pairwise hsorted
    exact hfilter
  have hrun : builder.run (changes.before f.file) output args past = builder.visitAll args
      changes.removed front past (output.bury changes.removed) := by
    rw [run, hbefore]
    rfl
  rw [hrun]
  obtain ⟨hturns, hall⟩ := turnsFrom_append hok ((f.file, content) :: later)
  rw [kept_cons hkept, turnsFrom, ← heq] at hturns
  refine ⟨_, _, _, hturns, rfl, by simpa using hkept, hfail, hall, fun w hw => ?_, hok, hout, hev⟩
  have hm := List.mem_map_of_mem (f := fun v : Visited => (v.name, v.content)) hw
  rw [map_turnsFrom] at hm
  exact hlater _ (List.mem_filter.mp hm).1

end Failure

/-- **A batch stops at the first file that fails**, and keeps what was done before it. -/
theorem run_fails_fast (builder : Builder) (changes : Changes) (output : Artifacts)
    (args : Option OptionLayer) (past : List CompileRequest) :
    let result := builder.run changes output args past
    -- the turns are those of the files that are added or changed and not removed
    ((builder.turns changes args past).map (fun v => (v.name, v.content))
      = changes.visited.entries) ∧
    -- for a compiler without a memory the turn of a file makes no difference
    (builder.compiler.Memoryless → ∀ v e, builder.Fails args v e ↔
      (builder.handle args v.name v.content []).result = .error e) ∧
    -- the batch fails exactly when a file does
    (result.failure.isSome = true ↔
      ∃ v ∈ builder.turns changes args past, ∃ e, builder.Fails args v e) ∧
    (∀ f, result.failure = some f →
      let before := builder.run (changes.before f.file) output args past
      -- it is the first file that fails, with its own error, and the last one that makes calls
      (∃ v ∈ builder.turns changes args past, v.name = f.file ∧ builder.Fails args v f.error ∧
        result.requests
          = before.requests ++ (builder.handle args v.name v.content v.past).requests) ∧
      (∀ v ∈ builder.turns changes args past, ∀ e, builder.Fails args v e → f.file ≤ v.name) ∧
      (∀ name request, Event.invoked name request ∈ result.events → name ≤ f.file) ∧
      -- it is not removed, and it does not pass through
      changes.removed.contains f.file = false ∧
      builder.routes.classify f.file ≠ .passthrough ∧
      -- the output is that of the batch cut off before it, which does not fail
      before.failure = none ∧ result.output = before.output ∧
      -- nothing is handed on
      result.delivered = []) ∧
    -- a batch that does not fail hands on its output, once
    (result.failure = none → result.delivered = [result.output]) := by
  refine ⟨map_turnsFrom _ _, fun hc v e => ?_, ⟨fun h => ?_, ?_⟩, fun f h => ?_, fun h => ?_⟩
  · rw [Fails, steady_handle hc args v.name v.content v.past []]
  · obtain ⟨f, hf⟩ := Option.isSome_iff_exists.mp h
    obtain ⟨v, earlier, later, hturns, -, -, hfail, -⟩ := exists_turn_of_failure hf
    exact ⟨v, by rw [hturns]; exact List.mem_append_right _ List.mem_cons_self, f.error, hfail⟩
  · rintro ⟨v, hv, e, hfail⟩
    cases hok : (builder.run changes output args past).failure with
    | none => exact absurd hfail (not_fails_of_failure_eq_none hok hv e)
    | some f => rfl
  · obtain ⟨v, earlier, later, hturns, hname, hkept, hfail, hall, hlater, hok, hout, hev⟩ :=
      exists_turn_of_failure h
    refine ⟨⟨v, ?_, hname, hfail, ?_⟩, fun w hw e hw' => ?_, fun name request hm => ?_, hkept,
      hname ▸ hfail.classify_ne, hok, hout, ?_⟩
    · rw [hturns]
      exact List.mem_append_right _ List.mem_cons_self
    · rw [BatchResult.requests, hev, List.filterMap_append, requests_visit]
      rfl
    · rw [hturns] at hw
      rcases List.mem_append.mp hw with hw | hw
      · exact absurd hw' (hall w hw e)
      · rcases List.mem_cons.mp hw with rfl | hw
        · exact Std.le_of_eq hname.symm
        · exact Std.le_of_lt (hlater w hw)
    · rw [hev] at hm
      rcases List.mem_append.mp hm with hm | hm
      · obtain ⟨c, hc⟩ := mem_of_invoked_mem_visitAll hm
        have hlt := (List.mem_filter.mp hc).2
        exact Std.le_of_lt (by simpa using hlt)
      · exact Std.le_of_eq ((name_of_invoked_mem_visit hm).trans hname)
    · rw [BatchResult.delivered, h]
      rfl
  · rw [BatchResult.delivered, h]
    rfl

/-- A builder whose compiler refuses the text `no` and answers everything else with itself. -/
def picky : Builder where
  compiler := Compiler.pure fun r =>
    if r.source = "no" then .error ⟨"refused", none⟩ else .ok { code := r.source }
  routes := ⟨["html".toList], ["js".toList]⟩
  dialectMarker := "text/jsx"
  runtimeMarker := "text/javascript"
  featureFlag := "jsx"

/-- Of three scripts the second is refused: the first one's code stays, and the third one is not
visited. -/
theorem failure_at_second_script :
    ∃ f, (picky.run ⟨∅, SortedMap.ofList [("a.js", "x".toUTF8), ("b.js", "no".toUTF8),
        ("c.js", "y".toUTF8)]⟩ ∅ none []).failure = some f ∧ f.file = "b.js" ∧
      (picky.run ⟨∅, SortedMap.ofList [("a.js", "x".toUTF8), ("b.js", "no".toUTF8),
        ("c.js", "y".toUTF8)]⟩ ∅ none []).output
        = SortedMap.ofList [("a.js", .content "x".toUTF8)] := by
  have hfile : (picky.run ⟨∅, SortedMap.ofList [("a.js", "x".toUTF8), ("b.js", "no".toUTF8),
      ("c.js", "y".toUTF8)]⟩ ∅ none []).failure.map (·.file) = some "b.js" := by decide
  obtain ⟨f, hf, hname⟩ := Option.map_eq_some_iff.mp hfile
  obtain ⟨-, -, -, hfailure, -⟩ := run_fails_fast picky
    ⟨∅, SortedMap.ofList [("a.js", "x".toUTF8), ("b.js", "no".toUTF8), ("c.js", "y".toUTF8)]⟩ ∅
    none []
  obtain ⟨-, -, -, -, -, -, hout, -⟩ := hfailure f hf
  refine ⟨f, hf, hname, ?_⟩
  rw [hout, hname]
  refine SortedMap.ext_entries ?_
  decide

end Builder
end ScriptWeave
