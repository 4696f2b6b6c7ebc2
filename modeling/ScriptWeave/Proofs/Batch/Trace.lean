/-
# The trace of a batch

A batch is watched from outside in two ways: by the compiler, which sees the requests, and by the
log, which shows a line for each event.  Neither can be read off the output map: a call too many
leaves no mark there, and neither does a line that is missing.

Every event belongs to the turn of one file.  A skipped file has one event and no call; so whatever
is taken from the events of a batch, apart from those of skipped files, is taken visit by visit
(`filterMap_events_run`).  What is left is one visit:

* its calls (`callsAt`): none if the file passes through or is no UTF-8, the whole text for a
  script, and for a page its blocks in order, up to the first one that is refused;
* its last event, which tells how it ended, with a line at the level INFO for a file that was
  transformed, and at the level ERROR for one that failed.

The line at the level ERROR is written when the file fails, and the text of the failure when someone
asks for it later; that they are one text is a theorem
(`Builder.FailedFile.message_eq_failureLine`).

**Stated here.**  The calls of a visit (`requests_handle`); the calls, the lines at the level INFO
and those at the level ERROR of a whole batch (`trace_of_run`).
-/
import Mathlib.Data.List.Nodup
import ScriptWeave.Batch.Log
import ScriptWeave.Proofs.Batch.Failure
import ScriptWeave.Proofs.Batch.Output
import ScriptWeave.Proofs.Markup.Weaving

namespace ScriptWeave

/-! ## 1. Requests up to a refusal -/

namespace Compiler

/-- The first ones of some requests that are made in turn, up to the one that is refused. -/
def upToRefusal (compiler : Compiler) :
    List CompileRequest → List CompileRequest → List CompileRequest
  | _, [] => []
  | past, request :: rest =>
    request :: match compiler past request with
      | .ok _ => upToRefusal compiler (past ++ [request]) rest
      | .error _ => []

variable {compiler : Compiler}

/-- All of them, if each is answered. -/
theorem upToRefusal_of_answers {past requests : List CompileRequest} {outputs : List Compiled}
    (h : Answers compiler past requests outputs) :
    compiler.upToRefusal past requests = requests := by
  induction h with
  | nil => rfl
  | cons hc _ ih => rw [upToRefusal, hc, ih]

/-- The one that is refused is the last. -/
theorem upToRefusal_of_failsAfter {why : Diagnosis} {failed : CompileRequest} :
    ∀ {done past requests : List CompileRequest},
      FailsAfter compiler past requests done failed why →
      compiler.upToRefusal past requests = done ++ [failed]
  | [], past, requests, ⟨_, hr, hpre⟩ => by
    obtain ⟨later, rfl⟩ := hpre
    rw [List.append_nil] at hr
    rw [List.nil_append, List.singleton_append, upToRefusal, hr]
  | request :: done, past, requests, ⟨⟨outputs, ha⟩, hr, hpre⟩ => by
    obtain ⟨later, rfl⟩ := hpre
    cases ha with
    | @cons _ _ _ output outputs hc ha =>
      have hrest : FailsAfter compiler (past ++ [request]) (done ++ [failed] ++ later) done failed
          why := ⟨⟨outputs, ha⟩, by rwa [List.append_assoc], List.prefix_append _ _⟩
      rw [List.cons_append, List.cons_append, upToRefusal, hc]
      exact congrArg (request :: ·) (upToRefusal_of_failsAfter hrest)

end Compiler

namespace Markup

/-- An empty page has no blocks. -/
theorem pageRequests_empty (setup : CompileSetup) (dialectMarker filename : String) :
    pageRequests setup dialectMarker filename "" = [] := by
  have hsegments : pageSegments dialectMarker "" = [] := by
    rw [pageSegments, segments_eq_scan, String.toList_empty, scan]
    rfl
  rw [pageRequests, hsegments, requestsOf_nil]

/-- **The requests of weaving** are those about the blocks of the page, up to a refusal. -/
theorem requests_weave (setup : CompileSetup) (dialectMarker runtimeMarker filename page : String)
    (past : List CompileRequest) :
    (weave setup dialectMarker runtimeMarker filename page past).requests
      = setup.compiler.upToRefusal past (pageRequests setup dialectMarker filename page) := by
  by_cases hpage : page = ""
  · subst hpage
    rw [pageRequests_empty, weave, if_pos rfl, Work.pure_apply, Compiler.upToRefusal]
  · rw [weave_of_ne _ _ _ _ hpage, Work.bind_pure_apply]
    rcases answers_or_fails setup.compiler (pageRequests setup dialectMarker filename page) past
      with ⟨outputs, ha⟩ | ⟨done, failed, why, hf⟩
    · obtain ⟨woven, hw, -⟩ := weaveSegments_of_answers ha
      rw [hw, Compiler.upToRefusal_of_answers ha]
      rfl
    · rw [weaveSegments_of_failsAfter hf, Compiler.upToRefusal_of_failsAfter hf]

end Markup

namespace Builder

/-! ## 2. One visit -/

/-- The file that an event is about. -/
def Event.filename : Event → String
  | .skipped filename => filename
  | .invoked filename _ => filename
  | .transformed filename _ _ => filename
  | .passedThrough filename => filename
  | .failed filename _ => filename

/-- **The calls for a visited file**: none if it passes through or is not UTF-8, one for a script,
and for a page those for its blocks, up to the first one that is refused. -/
def callsAt (builder : Builder) (args : Option OptionLayer) (v : Visited) : List CompileRequest :=
  match builder.routes.classify v.name, String.fromUTF8? v.content with
  | .passthrough, _ => []
  | _, none => []
  | .script, some source => [⟨source, (builder.setup args).options v.name none⟩]
  | .markup, some source =>
    builder.compiler.upToRefusal v.past
      (Markup.pageRequests (builder.setup args) builder.dialectMarker v.name source)

/-- How a visit ends. -/
def endingAt (builder : Builder) (args : Option OptionLayer) (v : Visited) : Event :=
  match (builder.handle args v.name v.content v.past).result with
  | .ok (some compiled) => .transformed v.name v.content.size compiled.code.utf8ByteSize
  | .ok none => .passedThrough v.name
  | .error e => .failed v.name e

/-- The line of an event, if it has this level; it is given how long each file took. -/
def Event.line? (took : String → String) (level : LogLevel) (e : Event) : Option LogLine :=
  Option.guard (·.level = level) (LogLine.ofEvent (took e.filename) e)

/-- The bytes that a visited file came to, if it was transformed. -/
def codeAt? (builder : Builder) (args : Option OptionLayer) (v : Visited) : Option ByteArray :=
  match (builder.handle args v.name v.content v.past).result with
  | .ok compiled => compiled.map (·.code.toUTF8)
  | .error _ => none

/-- What an event tells of a file that was transformed: its name, and its sizes before and after. -/
def Event.sizes? : Event → Option (String × Nat × Nat)
  | .transformed filename before after => some (filename, before, after)
  | _ => none

/-- The failure of a batch that ends with this visit. -/
def failureAt (builder : Builder) (args : Option OptionLayer) (v : Visited) : Option FailedFile :=
  match (builder.handle args v.name v.content v.past).result with
  | .error e => some ⟨v.name, e⟩
  | .ok _ => none

/-- The line at the level ERROR that has the text of a failure. -/
def FailedFile.line (f : FailedFile) : LogLine := ⟨.error, f.message, []⟩

section Visit

variable {builder : Builder} {args : Option OptionLayer}

/-- **The requests of handling a file** are its calls. -/
theorem requests_handle (v : Visited) :
    (builder.handle args v.name v.content v.past).requests = builder.callsAt args v := by
  unfold callsAt
  cases hk : builder.routes.classify v.name with
  | passthrough => rw [handle_of_passthrough hk, Work.pure_apply]
  | script =>
    cases hs : String.fromUTF8? v.content with
    | none =>
      rw [handle_of_not_utf8 (by simp [hk]) hs]
      rfl
    | some source =>
      rw [handle_of_script hk hs, Work.bind_pure_apply]
      rfl
  | markup =>
    cases hs : String.fromUTF8? v.content with
    | none =>
      rw [handle_of_not_utf8 (by simp [hk]) hs]
      rfl
    | some source =>
      rw [handle_of_markup hk hs, Work.bind_pure_apply]
      exact Markup.requests_weave _ _ _ _ _ _

/-- Nothing is asked about these files. -/
theorem callsAt_eq_nil {v : Visited}
    (h : builder.routes.classify v.name = .passthrough ∨ String.fromUTF8? v.content = none ∨
      builder.routes.classify v.name = .markup ∧ String.fromUTF8? v.content = some "") :
    builder.callsAt args v = [] := by
  unfold callsAt
  rcases h with hk | hs | ⟨hk, hs⟩
  · simp only [hk]
  · cases hk : builder.routes.classify v.name <;> simp only [hs]
  · simp only [hk, hs, Markup.pageRequests_empty]
    rfl

/-- **The events of a visit**: its calls, and how it ended. -/
theorem events_visit (v : Visited) :
    (builder.visit args v.past v.name v.content).events
      = (builder.callsAt args v).map (.invoked v.name) ++ [builder.endingAt args v] := by
  rw [← requests_handle, visit, endingAt]
  rcases (builder.handle args v.name v.content v.past).result with _ | _ | _ <;> rfl

/-- What is taken from a visit is taken from how it ended, if nothing is taken from a call. -/
theorem filterMap_events_visit {β : Type} {pick : Event → Option β}
    (hcall : ∀ name request, pick (.invoked name request) = none) (v : Visited) :
    (builder.visit args v.past v.name v.content).events.filterMap pick
      = (pick (builder.endingAt args v)).toList := by
  have hcalls : ((builder.callsAt args v).map (Event.invoked v.name)).filterMap pick = [] :=
    List.filterMap_eq_nil_iff.mpr fun e he => by
      obtain ⟨request, -, rfl⟩ := List.mem_map.mp he
      exact hcall v.name request
  rw [events_visit, List.filterMap_append, hcalls, List.nil_append,
    List.filterMap_eq_flatMap_toList, List.flatMap_singleton]

/-- A visit fails with an error of the file that is visited. -/
theorem failureAt_eq_some_iff {v : Visited} {f : FailedFile} :
    builder.failureAt args v = some f ↔
      ∃ e, (builder.handle args v.name v.content v.past).result = .error e ∧ ⟨v.name, e⟩ = f := by
  unfold failureAt
  split <;> rename_i h <;> simp [h]

theorem codeAt?_eq_some_iff {v : Visited} {bytes : ByteArray} :
    builder.codeAt? args v = some bytes ↔ ∃ compiled,
      (builder.handle args v.name v.content v.past).result = .ok (some compiled) ∧
        compiled.code.toUTF8 = bytes := by
  unfold codeAt?
  split <;> rename_i h <;> simp [h]

/-- The sizes that are told of a file are those of its bytes, and of the bytes it came to. -/
theorem sizes?_endingAt (v : Visited) : (builder.endingAt args v).sizes?
    = (builder.codeAt? args v).map fun bytes => (v.name, v.content.size, bytes.size) := by
  unfold endingAt codeAt?
  split <;> rename_i h <;> simp only [h] <;> rfl

/-- A line at the level INFO tells of a file that was transformed. -/
theorem line?_info_endingAt (took : String → String) (v : Visited) :
    (builder.endingAt args v).line? took .info = (builder.codeAt? args v).map fun bytes =>
      ⟨.info, Report.doneLine v.name (took v.name) v.content.size bytes.size, []⟩ := by
  unfold endingAt codeAt?
  split <;> rename_i h <;> simp only [h] <;> rfl

/-- A line at the level ERROR tells of a file that failed. -/
theorem line?_error_endingAt (took : String → String) (v : Visited) :
    (builder.endingAt args v).line? took .error = (builder.failureAt args v).map (·.line) := by
  unfold endingAt failureAt
  split <;> rename_i h <;> simp only [h, Option.map_some, FailedFile.line,
    FailedFile.message_eq_failureLine] <;> rfl

end Visit

/-! ## 3. The visits of a batch -/

section Batch

variable {builder : Builder} {args : Option OptionLayer}

/-- **What is taken from the events of a batch** is taken visit by visit, if nothing is taken from
the event of a skipped file. -/
theorem filterMap_events_visitAll {β : Type} {pick : Event → Option β}
    (hskip : ∀ name, pick (.skipped name) = none) {removed : NameSet} :
    ∀ {files : List (String × ByteArray)} {past : List CompileRequest} {output : Artifacts},
      (builder.visitAll args removed files past output).events.filterMap pick
        = (builder.visitsFrom args (kept removed files) past).flatMap fun v =>
            (builder.visit args v.past v.name v.content).events.filterMap pick
  | [], _, _ => rfl
  | (name, content) :: rest, past, output => by
    by_cases hr : removed.contains name = true
    · rw [visitAll_cons_of_removed hr, kept_cons_of_removed hr, List.filterMap_cons, hskip]
      exact filterMap_events_visitAll hskip
    · rw [kept_cons hr]
      rcases builder.handle_error_or_visit_ok args past name content with
        ⟨e, hh⟩ | ⟨result, entries, hh, he⟩
      · rw [visitAll_cons_of_error hr hh, visitsFrom_cons_of_error hh, List.flatMap_singleton]
      · rw [visitAll_cons_of_ok hr he, visitsFrom_cons_of_ok hh, List.filterMap_append,
          List.flatMap_cons, filterMap_events_visitAll hskip]

/-- The failure of a batch is that of its last visit, and no other visit fails. -/
theorem filterMap_failureAt_visitsFrom {removed : NameSet} :
    ∀ {files : List (String × ByteArray)} {past : List CompileRequest} {output : Artifacts},
      (builder.visitsFrom args (kept removed files) past).filterMap (builder.failureAt args)
        = (builder.visitAll args removed files past output).failure.toList
  | [], _, _ => rfl
  | (name, content) :: rest, past, output => by
    by_cases hr : removed.contains name = true
    · rw [visitAll_cons_of_removed hr, kept_cons_of_removed hr]
      exact filterMap_failureAt_visitsFrom
    · rw [kept_cons hr]
      rcases builder.handle_error_or_visit_ok args past name content with
        ⟨e, hh⟩ | ⟨result, entries, hh, he⟩
      · rw [visitAll_cons_of_error hr hh, visitsFrom_cons_of_error hh]
        simp [failureAt, hh]
      · have hnone : builder.failureAt args ⟨name, content, past⟩ = none := by
          simp only [failureAt, hh]
        rw [visitAll_cons_of_ok hr he, visitsFrom_cons_of_ok hh, List.filterMap_cons, hnone]
        exact filterMap_failureAt_visitsFrom

/-- The visits of a batch that fail: the one that the batch fails with, if there is one. -/
theorem filterMap_failureAt_visits {changes : Changes} {past : List CompileRequest}
    (output : Artifacts) :
    (builder.visits changes args past).filterMap (builder.failureAt args)
      = (builder.run changes output args past).failure.toList :=
  filterMap_failureAt_visitsFrom

/-- The visits of a batch that fails go up to the failing file. -/
theorem map_visitsFrom_of_failure {removed : NameSet} {f : FailedFile} :
    ∀ {files : List (String × ByteArray)} {past : List CompileRequest} {output : Artifacts},
      (builder.visitAll args removed files past output).failure = some f →
      ∃ front content later, kept removed files = front ++ (f.file, content) :: later ∧
        (builder.visitsFrom args (kept removed files) past).map (fun v => (v.name, v.content))
          = front ++ [(f.file, content)]
  | [], _, _, h => by cases h
  | (name, content) :: rest, past, output, h => by
    by_cases hr : removed.contains name = true
    · rw [visitAll_cons_of_removed hr] at h
      rw [kept_cons_of_removed hr]
      exact map_visitsFrom_of_failure h
    · rw [kept_cons hr]
      rcases builder.handle_error_or_visit_ok args past name content with
        ⟨e, hh⟩ | ⟨result, entries, hh, he⟩
      · rw [visitAll_cons_of_error hr hh] at h
        obtain rfl := Option.some.inj h
        exact ⟨[], content, kept removed rest, rfl, by rw [visitsFrom_cons_of_error hh]; rfl⟩
      · rw [visitAll_cons_of_ok hr he] at h
        obtain ⟨front, last, later, hkept, hvisits⟩ := map_visitsFrom_of_failure h
        refine ⟨(name, content) :: front, last, later, by rw [hkept, List.cons_append], ?_⟩
        rw [visitsFrom_cons_of_ok hh, List.map_cons, hvisits, List.cons_append]

/-- A visit comes after the calls of the visits before it. -/
theorem past_of_visitsFrom_eq_append {later : List Visited} {v : Visited} :
    ∀ {earlier : List Visited} {files : List (String × ByteArray)} {past : List CompileRequest},
      builder.visitsFrom args files past = earlier ++ v :: later →
      v.past = past ++ earlier.flatMap (builder.callsAt args)
  | _, [], _, h => by simp [visitsFrom] at h
  | [], (name, content) :: rest, past, h => by
    rw [visitsFrom] at h
    obtain rfl := (List.cons.inj h).1
    exact (List.append_nil past).symm
  | w :: earlier, (name, content) :: rest, past, h => by
    cases hh : (builder.handle args name content past).result with
    | error e =>
      rw [visitsFrom_cons_of_error hh] at h
      simp at h
    | ok result =>
      rw [visitsFrom_cons_of_ok hh, List.cons_append] at h
      obtain ⟨rfl, hrest⟩ := List.cons.inj h
      rw [past_of_visitsFrom_eq_append hrest, List.flatMap_cons, List.append_assoc,
        requests_handle ⟨name, content, past⟩]

/-- The files before one of a list and this one, if their names increase. -/
theorem filter_le_of_pairwise {front later : List (String × ByteArray)} {file : String × ByteArray}
    (h : (front ++ file :: later).Pairwise fun a b => a.1 < b.1) :
    (front ++ file :: later).filter (fun e => decide (e.1 ≤ file.1)) = front ++ [file] := by
  obtain ⟨-, hlater, hfront⟩ := List.pairwise_append.mp h
  have hbefore : front.filter (fun e => decide (e.1 ≤ file.1)) = front :=
    List.filter_eq_self.mpr fun e he => by
      simpa using Std.le_of_lt (hfront e he file List.mem_cons_self)
  have hbehind : later.filter (fun e => decide (e.1 ≤ file.1)) = [] :=
    List.filter_eq_nil_iff.mpr fun e he => by
      simpa using (List.pairwise_cons.mp hlater).1 e he
  rw [List.filter_append, hbefore, List.filter_cons, hbehind]
  simp

variable {changes : Changes} {output : Artifacts} {past : List CompileRequest}

/-- The files that a batch visits. -/
theorem map_visits : (builder.visits changes args past).map (fun v => (v.name, v.content))
    = changes.visited.entries.filter fun file =>
        (builder.run changes output args past).failure.all (file.1 ≤ ·.file) := by
  cases hf : (builder.run changes output args past).failure with
  | none =>
    have hall : changes.visited.entries.filter (fun _ => true) = changes.visited.entries :=
      List.filter_eq_self.mpr fun _ _ => rfl
    exact (visits_of_failure_eq_none hf).1.trans hall.symm
  | some f =>
    obtain ⟨front, content, later, hkept, hvisits⟩ := map_visitsFrom_of_failure hf
    have hsorted := changes.visited.sorted
    have hentries : changes.visited.entries = front ++ (f.file, content) :: later := hkept
    rw [hentries] at hsorted ⊢
    exact hvisits.trans (filter_le_of_pairwise hsorted).symm

/-- The calls of a batch are those of its visits. -/
theorem requests_run : (builder.run changes output args past).requests
    = (builder.visits changes args past).flatMap (builder.callsAt args) := by
  have hall : (builder.run changes output args past).requests = _ :=
    filterMap_events_visitAll (fun _ => rfl)
  rw [hall]
  refine congrArg List.flatten (List.map_congr_left fun v _ => ?_)
  rw [requests_visit, requests_handle]

/-- **What is taken from the ends of the visits** of a batch. -/
theorem filterMap_events_run {β : Type} {pick : Event → Option β}
    (hskip : ∀ name, pick (.skipped name) = none)
    (hcall : ∀ name request, pick (.invoked name request) = none) :
    (builder.run changes output args past).events.filterMap pick
      = (builder.visits changes args past).filterMap fun v => pick (builder.endingAt args v) := by
  have hall : (builder.run changes output args past).events.filterMap pick = _ :=
    filterMap_events_visitAll hskip
  rw [hall, List.filterMap_eq_flatMap_toList]
  exact congrArg List.flatten (List.map_congr_left fun v _ => filterMap_events_visit hcall v)

/-- The lines of a log at one level. -/
theorem filter_log (took : String → String) (level : LogLevel) (events : List Event) :
    (events.map fun e => LogLine.ofEvent (took e.filename) e).filter (·.level = level)
      = events.filterMap (·.line? took level) := by
  rw [← List.filterMap_eq_filter, List.filterMap_map]
  rfl

/-- An event at the level INFO ends the visit to a file that was transformed. -/
theorem exists_visit_of_info {took : String → String} {e : Event}
    (he : e ∈ (builder.run changes output args past).events)
    (hlevel : (LogLine.ofEvent (took e.filename) e).level = .info) :
    ∃ v ∈ builder.visits changes args past, e.filename = v.name ∧
      ∃ compiled, (builder.handle args v.name v.content v.past).result = .ok (some compiled) := by
  have hpicked : e ∈ (builder.run changes output args past).events.filterMap (Option.guard
      fun e => decide ((LogLine.ofEvent (took e.filename) e).level = .info)) :=
    List.mem_filterMap.mpr ⟨e, he, by simp [Option.guard, hlevel]⟩
  rw [filterMap_events_run (fun _ => rfl) (fun _ _ => rfl)] at hpicked
  obtain ⟨v, hv, hguard⟩ := List.mem_filterMap.mp hpicked
  obtain ⟨rfl, -⟩ := Option.guard_eq_some_iff.mp hguard
  refine ⟨v, hv, ?_⟩
  unfold endingAt at hlevel ⊢
  split <;> rename_i hh <;> simp only [hh] at hlevel
  · exact ⟨rfl, _, hh⟩
  · cases hlevel
  · cases hlevel

/-- A file is visited once. -/
theorem eq_of_name_eq_of_mem_visits {v w : Visited} (hv : v ∈ builder.visits changes args past)
    (hw : w ∈ builder.visits changes args past) (h : v.name = w.name) : v = w := by
  have hnames : ((builder.visits changes args past).map Visited.name).Nodup :=
    List.pairwise_map.mpr ((builder.pairwise_visits changes args past).imp Std.ne_of_lt)
  exact List.inj_on_of_nodup_map hnames hv hw h

/-- The bytes that a file came to were put in under its name. -/
theorem get?_output_run_of_code {v : Visited} {bytes : ByteArray}
    (hv : v ∈ builder.visits changes args past) (hcode : builder.codeAt? args v = some bytes) :
    (builder.run changes output args past).output.get? v.name = some (.content bytes) := by
  obtain ⟨compiled, hh, rfl⟩ := codeAt?_eq_some_iff.mp hcode
  rcases builder.handle_error_or_visit_ok args v.past v.name v.content with
    ⟨e, he⟩ | ⟨_, entries, -, he⟩
  · rw [hh] at he
    cases he
  · obtain ⟨bytes, hd, hget⟩ := get?_output_run_of_mem hv he
    rcases handle_cases hh with ⟨hnone, -⟩ | ⟨_, hsome, hd', -⟩
    · cases hnone
    · obtain rfl := Option.some.inj hsome
      rw [hget, hd.unique hd']

/-- The last event of a batch that fails is its failure. -/
theorem getLast?_events_of_failure {f : FailedFile}
    (hf : (builder.run changes output args past).failure = some f) :
    (builder.run changes output args past).events.getLast? = some (.failed f.file f.error) := by
  obtain ⟨v, -, -, -, hname, -, hfails, -, -, -, -, hevents⟩ := exists_turn_of_failure hf
  have hending : builder.endingAt args v = .failed f.file f.error := by
    rw [endingAt, hfails, hname]
  rw [hevents, events_visit, hending, ← List.append_assoc, List.getLast?_concat]

/-- The file that a batch fails with is not one that was handled. -/
theorem file_ne_of_handled {v : Visited} {f : FailedFile} {result : Option Compiled}
    (hf : (builder.run changes output args past).failure = some f)
    (hv : v ∈ builder.visits changes args past)
    (hh : (builder.handle args v.name v.content v.past).result = .ok result) :
    f.file ≠ v.name := by
  intro heq
  have hfailed : f ∈ (builder.visits changes args past).filterMap (builder.failureAt args) := by
    rw [filterMap_failureAt_visits output, hf]
    exact List.mem_singleton_self f
  obtain ⟨w, hw, hfw⟩ := List.mem_filterMap.mp hfailed
  obtain ⟨e, hhw, rfl⟩ := failureAt_eq_some_iff.mp hfw
  -- the failing file is visited once, and fails then
  rw [← eq_of_name_eq_of_mem_visits hw hv heq, hhw] at hh
  cases hh

end Batch

/-- **The trace of a batch.** -/
theorem trace_of_run (builder : Builder) (changes : Changes) (output : Artifacts)
    (args : Option OptionLayer) (past : List CompileRequest) (took : String → String) :
    let result := builder.run changes output args past
    let visits := builder.visits changes args past
    let log := result.events.map fun e => LogLine.ofEvent (took e.filename) e
    -- the visits are to the files that are added or changed and not removed, in the order of their
    -- names, up to the failing one, and each comes after the calls of those before it
    (visits.map (fun v => (v.name, v.content))
        = changes.visited.entries.filter fun file => result.failure.all (file.1 ≤ ·.file)) ∧
    (∀ earlier v later, visits = earlier ++ v :: later →
      v.past = past ++ earlier.flatMap (builder.callsAt args)) ∧
    -- the calls are those of the visits, and these files have none
    result.requests = visits.flatMap (builder.callsAt args) ∧
    (∀ v, (builder.routes.classify v.name = .passthrough ∨ String.fromUTF8? v.content = none ∨
        builder.routes.classify v.name = .markup ∧ String.fromUTF8? v.content = some "") →
      builder.callsAt args v = []) ∧
    -- one line at the level INFO for every file that came to code, with its sizes before and after
    log.filter (·.level = .info) = (visits.filterMap fun v =>
      (builder.codeAt? args v).map fun bytes =>
        ⟨.info, "Transformed " ++ v.name ++ ", took " ++ took v.name ++ " ("
          ++ Report.sizeText v.content.size ++ " -> " ++ Report.sizeText bytes.size ++ ", "
          ++ (Report.growth v.content.size bytes.size).oneDecimal ++ "%)", []⟩) ∧
    result.events.filterMap Event.sizes? = (visits.filterMap fun v =>
      (builder.codeAt? args v).map fun bytes => (v.name, v.content.size, bytes.size)) ∧
    -- and these bytes are what was put in under its name
    (∀ v ∈ visits, ∀ bytes, builder.codeAt? args v = some bytes →
      result.output.get? v.name = some (.content bytes)) ∧
    -- one line at the level ERROR, the last one, if the batch fails, and none if it does not; it
    -- has the text of the failure
    log.filter (·.level = .error) = (result.failure.map (·.line)).toList ∧
    (∀ f, result.failure = some f → log.getLast? = some f.line) ∧
    -- no file that is skipped, that fails or that passes through is reported as transformed
    (∀ e ∈ result.events, (LogLine.ofEvent (took e.filename) e).level = .info →
      changes.removed.contains e.filename = false ∧
        builder.routes.classify e.filename ≠ .passthrough ∧
        ∀ f, result.failure = some f → f.file ≠ e.filename) := by
  refine ⟨map_visits, fun earlier v later h => past_of_visitsFrom_eq_append h, requests_run,
    fun v => callsAt_eq_nil, ?_, ?_, ?_, ?_, ?_, ?_⟩
  · refine (filter_log took .info _).trans ?_
    refine (filterMap_events_run (fun _ => rfl) (fun _ _ => rfl)).trans ?_
    refine List.filterMap_congr fun v _ => (line?_info_endingAt took v).trans ?_
    unfold Report.doneLine
    rfl
  · rw [filterMap_events_run (fun _ => rfl) (fun _ _ => rfl)]
    simp only [sizes?_endingAt]
  · exact fun v hv bytes hcode => get?_output_run_of_code hv hcode
  · rw [filter_log, filterMap_events_run (fun _ => rfl) (fun _ _ => rfl)]
    simp only [line?_error_endingAt]
    rw [← List.map_filterMap, filterMap_failureAt_visits output, Option.toList_map]
  · intro f hf
    rw [List.getLast?_map, getLast?_events_of_failure hf]
    rfl
  · intro e he hlevel
    obtain ⟨v, hv, hname, compiled, hh⟩ := exists_visit_of_info he hlevel
    rw [hname]
    refine ⟨(mem_of_mem_visits hv).2, fun hk => ?_, fun f hf => file_ne_of_handled hf hv hh⟩
    rw [handle_of_passthrough hk, Work.pure_apply] at hh
    cases hh

end Builder
end ScriptWeave
