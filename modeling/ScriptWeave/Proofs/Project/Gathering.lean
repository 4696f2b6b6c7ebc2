/-
# Batches that are gathered while others are sent

A sender puts batches on a queue, one after another, and is gone after the last one.  Meanwhile a
receiver takes them off, gathers what comes in time, and hands out a set when its window has run
out.  The two do not wait for each other, and the window may run out at any time: `Step` has one
constructor for each thing that can happen next, and `Reaches` counts the steps of a run.

What has been handed out, what is in hand, what is on the queue and what is still to be sent are
always all of the batches, in the order in which they are sent (`Accounted`).  Once the receiver has
stopped, only the first of these is left.

**Stated here.**  Every run ends, and when it has ended no batch is lost and none is handed out
twice: what is handed out is what `next` gathers, call after call, from the batches as they arrive
(`gathering_splits_batches`).
-/
import Mathlib.Data.List.Forall2
import ScriptWeave.Proofs.Project.PathSets

namespace ScriptWeave
namespace Debounce

/-! ## 1. Runs of batches -/

/-- The set that is gathered from a run of batches. -/
def gather : List (List String) → List String
  | [] => []
  | first :: more => more.foldl extend (ofBatch first)

theorem extend_gather {run : List (List String)} (h : run ≠ []) (batch : List String) :
    extend (gather run) batch = gather (run ++ [batch]) := by
  obtain ⟨first, more, rfl⟩ := List.exists_cons_of_ne_nil h
  simp [gather, List.foldl_append]

theorem isSetOf_foldl_extend {paths texts : List String} (h : IsSetOf paths texts)
    (more : List (List String)) : IsSetOf (more.foldl extend paths) (texts ++ more.flatten) := by
  induction more generalizing paths texts with
  | nil => simpa using h
  | cons batch more ih => simpa using ih (h.extend batch)

/-- What is gathered from a run is the union of its batches. -/
theorem isSetOf_gather (run : List (List String)) : IsSetOf (gather run) run.flatten := by
  cases run with
  | nil => exact isSetOf_nil
  | cons first more => exact isSetOf_foldl_extend (isSetOf_ofBatch first) more

/-! ## 2. Arrivals, one run after another -/

theorem next_cons (first : Arrival) (rest : List Arrival) :
    next (first :: rest) = some
      (gather (first.batch :: (rest.takeWhile (·.inTime)).map (·.batch)),
        rest.dropWhile (·.inTime)) := rfl

theorem length_lt_of_next {arrivals later : List Arrival} {paths : List String}
    (h : next arrivals = some (paths, later)) : later.length < arrivals.length := by
  cases arrivals with
  | nil => cases h
  | cons first rest =>
    rw [next_cons] at h
    obtain ⟨-, rfl⟩ := Prod.mk.inj (Option.some.inj h)
    exact Nat.lt_succ_of_le (List.dropWhile_sublist _).length_le

/-- What is gathered, one set after another, until the sender is gone. -/
def gatherAll (arrivals : List Arrival) : List (List String) :=
  match _ : next arrivals with
  | none => []
  | some (paths, later) => paths :: gatherAll later
termination_by arrivals.length
decreasing_by exact length_lt_of_next ‹_›

@[simp] theorem gatherAll_nil : gatherAll [] = [] := by
  rw [gatherAll]
  rfl

theorem gatherAll_cons (first : Arrival) (rest : List Arrival) :
    gatherAll (first :: rest)
      = gather (first.batch :: (rest.takeWhile (·.inTime)).map (·.batch))
        :: gatherAll (rest.dropWhile (·.inTime)) := by
  rw [gatherAll]
  rfl

/-- The arrivals of a run: all but the first one come in time. -/
def arrivalsOf : List (List String) → List Arrival
  | [] => []
  | first :: more => ⟨first, false⟩ :: more.map (⟨·, true⟩)

theorem map_batch_arrivalsOf (run : List (List String)) :
    (arrivalsOf run).map (·.batch) = run := by
  cases run with
  | nil => rfl
  | cons first more => simp [arrivalsOf, Function.comp_def]

theorem map_batch_flatMap_arrivalsOf (runs : List (List (List String))) :
    (runs.flatMap arrivalsOf).map (·.batch) = runs.flatten := by
  simp only [List.map_flatMap, map_batch_arrivalsOf, List.flatMap_id']

/-- A run begins with a batch that is waited for. -/
theorem takeWhile_flatMap_arrivalsOf {runs : List (List (List String))}
    (h : ∀ run ∈ runs, run ≠ []) : (runs.flatMap arrivalsOf).takeWhile (·.inTime) = [] := by
  cases runs with
  | nil => rfl
  | cons run runs =>
    obtain ⟨first, more, rfl⟩ := List.exists_cons_of_ne_nil (h run List.mem_cons_self)
    rfl

/-- Every way to split batches into runs is that of some row of arrivals. -/
theorem gatherAll_flatMap_arrivalsOf {runs : List (List (List String))}
    (h : ∀ run ∈ runs, run ≠ []) : gatherAll (runs.flatMap arrivalsOf) = runs.map gather := by
  induction runs with
  | nil => exact gatherAll_nil
  | cons run runs ih =>
    rw [List.forall_mem_cons] at h
    obtain ⟨first, more, rfl⟩ := List.exists_cons_of_ne_nil h.1
    have hstart := takeWhile_flatMap_arrivalsOf h.2
    have hrest : (runs.flatMap arrivalsOf).dropWhile (·.inTime) = runs.flatMap arrivalsOf := by
      have hsplit := List.takeWhile_append_dropWhile (p := (·.inTime))
        (l := runs.flatMap arrivalsOf)
      rwa [hstart, List.nil_append] at hsplit
    have hmore : ∀ a ∈ more.map (⟨·, true⟩ : List String → Arrival), a.inTime = true := by simp
    rw [List.flatMap_cons, arrivalsOf, List.cons_append, gatherAll_cons,
      List.takeWhile_append_of_pos hmore, List.dropWhile_append_of_pos hmore, hstart, hrest, ih h.2]
    simp [Function.comp_def]

/-- Whatever arrives when, it is gathered run by run. -/
theorem exists_runs (arrivals : List Arrival) :
    ∃ runs : List (List (List String)), runs.flatten = arrivals.map (·.batch) ∧
      (∀ run ∈ runs, run ≠ []) ∧ gatherAll arrivals = runs.map gather := by
  match arrivals with
  | [] => exact ⟨[], rfl, by simp, gatherAll_nil⟩
  | first :: rest =>
    obtain ⟨runs, hflat, hne, hall⟩ := exists_runs (rest.dropWhile (·.inTime))
    refine ⟨(first.batch :: (rest.takeWhile (·.inTime)).map (·.batch)) :: runs, ?_, ?_, ?_⟩
    · rw [List.flatten_cons, hflat, List.cons_append, ← List.map_append,
        List.takeWhile_append_dropWhile, List.map_cons]
    · exact List.forall_mem_cons.mpr ⟨List.cons_ne_nil _ _, hne⟩
    · rw [gatherAll_cons, hall, List.map_cons]
termination_by arrivals.length
decreasing_by exact Nat.lt_succ_of_le (List.dropWhile_sublist _).length_le

/-! ## 3. A sender and a receiver -/

/-- What the receiver does: it waits for a first batch, or for more of them within the window, or it
has been told that there are none. -/
inductive Receiver where
  | waiting
  | gathering (paths : List String)
  | stopped

/-- Where a sender and a receiver are. -/
structure Watch where
  unsent : List (List String)
  queue : List (List String)
  gone : Bool
  receiver : Receiver
  delivered : List (List String)

/-- Nothing has been sent yet. -/
def Watch.start (batches : List (List String)) : Watch := ⟨batches, [], false, .waiting, []⟩

/-- What can happen next.  The window can run out at any time, even if there is a batch on the queue
by then; it also ends when the sender is gone and the queue is empty. -/
inductive Step : Watch → Watch → Prop where
  | send {batch unsent queue receiver delivered} :
      Step ⟨batch :: unsent, queue, false, receiver, delivered⟩
        ⟨unsent, queue ++ [batch], false, receiver, delivered⟩
  | leave {queue receiver delivered} :
      Step ⟨[], queue, false, receiver, delivered⟩ ⟨[], queue, true, receiver, delivered⟩
  | first {unsent batch queue gone delivered} :
      Step ⟨unsent, batch :: queue, gone, .waiting, delivered⟩
        ⟨unsent, queue, gone, .gathering (ofBatch batch), delivered⟩
  | more {unsent batch queue gone paths delivered} :
      Step ⟨unsent, batch :: queue, gone, .gathering paths, delivered⟩
        ⟨unsent, queue, gone, .gathering (extend paths batch), delivered⟩
  | close {unsent queue gone paths delivered} :
      Step ⟨unsent, queue, gone, .gathering paths, delivered⟩
        ⟨unsent, queue, gone, .waiting, delivered ++ [paths]⟩
  | stop {unsent delivered} :
      Step ⟨unsent, [], true, .waiting, delivered⟩ ⟨unsent, [], true, .stopped, delivered⟩

/-- What a run can come to in a number of steps. -/
inductive Reaches (batches : List (List String)) : ℕ → Watch → Prop where
  | start : Reaches batches 0 (.start batches)
  | step {n s t} : Reaches batches n s → Step s t → Reaches batches (n + 1) t

/-! ## 4. What is in hand -/

/-- The batches that the receiver has in hand. -/
inductive Holds : Receiver → List (List String) → Prop where
  | waiting : Holds .waiting []
  | gathering {run : List (List String)} : run ≠ [] → Holds (.gathering (gather run)) run
  | stopped : Holds .stopped []

/-- All batches are accounted for: those of the runs that have been handed out, those in hand, those
on the queue, and those that are still to be sent. -/
structure Accounted (batches : List (List String)) (runs : List (List (List String)))
    (run : List (List String)) (s : Watch) : Prop where
  delivered : s.delivered = runs.map gather
  nonempty : ∀ r ∈ runs, r ≠ []
  inHand : Holds s.receiver run
  all : runs.flatten ++ run ++ s.queue ++ s.unsent = batches
  gone : s.gone = true → s.unsent = []
  stopped : s.receiver = .stopped → s.gone = true ∧ s.queue = []

section Runs

variable {batches run : List (List String)} {runs : List (List (List String))} {s t : Watch} {n : ℕ}

theorem accounted_start (batches : List (List String)) :
    Accounted batches [] [] (.start batches) where
  delivered := rfl
  nonempty := by simp
  inHand := .waiting
  all := rfl
  gone := nofun
  stopped := nofun

/-- A step loses no batch and makes none double. -/
theorem Accounted.step (h : Accounted batches runs run s) (hstep : Step s t) :
    ∃ runs run, Accounted batches runs run t := by
  obtain ⟨hdelivered, hnonempty, hhand, hall, hgone, hstopped⟩ := h
  -- a batch moves on by one place, and only where a window ends does a run get finished
  cases hstep with
  | send =>
    exact ⟨runs, run, hdelivered, hnonempty, hhand, by simpa using hall, nofun,
      fun hs => absurd (hstopped hs).1 nofun⟩
  | leave =>
    exact ⟨runs, run, hdelivered, hnonempty, hhand, hall, fun _ => rfl,
      fun hs => ⟨rfl, (hstopped hs).2⟩⟩
  | @first unsent batch queue =>
    obtain ⟨⟩ := hhand
    have hrun : [batch] ≠ [] := List.cons_ne_nil _ _
    exact ⟨runs, [batch], hdelivered, hnonempty, .gathering hrun, by simpa using hall, hgone, nofun⟩
  | @more unsent batch queue =>
    obtain _ | hrun := hhand
    refine ⟨runs, run ++ [batch], hdelivered, hnonempty, ?_, by simpa using hall, hgone, nofun⟩
    rw [extend_gather hrun]
    exact .gathering (by simp)
  | close =>
    obtain _ | hrun := hhand
    refine ⟨runs ++ [run], [], ?_, ?_, .waiting, by simpa using hall, hgone, nofun⟩
    · simpa using hdelivered
    · intro r hr
      rcases List.mem_append.mp hr with hr | hr
      · exact hnonempty r hr
      · exact List.mem_singleton.mp hr ▸ hrun
  | stop =>
    obtain ⟨⟩ := hhand
    exact ⟨runs, [], hdelivered, hnonempty, .stopped, hall, hgone, fun _ => ⟨rfl, rfl⟩⟩

theorem Reaches.accounted (h : Reaches batches n s) : ∃ runs run, Accounted batches runs run s := by
  induction h with
  | start => exact ⟨_, _, accounted_start batches⟩
  | step _ hstep ih =>
    obtain ⟨_, _, hs⟩ := ih
    exact hs.step hstep

/-! ## 5. Every run ends -/

/-- How many steps can still come at most: a batch is sent, it is taken off, and if it opens a window
that window has to run out. -/
def Watch.ahead (s : Watch) : ℕ :=
  3 * s.unsent.length + 2 * s.queue.length + (if s.gone then 0 else 1) +
    match s.receiver with
    | .waiting => 1
    | .gathering _ => 2
    | .stopped => 0

theorem Step.ahead_lt (h : Step s t) : t.ahead < s.ahead := by
  cases h <;> simp [Watch.ahead] <;> omega

theorem Reaches.add_ahead_le (h : Reaches batches n s) : n + s.ahead ≤ 3 * batches.length + 2 := by
  induction h with
  | start => simp [Watch.start, Watch.ahead]
  | step _ hstep ih =>
    have hlt := hstep.ahead_lt
    omega

/-- Only when the receiver has stopped can it be that nothing happens any more. -/
theorem exists_step (h : s.receiver ≠ .stopped) : ∃ t, Step s t := by
  obtain ⟨unsent, queue, gone, receiver, delivered⟩ := s
  cases receiver with
  | stopped => exact absurd rfl h
  | gathering paths => exact ⟨_, .close⟩
  | waiting =>
    cases queue with
    | cons batch queue => exact ⟨_, .first⟩
    | nil =>
      cases gone with
      | true => exact ⟨_, .stop⟩
      | false =>
        cases unsent with
        | nil => exact ⟨_, .leave⟩
        | cons batch unsent => exact ⟨_, .send⟩

/-! ## 6. Every row of arrivals comes about -/

/-- What is gathered when the rest of a run is sent in time. -/
theorem Reaches.gather_more {unsent more delivered : List (List String)} {paths : List String}
    (h : Reaches batches n ⟨more ++ unsent, [], false, .gathering paths, delivered⟩) :
    ∃ m, Reaches batches m
      ⟨unsent, [], false, .gathering (more.foldl extend paths), delivered⟩ := by
  induction more generalizing n paths with
  | nil => exact ⟨n, h⟩
  | cons batch more ih => exact ih ((h.step .send).step .more)

theorem Reaches.gather_runs {delivered : List (List String)} (hne : ∀ run ∈ runs, run ≠ [])
    (h : Reaches batches n ⟨runs.flatten, [], false, .waiting, delivered⟩) :
    ∃ m, Reaches batches m ⟨[], [], false, .waiting, delivered ++ runs.map gather⟩ := by
  induction runs generalizing n delivered with
  | nil => exact ⟨n, by simpa using h⟩
  | cons run runs ih =>
    rw [List.forall_mem_cons] at hne
    obtain ⟨first, more, rfl⟩ := List.exists_cons_of_ne_nil hne.1
    -- the run is sent batch by batch, and its window runs out before the next one
    obtain ⟨m, hmore⟩ := ((h.step .send).step .first).gather_more
    obtain ⟨k, hrest⟩ := ih hne.2 (hmore.step .close)
    exact ⟨k, by simpa [gather] using hrest⟩

theorem reaches_of_arrivals (arrivals : List Arrival) :
    ∃ n s, Reaches (arrivals.map (·.batch)) n s ∧ s.receiver = .stopped ∧
      s.delivered = gatherAll arrivals := by
  obtain ⟨runs, hflat, hne, hall⟩ := exists_runs arrivals
  rw [hall, ← hflat]
  obtain ⟨n, h⟩ := (@Reaches.start runs.flatten).gather_runs hne
  exact ⟨_, _, (h.step .leave).step .stop, rfl, List.nil_append _⟩

/-! ## 7. No batch is lost, and none is handed out twice -/

/-- When the receiver has stopped, everything has been handed out. -/
theorem Accounted.flatten_of_stopped (h : Accounted batches runs run s)
    (hstopped : s.receiver = .stopped) :
    s.gone = true ∧ s.unsent = [] ∧ s.queue = [] ∧ runs.flatten = batches := by
  obtain ⟨hgone, hqueue⟩ := h.stopped hstopped
  have hunsent := h.gone hgone
  have hall := h.all
  have hhand := h.inHand
  rw [hstopped] at hhand
  obtain ⟨⟩ := hhand
  rw [hqueue, hunsent, List.append_nil, List.append_nil, List.append_nil] at hall
  exact ⟨hgone, hunsent, hqueue, hall⟩

/-- **Gathering splits the batches into runs.**  However sending, receiving and the end of a window
follow each other, there are no more than so many steps, and they go on until the receiver is told
that there are no more batches.  By then the sender is gone, nothing is left that was not sent or
not received, and the sets that have been handed out are the unions of runs of batches: consecutive
ones, none of them empty, which together are all the batches in their order.  They are what is
gathered from the batches as they arrive, in time or not, and each way to arrive comes about. -/
theorem gathering_splits_batches (batches : List (List String)) :
    (∀ n s, Reaches batches n s →
      n ≤ 3 * batches.length + 2 ∧
      (s.receiver ≠ .stopped → ∃ t, Step s t) ∧
      (s.receiver = .stopped →
        s.gone = true ∧ s.unsent = [] ∧ s.queue = [] ∧
        (∃ runs, runs.flatten = batches ∧ (∀ run ∈ runs, run ≠ []) ∧
          List.Forall₂ (fun paths run => IsSetOf paths run.flatten) s.delivered runs) ∧
        ∃ arrivals, arrivals.map (·.batch) = batches ∧ gatherAll arrivals = s.delivered)) ∧
    ∀ arrivals, arrivals.map (·.batch) = batches →
      ∃ n s, Reaches batches n s ∧ s.receiver = .stopped ∧ s.delivered = gatherAll arrivals := by
  constructor
  · intro n s h
    obtain ⟨runs, run, hs⟩ := h.accounted
    have hle := h.add_ahead_le
    refine ⟨by omega, exists_step, fun hstopped => ?_⟩
    obtain ⟨hgone, hunsent, hqueue, hall⟩ := hs.flatten_of_stopped hstopped
    refine ⟨hgone, hunsent, hqueue, ⟨runs, hall, hs.nonempty, ?_⟩, runs.flatMap arrivalsOf, ?_, ?_⟩
    · rw [hs.delivered, List.forall₂_map_left_iff, List.forall₂_same]
      exact fun run _ => isSetOf_gather run
    · rw [map_batch_flatMap_arrivalsOf, hall]
    · rw [gatherAll_flatMap_arrivalsOf hs.nonempty, hs.delivered]
  · rintro arrivals rfl
    exact reaches_of_arrivals arrivals

/-- The second batch is empty and comes just when the window of the first one runs out, and the
sender is gone before the window of the second one does. -/
theorem gathering_splits_three_batches :
    let batches := [["b"], [], ["c//d", "a", "c/d"]]
    let arrivals : List Arrival := [⟨["b"], true⟩, ⟨[], false⟩, ⟨["c//d", "a", "c/d"], true⟩]
    Reaches batches 10 ⟨[], [], true, .stopped, [["b"], ["a", "c//d"]]⟩ ∧
    arrivals.map (·.batch) = batches ∧
    (∃ runs : List (List (List String)), runs.flatten = batches ∧ (∀ run ∈ runs, run ≠ []) ∧
      List.Forall₂ (fun paths run => IsSetOf paths run.flatten) [["b"], ["a", "c//d"]] runs) ∧
    ∃ n s, Reaches batches n s ∧ s.receiver = .stopped ∧ s.delivered = gatherAll arrivals := by
  intro batches arrivals
  have hrun := ((((((((((@Reaches.start batches).step .send).step .first).step .send).step
    .close).step .first).step .send).step .leave).step .more).step .close).step .stop
  have hsets : [] ++ [ofBatch ["b"]] ++ [extend (ofBatch []) ["c//d", "a", "c/d"]]
      = [["b"], ["a", "c//d"]] := by decide +kernel
  rw [hsets] at hrun
  obtain ⟨hruns, harrivals⟩ := gathering_splits_batches batches
  obtain ⟨-, -, hstopped⟩ := hruns _ _ hrun
  obtain ⟨-, -, -, hsplit, -⟩ := hstopped rfl
  exact ⟨hrun, rfl, hsplit, harrivals arrivals rfl⟩

end Runs

end Debounce
end ScriptWeave
