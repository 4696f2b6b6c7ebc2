/-
# Gathering what a watcher reports

A watcher sends batches of paths.  One change on disk often makes several batches, so they are
gathered: the first one is waited for, and every batch that arrives within a window of the one
before is taken with it.

**Time.**  Nothing is known of when a batch arrives, except relative to the receiver: each batch
comes either within the window that is open, or after it has run out.  So what the receiver sees is
a row of *arrivals*, each with a truth value that says whether it came in time, and after the last
one the sender is gone.  `next` takes the first arrival, whether it came in time or not, and the
ones after it as long as they came in time.

Two paths with the same components are one path.  A set that is made of a batch keeps the spelling
that comes last in it; a set that is extended keeps the spelling that it has.  Sets are ordered by
components.
-/
import ScriptWeave.FilePath

namespace ScriptWeave.Debounce

open FilePath

/-! ## 1. Sets of paths -/

/-- The ordered list with a path put in, unless it is there already. -/
def insertPath (path : String) : List String → List String
  | [] => [path]
  | p :: rest =>
    let new := components path.toList
    let old := components p.toList
    if new = old then p :: rest
    else if listBefore new old then path :: p :: rest
    else p :: insertPath path rest

/-- The set of a batch. -/
def ofBatch (batch : List String) : List String := batch.foldr insertPath []

/-- The set extended by a batch. -/
def extend (paths batch : List String) : List String :=
  batch.foldl (fun paths path => insertPath path paths) paths

/-! ## 2. Arrivals -/

/-- A batch that arrives, and whether it comes within the window that is open. -/
structure Arrival where
  batch : List String
  inTime : Bool

/-- The paths gathered next, and the arrivals after them; nothing once the sender is gone. -/
def next : List Arrival → Option (List String × List Arrival)
  | [] => none
  | first :: rest =>
    let more := (rest.takeWhile (·.inTime)).map (·.batch)
    some (more.foldl extend (ofBatch first.batch), rest.dropWhile (·.inTime))

end ScriptWeave.Debounce
