/-
# Writing the output of a batch

Every entry of an output map is carried out below the output directory, in the order of the names.
Content is written, the directories above it made as needed.  A tombstone removes the file, and the
source map that may stand beside it; where there is a directory instead, nothing is removed.

The first operation that fails ends the writing, and what was written before it stays.
-/
import ScriptWeave.Batch.Changes
import ScriptWeave.FileTree.Operations

namespace ScriptWeave

/-- How many files were written and removed. -/
structure WriteCounts where
  written : Nat := 0
  removed : Nat := 0
  deriving DecidableEq

namespace Artifacts

/-- Removes a file if there is one; whether there was one. -/
def removeIfPresent (tree : FileTree) (path : String) : Except StorageError (FileTree × Bool) :=
  if tree.isDirectory path then .ok (tree, false)
  else
    match tree.removeFile path with
    | .ok tree => .ok (tree, true)
    | .error .notFound => .ok (tree, false)
    | .error e => .error e

/-- Carries out a tombstone. -/
def writeTombstone (outDir name : String) (tree : FileTree) (summary : WriteCounts) :
    FileTree × Except StorageError WriteCounts :=
  match removeIfPresent tree (FilePath.join outDir name) with
  | .error e => (tree, .error e)
  | .ok (tree, wasThere) =>
    match removeIfPresent tree (FilePath.join outDir (sourceMapName name)) with
    | .error e => (tree, .error e)
    | .ok (tree, _) =>
      (tree, .ok { summary with removed := summary.removed + if wasThere then 1 else 0 })

/-- Carries out one entry. -/
def writeEntry (outDir : String) (tree : FileTree) (summary : WriteCounts) (name : String)
    (entry : Artifact) : FileTree × Except StorageError WriteCounts :=
  match entry with
  | .tombstone => writeTombstone outDir name tree summary
  | .content bytes =>
    match tree.writeDeep (FilePath.join outDir name) bytes with
    | (tree, .error e) => (tree, .error e)
    | (tree, .ok ()) => (tree, .ok { summary with written := summary.written + 1 })

/-- Carries out entries in turn. -/
def writeEntries (outDir : String) :
    List (String × Artifact) → FileTree → WriteCounts →
      FileTree × Except StorageError WriteCounts
  | [], tree, summary => (tree, .ok summary)
  | (name, entry) :: rest, tree, summary =>
    match writeEntry outDir tree summary name entry with
    | (tree, .error e) => (tree, .error e)
    | (tree, .ok summary) => writeEntries outDir rest tree summary

/-- Writes an output map below a directory: the tree that is left, and the counts or the error. -/
def write (output : Artifacts) (outDir : String) (tree : FileTree) :
    FileTree × Except StorageError WriteCounts :=
  writeEntries outDir output.entries tree {}

end Artifacts

end ScriptWeave
