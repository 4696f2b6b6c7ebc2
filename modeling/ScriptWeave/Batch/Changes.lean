/-
# What goes into a batch and what comes out

A *change set* says which files were removed since the last batch, and which were added or changed,
with their bytes.  A file may be in both.

The *output* of a batch is a map from file names to entries: bytes to be written, or a tombstone for
a file whose output is to be deleted.  The source map of a file stands under the file's name with
`.map` behind it.
-/
import ScriptWeave.SortedMap

namespace ScriptWeave

/-- The files removed, added or changed since the last batch. -/
structure Changes where
  removed : NameSet := ∅
  updated : SortedMap String ByteArray := ∅

namespace Changes

/-- Nothing happened. -/
def isEmpty (changes : Changes) : Bool :=
  changes.removed.isEmpty && changes.updated.isEmpty

/-- The files to be visited: those added or changed, and not also removed. -/
def visited (changes : Changes) : SortedMap String ByteArray :=
  changes.updated.filter fun name _ => !changes.removed.contains name

end Changes

/-- Outputs are compared byte by byte. -/
local instance decEqOutput : DecidableEq ByteArray := ByteArray.instDecidableEq

/-- What a batch leaves for a file. -/
inductive Artifact where
  | content (bytes : ByteArray)
  | tombstone
  deriving DecidableEq

/-- The output of a batch, by file name. -/
abbrev Artifacts := SortedMap String Artifact

namespace Artifact

/-- The bytes to be written, if there are any. -/
def bytes? : Artifact → Option ByteArray
  | content bytes => some bytes
  | tombstone => none

/-- The entry stands for a removed file. -/
def isBuried : Artifact → Bool
  | content _ => false
  | tombstone => true

end Artifact

namespace Artifacts

/-- The bytes to be written for a file. -/
def content? (output : Artifacts) (name : String) : Option ByteArray :=
  (output.get? name).bind Artifact.bytes?

/-- The file's output is to be deleted. -/
def isBuried (output : Artifacts) (name : String) : Bool :=
  (output.get? name).any Artifact.isBuried

/-- The output with a tombstone for every one of the names. -/
def bury (output : Artifacts) (names : NameSet) : Artifacts :=
  names.keys.foldl (fun output name => output.insert name .tombstone) output

end Artifacts

/-- The name under which the source map of a file stands. -/
def sourceMapName (name : String) : String := name ++ ".map"

end ScriptWeave
