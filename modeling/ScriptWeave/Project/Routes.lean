/-
# Which files are compiled, and how

A file is a *markup* file, a *script*, or one that passes through unchanged, and only the extension
of the last component of its name decides which.  ASCII case makes no difference, neither in the
name nor in the configured lists, and dots in front of a configured extension are ignored.  An
extension in both lists means markup.
-/
import ScriptWeave.FilePath
import ScriptWeave.Text.CaseFold

namespace ScriptWeave

/-- How a file is handled. -/
inductive Handling where
  /-- A page that may have embedded blocks. -/
  | markup
  /-- A file that is compiled whole. -/
  | script
  /-- A file that is copied unchanged. -/
  | passthrough
  deriving DecidableEq

namespace Handling

/-- The word for a kind. -/
def word : Handling → String
  | markup => "markup"
  | script => "script"
  | passthrough => "passthrough"

end Handling

/-- The extensions of markup files and of scripts, in lower case and without dots in front. -/
structure Routes where
  markup : List (List Char)
  script : List (List Char)

namespace Routes

/-- A configured extension, in the form that extensions are compared in. -/
def normalize (extension : String) : List Char :=
  Text.asciiLower (extension.toList.dropWhile (· = '.'))

/-- The routes of two configured lists of extensions. -/
def ofExtensions (markup script : List String) : Routes :=
  ⟨markup.map normalize, script.map normalize⟩

/-- How a file of this name is handled. -/
def classify (routes : Routes) (filename : String) : Handling :=
  match FilePath.extension? filename.toList with
  | none => .passthrough
  | some extension =>
    let extension := Text.asciiLower extension
    if extension ∈ routes.markup then .markup
    else if extension ∈ routes.script then .script
    else .passthrough

end Routes

end ScriptWeave
