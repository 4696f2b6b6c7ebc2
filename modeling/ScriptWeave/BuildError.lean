/-
# What can go wrong

Errors are causes; their wording is in one place each.  A *storage error* is what an operation on
files fails with.  A *build error* is what stops a batch, or keeps it from starting; it has a code,
under which it is documented, and perhaps advice.
-/

namespace ScriptWeave

/-! ## 1. Storage errors -/

/-- Why an operation on files fails. -/
inductive StorageError where
  | notFound
  | alreadyExists
  | notADirectory
  | isADirectory
  | linkLoop
  | nameTooLong
  | nulInPath
  | notUtf8
  /-- The program may not do this. -/
  | denied
  /-- The device fails. -/
  | deviceFailed
  deriving DecidableEq

namespace StorageError

/-- The text of the error. -/
def message : StorageError → String
  | notFound => "No such file or directory (os error 2)"
  | alreadyExists => "File exists (os error 17)"
  | notADirectory => "Not a directory (os error 20)"
  | isADirectory => "Is a directory (os error 21)"
  | linkLoop => "Too many levels of symbolic links (os error 40)"
  | nameTooLong => "File name too long (os error 36)"
  | nulInPath => "file name contained an unexpected NUL byte"
  | notUtf8 => "stream did not contain valid UTF-8"
  | denied => "Permission denied (os error 13)"
  | deviceFailed => "Input/output error (os error 5)"

end StorageError

/-! ## 2. Build errors -/

/-- Why a build fails. -/
inductive BuildError where
  | storage (cause : StorageError)
  | compile (file message : String) (stack : Option String)
  | invalidEncoding (file : String)
  | invalidMarker
  | configSyntax
  | missingCommand
  deriving DecidableEq

namespace BuildError

/-- The code under which the error is documented. -/
def code : BuildError → String
  | storage _ => "jsxpipe::io_error"
  | compile .. => "jsxpipe::compile_failure"
  | invalidEncoding _ => "jsxpipe::invalid_encoding"
  | invalidMarker => "jsxpipe::invalid_marker"
  | configSyntax => "jsxpipe::config_parse"
  | missingCommand => "jsxpipe::missing_compiler"

/-- What to do about the error. -/
def help : BuildError → Option String
  | storage _ => none
  | compile file .. => some ("fix the reported error in `" ++ file ++ "` and rebuild")
  | invalidEncoding _ => some "markup and script files must be UTF-8 encoded to be compiled"
  | invalidMarker => some "check the `dialect_marker` value in jsxpipe.toml"
  | configSyntax =>
    some "check that jsxpipe.toml is valid TOML with optional [compiler] and [args] sections"
  | missingCommand => some "set `command` in the [compiler] section of jsxpipe.toml"

/-- The text of the error.  Where the particulars are left to the reader of the file, it is only
what they are put behind. -/
def message : BuildError → String
  | storage cause => cause.message
  | compile _ message _ => message
  | invalidEncoding file => "`" ++ file ++ "` is not valid UTF-8"
  | invalidMarker => "invalid dialect marker pattern"
  | configSyntax => "failed to parse config file"
  | missingCommand => "no compiler command configured"

end BuildError

end ScriptWeave
