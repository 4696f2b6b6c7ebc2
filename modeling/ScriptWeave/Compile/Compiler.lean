/-
# Compilers

A compiler takes source text and options, and answers with code or with a failure.  Nothing else is
known of it: it may be a function of what it is asked, or it may remember what it was
asked before.  So a compiler is a function of the requests that came before and of the request
at hand.  One that has no memory is `Compiler.pure f`.

**Work** is what a build does with a compiler: it ends in a value or a build error, and on the way
it makes requests, which are kept in the order in which they are made.  Sequencing hands the
requests made so far to what comes next, so that a compiler sees its whole past.

**Stated here.**  Work that has failed asks for nothing more (`requests_bind_of_error`), and
sequencing concatenates requests (`requests_bind_of_ok`).
-/
import ScriptWeave.BuildError
import ScriptWeave.Compile.Diagnosis
import ScriptWeave.Options.Effective

namespace ScriptWeave

/-! ## 1. Requests and answers -/

/-- Source text to be compiled, and the options to do it with. -/
structure CompileRequest where
  source : String
  options : EffectiveOptions

/-- Compiled code, perhaps with a source map. -/
structure Compiled where
  code : String
  sourceMap : Option Json := none

/-- A compiler: the requests before, the request at hand, and the answer to it. -/
abbrev Compiler := List CompileRequest → CompileRequest → Except Diagnosis Compiled

/-- The compiler without a memory. -/
def Compiler.pure (answer : CompileRequest → Except Diagnosis Compiled) : Compiler :=
  fun _ request => answer request

/-! ## 2. Work -/

/-- How work ends, and the requests that it made, in order. -/
structure Outcome (α : Type) where
  result : Except BuildError α
  requests : List CompileRequest

/-- Work that may ask a compiler, given the requests made before. -/
def Work (α : Type) : Type := List CompileRequest → Outcome α

namespace Work

/-- Work that is done at once. -/
def done {α : Type} (a : α) : Work α := fun _ => ⟨.ok a, []⟩

/-- Work that fails at once. -/
def fail {α : Type} (e : BuildError) : Work α := fun _ => ⟨.error e, []⟩

/-- One piece of work after another; what follows a failure is not done. -/
def bind {α β : Type} (first : Work α) (next : α → Work β) : Work β := fun past =>
  match first past with
  | ⟨.error e, asked⟩ => ⟨.error e, asked⟩
  | ⟨.ok a, asked⟩ =>
    let later := next a (past ++ asked)
    ⟨later.result, asked ++ later.requests⟩

instance : Monad Work where
  pure := done
  bind := bind

/-- Asks the compiler; a failure becomes the build error that `blame` makes of it. -/
def ask (compiler : Compiler) (blame : Diagnosis → BuildError) (request : CompileRequest) :
    Work Compiled :=
  fun past => ⟨(compiler past request).mapError blame, [request]⟩

/-- Work that has failed asks for nothing more. -/
theorem requests_bind_of_error {α β : Type} {first : Work α} {next : α → Work β}
    {past : List CompileRequest} {e : BuildError} (h : (first past).result = .error e) :
    first.bind next past = ⟨.error e, (first past).requests⟩ := by
  unfold bind
  split <;> simp_all

/-- One piece of work after another makes the requests of both. -/
theorem requests_bind_of_ok {α β : Type} {first : Work α} {next : α → Work β}
    {past : List CompileRequest} {a : α} (h : (first past).result = .ok a) :
    first.bind next past =
      ⟨(next a (past ++ (first past).requests)).result,
        (first past).requests ++ (next a (past ++ (first past).requests)).requests⟩ := by
  unfold bind
  split <;> simp_all

end Work

/-! ## 3. Compile calls -/

/-- What all compile calls of a build share. -/
structure CompileSetup where
  compiler : Compiler
  /-- The feature that every call enables. -/
  featureFlag : String
  /-- The options of the caller. -/
  callerOptions : Option OptionLayer

namespace CompileSetup

/-- The options of a call: the file's name, over it the caller's options, and over them the
directives of the block. -/
def options (setup : CompileSetup) (filename : String) (directives : Option OptionLayer) :
    EffectiveOptions :=
  let layers := OptionLayer.ofFile filename :: (setup.callerOptions.toList ++ directives.toList)
  (OptionLayer.merge layers setup.featureFlag).resolve filename

/-- The error of a failed call: its diagnosis, reset, and the file it belongs to. -/
def blame (filename : String) (failure : Diagnosis) : BuildError :=
  let failure := failure.withResets
  .compile filename failure.message failure.stack

/-- Compiles one unit of text: a whole script, or the body of a block with its directives. -/
def compile (setup : CompileSetup) (filename source : String) (directives : Option OptionLayer) :
    Work Compiled :=
  .ask setup.compiler (blame filename) ⟨source, setup.options filename directives⟩

end CompileSetup

end ScriptWeave
