/-
# Compilers without a memory

A compiler may look at the requests made before the one at hand.  One that does not is *memoryless*,
and then nothing that a build does depends on these requests: not a compile call, not the
weaving of a page, not the handling of a file.  Such a compiler answers every request as it would
at any other time, so this is a matter of work that is repeated with the same compiler
(`Work.Repeats`).
-/
import ScriptWeave.Proofs.Compile.Alike

namespace ScriptWeave

/-- The compiler does not look at the requests made before. -/
def Compiler.Memoryless (compiler : Compiler) : Prop :=
  ∀ past past' request, compiler past request = compiler past' request

theorem Compiler.memoryless_pure (answer : CompileRequest → Except Diagnosis Compiled) :
    (Compiler.pure answer).Memoryless :=
  fun _ _ _ => rfl

/-- It answers as it did before. -/
theorem Compiler.Memoryless.answersAlike {compiler : Compiler} (h : compiler.Memoryless)
    (request : CompileRequest) : compiler.AnswersAlike compiler request :=
  fun past past' => h past' past request

namespace Work

variable {α : Type} {work : Work α}

/-- The work comes to the same whatever was asked before. -/
def Steady (work : Work α) : Prop := ∀ past past', work past = work past'

theorem Repeats.steady {P : CompileRequest → Prop} (h : Repeats P work work)
    (hall : ∀ request, P request) : work.Steady :=
  fun past past' => h past' past fun request _ => hall request

end Work

section Build

variable {setup : CompileSetup}

theorem CompileSetup.steady_compile (h : setup.compiler.Memoryless) (filename source : String)
    (directives : Option OptionLayer) : (setup.compile filename source directives).Steady :=
  (repeats_compile filename source directives).steady h.answersAlike

theorem Markup.steady_weave (h : setup.compiler.Memoryless)
    (dialectMarker runtimeMarker filename page : String) :
    (weave setup dialectMarker runtimeMarker filename page).Steady :=
  (repeats_weave dialectMarker runtimeMarker filename page).steady h.answersAlike

/-- **Handling a file does not depend on the requests made before**, if the compiler does not. -/
theorem Builder.steady_handle {builder : Builder} (h : builder.compiler.Memoryless)
    (args : Option OptionLayer) (filename : String) (content : ByteArray) :
    (builder.handle args filename content).Steady :=
  (repeats_handle args filename content).steady h.answersAlike

end Build
end ScriptWeave
