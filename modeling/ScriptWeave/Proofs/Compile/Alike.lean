/-
# Two compilers that answer alike

A build can be done with one compiler and then with another one, say after a compiler that failed
was mended.  Where the second one answers as the first one did, the build goes as before.  What
"where" means is a matter of the requests that were in fact made: of a compiler that is never asked
about a text it does not matter what it would say.

So this is a property of two pieces of work (`Work.Repeats`), the same work done with either
compiler: if all that the first one asked for is of some kind, the second one comes to the same.
Sequencing keeps it; for here the kind is that of the requests that both compilers answer alike.
-/
import ScriptWeave.Batch.Run
import ScriptWeave.Proofs.Compile.Asking

namespace ScriptWeave

/-- The other compiler answers the request as the compiler does, whatever either was asked before.
-/
def Compiler.AnswersAlike (compiler other : Compiler) (request : CompileRequest) : Prop :=
  ∀ past past', other past' request = compiler past request

/-! ## 1. Work that is repeated -/

namespace Work

variable {α β : Type} {P : CompileRequest → Prop}

/-- The second work comes to what the first one came to, if every request that this one made is of
this kind. -/
def Repeats (P : CompileRequest → Prop) (second first : Work α) : Prop :=
  ∀ past past', (∀ request ∈ (first past).requests, P request) → second past' = first past

theorem repeats_pure (a : α) : Repeats P (pure a) (pure a) := fun _ _ _ => rfl

theorem repeats_fail (e : BuildError) : Repeats P (Work.fail e : Work α) (Work.fail e) :=
  fun _ _ _ => rfl

theorem Repeats.bind {first second : Work α} {next next' : α → Work β}
    (hf : Repeats P second first) (hn : ∀ a, Repeats P (next' a) (next a)) :
    Repeats P (second >>= next') (first >>= next) := by
  intro past past' hall
  cases h : first past with
  | mk result asked =>
    cases result with
    | error e =>
      rw [bind_apply_of_error h] at hall ⊢
      have hsecond : second past' = ⟨.error e, asked⟩ :=
        (hf past past' (by rw [h]; exact hall)).trans h
      rw [bind_apply_of_error hsecond]
    | ok a =>
      rw [bind_apply_of_ok h] at hall ⊢
      have hsecond : second past' = ⟨.ok a, asked⟩ := by
        refine (hf past past' ?_).trans h
        rw [h]
        exact fun request hr => hall request (List.mem_append_left _ hr)
      have hlater : next' a (past' ++ asked) = next a (past ++ asked) :=
        hn a _ _ fun request hr => hall request (List.mem_append_right _ hr)
      rw [bind_apply_of_ok hsecond, hlater]

end Work

/-! ## 2. A build with another compiler -/

/-- The same setup with another compiler. -/
def CompileSetup.withCompiler (setup : CompileSetup) (other : Compiler) : CompileSetup :=
  { setup with compiler := other }

/-- The same builder with another compiler. -/
def Builder.withCompiler (builder : Builder) (other : Compiler) : Builder :=
  { builder with compiler := other }

section Build

variable {setup : CompileSetup} {other : Compiler}

theorem CompileSetup.repeats_compile (filename source : String)
    (directives : Option OptionLayer) :
    ((setup.withCompiler other).compile filename source directives).Repeats
      (setup.compiler.AnswersAlike other) (setup.compile filename source directives) := by
  intro past past' hall
  have halike := hall _ (List.mem_singleton_self _) past past'
  show (⟨(other past' _).mapError _, _⟩ : Outcome Compiled)
    = ⟨(setup.compiler past _).mapError _, _⟩
  rw [← halike]
  rfl

theorem Markup.repeats_weaveSegments (runtimeMarker : List Char) (filename : String) :
    ∀ segments, (weaveSegments (setup.withCompiler other) runtimeMarker filename segments).Repeats
      (setup.compiler.AnswersAlike other) (weaveSegments setup runtimeMarker filename segments)
  | [] => Work.repeats_pure _
  | .literal _ :: rest =>
    (repeats_weaveSegments runtimeMarker filename rest).bind fun _ => Work.repeats_pure _
  | .block _ :: rest =>
    (CompileSetup.repeats_compile filename _ _).bind fun _ =>
      (repeats_weaveSegments runtimeMarker filename rest).bind fun _ => Work.repeats_pure _

theorem Markup.repeats_weave (dialectMarker runtimeMarker filename page : String) :
    (weave (setup.withCompiler other) dialectMarker runtimeMarker filename page).Repeats
      (setup.compiler.AnswersAlike other)
      (weave setup dialectMarker runtimeMarker filename page) := by
  unfold weave
  split
  · exact Work.repeats_pure _
  · exact (repeats_weaveSegments _ _ _).bind fun _ => Work.repeats_pure _

/-- **Handling a file with another compiler** comes to the same, if that answers alike whatever was
asked. -/
theorem Builder.repeats_handle {builder : Builder} (args : Option OptionLayer) (filename : String)
    (content : ByteArray) :
    ((builder.withCompiler other).handle args filename content).Repeats
      (builder.compiler.AnswersAlike other) (builder.handle args filename content) := by
  unfold handle
  simp only [withCompiler]
  split
  · exact Work.repeats_pure _
  · split
    · exact Work.repeats_fail _
    · split
      · exact (@CompileSetup.repeats_compile ⟨builder.compiler, _, _⟩ other _ _ _).bind
          fun _ => Work.repeats_pure _
      · exact (@Markup.repeats_weave ⟨builder.compiler, _, _⟩ other _ _ _ _).bind
          fun _ => Work.repeats_pure _

end Build
end ScriptWeave
