/-
# Asking a compiler one request after another

A compiler may remember what it was asked (`Compiler` takes the requests before the one at hand),
so what it makes of a list of requests depends on their order and on what went before.  This
file says what can happen along such a list: every request is answered (`Answers`), or
some of them are and the next one is refused (`FailsAfter`).  One of the two is always the case
(`answers_or_fails`).

It also has the equations by which work is run: what a sequence of two pieces comes to when
the outcome of the first is known.
-/
import ScriptWeave.Compile.Compiler

namespace ScriptWeave

/-! ## 1. Running work -/

namespace Work

variable {α β : Type} {first : Work α} {next : α → Work β} {past asked : List CompileRequest}

@[simp] theorem pure_apply (a : α) (past : List CompileRequest) :
    (pure a : Work α) past = ⟨.ok a, []⟩ := rfl

/-- What follows work that is done goes on behind its requests. -/
theorem bind_apply_of_ok {a : α} (h : first past = ⟨.ok a, asked⟩) :
    (first >>= next) past =
      ⟨(next a (past ++ asked)).result, asked ++ (next a (past ++ asked)).requests⟩ := by
  have hb : first.bind next past = _ := requests_bind_of_ok (congrArg Outcome.result h)
  rw [h] at hb
  exact hb

/-- What follows work that has failed is not done. -/
theorem bind_apply_of_error {e : BuildError} (h : first past = ⟨.error e, asked⟩) :
    (first >>= next) past = ⟨.error e, asked⟩ := by
  have hb : first.bind next past = _ := requests_bind_of_error (congrArg Outcome.result h)
  rw [h] at hb
  exact hb

/-- Work whose value is put in another form. -/
theorem bind_pure_apply (first : Work α) (f : α → β) (past : List CompileRequest) :
    (first >>= fun a => pure (f a)) past
      = ⟨(first past).result.map f, (first past).requests⟩ := by
  cases h : first past with
  | mk result asked =>
    cases result with
    | ok a => rw [bind_apply_of_ok h, pure_apply, List.append_nil]; rfl
    | error e => rw [bind_apply_of_error h]; rfl

/-- Three pieces of work come to the same, whichever two are put together first. -/
theorem assoc {γ : Type} (first : Work α) (next : α → Work β) (last : β → Work γ) :
    (first >>= next) >>= last = first >>= fun a => next a >>= last := by
  funext past
  cases h : first past with
  | mk result asked =>
    cases result with
    | error e => rw [bind_apply_of_error h, bind_apply_of_error (bind_apply_of_error h)]
    | ok a =>
      have hfirst : (first >>= next) past = _ := bind_apply_of_ok h
      rw [bind_apply_of_ok h]
      cases h' : next a (past ++ asked) with
      | mk result' asked' =>
        rw [h'] at hfirst
        cases result' with
        | error e => rw [bind_apply_of_error hfirst, bind_apply_of_error h']
        | ok b =>
          rw [bind_apply_of_ok hfirst, bind_apply_of_ok h', List.append_assoc, List.append_assoc]

instance : LawfulMonad Work :=
  LawfulMonad.mk' Work
    (fun work => funext fun past => (bind_pure_apply work id past).trans (by
      cases h : work past with
      | mk result asked => cases result <;> rfl))
    (fun a next => funext fun past => by
      rw [bind_apply_of_ok (pure_apply a past), List.append_nil]
      rfl)
    assoc

end Work

namespace CompileSetup

variable {setup : CompileSetup} {filename source : String} {directives : Option OptionLayer}
  {past : List CompileRequest}

/-- A call that the compiler answers. -/
theorem compile_apply_of_ok {output : Compiled}
    (h : setup.compiler past ⟨source, setup.options filename directives⟩ = .ok output) :
    setup.compile filename source directives past
      = ⟨.ok output, [⟨source, setup.options filename directives⟩]⟩ := by
  simp only [compile, Work.ask, h]
  rfl

/-- A call that the compiler refuses: its diagnosis is reset, and the file is blamed. -/
theorem compile_apply_of_error {why : Diagnosis}
    (h : setup.compiler past ⟨source, setup.options filename directives⟩ = .error why) :
    setup.compile filename source directives past
      = ⟨.error (.compile filename why.withResets.message why.withResets.stack),
        [⟨source, setup.options filename directives⟩]⟩ := by
  simp only [compile, Work.ask, h]
  rfl

end CompileSetup

/-! ## 2. A list of requests -/

/-- The compiler, asked these requests in turn behind the requests `past`, gives these outputs. -/
inductive Answers (compiler : Compiler) :
    List CompileRequest → List CompileRequest → List Compiled → Prop
  | nil {past : List CompileRequest} : Answers compiler past [] []
  | cons {past rest : List CompileRequest} {request : CompileRequest} {output : Compiled}
      {outputs : List Compiled} :
      compiler past request = .ok output →
      Answers compiler (past ++ [request]) rest outputs →
      Answers compiler past (request :: rest) (output :: outputs)

/-- The compiler, asked these requests in turn behind the requests `past`, answers those of `done`
and refuses the next one. -/
structure FailsAfter (compiler : Compiler) (past requests done : List CompileRequest)
    (failed : CompileRequest) (why : Diagnosis) : Prop where
  answered : ∃ outputs, Answers compiler past done outputs
  refused : compiler (past ++ done) failed = .error why
  upTo : done ++ [failed] <+: requests

/-- Either every request is answered, or one is the first to be refused. -/
theorem answers_or_fails (compiler : Compiler) :
    ∀ (requests past : List CompileRequest),
      (∃ outputs, Answers compiler past requests outputs) ∨
        ∃ done failed why, FailsAfter compiler past requests done failed why
  | [], _ => Or.inl ⟨[], Answers.nil⟩
  | request :: rest, past => by
    cases hc : compiler past request with
    | error why =>
      refine Or.inr ⟨[], request, why, ⟨[], Answers.nil⟩, ?_, by simp⟩
      rw [List.append_nil]
      exact hc
    | ok output =>
      rcases answers_or_fails compiler rest (past ++ [request]) with
        ⟨outputs, ha⟩ | ⟨done, failed, why, ⟨outputs, ha⟩, hr, hpre⟩
      · exact Or.inl ⟨output :: outputs, Answers.cons hc ha⟩
      · refine Or.inr ⟨request :: done, failed, why, ⟨_, Answers.cons hc ha⟩, ?_, ?_⟩
        · rwa [List.append_assoc] at hr
        · exact List.cons_prefix_cons.mpr ⟨rfl, hpre⟩

end ScriptWeave
