/-
# A build that fails leaves the project as it was

A build goes through stages, and each of them can end it: the root is not there, the configuration
cannot be read, no command is configured, the marker is too long (`Plan.Refuses`); a file or a
directory cannot be collected; a file of the batch fails.  All of this is before the build writes
anything (`FailsEarly`), however much of the batch has been done by then: the partial output of a
batch is not handed to the writer.

What is left is the compiler's own command, which is run for each request and may do what it likes.
So the tree after such a build is the tree before, with what the command has done to it; and where
the command leaves a place alone (`Plan.Spares`), this place is as it was.  A place can be a file, a
directory, or a name under which there is nothing.

**Stated here.**  How a build ends that fails before it writes, what it leaves, and when it
succeeds (`build_leaves_all_on_failure`).
-/
import ScriptWeave.CommandLine.Run
import ScriptWeave.Proofs.Project.Walk

namespace ScriptWeave.CommandLine

/-! ## 1. The stages of a build -/

/-- **There is no plan**, and the complaint about that. -/
inductive Plan.Refuses (setting : Setting) (path : Option String) (out : String) :
    Complaint → Prop
  | root {cause : StorageError} :
      setting.tree.canonical (FilePath.join setting.directory (path.getD ".")) = .error cause →
      Refuses setting path out (.storage cause)
  | configuration {base : Location} {cause : BuildError} :
      setting.tree.canonical (FilePath.join setting.directory (path.getD ".")) = .ok base →
      BuildConfig.load setting.tree (FileTree.pathTo base) = .error cause →
      Refuses setting path out (.build cause)
  | command {base : Location} {config : Option BuildConfig} :
      setting.tree.canonical (FilePath.join setting.directory (path.getD ".")) = .ok base →
      BuildConfig.load setting.tree (FileTree.pathTo base) = .ok config →
      (config.getD {}).command = none → Refuses setting path out (.build .missingCommand)
  | marker {base : Location} {config : Option BuildConfig} :
      setting.tree.canonical (FilePath.join setting.directory (path.getD ".")) = .ok base →
      BuildConfig.load setting.tree (FileTree.pathTo base) = .ok config →
      (config.getD {}).command ≠ none →
      setting.accepts (config.getD {}).dialectMarker = false →
      Refuses setting path out (.build .invalidMarker)

/-- The batch of a plan. -/
def Plan.batch (plan : Plan) (setting : Setting) (changes : Changes) : Builder.BatchResult :=
  ({ plan.builder with
      compiler := plan.compiler.compiler setting.runner setting.tree } : Builder).run changes ∅
    (some plan.config.args) []

/-- The files after the batch of a plan, before anything is written. -/
def Plan.treeAfterBatch (plan : Plan) (setting : Setting) (changes : Changes) : FileTree :=
  plan.compiler.treeAfter setting.runner setting.tree (plan.batch setting changes).requests

/-- **A build fails before it writes**, with this complaint. -/
inductive FailsEarly (setting : Setting) (path : Option String) (out : String) : Complaint → Prop
  | plan {complaint : Complaint} :
      Plan.Refuses setting path out complaint → FailsEarly setting path out complaint
  | collecting {plan : Plan} {cause : ProjectScope.CollectError} :
      Plan.make setting path out = .ok plan →
      plan.scope.collect setting.tree setting.directory = .error cause →
      FailsEarly setting path out (.collect cause)
  | batch {plan : Plan} {changes : Changes} {f : Builder.FailedFile} :
      Plan.make setting path out = .ok plan →
      plan.scope.collect setting.tree setting.directory = .ok changes →
      (plan.batch setting changes).failure = some f →
      FailsEarly setting path out (.build f.error)

/-- **A build succeeds**: it comes to writing, and that succeeds. -/
def Succeeds (setting : Setting) (path : Option String) (out : String) : Prop :=
  ∃ plan changes summary, Plan.make setting path out = .ok plan ∧
    plan.scope.collect setting.tree setting.directory = .ok changes ∧
    (plan.batch setting changes).failure = none ∧
    ((plan.batch setting changes).output.write plan.scope.outDir
      (plan.treeAfterBatch setting changes)).2 = .ok summary

/-- The compiler's command leaves a place alone. -/
def Plan.Spares (plan : Plan) (setting : Setting) (place : Location) : Prop :=
  ∀ (tree : FileTree) (request : CompileRequest),
    (setting.runner tree (plan.compiler.call request)).1.node? place = tree.node? place

section Stages

variable {setting : Setting} {path : Option String} {out : String} {complaint : Complaint}
  {invocation : Invocation}

/-- Only the marker keeps a builder from being made. -/
theorem ofConfig_eq_error_iff {compiler : Compiler} {accepts : String → Bool}
    {config : BuildConfig} {e : BuildError} :
    Builder.ofConfig compiler accepts config = .error e ↔
      accepts config.dialectMarker = false ∧ .invalidMarker = e := by
  unfold Builder.ofConfig
  split <;> rename_i h <;> simp [h]

/-- **Why there is no plan.** -/
theorem Plan.make_eq_error_iff :
    Plan.make setting path out = .error complaint ↔ Plan.Refuses setting path out complaint := by
  constructor
  · intro h
    rw [Plan.make] at h
    cases hplace : setting.tree.canonical (FilePath.join setting.directory (path.getD ".")) with
    | error cause =>
      rw [hplace] at h
      obtain rfl := Except.error.inj h
      exact .root hplace
    | ok base =>
      rw [hplace] at h
      cases hload : BuildConfig.load setting.tree (FileTree.pathTo base) with
      | error cause =>
        simp only [hload, bind, Except.bind, Except.mapError] at h
        obtain rfl := Except.error.inj h
        exact .configuration hplace hload
      | ok config =>
        simp only [hload, bind, Except.bind, Except.mapError] at h
        split at h
        · obtain rfl := Except.error.inj h
          exact .command hplace hload ‹_›
        · rename_i command hcommand
          cases hbuilder : Builder.ofConfig (ExternalCompiler.compiler
              ⟨command, FileTree.pathTo base⟩ setting.runner setting.tree) setting.accepts
              (config.getD {}) with
          | ok builder =>
            rw [hbuilder] at h
            cases h
          | error e =>
            rw [hbuilder] at h
            obtain rfl := Except.error.inj h
            obtain ⟨hmarker, rfl⟩ := ofConfig_eq_error_iff.mp hbuilder
            exact .marker hplace hload (by simp [hcommand]) hmarker
  · intro h
    rw [Plan.make]
    cases h with
    | root hplace =>
      rw [hplace]
      rfl
    | configuration hplace hload =>
      simp only [hplace, hload, bind, Except.bind, Except.mapError]
    | command hplace hload hnone =>
      simp only [hplace, hload, bind, Except.bind, Except.mapError, hnone]
    | marker hplace hload hsome hmarker =>
      obtain ⟨command, hcommand⟩ := Option.ne_none_iff_exists'.mp hsome
      simp only [hplace, hload, bind, Except.bind, Except.mapError, hcommand,
        ofConfig_eq_error_iff.mpr ⟨hmarker, rfl⟩]

/-! ## 2. The batch of a build -/

/-- What the command leaves alone stays, however often it is run. -/
theorem Plan.Spares.node?_treeAfter {plan : Plan} {place : Location} (h : plan.Spares setting place)
    (requests : List CompileRequest) :
    (plan.compiler.treeAfter setting.runner setting.tree requests).node? place
      = setting.tree.node? place := by
  have hfold : ∀ (requests : List CompileRequest) (tree : FileTree),
      (plan.compiler.treeAfter setting.runner tree requests).node? place = tree.node? place := by
    intro requests
    induction requests with
    | nil => exact fun _ => rfl
    | cons request requests ih => exact fun tree => (ih _).trans (h tree request)
  exact hfold requests setting.tree

theorem Plan.runBatch_of_failure {plan : Plan} {changes : Changes} {f : Builder.FailedFile}
    (h : (plan.batch setting changes).failure = some f) :
    ∃ notices, plan.runBatch setting invocation changes
      = { tree := plan.treeAfterBatch setting changes, exitCode := 2,
          notices := notices ++ [.complaint (.build f.error)] } := by
  simp only [batch] at h
  simp only [runBatch, treeAfterBatch, batch, h]
  exact ⟨_, rfl⟩

/-- A batch that does not fail is written, and the status tells whether that succeeds. -/
theorem Plan.exitCode_runBatch_of_ok {plan : Plan} {changes : Changes}
    (h : (plan.batch setting changes).failure = none) :
    let written := (plan.batch setting changes).output.write plan.scope.outDir
      (plan.treeAfterBatch setting changes)
    let finish := plan.runBatch setting invocation changes
    (finish.exitCode = 0 ∧ ∃ summary, written.2 = .ok summary) ∨
      finish.exitCode = 2 ∧ ∃ cause, written.2 = .error cause := by
  simp only [batch] at h
  simp only [runBatch, treeAfterBatch, batch, h]
  split <;> rename_i hwrite
  · exact Or.inr ⟨rfl, _, congrArg Prod.snd hwrite⟩
  · exact Or.inl ⟨rfl, _, congrArg Prod.snd hwrite⟩

/-! ## 3. How a build ends -/

theorem build_of_make_error (h : Plan.make setting invocation.path out = .error complaint) :
    build setting invocation out = setting.fail complaint := by
  unfold build
  simp only [h]

theorem build_of_collect_error {plan : Plan} {cause : ProjectScope.CollectError}
    (h : Plan.make setting invocation.path out = .ok plan)
    (hc : plan.scope.collect setting.tree setting.directory = .error cause) :
    build setting invocation out = setting.fail (.collect cause) := by
  unfold build
  simp only [h, hc]

theorem build_of_collect_ok {plan : Plan} {changes : Changes}
    (h : Plan.make setting invocation.path out = .ok plan)
    (hc : plan.scope.collect setting.tree setting.directory = .ok changes) :
    build setting invocation out = plan.runBatch setting invocation changes := by
  unfold build
  simp only [h, hc]

/-- **A build that fails early** ends with the status 2 and its complaint, and leaves every place as
it was that the command leaves alone. -/
theorem build_of_failsEarly (h : FailsEarly setting invocation.path out complaint) :
    ∃ tree notices, build setting invocation out
        = { tree, exitCode := 2, notices := notices ++ [.complaint complaint] } ∧
      ∀ place, (∀ plan, Plan.make setting invocation.path out = .ok plan →
          plan.Spares setting place) →
        tree.node? place = setting.tree.node? place := by
  cases h with
  | plan hrefuses =>
    exact ⟨setting.tree, [], build_of_make_error (Plan.make_eq_error_iff.mpr hrefuses),
      fun _ _ => rfl⟩
  | collecting hplan hcollect =>
    exact ⟨setting.tree, [], build_of_collect_error hplan hcollect, fun _ _ => rfl⟩
  | batch hplan hcollect hfailure =>
    obtain ⟨notices, hrun⟩ := Plan.runBatch_of_failure hfailure
    exact ⟨_, notices, (build_of_collect_ok hplan hcollect).trans hrun,
      fun place hspares => (hspares _ hplan).node?_treeAfter _⟩

/-- Success, once the files are collected, is that of the batch and of writing its output. -/
theorem succeeds_iff {plan : Plan} {changes : Changes}
    (hplan : Plan.make setting path out = .ok plan)
    (hcollect : plan.scope.collect setting.tree setting.directory = .ok changes) :
    Succeeds setting path out ↔ (plan.batch setting changes).failure = none ∧
      ∃ summary, ((plan.batch setting changes).output.write plan.scope.outDir
        (plan.treeAfterBatch setting changes)).2 = .ok summary := by
  constructor
  · rintro ⟨plan', changes', summary, hplan', hcollect', hnone, hwrite⟩
    obtain rfl := Except.ok.inj (hplan.symm.trans hplan')
    obtain rfl := Except.ok.inj (hcollect.symm.trans hcollect')
    exact ⟨hnone, summary, hwrite⟩
  · rintro ⟨hnone, summary, hwrite⟩
    exact ⟨plan, changes, summary, hplan, hcollect, hnone, hwrite⟩

/-- **The status of a build** tells whether it succeeds. -/
theorem exitCode_build (setting : Setting) (invocation : Invocation) (out : String) :
    (build setting invocation out).exitCode = 0 ∧ Succeeds setting invocation.path out ∨
      (build setting invocation out).exitCode = 2 ∧ ¬ Succeeds setting invocation.path out := by
  cases hplan : Plan.make setting invocation.path out with
  | error complaint =>
    refine Or.inr ⟨by rw [build_of_make_error hplan]; rfl, ?_⟩
    rintro ⟨_, _, _, hplan', -⟩
    rw [hplan] at hplan'
    cases hplan'
  | ok plan =>
    cases hcollect : plan.scope.collect setting.tree setting.directory with
    | error cause =>
      refine Or.inr ⟨by rw [build_of_collect_error hplan hcollect]; rfl, ?_⟩
      rintro ⟨_, _, _, hplan', hcollect', -⟩
      obtain rfl := Except.ok.inj (hplan.symm.trans hplan')
      rw [hcollect] at hcollect'
      cases hcollect'
    | ok changes =>
      rw [build_of_collect_ok hplan hcollect, succeeds_iff hplan hcollect]
      cases hfailure : (plan.batch setting changes).failure with
      | some f =>
        obtain ⟨notices, hrun⟩ :=
          @Plan.runBatch_of_failure setting invocation plan changes f hfailure
        exact Or.inr ⟨by rw [hrun], nofun⟩
      | none =>
        rcases @Plan.exitCode_runBatch_of_ok setting invocation plan changes hfailure with
          ⟨hcode, summary, hwrite⟩ | ⟨hcode, cause, hwrite⟩
        · exact Or.inl ⟨hcode, rfl, summary, hwrite⟩
        · refine Or.inr ⟨hcode, ?_⟩
          rintro ⟨-, summary, hwrite'⟩
          rw [hwrite] at hwrite'
          cases hwrite'

end Stages

/-- **A build that fails before it writes leaves all as it was**, at every place that its compiler's
command leaves alone, so throughout the project and the directory for the output; and its status is
2. The status is 0 exactly if the build succeeds. -/
theorem build_leaves_all_on_failure (setting : Setting) (invocation : Invocation) (out : String)
    (hcommand : invocation.command = some (.build out false)) :
    let finish := perform setting invocation
    (∀ complaint, FailsEarly setting invocation.path out complaint →
      finish.exitCode = 2 ∧ finish.notices.getLast? = some (.complaint complaint) ∧
      ∀ place, (∀ plan, Plan.make setting invocation.path out = .ok plan →
          plan.Spares setting place) →
        finish.tree.node? place = setting.tree.node? place) ∧
    (finish.exitCode = 0 ↔ Succeeds setting invocation.path out) ∧
    (finish.exitCode = 0 ∨ finish.exitCode = 2) := by
  have hperform : perform setting invocation = build setting invocation out := by
    simp only [perform, hcommand]
  rw [hperform]
  constructor
  · intro complaint hfails
    obtain ⟨tree, notices, hbuild, hsame⟩ := build_of_failsEarly hfails
    rw [hbuild]
    exact ⟨rfl, List.getLast?_concat, hsame⟩
  · rcases exitCode_build setting invocation out with ⟨hcode, hsucceeds⟩ | ⟨hcode, hfails⟩
    · exact ⟨iff_of_true hcode hsucceeds, Or.inl hcode⟩
    · exact ⟨iff_of_false (by rw [hcode]; decide) hfails, Or.inr hcode⟩

/-! ## 4. A build that fails at its second file

The project has two scripts.  The command of its configuration compiles the first one, on the way
writing a file of its own outside of the project, and refuses the second one. -/

section SecondFile

open FileTree ProjectScope

/-- The files of a project with two scripts. -/
def twoScripts : FileTree :=
  .cons "p" .directory
    (.cons "a.js" (.file "x".toUTF8) .nil <| .cons "b.js" (.file "no".toUTF8) .nil <|
      .cons "jsxpipe.toml" (.file "compiler = ['c']".toUTF8) .nil .nil) .nil

/-- A command that refuses the text `no`, and notes any other one in a file beside the project. -/
def notingRunner : CommandRunner := fun tree call =>
  if String.fromUTF8? call.input = some "no" then
    (tree, .ok ⟨some 1, "".toUTF8, "refused".toUTF8, .written⟩)
  else (tree.putFile ["log"] call.input, .ok ⟨some 0, call.input, "".toUTF8, .written⟩)

/-- The program is run in the directory above the project, with this command. -/
def noting : Setting := ⟨twoScripts, "/", notingRunner, Markup.acceptsMarker, false, "?"⟩

/-- What the configuration file says. -/
def notingConfig : BuildConfig := { command := some "c" }

/-- The plan of a build into `dist`. -/
def notingPlan : Plan where
  config := notingConfig
  compiler := ⟨"c", "/p"⟩
  builder := ⟨ExternalCompiler.compiler ⟨"c", "/p"⟩ notingRunner twoScripts, notingConfig.routes,
    notingConfig.dialectMarker, notingConfig.runtimeMarker, notingConfig.featureFlag⟩
  scope := ⟨"/p", "/p/dist", some "/p/jsxpipe.toml", []⟩

/-- What is collected; the configuration file is not. -/
def notingChanges : Changes := ⟨∅, .ofList [("a.js", "x".toUTF8), ("b.js", "no".toUTF8)]⟩

/-- What is in the tree is found under its path. -/
theorem lookUp_twoScripts {place : Location} {node : Node} (h : twoScripts.node? place = some node)
    (hlink : ∀ target, node ≠ .link target) (hshort : (pathTo place).utf8ByteSize ≤ pathLimit) :
    twoScripts.lookUp (pathTo place) = .ok (place, node) :=
  lookUp_pathTo (by decide) h hlink hshort

theorem canonical_twoScripts : twoScripts.canonical "/p" = .ok ["p"] :=
  canonical_eq_ok_iff.mpr ⟨_, @lookUp_twoScripts ["p"] .directory rfl nofun (by decide)⟩

theorem nodeAt_config :
    twoScripts.nodeAt "/p/jsxpipe.toml" = .ok (.file "compiler = ['c']".toUTF8) :=
  nodeAt_eq_ok_iff.mpr ⟨_, @lookUp_twoScripts ["p", "jsxpipe.toml"] _ rfl nofun (by decide)⟩

theorem discover_twoScripts :
    BuildConfig.discover twoScripts "/p" = some "/p/jsxpipe.toml" := by
  have hpath : FilePath.join "/p" "jsxpipe.toml" = "/p/jsxpipe.toml" := by decide
  have hfile : twoScripts.isFile "/p/jsxpipe.toml" = true :=
    isFile_eq_true_iff.mpr ⟨_, nodeAt_config⟩
  rw [BuildConfig.discover, BuildConfig.candidates, List.map_cons, hpath, List.find?_cons, hfile]

theorem load_twoScripts : BuildConfig.load twoScripts "/p" = .ok (some notingConfig) := by
  have htext : twoScripts.readText "/p/jsxpipe.toml" = .ok "compiler = ['c']" := by
    rw [readText, read_eq_ok_iff.mpr nodeAt_config]
    rfl
  have hdocument : Toml.read? "compiler = ['c']" = some [("compiler", .array [.string "c"])] := by
    with_unfolding_all rfl
  have hentries :
      BuildConfig.ofEntries? [("compiler", .array [.string "c"])] = some notingConfig := rfl
  rw [BuildConfig.load, discover_twoScripts]
  simp only [htext, BuildConfig.parse, hdocument, Option.bind_some, hentries]
  rfl

theorem scope_noting :
    ProjectScope.ofTree twoScripts "/p" (FilePath.join "/p" "dist") = notingPlan.scope := by
  have hpath : FilePath.join "/p" gitignore = pathTo (["p"] ++ [".gitignore"]) := by decide
  have hout : FilePath.join "/p" "dist" = "/p/dist" := by decide
  rw [ProjectScope.ofTree, discover_twoScripts, hout, hpath,
    rulesAt_concat_of_none (by decide) (by decide) (by decide) rfl]
  rfl

theorem make_noting : Plan.make noting (some "p") "dist" = .ok notingPlan := by
  have hgiven : FilePath.join noting.directory ((some "p").getD ".") = "/p" := by decide
  have htree : noting.tree = twoScripts := rfl
  have hplace : pathTo ["p"] = "/p" := by decide
  have hbuilder : Builder.ofConfig (ExternalCompiler.compiler ⟨"c", "/p"⟩ noting.runner twoScripts)
      noting.accepts notingConfig = .ok notingPlan.builder := by
    rw [Builder.ofConfig, if_pos (by decide)]
    rfl
  have hcommand : notingConfig.command = some "c" := rfl
  rw [Plan.make, hgiven]
  simp only [htree, canonical_twoScripts, hplace, load_twoScripts, bind, Except.bind,
    Except.mapError, Option.getD_some, hcommand, hbuilder, scope_noting]
  rfl

theorem collect_noting : notingPlan.scope.collect twoScripts "/" = .ok notingChanges := by
  have hrooted : notingPlan.scope.RootedAt twoScripts ["p"] :=
    ⟨by decide, rfl, by decide, by decide⟩
  have hrules : ∀ place ∈ [[], ["p"]],
      directoryRules twoScripts "/" place = ⟨place, [], [], [], false⟩ := by
    intro place hplace
    refine directoryRules_of_none ?_ ?_ ?_ "/" <;> revert place <;> decide
  have hupward : rulesUpward twoScripts "/" ["p"]
      = [⟨["p"], [], [], [], false⟩, ⟨[], [], [], [], false⟩] := by
    rw [← hrules ["p"] (by simp), ← hrules [] (by simp)]
    rfl
  have hwhole : notingPlan.scope.wholeProject twoScripts "/" = notingChanges := by
    rw [wholeProject, hrooted.canonical]
    simp only [Except.toOption, Option.getD_some, hupward]
    rfl
  rw [hrooted.collect_eq (by decide), hwhole]
  intro e he hlink
  refine nodeAt_eq_ok_iff.mpr ⟨e.1, lookUp_twoScripts ?_ hlink ?_⟩ <;> clear hlink <;>
    revert e <;> decide

theorem failure_noting :
    (notingPlan.batch noting notingChanges).failure.map (·.file) = some "b.js" := by
  decide +kernel

/-- The command leaves alone what is in the project. -/
theorem spares_noting (rest : Location) : notingPlan.Spares noting ("p" :: rest) := by
  intro tree request
  have hrunner : noting.runner = notingRunner := rfl
  rw [hrunner, notingRunner]
  split
  · rfl
  · exact node?_change_of_ne _ _ _ (by decide) rest

/-- It fails, and nothing in the project is changed. -/
theorem build_leaves_project_noting :
    let invocation : Invocation := ⟨some (.build "dist" false), some "p", false, false⟩
    let finish := perform noting invocation
    finish.exitCode = 2 ∧
      ∀ rest, finish.tree.node? ("p" :: rest) = twoScripts.node? ("p" :: rest) := by
  intro invocation finish
  obtain ⟨f, hf, -⟩ := Option.map_eq_some_iff.mp failure_noting
  have hfails : FailsEarly noting (some "p") "dist" (.build f.error) :=
    .batch make_noting collect_noting hf
  obtain ⟨hcode, -, hsame⟩ := (build_leaves_all_on_failure noting invocation "dist" rfl).1 _ hfails
  refine ⟨hcode, fun rest => hsame _ fun plan hplan => ?_⟩
  obtain rfl := Except.ok.inj (make_noting.symm.trans hplan)
  exact spares_noting rest

end SecondFile

end ScriptWeave.CommandLine
