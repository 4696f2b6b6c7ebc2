/-
# A directory kept up to date, and one that is built anew

A project changes by one change set after another.  Each is run as a batch that begins with an empty
output map, and its output is written into the same directory (`Builder.update`).  Building
anew is one batch of the whole project, written into the directory as it was at first.

The two do not always come to the same: a change set can clash with the project (`Clash`).

**Stated here.**  After every step of a history the directory has exactly the files of a full
build, if and only if no step clashes with the project before it (`updateAll_eq_full_iff`); and a
history of two steps, in which a script has a source map at first and none later, after which the
old source map is still there (`stale_source_map`).
-/
import ScriptWeave.CommandLine.Build
import ScriptWeave.Proofs.Project.Clashes

namespace ScriptWeave

open FilePath FileTree

/-- The names in the change set are normal. -/
structure Changes.IsNormal (changes : Changes) : Prop where
  removed : ∀ k, changes.removed.contains k = true → FilePath.IsNormal k
  updated : ∀ k content, changes.updated.get? k = some content → FilePath.IsNormal k

/-- A project of normal names, as a change set. -/
theorem Changes.isNormal_ofProject {project : Project}
    (h : ∀ k content, project.get? k = some content → FilePath.IsNormal k) :
    (Changes.ofProject project).IsNormal where
  removed := fun k hr => by cases hr
  updated := h

namespace Builder

/-! ## 1. One step -/

/-- Runs a change set as a batch and writes its output below a directory: the tree that is left, if
nothing has failed. -/
def update (builder : Builder) (args : Option OptionLayer) (dir : String) (changes : Changes)
    (tree : FileTree) : Option FileTree :=
  let result := builder.run changes ∅ args []
  match result.failure, result.output.write dir tree with
  | none, (tree, .ok _) => some tree
  | _, _ => none

/-- The change sets of a history, one after another. -/
def updateAll (builder : Builder) (args : Option OptionLayer) (dir : String)
    (history : List Changes) (tree : FileTree) : Option FileTree :=
  history.foldlM (fun tree changes => builder.update args dir changes tree) tree

section Update

variable {builder : Builder} {args : Option OptionLayer} {dir : String} {changes : Changes}
  {tree tree' : FileTree}

theorem update_eq_some_iff : builder.update args dir changes tree = some tree' ↔
    (builder.run changes ∅ args []).failure = none ∧
      ∃ summary, (builder.run changes ∅ args []).output.write dir tree = (tree', .ok summary) := by
  simp only [update]
  cases (builder.run changes ∅ args []).failure with
  | some f => simp
  | none =>
    obtain ⟨written, summary⟩ := (builder.run changes ∅ args []).output.write dir tree
    cases summary <;> simp

theorem updateAll_concat (history : List Changes) (changes : Changes) :
    builder.updateAll args dir (history ++ [changes]) tree
      = (builder.updateAll args dir history tree).bind (builder.update args dir changes) := by
  simp only [updateAll, List.foldlM_append, List.foldlM_cons, List.foldlM_nil]
  cases List.foldlM (fun tree changes => builder.update args dir changes tree) tree history with
  | none => rfl
  | some tree₁ => cases h : builder.update args dir changes tree₁ <;> simp [h]

/-- **What the steps of a history keep** holds after it; a step may count on what was done before
it. -/
theorem updateAll_induction (motive : List Changes → FileTree → Prop) {history : List Changes}
    {top : FileTree} (start : motive [] top)
    (step : ∀ {done changes tree tree'}, done ++ [changes] <+: history →
      builder.updateAll args dir done top = some tree → motive done tree →
      builder.update args dir changes tree = some tree' → motive (done ++ [changes]) tree')
    (hup : builder.updateAll args dir history top = some tree) : motive history tree := by
  induction history using List.reverseRecOn generalizing tree with
  | nil =>
    obtain rfl := Option.some.inj hup
    exact start
  | append_singleton history changes ih =>
    rw [updateAll_concat] at hup
    obtain ⟨tree₁, hbefore, hstep⟩ := Option.bind_eq_some_iff.mp hup
    have h₁ := ih (fun hdone => step (hdone.trans (List.prefix_append _ _))) hbefore
    exact step List.prefix_rfl hbefore h₁ hstep

end Update

end Builder

/-- A command line that runs a batch makes such a step, if the compiler changes no file. -/
theorem CommandLine.Plan.runBatch_eq_iff (plan : Plan) (setting : Setting)
    (invocation : Invocation) (changes : Changes) (tree' : FileTree)
    (hquiet : ∀ tree call, (setting.runner tree call).1 = tree) :
    (plan.runBatch setting invocation changes).exitCode = 0 ∧
        (plan.runBatch setting invocation changes).tree = tree' ↔
      ({ plan.builder with compiler := plan.compiler.compiler setting.runner setting.tree }).update
        (some plan.config.args) plan.scope.outDir changes setting.tree = some tree' := by
  have hafter : ∀ requests : List CompileRequest,
      plan.compiler.treeAfter setting.runner setting.tree requests = setting.tree := by
    intro requests
    rw [ExternalCompiler.treeAfter]
    induction requests with
    | nil => rfl
    | cons request requests ih => rw [List.foldl_cons, hquiet, ih]
  rw [Builder.update_eq_some_iff, runBatch]
  simp only [hafter]
  split
  · rename_i f hf
    simp [hf]
  · rename_i hf
    split
    · rename_i hwrite
      simp [hf, hwrite]
    · rename_i hwrite
      simp [hf, hwrite]

namespace Builder

/-! ## 2. Histories -/

/-- What every step keeps: the tree has grown below the directory, and the files of the project have
normal names and results. -/
structure Follows (builder : Builder) (args : Option OptionLayer) (top : FileTree) (dir : String)
    (out : Location) (project : Project) (tree : FileTree) : Prop where
  grown : GrownBelow top dir out tree
  sound : builder.Sound args project
  normal : ∀ k content, project.get? k = some content → FilePath.IsNormal k

/-- The tree has the files of the project's output, each with its bytes. -/
def Agrees (builder : Builder) (args : Option OptionLayer) (out : Location) (project : Project)
    (tree : FileTree) : Prop :=
  ∀ k, FilePath.IsNormal k → ∀ bytes,
    tree.held out k = some (.bytes bytes) ↔ builder.Shows args project k bytes

section History

variable {builder : Builder} {args : Option OptionLayer} {top tree tree' : FileTree} {dir : String}
  {out : Location} {project : Project} {changes : Changes} {k : String}

/-- Two trees with the same files under all normal names have the same files. -/
theorem fileAt_eq_of_held_eq (h : GrownBelow top dir out tree) (h' : GrownBelow top dir out tree')
    (heq : ∀ k, FilePath.IsNormal k → tree.held out k = tree'.held out k) (rest : Location) :
    tree.fileAt (out ++ rest) = tree'.fileAt (out ++ rest) := by
  by_cases hname : ∃ name, FilePath.IsNormal name ∧ rest = piecesOf name
  · obtain ⟨name, hnormal, rfl⟩ := hname
    exact heq name hnormal
  · have hnone : ∀ {t : FileTree}, GrownBelow top dir out t → t.fileAt (out ++ rest) = none := by
      intro t ht
      cases hfile : t.fileAt (out ++ rest) with
      | none => rfl
      | some content =>
        obtain ⟨name, -, -, hfits, hrest⟩ := ht.files rest content (fileAt_eq_some_iff.mp hfile)
        exact absurd ⟨name, hfits.normal, hrest⟩ hname
    rw [hnone h, hnone h']

theorem held_ne_barred (h : GrownBelow top dir out tree) (k : String) (cause : StorageError) :
    tree.held out k ≠ some (.barred cause) :=
  fun hheld => h.node?_ne_barred _ cause (fileAt_eq_some_iff.mp hheld)

/-- A clash is under a normal name. -/
theorem Clash.isNormal (hproject : ∀ k content, project.get? k = some content →
      FilePath.IsNormal k) (hchanges : changes.IsNormal)
    (h : builder.Clash args project changes k) : FilePath.IsNormal k := by
  cases h with
  | overwritten hp => exact hproject k _ hp
  | deleted hp => exact hproject k _ hp
  | uncovered hr => exact hchanges.removed k hr
  | outdated _ _ heq hm =>
    obtain ⟨content, hget, -⟩ := hm
    exact heq ▸ isNormal_sourceMapName (hproject _ content hget)
  | abandoned _ _ heq hm =>
    obtain ⟨content, hget, -⟩ := hm
    exact heq ▸ isNormal_sourceMapName (hproject _ content hget)

/-- Where there was nothing, there is nothing to clash with. -/
theorem not_clash_of_empty : ¬ builder.Clash args ∅ changes k := by
  intro h
  cases h with
  | overwritten hp => cases hp
  | deleted hp => cases hp
  | uncovered _ _ _ hm =>
    obtain ⟨content, hget, -⟩ := hm
    cases hget
  | outdated _ _ _ hm =>
    obtain ⟨content, hget, -⟩ := hm
    cases hget
  | abandoned _ _ _ hm =>
    obtain ⟨content, hget, -⟩ := hm
    cases hget

theorem follows_of_isEmptyAt (hempty : top.IsEmptyAt dir out) :
    builder.Follows args top dir out ∅ top where
  grown := hempty.grownBelow
  sound := fun k content hget => by cases hget
  normal := fun k content hget => by cases hget

/-- The empty directory is the output of the empty project. -/
theorem agrees_of_isEmptyAt (hempty : top.IsEmptyAt dir out) : builder.Agrees args out ∅ top := by
  intro k hk bytes
  rw [held, fileAt, hempty.nothing _ (piecesOf_ne_nil hk), shows_iff_of_no_file (by rfl)]
  constructor
  · intro hnone
    cases hnone
  · rintro ⟨f, map, ⟨content, hget, -⟩, -⟩
    cases hget

variable (hpure : builder.compiler.Memoryless) (hempty : top.IsEmptyAt dir out)

include hpure in
/-- Every entry in the output of a batch is under a normal name. -/
theorem isNormal_of_output (hchanges : changes.IsNormal)
    (hok : (builder.run changes ∅ args []).failure = none) {entry : Artifact}
    (hget : (builder.run changes ∅ args []).output.get? k = some entry) :
    FilePath.IsNormal k := by
  have hvisited : ∀ f content, changes.visited.get? f = some content → FilePath.IsNormal f :=
    fun f content hf => hchanges.updated f content (Changes.get?_visited_eq_some_iff.mp hf).1
  rcases output_cases hpure hok k with ⟨content, -, hv, -⟩ | ⟨-, f, map, ⟨content, hf, -⟩, rfl, -⟩ |
    ⟨-, -, hnone⟩
  · exact hvisited k content hv
  · exact isNormal_sourceMapName (hvisited f content hf)
  · rw [hget] at hnone
    split at hnone
    · exact hchanges.removed k ‹_›
    · cases hnone

include hpure hempty

/-- **What one step does.** -/
theorem Follows.update_spec (h : builder.Follows args top dir out project tree)
    (hchanges : changes.IsNormal) (hup : builder.update args dir changes tree = some tree') :
    builder.Follows args top dir out (changes.applyTo project) tree' ∧
      (builder.run changes ∅ args []).failure = none ∧
      ∀ k, FilePath.IsNormal k → (builder.run changes ∅ args []).output.Carries k
        (tree.held out k) (tree'.held out k) := by
  obtain ⟨hok, summary, hwrite⟩ := update_eq_some_iff.mp hup
  obtain ⟨hgrown, hcarries⟩ := Artifacts.write_spec hempty h.grown
    (fun k e hget => isNormal_of_output hpure hchanges hok hget) hwrite
  refine ⟨⟨hgrown, fun k content hget => ?_, fun k content hget => ?_⟩, hok, hcarries⟩
  · rcases Changes.get?_applyTo_eq_some_iff.mp hget with hv | ⟨-, hp⟩
    · exact sound_of_success hpure hok k content hv
    · exact h.sound k content hp
  · rcases Changes.get?_applyTo_eq_some_iff.mp hget with hv | ⟨-, hp⟩
    · exact hchanges.updated k content (Changes.get?_visited_eq_some_iff.mp hv).1
    · exact h.normal k content hp

/-- **A step keeps the directory up to date exactly if it does not clash.** -/
theorem Follows.agrees_update_iff (h : builder.Follows args top dir out project tree)
    (hagrees : builder.Agrees args out project tree) (hchanges : changes.IsNormal)
    (hup : builder.update args dir changes tree = some tree') :
    builder.Agrees args out (changes.applyTo project) tree' ↔
      ∀ k, ¬ builder.Clash args project changes k := by
  obtain ⟨-, hok, hcarries⟩ := h.update_spec hpure hempty hchanges hup
  constructor
  · intro hagrees' k hclash
    have hk := hclash.isNormal h.normal hchanges
    exact not_shows_of_clash hpure hok h.sound (hcarries k hk) (hagrees k hk) hclash (hagrees' k hk)
  · intro hno k hk
    exact shows_of_not_clash hpure hok (hcarries k hk) (hagrees k hk) (hno k)

/-- A full build that succeeds leaves the output of the project. -/
theorem Follows.agrees_full (h : builder.Follows args top dir out project tree) {full : FileTree}
    (hup : builder.update args dir (.ofProject project) top = some full) :
    GrownBelow top dir out full ∧ builder.Agrees args out project full := by
  have hchanges := Changes.isNormal_ofProject h.normal
  have hfollows : builder.Follows args top dir out ∅ top := follows_of_isEmptyAt hempty
  obtain ⟨hfull, -, -⟩ := hfollows.update_spec hpure hempty hchanges hup
  have hagrees := (hfollows.agrees_update_iff hpure hempty (agrees_of_isEmptyAt hempty) hchanges
    hup).mpr fun k => not_clash_of_empty
  rw [Changes.applyTo_ofProject] at hagrees
  exact ⟨hfull.grown, hagrees⟩

/-- A full build succeeds if there is a directory with its output. -/
theorem Follows.exists_full (h : builder.Follows args top dir out project tree)
    (hagrees : builder.Agrees args out project tree) :
    ∃ full, builder.update args dir (.ofProject project) top = some full := by
  have hget : ∀ k, (Changes.ofProject project).visited.get? k = project.get? k :=
    fun _ => Changes.get?_visited_ofProject
  have hok : (builder.run (.ofProject project) ∅ args []).failure = none := by
    refine failure_eq_none_of_sound hpure (fun k content hk => ?_) ∅
    exact h.sound k content ((hget k).symm.trans hk)
  have hheld : ∀ k bytes, FilePath.IsNormal k → builder.Shows args project k bytes →
      tree.held out k ≠ none := fun k bytes hk hs => by
    rw [(hagrees k hk bytes).mpr hs]
    simp
  have houtput : ∀ k e, (builder.run (.ofProject project) ∅ args []).output.get? k = some e →
      FilePath.IsNormal k ∧ e ≠ .tombstone ∧ tree.held out k ≠ none := by
    intro k e he
    rcases output_cases hpure hok k with ⟨content, bytes, hv, hd, hout⟩ |
      ⟨hv, f, map, ⟨content, hf, hm⟩, heq, hout⟩ | ⟨-, -, hout⟩
    · rw [hget] at hv
      rw [hout] at he
      have hk := h.normal k content hv
      exact ⟨hk, by rw [← Option.some.inj he]; simp, hheld k bytes hk (.own hv hd)⟩
    · rw [hget] at hv hf
      rw [hout] at he
      have hk := isNormal_sourceMapName (h.normal f content hf)
      rw [heq] at hk
      exact ⟨hk, by rw [← Option.some.inj he]; simp,
        hheld k _ hk (.sourceMap hv ⟨content, hf, hm⟩ heq)⟩
    · rw [hout] at he
      cases he
  obtain ⟨full, summary, hwrite⟩ := Artifacts.write_ok hempty h.grown houtput
  exact ⟨full, update_eq_some_iff.mpr ⟨hok, summary, hwrite⟩⟩

/-- The directory has the output of the project exactly if a full build succeeds and leaves the same
files. -/
theorem Follows.agrees_iff_full (h : builder.Follows args top dir out project tree) :
    builder.Agrees args out project tree ↔
      ∃ full, builder.update args dir (.ofProject project) top = some full ∧
        ∀ rest, tree.fileAt (out ++ rest) = full.fileAt (out ++ rest) := by
  constructor
  · intro hagrees
    obtain ⟨full, hup⟩ := h.exists_full hpure hempty hagrees
    obtain ⟨hgrown, hfull⟩ := h.agrees_full hpure hempty hup
    refine ⟨full, hup, fileAt_eq_of_held_eq h.grown hgrown fun k hk => ?_⟩
    refine Option.ext fun content => ?_
    cases content with
    | bytes bytes => rw [hagrees k hk, hfull k hk]
    | barred cause =>
      exact iff_of_false (held_ne_barred h.grown k cause) (held_ne_barred hgrown k cause)
  · rintro ⟨full, hup, hsame⟩ k hk bytes
    obtain ⟨-, hfull⟩ := h.agrees_full hpure hempty hup
    rw [held, hsame]
    exact hfull k hk bytes

/-- A history that succeeds keeps what every step keeps. -/
theorem follows_updateAll (history : List Changes) (hnames : ∀ c ∈ history, c.IsNormal)
    (hup : builder.updateAll args dir history top = some tree) :
    builder.Follows args top dir out (Changes.projectAfter history) tree := by
  refine updateAll_induction (fun done tree =>
    builder.Follows args top dir out (Changes.projectAfter done) tree)
    (follows_of_isEmptyAt hempty) (fun {done changes _ _} hdone _ h hstep => ?_) hup
  rw [Changes.projectAfter_concat]
  exact (h.update_spec hpure hempty (hnames changes (hdone.subset (by simp))) hstep).1

/-- A history that succeeds and in which no step clashes leaves the output of its project. -/
theorem agrees_updateAll (history : List Changes) (hnames : ∀ c ∈ history, c.IsNormal)
    (hno : ∀ done changes, done ++ [changes] <+: history →
      ∀ k, ¬ builder.Clash args (Changes.projectAfter done) changes k)
    (hup : builder.updateAll args dir history top = some tree) :
    builder.Agrees args out (Changes.projectAfter history) tree := by
  refine updateAll_induction (fun done tree =>
    builder.Agrees args out (Changes.projectAfter done) tree)
    (agrees_of_isEmptyAt hempty) (fun {done changes _ _} hdone hbefore h hstep => ?_) hup
  have hfollows := follows_updateAll hpure hempty done
    (fun c hc => hnames c (hdone.subset (List.mem_append_left _ hc))) hbefore
  rw [Changes.projectAfter_concat]
  exact (hfollows.agrees_update_iff hpure hempty h (hnames changes (hdone.subset (by simp)))
    hstep).mpr (hno done changes hdone)

end History

/-- The steps of a history that succeeds have all succeeded. -/
theorem exists_updateAll_of_isPrefix {builder : Builder} {args : Option OptionLayer} {dir : String}
    {history done : List Changes} {top : FileTree} (hdone : done <+: history)
    (hok : (builder.updateAll args dir history top).isSome = true) :
    ∃ tree, builder.updateAll args dir done top = some tree := by
  obtain ⟨rest, rfl⟩ := hdone
  rw [updateAll, List.foldlM_append] at hok
  cases h : builder.updateAll args dir done top with
  | some tree => exact ⟨tree, rfl⟩
  | none =>
    rw [updateAll] at h
    rw [h] at hok
    cases hok

/-- **A directory kept up to date has the files of a full build**, after every step of a history,
exactly if no step of the history clashes with the project before it.  The compiler is one
without a memory, the directory is empty at first, and all steps succeed. -/
theorem updateAll_eq_full_iff {builder : Builder} {args : Option OptionLayer} {dir : String}
    {out : Location} {top : FileTree} {history : List Changes}
    (hpure : builder.compiler.Memoryless) (hempty : top.IsEmptyAt dir out)
    (hnames : ∀ c ∈ history, c.IsNormal)
    (hok : (builder.updateAll args dir history top).isSome = true) :
    (∀ done, done <+: history → ∃ tree full,
        builder.updateAll args dir done top = some tree ∧
        builder.update args dir (.ofProject (Changes.projectAfter done)) top = some full ∧
        ∀ rest, tree.fileAt (out ++ rest) = full.fileAt (out ++ rest)) ↔
      ∀ done changes, done ++ [changes] <+: history →
        ∀ k, ¬ builder.Clash args (Changes.projectAfter done) changes k := by
  have hfollows : ∀ {done tree}, done <+: history →
      builder.updateAll args dir done top = some tree →
      builder.Follows args top dir out (Changes.projectAfter done) tree := fun hdone hup =>
    follows_updateAll hpure hempty _ (fun c hc => hnames c (hdone.subset hc)) hup
  constructor
  · intro hfull done changes hdone
    have hbefore := (List.prefix_append done [changes]).trans hdone
    obtain ⟨tree, full, hup, hbuilt, hsame⟩ := hfull done hbefore
    obtain ⟨tree', full', hup', hbuilt', hsame'⟩ := hfull _ hdone
    have h := hfollows hbefore hup
    have hagrees := (h.agrees_iff_full hpure hempty).mpr ⟨full, hbuilt, hsame⟩
    have hagrees' := ((hfollows hdone hup').agrees_iff_full hpure hempty).mpr
      ⟨full', hbuilt', hsame'⟩
    rw [updateAll_concat, hup, Option.bind_some] at hup'
    rw [Changes.projectAfter_concat] at hagrees'
    exact (h.agrees_update_iff hpure hempty hagrees (hnames changes (hdone.subset (by simp)))
      hup').mp hagrees'
  · intro hno done hdone
    obtain ⟨tree, hup⟩ := exists_updateAll_of_isPrefix hdone hok
    have hagrees := agrees_updateAll hpure hempty done (fun c hc => hnames c (hdone.subset hc))
      (fun before changes hbefore => hno before changes (hbefore.trans hdone)) hup
    obtain ⟨full, hbuilt, hsame⟩ := ((hfollows hdone hup).agrees_iff_full hpure hempty).mp hagrees
    exact ⟨tree, full, hup, hbuilt, hsame⟩

/-! ## 3. A source map that stays -/

/-- A builder whose compiler makes a source map for the script `x` only. -/
def mappingX : Builder where
  compiler := Compiler.pure fun r =>
    .ok { code := r.source, sourceMap := if r.source = "x" then some (.object []) else none }
  routes := ⟨["html".toList], ["js".toList]⟩
  dialectMarker := "text/jsx"
  runtimeMarker := "text/javascript"
  featureFlag := "jsx"

/-- One script is added with a source map, and then changed to have none. -/
def mapThenNone : List Changes :=
  [.ofProject (.ofList [("a.js", "x".toUTF8)]), .ofProject (.ofList [("a.js", "y".toUTF8)])]

/-- The directory `dist` with what is inside, and nothing else. -/
def dist (within : FileTree) : FileTree := .cons "dist" .directory within .nil

section Dist

variable {within within' : FileTree}

theorem reach_dist (last : LastLink) :
    (dist within).reach last "dist" = .ok ⟨[], some "dist", false⟩ := by
  have hpieces : piecesOf "dist" = ["dist"] := by decide +kernel
  rw [reach, if_neg (by decide), if_neg (by decide), if_neg (by decide), hpieces, follow,
    if_neg (by decide), if_neg (by decide), if_neg (by decide)]
  rfl

theorem leads_dist :
    Leads (dist within) linkLimit [] (piecesOf "dist") linkLimit [("dist", within)] := by
  have hpieces : piecesOf "dist" = ["dist"] := by decide +kernel
  rw [hpieces]
  exact .directory (by decide) (by decide) (by decide) rfl .here

/-- A file is written right into the directory. -/
theorem writeDeep_dist (name : String) {path : String}
    (hpath : parent? path = some "dist" ∧ Passable path ∧
      piecesOf path = piecesOf "dist" ++ [name] ∧ endsInSlash path = false ∧
      name ≠ "." ∧ name ≠ ".." ∧ name.utf8ByteSize ≤ nameLimit)
    (hfiles : ∀ e, within.find? name = some e → ∃ old, e.1 = .file (.bytes old))
    (bytes : ByteArray)
    (hinsert : within.insert name (.file bytes) (((within.find? name).map (·.2)).getD .nil)
      = within') : (dist within).writeDeep path bytes = (dist within', .ok ()) := by
  subst hinsert
  obtain ⟨hparent, hpass, hpieces, hslash, h₁, h₂, hshort⟩ := hpath
  exact writeDeep_of_leads hparent (by decide +kernel) hpass hpieces hslash h₁ h₂ hshort leads_dist
    hfiles bytes

/-- The script is written into the empty directory. -/
theorem writeDeep_script (bytes : ByteArray) :
    (dist .nil).writeDeep (FilePath.join "dist" "a.js") bytes
      = (dist (.cons "a.js" (.file bytes) .nil .nil), .ok ()) :=
  writeDeep_dist "a.js" (by decide +kernel) (by simp [find?]) bytes rfl

/-- Its source map is written beside it. -/
theorem writeDeep_map (old bytes : ByteArray) :
    (dist (.cons "a.js" (.file old) .nil .nil)).writeDeep (FilePath.join "dist" "a.js.map") bytes
      = (dist (.cons "a.js" (.file old) .nil (.cons "a.js.map" (.file bytes) .nil .nil)),
        .ok ()) :=
  writeDeep_dist "a.js.map" (by decide +kernel) (by simp [find?]) bytes rfl

/-- The script is written again, and its source map stays as it is. -/
theorem writeDeep_again (old map bytes : ByteArray) :
    (dist (.cons "a.js" (.file old) .nil (.cons "a.js.map" (.file map) .nil .nil))).writeDeep
        (FilePath.join "dist" "a.js") bytes
      = (dist (.cons "a.js" (.file bytes) .nil (.cons "a.js.map" (.file map) .nil .nil)),
        .ok ()) :=
  writeDeep_dist "a.js" (by decide +kernel) (by simp [find?]) bytes rfl

end Dist

/-- The steps of `mapThenNone`, and the full build of the project after them. -/
theorem update_mapThenNone :
    mappingX.updateAll none "dist" mapThenNone (dist .nil) = some (dist (.cons "a.js"
        (.file "y".toUTF8) .nil (.cons "a.js.map" (.file "{}".toUTF8) .nil .nil))) ∧
      mappingX.update none "dist" (.ofProject (Changes.projectAfter mapThenNone)) (dist .nil)
        = some (dist (.cons "a.js" (.file "y".toUTF8) .nil .nil)) := by
  have hfirst : mappingX.update none "dist" (.ofProject (.ofList [("a.js", "x".toUTF8)]))
      (dist .nil) = some (dist (.cons "a.js" (.file "x".toUTF8) .nil
        (.cons "a.js.map" (.file "{}".toUTF8) .nil .nil))) := by
    have hentries : (mappingX.run (.ofProject (.ofList [("a.js", "x".toUTF8)])) ∅ none
        []).output.entries
          = [("a.js", .content "x".toUTF8), ("a.js.map", .content "{}".toUTF8)] := by
      decide +kernel
    refine update_eq_some_iff.mpr ⟨by decide +kernel, ⟨2, 0⟩, ?_⟩
    rw [Artifacts.write, hentries]
    simp only [Artifacts.writeEntries, Artifacts.writeEntry_content, writeDeep_script,
      writeDeep_map]
  have hentries : (mappingX.run (.ofProject (.ofList [("a.js", "y".toUTF8)])) ∅ none
      []).output.entries = [("a.js", .content "y".toUTF8)] := by decide +kernel
  have hok : (mappingX.run (.ofProject (.ofList [("a.js", "y".toUTF8)])) ∅ none
      []).failure = none := by decide +kernel
  have hproject : Changes.projectAfter mapThenNone = .ofList [("a.js", "y".toUTF8)] :=
    SortedMap.ext_entries (by decide +kernel)
  constructor
  · rw [updateAll, mapThenNone, List.foldlM_cons, hfirst]
    refine (bind_pure _).trans (update_eq_some_iff.mpr ⟨hok, ⟨1, 0⟩, ?_⟩)
    rw [Artifacts.write, hentries]
    simp only [Artifacts.writeEntries, Artifacts.writeEntry_content, writeDeep_again]
  · rw [hproject]
    refine update_eq_some_iff.mpr ⟨hok, ⟨1, 0⟩, ?_⟩
    rw [Artifacts.write, hentries]
    simp only [Artifacts.writeEntries, Artifacts.writeEntry_content, writeDeep_script]

theorem isEmptyAt_dist : (dist .nil).IsEmptyAt "dist" ["dist"] where
  leads := lookUp_eq_ok_directory_iff.mpr ⟨_, reach_dist _, rfl, rfl⟩
  nothing := fun rest hrest => by
    rw [List.singleton_append, node?_cons_of_ne_nil _ _ hrest]
    exact node?_of_nil hrest
  shortLinks := fun place name target hlink => by
    by_cases hplace : place = []
    · subst hplace
      simp only [dist, List.nil_append, node?, find?] at hlink
      split at hlink <;> cases hlink
    · obtain ⟨first, rest, rfl⟩ := List.exists_cons_of_ne_nil hplace
      rw [List.cons_append, node?_cons_of_ne_nil _ _ (by simp), dist, find?] at hlink
      split at hlink
      · simp [node?_of_nil] at hlink
      · cases hlink

theorem isNormal_mapThenNone : ∀ c ∈ mapThenNone, c.IsNormal := by
  have hone : ∀ content, (Changes.ofProject (.ofList [("a.js", content)])).IsNormal := by
    refine fun content => Changes.isNormal_ofProject fun k bytes hget => ?_
    have hmem : (k, bytes) ∈ [("a.js", content)] := SortedMap.get?_eq_some_iff.mp hget
    rw [(Prod.mk.inj (List.mem_singleton.mp hmem)).1]
    decide
  intro c hc
  rcases List.mem_cons.mp hc with rfl | hc
  · exact hone _
  · rw [List.mem_singleton.mp hc]
    exact hone _

/-- **A source map that the script has no more stays** in the directory, and a full build has no
such file. -/
theorem stale_source_map : mappingX.compiler.Memoryless ∧ (dist .nil).IsEmptyAt "dist" ["dist"] ∧
    (∀ c ∈ mapThenNone, c.IsNormal) ∧ ∃ tree full,
      mappingX.updateAll none "dist" mapThenNone (dist .nil) = some tree ∧
      mappingX.update none "dist" (.ofProject (Changes.projectAfter mapThenNone)) (dist .nil)
        = some full ∧
      tree.fileAt ["dist", "a.js.map"] = some "{}".toUTF8 ∧
      full.fileAt ["dist", "a.js.map"] = none := by
  obtain ⟨hup, hfull⟩ := update_mapThenNone
  exact ⟨Compiler.memoryless_pure _, isEmptyAt_dist, isNormal_mapThenNone,
    _, _, hup, hfull, rfl, rfl⟩

/-- A step of `mapThenNone` clashes, as the full build shows. -/
theorem exists_clash_of_mapThenNone : ¬ ∀ done changes, done ++ [changes] <+: mapThenNone →
    ∀ k, ¬ mappingX.Clash none (Changes.projectAfter done) changes k := by
  obtain ⟨hup, hfull⟩ := update_mapThenNone
  have hiff := updateAll_eq_full_iff (Compiler.memoryless_pure _) isEmptyAt_dist
    isNormal_mapThenNone (by rw [hup]; rfl)
  rw [← hiff]
  intro hall
  obtain ⟨tree, full, hup', hfull', hsame⟩ := hall mapThenNone List.prefix_rfl
  obtain rfl := Option.some.inj (hup.symm.trans hup')
  obtain rfl := Option.some.inj (hfull.symm.trans hfull')
  cases hsame ["a.js.map"]

end Builder
end ScriptWeave
