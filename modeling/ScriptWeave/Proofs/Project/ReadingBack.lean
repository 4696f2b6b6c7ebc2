/-
# Whether a build reads what a build has written

A build collects the files of a project and writes its output, which may be inside the project.
What keeps the next build from collecting that output is the scope: a path is excluded that is, as
it is written, below the output directory.  But a file is found by its location and written along a
path, and the two agree only where the path is spelled out.

**Stated here.**  Where the rules are kept, the second build of a project collects what the first
one did, and none of the files that were written, if each of these is at a location that the scope
excludes or the ignore files hide (`readsNothingBack_of_passesBy`), and only then
(`ReadsNothingBack.passesBy`).  All of them are where the path of the output directory is spelled
out (`Stands.passesBy_of_spelledOut`).
-/
import ScriptWeave.Proofs.Project.Landing

namespace ScriptWeave

open FilePath FileTree

/-! ## 1. A build of a project -/

/-- A build of the project at a location into a directory, given relative to the project's root, by
a program that is in the directory `current`. -/
structure ProjectBuild where
  builder : Builder
  args : Option OptionLayer
  base : Location
  out : String
  current : String

namespace ProjectBuild

open ProjectScope

variable (b : ProjectBuild) (tree tree' : FileTree)

/-- The path of the output directory. -/
def outDir : String := FilePath.join (pathTo b.base) b.out

/-- What belongs to the project, as the tree is now. -/
def scope : ProjectScope := .ofTree tree (pathTo b.base) b.outDir

/-- The change set that the build collects. -/
def sources : Changes := (b.scope tree).wholeProject tree b.current

/-- What is made of it. -/
def output : Artifacts := (b.builder.run (b.sources tree) ∅ b.args []).output

/-- The tree after the build, if it succeeds. -/
def run : Option FileTree := b.builder.update b.args b.outDir (b.sources tree) tree

/-- The project is at a directory of a tree in order. -/
structure Stands : Prop where
  tidy : tree.IsTidy
  directory : tree.node? b.base = some .directory
  short : (pathTo b.base).utf8ByteSize ≤ pathLimit

/-- After the build, the path of one of the files written leads to this place. -/
def WritesAt (place : Location) : Prop :=
  ∃ key bytes, (b.output tree).get? key = some (.content bytes) ∧
    tree'.canonical (FilePath.join b.outDir key) = .ok place

/-- The configuration file and the rules are the same after the build, for every directory that was
there and is not, as its path is written, in the output directory. -/
structure KeepsRules : Prop where
  scope : b.scope tree' = b.scope tree
  directories : ∀ place, tree.node? place = some .directory →
    startsWith (components (pathTo place).toList) (components b.outDir.toList) = false →
    directoryRules tree' b.current place = directoryRules tree b.current place

/-- What the names lead to is excluded, or hidden by the ignore files. -/
def PassesBy (names : Location) : Prop :=
  (b.scope tree).excludes (pathTo (b.base ++ names)) = true ∨
    admits tree b.current (rulesUpward tree b.current b.base) b.base names = false

/-- The next build collects what this one did, and nothing that was written. -/
structure ReadsNothingBack : Prop where
  same : b.sources tree' = b.sources tree
  unread : ∀ names, b.WritesAt tree tree' (b.base ++ names) →
    (b.sources tree').updated.get? (String.intercalate "/" names) = none

end ProjectBuild

/-- The scope of a plan is that of the project at the canonical location of the path given. -/
theorem CommandLine.Plan.exists_of_make {setting : Setting} {path : Option String} {out : String}
    {plan : Plan} (hplan : Plan.make setting path out = .ok plan) :
    ∃ base, setting.tree.canonical (FilePath.join setting.directory (path.getD ".")) = .ok base ∧
      plan.scope = .ofTree setting.tree (pathTo base) (FilePath.join (pathTo base) out) := by
  rw [Plan.make] at hplan
  cases hplace : setting.tree.canonical (FilePath.join setting.directory (path.getD ".")) with
  | error e =>
    rw [hplace] at hplan
    cases hplan
  | ok base =>
    refine ⟨base, rfl, ?_⟩
    rw [hplace] at hplan
    cases hload : BuildConfig.load setting.tree (pathTo base) with
    | error e =>
      simp only [hload, bind, Except.bind, Except.mapError] at hplan
      cases hplan
    | ok config =>
      simp only [hload, bind, Except.bind, Except.mapError] at hplan
      split at hplan
      · cases hplan
      · rename_i command _
        cases hbuilder : Builder.ofConfig (ExternalCompiler.compiler ⟨command, pathTo base⟩
            setting.runner setting.tree) setting.accepts (config.getD {}) with
        | error e =>
          rw [hbuilder] at hplan
          cases hplan
        | ok builder =>
          rw [hbuilder] at hplan
          obtain rfl := Except.ok.inj hplan
          rfl

/-- A command line that runs `build` makes such a build, if all can be collected and the compiler
changes no file. -/
theorem CommandLine.build_eq_iff {setting : Setting} {invocation : Invocation} {out : String}
    {plan : Plan} (hplan : Plan.make setting invocation.path out = .ok plan)
    (hcollected : (plan.scope.collect setting.tree setting.directory).isOk = true)
    (hquiet : ∀ tree call, (setting.runner tree call).1 = tree) :
    ∃ base, setting.tree.canonical (FilePath.join setting.directory (invocation.path.getD "."))
        = .ok base ∧
      ∀ tree' : FileTree, (build setting invocation out).exitCode = 0 ∧
          (build setting invocation out).tree = tree' ↔
        ProjectBuild.run ⟨{ plan.builder with
            compiler := plan.compiler.compiler setting.runner setting.tree },
          some plan.config.args, base, out, setting.directory⟩ setting.tree = some tree' := by
  obtain ⟨base, hplace, hscope⟩ := Plan.exists_of_make hplan
  refine ⟨base, hplace, fun tree' => ?_⟩
  have hbuild : build setting invocation out = plan.runBatch setting invocation
      (plan.scope.wholeProject setting.tree setting.directory) := by
    unfold build
    simp only [hplan, ProjectScope.collect_eq_ok_iff.mpr ⟨hcollected, rfl⟩]
  rw [hbuild, Plan.runBatch_eq_iff plan setting invocation _ tree' hquiet, hscope]
  rfl

namespace ProjectBuild

open ProjectScope

section Building

variable {b : ProjectBuild} {tree tree' : FileTree} {names : Location} {content : ByteArray}

/-! ## 2. What stays the same -/

theorem Stands.rootedAt (h : b.Stands tree) : (b.scope tree).RootedAt tree b.base where
  disk := h.tidy.isDisk
  directory := h.directory
  root := rfl
  short := h.short

theorem Stands.of_growth (h : b.Stands tree) (hgrowth : Growth tree tree') : b.Stands tree' where
  tidy := hgrowth.isTidy h.tidy
  directory := hgrowth.keepsWays _ _ h.directory nofun
  short := h.short

/-- **What a build does to the tree.** -/
theorem Stands.landed (h : b.Stands tree) (hrun : b.run tree = some tree') :
    Artifacts.Landed b.outDir (b.output tree).entries tree tree' :=
  Builder.landed_of_update h.tidy.plainLinks rfl hrun

/-- Steps are admitted by the rules of the directories on the way. -/
theorem admits_congr {current : String} {base : Location} {chain : List DirectoryRules}
    (h : ∀ above rest, names = above ++ rest → above ≠ [] → rest ≠ [] →
      directoryRules tree' current (base ++ above) = directoryRules tree current (base ++ above)) :
    admits tree' current chain base names = admits tree current chain base names := by
  induction names generalizing base chain with
  | nil => rfl
  | cons name rest ih =>
    rw [admits, admits]
    by_cases hrest : rest = []
    · rw [hrest]
      rfl
    · have hentry := h [name] rest rfl (List.cons_ne_nil name []) hrest
      rw [hentry]
      congr 1
      refine ih fun above more heq habove hmore => ?_
      have hthere := h (name :: above) more (by rw [heq]; rfl) (by simp) hmore
      simpa using hthere

/-- The rules on the way to a file that is not in the output directory are the same after the
build. -/
theorem KeepsRules.admits_eq (h : b.KeepsRules tree tree') (hstands : b.Stands tree)
    (hfile : tree.node? (b.base ++ names) = some (.file content))
    (hkept : (b.scope tree).excludes (pathTo (b.base ++ names)) = false) :
    admits tree' b.current (rulesUpward tree' b.current b.base) b.base names
      = admits tree b.current (rulesUpward tree b.current b.base) b.base names := by
  have hrooted := hstands.rootedAt
  have hnames : ∀ n ∈ b.base ++ names, (Component.name n).IsStep := fun n hn =>
    (hrooted.disk.isName_of_mem (by rw [hfile]; simp) n hn).step
  obtain ⟨hout, -, -⟩ := kept_of_excludes_eq_false hkept (hrooted.root ▸ relative?_pathTo hnames)
  have hrules : ∀ place rest, b.base ++ names = place ++ rest → rest ≠ [] →
      directoryRules tree' b.current place = directoryRules tree b.current place := by
    intro place rest heq hrest
    refine h.directories place (hrooted.disk.directory_of_append hrest ?_) ?_
    · rw [← heq, hfile]
      simp
    · -- what is below the output directory stays below it
      by_contra hin
      rw [Bool.not_eq_false] at hin
      have hbelow : startsWith (components (pathTo place).toList ++ rest.map .name)
          (components b.outDir.toList) = true := startsWith_append hin
      rw [heq] at hnames hout
      rw [components_pathTo fun n hn => hnames n (List.mem_append_left _ hn), List.cons_append,
        ← List.map_append, ← components_pathTo hnames] at hbelow
      exact absurd (hbelow.symm.trans hout) nofun
  have hne : names ≠ [] := by
    rintro rfl
    rw [List.append_nil, hstands.directory] at hfile
    cases hfile
  have hupward : rulesUpward tree' b.current b.base = rulesUpward tree b.current b.base := by
    refine List.map_congr_left fun n _ => ?_
    refine hrules (b.base.take n) (b.base.drop n ++ names) ?_ (by simp [hne])
    rw [← List.append_assoc, List.take_append_drop]
  rw [hupward]
  refine admits_congr fun above rest heq _ hrest => ?_
  exact hrules (b.base ++ above) rest (by rw [heq, List.append_assoc]) hrest

/-! ## 3. What is collected -/

/-- A file that was written is a file. -/
theorem Stands.exists_file (h : b.Stands tree) (hrun : b.run tree = some tree')
    {place : Location} (hwrites : b.WritesAt tree tree' place) :
    ∃ content, tree'.node? place = some (.file (.bytes content)) := by
  obtain ⟨key, bytes, hget, hplace⟩ := hwrites
  obtain ⟨content, hlook⟩ :=
    (h.landed hrun).exists_file .refl (SortedMap.get?_eq_some_iff.mp hget) hplace
  obtain ⟨d, hd, hnode, -, rfl⟩ := lookUp_eq_ok_iff.mp hlook
  exact ⟨content, node?_place_of_node? (of_reach hd) hnode⟩

/-- Where nothing was written all stays. -/
theorem Stands.stays (h : b.Stands tree) (hrun : b.run tree = some tree') {place : Location}
    (hwrites : ¬ b.WritesAt tree tree' place) : Stays (tree.node? place) (tree'.node? place) := by
  refine (h.landed hrun).others place fun e he hplace => hwrites ?_
  obtain ⟨key, entry⟩ := e
  have hget := SortedMap.get?_eq_some_iff.mpr he
  cases entry with
  | content bytes => exact ⟨key, bytes, hget, hplace⟩
  | tombstone =>
    obtain ⟨hok, -⟩ := Builder.update_eq_some_iff.mp hrun
    cases Builder.removed_of_tombstone hok hget

/-- What is passed by is not collected. -/
theorem PassesBy.not_walked (h : b.PassesBy tree names) :
    ¬ (b.scope tree).Walked tree b.current b.base names content := by
  intro hwalked
  rcases h with hexcluded | hhidden
  · rw [hwalked.kept] at hexcluded
    cases hexcluded
  · rw [hwalked.admitted] at hhidden
    cases hhidden

/-- If all that was written is passed by, the next build comes to the same files. -/
theorem walked_iff (hstands : b.Stands tree) (hrun : b.run tree = some tree')
    (hrules : b.KeepsRules tree tree')
    (hpassed : ∀ names, b.WritesAt tree tree' (b.base ++ names) → b.PassesBy tree' names) :
    (b.scope tree').Walked tree' b.current b.base names content ↔
      (b.scope tree).Walked tree b.current b.base names content := by
  constructor
  · intro hwalked
    have hstays := hstands.stays hrun fun hwrites => (hpassed names hwrites).not_walked hwalked
    have hfile : tree.node? (b.base ++ names) = some (.file content) := by
      rcases hstays with heq | ⟨-, hdir⟩
      · rw [← heq, hwalked.file]
      · rw [hwalked.file] at hdir
        cases hdir
    have hkept := hrules.scope ▸ hwalked.kept
    exact ⟨hfile, hkept, (hrules.admits_eq hstands hfile hkept).symm.trans hwalked.admitted⟩
  · intro hwalked
    have hkept : (b.scope tree').excludes (pathTo (b.base ++ names)) = false :=
      hrules.scope.symm ▸ hwalked.kept
    have hadmitted := (hrules.admits_eq hstands hwalked.file hwalked.kept).trans hwalked.admitted
    have hstays := hstands.stays hrun fun hwrites => by
      rcases hpassed names hwrites with hexcluded | hhidden
      · rw [hkept] at hexcluded
        cases hexcluded
      · rw [hadmitted] at hhidden
        cases hhidden
    refine ⟨?_, hkept, hadmitted⟩
    rcases hstays with heq | ⟨hnone, -⟩
    · rw [heq, hwalked.file]
    · rw [hwalked.file] at hnone
      cases hnone

/-- **Nothing is read back** if all that was written is passed by. -/
theorem readsNothingBack_of_passesBy (hstands : b.Stands tree) (hrun : b.run tree = some tree')
    (hrules : b.KeepsRules tree tree')
    (hpassed : ∀ names, b.WritesAt tree tree' (b.base ++ names) → b.PassesBy tree' names) :
    b.ReadsNothingBack tree tree' where
  same := by
    have hstands' := hstands.of_growth (hstands.landed hrun).growth
    have hupdated : (b.sources tree').updated = (b.sources tree).updated := by
      refine SortedMap.ext_get? fun key => Option.ext fun content => ?_
      rw [sources, sources, get?_wholeProject_eq_some_iff hstands'.rootedAt,
        get?_wholeProject_eq_some_iff hstands.rootedAt]
      simp only [walked_iff hstands hrun hrules hpassed]
    exact congrArg (Changes.mk ∅) hupdated
  unread := by
    intro names hwrites
    have hstands' := hstands.of_growth (hstands.landed hrun).growth
    obtain ⟨content, hfile⟩ := hstands.exists_file hrun hwrites
    have hsteps : ∀ n ∈ names, (Component.name n).IsStep := fun n hn =>
      (hstands'.rootedAt.disk.isName_of_mem (by rw [hfile]; simp) n
        (List.mem_append_right _ hn)).step
    refine Option.eq_none_iff_forall_ne_some.mpr fun found hget => ?_
    obtain ⟨names', -, hkey, hwalked⟩ :=
      (get?_wholeProject_eq_some_iff hstands'.rootedAt).mp hget
    have hsteps' : ∀ n ∈ names', (Component.name n).IsStep := fun n hn =>
      (hwalked.isName hstands'.rootedAt n (List.mem_append_right _ hn)).step
    obtain rfl := names_eq_of_intercalate_eq hsteps hsteps' hkey
    exact (hpassed names hwrites).not_walked hwalked

/-- If nothing is read back, all that was written is passed by. -/
theorem ReadsNothingBack.passesBy (h : b.ReadsNothingBack tree tree') (hstands : b.Stands tree)
    (hrun : b.run tree = some tree') (hwrites : b.WritesAt tree tree' (b.base ++ names)) :
    b.PassesBy tree' names := by
  have hstands' := hstands.of_growth (hstands.landed hrun).growth
  obtain ⟨content, hfile⟩ := hstands.exists_file hrun hwrites
  have hne : names ≠ [] := by
    rintro rfl
    rw [List.append_nil, hstands'.directory] at hfile
    cases hfile
  by_contra hnot
  rw [PassesBy, not_or, Bool.not_eq_true, Bool.not_eq_false] at hnot
  have hget := (get?_wholeProject_eq_some_iff hstands'.rootedAt).mpr
    ⟨names, hne, rfl, hfile, hnot.1, hnot.2⟩
  rw [← sources, h.unread names hwrites] at hget
  cases hget

/-- **Below a directory that is spelled out** all that is written is passed by. -/
theorem Stands.passesBy_of_spelledOut (h : b.Stands tree) (hrun : b.run tree = some tree')
    {out : Location} (hspelled : tree.SpelledOut b.outDir out)
    (hwrites : b.WritesAt tree tree' (b.base ++ names)) : b.PassesBy tree' names := by
  have hlanded := h.landed hrun
  have hstands' := h.of_growth hlanded.growth
  obtain ⟨content, hfile⟩ := h.exists_file hrun hwrites
  obtain ⟨key, bytes, hget, hplace⟩ := hwrites
  have hkey := (isVisible_of_output h.rootedAt hget).isNormal
  have heq := place_of_spelledOut hspelled hlanded.growth hkey hplace
  have hsteps : ∀ n ∈ b.base ++ names, (Component.name n).IsStep := fun n hn =>
    (hstands'.rootedAt.disk.isName_of_mem (by rw [hfile]; simp) n hn).step
  have hin : startsWith (components (pathTo (b.base ++ names)).toList)
      (components b.outDir.toList) = true := by
    rw [components_pathTo hsteps, heq, List.map_append, ← List.cons_append, ← hspelled.path]
    exact List.isPrefixOf_iff_prefix.mpr (List.prefix_append _ _)
  refine Or.inl ?_
  rw [excludes, excludes?, show (b.scope tree').outDir = b.outDir from rfl, hin, Bool.true_or]
  rfl

end Building

end ProjectBuild
end ScriptWeave
