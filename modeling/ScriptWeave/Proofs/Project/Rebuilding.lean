/-
# Building a project again

A second build of the same sources is to do what the first one did.  It reads the project as the
first one has left it, with the output somewhere on the disk and maybe inside the project.

**Stated here.**  A build does not read what a build has written, exactly when every file that was
written is excluded or hidden where it is; and in particular when the output directory is out of the
way of the rules and its path is spelled out (`readsNothingBack_iff`).  With a path that goes up
again it need not be so (`reads_its_output`).
-/
import ScriptWeave.Proofs.Project.KeptRules

namespace ScriptWeave.ProjectBuild

open FilePath FileTree ProjectScope

/-- **A build does not read what a build has written**, if the rules are not among it, exactly when
every file that was written is at a location that the scope excludes or the ignore files hide.  This
is so when the path of the output directory is spelled out; and where that is out of the way of the
rules, they are kept. -/
theorem readsNothingBack_iff {b : ProjectBuild} {tree tree' : FileTree} (hstands : b.Stands tree)
    (hrun : b.run tree = some tree') :
    (b.KeepsRules tree tree' →
      (b.ReadsNothingBack tree tree' ↔
        ∀ names, b.WritesAt tree tree' (b.base ++ names) → b.PassesBy tree' names) ∧
      ∀ out, tree.SpelledOut b.outDir out → b.ReadsNothingBack tree tree') ∧
    ∀ out, b.PlainOut tree out → b.ReadsNothingBack tree tree' := by
  refine ⟨fun hrules => ⟨⟨fun h names => h.passesBy hstands hrun, ?_⟩, fun out hspelled => ?_⟩,
    fun out hplain => hplain.readsNothingBack hrun⟩
  · exact readsNothingBack_of_passesBy hstands hrun hrules
  · exact readsNothingBack_of_passesBy hstands hrun hrules fun names =>
      hstands.passesBy_of_spelledOut hrun hspelled

/-! ## Two ways to spell a directory -/

/-- A project with a style sheet, and a directory for its output. -/
def project (within : FileTree) : FileTree :=
  .cons "p" .directory
    (.cons "a.css" (.file "x".toUTF8) .nil (.cons "dist" .directory within .nil)) .nil

/-- The style sheet, as it is written. -/
def styled : FileTree := .cons "a.css" (.file "x".toUTF8) .nil .nil

/-- A build of the project. -/
def into (out : String) : ProjectBuild := ⟨.mapping, none, ["p"], out, "/"⟩

section Example

variable {out : String} {within : FileTree}

theorem stands_project (out : String) : (into out).Stands (project .nil) where
  tidy := by decide
  directory := rfl
  short := show (pathTo ["p"]).utf8ByteSize ≤ pathLimit by decide

theorem scope_project (out : String) (h : within = .nil ∨ within = styled) :
    (into out).scope (project within) = ⟨"/p", (into out).outDir, none, []⟩ := by
  have hroot : "/p" = pathTo ["p"] := by decide
  have hsteps : ∀ n ∈ ["p"], (Component.name n).IsStep := by decide
  rw [hroot]
  rcases h with rfl | rfl
  · exact ofTree_of_none hsteps (by decide +kernel) _
  · exact ofTree_of_none hsteps (by decide +kernel) _

/-- No rules come from any of the directories. -/
theorem directoryRules_project (h : within = .nil ∨ within = styled) :
    ∀ place ∈ [[], ["p"], ["p", "dist"]],
      directoryRules (project within) "/" place = ⟨place, [], [], [], false⟩ := by
  intro place hplace
  refine directoryRules_of_none ?_ ?_ ?_ "/"
  · revert place
    decide
  · rcases h with rfl | rfl <;>
    · revert place
      decide
  · rcases h with rfl | rfl <;>
    · revert place
      decide

/-- The directory is out of the way of the rules. -/
theorem plainOut_project : (into "dist").PlainOut (project .nil) ["p", "dist"] where
  toStands := stands_project "dist"
  noLinks := node?_ne_link_of_isLinkFree (by decide)
  path := by decide
  outside := by decide
  repositories := by
    intro place content hfile
    have hmem := mem_nodes_of_node? (by simp) hfile
    simp only [project, nodes, nodesFrom, List.nil_append, List.append_nil,
      List.singleton_append, List.mem_cons, Prod.mk.injEq, reduceCtorEq, and_false,
      false_or, List.not_mem_nil, or_false] at hmem
    have hlast := congrArg List.getLast? hmem.1
    simp at hlast

/-- Writing the style sheet changes no rules. -/
theorem keepsRules_project (out : String) :
    (into out).KeepsRules (project .nil) (project styled) where
  scope := (scope_project out (Or.inr rfl)).trans (scope_project out (Or.inl rfl)).symm
  directories := by
    intro place hdir _
    have hplace : place ∈ [[], ["p"], ["p", "dist"]] := by
      by_cases hne : place = []
      · simp [hne]
      · have hmem := mem_nodes_of_node? hne hdir
        simp only [project, nodes, nodesFrom, List.nil_append, List.append_nil,
          List.singleton_append, List.mem_cons, Prod.mk.injEq, reduceCtorEq, and_false, and_true,
          false_or, List.not_mem_nil, or_false] at hmem
        simpa using Or.inr hmem
    exact (directoryRules_project (Or.inr rfl) place hplace).trans
      (directoryRules_project (Or.inl rfl) place hplace).symm

/-- The walk comes to both of the files. -/
theorem admits_project (h : within = .nil ∨ within = styled) :
    ∀ names ∈ [["a.css"], ["dist", "a.css"]],
      admits (project within) "/" (rulesUpward (project within) "/" ["p"]) ["p"] names = true := by
  have hrules := directoryRules_project h
  have hupward : rulesUpward (project within) "/" ["p"]
      = [⟨["p"], [], [], [], false⟩, ⟨[], [], [], [], false⟩] := by
    rw [← hrules ["p"] (by simp), ← hrules [] (by simp)]
    rfl
  intro names hnames
  rw [hupward]
  rcases List.mem_pair.mp hnames with rfl | rfl
  · rfl
  · simp only [admits, List.cons_append, List.nil_append, hrules ["p", "dist"] (by simp)]
    rfl

/-- The build collects the style sheet. -/
theorem sources_project
    (hkept : (⟨"/p", (into out).outDir, none, []⟩ : ProjectScope).excludes "/p/a.css" = false) :
    (into out).sources (project .nil) = ⟨∅, .ofList [("a.css", "x".toUTF8)]⟩ := by
  have hfiles : ∀ names bytes, (project .nil).node? (["p"] ++ names) = some (.file (.bytes bytes)) →
      names = ["a.css"] ∧ bytes = "x".toUTF8 := by
    intro names bytes hfile
    have hmem := mem_nodes_of_node? (by simp) hfile
    simpa [project, nodes, nodesFrom] using hmem
  have hupdated : ((into out).sources (project .nil)).updated
      = .ofList [("a.css", "x".toUTF8)] := by
    refine SortedMap.ext_get? fun key => Option.ext fun content => ?_
    rw [sources, get?_wholeProject_eq_some_iff (stands_project out).rootedAt,
      SortedMap.get?_ofList_eq_some_iff (by simp), List.mem_singleton]
    constructor
    · rintro ⟨names, -, rfl, hwalked⟩
      obtain ⟨rfl, rfl⟩ := hfiles names content hwalked.file
      rfl
    · intro heq
      obtain ⟨rfl, rfl⟩ := Prod.mk.inj heq
      refine ⟨["a.css"], by simp, rfl, rfl, ?_, admits_project (Or.inl rfl) _ (by simp)⟩
      rw [scope_project out (Or.inl rfl)]
      exact hkept
  exact congrArg (Changes.mk ∅) hupdated

/-- The one file that is put out. -/
theorem entries_project : (Builder.mapping.run ⟨∅, .ofList [("a.css", "x".toUTF8)]⟩ ∅ none
    []).output.entries = [("a.css", .content "x".toUTF8)] := by decide +kernel

/-- **The build of the project**, by a path that leads to its directory for output. -/
theorem run_project {links : Nat} {trail : Trail} (dir : String) (hdir : (into out).outDir = dir)
    (hkept : (⟨"/p", dir, none, []⟩ : ProjectScope).excludes "/p/a.css" = false)
    (hpath : Passable dir ∧ Passable (FilePath.join dir "a.css") ∧
      parent? (FilePath.join dir "a.css") = some dir ∧
      piecesOf (FilePath.join dir "a.css") = piecesOf dir ++ ["a.css"] ∧
      endsInSlash (FilePath.join dir "a.css") = false)
    (hleads : Leads (project .nil) linkLimit [] (piecesOf dir) links trail)
    (hplace : trail.place = ["p", "dist"] ∧ trail.holds (project .nil) = .nil) :
    (into out).run (project .nil) = some (project styled) ∧
      (into out).WritesAt (project .nil) (project styled) ["p", "dist", "a.css"] := by
  obtain ⟨hdirPass, hpass, hparent, hpieces, hslash⟩ := hpath
  obtain ⟨hplace, hholds⟩ := hplace
  subst hdir
  have hsources := sources_project hkept
  have hwrite : (project .nil).writeDeep (FilePath.join (into out).outDir "a.css") "x".toUTF8
      = (project styled, .ok ()) := by
    rw [writeDeep_of_leads hparent hdirPass hpass hpieces hslash (by decide) (by decide) (by decide)
      hleads (by simp [hholds, find?]), hplace]
    rfl
  constructor
  · rw [run, hsources]
    refine Builder.update_eq_some_iff.mpr
      ⟨show (Builder.mapping.run _ ∅ none []).failure = none by decide +kernel, ⟨1, 0⟩, ?_⟩
    have hentries : ((into out).builder.run ⟨∅, .ofList [("a.css", "x".toUTF8)]⟩ ∅ (into out).args
      []).output.entries = [("a.css", .content "x".toUTF8)] := entries_project
    rw [Artifacts.write, hentries]
    simp only [Artifacts.writeEntries, Artifacts.writeEntry_content, hwrite]
  · refine ⟨"a.css", "x".toUTF8, ?_, ?_⟩
    · rw [output, hsources]
      exact SortedMap.get?_eq_some_iff.mpr (entries_project ▸ List.mem_cons_self)
    · -- the file is new, so it was written there
      by_contra hne
      have hlanded := Artifacts.landed_of_writeDeep (stands_project out).tidy.plainLinks hwrite
      have hstays := hlanded.others ["p", "dist", "a.css"] fun e he => by
        rw [List.mem_singleton.mp he]
        exact hne
      rcases hstays with hsame | ⟨-, hdir⟩
      · cases hsame
      · cases hdir

/-- The ways to the directory. -/
theorem leads_dist : Leads (project .nil) linkLimit [] ["p", "dist"] linkLimit
    [("dist", .nil), ("p", .cons "a.css" (.file "x".toUTF8) .nil
      (.cons "dist" .directory .nil .nil))] :=
  .directory (by decide) (by decide) (by decide) rfl
    (.directory (by decide) (by decide) (by decide) rfl .here)

theorem leads_detour : Leads (project .nil) linkLimit [] ["p", "dist", "..", "dist"] linkLimit
    [("dist", .nil), ("p", .cons "a.css" (.file "x".toUTF8) .nil
      (.cons "dist" .directory .nil .nil))] :=
  .directory (by decide) (by decide) (by decide) rfl
    (.directory (by decide) (by decide) (by decide) rfl
      (.up (.directory (by decide) (by decide) (by decide) rfl .here)))

end Example

/-- **A build reads its output** if the path of the directory goes up again: the style sheet that
the first build has written is among the files that the second one collects. -/
theorem reads_its_output : ∃ tree tree', (into "dist/../dist").Stands tree ∧
    (into "dist/../dist").run tree = some tree' ∧
    (into "dist/../dist").KeepsRules tree tree' ∧
    (into "dist/../dist").WritesAt tree tree' ["p", "dist", "a.css"] ∧
    ((into "dist/../dist").sources tree').updated.get? "dist/a.css" = some "x".toUTF8 ∧
    (into "dist/../dist").sources tree' ≠ (into "dist/../dist").sources tree := by
  have hdir : (into "dist/../dist").outDir = "/p/dist/../dist" := by decide
  have hkept :
      (⟨"/p", "/p/dist/../dist", none, []⟩ : ProjectScope).excludes "/p/a.css" = false := by
    decide
  have hpieces : piecesOf "/p/dist/../dist" = ["p", "dist", "..", "dist"] := by decide +kernel
  obtain ⟨hrun, hwrites⟩ := run_project "/p/dist/../dist" hdir hkept (by decide +kernel)
    (hpieces ▸ leads_detour) ⟨rfl, rfl⟩
  have hstands' := (stands_project "dist/../dist").of_growth
    ((stands_project "dist/../dist").landed hrun).growth
  have hread : ((into "dist/../dist").sources (project styled)).updated.get? "dist/a.css"
      = some "x".toUTF8 := by
    refine (get?_wholeProject_eq_some_iff hstands'.rootedAt).mpr
      ⟨["dist", "a.css"], by simp, by decide, rfl, ?_, admits_project (Or.inr rfl) _ (by simp)⟩
    rw [scope_project _ (Or.inr rfl), hdir]
    decide
  refine ⟨_, _, stands_project _, hrun, keepsRules_project _, hwrites, hread, fun heq => ?_⟩
  rw [heq, sources_project (hdir ▸ hkept)] at hread
  revert hread
  decide

/-- Where the path is spelled out it does not. -/
theorem readsNothingBack_dist : ∃ tree tree', (into "dist").Stands tree ∧
    (into "dist").run tree = some tree' ∧ (into "dist").KeepsRules tree tree' ∧
    (into "dist").PlainOut tree ["p", "dist"] ∧
    (into "dist").WritesAt tree tree' ["p", "dist", "a.css"] ∧
    (into "dist").PassesBy tree' ["dist", "a.css"] ∧
    (into "dist").ReadsNothingBack tree tree' := by
  have hdir : (into "dist").outDir = "/p/dist" := by decide
  have hkept : (⟨"/p", "/p/dist", none, []⟩ : ProjectScope).excludes "/p/a.css" = false := by
    decide
  have hpieces : piecesOf "/p/dist" = ["p", "dist"] := by decide +kernel
  obtain ⟨hrun, hwrites⟩ := run_project "/p/dist" hdir hkept (by decide +kernel)
    (hpieces ▸ leads_dist) ⟨rfl, rfl⟩
  have hstands := stands_project "dist"
  have hrules := keepsRules_project "dist"
  obtain ⟨hexact, hplain⟩ := readsNothingBack_iff hstands hrun
  have hnothing := hplain _ plainOut_project
  exact ⟨_, _, hstands, hrun, hrules, plainOut_project, hwrites,
    (hexact hrules).1.mp hnothing ["dist", "a.css"] hwrites, hnothing⟩

end ScriptWeave.ProjectBuild
