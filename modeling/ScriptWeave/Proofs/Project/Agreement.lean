/-
# Where a full build and a change of one path agree

A project comes to the batch in two ways: as a whole, by the walk, or path by path, as something
happens to it.  Both ask the scope, but the walk has seen more on its way than the scope knows.  It
has read the ignore files of every directory it came through and of those above the root, where the
scope has the one at the root only; and it has followed no link, where a path is looked up with all
links followed.

The walk may end at an obstacle, and then nothing is collected; a path may lead to a file that
cannot be read.

**Stated here.**  The two agree on a path exactly if the path's being kept by the scope and leading
to a file that can be read is the same as the project's being collected and the walk's coming to a
file there (`agreesOn_iff`).  For a plain path the second always gives the first (`Walked.read_eq`),
so what is left is the question whether the walk comes there, too (`agreesOn_pathTo_iff`).  It does
where the ignore file at the root is the only one and no link stands on the way
(`agreesOn_of_oneIgnoreFile`).  A file that an ignore file beside it ignores is a case in which it
does not (`not_agreesOn_of_nested_ignore_file`).
-/
import ScriptWeave.Proofs.Project.Keys

namespace ScriptWeave
namespace ProjectScope

open FilePath FileTree

variable {scope : ProjectScope} {tree : FileTree} {current : String} {base names : Location}
  {path key : String} {content : ByteArray}

/-! ## 1. The change set of one path -/

/-- The change set of a path has what it reads, if the scope keeps it. -/
theorem exists_changesOf_iff (hkey : scope.key? path = some key) :
    (∃ changes, scope.changesOf tree [path] = .ok changes ∧
        changes.updated.get? key = some content) ↔
      scope.excludes path = false ∧ tree.read path = .ok content := by
  have hone : scope.changesOf tree [path] = scope.addChange tree {} path := by
    rw [changesOf, List.foldlM_cons]
    exact bind_pure _
  rw [hone]
  constructor
  · rintro ⟨changes, hadd, hget⟩
    rcases ((addChange_spec hadd).2 key content).mp hget with hfound | ⟨-, hbefore⟩
    · exact ⟨hfound.kept, hfound.read⟩
    · cases hbefore
  · rintro ⟨hkept, hread⟩
    have hfound : scope.Found tree path key content := ⟨⟨hkept, hkey⟩, hread⟩
    exact ⟨_, addChange_of_found hfound {}, by rw [SortedMap.get?_insert, if_pos rfl]⟩

/-- The two ways to a change set agree on a path: what is collected of the whole project has the
path's name with some content exactly if the change set of this one path has. -/
def AgreesOn (scope : ProjectScope) (tree : FileTree) (current path : String) : Prop :=
  ∀ key, scope.key? path = some key → ∀ content : ByteArray,
    (∃ changes, scope.collect tree current = .ok changes ∧
        changes.updated.get? key = some content) ↔
      ∃ changes, scope.changesOf tree [path] = .ok changes ∧
        changes.updated.get? key = some content

/-! ## 2. What both come to -/

/-- A file that the walk comes to is what its path leads to, however that is spelled. -/
theorem Walked.eq_of_read (h : scope.RootedAt tree base)
    (hwalked : scope.Walked tree current base names content)
    (hpath : relative? scope.root path = some (names.map .name)) {found : ByteArray}
    (hread : tree.read path = .ok found) : found = content := by
  rw [relative?_eq_some_iff, h.components_root, List.cons_append, ← List.map_append] at hpath
  have hnode := node?_of_nodeAt hpath (h.disk.noLinkOn hwalked.file (by simp))
    (read_eq_ok_iff.mp hread)
  rw [hwalked.file] at hnode
  simpa [eq_comm] using hnode

/-- The whole project has the name of a path if the walk comes to a file by its components. -/
theorem get?_wholeProject_key_iff (h : scope.RootedAt tree base)
    (hkey : scope.key? path = some key) :
    (scope.wholeProject tree current).updated.get? key = some content ↔
      ∃ names, relative? scope.root path = some (names.map .name) ∧
        scope.Walked tree current base names content := by
  obtain ⟨parts, hne, hparts, rfl⟩ := key?_eq_some_iff.mp hkey
  have hsteps : ∀ c ∈ parts, c.IsStep := by
    rw [h.components_root, List.cons_append] at hparts
    have hpieces := steps_of_components hparts
    exact fun c hc => isStep_of_mem (hpieces ▸ List.mem_append_right _ hc)
  rw [← relative?_eq_some_iff] at hparts
  rw [get?_wholeProject_eq_some_iff h]
  constructor
  · rintro ⟨names, -, heq, hwalked⟩
    have hnames : ∀ n ∈ names, (Component.name n).IsStep := fun n hn =>
      (hwalked.isName h n (List.mem_append_right base hn)).step
    have hsame : parts = names.map .name :=
      steps_eq_of_intercalate_eq hsteps (isStep_of_mem_map hnames)
        (by simpa [Function.comp_def, Component.text] using heq)
    exact ⟨names, hsame ▸ hparts, hwalked⟩
  · rintro ⟨names, heq, hwalked⟩
    obtain rfl := Option.some.inj (hparts.symm.trans heq)
    exact ⟨names, by simpa using hne, by simp [Function.comp_def, Component.text], hwalked⟩

/-- What agreement asks for, content by content. -/
theorem agreesOn_iff_forall (h : scope.RootedAt tree base) (hkey : scope.key? path = some key) :
    scope.AgreesOn tree current path ↔ ∀ content,
      ((scope.collect tree current).isOk = true ∧
        ∃ names, relative? scope.root path = some (names.map .name) ∧
          scope.Walked tree current base names content) ↔
      scope.excludes path = false ∧ tree.read path = .ok content := by
  simp only [AgreesOn, hkey, Option.some.injEq, forall_eq', collect_eq_ok_iff, and_assoc,
    exists_and_left, exists_eq_left', get?_wholeProject_key_iff h hkey, exists_changesOf_iff hkey]

/-- On a plain path the walk comes to nothing that the path does not lead to. -/
theorem Walked.read_eq (h : scope.RootedAt tree base)
    (hwalked : scope.Walked tree current base names content)
    (hshort : (pathTo (base ++ names)).utf8ByteSize ≤ pathLimit) :
    tree.read (pathTo (base ++ names)) = .ok content :=
  read_eq_ok_iff.mpr (nodeAt_eq_ok_iff.mpr
    ⟨base ++ names, lookUp_pathTo h.disk hwalked.file (by simp) hshort⟩)

/-- **On a plain path the two ways agree** exactly if, where the scope keeps the path and the file
that it leads to can be read, the project is collected, no link is followed on the way and no ignore
file stops the walk. -/
theorem agreesOn_pathTo_iff (h : scope.RootedAt tree base) (hne : names ≠ [])
    (hnames : ∀ n ∈ names, (Component.name n).IsStep)
    (hshort : (pathTo (base ++ names)).utf8ByteSize ≤ pathLimit) :
    scope.AgreesOn tree current (pathTo (base ++ names)) ↔
      (scope.excludes (pathTo (base ++ names)) = false →
        (∃ content, tree.read (pathTo (base ++ names)) = .ok content) →
          (scope.collect tree current).isOk = true ∧
            (∃ bytes, tree.node? (base ++ names) = some (.file (.bytes bytes))) ∧
            admits tree current (rulesUpward tree current base) base names = true) := by
  have hpath : relative? scope.root (pathTo (base ++ names)) = some (names.map .name) :=
    h.root ▸ relative?_pathTo (h.isStep_append hnames)
  have hwalks : ∀ content, (∃ names', relative? scope.root (pathTo (base ++ names))
        = some (names'.map .name) ∧ scope.Walked tree current base names' content) ↔
      scope.Walked tree current base names content := by
    simp [hpath, List.map_inj_right fun _ _ => Component.name.inj]
  rw [agreesOn_iff_forall h (key?_pathTo h hnames hne)]
  simp only [hwalks]
  constructor
  · rintro hall hkept ⟨content, hread⟩
    obtain ⟨hcollected, hwalked⟩ := (hall content).mpr ⟨hkept, hread⟩
    exact ⟨hcollected, ⟨content, hwalked.file⟩, hwalked.admitted⟩
  · intro hway content
    constructor
    · exact fun ⟨_, hwalked⟩ => ⟨hwalked.kept, hwalked.read_eq h hshort⟩
    · rintro ⟨hkept, hread⟩
      obtain ⟨hcollected, ⟨found, hfile⟩, hadmitted⟩ := hway hkept ⟨content, hread⟩
      have hwalked : scope.Walked tree current base names found := ⟨hfile, hkept, hadmitted⟩
      rw [hwalked.eq_of_read h hpath hread]
      exact ⟨hcollected, hwalked⟩

/-! ## 3. Where they agree -/

/-- **The two ways agree on a path below the root** exactly if these are the same: that the scope
keeps the path and the file that it leads to can be read, and that the project is collected and the
walk comes to a file by the path's components. -/
theorem agreesOn_iff (h : scope.RootedAt tree base) (hbelow : scope.key? path ≠ none) :
    scope.AgreesOn tree current path ↔
      ((scope.excludes path = false ∧ ∃ content, tree.read path = .ok content) ↔
        (scope.collect tree current).isOk = true ∧
          ∃ names content, relative? scope.root path = some (names.map .name) ∧
            scope.Walked tree current base names content) := by
  obtain ⟨key, hkey⟩ := Option.ne_none_iff_exists'.mp hbelow
  rw [agreesOn_iff_forall h hkey]
  constructor
  · intro hall
    constructor
    · rintro ⟨hkept, content, hread⟩
      obtain ⟨hcollected, names, hwalked⟩ := (hall content).mpr ⟨hkept, hread⟩
      exact ⟨hcollected, names, content, hwalked⟩
    · rintro ⟨hcollected, names, content, hwalked⟩
      obtain ⟨hkept, hread⟩ := (hall content).mp ⟨hcollected, names, hwalked⟩
      exact ⟨hkept, content, hread⟩
  · intro hiff content
    constructor
    · rintro ⟨hcollected, names, hpath, hwalked⟩
      obtain ⟨hkept, found, hread⟩ := hiff.mpr ⟨hcollected, names, content, hpath, hwalked⟩
      rw [← hwalked.eq_of_read h hpath hread]
      exact ⟨hkept, hread⟩
    · rintro ⟨hkept, hread⟩
      obtain ⟨hcollected, names, found, hpath, hwalked⟩ := hiff.mp ⟨hkept, content, hread⟩
      rw [hwalked.eq_of_read h hpath hread]
      exact ⟨hcollected, names, hpath, hwalked⟩

section Nested

/-- A project with an ignore file below its root, beside a file that is ignored by it and one that
is not. -/
def nestedTree : FileTree :=
  .cons "p" .directory
    (.cons "sub" .directory
      (.cons ".gitignore" (.file "x.js\n".toUTF8) .nil
        (.cons "x.js" (.file "x".toUTF8) .nil (.cons "y.js" (.file "y".toUTF8) .nil .nil))) .nil)
    .nil

/-- Nothing is configured or ignored at its root. -/
theorem ofTree_nestedTree : ofTree nestedTree "/p" "/p/dist" = ⟨"/p", "/p/dist", none, []⟩ := by
  have hroot : "/p" = pathTo ["p"] := by decide
  rw [hroot]
  exact ofTree_of_none (by decide) (by decide +kernel) "/p/dist"

theorem rootedAt_nestedTree : (ofTree nestedTree "/p" "/p/dist").RootedAt nestedTree ["p"] where
  disk := by decide
  directory := rfl
  root := by decide
  short := by decide

/-- All of it is collected. -/
theorem isOk_collect_nestedTree (current : String) :
    ((ofTree nestedTree "/p" "/p/dist").collect nestedTree current).isOk = true := by
  rw [rootedAt_nestedTree.collect_eq (by decide)]
  · rfl
  · intro e he hlink
    refine nodeAt_eq_ok_iff.mpr
      ⟨e.1, lookUp_pathTo rootedAt_nestedTree.disk ?_ hlink ?_⟩ <;> clear hlink <;>
      revert e <;> decide

/-- No rules come from the root, or from above it. -/
theorem bare_nestedTree (current : String) :
    ∀ d ∈ rulesUpward nestedTree current ["p"], d.Bare := by
  have hroot : (directoryRules nestedTree current ["p"]).Bare :=
    bare_directoryRules (by decide) (by decide) (by decide) current
  have htop : (directoryRules nestedTree current []).Bare :=
    bare_directoryRules (by decide) (by decide) (by decide) current
  exact List.forall_mem_cons.mpr ⟨hroot, List.forall_mem_singleton.mpr htop⟩

/-- The one ignore file of the project. -/
theorem directoryRules_nestedTree (current : String) :
    (directoryRules nestedTree current ["p", "sub"]).ignore = [] ∧
      (directoryRules nestedTree current ["p", "sub"]).gitignore
        = Ignore.rulesOf "x.js\n".toUTF8 ∧
      (directoryRules nestedTree current ["p", "sub"]).exclude = [] := by
  have hsteps : ∀ n ∈ ["p", "sub"], (Component.name n).IsStep := by decide
  refine ⟨?_, ?_, directoryRules_exclude_of_none hsteps (by decide) (by decide) current⟩
  · rw [directoryRules_ignore hsteps]
    exact rulesAt_concat_of_none hsteps (by decide) (by decide) (by decide)
  · rw [directoryRules_gitignore hsteps]
    exact rulesAt_of_file rootedAt_nestedTree.disk rfl (by decide)

/-- The walk comes to the file that is not ignored, and the two ways agree on it. -/
theorem agreesOn_beside_ignored_file :
    (ofTree nestedTree "/p" "/p/dist").RootedAt nestedTree ["p"] ∧
      (ofTree nestedTree "/p" "/p/dist").key? "/p/sub/y.js" ≠ none ∧
      (ofTree nestedTree "/p" "/p/dist").AgreesOn nestedTree "/" "/p/sub/y.js" := by
  have hbelow : (ofTree nestedTree "/p" "/p/dist").key? "/p/sub/y.js" ≠ none := by
    rw [ofTree_nestedTree]
    decide
  refine ⟨rootedAt_nestedTree, hbelow, (agreesOn_iff rootedAt_nestedTree hbelow).mpr ?_⟩
  have hkept : (ofTree nestedTree "/p" "/p/dist").excludes "/p/sub/y.js" = false := by
    rw [ofTree_nestedTree]
    decide
  have hdirectory : walkVerdict (rulesUpward nestedTree "/" ["p"]) ["p", "sub"] true
      ≠ .ignored := by
    intro hignored
    obtain ⟨d, hd, rules, hrules, hignored⟩ := exists_of_walkVerdict_eq_ignored hignored
    exact (bare_nestedTree "/" d hd).verdict_ne_ignored hrules _ _ hignored
  have hentry : walkVerdict (directoryRules nestedTree "/" ["p", "sub"] ::
      rulesUpward nestedTree "/" ["p"]) ["p", "sub", "y.js"] false ≠ .ignored := by
    intro hignored
    obtain ⟨d, hd, rules, hrules, hignored⟩ := exists_of_walkVerdict_eq_ignored hignored
    rcases List.mem_cons.mp hd with rfl | hd
    · obtain ⟨hignore, hgitignore, hexclude⟩ := directoryRules_nestedTree "/"
      simp only [hignore, hgitignore, hexclude, List.mem_cons, List.not_mem_nil, or_false]
        at hrules
      rcases hrules with rfl | rfl | rfl
      · cases hignored
      · revert hignored
        decide +kernel
      · cases hignored
    · exact (bare_nestedTree "/" d hd).verdict_ne_ignored hrules _ _ hignored
  have hwalked : (ofTree nestedTree "/p" "/p/dist").Walked nestedTree "/" ["p"] ["sub", "y.js"]
      "y".toUTF8 :=
    ⟨rfl, hkept, by simp [admits, hdirectory, hentry]⟩
  constructor
  · intro _
    exact ⟨isOk_collect_nestedTree "/", ["sub", "y.js"], "y".toUTF8, by decide, hwalked⟩
  · intro _
    have hpath : pathTo (["p"] ++ ["sub", "y.js"]) = "/p/sub/y.js" := by decide
    have hread := hwalked.read_eq rootedAt_nestedTree (by decide)
    rw [hpath] at hread
    exact ⟨hkept, _, hread⟩

/-- **The two ways do not agree on the file that is ignored**: the walk passes it by, and the change
set of its path has it. -/
theorem not_agreesOn_of_nested_ignore_file :
    ¬ (ofTree nestedTree "/p" "/p/dist").AgreesOn nestedTree "/" "/p/sub/x.js" := by
  have hpath : "/p/sub/x.js" = pathTo (["p"] ++ ["sub", "x.js"]) := by decide
  rw [hpath, agreesOn_pathTo_iff rootedAt_nestedTree (by decide) (by decide) (by decide)]
  intro hway
  have hkept : (ofTree nestedTree "/p" "/p/dist").excludes (pathTo (["p"] ++ ["sub", "x.js"]))
      = false := by
    rw [ofTree_nestedTree]
    decide
  have hread : nestedTree.read (pathTo (["p"] ++ ["sub", "x.js"])) = .ok "x".toUTF8 :=
    read_eq_ok_iff.mpr (nodeAt_eq_ok_iff.mpr
      ⟨_, lookUp_pathTo rootedAt_nestedTree.disk rfl (by simp) (by decide)⟩)
  obtain ⟨-, -, hadmitted⟩ := hway hkept ⟨_, hread⟩
  have hignored : walkVerdict (directoryRules nestedTree "/" ["p", "sub"] ::
      rulesUpward nestedTree "/" ["p"]) ["p", "sub", "x.js"] false = .ignored := by
    obtain ⟨hignore, hgitignore, -⟩ := directoryRules_nestedTree "/"
    have hnone : ∀ d ∈ directoryRules nestedTree "/" ["p", "sub"] ::
        rulesUpward nestedTree "/" ["p"], d.ignore = [] :=
      List.forall_mem_cons.mpr ⟨hignore, fun d hd => (bare_nestedTree "/" d hd).ignore⟩
    have hverdict : Ignore.verdict (directoryRules nestedTree "/" ["p", "sub"]).gitignore
        ((directoryRules nestedTree "/" ["p", "sub"]).nameOf ["p", "sub", "x.js"]) false
          = .ignored := by
      rw [hgitignore]
      decide +kernel
    rw [walkVerdict_of_nearest hnone (by simp [hverdict]), hverdict]
  simp [admits, hignored] at hadmitted

end Nested

/-! ## 4. One ignore file -/

/-- The `.gitignore` of the root, as the scope has it, is the one ignore file that counts for what
some names lead to, and nothing in it keeps what another rule ignores. -/
structure OneIgnoreFile (scope : ProjectScope) (tree : FileTree) (current : String)
    (base names : Location) : Prop where
  gitignore : (directoryRules tree current base).gitignore = scope.rules
  ignore : (directoryRules tree current base).ignore = []
  exclude : (directoryRules tree current base).exclude = []
  around : ∀ place, place <+: base ++ names → place ≠ base → place ≠ base ++ names →
    (directoryRules tree current place).Bare
  keeps : ∀ r ∈ scope.rules, r.keeps = false

/-- The scope of a project as it is has the `.gitignore` of its root.  That it is the one ignore
file is seen from the names in the directories: there is no other on the way, and no repository. -/
theorem oneIgnoreFile_ofTree {outDir : String} (hroot : ∀ n ∈ base, (Component.name n).IsStep)
    (hnames : ∀ n ∈ names, (Component.name n).IsStep) (hlinks : tree.NoLinkOn (base ++ names))
    (hbase : ∀ name ∈ [".ignore", ".git"], tree.node? (base ++ [name]) = none)
    (haround : ∀ place, place <+: base ++ names → place ≠ base → place ≠ base ++ names →
      ∀ name ∈ [".ignore", ProjectScope.gitignore, ".git"], tree.node? (place ++ [name]) = none)
    (hkeeps : ∀ r ∈ (ofTree tree (pathTo base) outDir).rules, r.keeps = false) :
    (ofTree tree (pathTo base) outDir).OneIgnoreFile tree current base names where
  gitignore := rfl
  ignore := by
    rw [directoryRules_ignore hroot]
    exact rulesAt_concat_of_none hroot (hlinks.of_prefix (List.prefix_append base names))
      (by decide) (hbase _ (by simp))
  exclude := directoryRules_exclude_of_none hroot
    (hlinks.of_prefix (List.prefix_append base names)) (hbase _ (by simp)) current
  around := by
    intro place hplace hne hne'
    have hsteps : ∀ n ∈ place, (Component.name n).IsStep := fun n hn =>
      List.forall_mem_append.mpr ⟨hroot, hnames⟩ n (hplace.subset hn)
    exact bare_directoryRules hsteps (hlinks.of_prefix hplace) (haround place hplace hne hne')
      current
  keeps := hkeeps

/-- What the walk passes by is ignored by the one ignore file. -/
theorem OneIgnoreFile.ignored_of_walkVerdict (hone : scope.OneIgnoreFile tree current base names)
    {chain : List DirectoryRules} {above : Location} {isDirectory : Bool}
    (hchain : ∀ d ∈ chain, d.Bare ∨ d = directoryRules tree current base)
    (h : walkVerdict chain (base ++ above) isDirectory = .ignored) :
    Ignore.verdict scope.rules (String.intercalate "/" above).toUTF8.toList isDirectory
      = .ignored := by
  obtain ⟨d, hd, rules, hrules, hignored⟩ := exists_of_walkVerdict_eq_ignored h
  rcases hchain d hd with hbare | rfl
  · exact absurd hignored (hbare.verdict_ne_ignored hrules _ _)
  · have hplace : (base ++ above).drop (directoryRules tree current base).place.length = above :=
      List.drop_left
    rw [DirectoryRules.nameOf, hplace] at hignored
    simp only [hone.ignore, hone.gitignore, hone.exclude, List.mem_cons, List.not_mem_nil,
      or_false] at hrules
    rcases hrules with rfl | rfl | rfl
    · cases hignored
    · exact hignored
    · cases hignored

/-- Every step to a file is admitted that the one ignore file does not ignore with its parents. -/
theorem OneIgnoreFile.admits (hone : scope.OneIgnoreFile tree current base names)
    (hnames : ∀ n ∈ names, (Component.name n).IsStep) (hne : names ≠ [])
    (hverdict : Ignore.verdictWithParents scope.rules (Ignore.joined names) ≠ .ignored)
    {above rest : Location} (hway : names = above ++ rest) {chain : List DirectoryRules}
    (hchain : ∀ d ∈ chain, d.Bare ∨ d = directoryRules tree current base) :
    ProjectScope.admits tree current chain (base ++ above) rest = true := by
  induction rest generalizing above chain with
  | nil => rfl
  | cons name rest ih =>
    have hway' : names = above ++ [name] ++ rest := by simp [hway]
    have hlast : decide (above ++ [name] ≠ names) = !rest.isEmpty := by
      cases rest <;> simp [hway']
    have hadmitted : walkVerdict chain (base ++ (above ++ [name])) (!rest.isEmpty) ≠ .ignored := by
      intro hignored
      refine Ignore.verdict_ne_ignored_of_prefix hone.keeps hnames hne hverdict
        ⟨rest, hway'.symm⟩ ?_
      rw [hlast]
      exact hone.ignored_of_walkVerdict hchain hignored
    rw [ProjectScope.admits, List.append_assoc]
    simp only [hadmitted, ne_eq, not_false_eq_true, decide_true, Bool.true_and]
    by_cases hrest : rest = []
    · rw [hrest]
      rfl
    · have hentry := hone.around (base ++ (above ++ [name])) ⟨rest, by simp [hway']⟩ (by simp)
        (by simp [hway', hrest])
      exact ih hway' (List.forall_mem_cons.mpr ⟨.inl hentry, hchain⟩)

/-- **With one ignore file and no link on the way** the two ways agree on a plain path, if the
project is collected at all. -/
theorem agreesOn_of_oneIgnoreFile (h : scope.RootedAt tree base)
    (hcollected : (scope.collect tree current).isOk = true)
    (hone : scope.OneIgnoreFile tree current base names) (hne : names ≠ [])
    (hnames : ∀ n ∈ names, (Component.name n).IsStep)
    (hshort : (pathTo (base ++ names)).utf8ByteSize ≤ pathLimit)
    (hlinks : tree.NoLinkOn (base ++ names)) :
    scope.AgreesOn tree current (pathTo (base ++ names)) := by
  rw [agreesOn_pathTo_iff h hne hnames hshort]
  rintro hkept ⟨content, hread⟩
  have hnode := read_eq_ok_iff.mp hread
  rw [nodeAt_pathTo_eq_ok_iff h.disk (h.isStep_append hnames) hlinks hshort] at hnode
  obtain ⟨-, -, v, hv, hverdict⟩ :=
    kept_of_excludes_eq_false hkept (h.root ▸ relative?_pathTo (h.isStep_append hnames))
  rw [h.verdict?_pathTo hnames, Option.some.injEq] at hv
  rw [← hv] at hverdict
  have hupward : ∀ d ∈ rulesUpward tree current base,
      d.Bare ∨ d = directoryRules tree current base := by
    intro d hd
    obtain ⟨place, hplace, rfl⟩ := exists_of_mem_rulesUpward hd
    by_cases heq : place = base
    · exact .inr (heq ▸ rfl)
    · refine .inl (hone.around place (hplace.trans (List.prefix_append base names)) heq ?_)
      rintro rfl
      have hlength := hplace.length_le
      rw [List.length_append] at hlength
      exact hne (List.length_eq_zero_iff.mp (by omega))
  have hadmitted := hone.admits hnames hne hverdict (List.nil_append names).symm hupward
  rw [List.append_nil] at hadmitted
  exact ⟨hcollected, ⟨content, hnode⟩, hadmitted⟩

end ProjectScope
end ScriptWeave
