/-
# Rules that a build does not touch

What belongs to a project is decided by files in it: the configuration file, and the ignore files of
its directories.  A build has to leave these as they are if the next one is to see the same project.

In a tree without links it does, as long as the path of the output directory is spelled out and no
`.git` is on it (`PlainOut`).  The names of what is written have no dot in front, so no ignore file
is among it, and nothing is made under a `.git` either.  A configuration file may have such a name.
But what is written into the root comes from a project inside its output directory, which puts out
nothing; and what is written into `.config` is no configuration file, as the project's own is not
put out.

**Stated here.**  A build that writes to such a directory keeps the rules (`PlainOut.keepsRules`),
and so the next one does not read what it has written (`PlainOut.readsNothingBack`).
-/
import Mathlib.Data.List.Find
import ScriptWeave.Proofs.Project.ReadingBack

namespace ScriptWeave.ProjectBuild

open FilePath FileTree ProjectScope

/-- The project stands on a disk without links, and its output directory is out of the way of the
rules: its path is spelled out, with no `.git` on it, and repositories are directories. -/
structure PlainOut (b : ProjectBuild) (tree : FileTree) (out : Location) : Prop
    extends b.Stands tree where
  noLinks : tree.NoLinks
  path : components b.outDir.toList = .root :: out.map .name
  outside : ".git" ∉ out
  repositories : ∀ place content, tree.node? (place ++ [".git"]) ≠ some (.file content)

namespace PlainOut

variable {b : ProjectBuild} {tree tree' : FileTree} {out place above : Location} {key : String}
  {entry : Artifact}

theorem spelledOut (h : b.PlainOut tree out) : tree.SpelledOut b.outDir out :=
  ⟨h.path, fun rest => h.noLinks.noLinkOn (out ++ rest)⟩

/-! ## 1. What is written where -/

/-- A project in its output directory puts out nothing. -/
theorem not_prefix (h : b.PlainOut tree out) (hget : (b.output tree).get? key = some entry) :
    ¬ out <+: b.base := by
  rintro ⟨rest, hbase⟩
  have hrooted := h.rootedAt
  obtain ⟨names, content, -, hwalked, -⟩ := exists_walked_of_output hrooted hget
  have hsteps : ∀ n ∈ b.base ++ names, (Component.name n).IsStep := fun n hn =>
    (hwalked.isName hrooted n hn).step
  obtain ⟨hout, -, -⟩ :=
    kept_of_excludes_eq_false hwalked.kept (hrooted.root ▸ relative?_pathTo hsteps)
  have hin : startsWith (.root :: out.map .name ++ (rest ++ names).map .name)
      (.root :: out.map Component.name) = true :=
    List.isPrefixOf_iff_prefix.mpr (List.prefix_append _ _)
  rw [components_pathTo hsteps, show (b.scope tree).outDir = b.outDir from rfl, h.path, ← hbase,
    List.append_assoc, List.map_append, ← List.cons_append, hin] at hout
  cases hout

/-- What is written has a visible name below the output directory. -/
theorem exists_of_writesAt (h : b.PlainOut tree out) (hrun : b.run tree = some tree')
    {name : String} (hwrites : b.WritesAt tree tree' (above ++ [name])) :
    ∃ key bytes front, (b.output tree).get? key = some (.content bytes) ∧ IsVisible key ∧
      piecesOf key = front ++ [name] ∧ above = out ++ front := by
  obtain ⟨key, bytes, hget, hplace⟩ := hwrites
  have hvisible := isVisible_of_output h.rootedAt hget
  have heq := place_of_spelledOut h.spelledOut (h.landed hrun).growth hvisible.isNormal hplace
  obtain ⟨front, last, hpieces⟩ :=
    (List.eq_nil_or_concat (piecesOf key)).resolve_left (piecesOf_ne_nil hvisible.isNormal)
  rw [List.concat_eq_append] at hpieces
  rw [hpieces, ← List.append_assoc] at heq
  obtain ⟨rfl, hlast⟩ := List.append_inj' heq rfl
  obtain rfl := List.singleton_injective hlast
  exact ⟨key, bytes, front, hget, hvisible, hpieces, rfl⟩

/-- Nothing is written under a name with a dot in front. -/
theorem not_writesAt_of_hidden (h : b.PlainOut tree out) (hrun : b.run tree = some tree')
    {name : String} (hname : name.toList.head? = some '.') :
    ¬ b.WritesAt tree tree' (above ++ [name]) := by
  intro hwrites
  obtain ⟨key, _, front, -, hvisible, hpieces, -⟩ := h.exists_of_writesAt hrun hwrites
  exact hvisible.head?_ne (by simp [hpieces]) hname

/-- Nothing is changed or made under a `.git`. -/
theorem keepsUnder_git (h : b.PlainOut tree out) (hrun : b.run tree = some tree') :
    KeepsUnder ".git" tree tree' := by
  have hundot : undot (piecesOf b.outDir) = out := by
    rw [undot_piecesOf, steps_of_components h.path]
    simp [Function.comp_def, Component.text]
  refine (h.landed hrun).under h.noLinks ".git" (by decide) fun e he hmem => ?_
  have hvisible := isVisible_of_output h.rootedAt (SortedMap.get?_eq_some_iff.mpr he)
  rw [piecesOf_join _ hvisible.isNormal, List.mem_append] at hmem
  rcases hmem with hmem | hmem
  · exact h.outside (hundot ▸ List.mem_filter.mpr ⟨hmem, by decide⟩)
  · exact hvisible.head?_ne hmem (by decide)

/-! ## 2. Ignore files -/

/-- A plain path leads to a node after the build as before it, where the location has it both
times. -/
theorem nodeAt_iff (h : b.PlainOut tree out) (hrun : b.run tree = some tree')
    (hsteps : ∀ n ∈ place, (Component.name n).IsStep) {node : Node}
    (hnode : tree'.node? place = some node ↔ tree.node? place = some node) :
    tree'.nodeAt (pathTo place) = .ok node ↔ tree.nodeAt (pathTo place) = .ok node := by
  have hgrowth := (h.landed hrun).growth
  exact nodeAt_pathTo_congr h.tidy.isDisk (hgrowth.isTidy h.tidy).isDisk hsteps
    (h.noLinks.noLinkOn place) ((h.noLinks.of_growth hgrowth).noLinkOn place) hnode

theorem isFile_eq (h : b.PlainOut tree out) (hrun : b.run tree = some tree')
    (hsteps : ∀ n ∈ place, (Component.name n).IsStep)
    (hfile : ∀ content, tree'.node? place = some (.file content) ↔
      tree.node? place = some (.file content)) :
    tree'.isFile (pathTo place) = tree.isFile (pathTo place) := by
  rw [Bool.eq_iff_iff, isFile_eq_true_iff, isFile_eq_true_iff]
  exact exists_congr fun content => h.nodeAt_iff hrun hsteps (hfile content)

theorem rulesAt_eq (h : b.PlainOut tree out) (hrun : b.run tree = some tree')
    (hsteps : ∀ n ∈ place, (Component.name n).IsStep)
    (hfile : ∀ content, tree'.node? place = some (.file content) ↔
      tree.node? place = some (.file content)) :
    rulesAt tree' (pathTo place) = rulesAt tree (pathTo place) :=
  rulesAt_congr fun content => by
    rw [read_eq_ok_iff, read_eq_ok_iff]
    exact h.nodeAt_iff hrun hsteps (hfile content)

/-- A hidden ignore file is not written. -/
theorem rulesAt_hidden (h : b.PlainOut tree out) (hrun : b.run tree = some tree') {name : String}
    (hname : name.toList.head? = some '.')
    (hsteps : ∀ n ∈ above ++ [name], (Component.name n).IsStep) :
    rulesAt tree' (pathTo (above ++ [name])) = rulesAt tree (pathTo (above ++ [name])) := by
  have hwrites : ¬ b.WritesAt tree tree' (above ++ [name]) := h.not_writesAt_of_hidden hrun hname
  exact h.rulesAt_eq hrun hsteps (h.stays hrun hwrites).file_iff

/-- **The rules of a directory** are the same after the build. -/
theorem directoryRules_eq (h : b.PlainOut tree out) (hrun : b.run tree = some tree')
    (hplace : ∀ n ∈ place, (Component.name n).IsStep) :
    directoryRules tree' b.current place = directoryRules tree b.current place := by
  have hkeeps := h.keepsUnder_git hrun
  have hgit : ∀ n ∈ place ++ [".git"], (Component.name n).IsStep :=
    isStep_concat hplace (by decide)
  have hsame : tree'.node? (place ++ [".git"]) = tree.node? (place ++ [".git"]) :=
    hkeeps _ (by simp)
  have hfile : tree.isFile (pathTo (place ++ [".git"])) = false :=
    isFile_pathTo_eq_false hgit (h.noLinks.noLinkOn _) (h.repositories place)
  have hfile' : tree'.isFile (pathTo (place ++ [".git"])) = false :=
    (h.isFile_eq hrun hgit fun _ => by rw [hsame]).trans hfile
  have hignore : (directoryRules tree' b.current place).ignore
      = (directoryRules tree b.current place).ignore := by
    rw [directoryRules_ignore hplace, directoryRules_ignore hplace]
    exact h.rulesAt_hidden hrun (by decide) (isStep_concat hplace (by decide))
  have hgitignore : (directoryRules tree' b.current place).gitignore
      = (directoryRules tree b.current place).gitignore := by
    rw [directoryRules_gitignore hplace, directoryRules_gitignore hplace]
    exact h.rulesAt_hidden hrun (by decide) (isStep_concat hplace (by decide))
  have hexclude : (directoryRules tree' b.current place).exclude
      = (directoryRules tree b.current place).exclude := by
    rw [directoryRules_exclude hplace hfile', directoryRules_exclude hplace hfile]
    refine h.rulesAt_eq hrun (List.forall_mem_append.mpr ⟨hgit, by decide⟩) fun content => ?_
    rw [hkeeps _ (by simp)]
  have hrepository : (directoryRules tree' b.current place).isRepository
      = (directoryRules tree b.current place).isRepository := by
    rw [directoryRules_isRepository hplace, directoryRules_isRepository hplace, Bool.eq_iff_iff,
      isOk_nodeAt_iff, isOk_nodeAt_iff]
    exact exists_congr fun node => h.nodeAt_iff hrun hgit (by rw [hsame])
  exact (DirectoryRules.mk.injEq ..).mpr ⟨rfl, hignore, hgitignore, hexclude, hrepository⟩

/-! ## 3. The configuration file -/

/-- No file is written into the project's root. -/
theorem not_writesAt_root (h : b.PlainOut tree out) (hrun : b.run tree = some tree')
    (name : String) : ¬ b.WritesAt tree tree' (b.base ++ [name]) := by
  intro hwrites
  obtain ⟨key, bytes, front, hget, -, -, hbase⟩ := h.exists_of_writesAt hrun hwrites
  exact h.not_prefix hget ⟨front, hbase.symm⟩

/-- The configuration file that is looked for first is not put out, unless its path is too long for
it to be found. -/
theorem long_of_output (h : b.PlainOut tree out)
    (hget : (b.output tree).get? "jsxpipe.toml" = some entry) :
    pathLimit < (pathTo (b.base ++ ["jsxpipe.toml"])).utf8ByteSize := by
  have hrooted := h.rootedAt
  obtain ⟨names, content, -, hwalked, hname⟩ := exists_walked_of_output hrooted hget
  have hsteps : ∀ n ∈ names, (Component.name n).IsStep := fun n hn =>
    (hwalked.isName hrooted n (List.mem_append_right _ hn)).step
  obtain rfl : names = ["jsxpipe.toml"] := by
    rcases hname with hname | hname
    · exact names_eq_of_intercalate_eq hsteps (by decide) (hname.symm.trans (by decide))
    · -- a source map has another extension
      have hlast := congrArg (·.toList.getLast?) hname
      simp [sourceMapName, String.toList_append] at hlast
  by_contra hshort
  have hnode := nodeAt_eq_ok_iff.mpr
    ⟨_, lookUp_pathTo hrooted.disk hwalked.file (by simp) (Nat.not_lt.mp hshort)⟩
  have hpath := join_pathTo (isStep_concat hrooted.isStep (show
    (Component.name "jsxpipe.toml").IsStep by decide))
  have hconfig : (b.scope tree).configFile = some (pathTo (b.base ++ ["jsxpipe.toml"])) := by
    rw [← hpath]
    exact List.find?_cons_of_pos (hpath ▸ isFile_eq_true_iff.mpr ⟨_, hnode⟩)
  have hkept := hwalked.kept
  rw [excludes, excludes?, hconfig] at hkept
  simp at hkept

/-- Nor is one found in `.config` that was put out. -/
theorem isFile_config (h : b.PlainOut tree out) (hrun : b.run tree = some tree') :
    tree'.isFile (pathTo (b.base ++ [".config"] ++ ["jsxpipe.toml"]))
      = tree.isFile (pathTo (b.base ++ [".config"] ++ ["jsxpipe.toml"])) := by
  by_cases hwrites : b.WritesAt tree tree' (b.base ++ [".config"] ++ ["jsxpipe.toml"])
  · obtain ⟨key, bytes, front, hget, hvisible, hpieces, habove⟩ :=
      h.exists_of_writesAt hrun hwrites
    -- `.config` is no piece of the name, so all of it is the last one
    have hfront : front = [] := by
      by_contra hne
      have hlast := congrArg List.getLast? habove
      rw [List.getLast?_concat, List.getLast?_append_of_ne_nil _ hne] at hlast
      have hmem : ".config" ∈ piecesOf key := by
        rw [hpieces]
        exact List.mem_append_left _ (List.mem_of_getLast? hlast.symm)
      exact hvisible.head?_ne hmem (by decide)
    rw [hfront, List.nil_append] at hpieces
    have hpiecesOf : piecesOf "jsxpipe.toml" = ["jsxpipe.toml"] := by decide +kernel
    obtain rfl : key = "jsxpipe.toml" :=
      piecesOf_injective hvisible.isNormal (by decide) (hpieces.trans hpiecesOf.symm)
    have hlong : pathLimit
        < (pathTo (b.base ++ [".config"] ++ ["jsxpipe.toml"])).utf8ByteSize := by
      refine Nat.lt_of_lt_of_le (h.long_of_output hget) (utf8ByteSize_pathTo_le ?_)
      exact (List.sublist_append_left _ _).append (List.Sublist.refl _)
    rw [isFile_eq_false_of_long hlong, isFile_eq_false_of_long hlong]
  · refine h.isFile_eq hrun ?_ (h.stays hrun hwrites).file_iff
    exact isStep_concat (isStep_concat h.rootedAt.isStep (by decide)) (by decide)

/-- **The same configuration file** is found after the build. -/
theorem discover_eq (h : b.PlainOut tree out) (hrun : b.run tree = some tree') :
    BuildConfig.discover tree' (pathTo b.base) = BuildConfig.discover tree (pathTo b.base) := by
  have hbase := h.rootedAt.isStep
  have hroot : ∀ name, (Component.name name).IsStep →
      tree'.isFile (FilePath.join (pathTo b.base) name)
        = tree.isFile (FilePath.join (pathTo b.base) name) := by
    intro name hname
    rw [join_pathTo (isStep_concat hbase hname)]
    exact h.isFile_eq hrun (isStep_concat hbase hname)
      (h.stays hrun (h.not_writesAt_root hrun name)).file_iff
  have hpieces : piecesOf ".config/jsxpipe.toml" = [".config", "jsxpipe.toml"] := by
    decide +kernel
  have hconfig : FilePath.join (pathTo b.base) ".config/jsxpipe.toml"
      = pathTo (b.base ++ [".config"] ++ ["jsxpipe.toml"]) := by
    rw [join_pathTo_of_isNormal hbase (by decide), hpieces, List.append_assoc]
    rfl
  rw [BuildConfig.discover, BuildConfig.discover, List.find?_map, List.find?_map]
  refine congrArg _ (List.find?_congr fun name hname => ?_)
  simp only [BuildConfig.candidates, List.mem_cons, List.not_mem_nil, or_false] at hname
  rcases hname with rfl | rfl | rfl
  · exact hroot _ (by decide)
  · exact hroot _ (by decide)
  · rw [Function.comp_apply, Function.comp_apply, hconfig]
    exact h.isFile_config hrun

/-! ## 4. The next build -/

/-- **Such a build keeps the rules.** -/
theorem keepsRules (h : b.PlainOut tree out) (hrun : b.run tree = some tree') :
    b.KeepsRules tree tree' where
  scope := by
    have hbase := h.rootedAt.isStep
    have hrules : rulesAt tree' (FilePath.join (pathTo b.base) gitignore)
        = rulesAt tree (FilePath.join (pathTo b.base) gitignore) := by
      rw [join_pathTo (isStep_concat hbase (by decide))]
      exact h.rulesAt_hidden hrun (by decide) (isStep_concat hbase (by decide))
    rw [scope, scope, ofTree, ofTree, h.discover_eq hrun, hrules]
  directories := by
    intro place hdir _
    refine h.directoryRules_eq hrun fun n hn => ?_
    exact (h.tidy.isDisk.isName_of_mem (by rw [hdir]; simp) n hn).step

/-- **Nothing is read back** from such a directory. -/
theorem readsNothingBack (h : b.PlainOut tree out) (hrun : b.run tree = some tree') :
    b.ReadsNothingBack tree tree' :=
  readsNothingBack_of_passesBy h.toStands hrun (h.keepsRules hrun) fun _ =>
    h.toStands.passesBy_of_spelledOut hrun h.spelledOut

end PlainOut

end ScriptWeave.ProjectBuild
