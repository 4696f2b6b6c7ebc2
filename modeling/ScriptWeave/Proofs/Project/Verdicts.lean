/-
# What the ignore files say on the walk

Each directory that the walk comes through has rules of three kinds: from its `.ignore`, from its
`.gitignore`, and from the exclude file of its repository.  The three are read from plain paths, so
they are those of the files that stand there, and there are none where nothing stands
(`bare_directoryRules`).

**Stated here.**  An entry is passed by on account of the ignore files only if the rules of some
directory above it, taken by themselves, ignore it (`exists_of_walkVerdict_eq_ignored`); and the
`.gitignore` of the directory that the entry is in has the first word where there is no `.ignore`
(`walkVerdict_of_nearest`).
-/
import ScriptWeave.Project.Collect
import ScriptWeave.Proofs.FileTree.Disk
import ScriptWeave.Proofs.Ignore.Parents

namespace ScriptWeave
namespace ProjectScope

open FilePath FileTree

/-! ## 1. The rules of a directory -/

section Rules

variable {tree : FileTree} {place : Location}

theorem rulesAt_of_file (h : tree.IsDisk) {content : ByteArray}
    (hnode : tree.node? place = some (.file content))
    (hshort : (pathTo place).utf8ByteSize ≤ pathLimit) :
    rulesAt tree (pathTo place) = Ignore.rulesOf content := by
  have hread : tree.read (pathTo place) = .ok content :=
    read_eq_ok_iff.mpr (nodeAt_eq_ok_iff.mpr ⟨place, lookUp_pathTo h hnode (by simp) hshort⟩)
  rw [rulesAt, hread]

/-- There are no rules where there is no file. -/
theorem rulesAt_of_not_file (hsteps : ∀ n ∈ place, (Component.name n).IsStep)
    (hlinks : tree.NoLinkOn place) (hnode : ∀ content, tree.node? place ≠ some (.file content)) :
    rulesAt tree (pathTo place) = [] := by
  unfold rulesAt
  split
  · rename_i content hread
    exact absurd (node?_of_nodeAt (components_pathTo hsteps) hlinks (read_eq_ok_iff.mp hread))
      (hnode content)
  · rfl

/-- Where the same is read in two trees, the rules are the same. -/
theorem rulesAt_congr {tree' : FileTree} {path : String}
    (hread : ∀ content, tree'.read path = .ok content ↔ tree.read path = .ok content) :
    rulesAt tree' path = rulesAt tree path := by
  unfold rulesAt
  cases hnew : tree'.read path with
  | ok content => rw [(hread content).mp hnew]
  | error e =>
    cases hold : tree.read path with
    | ok content =>
      rw [(hread content).mpr hold] at hnew
      cases hnew
    | error _ => rfl

/-- The files that the rules of a directory are read from. -/
theorem directoryRules_ignore (hsteps : ∀ n ∈ place, (Component.name n).IsStep)
    (current : String) : (directoryRules tree current place).ignore
      = rulesAt tree (pathTo (place ++ [".ignore"])) :=
  congrArg (rulesAt tree) (join_pathTo (isStep_concat hsteps (by decide)))

theorem directoryRules_gitignore (hsteps : ∀ n ∈ place, (Component.name n).IsStep)
    (current : String) : (directoryRules tree current place).gitignore
      = rulesAt tree (pathTo (place ++ [gitignore])) :=
  congrArg (rulesAt tree) (join_pathTo (isStep_concat hsteps (by decide)))

/-- The exclude file of a directory whose `.git` is no file. -/
theorem directoryRules_exclude (hsteps : ∀ n ∈ place, (Component.name n).IsStep)
    (hfile : tree.isFile (pathTo (place ++ [".git"])) = false) (current : String) :
    (directoryRules tree current place).exclude
      = rulesAt tree (pathTo (place ++ [".git"] ++ ["info", "exclude"])) := by
  have hgit : ∀ n ∈ place ++ [".git"], (Component.name n).IsStep :=
    isStep_concat hsteps (by decide)
  have hshared : sharedDirectory? tree current (pathTo place)
      = some (pathTo (place ++ [".git"])) := by
    rw [sharedDirectory?, join_pathTo hgit, hfile]
    rfl
  have hpieces : piecesOf "info/exclude" = ["info", "exclude"] := by decide +kernel
  rw [directoryRules]
  simp only [hshared, join_pathTo_of_isNormal hgit (show IsNormal "info/exclude" by decide),
    hpieces]

/-- A directory that is no repository has no exclude file. -/
theorem directoryRules_exclude_of_none (hsteps : ∀ n ∈ place, (Component.name n).IsStep)
    (hlinks : tree.NoLinkOn place) (hnode : tree.node? (place ++ [".git"]) = none)
    (current : String) : (directoryRules tree current place).exclude = [] := by
  have hgit : ∀ n ∈ place ++ [".git"], (Component.name n).IsStep :=
    isStep_concat hsteps (by decide)
  have hgitLinks : tree.NoLinkOn (place ++ [".git"]) := hlinks.concat (by simp [hnode])
  rw [directoryRules_exclude hsteps (isFile_pathTo_eq_false hgit hgitLinks (by simp [hnode]))]
  have hbehind : tree.node? (place ++ [".git"] ++ ["info", "exclude"]) = none := by
    by_contra hne
    exact node?_ne_none_of_append hne hnode
  refine rulesAt_of_not_file (List.forall_mem_append.mpr ⟨hgit, by decide⟩)
    (hgitLinks.append_of_none hnode _) fun content => ?_
  rw [hbehind]
  simp

theorem directoryRules_isRepository (hsteps : ∀ n ∈ place, (Component.name n).IsStep)
    (current : String) : (directoryRules tree current place).isRepository
      = (tree.nodeAt (pathTo (place ++ [".git"]))).isOk :=
  congrArg (fun path => (tree.nodeAt path).isOk) (join_pathTo (isStep_concat hsteps (by decide)))

/-- A directory has no ignore rules of its own. -/
structure DirectoryRules.Bare (d : DirectoryRules) : Prop where
  ignore : d.ignore = []
  gitignore : d.gitignore = []
  exclude : d.exclude = []

theorem DirectoryRules.Bare.verdict_ne_ignored {d : DirectoryRules} (h : d.Bare)
    {rules : List Ignore.Rule} (hrules : rules ∈ [d.ignore, d.gitignore, d.exclude])
    (path : List UInt8) (isDirectory : Bool) :
    Ignore.verdict rules path isDirectory ≠ .ignored := by
  have hnil : rules = [] := by simpa [h.ignore, h.gitignore, h.exclude] using hrules
  rw [hnil]
  intro hignored
  cases hignored

/-- A directory without a file of that name has no rules from it. -/
theorem rulesAt_concat_of_none {name : String} (hsteps : ∀ n ∈ place, (Component.name n).IsStep)
    (hlinks : tree.NoLinkOn place) (hname : (Component.name name).IsStep)
    (hnode : tree.node? (place ++ [name]) = none) : rulesAt tree (pathTo (place ++ [name])) = [] :=
  rulesAt_of_not_file (isStep_concat hsteps hname) (hlinks.concat (by simp [hnode]))
    (by simp [hnode])

/-- A directory is bare if it has neither of the ignore files and is no repository. -/
theorem bare_directoryRules (hsteps : ∀ n ∈ place, (Component.name n).IsStep)
    (hlinks : tree.NoLinkOn place)
    (hnone : ∀ name ∈ [".ignore", ProjectScope.gitignore, ".git"],
      tree.node? (place ++ [name]) = none) (current : String) :
    (directoryRules tree current place).Bare where
  ignore := by
    rw [directoryRules_ignore hsteps]
    exact rulesAt_concat_of_none hsteps hlinks (by decide) (hnone _ (by simp))
  gitignore := by
    rw [directoryRules_gitignore hsteps]
    exact rulesAt_concat_of_none hsteps hlinks (by decide) (hnone _ (by simp))
  exclude := directoryRules_exclude_of_none hsteps hlinks (hnone _ (by simp)) current

/-- The rules of a directory that has neither of the ignore files and is no repository. -/
theorem directoryRules_of_none (hsteps : ∀ n ∈ place, (Component.name n).IsStep)
    (hlinks : tree.NoLinkOn place)
    (hnone : ∀ name ∈ [".ignore", ProjectScope.gitignore, ".git"],
      tree.node? (place ++ [name]) = none) (current : String) :
    directoryRules tree current place = ⟨place, [], [], [], false⟩ := by
  obtain ⟨hignore, hgitignore, hexclude⟩ := bare_directoryRules hsteps hlinks hnone current
  have hgit : tree.node? (place ++ [".git"]) = none := hnone _ (by simp)
  have hrepository : (directoryRules tree current place).isRepository = false := by
    rw [directoryRules_isRepository hsteps]
    cases hnode : tree.nodeAt (pathTo (place ++ [".git"])) with
    | error e => rfl
    | ok node =>
      have hthere := node?_of_nodeAt (components_pathTo (isStep_concat hsteps (by decide)))
        (hlinks.concat (by simp [hgit])) hnode
      rw [hgit] at hthere
      cases hthere
  have hplace : (directoryRules tree current place).place = place := rfl
  cases h : directoryRules tree current place
  simp_all

/-- Nothing is configured or ignored at a root that has none of the files. -/
theorem ofTree_of_none {base : Location} (hsteps : ∀ n ∈ base, (Component.name n).IsStep)
    (hnone : ∀ name ∈ gitignore :: BuildConfig.candidates,
      tree.NoLinkOn (base ++ piecesOf name) ∧ tree.node? (base ++ piecesOf name) = none)
    (dir : String) : ofTree tree (pathTo base) dir = ⟨pathTo base, dir, none, []⟩ := by
  have hnormal : ∀ name ∈ gitignore :: BuildConfig.candidates, IsNormal name := by decide
  have hfile : ∀ name ∈ gitignore :: BuildConfig.candidates,
      tree.isFile (FilePath.join (pathTo base) name) = false := by
    intro name hname
    obtain ⟨hlinks, hnode⟩ := hnone name hname
    by_contra hfile
    obtain ⟨content, hfound⟩ := isFile_eq_true_iff.mp ((Bool.not_eq_false _).mp hfile)
    have hpath : components (FilePath.join (pathTo base) name).toList
        = .root :: (base ++ piecesOf name).map .name := by
      rw [components_join _ (hnormal name hname), components_pathTo hsteps, List.map_append,
        List.cons_append]
    rw [node?_of_nodeAt hpath hlinks hfound] at hnode
    cases hnode
  have hconfig : BuildConfig.discover tree (pathTo base) = none := by
    rw [BuildConfig.discover, List.find?_map, Option.map_eq_none_iff, List.find?_eq_none]
    intro name hname
    simp [hfile name (List.mem_cons_of_mem _ hname)]
  have hrules : rulesAt tree (FilePath.join (pathTo base) gitignore) = [] := by
    unfold rulesAt
    split
    · rename_i content hread
      have htrue := isFile_eq_true_iff.mpr ⟨content, read_eq_ok_iff.mp hread⟩
      rw [hfile gitignore List.mem_cons_self] at htrue
      cases htrue
    · rfl
  rw [ofTree, hconfig, hrules]

/-- The rules of a directory and those above it are the rules of the places on the way to it. -/
theorem exists_of_mem_rulesUpward {current : String} {d : DirectoryRules}
    (h : d ∈ rulesUpward tree current place) :
    ∃ above, above <+: place ∧ d = directoryRules tree current above := by
  obtain ⟨n, -, rfl⟩ := List.mem_map.mp h
  exact ⟨place.take n, List.take_prefix n place, rfl⟩

end Rules

/-! ## 2. Which ignore file decides -/

/-- The name that an entry has for the rules of a directory above it. -/
def DirectoryRules.nameOf (d : DirectoryRules) (place : Location) : List UInt8 :=
  (String.intercalate "/" (place.drop d.place.length)).toUTF8.toList

section Verdicts

variable {select : DirectoryRules → List Ignore.Rule} {place : Location} {isDirectory : Bool}
  {chain : List DirectoryRules} {d : DirectoryRules}

/-- The nearest rules that say anything are those of the first directory, if these do. -/
theorem nearest_cons_of_ne_silent
    (h : Ignore.verdict (select d) (d.nameOf place) isDirectory ≠ .silent) :
    nearest select place isDirectory (d :: chain)
      = Ignore.verdict (select d) (d.nameOf place) isDirectory := by
  have hsome : (select d).isEmpty = false := by
    by_contra hempty
    rw [Bool.not_eq_false, List.isEmpty_iff] at hempty
    exact h (by rw [hempty]; rfl)
  rw [nearest, List.foldl_cons]
  simp only [hsome, Bool.false_eq_true, if_false, Ignore.Verdict.orElse]
  exact Ignore.foldl_orElse_of_ne_silent h _ _

theorem nearest_of_nil (h : ∀ d ∈ chain, select d = []) :
    nearest select place isDirectory chain = .silent := by
  induction chain with
  | nil => rfl
  | cons d chain ih =>
    rw [List.forall_mem_cons] at h
    rw [← ih h.2, nearest, nearest, List.foldl_cons]
    simp only [h.1, List.isEmpty_nil, if_true, Ignore.Verdict.orElse]

/-- What is ignored is ignored by the rules of some directory. -/
theorem exists_of_nearest_eq_ignored (h : nearest select place isDirectory chain = .ignored) :
    ∃ d ∈ chain, Ignore.verdict (select d) (d.nameOf place) isDirectory = .ignored := by
  rcases Ignore.eq_or_exists_of_foldl_orElse h with hnone | ⟨d, hd, heq⟩
  · cases hnone
  · refine ⟨d, hd, ?_⟩
    simp only at heq
    split at heq
    · cases heq
    · exact heq

theorem withinRepository_subset (chain : List DirectoryRules) : withinRepository chain ⊆ chain := by
  induction chain with
  | nil => exact List.Subset.refl []
  | cons d chain ih =>
    rw [withinRepository]
    split
    · exact List.cons_subset_cons d (List.nil_subset chain)
    · exact List.cons_subset_cons d ih

/-- **What the walk passes by** is ignored by some ignore file of a directory above. -/
theorem exists_of_walkVerdict_eq_ignored (h : walkVerdict chain place isDirectory = .ignored) :
    ∃ d ∈ chain, ∃ rules ∈ [d.ignore, d.gitignore, d.exclude],
      Ignore.verdict rules (d.nameOf place) isDirectory = .ignored := by
  rcases Ignore.eq_or_eq_of_orElse h with h | h
  · obtain ⟨d, hd, hignored⟩ := exists_of_nearest_eq_ignored h
    exact ⟨d, hd, d.ignore, by simp, hignored⟩
  rcases Ignore.eq_or_eq_of_orElse h with h | h
  · obtain ⟨d, hd, hignored⟩ := exists_of_nearest_eq_ignored h
    exact ⟨d, withinRepository_subset chain hd, d.gitignore, by simp, hignored⟩
  · obtain ⟨d, hd, hignored⟩ := exists_of_nearest_eq_ignored h
    exact ⟨d, withinRepository_subset chain hd, d.exclude, by simp, hignored⟩

/-- **Where no file is named `.ignore`**, the `.gitignore` of the nearest directory decides, if it
says anything. -/
theorem walkVerdict_of_nearest (hignore : ∀ e ∈ d :: chain, e.ignore = [])
    (h : Ignore.verdict d.gitignore (d.nameOf place) isDirectory ≠ .silent) :
    walkVerdict (d :: chain) place isDirectory
      = Ignore.verdict d.gitignore (d.nameOf place) isDirectory := by
  obtain ⟨more, hown⟩ : ∃ more, withinRepository (d :: chain) = d :: more := by
    rw [withinRepository]
    split
    · exact ⟨[], rfl⟩
    · exact ⟨_, rfl⟩
  have hnearest : nearest (·.gitignore) place isDirectory (d :: more)
      = Ignore.verdict d.gitignore (d.nameOf place) isDirectory := nearest_cons_of_ne_silent h
  simp only [walkVerdict, nearest_of_nil hignore, hown, Ignore.Verdict.orElse, hnearest]

end Verdicts

end ProjectScope
end ScriptWeave
