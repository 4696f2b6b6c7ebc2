/-
# What a walk through a project finds

The walk goes down from the root and passes entries by for three reasons: they are the output
directory or below it, an ignore file of a directory above says so, or they are hidden.  The first
and the last of these also exclude a path from the scope.  So of what the walk finds, the files that
the scope keeps are told by two things: the nodes on the way, and what the ignore files on the way
say of each step (`admits`).

**Stated here.**  Below a root that is the canonical path of a directory, the walk finds a kept file
at exactly the locations of files to which every step is admitted (`mem_walk_iff`); and the change
set of the whole project holds these files, each under its own name
(`get?_wholeProject_eq_some_iff`).  It is collected where no file is barred and no path has become
too long (`RootedAt.collect_eq`).
-/
import ScriptWeave.Proofs.Project.Verdicts
import ScriptWeave.Proofs.SortedMap

namespace ScriptWeave
namespace ProjectScope

open FilePath FileTree

/-! ## 1. Scopes on a disk -/

/-- The scope's root is the canonical path of a directory on a disk. -/
structure RootedAt (scope : ProjectScope) (tree : FileTree) (base : Location) : Prop where
  disk : tree.IsDisk
  directory : tree.node? base = some .directory
  root : scope.root = pathTo base
  short : scope.root.utf8ByteSize ≤ pathLimit

section Keys

variable {scope : ProjectScope} {tree : FileTree} {base names : Location} {path key : String}

theorem RootedAt.isStep (h : scope.RootedAt tree base) :
    ∀ n ∈ base, (Component.name n).IsStep := fun n hn =>
  (h.disk.isName_of_mem (by rw [h.directory]; simp) n hn).step

theorem RootedAt.isStep_append (h : scope.RootedAt tree base)
    (hnames : ∀ n ∈ names, (Component.name n).IsStep) :
    ∀ n ∈ base ++ names, (Component.name n).IsStep :=
  List.forall_mem_append.mpr ⟨h.isStep, hnames⟩

theorem RootedAt.canonical (h : scope.RootedAt tree base) :
    tree.canonical scope.root = .ok base := by
  refine canonical_eq_ok_iff.mpr ⟨.directory, ?_⟩
  rw [h.root]
  exact lookUp_pathTo h.disk h.directory (by simp) (h.root ▸ h.short)

theorem RootedAt.components_root (h : scope.RootedAt tree base) :
    components scope.root.toList = .root :: base.map .name := by
  rw [h.root, components_pathTo h.isStep]

theorem relative?_eq_some_iff {root path : String} {parts : List Component} :
    relative? root path = some parts ↔
      components path.toList = components root.toList ++ parts := by
  simp only [relative?, startsWith, List.isPrefixOf_iff_prefix]
  split
  · rename_i hpre
    obtain ⟨rest, heq⟩ := hpre
    rw [← heq, List.drop_left, Option.some.injEq, List.append_cancel_left_eq]
  · rename_i hpre
    simp only [reduceCtorEq, false_iff]
    exact fun heq => hpre ⟨parts, heq.symm⟩

/-- The name of a path in a change set is made of its components below the root. -/
theorem key?_eq_some_iff : scope.key? path = some key ↔
    ∃ parts, parts ≠ [] ∧ components path.toList
        = components scope.root.toList ++ parts ∧
      key = String.intercalate "/" (parts.map (·.text)) := by
  simp only [← relative?_eq_some_iff, key?]
  cases hrel : relative? scope.root path with
  | none => simp
  | some parts =>
    cases parts with
    | nil => simp
    | cons c parts => simp [eq_comm (a := key)]

theorem relative?_pathTo (h : ∀ n ∈ base ++ names, (Component.name n).IsStep) :
    relative? (pathTo base) (pathTo (base ++ names)) = some (names.map .name) := by
  rw [relative?_eq_some_iff, components_pathTo h,
    components_pathTo fun n hn => h n (List.mem_append_left _ hn), List.map_append,
    List.cons_append]

/-- The verdict of the scope's own rules on a plain path below its root. -/
theorem RootedAt.verdict?_pathTo (h : scope.RootedAt tree base)
    (hnames : ∀ n ∈ names, (Component.name n).IsStep) :
    Ignore.verdict? scope.rules (join scope.root gitignore).toList (pathTo (base ++ names)).toList
      = some (Ignore.verdictWithParents scope.rules (Ignore.joined names)) := by
  have hfile := isStep_concat h.isStep (show (Component.name gitignore).IsStep by decide)
  rw [h.root, join_pathTo hfile]
  exact Ignore.verdict?_pathTo scope.rules hfile hnames

/-- Steps are known by the text that they make. -/
theorem steps_eq_of_intercalate_eq {parts parts' : List Component}
    (hparts : ∀ c ∈ parts, c.IsStep) (hparts' : ∀ c ∈ parts', c.IsStep)
    (h : String.intercalate "/" (parts.map (·.text))
      = String.intercalate "/" (parts'.map (·.text))) : parts = parts' := by
  have htext := congrArg String.toList h
  simp only [String.toList_intercalate, List.map_map] at htext
  have hback := filterMap_splitOn_intercalate hparts
  have hback' := filterMap_splitOn_intercalate hparts'
  simp only [Function.comp_def] at htext
  rw [← hback, ← hback']
  exact congrArg (fun t : List Char => (t.splitOn '/').filterMap componentOf) htext

theorem names_eq_of_intercalate_eq {names' : Location}
    (h : ∀ n ∈ names, (Component.name n).IsStep) (h' : ∀ n ∈ names', (Component.name n).IsStep)
    (heq : String.intercalate "/" names = String.intercalate "/" names') : names = names' := by
  have hmap := steps_eq_of_intercalate_eq (isStep_of_mem_map h) (isStep_of_mem_map h')
    (by simpa [Function.comp_def, Component.text] using heq)
  exact (List.map_inj_right fun _ _ => Component.name.inj).mp hmap

end Keys

/-! ## 2. Steps of the walk -/

/-- The ignore files admit every step of the way from a directory along some names: `chain` has the
rules of this directory and those above it, and each directory on the way adds its own. -/
def admits (tree : FileTree) (current : String) :
    List DirectoryRules → Location → List String → Bool
  | _, _, [] => true
  | chain, place, name :: rest =>
    let entry := place ++ [name]
    walkVerdict chain entry (!rest.isEmpty) ≠ .ignored &&
      admits tree current (directoryRules tree current entry :: chain) entry rest

section Steps

variable {scope : ProjectScope} {tree : FileTree} {base place names : Location} {name : String}

/-- What is below the output directory, has a hidden name below the root, or is ignored, is
excluded. -/
theorem kept_of_excludes_eq_false {path : String} {parts : List Component}
    (h : scope.excludes path = false) (hparts : relative? scope.root path = some parts) :
    startsWith (components path.toList) (components scope.outDir.toList) = false ∧
      (∀ c ∈ parts, isHidden c = false) ∧
      ∃ v, Ignore.verdict? scope.rules (join scope.root gitignore).toList path.toList = some v ∧
        v ≠ .ignored := by
  rw [excludes_eq_false_iff, excludes?, hparts] at h
  simp only at h
  split at h
  · cases h
  rename_i hout
  simp only [Bool.or_eq_true, not_or, Bool.not_eq_true] at hout
  split at h
  · cases h
  rename_i hhidden
  simp only [List.any_eq_true, not_exists, not_and, Bool.not_eq_true] at hhidden
  obtain ⟨v, hv, hkept⟩ := Option.map_eq_some_iff.mp h
  exact ⟨hout.1, hhidden, v, hv, of_decide_eq_false hkept⟩

/-- **On the way to a kept file the walk passes by what the ignore files say, and nothing else.** -/
theorem skips_eq (h : scope.RootedAt tree base)
    (hkept : scope.excludes (pathTo (base ++ names)) = false)
    (hnames : ∀ n ∈ names, (Component.name n).IsStep) {above : Location}
    (hentry : above ++ [name] <+: names) (chain : List DirectoryRules) (node : Node) :
    scope.skips chain (base ++ (above ++ [name])) node
      = decide (walkVerdict chain (base ++ (above ++ [name])) (node = .directory) = .ignored) := by
  have hsteps := h.isStep_append hnames
  obtain ⟨hout, hhidden, -⟩ :=
    kept_of_excludes_eq_false hkept (h.root ▸ relative?_pathTo hsteps)
  obtain ⟨rest, rfl⟩ := hentry
  have hentrySteps : ∀ n ∈ base ++ (above ++ [name]), (Component.name n).IsStep := fun n hn =>
    hsteps n (by rw [← List.append_assoc]; exact List.mem_append_left _ hn)
  -- the entry is not below the output directory: the file would be, too
  have hnotOut : startsWith (components (pathTo (base ++ (above ++ [name]))).toList)
      (components scope.outDir.toList) = false := by
    by_contra hin
    rw [Bool.not_eq_false] at hin
    have hbelow : startsWith (components (pathTo (base ++ (above ++ [name]))).toList ++
        rest.map .name) (components scope.outDir.toList) = true := startsWith_append hin
    rw [components_pathTo hentrySteps, List.cons_append, ← List.map_append, List.append_assoc,
      ← components_pathTo hsteps, hout] at hbelow
    cases hbelow
  -- and its name is not hidden
  have hname : name.toList.head? ≠ some '.' :=
    of_decide_eq_false (hhidden (.name name) (List.mem_map_of_mem (by simp)))
  have hlast : (base ++ (above ++ [name])).getLast? = some name := by simp
  simp only [skips, hnotOut, hlast, Option.bind_some, hname, decide_false, Bool.false_and,
    Bool.false_or, Bool.or_false]

/-- What the walk finds by one entry: a file that is not barred itself, of a directory what is
inside. -/
def FoundBy (scope : ProjectScope) (tree : FileTree) (current : String)
    (chain : List DirectoryRules) (entry : Location) (node : Node) (inside : FileTree)
    (e : Location × ByteArray) : Prop :=
  scope.skips chain entry node = false ∧
    ((∃ bytes, node = .file (.bytes bytes) ∧ e = (entry, bytes)) ∨
      node = .directory ∧
        e ∈ scope.walk tree current (directoryRules tree current entry :: chain) entry inside)

variable {current : String} {chain : List DirectoryRules} {node : Node} {inside : FileTree}
  {target : Location} {content : ByteArray}

theorem mem_walk_cons_iff {rest : FileTree} {e : Location × ByteArray} :
    e ∈ scope.walk tree current chain place (.cons name node inside rest) ↔
      scope.FoundBy tree current chain (place ++ [name]) node inside e ∨
        e ∈ scope.walk tree current chain place rest := by
  rw [walk.eq_def]
  simp only [List.mem_append, FoundBy]
  refine or_congr_left ?_
  split
  · rename_i hskip
    simp [hskip]
  · rename_i hskip
    rcases node with (_ | _) | _ | _ <;> simp [hskip]

/-- Whatever the walk finds in a directory is below it. -/
theorem exists_of_mem_walk {dir : FileTree} (hdir : dir.IsDisk)
    (h : (target, content) ∈ scope.walk tree current chain place dir) :
    ∃ first more, target = place ++ first :: more ∧ ∀ n ∈ first :: more, IsName n := by
  induction dir generalizing chain place with
  | nil => cases h
  | cons first node inside rest ihInside ihRest =>
    obtain ⟨hfirst, -, -, hinside, hrest⟩ := hdir
    rcases mem_walk_cons_iff.mp h with ⟨-, ⟨_, -, heq⟩ | ⟨-, h⟩⟩ | h
    · exact ⟨first, [], (Prod.mk.inj heq).1, List.forall_mem_singleton.mpr hfirst⟩
    · obtain ⟨second, more, rfl, hmore⟩ := ihInside hinside h
      exact ⟨first, second :: more, by simp, List.forall_mem_cons.mpr ⟨hfirst, hmore⟩⟩
    · exact ihRest hrest h

/-- Whatever is found by an entry is at it or below it. -/
theorem FoundBy.exists_append (hinside : inside.IsDisk)
    (h : scope.FoundBy tree current chain place node inside (target, content)) :
    ∃ more, target = place ++ more := by
  rcases h with ⟨-, ⟨_, -, heq⟩ | ⟨-, h⟩⟩
  · exact ⟨[], by simpa using (Prod.mk.inj heq).1⟩
  · obtain ⟨first, more, rfl, -⟩ := exists_of_mem_walk hinside h
    exact ⟨first :: more, rfl⟩

end Steps

/-! ## 3. What is found -/

section Found

variable {scope : ProjectScope} {tree : FileTree} {base names : Location} {current : String}

/-- The entry on the way to a kept file: if the walk finds the file inside exactly when it is there
and every further step is admitted, this goes for the entry, too. -/
theorem foundBy_iff (h : scope.RootedAt tree base)
    (hkept : scope.excludes (pathTo (base ++ names)) = false)
    (hnames : ∀ n ∈ names, (Component.name n).IsStep) {content : ByteArray} {name : String}
    {above more : Location} (hway : names = above ++ [name] ++ more) {node : Node}
    {inside : FileTree} (hinside : inside.IsDisk) (hsolid : node ≠ .directory → inside = nil)
    (hdown : more ≠ [] → ∀ chain, (base ++ names, content)
        ∈ scope.walk tree current chain (base ++ (above ++ [name])) inside ↔
      inside.node? more = some (.file content) ∧
        admits tree current chain (base ++ (above ++ [name])) more = true)
    (chain : List DirectoryRules) :
    scope.FoundBy tree current chain (base ++ (above ++ [name])) node inside
        (base ++ names, content) ↔
      (if more = [] then some node else inside.node? more) = some (.file content) ∧
        admits tree current chain (base ++ above) (name :: more) = true := by
  have hskip := skips_eq h hkept hnames ⟨more, hway.symm⟩ chain node
  have hsame : base ++ names = base ++ (above ++ [name]) ↔ more = [] := by simp [hway]
  have hbelow : ∀ chain, (base ++ names, content)
        ∈ scope.walk tree current chain (base ++ (above ++ [name])) inside ↔
      more ≠ [] ∧ inside.node? more = some (.file content) ∧
        admits tree current chain (base ++ (above ++ [name])) more = true := by
    intro chain
    by_cases hmore : more = []
    · refine iff_of_false (fun hmem => ?_) fun hne => hne.1 hmore
      obtain ⟨second, tail, heq, -⟩ := exists_of_mem_walk hinside hmem
      simp [hsame.mpr hmore] at heq
    · rw [hdown hmore, and_iff_right hmore]
  rw [FoundBy, hskip, hbelow, admits, List.append_assoc]
  generalize base ++ (above ++ [name]) = entry at *
  -- a file is the last of its way, and only a directory has something inside
  cases node with
  | file c =>
    by_cases hmore : more = []
    · cases c with
      | bytes b => simp [hsame, hmore, admits, eq_comm (a := content), and_comm]
      | barred cause => simp [hmore]
    · simp [hsame, hmore, hsolid, node?_of_nil hmore]
  | directory =>
    by_cases hmore : more = []
    · simp [hmore]
    · have hempty : more.isEmpty = false := by simpa using hmore
      simp [hmore, hempty, and_left_comm]
  | link target =>
    by_cases hmore : more = []
    · simp [hmore]
    · simp [hmore, hsolid, node?_of_nil hmore]

/-- The walk of a directory on the way to a kept file finds the file exactly if it is there and
every step to it is admitted. -/
theorem mem_walk_inside_iff (h : scope.RootedAt tree base)
    (hkept : scope.excludes (pathTo (base ++ names)) = false)
    (hnames : ∀ n ∈ names, (Component.name n).IsStep) (current : String) (content : ByteArray)
    {dir : FileTree} (hdir : dir.IsDisk) {above rest : Location} (hway : names = above ++ rest)
    (hrest : rest ≠ []) (chain : List DirectoryRules) :
    (base ++ names, content) ∈ scope.walk tree current chain (base ++ above) dir ↔
      dir.node? rest = some (.file content) ∧
        admits tree current chain (base ++ above) rest = true := by
  induction dir generalizing chain above rest with
  | nil => simp [walk, node?_of_nil hrest]
  | cons first node inside other ihInside ihRest =>
    obtain ⟨-, hother, hsolid, hinside, hdisk⟩ := hdir
    obtain ⟨name, more, rfl⟩ := List.exists_cons_of_ne_nil hrest
    rw [mem_walk_cons_iff, ihRest hdisk hway hrest, List.append_assoc]
    by_cases hname : name = first
    · subst hname
      have hway' : names = above ++ [name] ++ more := by simp [hway]
      have hfind : (cons name node inside other).find? name = some (node, inside) := if_pos rfl
      rw [foundBy_iff h hkept hnames hway' hinside hsolid (ihInside hinside hway'),
        node?_cons_of_find_none hother, node?_cons_of_find hfind]
      simp
    · -- the file is not found by this entry, and the others have it if the directory has it
      rw [node?_cons_of_ne hname, or_iff_right]
      intro hfound
      obtain ⟨tail, heq⟩ := hfound.exists_append hinside
      rw [hway, List.append_assoc, List.append_cancel_left_eq, List.append_assoc,
        List.append_cancel_left_eq] at heq
      exact hname (List.cons.inj heq).1

/-- **The walk of a project finds a kept file** exactly if it is there and every step to it is
admitted. -/
theorem mem_walk_iff (h : scope.RootedAt tree base)
    (hkept : scope.excludes (pathTo (base ++ names)) = false)
    (hnames : ∀ n ∈ names, (Component.name n).IsStep) (hne : names ≠ []) {content : ByteArray} :
    (base ++ names, content) ∈ scope.walk tree current (rulesUpward tree current base) base
        (tree.inside base) ↔
      tree.node? (base ++ names) = some (.file content) ∧
        admits tree current (rulesUpward tree current base) base names = true := by
  have hinside := mem_walk_inside_iff h hkept hnames current content (h.disk.inside base)
    (List.nil_append names).symm hne (rulesUpward tree current base)
  rwa [List.append_nil, ← node?_append tree base hne] at hinside

/-- The change set of the whole project takes a file: it is at the location that these names lead to
from the root, its path is kept, and every step to it is admitted. -/
structure Walked (scope : ProjectScope) (tree : FileTree) (current : String)
    (base names : Location) (content : ByteArray) : Prop where
  file : tree.node? (base ++ names) = some (.file content)
  kept : scope.excludes (pathTo (base ++ names)) = false
  admitted : admits tree current (rulesUpward tree current base) base names = true

theorem Walked.isName {content : ByteArray} (h : scope.RootedAt tree base)
    (hwalked : scope.Walked tree current base names content) : ∀ n ∈ base ++ names, IsName n :=
  h.disk.isName_of_mem (by rw [hwalked.file]; simp)

/-- The name in a change set of a plain path below the root. -/
theorem key?_pathTo (h : scope.RootedAt tree base)
    (hnames : ∀ n ∈ names, (Component.name n).IsStep) (hne : names ≠ []) :
    scope.key? (pathTo (base ++ names)) = some (String.intercalate "/" names) := by
  refine key?_eq_some_iff.mpr ⟨names.map .name, by simpa using hne, ?_, ?_⟩
  · rw [h.root]
    exact relative?_eq_some_iff.mp (relative?_pathTo (h.isStep_append hnames))
  · simp [Function.comp_def, Component.text]

/-- What is found, as the change set takes it. -/
def pairsOf (scope : ProjectScope) (found : List (Location × ByteArray)) :
    List (String × ByteArray) :=
  found.filterMap fun (place, content) =>
    let path := FileTree.pathTo place
    if scope.excludes path then none
    else (scope.key? path).map fun key => (key, content)

theorem mem_pairsOf_iff {found : List (Location × ByteArray)} {key : String}
    {content : ByteArray} : (key, content) ∈ scope.pairsOf found ↔
      ∃ place, (place, content) ∈ found ∧ scope.excludes (pathTo place) = false ∧
        scope.key? (pathTo place) = some key := by
  rw [pairsOf, List.mem_filterMap]
  constructor
  · rintro ⟨⟨place, c⟩, hfound, heq⟩
    simp only at heq
    split at heq
    · cases heq
    · rename_i hkept
      obtain ⟨k, hkey, hpair⟩ := Option.map_eq_some_iff.mp heq
      obtain ⟨rfl, rfl⟩ := Prod.mk.inj hpair
      exact ⟨place, hfound, by simpa using hkept, hkey⟩
  · rintro ⟨place, hfound, hkept, hkey⟩
    exact ⟨(place, content), hfound, by simp [hkept, hkey]⟩

theorem wholeProject_updated (h : scope.RootedAt tree base) :
    (scope.wholeProject tree current).updated = .ofList (scope.pairsOf (scope.walk tree current
      (rulesUpward tree current base) base (tree.inside base))) := by
  have hplace : (tree.canonical scope.root).toOption.getD [] = base := by
    rw [h.canonical]
    rfl
  rw [wholeProject, hplace]
  rfl

/-- The pairs of the whole project are the files that the walk finds and the scope keeps. -/
theorem mem_pairsOf_walk_iff (h : scope.RootedAt tree base) {key : String} {content : ByteArray} :
    (key, content) ∈ scope.pairsOf (scope.walk tree current
        (rulesUpward tree current base) base (tree.inside base)) ↔
      ∃ names, names ≠ [] ∧ key = String.intercalate "/" names ∧
        scope.Walked tree current base names content := by
  rw [mem_pairsOf_iff]
  constructor
  · rintro ⟨place, hfound, hkept, hkey⟩
    obtain ⟨first, more, rfl, hnames⟩ := exists_of_mem_walk (h.disk.inside base) hfound
    have hsteps : ∀ n ∈ first :: more, (Component.name n).IsStep := fun n hn => (hnames n hn).step
    have hne : first :: more ≠ [] := List.cons_ne_nil first more
    rw [key?_pathTo h hsteps hne, Option.some.injEq] at hkey
    obtain ⟨hfile, hadmitted⟩ := (mem_walk_iff h hkept hsteps hne).mp hfound
    exact ⟨first :: more, hne, hkey.symm, hfile, hkept, hadmitted⟩
  · rintro ⟨names, hne, rfl, hwalked⟩
    have hsteps : ∀ n ∈ names, (Component.name n).IsStep := fun n hn =>
      (hwalked.isName h n (List.mem_append_right base hn)).step
    exact ⟨base ++ names,
      (mem_walk_iff h hwalked.kept hsteps hne).mpr ⟨hwalked.file, hwalked.admitted⟩,
      hwalked.kept, key?_pathTo h hsteps hne⟩

/-- **The change set of the whole project** has exactly the files that the walk finds and the scope
keeps, each under the names that lead to it. -/
theorem get?_wholeProject_eq_some_iff (h : scope.RootedAt tree base) {key : String}
    {content : ByteArray} : (scope.wholeProject tree current).updated.get? key = some content ↔
      ∃ names, names ≠ [] ∧ key = String.intercalate "/" names ∧
        scope.Walked tree current base names content := by
  rw [wholeProject_updated h, SortedMap.get?_ofList_eq_some_iff, mem_pairsOf_walk_iff h]
  -- two files with one name are at one location
  rintro ⟨key, c⟩ hc ⟨_, d⟩ hd rfl
  obtain ⟨names, -, hkey, hwalked⟩ := (mem_pairsOf_walk_iff h).mp hc
  obtain ⟨names', -, hkey', hwalked'⟩ := (mem_pairsOf_walk_iff h).mp hd
  have hsteps : ∀ n ∈ names, (Component.name n).IsStep := fun n hn =>
    (hwalked.isName h n (List.mem_append_right base hn)).step
  have hsteps' : ∀ n ∈ names', (Component.name n).IsStep := fun n hn =>
    (hwalked'.isName h n (List.mem_append_right base hn)).step
  obtain rfl := names_eq_of_intercalate_eq hsteps hsteps' (hkey.symm.trans hkey')
  have hfile := hwalked.file.symm.trans hwalked'.file
  simpa using hfile

end Found

/-! ## 4. Collecting -/

section Collecting

variable {scope : ProjectScope} {tree : FileTree} {current : String} {base place : Location}
  {changes : Changes}

/-- What is collected, if there is no obstacle, is the whole project. -/
theorem collect_eq_ok_iff : scope.collect tree current = .ok changes ↔
    (scope.collect tree current).isOk = true ∧ scope.wholeProject tree current = changes := by
  unfold collect
  split
  · simp [Except.isOk, Except.toBool]
  · dsimp only
    split <;> simp [Except.isOk, Except.toBool]

/-- There is no obstacle in a directory, if no file in it is barred, and the path of every file and
every directory in it leads there. -/
theorem obstacle?_eq_none {dir : FileTree} {chain : List DirectoryRules}
    (hopen : ∀ e ∈ dir.nodesFrom place, e.2.barrier? = none)
    (h : ∀ e ∈ dir.nodesFrom place, (∀ target, e.2 ≠ .link target) →
      tree.nodeAt (pathTo e.1) = .ok e.2) :
    scope.obstacle? tree current chain place dir = none := by
  induction dir generalizing chain place with
  | nil => rfl
  | cons name node inside rest ihInside ihRest =>
    have hofRest : ∀ e ∈ rest.nodesFrom place, e ∈ (cons name node inside rest).nodesFrom place :=
      fun e he => List.mem_cons_of_mem _ (List.mem_append_right _ he)
    have hofInside : ∀ e ∈ inside.nodesFrom (place ++ [name]),
        e ∈ (cons name node inside rest).nodesFrom place :=
      fun e he => List.mem_cons_of_mem _ (List.mem_append_left _ he)
    have hrest := @ihRest place chain (fun e he => hopen e (hofRest e he))
      fun e he => h e (hofRest e he)
    have hinside := fun chain => @ihInside (place ++ [name]) chain
      (fun e he => hopen e (hofInside e he)) fun e he => h e (hofInside e he)
    have hentry := h (place ++ [name], node) List.mem_cons_self
    simp only [obstacle?, hrest, Option.or_none]
    cases node with
    | file content =>
      cases content with
      | bytes bytes => simp [read_eq_ok_iff.mpr (hentry nofun)]
      | barred cause => cases hopen _ List.mem_cons_self
    | directory => simp [hentry nofun, hinside]
    | link target => simp

/-- **All is collected** of a project on a disk in which no file is barred and the paths of the
files and directories lead there. -/
theorem RootedAt.collect_eq (h : scope.RootedAt tree base)
    (hopen : ∀ e ∈ (tree.inside base).nodesFrom base, e.2.barrier? = none)
    (hnodes : ∀ e ∈ (tree.inside base).nodesFrom base, (∀ target, e.2 ≠ .link target) →
      tree.nodeAt (pathTo e.1) = .ok e.2) :
    scope.collect tree current = .ok (scope.wholeProject tree current) := by
  rw [collect, h.canonical]
  simp only [obstacle?_eq_none hopen hnodes]

end Collecting

end ProjectScope
end ScriptWeave
