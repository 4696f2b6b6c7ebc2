/-
# Files below a directory, written and removed

The operations on a file's path, said by what they leave at every location of the tree.  Making the
directories above a file makes those that are missing, and changes nothing else
(`DirectoriesMade`).  So writing a file and removing it change the *files* of the tree at one
location only, and `fileAt` is all that is left to look at.

**Stated here.**  Below a directory without links inside, `OpenBelow.write_spec` and
`OpenBelow.removeIfPresent_spec` say what has happened where the operations succeed.  For a
directory that was empty at first, `GrownBelow.writeDeep_spec` and
`GrownBelow.removeIfPresent_spec` do, and `GrownBelow.writeDeep_ok` says when writing succeeds.
-/
import ScriptWeave.Proofs.FileTree.Below
import ScriptWeave.Proofs.FileTree.Effects

namespace ScriptWeave.FileTree

open FilePath

section Below

variable {top tree : FileTree} {dir path : String} {out : Location} {names : List String}
  {name : String}

/-! ## 1. One entry -/

/-- What is at an entry whose name is not too long. -/
theorem IsEntry.node_of_ok {d : Destination} {node : Option Node}
    (h : IsEntry tree path out names name d) (hnode : d.node? tree = .ok node) :
    name.utf8ByteSize ≤ nameLimit ∧ tree.node? (out ++ (names ++ [name])) = node := by
  rw [h.node] at hnode
  split at hnode
  · cases hnode
  · rename_i hsize
    exact ⟨Nat.not_lt.mp hsize, Except.ok.inj hnode⟩

/-- What is found after a node was put at an entry. -/
theorem IsEntry.node?_put {d : Destination} (h : IsEntry tree path out names name d) (node : Node)
    (place : Location) : (tree.put d.place node).node? place
      = if place = out ++ (names ++ [name]) then some node else tree.node? place := by
  rw [h.place, FileTree.node?_put (by simp)]
  rw [← List.append_assoc, List.dropLast_concat, h.directory]
  simp

/-- A path that leads somewhere leads to an entry. -/
theorem OpenBelow.isEntry_of_reach (h : OpenBelow dir out tree)
    (hpath : IsBelow dir path (names ++ [name]))
    (hnames : ∀ n ∈ names ++ [name], (Component.name n).IsStep) {last : LastLink} {d : Destination}
    (hd : tree.reach last path = .ok d) : IsEntry tree path out names name d := by
  rcases h.reach hpath (passable_of_reach hd) hnames with ⟨d', hentry⟩ | ⟨e, hreach, -⟩
  · obtain rfl := Except.ok.inj ((hentry.reach last).symm.trans hd)
    exact hentry
  · rw [hreach] at hd
    cases hd

/-- A name, taken apart into its directory and the last piece. -/
theorem exists_piecesOf_eq {name : String} (h : IsNormal name) :
    ∃ names last, piecesOf name = names ++ [last] := by
  obtain hnil | ⟨names, last, heq⟩ := List.eq_nil_or_concat (piecesOf name)
  · exact absurd hnil (piecesOf_ne_nil h)
  · exact ⟨names, last, by rw [heq, List.concat_eq_append]⟩

/-- The path of a name in the directory, with the name taken apart. -/
theorem exists_isBelow_join (dir : String) (hname : IsNormal name) :
    ∃ names last, piecesOf name = names ++ [last] ∧
      IsBelow dir (FilePath.join dir name) (names ++ [last]) ∧
      ∀ n ∈ names ++ [last], (Component.name n).IsStep := by
  obtain ⟨names, last, hpieces⟩ := exists_piecesOf_eq hname
  refine ⟨names, last, hpieces, ?_, ?_⟩
  · rw [← hpieces]
    exact isBelow_join dir hname
  · rw [← hpieces]
    exact fun _ hp => isStep_of_mem_piecesOf hname hp

/-- What is at the end of a walk along the path of a name, and that the name fits. -/
theorem OpenBelow.node?_of_reach (h : OpenBelow dir out tree) (hname : IsNormal name)
    {last : LastLink} {d : Destination} {node : Option Node}
    (hd : tree.reach last (FilePath.join dir name) = .ok d) (hnode : d.node? tree = .ok node) :
    FitsBelow dir name ∧ d.place = out ++ piecesOf name ∧
      tree.node? (out ++ piecesOf name) = node := by
  obtain ⟨names, last, hpieces, hpath, hsteps⟩ := exists_isBelow_join dir hname
  have hentry := h.isEntry_of_reach hpath hsteps hd
  obtain ⟨hsize, hthere⟩ := hentry.node_of_ok hnode
  refine ⟨⟨hname, passable_of_reach hd, fun piece hp => ?_⟩, ?_, ?_⟩
  · rw [hpieces] at hp
    rcases List.mem_append.mp hp with hp | hp
    · exact hentry.short piece hp
    · rwa [List.mem_singleton.mp hp]
  · rw [hpieces, hentry.place]
  · rw [hpieces, hthere]

/-- A file is found where it fits and stands. -/
theorem OpenBelow.nodeAt_of_fits (h : OpenBelow dir out tree) (hfits : FitsBelow dir name)
    {content : FileContent} (hfile : tree.node? (out ++ piecesOf name) = some (.file content)) :
    tree.nodeAt (FilePath.join dir name) = .ok (.file content) := by
  obtain ⟨names, last, hpieces, hpath, hsteps⟩ := exists_isBelow_join dir hfits.normal
  have hshort := hfits.short
  rw [hpieces] at hfile hshort
  obtain ⟨d, hentry⟩ := h.exists_isEntry hpath hfits.passable hsteps
    (fun n hn => hshort n (List.mem_append_left _ hn)) (h.solid _ _ (by rw [hfile]; simp))
  have hnode := hentry.node
  rw [if_neg (Nat.not_lt.mpr (hshort last (by simp))), hfile] at hnode
  have hslash : d.slash = false := by
    rw [hentry.slash, endsInSlash_join dir hfits.normal]
  refine nodeAt_eq_ok_iff.mpr ⟨d.place, lookUp_eq_ok_iff.mpr ?_⟩
  exact ⟨d, hentry.reach _, hnode, by simp [hslash], rfl⟩

/-- What is found stands where its name says. -/
theorem OpenBelow.node?_of_nodeAt (h : OpenBelow dir out tree) (hname : IsNormal name)
    {node : Node} (hfound : tree.nodeAt (FilePath.join dir name) = .ok node) :
    tree.node? (out ++ piecesOf name) = some node := by
  obtain ⟨place, hlook⟩ := nodeAt_eq_ok_iff.mp hfound
  obtain ⟨d, hd, hnode, -⟩ := lookUp_eq_ok_iff.mp hlook
  exact (h.node?_of_reach hname hd hnode).2.2

/-! ## 2. Directories -/

/-- The output directory is found, and not made again. -/
theorem OpenBelow.directory_there (h : OpenBelow dir out tree) (hpath : IsBelow dir path [])
    (hpass : Passable path) :
    tree.isDirectory path = true ∧ ∃ e, tree.makeDirectory path = .error e ∧ e ≠ .notFound := by
  obtain ⟨links, trail, -, -, hall⟩ := h.exists_leads
  obtain ⟨front, hpieces, hleads⟩ := hall path [] hpath
  rw [List.append_nil] at hpieces
  have hreach := fun last => reach_of_passable tree last hpass
  constructor
  · obtain ⟨d, hd, -, hdir⟩ := hleads.follow_followed (endsInSlash path)
    exact isDirectory_eq_true_iff.mpr ⟨d, by rw [hreach, hpieces, hd], hdir⟩
  · obtain ⟨d, node, hd, hnode⟩ := hleads.follow_kept (endsInSlash path)
    refine ⟨.alreadyExists, ?_, nofun⟩
    rw [makeDirectory_eq, hreach, hpieces, hd]
    simp only [hnode]

/-- A directory that is found is there. -/
theorem OpenBelow.node?_of_isDirectory (h : OpenBelow dir out tree)
    (hpath : IsBelow dir path (names ++ [name]))
    (hnames : ∀ n ∈ names ++ [name], (Component.name n).IsStep)
    (hdir : tree.isDirectory path = true) :
    tree.node? (out ++ (names ++ [name])) = some .directory := by
  obtain ⟨d, hd, hnode⟩ := isDirectory_eq_true_iff.mp hdir
  exact ((h.isEntry_of_reach hpath hnames hd).node_of_ok hnode).2

/-- An entry of a directory is none of the directories above it. -/
theorem append_concat_ne {r : Location} (hr : r <+: names) :
    out ++ (names ++ [name]) ≠ out ++ r := by
  intro heq
  have hlen := hr.length_le
  rw [← List.append_cancel_left heq, List.length_append, List.length_singleton] at hlen
  omega

/-- The directories along the names were made as far as they were missing, and nothing else
was changed. -/
structure DirectoriesMade (out : Location) (names : List String) (tree tree' : FileTree) :
    Prop where
  made : ∀ r, r <+: names → tree'.node? (out ++ r) = some .directory
  other : ∀ place, (∀ r, r <+: names → place ≠ out ++ r) → tree'.node? place = tree.node? place
  before : ∀ r, r <+: names → tree.node? (out ++ r) = none ∨ tree.node? (out ++ r) = some .directory

/-- The directories along the names are there already. -/
theorem OpenBelow.directoriesMade_self (h : OpenBelow dir out tree)
    (hdir : tree.node? (out ++ names) = some .directory) :
    DirectoriesMade out names tree tree where
  made := fun _ hr => h.directory_of_isPrefix hr hdir
  other := fun _ _ => rfl
  before := fun _ hr => Or.inr (h.directory_of_isPrefix hr hdir)

/-- Some directories are made, and then some more behind them. -/
theorem DirectoriesMade.trans {more : List String} {tree₁ tree₂ : FileTree}
    (h : DirectoriesMade out names tree tree₁)
    (h' : DirectoriesMade out (names ++ more) tree₁ tree₂) :
    DirectoriesMade out (names ++ more) tree tree₂ where
  made := h'.made
  other := fun place hplace => by
    rw [h'.other place hplace,
      h.other place fun r hr => hplace r (hr.trans (List.prefix_append _ _))]
  before := fun r hr => by
    by_cases hr' : r <+: names
    · exact h.before r hr'
    · rw [← h.other (out ++ r) fun s hs heq => hr' (List.append_cancel_left heq ▸ hs)]
      exact h'.before r hr

/-- What is below the directory afterwards is one of the directories made, or was there before. -/
theorem DirectoriesMade.cases {tree' : FileTree} (h : DirectoriesMade out names tree tree')
    (rest : Location) : (rest <+: names ∧ tree'.node? (out ++ rest) = some .directory) ∨
      (¬ rest <+: names ∧ tree'.node? (out ++ rest) = tree.node? (out ++ rest)) := by
  by_cases hr : rest <+: names
  · exact Or.inl ⟨hr, h.made rest hr⟩
  · refine Or.inr ⟨hr, h.other _ fun r hr' heq => hr ?_⟩
    rwa [List.append_cancel_left heq]

/-- Directories are kept where some are made. -/
theorem DirectoriesMade.directory {tree' : FileTree} (h : DirectoriesMade out names tree tree')
    {rest : Location} (hdir : tree.node? (out ++ rest) = some .directory) :
    tree'.node? (out ++ rest) = some .directory := by
  rcases h.cases rest with ⟨-, hmade⟩ | ⟨-, hsame⟩
  · exact hmade
  · rw [hsame, hdir]

theorem DirectoriesMade.noLinks {tree' : FileTree} (h : DirectoriesMade out names tree tree')
    (hlinks : ∀ rest target, rest ≠ [] → tree.node? (out ++ rest) ≠ some (.link target)) :
    ∀ rest target, rest ≠ [] → tree'.node? (out ++ rest) ≠ some (.link target) := by
  intro rest target hrest
  rcases h.cases rest with ⟨-, hmade⟩ | ⟨-, hsame⟩
  · rw [hmade]
    simp
  · rw [hsame]
    exact hlinks rest target hrest

theorem DirectoriesMade.solid {tree' : FileTree} (h : DirectoriesMade out names tree tree')
    (hsolid : ∀ rest name, tree.node? (out ++ (rest ++ [name])) ≠ none →
      tree.node? (out ++ rest) = some .directory) :
    ∀ rest name, tree'.node? (out ++ (rest ++ [name])) ≠ none →
      tree'.node? (out ++ rest) = some .directory := by
  intro rest name hne
  rcases h.cases (rest ++ [name]) with ⟨hr, -⟩ | ⟨-, hsame⟩
  · exact h.made rest ((List.prefix_append rest [name]).trans hr)
  · rw [hsame] at hne
    exact h.directory (hsolid rest name hne)

/-- The directories on the ways of the tree are kept. -/
theorem DirectoriesMade.keepsWays {tree' : FileTree} (h : DirectoriesMade out names tree tree') :
    KeepsWays tree tree' := by
  intro place node hnode _
  by_cases hr : ∃ r, r <+: names ∧ place = out ++ r
  · obtain ⟨r, hr, rfl⟩ := hr
    rcases h.before r hr with hnone | hdir
    · rw [hnone] at hnode
      cases hnode
    · rw [h.made r hr, ← hdir, hnode]
  · rw [h.other place fun r hrn heq => hr ⟨r, hrn, heq⟩, hnode]

theorem OpenBelow.of_directoriesMade {tree' : FileTree} (h : OpenBelow dir out tree)
    (hmade : DirectoriesMade out names tree tree') : OpenBelow dir out tree' where
  leads := h.leads.of_keepsWays hmade.keepsWays
  noLinks := hmade.noLinks h.noLinks
  solid := hmade.solid h.solid

theorem GrownBelow.of_directoriesMade {tree' : FileTree} (hempty : top.IsEmptyAt dir out)
    (h : GrownBelow top dir out tree) (hmade : DirectoriesMade out names tree tree') :
    GrownBelow top dir out tree' where
  outside := fun place hplace => by
    by_cases hr : ∃ r, r <+: names ∧ place = out ++ r
    · -- the directory itself
      obtain ⟨r, hr, rfl⟩ := hr
      obtain rfl : r = [] := by
        by_contra hne
        exact hplace r hne rfl
      rw [hmade.made [] hr, List.append_nil, hempty.node?_out]
    · rw [hmade.other place fun r hrn heq => hr ⟨r, hrn, heq⟩, h.outside place hplace]
  noLinks := hmade.noLinks h.noLinks
  solid := hmade.solid h.solid
  files := fun rest content hfile => by
    rcases hmade.cases rest with ⟨-, hdir⟩ | ⟨-, hsame⟩
    · rw [hdir] at hfile
      cases hfile
    · exact h.files rest content (hsame ▸ hfile)

/-- **A directory is made** in one that is there. -/
theorem OpenBelow.makeDirectory_spec (h : OpenBelow dir out tree)
    (hpath : IsBelow dir path (names ++ [name]))
    (hnames : ∀ n ∈ names ++ [name], (Component.name n).IsStep) {tree' : FileTree}
    (hmade : tree.makeDirectory path = .ok tree') :
    DirectoriesMade out (names ++ [name]) tree tree' := by
  obtain ⟨d, last, hd, -, -, hnone, rfl⟩ := exists_of_makeDirectory hmade
  have hentry := h.isEntry_of_reach hpath hnames hd
  rw [hentry.place] at hnone
  have hput := hentry.node?_put .directory
  refine ⟨fun r hr => ?_, fun place hplace => ?_, fun r hr => ?_⟩
  · rcases List.prefix_concat_iff.mp hr with rfl | hr
    · rw [hput, if_pos rfl]
    · rw [hput, if_neg (append_concat_ne hr).symm, h.directory_of_isPrefix hr hentry.directory]
  · rw [hput, if_neg (hplace _ List.prefix_rfl)]
  · rcases List.prefix_concat_iff.mp hr with rfl | hr
    · exact Or.inl hnone
    · exact Or.inr (h.directory_of_isPrefix hr hentry.directory)

/-- A directory that is there is none that was made. -/
theorem OpenBelow.directoriesMade_of_isDirectory (h : OpenBelow dir out tree)
    (hpath : IsBelow dir path (names ++ [name]))
    (hnames : ∀ n ∈ names ++ [name], (Component.name n).IsStep)
    (hdir : tree.isDirectory path = true) :
    DirectoriesMade out (names ++ [name]) tree tree :=
  h.directoriesMade_self (h.node?_of_isDirectory hpath hnames hdir)

/-- A directory is there, or is made. -/
theorem OpenBelow.ensureDirectory_spec (h : OpenBelow dir out tree)
    (hpath : IsBelow dir path (names ++ [name]))
    (hnames : ∀ n ∈ names ++ [name], (Component.name n).IsStep) {tree' : FileTree}
    (hensure : tree.ensureDirectory path = .ok tree') :
    DirectoriesMade out (names ++ [name]) tree tree' := by
  rw [ensureDirectory] at hensure
  split at hensure
  · rename_i hok
    obtain rfl := Except.ok.inj hensure
    exact h.makeDirectory_spec hpath hnames hok
  · split at hensure
    · rename_i hdir
      obtain rfl := Except.ok.inj hensure
      exact h.directoriesMade_of_isDirectory hpath hnames hdir
    · cases hensure

/-- The directories are there, or the missing ones were made. -/
theorem OpenBelow.makeDirectoriesWithin_spec (hdir : dir ≠ "") :
    ∀ (n : Nat) {names : List String} {path : String} {tree tree' : FileTree},
      OpenBelow dir out tree → IsBelow dir path names → Passable path →
      (∀ n ∈ names, (Component.name n).IsStep) →
      makeDirectoriesWithin n tree path = (tree', .ok ()) → DirectoriesMade out names tree tree'
  | 0, _, _, _, _, _, _, _, _, hmade => by cases hmade
  | n + 1, names, path, tree, tree', h, hpath, hpass, hnames, hmade => by
    rw [makeDirectoriesWithin, if_neg hpass.nonempty] at hmade
    rcases List.eq_nil_or_concat names with rfl | ⟨names, name, rfl⟩
    · -- the output directory itself
      obtain ⟨hthere, e, he, hne⟩ := h.directory_there hpath hpass
      have hself : DirectoriesMade out [] tree tree :=
        h.directoriesMade_self (by rw [List.append_nil, h.node?_out])
      split at hmade
      · rename_i hok
        rw [he] at hok
        cases hok
      · rename_i hmissing
        rw [he] at hmissing
        exact absurd (Except.error.inj hmissing) hne
      · obtain rfl := congrArg Prod.fst hmade
        exact hself
    · rw [List.concat_eq_append] at hpath hnames ⊢
      split at hmade
      · rename_i hok
        cases hmade
        exact h.makeDirectory_spec hpath hnames hok
      · -- the directory above is missing
        have hnames' : ∀ n ∈ names, (Component.name n).IsStep :=
          fun n hn => hnames n (List.mem_append_left _ hn)
        obtain ⟨parent, hparent, hbelow, hsub⟩ := hpath.parent hnames'
        rw [hparent] at hmade
        simp only at hmade
        split at hmade
        · cases hmade
        rename_i tree₁ habove
        have hmade₁ := h.makeDirectoriesWithin_spec hdir n hbelow
          (hpass.of_sublist hsub (hbelow.ne_empty hdir)) hnames' habove
        split at hmade
        · rename_i hensure
          cases hmade
          exact hmade₁.trans
            ((h.of_directoriesMade hmade₁).ensureDirectory_spec hpath hnames hensure)
        · cases hmade
      · by_cases hthere : tree.isDirectory path = true
        · obtain rfl := congrArg Prod.fst hmade
          exact h.directoriesMade_of_isDirectory hpath hnames hthere
        · rw [if_neg hthere] at hmade
          cases hmade

/-- Where there is nothing or a directory, one can be made or is found. -/
theorem IsEntry.makeDirectory_or_isDirectory {d : Destination}
    (h : IsEntry tree path out names name d) (hsize : name.utf8ByteSize ≤ nameLimit)
    (hfree : tree.node? (out ++ (names ++ [name])) = none ∨
      tree.node? (out ++ (names ++ [name])) = some .directory) :
    (∃ tree', tree.makeDirectory path = .ok tree') ∨
      tree.makeDirectory path = .error .alreadyExists ∧ tree.isDirectory path = true := by
  have hnode := h.node
  rw [if_neg (Nat.not_lt.mpr hsize)] at hnode
  rcases hfree with hnone | hdir
  · rw [hnone] at hnode
    exact Or.inl ⟨tree.put d.place .directory, by rw [makeDirectory_eq, h.reach]; simp only [hnode]⟩
  · rw [hdir] at hnode
    refine Or.inr ⟨by rw [makeDirectory_eq, h.reach]; simp only [hnode], ?_⟩
    exact isDirectory_eq_true_iff.mpr ⟨d, h.reach _, hnode⟩

/-- The directories are made if nothing is in the way. -/
theorem OpenBelow.makeDirectoriesWithin_ok (hdir : dir ≠ "") :
    ∀ (n : Nat) {names : List String} {path : String} {tree : FileTree},
      OpenBelow dir out tree → IsBelow dir path names → Passable path →
      (∀ n ∈ names, (Component.name n).IsStep) → (∀ n ∈ names, n.utf8ByteSize ≤ nameLimit) →
      (∀ r, r <+: names → tree.node? (out ++ r) = none ∨
        tree.node? (out ++ r) = some .directory) → names.length < n →
      ∃ tree', makeDirectoriesWithin n tree path = (tree', .ok ())
  | n + 1, names, path, tree, h, hpath, hpass, hnames, hshort, hfree, hlen => by
    rw [makeDirectoriesWithin, if_neg hpass.nonempty]
    rcases List.eq_nil_or_concat names with rfl | ⟨names, name, rfl⟩
    · obtain ⟨hthere, e, he, hne⟩ := h.directory_there hpath hpass
      refine ⟨tree, ?_⟩
      rw [he, hthere]
      cases e <;> first | rfl | exact absurd rfl hne
    · rw [List.concat_eq_append] at hpath hnames hshort hfree hlen
      have hsize := hshort name (by simp)
      have hshort' : ∀ n ∈ names, n.utf8ByteSize ≤ nameLimit :=
        fun n hn => hshort n (List.mem_append_left _ hn)
      have hfree' : ∀ r, r <+: names → tree.node? (out ++ r) = none ∨
          tree.node? (out ++ r) = some .directory :=
        fun r hr => hfree r (hr.trans (List.prefix_append _ _))
      rcases h.reach hpath hpass hnames with ⟨d, hentry⟩ | ⟨e, hreach, -, hfound⟩
      · rcases hentry.makeDirectory_or_isDirectory hsize (hfree _ List.prefix_rfl) with
          ⟨tree', hok⟩ | ⟨hthere, hisdir⟩
        · exact ⟨tree', by rw [hok]⟩
        · exact ⟨tree, by rw [hthere, hisdir]; rfl⟩
      · -- the directory above is missing
        obtain rfl := hfound hshort' hfree'
        have hnames' : ∀ n ∈ names, (Component.name n).IsStep :=
          fun n hn => hnames n (List.mem_append_left _ hn)
        obtain ⟨parent, hparent, hbelow, hsub⟩ := hpath.parent hnames'
        have hpass' := hpass.of_sublist hsub (hbelow.ne_empty hdir)
        rw [List.length_append, List.length_singleton] at hlen
        obtain ⟨tree₁, habove⟩ := h.makeDirectoriesWithin_ok hdir n hbelow hpass' hnames' hshort'
          hfree' (by omega)
        have hmade₁ := h.makeDirectoriesWithin_spec hdir n hbelow hpass' hnames' habove
        have hmissing : tree.makeDirectory path = .error .notFound := by
          rw [makeDirectory_eq, hreach]
        rw [hmissing, hparent]
        simp only [habove, ensureDirectory]
        obtain ⟨d, hentry⟩ := (h.of_directoriesMade hmade₁).exists_isEntry hpath hpass hnames
          hshort' (hmade₁.made _ List.prefix_rfl)
        have hsame : tree₁.node? (out ++ (names ++ [name]))
            = tree.node? (out ++ (names ++ [name])) :=
          hmade₁.other _ fun r hr => append_concat_ne hr
        rcases hentry.makeDirectory_or_isDirectory hsize
          (hsame ▸ hfree _ List.prefix_rfl) with ⟨tree', hok⟩ | ⟨hthere, hisdir⟩
        · exact ⟨tree', by rw [hok]⟩
        · exact ⟨tree₁, by rw [hthere, hisdir]; rfl⟩

/-! ## 3. A file is written -/

/-- **A file is written** in a directory that is there. -/
theorem OpenBelow.write_spec (h : OpenBelow dir out tree) (hname : IsNormal name)
    {content : ByteArray} {tree' : FileTree}
    (hwrite : tree.write (FilePath.join dir name) content = .ok tree') :
    FitsBelow dir name ∧ Puts tree tree' (out ++ piecesOf name) (.file content) ∧
      ∀ old, tree.node? (out ++ piecesOf name) = some old →
        ∃ bytes, old = .file (.bytes bytes) := by
  obtain ⟨d, last, node, hd, -, hlast, hnode, -, hbefore, rfl⟩ := exists_of_write hwrite
  obtain ⟨hfits, hplace, -⟩ := h.node?_of_reach hname hd hnode
  rw [← hplace]
  exact ⟨hfits, puts_put (of_reach hd) hlast (.file content), hbefore⟩

theorem OpenBelow.of_putFile {tree' : FileTree} (h : OpenBelow dir out tree)
    {content : ByteArray} {rest : Location}
    (hputs : Puts tree tree' (out ++ rest) (.file content))
    (hbefore : ∀ old, tree.node? (out ++ rest) = some old → ∃ bytes, old = .file (.bytes bytes)) :
    OpenBelow dir out tree' where
  leads := h.leads.of_keepsWays (hputs.keepsWays hbefore)
  noLinks := by
    intro r target hr
    by_cases heq : out ++ r = out ++ rest
    · rw [heq, hputs.node?_place]
      simp
    · rw [hputs.node?_of_ne heq]
      exact h.noLinks r target hr
  solid := by
    intro r name hne
    have hdir : tree.node? (out ++ r) = some .directory := by
      by_cases heq : out ++ (r ++ [name]) = out ++ rest
      · obtain ⟨above, last, hplace, hdir⟩ := hputs.above
        rw [← heq, ← List.append_assoc] at hplace
        obtain ⟨rfl, -⟩ := List.append_inj' hplace rfl
        exact hdir
      · rw [hputs.node?_of_ne heq] at hne
        exact h.solid r name hne
    exact hputs.keepsWays hbefore _ _ hdir nofun

theorem GrownBelow.of_putFile {tree' : FileTree} (h : GrownBelow top dir out tree)
    {content : ByteArray} (hfits : FitsBelow dir name)
    (hputs : Puts tree tree' (out ++ piecesOf name) (.file content))
    (hbefore : ∀ old, tree.node? (out ++ piecesOf name) = some old →
      ∃ bytes, old = .file (.bytes bytes)) : GrownBelow top dir out tree' := by
  obtain ⟨names, last, hpieces⟩ := exists_piecesOf_eq hfits.normal
  obtain ⟨above, last', hplace, hdir⟩ := hputs.above
  rw [hpieces, ← List.append_assoc] at hplace
  obtain ⟨rfl, -⟩ := List.append_inj' hplace rfl
  rw [hpieces] at hputs hbefore
  refine h.of_change hdir (fun place hne => hputs.node?_of_ne hne) (fun target => ?_)
    (fun hd => ?_) fun content' hfile => ?_
  · rw [hputs.node?_place]
    simp
  · obtain ⟨bytes, hfile⟩ := hbefore _ hd
    cases hfile
  · rw [hputs.node?_place] at hfile
    cases hfile
    exact ⟨name, content, rfl, hfits, hpieces.symm⟩

/-- A file that is written stands where it belongs, below directories that were made as far as they
were missing. -/
theorem GrownBelow.exists_directoriesMade (hempty : top.IsEmptyAt dir out)
    (h : GrownBelow top dir out tree) (hname : IsNormal name) {content : ByteArray}
    {tree' : FileTree}
    (hwrite : tree.writeDeep (FilePath.join dir name) content = (tree', .ok ())) :
    GrownBelow top dir out tree' ∧ ∃ names last tree₁, piecesOf name = names ++ [last] ∧
      DirectoriesMade out names tree tree₁ ∧
      Puts tree₁ tree' (out ++ piecesOf name) (.file content) := by
  have hpass := passable_of_writeDeep hwrite
  obtain ⟨names, last, hpieces, hpath, hsteps'⟩ := exists_isBelow_join dir hname
  have hsteps : ∀ n ∈ names, (Component.name n).IsStep :=
    fun n hn => hsteps' n (List.mem_append_left _ hn)
  obtain ⟨parent, hparent, hbelow, hsub⟩ := hpath.parent hsteps
  obtain ⟨tree₁, habove, hwritten⟩ := (writeDeep_eq_ok_iff hparent).mp hwrite
  have hmade := (h.openBelow hempty).makeDirectoriesWithin_spec hempty.ne_empty _ hbelow
    (hpass.of_sublist hsub (hbelow.ne_empty hempty.ne_empty)) hsteps habove
  have h₁ := h.of_directoriesMade hempty hmade
  obtain ⟨hfits, hputs, hbefore⟩ := (h₁.openBelow hempty).write_spec hname hwritten
  exact ⟨h₁.of_putFile hfits hputs hbefore, names, last, tree₁, hpieces, hmade, hputs⟩

/-- **What writing a file leaves**, with the directories above it made: the file, and no other file
is changed. -/
theorem GrownBelow.writeDeep_spec (hempty : top.IsEmptyAt dir out)
    (h : GrownBelow top dir out tree) (hname : IsNormal name) {content : ByteArray}
    {tree' : FileTree}
    (hwrite : tree.writeDeep (FilePath.join dir name) content = (tree', .ok ())) :
    GrownBelow top dir out tree' ∧ ∀ place, tree'.fileAt place
      = if place = out ++ piecesOf name then some (.bytes content) else tree.fileAt place := by
  obtain ⟨hgrown, names, last, tree₁, -, hmade, hputs⟩ :=
    h.exists_directoriesMade hempty hname hwrite
  refine ⟨hgrown, fun place => ?_⟩
  by_cases hplace : place = out ++ piecesOf name
  · rw [if_pos hplace, fileAt_eq_some_iff, hplace, hputs.node?_place]
  · have hsame : tree'.fileAt place = tree₁.fileAt place :=
      fileAt_congr (hputs.node?_of_ne hplace)
    rw [if_neg hplace, hsame]
    by_cases hr : ∃ r, r <+: names ∧ place = out ++ r
    · -- a directory that was made: there was no file before
      obtain ⟨r, hr, rfl⟩ := hr
      rw [fileAt, hmade.made r hr]
      rcases hmade.before r hr with hnone | hdir
      · rw [fileAt, hnone]
      · rw [fileAt, hdir]
    · exact fileAt_congr (hmade.other place fun r hrn heq => hr ⟨r, hrn, heq⟩)

/-- The directories that writing a file makes are those above it. -/
theorem GrownBelow.directory_of_writeDeep (hempty : top.IsEmptyAt dir out)
    (h : GrownBelow top dir out tree) (hname : IsNormal name) {content : ByteArray}
    {tree' : FileTree}
    (hwrite : tree.writeDeep (FilePath.join dir name) content = (tree', .ok ()))
    {place : Location} (hdir : tree'.node? place = some .directory) :
    tree.node? place = some .directory ∨
      ∃ r rest, piecesOf name = r ++ rest ∧ rest ≠ [] ∧ place = out ++ r := by
  obtain ⟨-, names, last, tree₁, hpieces, hmade, hputs⟩ :=
    h.exists_directoriesMade hempty hname hwrite
  rw [hputs.nodes] at hdir
  split at hdir
  · cases hdir
  · by_cases hr : ∃ r, r <+: names ∧ place = out ++ r
    · obtain ⟨r, ⟨rest, rfl⟩, rfl⟩ := hr
      exact Or.inr ⟨r, rest ++ [last], by rw [hpieces, List.append_assoc], by simp, rfl⟩
    · rw [hmade.other place fun r hrn heq => hr ⟨r, hrn, heq⟩] at hdir
      exact Or.inl hdir

/-- Writing a file succeeds if nothing is in the way. -/
theorem GrownBelow.writeDeep_ok (hempty : top.IsEmptyAt dir out)
    (h : GrownBelow top dir out tree) (hfits : FitsBelow dir name)
    (habove : ∀ r rest, piecesOf name = r ++ rest → rest ≠ [] →
      tree.node? (out ++ r) = none ∨ tree.node? (out ++ r) = some .directory)
    (hdir : tree.node? (out ++ piecesOf name) ≠ some .directory) (content : ByteArray) :
    ∃ tree', tree.writeDeep (FilePath.join dir name) content = (tree', .ok ()) := by
  have hopen := h.openBelow hempty
  obtain ⟨names, last, hpieces, hpath, hsteps⟩ := exists_isBelow_join dir hfits.normal
  have hshort := hfits.short
  rw [hpieces] at hshort
  have hsteps' : ∀ n ∈ names, (Component.name n).IsStep :=
    fun n hn => hsteps n (List.mem_append_left _ hn)
  have hshort' : ∀ n ∈ names, n.utf8ByteSize ≤ nameLimit :=
    fun n hn => hshort n (List.mem_append_left _ hn)
  obtain ⟨parent, hparent, hbelow, hsub⟩ := hpath.parent hsteps'
  have hpass' := hfits.passable.of_sublist hsub (hbelow.ne_empty hempty.ne_empty)
  have hlen : names.length < parent.length + 1 := by
    obtain ⟨front, hfront, -⟩ := hbelow.pieces
    have hle := length_piecesOf_le parent
    rw [hfront, List.length_append] at hle
    omega
  obtain ⟨tree₁, hmade⟩ := hopen.makeDirectoriesWithin_ok hempty.ne_empty _ hbelow hpass' hsteps'
    hshort' (fun r ⟨rest, hr⟩ => habove r (rest ++ [last])
      (by rw [hpieces, ← hr, List.append_assoc]) (by simp)) hlen
  have hmade₁ := hopen.makeDirectoriesWithin_spec hempty.ne_empty _ hbelow hpass' hsteps' hmade
  obtain ⟨d, hentry⟩ := (hopen.of_directoriesMade hmade₁).exists_isEntry hpath hfits.passable
    hsteps hshort' (hmade₁.made _ List.prefix_rfl)
  have hnode := hentry.node
  rw [if_neg (Nat.not_lt.mpr (hshort last (by simp)))] at hnode
  refine ⟨tree₁.putFile d.place content, (writeDeep_eq_ok_iff hparent).mpr ⟨tree₁, hmade, ?_⟩⟩
  have hsame := hmade₁.other (out ++ (names ++ [last])) fun r hr => append_concat_ne hr
  refine write_eq_ok_iff.mpr ⟨d, _, hentry.reach _, ?_, hnode, ?_, ?_, rfl⟩
  · rw [hentry.slash, endsInSlash_join dir hfits.normal]
  · rw [hsame, ← hpieces]
    exact hdir
  · refine barrier?_eq_none_iff.mpr fun cause hbarred => ?_
    rw [hentry.place, hsame] at hbarred
    exact h.node?_ne_barred _ cause hbarred

/-! ## 4. A file is removed -/

/-- A file that is there fits. -/
theorem GrownBelow.fitsBelow_of_fileAt (h : GrownBelow top dir out tree) (hname : IsNormal name)
    {content : FileContent} (hfile : tree.fileAt (out ++ piecesOf name) = some content) :
    FitsBelow dir name := by
  obtain ⟨other, -, -, hfits, hpieces⟩ := h.files _ _ (fileAt_eq_some_iff.mp hfile)
  rwa [piecesOf_injective hname hfits.normal hpieces]

/-- A file was removed at a location, and nothing else was changed. -/
structure Removes (tree tree' : FileTree) (place : Location) : Prop where
  nodes : ∀ other, tree'.node? other = if other = place then none else tree.node? other
  file : ∃ content, tree.node? place = some (.file content)

section Removes

variable {tree' : FileTree} {place : Location}

theorem Removes.node?_of_ne (h : Removes tree tree' place) {other : Location}
    (hne : other ≠ place) : tree'.node? other = tree.node? other := by
  rw [h.nodes, if_neg hne]

/-- A file is on no way. -/
theorem Removes.keepsWays (h : Removes tree tree' place) : KeepsWays tree tree' := by
  intro other node hnode hfile
  obtain ⟨content, hplace⟩ := h.file
  rw [h.node?_of_ne, hnode]
  rintro rfl
  rw [hplace] at hnode
  exact hfile content (Option.some.inj hnode).symm

theorem Removes.solid (h : Removes tree tree' place) (hsolid : tree.Solid) : tree'.Solid := by
  intro above name hne
  have hthere : tree.node? (above ++ [name]) ≠ none := by
    rw [h.nodes] at hne
    split at hne
    · exact absurd rfl hne
    · exact hne
  exact h.keepsWays _ _ (hsolid above name hthere) nofun

theorem OpenBelow.of_removes (h : OpenBelow dir out tree) (hremoves : Removes tree tree' place) :
    OpenBelow dir out tree' where
  leads := h.leads.of_keepsWays hremoves.keepsWays
  noLinks := by
    intro rest target hrest hlink
    rw [hremoves.nodes] at hlink
    split at hlink
    · cases hlink
    · exact h.noLinks rest target hrest hlink
  solid := by
    intro rest name hne
    have hthere : tree.node? (out ++ (rest ++ [name])) ≠ none := by
      rw [hremoves.nodes] at hne
      split at hne
      · exact absurd rfl hne
      · exact hne
    exact hremoves.keepsWays _ _ (h.solid rest name hthere) nofun

theorem GrownBelow.of_removes (h : GrownBelow top dir out tree)
    (hremoves : Removes tree tree' (out ++ piecesOf name)) (hname : IsNormal name) :
    GrownBelow top dir out tree' := by
  obtain ⟨names, last, hpieces⟩ := exists_piecesOf_eq hname
  rw [hpieces] at hremoves
  obtain ⟨content, hfile⟩ := hremoves.file
  have hgone := hremoves.nodes (out ++ (names ++ [last]))
  rw [if_pos rfl] at hgone
  refine h.of_change (h.solid names last (by rw [hfile]; simp))
    (fun place hne => hremoves.node?_of_ne hne) (fun target => ?_) (fun hdir => ?_)
    (fun content hfile' => ?_)
  · rw [hgone]
    simp
  · rw [hfile] at hdir
    cases hdir
  · rw [hgone] at hfile'
    cases hfile'

end Removes

/-- **A file that is removed** is gone, and nothing else is. -/
theorem OpenBelow.removeFile_spec (h : OpenBelow dir out tree) (hname : IsNormal name)
    {tree' : FileTree} (hok : tree.removeFile (FilePath.join dir name) = .ok tree') :
    Removes tree tree' (out ++ piecesOf name) := by
  rw [removeFile_eq] at hok
  split at hok
  · cases hok
  rename_i d hd
  split at hok
  · cases hok
  · cases hok
  · cases hok
  rename_i node hne hnode
  split at hok
  · cases hok
  obtain rfl := Except.ok.inj hok
  obtain ⟨-, hplace, hthere⟩ := h.node?_of_reach hname hd hnode
  rw [hplace]
  cases node with
  | directory => exact absurd rfl hne
  | link target => exact absurd hthere (h.noLinks _ target (piecesOf_ne_nil hname))
  | file content =>
    refine ⟨fun place => ?_, content, hthere⟩
    rw [node?_remove (by simp [piecesOf_ne_nil hname])]
    by_cases heq : place = out ++ piecesOf name
    · rw [if_pos heq, if_pos (heq ▸ List.prefix_rfl)]
    · rw [if_neg heq]
      split
      · -- nothing is inside a file
        rename_i hpre
        obtain ⟨rest, rfl⟩ := hpre
        have hrest : rest ≠ [] := fun hnil => heq (by rw [hnil, List.append_nil])
        cases hbelow : tree.node? (out ++ piecesOf name ++ rest) with
        | none => rfl
        | some node =>
          rw [List.append_assoc] at hbelow
          rw [h.directory_of_append hrest (by rw [hbelow]; simp)] at hthere
          cases hthere
      · rfl

/-- Where the removal of a file finds nothing, there is nothing. -/
theorem OpenBelow.node?_of_notFound (h : OpenBelow dir out tree) (hname : IsNormal name)
    (hmissing : tree.removeFile (FilePath.join dir name) = .error .notFound) :
    tree.node? (out ++ piecesOf name) = none := by
  rw [removeFile_eq] at hmissing
  split at hmissing
  · -- a directory on the way is missing
    rename_i e hreach
    obtain rfl := Except.error.inj hmissing
    obtain ⟨names, last, hpieces, hpath, hsteps⟩ := exists_isBelow_join dir hname
    have hpass := passable_of_notFound hreach (join_ne_empty dir hname)
    rcases h.reach hpath hpass hsteps with ⟨d, hentry⟩ | ⟨e, hfails, hnodir, -⟩
    · rw [hentry.reach] at hreach
      cases hreach
    · obtain rfl := Except.error.inj ((hfails .kept).symm.trans hreach)
      rw [hpieces]
      by_contra hne
      exact hnodir rfl (h.solid names last hne)
  · rename_i d hd
    split at hmissing
    · rename_i e hnode
      obtain rfl := Except.error.inj hmissing
      exact absurd hnode (node?_ne_notFound tree d)
    · rename_i hnode
      exact (h.node?_of_reach hname hd hnode).2.2
    · cases hmissing
    · split at hmissing <;> cases hmissing

/-- There is no file where a directory is found. -/
theorem OpenBelow.fileAt_of_isDirectory (h : OpenBelow dir out tree) (hname : IsNormal name)
    (hdir : tree.isDirectory (FilePath.join dir name) = true) :
    tree.fileAt (out ++ piecesOf name) = none := by
  obtain ⟨d, hd, hnode⟩ := isDirectory_eq_true_iff.mp hdir
  rw [fileAt, (h.node?_of_reach hname hd hnode).2.2]

/-- **What removing a file does**, if there is one: it is removed, or there is none. -/
theorem OpenBelow.removeIfPresent_cases (h : OpenBelow dir out tree) (hname : IsNormal name)
    {tree' : FileTree} {wasThere : Bool}
    (hremove : Artifacts.removeIfPresent tree (FilePath.join dir name) = .ok (tree', wasThere)) :
    Removes tree tree' (out ++ piecesOf name) ∨
      tree' = tree ∧ tree.fileAt (out ++ piecesOf name) = none := by
  rw [Artifacts.removeIfPresent] at hremove
  by_cases hdir : tree.isDirectory (FilePath.join dir name) = true
  · rw [if_pos hdir] at hremove
    obtain rfl := congrArg Prod.fst (Except.ok.inj hremove)
    exact Or.inr ⟨rfl, h.fileAt_of_isDirectory hname hdir⟩
  · rw [if_neg hdir] at hremove
    split at hremove
    · rename_i tree₁ hok
      obtain rfl := congrArg Prod.fst (Except.ok.inj hremove)
      exact Or.inl (h.removeFile_spec hname hok)
    · rename_i hmissing
      obtain rfl := congrArg Prod.fst (Except.ok.inj hremove)
      exact Or.inr ⟨rfl, by rw [fileAt, h.node?_of_notFound hname hmissing]⟩
    · cases hremove

/-- The files that are left where a file was removed, or where none was. -/
theorem fileAt_of_removed {tree' : FileTree} {place : Location}
    (h : Removes tree tree' place ∨ tree' = tree ∧ tree.fileAt place = none) (other : Location) :
    tree'.fileAt other = if other = place then none else tree.fileAt other := by
  rcases h with hremoves | ⟨rfl, hnone⟩
  · split
    · rename_i heq
      rw [fileAt, hremoves.nodes, if_pos heq]
    · rename_i heq
      exact fileAt_congr (hremoves.node?_of_ne heq)
  · split
    · rename_i heq
      rw [heq, hnone]
    · rfl

/-- **What removing a file leaves**, if there is one: no file is there any more, and no other file
is changed. -/
theorem GrownBelow.removeIfPresent_spec (hempty : top.IsEmptyAt dir out)
    (h : GrownBelow top dir out tree) (hname : IsNormal name) {tree' : FileTree} {wasThere : Bool}
    (hremove : Artifacts.removeIfPresent tree (FilePath.join dir name) = .ok (tree', wasThere)) :
    GrownBelow top dir out tree' ∧ ∀ place, tree'.fileAt place
      = if place = out ++ piecesOf name then none else tree.fileAt place := by
  have hcases := (h.openBelow hempty).removeIfPresent_cases hname hremove
  refine ⟨?_, fileAt_of_removed hcases⟩
  rcases hcases with hremoves | ⟨rfl, -⟩
  · exact h.of_removes hremoves hname
  · exact h

end Below

end ScriptWeave.FileTree
