/-
# What the operations change

Every operation on a path walks along it and then changes the tree at one location, where the walk
has ended.  Links may have sent the walk anywhere, so of the path alone nothing follows about this
location; but the directory it is in is there, and what is put there takes the place of nothing or,
if a file is written, of a file (`Puts`).  So directories and links stay, and with them the ways of
the tree (`KeepsWays`).

**Stated here.**  Each operation by what its walk ends at (`makeDirectory_eq`, `write_eq_ok_iff`,
`removeFile_eq`) and by what it puts there (`exists_of_makeDirectory`, `exists_of_write`); making
directories gains directories and changes nothing else (`gainsDirectories_of_makeDirectories`), and
a file is not written at a link (`node?_ne_link_of_follow`).
-/
import ScriptWeave.Project.Output
import ScriptWeave.Proofs.FileTree.Disk

namespace ScriptWeave.FileTree

open FilePath

/-! ## 1. Files -/

/-- The file at a location, if there is one. -/
def fileAt (tree : FileTree) (place : Location) : Option FileContent :=
  match tree.node? place with
  | some (.file content) => some content
  | _ => none

theorem fileAt_eq_some_iff {tree : FileTree} {place : Location} {content : FileContent} :
    tree.fileAt place = some content ↔ tree.node? place = some (.file content) := by
  unfold fileAt
  split <;> simp_all

theorem fileAt_congr {tree tree' : FileTree} {place place' : Location}
    (h : tree.node? place = tree'.node? place') : tree.fileAt place = tree'.fileAt place' := by
  simp only [fileAt, h]

/-- What is at a location can be used unless it is a file that is barred. -/
theorem barrier?_eq_none_iff {tree : FileTree} {place : Location} :
    tree.barrier? place = none ↔
      ∀ cause, tree.node? place ≠ some (.file (.barred cause)) := by
  rw [barrier?, Option.bind_eq_none_iff]
  constructor
  · intro h cause hbarred
    cases h _ hbarred
  · intro h node hnode
    rcases node with (_ | cause) | _ | _
    · rfl
    · exact absurd hnode (h cause)
    · rfl
    · rfl

/-! ## 2. Operations by the end of the walk -/

section Operations

variable {tree tree' : FileTree} {path : String} {content : ByteArray}

theorem isDirectory_eq_true_iff : tree.isDirectory path = true ↔
    ∃ d, tree.reach .followed path = .ok d ∧ d.node? tree = .ok (some .directory) := by
  have hlook : tree.isDirectory path = true ↔
      ∃ place, tree.lookUp path = .ok (place, .directory) :=
    isDirectory_iff_nodeAt.trans nodeAt_eq_ok_iff
  simp only [hlook, lookUp_eq_ok_directory_iff]
  constructor
  · rintro ⟨_, d, hd, hdir, -⟩
    exact ⟨d, hd, hdir⟩
  · rintro ⟨d, hd, hdir⟩
    exact ⟨d.place, d, hd, hdir, rfl⟩

/-- Making a directory, by what is at the end of its path. -/
theorem makeDirectory_eq (tree : FileTree) (path : String) : tree.makeDirectory path =
    match tree.reach .kept path with
    | .error e => .error e
    | .ok d =>
      match d.node? tree with
      | .error e => .error e
      | .ok (some _) => .error .alreadyExists
      | .ok none => .ok (tree.put d.place .directory) := by
  simp only [makeDirectory, bind, Except.bind]
  cases tree.reach .kept path with
  | error e => rfl
  | ok d =>
    simp only
    cases d.node? tree with
    | error e => rfl
    | ok node => cases node <;> rfl

/-- Where a file can be written. -/
theorem write_eq_ok_iff : tree.write path content = .ok tree' ↔
    ∃ d node, tree.reach .followedWithoutSlash path = .ok d ∧ d.slash = false ∧
      d.node? tree = .ok node ∧ node ≠ some .directory ∧ tree.barrier? d.place = none ∧
      tree' = tree.putFile d.place content := by
  simp only [write, placeToWrite, bind, Except.bind]
  cases tree.reach .followedWithoutSlash path with
  | error e => simp
  | ok d =>
    cases hslash : d.slash with
    | true => simp [hslash]
    | false =>
      cases hnode : d.node? tree with
      | error e => simp [hslash, hnode]
      | ok node =>
        cases hbarrier : tree.barrier? d.place <;> rcases node with _ | _ | _ | _ <;>
          simp [hslash, hnode, hbarrier, eq_comm (a := tree')]

/-- A file is written after the directories above it are made. -/
theorem writeDeep_eq_ok_iff {parent : String} (hparent : parent? path = some parent) :
    tree.writeDeep path content = (tree', .ok ()) ↔
      ∃ tree₁, tree.makeDirectories parent = (tree₁, .ok ()) ∧
        tree₁.write path content = .ok tree' := by
  simp only [writeDeep, hparent, Option.map_some]
  obtain ⟨tree₁, made⟩ := tree.makeDirectories parent
  cases made with
  | error e => simp
  | ok u =>
    simp only [Option.map_some, Option.getD_some]
    cases hwrite : tree₁.write path content <;> simp [hwrite]

/-- The directories above a file that is written were made before. -/
theorem exists_of_writeDeep (hwrite : tree.writeDeep path content = (tree', .ok ())) :
    ∃ tree₁, (tree₁ = tree ∨ ∃ parent result, parent? path = some parent ∧
        tree.makeDirectories parent = (tree₁, result)) ∧
      tree₁.write path content = .ok tree' := by
  cases hparent : parent? path with
  | some parent =>
    obtain ⟨tree₁, hmade, hwritten⟩ := (writeDeep_eq_ok_iff hparent).mp hwrite
    exact ⟨tree₁, Or.inr ⟨parent, _, rfl, hmade⟩, hwritten⟩
  | none =>
    simp only [writeDeep, hparent, Option.map_none, Option.getD_none] at hwrite
    split at hwrite
    · rename_i hwritten
      cases hwrite
      exact ⟨tree, Or.inl rfl, hwritten⟩
    · cases hwrite

/-- A file is written only on a path that can be walked along. -/
theorem passable_of_writeDeep (hwrite : tree.writeDeep path content = (tree', .ok ())) :
    Passable path := by
  obtain ⟨tree₁, -, hwritten⟩ := exists_of_writeDeep hwrite
  obtain ⟨d, -, hd, -⟩ := write_eq_ok_iff.mp hwritten
  exact passable_of_reach hd

/-- Removing a file, by what is at the end of its path. -/
theorem removeFile_eq (tree : FileTree) (path : String) : tree.removeFile path =
    match tree.reach .kept path with
    | .error e => .error e
    | .ok d =>
      match d.node? tree with
      | .error e => .error e
      | .ok none => .error .notFound
      | .ok (some .directory) => .error .isADirectory
      | .ok (some _) => if d.slash then .error .notADirectory else .ok (tree.remove d.place) := by
  simp only [removeFile, bind, Except.bind]
  cases tree.reach .kept path with
  | error e => rfl
  | ok d =>
    simp only
    cases d.node? tree with
    | error e => rfl
    | ok node => rcases node with _ | _ | _ | _ <;> rfl

end Operations

/-! ## 3. One node is put -/

/-- Everything in the tree stands in a directory. -/
def Solid (tree : FileTree) : Prop :=
  ∀ place name, tree.node? (place ++ [name]) ≠ none → tree.node? place = some .directory

theorem IsDisk.solid {tree : FileTree} (h : tree.IsDisk) : tree.Solid :=
  fun _ name => h.directory_of_append (List.cons_ne_nil name [])

/-- A node was put at a location, in a directory, and nothing else was changed. -/
structure Puts (tree tree' : FileTree) (place : Location) (node : Node) : Prop where
  nodes : ∀ other, tree'.node? other = if other = place then some node else tree.node? other
  above : ∃ dir name, place = dir ++ [name] ∧ tree.node? dir = some .directory

section Puts

variable {tree tree' : FileTree} {place : Location} {node : Node}

theorem Puts.node?_place (h : Puts tree tree' place node) : tree'.node? place = some node := by
  rw [h.nodes, if_pos rfl]

theorem Puts.node?_of_ne (h : Puts tree tree' place node) {other : Location}
    (hne : other ≠ place) : tree'.node? other = tree.node? other := by
  rw [h.nodes, if_neg hne]

/-- A node is put where a walk has ended, if it has ended with a name. -/
theorem puts_put {d : Destination} {name : String} (ht : d.trail.Of tree)
    (hname : d.name? = some name) (node : Node) :
    Puts tree (tree.put d.place node) d.place node := by
  have hplace := d.place_of_name? hname
  refine ⟨fun other => ?_, d.trail.place, name, hplace, ht.node?_place⟩
  rw [hplace, node?_put (by simp)]
  rw [List.dropLast_concat, ht.node?_place]
  simp

/-- What is not at a directory or a link may be replaced on the ways of the tree. -/
theorem Puts.keepsWays (h : Puts tree tree' place node)
    (hbefore : ∀ old, tree.node? place = some old → ∃ bytes, old = .file (.bytes bytes)) :
    KeepsWays tree tree' := by
  intro other old hnode hfile
  by_cases heq : other = place
  · subst heq
    obtain ⟨bytes, rfl⟩ := hbefore old hnode
    exact absurd rfl (hfile (.bytes bytes))
  · rw [h.node?_of_ne heq, hnode]

theorem Puts.solid (h : Puts tree tree' place node) (hsolid : tree.Solid)
    (hbefore : ∀ old, tree.node? place = some old → ∃ bytes, old = .file (.bytes bytes)) :
    tree'.Solid := by
  intro above name hne
  have hdir : tree.node? above = some .directory := by
    by_cases heq : above ++ [name] = place
    · obtain ⟨dir, last, hplace, hdir⟩ := h.above
      obtain ⟨rfl, -⟩ := List.append_inj' (heq.trans hplace) rfl
      exact hdir
    · rw [h.node?_of_ne heq] at hne
      exact hsolid above name hne
  exact h.keepsWays hbefore above .directory hdir nofun

end Puts

/-! ## 4. Directories are made -/

/-- Some directories are new, each in a directory, and nothing else was changed. -/
structure GainsDirectories (tree tree' : FileTree) : Prop where
  nodes : ∀ place, tree'.node? place = tree.node? place ∨
    tree.node? place = none ∧ tree'.node? place = some .directory
  above : ∀ place name, tree.node? (place ++ [name]) = none →
    tree'.node? (place ++ [name]) ≠ none → tree'.node? place = some .directory

section Gains

variable {tree tree' tree'' : FileTree} {path : String}

theorem GainsDirectories.refl (tree : FileTree) : GainsDirectories tree tree where
  nodes := fun _ => Or.inl rfl
  above := fun _ _ hnone hne => absurd hnone hne

/-- What was there is still there. -/
theorem GainsDirectories.node?_of_ne_none (h : GainsDirectories tree tree') {place : Location}
    (hne : tree.node? place ≠ none) : tree'.node? place = tree.node? place := by
  rcases h.nodes place with heq | ⟨hnone, -⟩
  · exact heq
  · exact absurd hnone hne

theorem GainsDirectories.keepsWays (h : GainsDirectories tree tree') : KeepsWays tree tree' := by
  intro place node hnode _
  rw [h.node?_of_ne_none (by rw [hnode]; simp), hnode]

theorem GainsDirectories.trans (h : GainsDirectories tree tree')
    (h' : GainsDirectories tree' tree'') : GainsDirectories tree tree'' where
  nodes := by
    intro place
    rcases h.nodes place with heq | ⟨hnone, hdir⟩
    · rcases h'.nodes place with heq' | ⟨hnone', hdir'⟩
      · exact Or.inl (heq'.trans heq)
      · exact Or.inr ⟨heq ▸ hnone', hdir'⟩
    · refine Or.inr ⟨hnone, ?_⟩
      rw [h'.node?_of_ne_none (by rw [hdir]; simp), hdir]
  above := by
    intro place name hnone hne
    by_cases hmid : tree'.node? (place ++ [name]) = none
    · exact h'.above place name hmid hne
    · have hdir := h.above place name hnone hmid
      rw [h'.node?_of_ne_none (by rw [hdir]; simp), hdir]

theorem GainsDirectories.solid (h : GainsDirectories tree tree') (hsolid : tree.Solid) :
    tree'.Solid := by
  intro place name hne
  by_cases hold : tree.node? (place ++ [name]) = none
  · exact h.above place name hold hne
  · have hdir := hsolid place name hold
    rw [h.node?_of_ne_none (by rw [hdir]; simp), hdir]

/-- No file comes or goes. -/
theorem GainsDirectories.fileAt_eq (h : GainsDirectories tree tree') (place : Location) :
    tree'.fileAt place = tree.fileAt place := by
  rcases h.nodes place with heq | ⟨hnone, hdir⟩
  · exact fileAt_congr heq
  · rw [fileAt, hdir, fileAt, hnone]

/-- A new directory is put where a walk ends with a name, and where nothing was. -/
theorem exists_of_makeDirectory (hmade : tree.makeDirectory path = .ok tree') :
    ∃ d name, tree.reach .kept path = .ok d ∧ d.name? = some name ∧
      name.utf8ByteSize ≤ nameLimit ∧ tree.node? d.place = none ∧
      tree' = tree.put d.place .directory := by
  rw [makeDirectory_eq] at hmade
  split at hmade
  · cases hmade
  rename_i d hd
  split at hmade
  · cases hmade
  · cases hmade
  rename_i hnode
  obtain rfl := Except.ok.inj hmade
  cases hname : d.name? with
  | none => simp [Destination.node?, hname] at hnode
  | some name =>
    exact ⟨d, name, hd, hname, d.short_of_node? hnode hname,
      node?_place_of_node? (of_reach hd) hnode, rfl⟩

theorem gainsDirectories_of_makeDirectory (hmade : tree.makeDirectory path = .ok tree') :
    GainsDirectories tree tree' := by
  obtain ⟨d, name, hd, hname, -, hnone, rfl⟩ := exists_of_makeDirectory hmade
  have hputs := puts_put (of_reach hd) hname .directory
  have hways := hputs.keepsWays (by simp [hnone])
  refine ⟨fun other => ?_, fun above name hold hne => ?_⟩
  · by_cases heq : other = d.place
    · subst heq
      exact Or.inr ⟨hnone, hputs.node?_place⟩
    · exact Or.inl (hputs.node?_of_ne heq)
  · by_cases heq : above ++ [name] = d.place
    · obtain ⟨dir, last, hplace, hdir⟩ := hputs.above
      obtain ⟨rfl, -⟩ := List.append_inj' (heq.trans hplace) rfl
      exact hways _ _ hdir nofun
    · rw [hputs.node?_of_ne heq] at hne
      exact absurd hold hne

/-- **What making directories does**, also where it fails: it is a row of steps, each of which makes
one directory, at the path or at one of its parents. -/
theorem makeDirectoriesWithin_induction {grows : FileTree → FileTree → Prop}
    {along : String → Prop} (refl : ∀ tree, grows tree tree)
    (trans : ∀ {tree tree' tree''}, grows tree tree' → grows tree' tree'' → grows tree tree'')
    (above : ∀ {path parent}, parent? path = some parent → along path → along parent)
    (step : ∀ {tree path tree'}, along path → tree.makeDirectory path = .ok tree' →
      grows tree tree') :
    ∀ (n : Nat) {path : String} {tree tree' : FileTree} {result : Except StorageError Unit},
      along path → makeDirectoriesWithin n tree path = (tree', result) → grows tree tree'
  | 0, _, tree, _, _, _, hmade => by
    obtain rfl := congrArg Prod.fst hmade
    exact refl tree
  | n + 1, path, tree, tree', result, halong, hmade => by
    rw [makeDirectoriesWithin] at hmade
    split at hmade
    · obtain rfl := congrArg Prod.fst hmade
      exact refl tree
    · split at hmade
      · rename_i hok
        obtain rfl := congrArg Prod.fst hmade
        exact step halong hok
      · split at hmade
        · obtain rfl := congrArg Prod.fst hmade
          exact refl tree
        · rename_i parent hparent
          have hrest := @makeDirectoriesWithin_induction _ _ refl trans above step n parent tree
          split at hmade
          · rename_i habove
            obtain rfl := congrArg Prod.fst hmade
            exact hrest (above hparent halong) habove
          · rename_i tree₁ habove
            have h₁ := hrest (above hparent halong) habove
            have hensured : ∀ {tree₂}, tree₁.ensureDirectory path = .ok tree₂ →
                grows tree₁ tree₂ := by
              intro tree₂ hensure
              rw [ensureDirectory] at hensure
              split at hensure
              · rename_i hok
                obtain rfl := Except.ok.inj hensure
                exact step halong hok
              · split at hensure
                · obtain rfl := Except.ok.inj hensure
                  exact refl _
                · cases hensure
            split at hmade
            · rename_i hensure
              obtain rfl := congrArg Prod.fst hmade
              exact trans h₁ (hensured hensure)
            · obtain rfl := congrArg Prod.fst hmade
              exact h₁
      · obtain rfl := congrArg Prod.fst hmade
        exact refl tree

/-- **Making directories** gains some and changes nothing else. -/
theorem gainsDirectories_of_makeDirectories {result : Except StorageError Unit}
    (hmade : tree.makeDirectories path = (tree', result)) : GainsDirectories tree tree' :=
  @makeDirectoriesWithin_induction GainsDirectories (fun _ => True) GainsDirectories.refl
    GainsDirectories.trans (fun _ h => h) (fun _ => gainsDirectories_of_makeDirectory)
    _ _ _ _ _ trivial hmade

end Gains

/-! ## 5. Links that are followed -/

/-- With links followed, a walk does not end at a link. -/
theorem node?_ne_link_of_follow {tree : FileTree} {links : Nat} {trail : Trail}
    {pieces : List String} {slash : Bool} {d : Destination}
    (h : follow tree .followedWithoutSlash links trail pieces slash = .ok d)
    (hslash : d.slash = false) (target : String) :
    d.node? tree ≠ .ok (some (.link target)) := by
  intro hlink
  fun_induction follow tree .followedWithoutSlash links trail pieces slash with
  | case1 =>
    obtain rfl := Except.ok.inj h
    cases hlink
  | case2 _ _ _ _ ih => exact ih h
  | case3 _ _ _ _ _ ih => exact ih h
  | case4 | case6 | case8 | case12 => cases h
  | case5 _ _ _ _ _ _ hfind _ =>
    obtain rfl := Except.ok.inj h
    simp only [Destination.node?, hfind] at hlink
    split at hlink <;> cases hlink
  | case7 _ _ _ _ _ _ _ _ hfind _ =>
    obtain rfl := Except.ok.inj h
    simp only [Destination.node?, hfind] at hlink
    split at hlink <;> cases hlink
  | case9 _ _ _ _ _ _ _ hfind _ =>
    obtain rfl := Except.ok.inj h
    simp only [Destination.node?, hfind] at hlink
    split at hlink <;> cases hlink
  | case10 _ _ _ _ _ _ _ _ _ _ _ ih => exact ih h
  | case11 _ _ slash _ _ _ _ _ _ _ _ hkept =>
    -- the link is followed: there is no slash behind it
    obtain rfl := Except.ok.inj h
    simp [LastLink.follows] at hkept hslash
    simp [hkept] at hslash
  | case13 _ _ _ _ _ _ _ _ _ _ _ _ _ _ ih => exact ih h

/-- A file is put where a walk ends with a name, and where nothing was or a file with its bytes. -/
theorem exists_of_write {tree tree' : FileTree} {path : String} {content : ByteArray}
    (hwrite : tree.write path content = .ok tree') :
    ∃ d name node, tree.reach .followedWithoutSlash path = .ok d ∧ d.slash = false ∧
      d.name? = some name ∧ d.node? tree = .ok node ∧ node ≠ some .directory ∧
      (∀ old, tree.node? d.place = some old → ∃ bytes, old = .file (.bytes bytes)) ∧
      tree' = tree.put d.place (.file content) := by
  obtain ⟨d, node, hd, hslash, hnode, hne, hbarrier, rfl⟩ := write_eq_ok_iff.mp hwrite
  cases hname : d.name? with
  | none =>
    rw [Destination.node?, hname] at hnode
    exact absurd (Except.ok.inj hnode).symm hne
  | some name =>
    refine ⟨d, name, node, hd, hslash, hname, hnode, hne, fun old hold => ?_, rfl⟩
    have hopen := barrier?_eq_none_iff.mp hbarrier
    rw [node?_place_of_node? (of_reach hd) hnode] at hold hopen
    subst hold
    cases old with
    | file content =>
      cases content with
      | bytes bytes => exact ⟨bytes, rfl⟩
      | barred cause => exact absurd rfl (hopen cause)
    | directory => exact absurd rfl hne
    | link target =>
      rw [reach_of_passable _ _ (passable_of_reach hd)] at hd
      exact absurd hnode (node?_ne_link_of_follow hd hslash target)

/-! ## 6. A directory that is there -/

section There

variable {tree : FileTree} {dir path name : String} {links : Nat} {trail : Trail}

/-- A directory that is there need not be made. -/
theorem makeDirectories_of_leads (hpass : Passable dir)
    (hleads : Leads tree linkLimit [] (piecesOf dir) links trail) :
    tree.makeDirectories dir = (tree, .ok ()) := by
  have hreach := fun last => reach_of_passable tree last hpass
  obtain ⟨d, node, hd, hnode⟩ := hleads.follow_kept (endsInSlash dir)
  have hmade : tree.makeDirectory dir = .error .alreadyExists := by
    rw [makeDirectory_eq, hreach, hd]
    simp only [hnode]
  obtain ⟨d', hd', -, hdir⟩ := hleads.follow_followed (endsInSlash dir)
  have hthere : tree.isDirectory dir = true :=
    isDirectory_eq_true_iff.mpr ⟨d', (hreach _).trans hd', hdir⟩
  rw [makeDirectories, makeDirectoriesWithin, if_neg hpass.nonempty, hmade, hthere]
  rfl

/-- A file is written right into a directory that is there, where nothing is or a file. -/
theorem writeDeep_of_leads (hparent : parent? path = some dir) (hdir : Passable dir)
    (hpass : Passable path) (hpieces : piecesOf path = piecesOf dir ++ [name])
    (hslash : endsInSlash path = false) (h₁ : name ≠ ".") (h₂ : name ≠ "..")
    (hshort : name.utf8ByteSize ≤ nameLimit)
    (hleads : Leads tree linkLimit [] (piecesOf dir) links trail)
    (hfree : ∀ e, (trail.holds tree).find? name = some e → ∃ old, e.1 = .file (.bytes old))
    (bytes : ByteArray) :
    tree.writeDeep path bytes = (tree.put (trail.place ++ [name]) (.file bytes), .ok ()) := by
  refine (writeDeep_eq_ok_iff hparent).mpr ⟨tree, makeDirectories_of_leads hdir hleads, ?_⟩
  refine write_eq_ok_iff.mpr
    ⟨⟨trail, some name, false⟩, ((trail.holds tree).find? name).map (·.1), ?_, rfl, ?_, ?_, ?_, rfl⟩
  · rw [reach_of_passable _ _ hpass, hpieces, hslash, hleads.follow_append _ (by simp)]
    refine follow_last h₁ h₂ (fun target within hlink => ?_) ..
    obtain ⟨old, hfile⟩ := hfree _ hlink
    cases hfile
  · simp only [Destination.node?, if_neg (Nat.not_lt.mpr hshort)]
  · intro hnode
    obtain ⟨e, he, heq⟩ := Option.map_eq_some_iff.mp hnode
    obtain ⟨old, hfile⟩ := hfree e he
    rw [heq] at hfile
    cases hfile
  · refine barrier?_eq_none_iff.mpr fun cause hbarred => ?_
    have hplace : Destination.place ⟨trail, some name, false⟩ = trail.place ++ [name] := rfl
    rw [hplace, (hleads.of trivial).node?_eq] at hbarred
    obtain ⟨e, he, heq⟩ := Option.map_eq_some_iff.mp hbarred
    obtain ⟨old, hfile⟩ := hfree e he
    rw [heq] at hfile
    cases hfile

end There

end ScriptWeave.FileTree
