/-
# Disks, and the plain paths on them

A file tree as such may hold one name twice, or have something inside a file.  On a disk neither
happens, and every name is one that a path can have (`IsDisk`).  Then a location has one path that
says it and nothing more, `pathTo`, and that path leads where the location is, as long as no link
stands on the way.

Links are what keeps paths and locations apart.  So what is said here of a path is said under the
condition that none is met; other spellings of the same components, with dots or repeated slashes
in them, may fail where the plain one succeeds, but lead nowhere else (`node?_of_nodeAt`).

**Stated here.**  A plain path without links on its way leads to a node exactly when that is the
node at its location (`nodeAt_pathTo_eq_ok_iff`), and it leads to that location (`lookUp_pathTo`).
-/
import Mathlib.Data.List.Infix
import ScriptWeave.Proofs.FileTree.Paths

namespace ScriptWeave
namespace FileTree

open FilePath

/-! ## 1. Disks -/

/-- A name that an entry of a directory can have. -/
structure IsName (name : String) : Prop where
  step : (Component.name name).IsStep
  plain : '\x00' ∉ name.toList
  short : name.utf8ByteSize ≤ nameLimit

instance (name : String) : Decidable (IsName name) :=
  decidable_of_iff ((Component.name name).IsStep ∧ '\x00' ∉ name.toList ∧
      name.utf8ByteSize ≤ nameLimit)
    ⟨fun ⟨hstep, hplain, hshort⟩ => ⟨hstep, hplain, hshort⟩, fun h => ⟨h.step, h.plain, h.short⟩⟩

/-- What a directory of a disk holds: no name stands there twice, and only directories have
something inside. -/
def IsDisk : FileTree → Prop
  | nil => True
  | cons name node inside rest =>
    IsName name ∧ rest.find? name = none ∧ (node ≠ .directory → inside = nil) ∧
      inside.IsDisk ∧ rest.IsDisk

instance : DecidablePred IsDisk := go
where
  /-- Decided entry by entry. -/
  go : (tree : FileTree) → Decidable tree.IsDisk
    | nil => isTrue trivial
    | cons name node inside rest =>
      have := go inside
      have := go rest
      inferInstanceAs (Decidable (IsName name ∧ rest.find? name = none ∧
        (node ≠ .directory → inside = nil) ∧ inside.IsDisk ∧ rest.IsDisk))

section Disk

variable {tree within : FileTree} {place above rest : Location} {name : String} {node : Node}

/-- An entry of a disk. -/
theorem IsDisk.of_find? (h : tree.IsDisk) (hfind : tree.find? name = some (node, within)) :
    IsName name ∧ (node ≠ .directory → within = nil) ∧ within.IsDisk := by
  induction tree with
  | nil => cases hfind
  | cons first old inside rest _ ih =>
    obtain ⟨hname, -, hsolid, hinside, hrest⟩ := h
    rw [find?] at hfind
    split at hfind
    · rename_i heq
      obtain ⟨rfl, rfl⟩ := Prod.mk.inj (Option.some.inj hfind)
      exact ⟨heq ▸ hname, hsolid, hinside⟩
    · exact ih hrest hfind

/-- All names on the way to a node are names. -/
theorem IsDisk.isName_of_mem (h : tree.IsDisk) (hnode : tree.node? place ≠ none) :
    ∀ n ∈ place, IsName n := by
  induction place generalizing tree with
  | nil => exact fun n hn => absurd hn List.not_mem_nil
  | cons first place ih =>
    cases hfind : tree.find? first with
    | none => exact absurd (node?_cons_of_find_none hfind place) hnode
    | some e =>
      obtain ⟨hname, -, hwithin⟩ := h.of_find? hfind
      rw [node?_cons_of_find hfind] at hnode
      intro n hn
      rcases List.mem_cons.mp hn with rfl | hn
      · exact hname
      · refine ih hwithin ?_ n hn
        rwa [if_neg (List.ne_nil_of_mem hn)] at hnode

/-- What stands inside a place of a disk is a disk. -/
theorem IsDisk.inside (h : tree.IsDisk) (place : Location) : (tree.inside place).IsDisk := by
  induction place generalizing tree with
  | nil => exact h
  | cons first place ih =>
    rw [inside_cons]
    cases hfind : tree.find? first with
    | none => exact ih trivial
    | some e =>
      obtain ⟨-, -, hwithin⟩ := h.of_find? hfind
      exact ih hwithin

/-- What has something inside is a directory. -/
theorem IsDisk.directory_of_append (h : tree.IsDisk) (hrest : rest ≠ [])
    (hnode : tree.node? (above ++ rest) ≠ none) : tree.node? above = some .directory := by
  induction above generalizing tree with
  | nil => rfl
  | cons first above ih =>
    have hne : above ++ rest ≠ [] := by simp [hrest]
    cases hfind : tree.find? first with
    | none => exact absurd (node?_cons_of_find_none hfind (above ++ rest)) hnode
    | some e =>
      obtain ⟨node, within⟩ := e
      obtain ⟨-, hsolid, hwithin⟩ := h.of_find? hfind
      rw [List.cons_append, node?_cons_of_find hfind, if_neg hne] at hnode
      by_cases hdir : node = .directory
      · rw [node?_cons_of_find hfind]
        split
        · rw [hdir]
        · exact ih hwithin hnode
      · rw [hsolid hdir, node?_of_nil hne] at hnode
        exact absurd rfl hnode

/-- No link stands on the way to a location, nor at it. -/
def NoLinkOn (tree : FileTree) (place : Location) : Prop :=
  ∀ r, r <+: place → ∀ target, tree.node? r ≠ some (.link target)

instance : Decidable (tree.NoLinkOn place) :=
  decidable_of_iff (∀ r ∈ place.inits,
      (match tree.node? r with | some (.link _) => false | _ => true) = true) <| by
    constructor
    · intro h r hr target hlink
      have hmatch := h r ((List.mem_inits r place).mpr hr)
      rw [hlink] at hmatch
      cases hmatch
    · intro h r hr
      split
      · rename_i target hlink
        exact absurd hlink (h r ((List.mem_inits r place).mp hr) target)
      · rfl

theorem NoLinkOn.of_prefix (h : tree.NoLinkOn place) (habove : above <+: place) :
    tree.NoLinkOn above := fun r hr => h r (hr.trans habove)

theorem NoLinkOn.concat (h : tree.NoLinkOn place)
    (hnode : ∀ target, tree.node? (place ++ [name]) ≠ some (.link target)) :
    tree.NoLinkOn (place ++ [name]) := by
  intro r hr
  rcases List.prefix_concat_iff.mp hr with rfl | hr
  · exact hnode
  · exact h r hr

/-- Nothing stands behind a place at which there is nothing. -/
theorem NoLinkOn.append_of_none (h : tree.NoLinkOn place) (hnode : tree.node? place = none)
    (more : Location) : tree.NoLinkOn (place ++ more) := by
  intro r hr target heq
  rcases List.prefix_or_prefix_of_prefix hr (List.prefix_append place more) with hr | ⟨_, rfl⟩
  · exact h r hr target heq
  · exact node?_ne_none_of_append (by rw [heq]; simp) hnode

/-- Only directories stand on the way to something. -/
theorem IsDisk.noLinkOn (h : tree.IsDisk) (hnode : tree.node? place = some node)
    (hlink : ∀ target, node ≠ .link target) : tree.NoLinkOn place := by
  rintro r ⟨rest, rfl⟩ target heq
  by_cases hrest : rest = []
  · rw [hrest, List.append_nil, heq] at hnode
    exact hlink target (Option.some.inj hnode).symm
  · rw [h.directory_of_append hrest (by simp [hnode])] at heq
    cases heq

end Disk

/-! ## 2. Plain paths -/

section Plain

variable {place : Location} {name : String}

theorem pathTo_cons (first : String) (hplace : place ≠ []) :
    pathTo (first :: place) = "/" ++ first ++ pathTo place := by
  simp [pathTo, hplace, String.join_cons]

theorem pathTo_singleton (name : String) : pathTo [name] = "/" ++ name := by
  simp [pathTo]

/-- A plain path that goes on by a name. -/
theorem pathTo_concat (name : String) (hplace : place ≠ []) :
    pathTo (place ++ [name]) = pathTo place ++ "/" ++ name := by
  induction place with
  | nil => exact absurd rfl hplace
  | cons first place ih =>
    by_cases hnil : place = []
    · subst hnil
      rw [List.singleton_append, pathTo_cons first (List.cons_ne_nil name []), pathTo_singleton,
        pathTo_singleton, ← String.append_assoc]
    · rw [List.cons_append, pathTo_cons first (by simp), ih hnil, pathTo_cons first hnil,
        ← String.append_assoc, ← String.append_assoc]

theorem toList_pathTo (place : Location) :
    (pathTo place).toList = '/' :: ['/'].intercalate (place.map String.toList) := by
  induction place with
  | nil => rfl
  | cons first place ih =>
    by_cases hplace : place = []
    · subst hplace
      simp [pathTo_singleton, String.toList_append]
    · rw [pathTo_cons first hplace, String.toList_append, String.toList_append, ih, List.map_cons,
        List.intercalate_cons_of_ne_nil (by simpa using hplace)]
      simp

theorem isStep_of_mem_map (h : ∀ n ∈ place, (Component.name n).IsStep) :
    ∀ c ∈ place.map Component.name, c.IsStep := by
  intro c hc
  obtain ⟨n, hn, rfl⟩ := List.mem_map.mp hc
  exact h n hn

theorem isStep_concat (h : ∀ n ∈ place, (Component.name n).IsStep)
    (hname : (Component.name name).IsStep) : ∀ n ∈ place ++ [name], (Component.name n).IsStep :=
  List.forall_mem_append.mpr ⟨h, List.forall_mem_singleton.mpr hname⟩

/-- **The components of a plain path** are the names of its location. -/
theorem components_pathTo (h : ∀ n ∈ place, (Component.name n).IsStep) :
    components (pathTo place).toList = .root :: place.map .name := by
  have hrender : (pathTo place).toList = render ([.root] ++ place.map .name) := by
    rw [toList_pathTo, List.singleton_append, render, List.map_map]
    rfl
  rw [hrender, components_render (Or.inr (Or.inl rfl)) (isStep_of_mem_map h)]
  rfl

theorem piecesOf_pathTo (h : ∀ n ∈ place, (Component.name n).IsStep) :
    piecesOf (pathTo place) = place := by
  have htexts : ∀ t ∈ place.map String.toList, '/' ∉ t ∧ t ≠ [] := by
    intro t ht
    obtain ⟨n, hn, rfl⟩ := List.mem_map.mp ht
    exact ⟨(h n hn).2, (h n hn).ne_nil⟩
  have hsplit := List.splitOn_append_cons_self (a := '/') []
    (['/'].intercalate (place.map String.toList))
  rw [piecesOf_eq, toList_pathTo, ← List.nil_append ('/' :: _), hsplit, List.filter_append,
    splitOn_intercalate_filter htexts]
  simp [Function.comp_def]

/-- A plain path ends in a name, unless it is that of the top. -/
theorem endsInSlash_pathTo (hplace : place ≠ []) (h : ∀ n ∈ place, (Component.name n).IsStep) :
    endsInSlash (pathTo place) = false := by
  obtain ⟨front, last, rfl⟩ := (List.eq_nil_or_concat place).resolve_left hplace
  rw [List.concat_eq_append] at h ⊢
  have hlast := h last (by simp)
  have htext : ∃ before, (pathTo (front ++ [last])).toList = before ++ last.toList := by
    by_cases hfront : front = []
    · exact ⟨['/'], by rw [hfront, List.nil_append, pathTo_singleton, String.toList_append]; rfl⟩
    · exact ⟨_, by rw [pathTo_concat last hfront, String.toList_append]⟩
  obtain ⟨before, hbefore⟩ := htext
  have hne : last.toList ≠ [] := hlast.ne_nil
  rw [endsInSlash, hbefore, List.getLast?_append_of_ne_nil _ hne, decide_eq_false_iff_not]
  exact fun hslash => hlast.2 (List.mem_of_getLast? hslash)

theorem pathTo_ne_empty (place : Location) : pathTo place ≠ "" := by
  intro heq
  have htext := toList_pathTo place
  rw [heq] at htext
  cases htext

/-- A relative path behind a plain one. -/
theorem join_pathTo_of_relative (hplace : place ≠ [])
    (h : ∀ n ∈ place, (Component.name n).IsStep) {path : String} (hpath : isAbsolute path = false) :
    join (pathTo place) path = pathTo place ++ "/" ++ path := by
  have hslash := endsInSlash_pathTo hplace h
  rw [endsInSlash, decide_eq_false_iff_not] at hslash
  rw [join, if_neg (by simp [hpath]), if_neg (pathTo_ne_empty place), if_neg hslash]

/-- A name behind a plain path. -/
theorem join_pathTo (h : ∀ n ∈ place ++ [name], (Component.name n).IsStep) :
    join (pathTo place) name = pathTo (place ++ [name]) := by
  have hname := h name (by simp)
  have hrelative : isAbsolute name = false := by
    rw [isAbsolute, beq_eq_false_iff_ne]
    exact fun hslash => hname.2 (List.mem_of_head? hslash)
  by_cases hplace : place = []
  · subst hplace
    rw [join, if_neg (by simp [hrelative]), if_neg (pathTo_ne_empty [])]
    exact (if_pos rfl).trans (pathTo_singleton name).symm
  · rw [join_pathTo_of_relative hplace (fun n hn => h n (List.mem_append_left _ hn)) hrelative,
      pathTo_concat name hplace]

/-- A normal name behind a plain path. -/
theorem join_pathTo_of_isNormal (h : ∀ n ∈ place, (Component.name n).IsStep)
    (hname : IsNormal name) : join (pathTo place) name = pathTo (place ++ piecesOf name) := by
  obtain ⟨c, rest, htext, hc⟩ := exists_cons_of_isNormal hname
  have hrelative : isAbsolute name = false := by
    rw [isAbsolute, htext]
    simpa using hc
  have hpieces : (piecesOf name).map String.toList = name.toList.splitOn '/' := by
    rw [piecesOf_of_isNormal hname]
    simp [Function.comp_def]
  refine String.toList_injective ?_
  rw [toList_pathTo, List.map_append, hpieces]
  by_cases hplace : place = []
  · subst hplace
    have hslash : (pathTo []).toList.getLast? = some '/' := rfl
    rw [join, if_neg (by simp [hrelative]), if_neg (pathTo_ne_empty []), if_pos hslash,
      String.toList_append, List.map_nil, List.nil_append, List.intercalate_splitOn]
    rfl
  · rw [join_pathTo_of_relative hplace h hrelative, String.toList_append, String.toList_append,
      toList_pathTo, intercalate_append_of_ne_nil _ (by simpa using hplace)
        (List.splitOn_ne_nil _ _), List.intercalate_splitOn]
    simp

/-- A plain path has slashes, and the characters of its names. -/
theorem notMem_pathTo {c : Char} (hc : c ≠ '/') (h : ∀ n ∈ place, c ∉ n.toList) :
    c ∉ (pathTo place).toList := by
  induction place with
  | nil => simpa [pathTo] using hc
  | cons first place ih =>
    have hfirst := h first List.mem_cons_self
    by_cases hplace : place = []
    · subst hplace
      simpa [pathTo_singleton, String.toList_append] using ⟨hc, hfirst⟩
    · rw [pathTo_cons first hplace, String.toList_append, String.toList_append]
      simpa using ⟨hc, hfirst, ih fun n hn => h n (List.mem_cons_of_mem _ hn)⟩

/-- The plain path of fewer names is no longer. -/
theorem utf8ByteSize_pathTo_le {place' : Location} (h : place.Sublist place') :
    (pathTo place).utf8ByteSize ≤ (pathTo place').utf8ByteSize := by
  have htexts := intercalate_sublist ['/'] (h.map String.toList)
  have hbytes := utf8ByteSize_le_of_sublist (htexts.cons_cons '/')
  rwa [← toList_pathTo, ← toList_pathTo, String.ofList_toList, String.ofList_toList] at hbytes

/-- A plain path can be walked along if it is not too long. -/
theorem passable_pathTo (h : ∀ n ∈ place, IsName n)
    (hshort : (pathTo place).utf8ByteSize ≤ pathLimit) : Passable (pathTo place) where
  plain := notMem_pathTo (by decide) fun n hn => (h n hn).plain
  nonempty := pathTo_ne_empty place
  short := hshort

end Plain

/-! ## 3. Where a path leads if it meets no link -/

section Leads

variable {tree : FileTree} {place : Location} {path : String} {node : Node}

theorem nodeAt_eq_ok_iff :
    tree.nodeAt path = .ok node ↔ ∃ place, tree.lookUp path = .ok (place, node) := by
  rw [nodeAt]
  cases tree.lookUp path <;> simp [Except.map, Prod.ext_iff]

theorem canonical_eq_ok_iff :
    tree.canonical path = .ok place ↔ ∃ node, tree.lookUp path = .ok (place, node) := by
  rw [canonical]
  cases tree.lookUp path <;> simp [Except.map, Prod.ext_iff]

theorem isFile_eq_true_iff :
    tree.isFile path = true ↔ ∃ content, tree.nodeAt path = .ok (.file content) := by
  unfold isFile
  split
  · rename_i content h
    simp [h]
  · rename_i hnot
    simp only [Bool.false_eq_true, false_iff, not_exists]
    exact hnot

theorem isDirectory_iff_nodeAt :
    tree.isDirectory path = true ↔ tree.nodeAt path = .ok .directory := by
  unfold isDirectory
  split
  · rename_i h
    exact iff_of_true rfl h
  · rename_i hnot
    exact iff_of_false nofun hnot

theorem isOk_nodeAt_iff : (tree.nodeAt path).isOk = true ↔ ∃ node, tree.nodeAt path = .ok node := by
  cases tree.nodeAt path <;> simp [Except.isOk, Except.toBool]

theorem read_eq_ok_iff {content : ByteArray} :
    tree.read path = .ok content ↔ tree.nodeAt path = .ok (.file content) := by
  rw [read]
  cases tree.nodeAt path with
  | error e => simp [bind, Except.bind]
  | ok node => rcases node with (_ | _) | _ | _ <;> simp [bind, Except.bind]

/-- **A walk that meets no link** and does not go up ends at the location of its pieces. -/
theorem place_of_follow {last : LastLink} {trail : Trail} {links : Nat} {pieces : List String}
    {slash : Bool} {d : Destination} (ht : trail.Of tree) (hup : ".." ∉ pieces)
    (hlinks : ∀ r, r <+: undot pieces → ∀ target,
      tree.node? (trail.place ++ r) ≠ some (.link target))
    (h : follow tree last links trail pieces slash = .ok d) :
    d.place = trail.place ++ undot pieces := by
  fun_induction follow tree last links trail pieces slash with
  | case1 =>
    obtain rfl := Except.ok.inj h
    rfl
  | case2 _ _ _ _ ih => exact ih ht (fun hm => hup (List.mem_cons_of_mem _ hm)) hlinks h
  | case3 => exact absurd List.mem_cons_self hup
  | case4 | case6 | case8 | case12 => cases h
  | case5 _ _ _ _ h₁ | case7 _ _ _ _ h₁ | case9 _ _ _ _ h₁ =>
    obtain rfl := Except.ok.inj h
    rw [undot_cons_of_ne h₁]
    rfl
  | case10 links trail slash piece rest h₁ _ _ within hfind _ ih =>
    rw [undot_cons_of_ne h₁] at hlinks ⊢
    have hplace : Trail.place ((piece, within) :: trail) ++ undot rest
        = trail.place ++ piece :: undot rest := by
      simp
    rw [← hplace]
    refine ih (ht.cons hfind) (fun hm => hup (List.mem_cons_of_mem _ hm)) (fun r hr target => ?_) h
    have hlink := hlinks (piece :: r) (List.cons_prefix_cons.mpr ⟨rfl, hr⟩) target
    simpa using hlink
  | case11 _ trail _ piece rest h₁ _ _ target _ hfind =>
    refine absurd ?_ (hlinks [piece] ?_ target)
    · rw [ht.node?_eq, hfind]
      rfl
    · rw [undot_cons_of_ne h₁]
      exact List.prefix_append [piece] _
  | case13 trail _ piece rest h₁ _ _ target _ hfind =>
    refine absurd ?_ (hlinks [piece] ?_ target)
    · rw [ht.node?_eq, hfind]
      rfl
    · rw [undot_cons_of_ne h₁]
      exact List.prefix_append [piece] _

/-- The steps of a path from the top. -/
theorem steps_of_components {text : List Char} {steps : List Component}
    (h : components text = .root :: steps) : (text.splitOn '/').filterMap componentOf = steps := by
  rw [components_eq] at h
  rcases isFront_frontOf text with hfront | hfront | hfront
  · rw [hfront, List.nil_append] at h
    have hroot : Component.root ∈ (text.splitOn '/').filterMap componentOf := by simp [h]
    exact absurd rfl (isStep_of_mem hroot).ne_root
  · rw [hfront] at h
    exact (List.cons.inj h).2
  · rw [hfront] at h
    cases (List.cons.inj h).1

/-- **However a path is spelled**, if it meets no link it leads nowhere but to its location. -/
theorem place_of_lookUp (hpath : components path.toList = .root :: place.map .name)
    (hlinks : tree.NoLinkOn place) {other : Location} (h : tree.lookUp path = .ok (other, node)) :
    other = place ∧ tree.node? place = some node := by
  obtain ⟨d, hreach, hd, -, rfl⟩ := lookUp_eq_ok_iff.mp h
  have hnode := node?_place_of_node? (of_reach hreach) hd
  have hsteps := steps_of_components hpath
  have hundot : undot (piecesOf path) = place := by
    rw [undot_piecesOf, hsteps]
    simp [Function.comp_def, Component.text]
  have hup : ".." ∉ piecesOf path := by
    intro hm
    have hplace : ".." ∈ place := by
      rw [← hundot]
      exact List.mem_filter.mpr ⟨hm, by decide⟩
    have hmem : Component.name ".." ∈ (path.toList.splitOn '/').filterMap componentOf := by
      rw [hsteps]
      exact List.mem_map_of_mem hplace
    exact (ne_dot_of_isStep (isStep_of_mem hmem)).2 rfl
  rw [reach_of_passable _ _ (passable_of_reach hreach)] at hreach
  have hplace : d.place = place :=
    (place_of_follow (Trail.of_nil tree) hup (by rwa [hundot]) hreach).trans hundot
  exact ⟨hplace, hplace ▸ hnode⟩

theorem node?_of_nodeAt (hpath : components path.toList = .root :: place.map .name)
    (hlinks : tree.NoLinkOn place) (h : tree.nodeAt path = .ok node) :
    tree.node? place = some node := by
  obtain ⟨_, hlook⟩ := nodeAt_eq_ok_iff.mp h
  exact (place_of_lookUp hpath hlinks hlook).2

/-- Along directories a walk leads to the last of them. -/
theorem exists_leads {trail : Trail} {names : Location} (ht : trail.Of tree)
    (hnames : ∀ n ∈ names, IsName n)
    (hdirs : ∀ r, r <+: names → tree.node? (trail.place ++ r) = some .directory) (links : Nat) :
    ∃ trail', Leads tree links trail names links trail' ∧
      trail'.place = trail.place ++ names := by
  induction names generalizing trail with
  | nil => exact ⟨trail, .here, (List.append_nil _).symm⟩
  | cons first names ih =>
    have hfirst := hdirs [first] (List.prefix_append [first] names)
    rw [ht.node?_eq] at hfirst
    obtain ⟨⟨node, within⟩, hfind, rfl⟩ := Option.map_eq_some_iff.mp hfirst
    have hname := hnames first List.mem_cons_self
    obtain ⟨h₁, h₂⟩ := ne_dot_of_isStep hname.step
    obtain ⟨trail', hleads, hplace⟩ := ih (ht.cons hfind)
      (fun n hn => hnames n (List.mem_cons_of_mem _ hn)) fun r hr => by
        have hdir := hdirs (first :: r) (List.cons_prefix_cons.mpr ⟨rfl, hr⟩)
        simpa using hdir
    exact ⟨trail', .directory h₁ h₂ hname.short hfind hleads, by simpa using hplace⟩

/-- **A plain path leads to its location**, if what is there is no link. -/
theorem lookUp_pathTo (h : tree.IsDisk) (hnode : tree.node? place = some node)
    (hlink : ∀ target, node ≠ .link target)
    (hshort : (pathTo place).utf8ByteSize ≤ pathLimit) :
    tree.lookUp (pathTo place) = .ok (place, node) := by
  have hnames := h.isName_of_mem (by rw [hnode]; simp)
  have hsteps : ∀ n ∈ place, (Component.name n).IsStep := fun n hn => (hnames n hn).step
  rw [lookUp_eq_ok_iff, reach_of_passable _ _ (passable_pathTo hnames hshort),
    piecesOf_pathTo hsteps]
  rcases List.eq_nil_or_concat place with rfl | ⟨front, last, rfl⟩
  · obtain rfl := Option.some.inj hnode
    exact ⟨⟨[], none, true⟩, by rw [follow]; rfl, rfl, fun _ => rfl, rfl⟩
  · rw [List.concat_eq_append] at *
    have hlast := hnames last (by simp)
    obtain ⟨h₁, h₂⟩ := ne_dot_of_isStep hlast.step
    -- along the directories, then the last name
    have hdirs : ∀ r, r <+: front → tree.node? (Trail.place [] ++ r) = some .directory := by
      rintro r ⟨rest, rfl⟩
      have hne : tree.node? (r ++ (rest ++ [last])) ≠ none := by
        rw [← List.append_assoc, hnode]
        simp
      exact h.directory_of_append (by simp) hne
    obtain ⟨trail, hleads, hplace⟩ := exists_leads (Trail.of_nil tree)
      (fun n hn => hnames n (List.mem_append_left _ hn)) hdirs linkLimit
    have htrail := hleads.of trivial
    have hfind : ((trail.holds tree).find? last).map (·.1) = some node := by
      rw [← htrail.node?_eq, hplace]
      exact hnode
    refine ⟨⟨trail, some last, false⟩, ?_, ?_, by simp, ?_⟩
    · rw [hleads.follow_append _ (List.cons_ne_nil last []), endsInSlash_pathTo (by simp) hsteps]
      refine follow_last h₁ h₂ (fun target within hcontra => ?_) ..
      rw [hcontra] at hfind
      exact hlink target (Option.some.inj hfind).symm
    · simp only [Destination.node?, if_neg (Nat.not_lt.mpr hlast.short), hfind]
    · exact congrArg (· ++ [last]) hplace

/-- **A plain path that meets no link** leads to a node exactly when that is the node at its
location. -/
theorem nodeAt_pathTo_eq_ok_iff (h : tree.IsDisk) (hsteps : ∀ n ∈ place, (Component.name n).IsStep)
    (hlinks : tree.NoLinkOn place) (hshort : (pathTo place).utf8ByteSize ≤ pathLimit) :
    tree.nodeAt (pathTo place) = .ok node ↔ tree.node? place = some node := by
  constructor
  · exact node?_of_nodeAt (components_pathTo hsteps) hlinks
  · intro hnode
    refine nodeAt_eq_ok_iff.mpr ⟨place, lookUp_pathTo h hnode (fun target heq => ?_) hshort⟩
    exact hlinks place List.prefix_rfl target (heq ▸ hnode)

/-- A path that leads to a node can be walked along. -/
theorem passable_of_nodeAt (h : tree.nodeAt path = .ok node) : Passable path := by
  obtain ⟨place, hlook⟩ := nodeAt_eq_ok_iff.mp h
  obtain ⟨d, hd, -⟩ := lookUp_eq_ok_iff.mp hlook
  exact passable_of_reach hd

/-- A path that is too long leads to no file. -/
theorem isFile_eq_false_of_long (h : pathLimit < path.utf8ByteSize) : tree.isFile path = false := by
  rw [Bool.eq_false_iff]
  intro hfile
  obtain ⟨content, hfound⟩ := isFile_eq_true_iff.mp hfile
  exact absurd (passable_of_nodeAt hfound).short (Nat.not_le.mpr h)

/-- In two trees a plain path leads to the same where the same is at its location. -/
theorem nodeAt_pathTo_congr {tree' : FileTree} (h : tree.IsDisk) (h' : tree'.IsDisk)
    (hsteps : ∀ n ∈ place, (Component.name n).IsStep) (hlinks : tree.NoLinkOn place)
    (hlinks' : tree'.NoLinkOn place)
    (hnode : tree'.node? place = some node ↔ tree.node? place = some node) :
    tree'.nodeAt (pathTo place) = .ok node ↔ tree.nodeAt (pathTo place) = .ok node := by
  by_cases hshort : (pathTo place).utf8ByteSize ≤ pathLimit
  · rw [nodeAt_pathTo_eq_ok_iff h hsteps hlinks hshort,
      nodeAt_pathTo_eq_ok_iff h' hsteps hlinks' hshort, hnode]
  · constructor
    · intro hthere
      exact absurd (passable_of_nodeAt hthere).short hshort
    · intro hthere
      exact absurd (passable_of_nodeAt hthere).short hshort

/-- A plain path that meets no link leads to no file if there is none at its location. -/
theorem isFile_pathTo_eq_false (hsteps : ∀ n ∈ place, (Component.name n).IsStep)
    (hlinks : tree.NoLinkOn place) (hnode : ∀ content, tree.node? place ≠ some (.file content)) :
    tree.isFile (pathTo place) = false := by
  by_contra hfile
  obtain ⟨content, hfound⟩ := isFile_eq_true_iff.mp ((Bool.not_eq_false _).mp hfile)
  exact hnode content (node?_of_nodeAt (components_pathTo hsteps) hlinks hfound)

end Leads

end FileTree
end ScriptWeave
