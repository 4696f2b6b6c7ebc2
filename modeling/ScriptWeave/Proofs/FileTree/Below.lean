/-
# A directory in which a build writes

The output of a build goes below one directory.  Where there are no links inside it, a walk below
the directory is decided by the nodes on its way (`OpenBelow.walk`): it comes to the directory of a
file if that is there, and says which of its pieces is missing otherwise.  So the operations on a
file's path can be read off the node at the file's location and the nodes above it
(`OpenBelow.reach`).

A directory that was empty at first (`IsEmptyAt`) is one of that kind, and stays one.  What writing
and removing files there can make of the tree is one invariant, `GrownBelow`: outside of the
directory everything is as it was, inside there are files and directories only, everything
stands in a directory, and every file stands where the path of its name leads.
-/
import Mathlib.Data.List.Induction
import ScriptWeave.Proofs.FileTree.Paths

namespace ScriptWeave.FileTree

open FilePath

/-! ## 1. The directory -/

/-- The path leads to a directory at this place.  No links are inside, and whatever is inside stands
in a directory. -/
structure OpenBelow (dir : String) (out : Location) (tree : FileTree) : Prop where
  leads : tree.LeadsTo dir out
  noLinks : ∀ rest target, rest ≠ [] → tree.node? (out ++ rest) ≠ some (.link target)
  solid : ∀ rest name, tree.node? (out ++ (rest ++ [name])) ≠ none →
    tree.node? (out ++ rest) = some .directory

/-- A name with a path below the directory that is not too long, and no piece too long. -/
structure FitsBelow (dir name : String) : Prop where
  normal : IsNormal name
  passable : Passable (FilePath.join dir name)
  short : ∀ piece ∈ piecesOf name, piece.utf8ByteSize ≤ nameLimit

section Open

variable {tree : FileTree} {dir : String} {out : Location}

theorem OpenBelow.node?_out (h : OpenBelow dir out tree) : tree.node? out = some .directory :=
  h.leads.node?_place

/-- What has something inside is a directory. -/
theorem OpenBelow.directory_of_append (h : OpenBelow dir out tree) {above rest : Location}
    (hrest : rest ≠ []) (hne : tree.node? (out ++ (above ++ rest)) ≠ none) :
    tree.node? (out ++ above) = some .directory := by
  induction rest using List.reverseRecOn with
  | nil => exact absurd rfl hrest
  | append_singleton rest name ih =>
    rw [← List.append_assoc above] at hne
    have hdir := h.solid _ _ hne
    by_cases hr : rest = []
    · rwa [hr, List.append_nil] at hdir
    · exact ih hr (by rw [hdir]; simp)

/-- The directories above a directory. -/
theorem OpenBelow.directory_of_isPrefix (h : OpenBelow dir out tree) {r names : Location}
    (hr : r <+: names) (hdir : tree.node? (out ++ names) = some .directory) :
    tree.node? (out ++ r) = some .directory := by
  obtain ⟨rest, rfl⟩ := hr
  by_cases hrest : rest = []
  · rwa [hrest, List.append_nil] at hdir
  · exact h.directory_of_append hrest (by rw [hdir]; simp)

end Open

/-! ## 2. Walks below the directory -/

section Walk

variable {tree : FileTree} {dir : String} {out : Location}

/-- A path below the directory is walked along by way of the directory. -/
theorem OpenBelow.exists_leads (h : OpenBelow dir out tree) :
    ∃ links trail, trail.Of tree ∧ trail.place = out ∧ ∀ path names, IsBelow dir path names →
      ∃ front, piecesOf path = front ++ names ∧
        Leads tree linkLimit [] front links trail := by
  obtain ⟨links, trail, hleads, hplace⟩ := h.leads
  refine ⟨links, trail, hleads.of (Trail.of_nil tree), hplace, fun path names hpath => ?_⟩
  obtain ⟨front, hpieces, hundot⟩ := hpath.pieces
  exact ⟨front, hpieces, hleads.of_undot hundot⟩

/-- A walk along names fails; and it fails for want of a directory exactly if the names are short
and there is nothing else in the way. -/
structure Blocked (tree : FileTree) (links : Nat) (trail : Trail) (names : List String)
    (e : StorageError) : Prop where
  fails : ∀ last name slash, follow tree last links trail (names ++ [name]) slash = .error e
  missing : e = .notFound → tree.node? (trail.place ++ names) ≠ some .directory
  free : (∀ n ∈ names, n.utf8ByteSize ≤ nameLimit) →
    (∀ r, r <+: names → tree.node? (trail.place ++ r) = none ∨
      tree.node? (trail.place ++ r) = some .directory) → e = .notFound

section Blocked

variable {links : Nat} {trail : Trail} {piece : String} {names : List String}

theorem blocked_of_long (h₁ : piece ≠ ".") (h₂ : piece ≠ "..")
    (hsize : nameLimit < piece.utf8ByteSize) :
    Blocked tree links trail (piece :: names) .nameTooLong where
  fails := fun last name slash => by
    rw [List.cons_append, follow, if_neg h₁, if_neg h₂, if_pos ⟨by simp, hsize⟩]
  missing := nofun
  free := fun hall => absurd (hall piece List.mem_cons_self) (by omega)

theorem blocked_of_none (htrail : trail.Of tree) (h₁ : piece ≠ ".") (h₂ : piece ≠ "..")
    (hsize : piece.utf8ByteSize ≤ nameLimit) (hfind : (trail.holds tree).find? piece = none) :
    Blocked tree links trail (piece :: names) .notFound where
  fails := fun last name slash => by
    rw [List.cons_append, follow, if_neg h₁, if_neg h₂, if_neg (by omega), hfind]
    simp
  missing := fun _ hdir => by
    have hnode := htrail.node?_eq piece
    rw [hfind, Option.map_none] at hnode
    rw [← List.singleton_append, ← List.append_assoc] at hdir
    exact node?_ne_none_of_append (by rw [hdir]; simp) hnode
  free := fun _ _ => rfl

theorem blocked_of_file (htrail : trail.Of tree) (h₁ : piece ≠ ".") (h₂ : piece ≠ "..")
    (hsize : piece.utf8ByteSize ≤ nameLimit) {content : FileContent} {within : FileTree}
    (hfind : (trail.holds tree).find? piece = some (.file content, within)) :
    Blocked tree links trail (piece :: names) .notADirectory where
  fails := fun last name slash => by
    rw [List.cons_append, follow, if_neg h₁, if_neg h₂, if_neg (by omega), hfind]
    simp
  missing := nofun
  free := fun _ hway => by
    have hnode := hway [piece] ⟨names, rfl⟩
    rw [htrail.node?_eq, hfind] at hnode
    simp at hnode

/-- What is in the way behind a directory is in the way before it. -/
theorem Blocked.directory {e : StorageError} {within : FileTree}
    (h : Blocked tree links ((piece, within) :: trail) names e) (h₁ : piece ≠ ".")
    (h₂ : piece ≠ "..") (hsize : piece.utf8ByteSize ≤ nameLimit)
    (hfind : (trail.holds tree).find? piece = some (.directory, within)) :
    Blocked tree links trail (piece :: names) e where
  fails := fun last name slash => by
    rw [List.cons_append, follow_directory h₁ h₂ hsize hfind (by simp)]
    exact h.fails last name slash
  missing := fun he => by simpa using h.missing he
  free := fun hall hway => h.free (fun n hn => hall n (List.mem_cons_of_mem _ hn)) fun r hr => by
    simpa using hway (piece :: r) (List.cons_prefix_cons.mpr ⟨rfl, hr⟩)

end Blocked

/-- **A walk below the directory** comes to a directory, or something is in the way. -/
theorem OpenBelow.walk (h : OpenBelow dir out tree) (links : Nat) {trail : Trail}
    (htrail : trail.Of tree) (hbelow : out <+: trail.place) {names : List String}
    (hnames : ∀ n ∈ names, (Component.name n).IsStep) :
    (∃ trail', trail'.Of tree ∧ trail'.place = trail.place ++ names ∧
      (∀ n ∈ names, n.utf8ByteSize ≤ nameLimit) ∧ Leads tree links trail names links trail') ∨
    ∃ e, Blocked tree links trail names e := by
  induction names generalizing trail with
  | nil => exact Or.inl ⟨trail, htrail, by simp, by simp, .here⟩
  | cons piece names ih =>
    obtain ⟨h₁, h₂⟩ := ne_dot_of_isStep (hnames piece List.mem_cons_self)
    by_cases hlong : nameLimit < piece.utf8ByteSize
    · exact Or.inr ⟨_, blocked_of_long h₁ h₂ hlong⟩
    have hsize := Nat.not_lt.mp hlong
    cases hfind : (trail.holds tree).find? piece with
    | none => exact Or.inr ⟨_, blocked_of_none htrail h₁ h₂ hsize hfind⟩
    | some e =>
      obtain ⟨node, within⟩ := e
      cases node with
      | file content => exact Or.inr ⟨_, blocked_of_file htrail h₁ h₂ hsize hfind⟩
      | link target =>
        obtain ⟨above, habove⟩ := hbelow
        have hnode := htrail.node?_eq piece
        rw [hfind, ← habove, List.append_assoc] at hnode
        exact absurd hnode (h.noLinks _ target (by simp))
      | directory =>
        have hbelow' : out <+: Trail.place ((piece, within) :: trail) := by
          rw [Trail.place_cons]
          exact hbelow.trans (List.prefix_append _ _)
        rcases ih (htrail.cons hfind) hbelow' fun n hn => hnames n (List.mem_cons_of_mem _ hn) with
          ⟨trail', hof, hplace, hshort, hleads⟩ | ⟨e, hblocked⟩
        · exact Or.inl ⟨trail', hof, by simpa using hplace,
            List.forall_mem_cons.mpr ⟨hsize, hshort⟩, .directory h₁ h₂ hsize hfind hleads⟩
        · exact Or.inr ⟨e, hblocked.directory h₁ h₂ hsize hfind⟩

/-- The path leads to an entry of the directory at the end of the names, which may be missing. -/
structure IsEntry (tree : FileTree) (path : String) (out : Location) (names : List String)
    (name : String) (d : Destination) : Prop where
  reach : ∀ last, tree.reach last path = .ok d
  slash : d.slash = endsInSlash path
  place : d.place = out ++ (names ++ [name])
  directory : tree.node? (out ++ names) = some .directory
  short : ∀ n ∈ names, n.utf8ByteSize ≤ nameLimit
  node : d.node? tree = if nameLimit < name.utf8ByteSize then .error .nameTooLong
    else .ok (tree.node? (out ++ (names ++ [name])))

/-- **Where the path of a file leads**: to an entry of its directory, or nowhere. -/
theorem OpenBelow.reach (h : OpenBelow dir out tree) {path : String} {names : List String}
    {name : String} (hpath : IsBelow dir path (names ++ [name])) (hpass : Passable path)
    (hnames : ∀ n ∈ names ++ [name], (Component.name n).IsStep) :
    (∃ d, IsEntry tree path out names name d) ∨
    ∃ e, (∀ last, tree.reach last path = .error e) ∧
      (e = .notFound → tree.node? (out ++ names) ≠ some .directory) ∧
      ((∀ n ∈ names, n.utf8ByteSize ≤ nameLimit) →
        (∀ r, r <+: names → tree.node? (out ++ r) = none ∨
          tree.node? (out ++ r) = some .directory) → e = .notFound) := by
  obtain ⟨links, trail, htrail, rfl, hall⟩ := h.exists_leads
  obtain ⟨front, hpieces, hleads⟩ := hall path _ hpath
  have hreach : ∀ last, tree.reach last path
      = follow tree last links trail (names ++ [name]) (endsInSlash path) := by
    intro last
    rw [reach_of_passable tree last hpass, hpieces]
    exact hleads.follow_append last (by simp) _
  have hsteps : ∀ n ∈ names, (Component.name n).IsStep :=
    fun n hn => hnames n (List.mem_append_left _ hn)
  rcases h.walk links htrail List.prefix_rfl hsteps with
    ⟨trail', hof, hp, hshort, hleads'⟩ | ⟨e, hblocked⟩
  · have hentry : tree.node? (trail.place ++ (names ++ [name]))
        = ((trail'.holds tree).find? name).map (·.1) := by
      rw [← List.append_assoc, ← hp, hof.node?_eq]
    refine Or.inl ⟨⟨trail', some name, endsInSlash path⟩, fun last => ?_, rfl, ?_, ?_, hshort, ?_⟩
    · obtain ⟨h₁, h₂⟩ := ne_dot_of_isStep (hnames name (by simp))
      rw [hreach, hleads'.follow_append last (by simp)]
      refine follow_last h₁ h₂ (fun target within hfind => ?_) ..
      rw [hfind] at hentry
      exact h.noLinks _ target (by simp) hentry
    · rw [← List.append_assoc, ← hp]
      simp [Destination.place, Trail.place]
    · rw [← hp, hof.node?_place]
    · rw [hentry]
      rfl
  · exact Or.inr ⟨e, fun last => (hreach last).trans (hblocked.fails last name _),
      hblocked.missing, hblocked.free⟩

/-- With its directory there, the path of a file leads to an entry of it. -/
theorem OpenBelow.exists_isEntry (h : OpenBelow dir out tree) {path : String}
    {names : List String} {name : String} (hpath : IsBelow dir path (names ++ [name]))
    (hpass : Passable path)
    (hnames : ∀ n ∈ names ++ [name], (Component.name n).IsStep)
    (hshort : ∀ n ∈ names, n.utf8ByteSize ≤ nameLimit)
    (hdir : tree.node? (out ++ names) = some .directory) :
    ∃ d, IsEntry tree path out names name d := by
  rcases h.reach hpath hpass hnames with hentry | ⟨e, -, hmissing, hfound⟩
  · exact hentry
  · refine absurd hdir (hmissing (hfound hshort ?_))
    exact fun r hr => Or.inr (h.directory_of_isPrefix hr hdir)

end Walk

/-! ## 3. A directory that was empty at first -/

/-- The path leads to a directory at this place, with nothing inside it.  Links there may be
elsewhere, with names that are not too long for a name. -/
structure IsEmptyAt (tree : FileTree) (dir : String) (out : Location) : Prop where
  leads : tree.lookUp dir = .ok (out, .directory)
  nothing : ∀ rest, rest ≠ [] → tree.node? (out ++ rest) = none
  shortLinks : ShortLinks tree

/-- A tree that has grown below a directory: `top` is what it was at first. -/
structure GrownBelow (top : FileTree) (dir : String) (out : Location) (tree : FileTree) : Prop where
  outside : ∀ place, (∀ rest, rest ≠ [] → place ≠ out ++ rest) →
    tree.node? place = top.node? place
  noLinks : ∀ rest target, rest ≠ [] → tree.node? (out ++ rest) ≠ some (.link target)
  solid : ∀ rest name, tree.node? (out ++ (rest ++ [name])) ≠ none →
    tree.node? (out ++ rest) = some .directory
  files : ∀ rest content, tree.node? (out ++ rest) = some (.file content) →
    ∃ name bytes, content = .bytes bytes ∧ FitsBelow dir name ∧ rest = piecesOf name

section Grown

variable {top tree : FileTree} {dir : String} {out : Location}

theorem IsEmptyAt.leadsTo (h : top.IsEmptyAt dir out) : top.LeadsTo dir out :=
  leadsTo_of_lookUp h.shortLinks h.leads

theorem IsEmptyAt.node?_out (h : top.IsEmptyAt dir out) : top.node? out = some .directory :=
  h.leadsTo.node?_place

theorem IsEmptyAt.ne_empty (h : top.IsEmptyAt dir out) : dir ≠ "" := by
  obtain ⟨d, hreach, -⟩ := lookUp_eq_ok_directory_iff.mp h.leads
  exact (passable_of_reach hreach).nonempty

theorem IsEmptyAt.grownBelow (h : top.IsEmptyAt dir out) : GrownBelow top dir out top where
  outside := fun _ _ => rfl
  noLinks := fun rest target hrest => by simp [h.nothing rest hrest]
  solid := fun rest name hne => absurd (h.nothing (rest ++ [name]) (by simp)) hne
  files := fun rest content hfile => by
    by_cases hrest : rest = []
    · rw [hrest, List.append_nil, h.node?_out] at hfile
      cases hfile
    · rw [h.nothing rest hrest] at hfile
      cases hfile

/-- Everything that was there at first is still there, ways included. -/
theorem GrownBelow.keepsWays (hempty : top.IsEmptyAt dir out) (h : GrownBelow top dir out tree) :
    KeepsWays top tree := by
  intro place node hnode _
  rw [h.outside place ?_]
  · exact hnode
  · rintro rest hrest rfl
    rw [hempty.nothing rest hrest] at hnode
    cases hnode

theorem GrownBelow.openBelow (hempty : top.IsEmptyAt dir out) (h : GrownBelow top dir out tree) :
    OpenBelow dir out tree where
  leads := hempty.leadsTo.of_keepsWays (h.keepsWays hempty)
  noLinks := h.noLinks
  solid := h.solid

/-- No file that was put below the directory is barred. -/
theorem GrownBelow.node?_ne_barred (h : GrownBelow top dir out tree) (rest : Location)
    (cause : StorageError) : tree.node? (out ++ rest) ≠ some (.file (.barred cause)) := by
  intro hbarred
  obtain ⟨-, bytes, heq, -⟩ := h.files _ _ hbarred
  cases heq

/-- A change at one place below the directory, with its directory there. -/
theorem GrownBelow.of_change {tree' : FileTree} (h : GrownBelow top dir out tree)
    {rest : Location} {name : String} (hdir : tree.node? (out ++ rest) = some .directory)
    (hother : ∀ place, place ≠ out ++ (rest ++ [name]) → tree'.node? place = tree.node? place)
    (hlink : ∀ target, tree'.node? (out ++ (rest ++ [name])) ≠ some (.link target))
    (hkept : tree.node? (out ++ (rest ++ [name])) = some .directory →
      tree'.node? (out ++ (rest ++ [name])) = some .directory)
    (hfile : ∀ content, tree'.node? (out ++ (rest ++ [name])) = some (.file content) →
      ∃ file bytes, content = .bytes bytes ∧ FitsBelow dir file ∧
        rest ++ [name] = piecesOf file) :
    GrownBelow top dir out tree' where
  outside := fun place hplace => by
    rw [hother place (hplace _ (by simp)), h.outside place hplace]
  noLinks := fun rest' target hrest => by
    by_cases heq : rest' = rest ++ [name]
    · rw [heq]
      exact hlink target
    · rw [hother _ (by simpa using heq)]
      exact h.noLinks rest' target hrest
  solid := fun rest' name' hne => by
    by_cases heq : rest' ++ [name'] = rest ++ [name]
    · obtain ⟨rfl, -⟩ := List.append_inj' heq rfl
      rw [hother _ (by simp)]
      exact hdir
    · rw [hother _ (by simpa using heq)] at hne
      have hsolid := h.solid rest' name' hne
      by_cases hplace : rest' = rest ++ [name]
      · rw [hplace] at hsolid ⊢
        exact hkept hsolid
      · rw [hother _ (by simpa using hplace)]
        exact hsolid
  files := fun rest' content hfile' => by
    by_cases heq : rest' = rest ++ [name]
    · rw [heq] at hfile' ⊢
      exact hfile content hfile'
    · rw [hother _ (by simpa using heq)] at hfile'
      exact h.files rest' content hfile'

end Grown

end ScriptWeave.FileTree
