/-
# Walks that end in a directory

`follow` walks along the pieces of a path and does three things at once: it moves, it counts links
and it decides what the last piece means.  Only the first of these matters for the pieces before the
last one.  `Leads` says of some pieces that walking along them ends in a directory, one
constructor for every kind of step; where it holds, `follow` goes on behind these pieces as
it would from that directory (`Leads.follow_append`).

A walk of this kind stays possible in every tree that still has the directories and links it came
along (`Leads.of_keepsWays`), and dots make no difference to it (`Leads.of_undot`).

**Stated here.**  A path that leads to a directory is such a walk (`leadsTo_of_lookUp`), and such a
walk leads to a directory (`Leads.follow_followed`, `Leads.follow_kept`); the pieces that a walk
comes along before the last ones are such a walk, too (`exists_leads_of_follow_append`).
-/
import ScriptWeave.FileTree.Locate
import ScriptWeave.Proofs.FileTree.Locations

namespace ScriptWeave.FileTree

/-! ## 1. Trails -/

namespace Trail

/-- The location of the directory at the end of a trail. -/
def place (trail : Trail) : Location := (trail.map (·.1)).reverse

@[simp] theorem place_cons (e : String × FileTree) (trail : Trail) :
    place (e :: trail) = trail.place ++ [e.1] := by
  simp [place]

/-- The directories of the trail are those of the tree. -/
def Of (top : FileTree) : Trail → Prop
  | [] => True
  | (name, within) :: rest =>
    (holds top rest).find? name = some (.directory, within) ∧ Of top rest

variable {top : FileTree} {trail : Trail}

theorem of_nil (top : FileTree) : Of top [] := trivial

theorem Of.cons {name : String} {within : FileTree} (h : trail.Of top)
    (hfind : (trail.holds top).find? name = some (.directory, within)) :
    Of top ((name, within) :: trail) := ⟨hfind, h⟩

theorem Of.inside_eq (h : trail.Of top) : top.inside trail.place = trail.holds top := by
  induction trail with
  | nil => rfl
  | cons e trail ih =>
    obtain ⟨hfind, hof⟩ := h
    rw [place_cons, inside_append, ih hof, inside_cons, hfind]
    rfl

/-- The nodes of the directory at the end, as they are found in the tree. -/
theorem Of.node?_eq (h : trail.Of top) (name : String) :
    top.node? (trail.place ++ [name]) = ((trail.holds top).find? name).map (·.1) := by
  rw [node?_concat, h.inside_eq]

theorem Of.node?_place (h : trail.Of top) : top.node? trail.place = some .directory := by
  cases trail with
  | nil => rfl
  | cons e trail =>
    obtain ⟨hfind, hof⟩ := h
    rw [place_cons, Of.node?_eq hof, hfind]
    rfl

theorem Of.tail (h : trail.Of top) : Trail.Of top trail.tail := by
  cases trail with
  | nil => trivial
  | cons e trail => exact h.2

/-- Where the walk along the path in a link starts: at the top, or where the link is. -/
def atLink (trail : Trail) (target : String) : Trail :=
  if FilePath.isAbsolute target then [] else trail

theorem Of.atLink (h : trail.Of top) (target : String) : (trail.atLink target).Of top := by
  unfold Trail.atLink
  split
  · trivial
  · exact h

theorem place_atLink {other : Trail} (h : other.place = trail.place) (target : String) :
    (other.atLink target).place = (trail.atLink target).place := by
  unfold atLink
  split
  · rfl
  · exact h

theorem place_tail {other : Trail} (h : other.place = trail.place) :
    Trail.place other.tail = Trail.place trail.tail := by
  have hdrop := congrArg List.dropLast h
  simp only [place, List.dropLast_reverse, ← List.map_tail] at hdrop
  exact hdrop

end Trail

/-! ## 2. Steps -/

section Steps

variable {top : FileTree} {trail : Trail} {piece target : String} {rest : List String}
  {within : FileTree}

/-- A directory that is not at the end is gone into. -/
theorem follow_directory (h₁ : piece ≠ ".") (h₂ : piece ≠ "..")
    (hsize : piece.utf8ByteSize ≤ nameLimit)
    (hfind : (trail.holds top).find? piece = some (.directory, within)) (hrest : rest ≠ [])
    (last : LastLink) (links : Nat) (slash : Bool) :
    follow top last links trail (piece :: rest) slash
      = follow top last links ((piece, within) :: trail) rest slash := by
  rw [follow, if_neg h₁, if_neg h₂, if_neg (by omega), hfind]
  simp only [if_neg hrest]

/-- A link that is followed is replaced by the pieces of its path. -/
theorem follow_link (h₁ : piece ≠ ".") (h₂ : piece ≠ "..")
    (hsize : piece.utf8ByteSize ≤ nameLimit)
    (hfind : (trail.holds top).find? piece = some (.link target, within)) {last : LastLink}
    {slash : Bool} (hfollowed : rest = [] → last.follows slash = true) (links : Nat) :
    follow top last (links + 1) trail (piece :: rest) slash
      = follow top last links (trail.atLink target) (piecesOf target ++ rest)
          (slash || (rest = [] && endsInSlash target)) := by
  rw [follow, if_neg h₁, if_neg h₂, if_neg (by omega), hfind]
  exact if_neg fun hkept => by simp [hfollowed hkept.1] at hkept

/-- The last piece is not looked at, unless there is a link. -/
theorem follow_last (h₁ : piece ≠ ".") (h₂ : piece ≠ "..")
    (hlink : ∀ target within, (trail.holds top).find? piece ≠ some (.link target, within))
    (last : LastLink) (links : Nat) (slash : Bool) :
    follow top last links trail [piece] slash = .ok ⟨trail, some piece, slash⟩ := by
  rw [follow, if_neg h₁, if_neg h₂, if_neg (by simp)]
  split
  · rfl
  · rfl
  · rfl
  · rename_i target within hfind
    exact absurd hfind (hlink target within)

end Steps

/-! ## 3. Walks -/

/-- Walking along the pieces from the directory at the end of a trail, with so many links still
to follow, ends in a directory: that at the end of the other trail, with so many links left. -/
inductive Leads (top : FileTree) : Nat → Trail → List String → Nat → Trail → Prop
  | here {links : Nat} {trail : Trail} : Leads top links trail [] links trail
  | dot {links links' : Nat} {trail trail' : Trail} {rest : List String} :
      Leads top links trail rest links' trail' →
      Leads top links trail ("." :: rest) links' trail'
  | up {links links' : Nat} {trail trail' : Trail} {rest : List String} :
      Leads top links trail.tail rest links' trail' →
      Leads top links trail (".." :: rest) links' trail'
  | directory {links links' : Nat} {trail trail' : Trail} {piece : String} {rest : List String}
      {within : FileTree} :
      piece ≠ "." → piece ≠ ".." → piece.utf8ByteSize ≤ nameLimit →
      (trail.holds top).find? piece = some (.directory, within) →
      Leads top links ((piece, within) :: trail) rest links' trail' →
      Leads top links trail (piece :: rest) links' trail'
  | link {links links' : Nat} {trail trail' : Trail} {piece target : String}
      {rest : List String} {within : FileTree} :
      piece ≠ "." → piece ≠ ".." → piece.utf8ByteSize ≤ nameLimit →
      (trail.holds top).find? piece = some (.link target, within) →
      Leads top links (trail.atLink target) (piecesOf target ++ rest) links' trail' →
      Leads top (links + 1) trail (piece :: rest) links' trail'

namespace Leads

variable {top : FileTree} {links links' : Nat} {trail trail' : Trail} {pieces : List String}

theorem of (h : Leads top links trail pieces links' trail') (ht : trail.Of top) :
    trail'.Of top := by
  induction h with
  | here => exact ht
  | dot _ ih => exact ih ht
  | up _ ih => exact ih ht.tail
  | directory _ _ _ hfind _ ih => exact ih (ht.cons hfind)
  | link _ _ _ _ _ ih => exact ih (ht.atLink _)

/-- **Behind the pieces that lead to a directory the walk goes on from there.** -/
theorem follow_append (h : Leads top links trail pieces links' trail') (last : LastLink)
    {rest : List String} (hrest : rest ≠ []) (slash : Bool) :
    follow top last links trail (pieces ++ rest) slash
      = follow top last links' trail' rest slash := by
  induction h with
  | here => rfl
  | dot _ ih => rw [List.cons_append, follow, if_pos rfl, ih]
  | up _ ih => rw [List.cons_append, follow, if_neg (by decide), if_pos rfl, ih]
  | directory h₁ h₂ hsize hfind _ ih =>
    rw [List.cons_append, follow_directory h₁ h₂ hsize hfind (by simp [hrest]), ih]
  | link h₁ h₂ hsize hfind _ ih =>
    rw [List.cons_append, follow_link h₁ h₂ hsize hfind (by simp [hrest]), ← List.append_assoc]
    simpa [hrest] using ih

/-- Links at the end are followed: the walk leads to a directory. -/
theorem follow_followed (h : Leads top links trail pieces links' trail') (slash : Bool) :
    ∃ d, follow top .followed links trail pieces slash = .ok d ∧ d.place = trail'.place ∧
      d.node? top = .ok (some .directory) := by
  induction h generalizing slash with
  | @here _ trail =>
    exact ⟨⟨trail, none, slash⟩, by rw [follow], by simp [Destination.place, Trail.place], rfl⟩
  | dot _ ih => rw [follow, if_pos rfl]; exact ih slash
  | up _ ih => rw [follow, if_neg (by decide), if_pos rfl]; exact ih slash
  | @directory _ _ trail _ piece rest within h₁ h₂ hsize hfind hrest ih =>
    by_cases hr : rest = []
    · subst hr
      cases hrest
      refine ⟨⟨trail, some piece, slash⟩, follow_last h₁ h₂ (by simp [hfind]) .., ?_, ?_⟩
      · simp [Destination.place, Trail.place]
      · simp [Destination.node?, hfind, Nat.not_lt.mpr hsize]
    · rw [follow_directory h₁ h₂ hsize hfind hr]
      exact ih slash
  | link h₁ h₂ hsize hfind _ ih =>
    rw [follow_link h₁ h₂ hsize hfind fun _ => rfl]
    exact ih _

/-- Links at the end are kept: the walk leads to something that is there. -/
theorem follow_kept (h : Leads top links trail pieces links' trail') (slash : Bool) :
    ∃ d node, follow top .kept links trail pieces slash = .ok d ∧
      d.node? top = .ok (some node) := by
  induction h generalizing slash with
  | @here _ trail => exact ⟨⟨trail, none, slash⟩, .directory, by rw [follow], rfl⟩
  | dot _ ih => rw [follow, if_pos rfl]; exact ih slash
  | up _ ih => rw [follow, if_neg (by decide), if_pos rfl]; exact ih slash
  | @directory _ _ trail _ piece rest within h₁ h₂ hsize hfind hrest ih =>
    by_cases hr : rest = []
    · subst hr
      refine ⟨⟨trail, some piece, slash⟩, .directory, follow_last h₁ h₂ (by simp [hfind]) .., ?_⟩
      simp [Destination.node?, hfind, Nat.not_lt.mpr hsize]
    · rw [follow_directory h₁ h₂ hsize hfind hr]
      exact ih slash
  | @link _ _ trail _ piece target rest within h₁ h₂ hsize hfind _ ih =>
    by_cases hr : rest = []
    · subst hr
      rw [follow, if_neg h₁, if_neg h₂, if_neg (by omega), hfind]
      refine ⟨⟨trail, some piece, slash⟩, .link target, by simp [LastLink.follows], ?_⟩
      simp [Destination.node?, hfind, Nat.not_lt.mpr hsize]
    · rw [follow_link h₁ h₂ hsize hfind fun h => absurd h hr]
      exact ih _

end Leads

/-! ## 4. Dots -/

/-- The pieces without the dots among them. -/
def undot (pieces : List String) : List String := pieces.filter (· ≠ ".")

@[simp] theorem undot_append (pieces pieces' : List String) :
    undot (pieces ++ pieces') = undot pieces ++ undot pieces' := List.filter_append ..

@[simp] theorem undot_undot (pieces : List String) : undot (undot pieces) = undot pieces := by
  simp [undot]

theorem undot_cons_of_ne {piece : String} (h : piece ≠ ".") (rest : List String) :
    undot (piece :: rest) = piece :: undot rest := by
  simp [undot, h]

/-- The first piece that is no dot, with the dots before it. -/
theorem exists_of_undot_eq_cons {pieces : List String} {piece : String} {rest : List String}
    (h : undot pieces = piece :: rest) :
    ∃ dots behind, pieces = dots ++ piece :: behind ∧ (∀ d ∈ dots, d = ".") ∧
      undot behind = rest := by
  obtain ⟨dots, behind, heq, hdots, -, hrest⟩ := List.filter_eq_cons_iff.mp h
  exact ⟨dots, behind, heq, fun d hd => by simpa using hdots d hd, hrest⟩

namespace Leads

variable {top : FileTree} {links links' : Nat} {trail trail' : Trail}
  {pieces pieces' : List String}

/-- Dots in front make no difference. -/
theorem dots (h : Leads top links trail pieces links' trail') {front : List String}
    (hfront : ∀ d ∈ front, d = ".") : Leads top links trail (front ++ pieces) links' trail' := by
  induction front with
  | nil => exact h
  | cons d front ih =>
    rw [hfront d List.mem_cons_self]
    exact .dot (ih fun d hd => hfront d (List.mem_cons_of_mem _ hd))

/-- **A walk does not depend on the dots among its pieces.** -/
theorem of_undot (h : Leads top links trail pieces links' trail')
    (heq : undot pieces' = undot pieces) : Leads top links trail pieces' links' trail' := by
  induction h generalizing pieces' with
  | here =>
    have hdots : ∀ d ∈ pieces', d = "." := by
      simpa [undot] using heq
    simpa using here.dots hdots
  | dot _ ih => exact ih heq
  | up _ ih =>
    rw [undot_cons_of_ne (by decide)] at heq
    obtain ⟨dots, behind, rfl, hdots, hrest⟩ := exists_of_undot_eq_cons heq
    exact Leads.dots (.up (ih hrest)) hdots
  | directory h₁ h₂ hsize hfind _ ih =>
    rw [undot_cons_of_ne h₁] at heq
    obtain ⟨dots, behind, rfl, hdots, hrest⟩ := exists_of_undot_eq_cons heq
    exact Leads.dots (.directory h₁ h₂ hsize hfind (ih hrest)) hdots
  | link h₁ h₂ hsize hfind _ ih =>
    rw [undot_cons_of_ne h₁] at heq
    obtain ⟨dots, behind, rfl, hdots, hrest⟩ := exists_of_undot_eq_cons heq
    exact Leads.dots (.link h₁ h₂ hsize hfind (ih (by rw [undot_append, undot_append, hrest])))
      hdots

end Leads

/-! ## 5. Trees that keep their ways -/

/-- Every directory and every link of the one tree is in the other, too. -/
def KeepsWays (top tree : FileTree) : Prop :=
  ∀ place node, top.node? place = some node → (∀ content, node ≠ .file content) →
    tree.node? place = some node

section KeepsWays

variable {top tree : FileTree} {trail trail' : Trail}

theorem KeepsWays.refl (tree : FileTree) : KeepsWays tree tree := fun _ _ h _ => h

theorem KeepsWays.trans {later : FileTree} (h : KeepsWays top tree) (h' : KeepsWays tree later) :
    KeepsWays top later :=
  fun place node hnode hfile => h' place node (h place node hnode hfile) hfile

theorem exists_find?_of_keepsWays (h : KeepsWays top tree) {other : Trail} (ht : trail.Of top)
    (ho : other.Of tree) (hplace : other.place = trail.place) {name : String} {node : Node}
    {within : FileTree} (hfind : (trail.holds top).find? name = some (node, within))
    (hfile : ∀ content, node ≠ .file content) :
    ∃ within', (other.holds tree).find? name = some (node, within') := by
  have hnode := ht.node?_eq name
  rw [hfind] at hnode
  have hnode' := h _ _ hnode hfile
  rw [← hplace, ho.node?_eq] at hnode'
  obtain ⟨⟨node', within'⟩, hfind', rfl⟩ := Option.map_eq_some_iff.mp hnode'
  exact ⟨within', hfind'⟩

/-- **A walk stays possible while directories and links are kept.** -/
theorem Leads.of_keepsWays (h : KeepsWays top tree) {links links' : Nat} {pieces : List String}
    (hleads : Leads top links trail pieces links' trail') (ht : trail.Of top) {other : Trail}
    (ho : other.Of tree) (hplace : other.place = trail.place) :
    ∃ other', Leads tree links other pieces links' other' ∧ other'.place = trail'.place := by
  induction hleads generalizing other with
  | here => exact ⟨other, .here, hplace⟩
  | dot _ ih =>
    obtain ⟨other', hl, hp⟩ := ih ht ho hplace
    exact ⟨other', .dot hl, hp⟩
  | up _ ih =>
    obtain ⟨other', hl, hp⟩ := ih ht.tail ho.tail (Trail.place_tail hplace)
    exact ⟨other', .up hl, hp⟩
  | @directory _ _ _ _ piece _ _ h₁ h₂ hsize hfind _ ih =>
    obtain ⟨within, hfind'⟩ := exists_find?_of_keepsWays h ht ho hplace hfind nofun
    obtain ⟨other', hl, hp⟩ := ih (ht.cons hfind) (ho.cons hfind') (by simp [hplace])
    exact ⟨other', .directory h₁ h₂ hsize hfind' hl, hp⟩
  | @link _ _ _ _ _ target _ _ h₁ h₂ hsize hfind _ ih =>
    obtain ⟨within, hfind'⟩ := exists_find?_of_keepsWays h ht ho hplace hfind nofun
    obtain ⟨other', hl, hp⟩ := ih (ht.atLink target) (ho.atLink target)
      (Trail.place_atLink hplace target)
    exact ⟨other', .link h₁ h₂ hsize hfind' hl, hp⟩

end KeepsWays

/-- The path, all links on it followed, leads to the directory at a place.  So does the empty path,
to the directory where relative paths start. -/
def LeadsTo (tree : FileTree) (path : String) (place : Location) : Prop :=
  ∃ links trail, Leads tree linkLimit [] (piecesOf path) links trail ∧ trail.place = place

section LeadsTo

variable {top tree : FileTree} {path : String} {place : Location}

theorem LeadsTo.node?_place (h : tree.LeadsTo path place) : tree.node? place = some .directory := by
  obtain ⟨links, trail, hleads, rfl⟩ := h
  exact (hleads.of (Trail.of_nil tree)).node?_place

theorem LeadsTo.unique {other : Location} (h : tree.LeadsTo path place)
    (h' : tree.LeadsTo path other) : place = other := by
  obtain ⟨links, trail, hleads, rfl⟩ := h
  obtain ⟨links', trail', hleads', rfl⟩ := h'
  obtain ⟨d, hd, hplace, -⟩ := hleads.follow_followed false
  obtain ⟨d', hd', hplace', -⟩ := hleads'.follow_followed false
  obtain rfl := Except.ok.inj (hd.symm.trans hd')
  rw [← hplace, hplace']

theorem LeadsTo.of_keepsWays (hways : KeepsWays top tree) (h : top.LeadsTo path place) :
    tree.LeadsTo path place := by
  obtain ⟨links, trail, hleads, rfl⟩ := h
  obtain ⟨other, hother, hplace⟩ :=
    hleads.of_keepsWays hways (Trail.of_nil top) (Trail.of_nil tree) rfl
  exact ⟨links, other, hother, hplace⟩

end LeadsTo

/-! ## 6. Paths that lead to a directory -/

/-- The name of every link is short enough for an operation to come along it. -/
def ShortLinks (tree : FileTree) : Prop :=
  ∀ place name target, tree.node? (place ++ [name]) = some (.link target) →
    name.utf8ByteSize ≤ nameLimit

variable {top : FileTree}

/-- A walk with all links followed, if it ends at a directory. -/
theorem leads_of_follow (hshort : ShortLinks top) {links : Nat} {trail : Trail}
    {pieces : List String} {slash : Bool} {d : Destination} (ht : trail.Of top)
    (h : follow top .followed links trail pieces slash = .ok d)
    (hdir : d.node? top = .ok (some .directory)) :
    ∃ links' trail', Leads top links trail pieces links' trail' ∧ trail'.place = d.place := by
  fun_induction follow top .followed links trail pieces slash with
  | case1 links trail slash =>
    obtain rfl := Except.ok.inj h
    exact ⟨links, trail, .here, by simp [Destination.place, Trail.place]⟩
  | case2 links trail rest slash ih =>
    obtain ⟨links', trail', hl, hp⟩ := ih ht h
    exact ⟨links', trail', .dot hl, hp⟩
  | case3 links trail rest slash _ ih =>
    obtain ⟨links', trail', hl, hp⟩ := ih ht.tail h
    exact ⟨links', trail', .up hl, hp⟩
  | case4 => cases h
  | case5 links trail slash piece _ _ hfind _ =>
    -- nothing is there
    obtain rfl := Except.ok.inj h
    simp only [Destination.node?, hfind] at hdir
    split at hdir <;> cases hdir
  | case6 => cases h
  | case7 links trail slash piece _ _ content _ hfind _ =>
    -- a file is there
    obtain rfl := Except.ok.inj h
    simp only [Destination.node?, hfind] at hdir
    split at hdir <;> cases hdir
  | case8 => cases h
  | case9 links trail slash piece h₁ h₂ within hfind _ =>
    obtain rfl := Except.ok.inj h
    have hsize : piece.utf8ByteSize ≤ nameLimit := by
      by_cases hlt : nameLimit < piece.utf8ByteSize
      · simp only [Destination.node?, hlt, if_true] at hdir
        cases hdir
      · exact Nat.not_lt.mp hlt
    exact ⟨links, _, .directory h₁ h₂ hsize hfind .here, by simp [Destination.place, Trail.place]⟩
  | case10 links trail slash piece rest h₁ h₂ hsize within hfind hrest ih =>
    obtain ⟨links', trail', hl, hp⟩ := ih (ht.cons hfind) h
    have hsize : piece.utf8ByteSize ≤ nameLimit := Nat.not_lt.mp fun hlt => hsize ⟨hrest, hlt⟩
    exact ⟨links', trail', .directory h₁ h₂ hsize hfind hl, hp⟩
  | case11 links trail slash piece rest _ _ _ target _ _ hkept =>
    simp [LastLink.follows] at hkept
  | case12 => cases h
  | case13 trail slash piece rest h₁ h₂ _ target within hfind _ links _ _ ih =>
    obtain ⟨links', trail', hl, hp⟩ := ih (ht.atLink target) h
    have hsize : piece.utf8ByteSize ≤ nameLimit :=
      hshort trail.place piece target (by rw [ht.node?_eq, hfind]; rfl)
    exact ⟨links', trail', .link h₁ h₂ hsize hfind hl, hp⟩

/-- **What a walk comes along before its last pieces** leads to a directory. -/
theorem exists_leads_of_follow_append {last : LastLink} {links : Nat} {trail : Trail}
    {front rest : List String} {slash : Bool} {d : Destination} (hrest : rest ≠ [])
    (h : follow top last links trail (front ++ rest) slash = .ok d) :
    ∃ links' trail', Leads top links trail front links' trail' := by
  have hlast : ∀ {first piece : String} {front : List String},
      first :: front ++ rest ≠ [piece] := by
    intro first piece front heq
    exact hrest (List.append_eq_nil_iff.mp (List.cons.inj heq).2).2
  generalize hpieces : front ++ rest = pieces at h
  fun_induction follow top last links trail pieces slash generalizing front with
  | case1 => exact absurd (List.append_eq_nil_iff.mp hpieces).2 hrest
  | case2 links trail more slash ih =>
    cases front with
    | nil => exact ⟨_, _, .here⟩
    | cons first front =>
      obtain ⟨rfl, hmore⟩ := List.cons.inj hpieces
      obtain ⟨links', trail', hl⟩ := ih hmore h
      exact ⟨links', trail', .dot hl⟩
  | case3 links trail more slash _ ih =>
    cases front with
    | nil => exact ⟨_, _, .here⟩
    | cons first front =>
      obtain ⟨rfl, hmore⟩ := List.cons.inj hpieces
      obtain ⟨links', trail', hl⟩ := ih hmore h
      exact ⟨links', trail', .up hl⟩
  | case4 | case6 | case8 | case12 => cases h
  | case5 | case7 | case9 =>
    -- the last piece
    cases front with
    | nil => exact ⟨_, _, .here⟩
    | cons first front => exact absurd hpieces hlast
  | case10 links trail slash piece more h₁ h₂ hsize within hfind hmore ih =>
    cases front with
    | nil => exact ⟨_, _, .here⟩
    | cons first front =>
      obtain ⟨rfl, heq⟩ := List.cons.inj hpieces
      obtain ⟨links', trail', hl⟩ := ih heq h
      have hshort : first.utf8ByteSize ≤ nameLimit := Nat.not_lt.mp fun hlt => hsize ⟨hmore, hlt⟩
      exact ⟨links', trail', .directory h₁ h₂ hshort hfind hl⟩
  | case11 links trail slash piece more _ _ _ _ _ _ hkept =>
    cases front with
    | nil => exact ⟨_, _, .here⟩
    | cons first front => exact absurd (hpieces.trans (by rw [hkept.1])) hlast
  | case13 trail slash piece more h₁ h₂ hsize target within hfind _ links _ _ =>
    rename_i ih
    cases front with
    | nil => exact ⟨_, _, .here⟩
    | cons first front =>
      obtain ⟨rfl, heq⟩ := List.cons.inj hpieces
      have hmore : more ≠ [] := by
        rintro rfl
        exact hlast hpieces
      have hall : piecesOf target ++ front ++ rest = piecesOf target ++ more := by
        rw [← heq]
        exact List.append_assoc ..
      obtain ⟨links', trail', hl⟩ := ih hall h
      have hshort : first.utf8ByteSize ≤ nameLimit := Nat.not_lt.mp fun hlt => hsize ⟨hmore, hlt⟩
      exact ⟨links', trail', .link h₁ h₂ hshort hfind hl⟩

/-- The directories that a walk ends with are those of the tree. -/
theorem of_follow {last : LastLink} {links : Nat} {trail : Trail} {pieces : List String}
    {slash : Bool} {d : Destination} (ht : trail.Of top)
    (h : follow top last links trail pieces slash = .ok d) : d.trail.Of top := by
  fun_induction follow top last links trail pieces slash with
  | case1 | case5 | case7 | case9 | case11 =>
    obtain rfl := Except.ok.inj h
    exact ht
  | case2 _ _ _ _ ih => exact ih ht h
  | case3 _ _ _ _ _ ih => exact ih ht.tail h
  | case4 | case6 | case8 | case12 => cases h
  | case10 _ _ _ _ _ _ _ _ _ hfind _ ih => exact ih (ht.cons hfind) h
  | case13 _ _ _ _ _ _ _ target _ _ _ _ _ _ ih => exact ih (ht.atLink target) h

/-- A path that is walked along at all. -/
structure Passable (path : String) : Prop where
  plain : '\x00' ∉ path.toList
  nonempty : path ≠ ""
  short : path.utf8ByteSize ≤ pathLimit

instance (path : String) : Decidable (Passable path) :=
  decidable_of_iff ('\x00' ∉ path.toList ∧ path ≠ "" ∧ path.utf8ByteSize ≤ pathLimit)
    ⟨fun ⟨hplain, hne, hshort⟩ => ⟨hplain, hne, hshort⟩,
      fun h => ⟨h.plain, h.nonempty, h.short⟩⟩

theorem reach_of_passable (tree : FileTree) (last : LastLink) {path : String}
    (h : Passable path) : tree.reach last path
      = tree.follow last linkLimit [] (piecesOf path) (endsInSlash path) := by
  have hplain := h.plain
  have hshort := h.short
  rw [reach, if_neg (by simpa using hplain), if_neg (by simpa using h.nonempty),
    if_neg (by omega)]

/-- No other path is. -/
theorem passable_of_reach {tree : FileTree} {last : LastLink} {path : String} {d : Destination}
    (h : tree.reach last path = .ok d) : Passable path := by
  rw [reach] at h
  split at h
  · cases h
  · rename_i hplain
    split at h
    · cases h
    · rename_i hne
      split at h
      · cases h
      · rename_i hshort
        exact ⟨by simpa using hplain, by simpa using hne, Nat.not_lt.mp hshort⟩

/-- A path along which something is missing is walked along, unless it is empty. -/
theorem passable_of_notFound {tree : FileTree} {last : LastLink} {path : String}
    (h : tree.reach last path = .error .notFound) (hne : path ≠ "") : Passable path := by
  rw [reach, if_neg (show ¬ path.isEmpty = true by simpa using hne)] at h
  split at h
  · cases h
  · rename_i hplain
    split at h
    · cases h
    · rename_i hshort
      exact ⟨by simpa using hplain, hne, Nat.not_lt.mp hshort⟩

/-- The directories on a walk along a path are those of the tree. -/
theorem of_reach {tree : FileTree} {last : LastLink} {path : String} {d : Destination}
    (h : tree.reach last path = .ok d) : d.trail.Of tree := by
  rw [reach_of_passable tree last (passable_of_reach h)] at h
  exact of_follow (Trail.of_nil tree) h

theorem Destination.place_of_name? {d : Destination} {name : String} (hname : d.name? = some name) :
    d.place = d.trail.place ++ [name] := by
  rw [Destination.place, hname]
  rfl

/-- The name at the end of a walk is short enough, if what is there can be told. -/
theorem Destination.short_of_node? {top : FileTree} {d : Destination} {node : Option Node}
    {name : String}
    (hnode : d.node? top = .ok node) (hname : d.name? = some name) :
    name.utf8ByteSize ≤ nameLimit := by
  rw [Destination.node?, hname] at hnode
  simp only at hnode
  split at hnode
  · cases hnode
  · rename_i hsize
    exact Nat.not_lt.mp hsize

/-- What is found at the end of a walk is the node there. -/
theorem node?_place_of_node? {tree : FileTree} {d : Destination} {node : Option Node}
    (ht : d.trail.Of tree) (hnode : d.node? tree = .ok node) : tree.node? d.place = node := by
  rw [Destination.node?] at hnode
  rw [Destination.place]
  cases hname : d.name? with
  | none =>
    rw [hname] at hnode
    rw [← Except.ok.inj hnode]
    simpa [Trail.place] using ht.node?_place
  | some name =>
    rw [hname] at hnode
    simp only at hnode
    split at hnode
    · cases hnode
    · rw [← Except.ok.inj hnode]
      exact ht.node?_eq name

/-- At the end of a walk a node may be missing, but is not sought in vain. -/
theorem node?_ne_notFound (top : FileTree) (d : Destination) :
    d.node? top ≠ .error .notFound := by
  rw [Destination.node?]
  split
  · nofun
  · split <;> nofun

/-- What a path leads to, all links followed, is what the walk along it ends at; a slash behind the
path asks for a directory. -/
theorem lookUp_eq_ok_iff {tree : FileTree} {path : String} {place : Location} {node : Node} :
    tree.lookUp path = .ok (place, node) ↔
      ∃ d, tree.reach .followed path = .ok d ∧ d.node? tree = .ok (some node) ∧
        (d.slash = true → node = .directory) ∧ d.place = place := by
  rw [lookUp]
  cases tree.reach .followed path with
  | error e => simp [bind, Except.bind]
  | ok d =>
    cases hd : d.node? tree with
    | error e => simp [bind, Except.bind, hd]
    | ok found =>
      cases found with
      | none => simp [bind, Except.bind, hd]
      | some found =>
        simp only [bind, Except.bind, hd, Except.ok.injEq, exists_eq_left', Option.some.injEq]
        by_cases hbad : d.slash = true ∧ found ≠ .directory
        · rw [if_pos hbad]
          simp only [reduceCtorEq, false_iff, not_and]
          rintro rfl hslash
          exact absurd (hslash hbad.1) hbad.2
        · rw [if_neg hbad]
          simp only [Except.ok.injEq, Prod.mk.injEq]
          constructor
          · rintro ⟨rfl, rfl⟩
            exact ⟨rfl, fun hslash => Decidable.not_not.mp fun hdir => hbad ⟨hslash, hdir⟩, rfl⟩
          · rintro ⟨rfl, -, rfl⟩
            exact ⟨rfl, rfl⟩

/-- A path leads to a directory exactly when the walk along it, all links followed, ends at one. -/
theorem lookUp_eq_ok_directory_iff {tree : FileTree} {path : String} {place : Location} :
    tree.lookUp path = .ok (place, .directory) ↔
      ∃ d, tree.reach .followed path = .ok d ∧ d.node? tree = .ok (some .directory) ∧
        d.place = place := by
  simp [lookUp_eq_ok_iff]

/-- **A path that leads to a directory** is a walk that leads there. -/
theorem leadsTo_of_lookUp (hshort : ShortLinks top) {path : String} {place : Location}
    (h : top.lookUp path = .ok (place, .directory)) : top.LeadsTo path place := by
  obtain ⟨d, hreach, hdir, rfl⟩ := lookUp_eq_ok_directory_iff.mp h
  rw [reach_of_passable _ _ (passable_of_reach hreach)] at hreach
  exact leads_of_follow hshort trivial hreach hdir

end ScriptWeave.FileTree
