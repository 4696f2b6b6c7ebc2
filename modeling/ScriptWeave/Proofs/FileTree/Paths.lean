/-
# The paths of the files below a directory

A file's path is the directory's path with the file's name behind it, and the paths of the
directories above the file are made from that by `parent?`, which takes a path apart into components
and puts all but the last one together again.  The text changes on the way (`p//d/./a/b` has the
parent `p/d/a`), but not where it leads: dots and repeated slashes are all that is lost.

`IsBelow` says what all these paths have in common: the pieces of a name stand at the end,
and before them stand the pieces of the directory, except for dots.

**Stated here.**  The path of a named file is of that kind (`isBelow_join`), and so is the parent of
such a path (`IsBelow.parent`).
-/
import ScriptWeave.FileTree.Operations
import ScriptWeave.Proofs.FileTree.Walking
import ScriptWeave.Proofs.Text.Splitting

namespace ScriptWeave

/-- A text with fewer characters has no more bytes. -/
theorem utf8ByteSize_le_of_sublist {s t : List Char} (h : s.Sublist t) :
    (String.ofList s).utf8ByteSize ≤ (String.ofList t).utf8ByteSize := by
  induction h with
  | slnil => exact Nat.le_refl _
  | cons c _ ih =>
    rw [String.ofList_cons, String.utf8ByteSize_append]
    omega
  | cons_cons c _ ih =>
    rw [String.ofList_cons, String.ofList_cons, String.utf8ByteSize_append,
      String.utf8ByteSize_append]
    omega

namespace FilePath

/-! ## 1. Components -/

/-- What a path begins with, besides its pieces. -/
def frontOf (path : List Char) : List Component :=
  match path with
  | '/' :: _ => [.root]
  | _ => if (path.splitOn '/').head? = some ['.'] then [.here] else []

theorem components_eq (path : List Char) :
    components path = frontOf path ++ (path.splitOn '/').filterMap componentOf := rfl

theorem frontOf_of_ne {c : Char} {path : List Char} (h : c ≠ '/') :
    frontOf (c :: path)
      = if ((c :: path).splitOn '/').head? = some ['.'] then [.here] else [] := by
  unfold frontOf
  split
  · rename_i heq
    exact absurd (List.cons.inj heq).1 h
  · rfl

/-- A component that a piece of a path stands for. -/
def Component.IsStep (c : Component) : Prop :=
  componentOf c.text.toList = some c ∧ '/' ∉ c.text.toList

instance (c : Component) : Decidable c.IsStep :=
  inferInstanceAs (Decidable (componentOf c.text.toList = some c ∧ '/' ∉ c.text.toList))

theorem text_of_componentOf {piece : List Char} {c : Component}
    (h : componentOf piece = some c) : c.text.toList = piece := by
  rw [componentOf] at h
  split at h
  · cases h
  · split at h
    · rename_i hup
      obtain rfl := Option.some.inj h
      rw [hup]
      rfl
    · obtain rfl := Option.some.inj h
      exact String.toList_ofList

theorem Component.IsStep.ne_nil {c : Component} (h : c.IsStep) : c.text.toList ≠ [] := by
  intro heq
  have hc := h.1
  rw [heq] at hc
  cases hc

theorem isStep_of_mem {path : List Char} {c : Component}
    (h : c ∈ (path.splitOn '/').filterMap componentOf) : c.IsStep := by
  obtain ⟨piece, hpiece, hc⟩ := List.mem_filterMap.mp h
  rw [Component.IsStep, text_of_componentOf hc]
  exact ⟨hc, notMem_of_mem_splitOn hpiece⟩

theorem filterMap_texts {steps : List Component} (h : ∀ c ∈ steps, c.IsStep) :
    (steps.map (·.text.toList)).filterMap componentOf = steps := by
  induction steps with
  | nil => rfl
  | cons c steps ih =>
    rw [List.map_cons, List.filterMap_cons_some (h c List.mem_cons_self).1,
      ih fun d hd => h d (List.mem_cons_of_mem _ hd)]

/-- The texts of steps, joined and split again. -/
theorem filterMap_splitOn_intercalate {steps : List Component} (h : ∀ c ∈ steps, c.IsStep) :
    ((['/'].intercalate (steps.map (·.text.toList))).splitOn '/').filterMap componentOf
      = steps := by
  by_cases hne : steps = []
  · subst hne
    rfl
  · rw [List.splitOn_intercalate '/' (List.forall_mem_map.mpr fun c hc => (h c hc).2)
      (by simpa using hne), filterMap_texts h]

/-- Only the empty path has no components. -/
theorem components_ne_nil {path : List Char} (h : path ≠ []) : components path ≠ [] := by
  rw [components_eq]
  cases path with
  | nil => exact absurd rfl h
  | cons c path =>
    by_cases hc : c = '/'
    · subst hc
      simp [frontOf]
    · obtain ⟨head, rest, hsplit⟩ := List.exists_cons_of_ne_nil (List.splitOn_ne_nil '/' path)
      have hpieces : (c :: path).splitOn '/' = (c :: head) :: rest := by
        rw [List.splitOn_cons_eq_if_modifyHead, if_neg (by simpa using hc), hsplit]
        rfl
      by_cases hdot : c :: head = ['.']
      · rw [frontOf_of_ne hc, hpieces, hdot]
        simp
      · have hsome : (componentOf (c :: head)).isSome = true := by
          simp only [componentOf, hdot, reduceCtorEq, or_false, if_false]
          split <;> rfl
        obtain ⟨d, hd⟩ := Option.isSome_iff_exists.mp hsome
        rw [hpieces, List.filterMap_cons_some hd]
        simp

/-! ## 2. Components put together -/

/-- The path of some components. -/
def render : List Component → List Char
  | .root :: names => '/' :: ['/'].intercalate (names.map (·.text.toList))
  | names => ['/'].intercalate (names.map (·.text.toList))

/-- What can stand before the steps of a path. -/
def IsFront (front : List Component) : Prop := front = [] ∨ front = [.root] ∨ front = [.here]

theorem isFront_frontOf (path : List Char) : IsFront (frontOf path) := by
  unfold frontOf IsFront
  split
  · simp
  · split <;> simp

theorem Component.IsStep.ne_root {c : Component} (h : c.IsStep) : c ≠ .root := by
  rintro rfl
  exact h.2 (by decide)

section Render

variable {front steps : List Component}

theorem render_steps (h : ∀ c ∈ steps, c.IsStep) :
    render steps = ['/'].intercalate (steps.map (·.text.toList)) := by
  cases steps with
  | nil => rfl
  | cons c steps =>
    unfold render
    split
    · rename_i heq
      exact absurd (List.cons.inj heq).1 (h c List.mem_cons_self).ne_root
    · rfl

/-- The pieces of a path that is put together. -/
theorem splitOn_render (hfront : IsFront front) (h : ∀ c ∈ steps, c.IsStep) :
    ∃ dots, ((render (front ++ steps)).splitOn '/').filter (fun t => !t.isEmpty)
        = dots ++ steps.map (·.text.toList) ∧ ∀ d ∈ dots, d = ['.'] := by
  have htexts : ∀ t ∈ steps.map (·.text.toList), '/' ∉ t ∧ t ≠ [] := by
    simpa using fun c hc => ⟨(h c hc).2, by simpa using (h c hc).ne_nil⟩
  rcases hfront with rfl | rfl | rfl
  · refine ⟨[], ?_, by simp⟩
    rw [List.nil_append, render_steps h, splitOn_intercalate_filter htexts, List.nil_append]
  · refine ⟨[], ?_, by simp⟩
    have hroot : (render ([.root] ++ steps)).splitOn '/'
        = [] :: (['/'].intercalate (steps.map (·.text.toList))).splitOn '/' :=
      List.splitOn_append_cons_self [] _
    rw [hroot, List.filter_cons_of_neg (by simp), splitOn_intercalate_filter htexts,
      List.nil_append]
  · refine ⟨[['.']], ?_, by simp⟩
    have hhere : render ([.here] ++ steps)
        = ['/'].intercalate (['.'] :: steps.map (·.text.toList)) := rfl
    rw [hhere, splitOn_intercalate_filter, List.singleton_append]
    intro t ht
    rcases List.mem_cons.mp ht with rfl | ht
    · exact ⟨by decide, by decide⟩
    · exact htexts t ht

/-- **The components come back from the path that is put together from them.** -/
theorem components_render (hfront : IsFront front) (h : ∀ c ∈ steps, c.IsStep) :
    components (render (front ++ steps)) = front ++ steps := by
  rw [components_eq]
  rcases hfront with rfl | rfl | rfl
  · rw [List.nil_append, render_steps h, filterMap_splitOn_intercalate h]
    suffices hf : frontOf (['/'].intercalate (steps.map (·.text.toList))) = [] by
      rw [hf, List.nil_append]
    cases steps with
    | nil => rfl
    | cons c steps =>
      have hc := h c List.mem_cons_self
      obtain ⟨d, text, htext⟩ := List.exists_cons_of_ne_nil hc.ne_nil
      have hsplit : (['/'].intercalate ((c :: steps).map (·.text.toList))).splitOn '/'
          = (c :: steps).map (·.text.toList) :=
        List.splitOn_intercalate '/' (List.forall_mem_map.mpr fun c hc => (h c hc).2) (by simp)
      have hslash : d ≠ '/' := by
        rintro rfl
        exact hc.2 (htext ▸ List.mem_cons_self)
      rw [List.map_cons] at hsplit ⊢
      rw [htext, List.intercalate_cons_cons_left, frontOf_of_ne hslash,
        ← List.intercalate_cons_cons_left, ← htext, hsplit, if_neg]
      intro heq
      have hdot : c.text.toList = ['.'] := by simpa using heq
      have hnone := hc.1
      rw [hdot] at hnone
      cases hnone
  · have hroot : render ([.root] ++ steps)
        = '/' :: ['/'].intercalate (steps.map (·.text.toList)) := rfl
    have hsplit := List.splitOn_append_cons_self (a := '/') []
      (['/'].intercalate (steps.map (·.text.toList)))
    rw [hroot, ← List.nil_append ('/' :: _), hsplit, List.filterMap_append,
      filterMap_splitOn_intercalate h]
    rfl
  · have hhere : render ([.here] ++ steps)
        = '.' :: ['/'].intercalate ([] :: steps.map (·.text.toList)) :=
      List.intercalate_cons_cons_left
    have hsplit : ('.' :: ['/'].intercalate ([] :: steps.map (·.text.toList))).splitOn '/'
        = ['.'] :: steps.map (·.text.toList) := by
      rw [← List.intercalate_cons_cons_left]
      refine List.splitOn_intercalate '/' (fun t ht => ?_) (by simp)
      rcases List.mem_cons.mp ht with rfl | ht
      · decide
      · obtain ⟨c, hc, rfl⟩ := List.mem_map.mp ht
        exact (h c hc).2
    have hf : frontOf ('.' :: ['/'].intercalate ([] :: steps.map (·.text.toList))) = [.here] := by
      simp only [frontOf, hsplit]
      rfl
    rw [hhere, hf, hsplit, List.filterMap_cons_none (by decide), filterMap_texts h]

end Render

/-! ## 3. Names -/

/-- A name of a file below a directory, with nothing superfluous: no piece of it is empty, a dot or
two dots. -/
def IsNormal (name : String) : Prop :=
  ∀ piece ∈ name.toList.splitOn '/', piece ≠ [] ∧ piece ≠ ['.'] ∧ piece ≠ ['.', '.']

instance (name : String) : Decidable (IsNormal name) :=
  inferInstanceAs (Decidable (∀ piece ∈ _, _))

theorem IsNormal.isStep {name : String} (h : IsNormal name) {piece : List Char}
    (hp : piece ∈ name.toList.splitOn '/') : (Component.name (String.ofList piece)).IsStep := by
  obtain ⟨hne, hdot, hdots⟩ := h piece hp
  have htext : (Component.name (String.ofList piece)).text.toList = piece := String.toList_ofList
  refine ⟨?_, ?_⟩
  · rw [htext]
    simp [componentOf, hne, hdot, hdots]
  · rw [htext]
    exact notMem_of_mem_splitOn hp

/-- Text without slashes makes the last piece of a name longer. -/
theorem exists_splitOn_append (name : String) {more : String} (hslash : '/' ∉ more.toList) :
    ∃ pieces last, name.toList.splitOn '/' = pieces ++ [last] ∧
      (name ++ more).toList.splitOn '/' = pieces ++ [last ++ more.toList] := by
  obtain ⟨pieces, last, hsplit⟩ := List.eq_nil_or_concat (name.toList.splitOn '/') |>.resolve_left
    (List.splitOn_ne_nil _ _)
  rw [List.concat_eq_append] at hsplit
  refine ⟨pieces, last, hsplit, ?_⟩
  have hjoin : ['/'].intercalate (name.toList.splitOn '/') = name.toList :=
    List.intercalate_splitOn '/'
  rw [String.toList_append, ← hjoin, hsplit, intercalate_append]
  refine List.splitOn_intercalate '/' (fun p hp => ?_) (by simp)
  have hold : ∀ q ∈ pieces ++ [last], '/' ∉ q := fun q hq =>
    notMem_of_mem_splitOn (hsplit ▸ hq)
  rcases List.mem_append.mp hp with hp | hp
  · exact hold p (List.mem_append_left _ hp)
  · rw [List.mem_singleton.mp hp, List.mem_append, not_or]
    exact ⟨hold last (by simp), hslash⟩

/-- A name with a longer last piece. -/
theorem IsNormal.append {name more : String} (h : IsNormal name) (hslash : '/' ∉ more.toList)
    (hlen : 2 ≤ more.length) : IsNormal (name ++ more) := by
  obtain ⟨pieces, last, hsplit, hname⟩ := exists_splitOn_append name hslash
  intro p hp
  rw [hname] at hp
  rcases List.mem_append.mp hp with hp | hp
  · exact h p (hsplit ▸ List.mem_append_left _ hp)
  · obtain ⟨hne, -, -⟩ := h last (by rw [hsplit]; simp)
    have hlast : 0 < last.length := List.length_pos_iff.mpr hne
    have hmore : 2 ≤ more.toList.length := by rwa [String.length_toList]
    rw [List.mem_singleton.mp hp]
    refine ⟨fun heq => ?_, fun heq => ?_, fun heq => ?_⟩ <;>
    · have hl := congrArg List.length heq
      simp only [List.length_append, List.length_cons, List.length_nil] at hl
      omega

end FilePath

namespace FileTree

open FilePath

/-! ## 4. Pieces -/

theorem piecesOf_eq (path : String) : piecesOf path
    = ((path.toList.splitOn '/').filter (fun t => !t.isEmpty)).map String.ofList := by
  rw [piecesOf]
  congr 2
  funext t
  cases t <;> rfl

/-- A path has no more pieces than characters. -/
theorem length_piecesOf_le (path : String) : (piecesOf path).length ≤ path.length := by
  have hsub := intercalate_sublist ['/']
    (List.filter_sublist (p := fun t : List Char => !t.isEmpty) (l := path.toList.splitOn '/'))
  rw [List.intercalate_splitOn] at hsub
  rw [piecesOf_eq, List.length_map, ← String.length_toList]
  refine Nat.le_trans (length_le_length_intercalate ['/'] fun t ht => ?_) hsub.length_le
  simpa using (List.mem_filter.mp ht).2

/-- The pieces of a path, without its dots, are the texts of its steps. -/
theorem undot_piecesOf (path : String) : undot (piecesOf path)
    = ((path.toList.splitOn '/').filterMap componentOf).map (·.text) := by
  rw [piecesOf_eq]
  induction path.toList.splitOn '/' with
  | nil => rfl
  | cons piece pieces ih =>
    by_cases hempty : piece = []
    · subst hempty
      exact ih
    · rw [List.filter_cons_of_pos (by simpa using hempty), List.map_cons]
      by_cases hdot : piece = ['.']
      · subst hdot
        exact ih
      · rw [undot_cons_of_ne, ih]
        · have hstep : componentOf piece = some .up ∧ piece = ['.', '.'] ∨
              componentOf piece = some (.name (String.ofList piece)) := by
            by_cases hup : piece = ['.', '.']
            · exact Or.inl ⟨by rw [hup]; rfl, hup⟩
            · exact Or.inr (by simp [componentOf, hempty, hdot, hup])
          rcases hstep with ⟨hc, hup⟩ | hc
          · rw [List.filterMap_cons_some hc, List.map_cons, hup]
            rfl
          · rw [List.filterMap_cons_some hc, List.map_cons]
            rfl
        · intro heq
          have hlist := congrArg String.toList heq
          rw [String.toList_ofList] at hlist
          exact hdot hlist

/-- The pieces of a normal name are what stands between its slashes. -/
theorem piecesOf_of_isNormal {name : String} (h : IsNormal name) :
    piecesOf name = (name.toList.splitOn '/').map String.ofList := by
  rw [piecesOf_eq, List.filter_eq_self.mpr]
  intro p hp
  simpa using (h p hp).1

theorem piecesOf_ne_nil {name : String} (h : IsNormal name) : piecesOf name ≠ [] := by
  rw [piecesOf_of_isNormal h]
  simp [List.splitOn_ne_nil]

/-- Every piece of a normal name is a step of a path. -/
theorem isStep_of_mem_piecesOf {name piece : String} (h : IsNormal name)
    (hp : piece ∈ piecesOf name) : (Component.name piece).IsStep := by
  rw [piecesOf_of_isNormal h] at hp
  obtain ⟨text, htext, rfl⟩ := List.mem_map.mp hp
  exact h.isStep htext

/-- A step of a path is neither a dot nor two dots. -/
theorem ne_dot_of_isStep {piece : String} (h : (Component.name piece).IsStep) :
    piece ≠ "." ∧ piece ≠ ".." := by
  refine ⟨?_, ?_⟩ <;>
  · rintro rfl
    have hc := h.1
    cases hc

/-- A normal name is known by its pieces. -/
theorem piecesOf_injective {name other : String} (h : IsNormal name) (h' : IsNormal other)
    (heq : piecesOf name = piecesOf other) : name = other := by
  rw [piecesOf_of_isNormal h, piecesOf_of_isNormal h'] at heq
  have hsplit := (List.map_inj_right fun _ _ => String.ofList_injective).mp heq
  have hjoin := congrArg (['/'].intercalate ·) hsplit
  simp only [List.intercalate_splitOn] at hjoin
  exact String.toList_injective hjoin

/-! ## 5. Paths below a directory -/

/-- A path below a directory: it is the directory's path, but for what makes no difference, with
some names behind it. -/
structure IsBelow (dir path : String) (names : List String) : Prop where
  components : components path.toList = components dir.toList ++ names.map .name
  pieces : ∃ front, piecesOf path = front ++ names ∧ undot front = undot (piecesOf dir)

/-- A normal name does not begin with a slash. -/
theorem exists_cons_of_isNormal {name : String} (h : IsNormal name) :
    ∃ c rest, name.toList = c :: rest ∧ c ≠ '/' := by
  cases hname : name.toList with
  | nil => exact absurd rfl (h [] (by simp [hname])).1
  | cons c rest =>
    refine ⟨c, rest, rfl, ?_⟩
    rintro rfl
    have hsplit : name.toList.splitOn '/' = [] :: rest.splitOn '/' := by
      rw [hname]
      exact List.splitOn_append_cons_self [] rest
    exact (h [] (by rw [hsplit]; exact List.mem_cons_self)).1 rfl

/-- A path that goes on behind a slash. -/
theorem exists_of_join {dir name : String} (hdir : dir ≠ "") (h : IsNormal name) :
    ∃ front, (FilePath.join dir name).toList = front ++ '/' :: name.toList ∧
      (dir.toList = front ∧ front ≠ [] ∨ dir.toList = front ++ ['/']) := by
  have hrelative : FilePath.isAbsolute name = false := by
    obtain ⟨c, rest, hname, hc⟩ := exists_cons_of_isNormal h
    rw [FilePath.isAbsolute, hname]
    simpa using hc
  rw [FilePath.join, if_neg (by simp [hrelative]), if_neg hdir]
  split
  · rename_i hlast
    obtain ⟨front, hfront⟩ := List.getLast?_eq_some_iff.mp hlast
    exact ⟨front, by rw [String.toList_append, hfront]; simp, Or.inr hfront⟩
  · refine ⟨dir.toList, ?_, Or.inl ⟨rfl, by simpa using hdir⟩⟩
    rw [String.toList_append, String.toList_append]
    exact List.append_assoc ..

/-- Behind the empty path there is only the name. -/
theorem join_empty (name : String) : FilePath.join "" name = name := by
  rw [FilePath.join, if_pos rfl, ite_self]

theorem frontOf_append (front more : List Char) :
    frontOf (front ++ '/' :: more) = if front = [] then [.root] else frontOf front := by
  cases front with
  | nil => rfl
  | cons c front =>
    rw [if_neg (List.cons_ne_nil c front)]
    by_cases hc : c = '/'
    · rw [hc]
      rfl
    · obtain ⟨head, rest, hsplit⟩ :=
        List.exists_cons_of_ne_nil (List.splitOn_ne_nil '/' (c :: front))
      rw [frontOf_of_ne hc, List.cons_append, frontOf_of_ne hc, ← List.cons_append,
        List.splitOn_append_cons_self, hsplit]
      rfl

theorem filterMap_splitOn_of_isNormal {name : String} (h : IsNormal name) :
    (name.toList.splitOn '/').filterMap componentOf = (piecesOf name).map .name := by
  rw [piecesOf_of_isNormal h, List.map_map]
  have hall : ∀ pieces : List (List Char), (∀ p ∈ pieces, p ∈ name.toList.splitOn '/') →
      pieces.filterMap componentOf = pieces.map (Component.name ∘ String.ofList) := by
    intro pieces
    induction pieces with
    | nil => intro _; rfl
    | cons p pieces ih =>
      intro hp
      have hstep := (h.isStep (hp p List.mem_cons_self)).1
      have htext : (Component.name (String.ofList p)).text.toList = p := String.toList_ofList
      rw [htext] at hstep
      rw [List.filterMap_cons_some hstep, List.map_cons,
        ih fun q hq => hp q (List.mem_cons_of_mem _ hq)]
      rfl
  exact hall _ fun _ hp => hp

/-- What a normal name means is its pieces. -/
theorem components_of_isNormal {name : String} (h : IsNormal name) :
    components name.toList = (piecesOf name).map .name := by
  obtain ⟨c, rest, hname, hc⟩ := exists_cons_of_isNormal h
  have hhead : (name.toList.splitOn '/').head? ≠ some ['.'] := fun heq =>
    (h ['.'] (List.mem_of_mem_head? heq)).2.1 rfl
  have hfront : frontOf name.toList = [] := by
    rw [hname] at hhead ⊢
    rw [frontOf_of_ne hc, if_neg hhead]
  rw [components_eq, hfront, List.nil_append, filterMap_splitOn_of_isNormal h]

/-- **What the path of a named file means**: the directory's components, and the name's. -/
theorem components_join (dir : String) {name : String} (h : IsNormal name) :
    components (FilePath.join dir name).toList
      = components dir.toList ++ (piecesOf name).map .name := by
  by_cases hdir : dir = ""
  · subst hdir
    rw [join_empty, components_of_isNormal h]
    rfl
  · obtain ⟨front, hjoin, hfront⟩ := exists_of_join hdir h
    rw [components_eq, components_eq, hjoin, frontOf_append, List.splitOn_append_cons_self,
      List.filterMap_append, filterMap_splitOn_of_isNormal h, ← List.append_assoc]
    rcases hfront with ⟨hd, hne⟩ | hd
    · rw [if_neg hne, hd]
    · rw [hd, frontOf_append, List.splitOn_append_cons_self, List.filterMap_append]
      simp [componentOf]

/-- The pieces of the path of a named file. -/
theorem piecesOf_join (dir : String) {name : String} (h : IsNormal name) :
    piecesOf (FilePath.join dir name) = piecesOf dir ++ piecesOf name := by
  by_cases hdir : dir = ""
  · subst hdir
    rw [join_empty]
    rfl
  · obtain ⟨front, hjoin, hfront⟩ := exists_of_join hdir h
    have hdirPieces : piecesOf dir
        = ((front.splitOn '/').filter (fun t => !t.isEmpty)).map String.ofList := by
      rcases hfront with ⟨hd, -⟩ | hd
      · rw [piecesOf_eq, hd]
      · rw [piecesOf_eq, hd, List.splitOn_append_cons_self]
        simp
    rw [piecesOf_eq, hjoin, List.splitOn_append_cons_self, List.filter_append, List.map_append,
      ← piecesOf_eq name, hdirPieces]

/-- **The path of a named file is below the directory.** -/
theorem isBelow_join (dir : String) {name : String} (h : IsNormal name) :
    IsBelow dir (FilePath.join dir name) (piecesOf name) where
  components := components_join dir h
  pieces := ⟨piecesOf dir, piecesOf_join dir h, rfl⟩

/-- The path of a named file is not empty. -/
theorem join_ne_empty (dir : String) {name : String} (h : IsNormal name) :
    FilePath.join dir name ≠ "" := by
  intro heq
  have hpieces := piecesOf_join dir h
  rw [heq] at hpieces
  have hnil : piecesOf dir ++ piecesOf name = [] := hpieces.symm
  exact piecesOf_ne_nil h (List.append_eq_nil_iff.mp hnil).2

/-- A normal name does not end in a slash. -/
theorem getLast?_ne_of_isNormal {name : String} (h : IsNormal name) :
    name.toList.getLast? ≠ some '/' := by
  intro hlast
  obtain ⟨before, hbefore⟩ := List.getLast?_eq_some_iff.mp hlast
  refine (h [] ?_).1 rfl
  rw [hbefore, List.splitOn_append_cons_self]
  simp

/-- The path of a named file does not end in a slash. -/
theorem endsInSlash_join (dir : String) {name : String} (h : IsNormal name) :
    endsInSlash (FilePath.join dir name) = false := by
  obtain ⟨c, rest, hname, -⟩ := exists_cons_of_isNormal h
  have hlast := getLast?_ne_of_isNormal h
  rw [endsInSlash, decide_eq_false_iff_not]
  by_cases hdir : dir = ""
  · rwa [hdir, join_empty]
  · obtain ⟨front, hjoin, -⟩ := exists_of_join hdir h
    have htail : (front ++ '/' :: name.toList).getLast? = name.toList.getLast? := by
      simp [hname, List.getLast?_append, List.getLast?_cons]
    rwa [hjoin, htail]

/-! ## 6. The parent of a path -/

theorem parent?_of_components {path : String} {front : List Component} {last : Component}
    (h : components path.toList = front ++ [last]) (hlast : last ≠ .root) :
    parent? path = some (String.ofList (render front)) := by
  have hrev : (components path.toList).reverse = last :: front.reverse := by simp [h]
  rw [parent?, hrev]
  cases last with
  | root => exact absurd rfl hlast
  | here | up | name text =>
    simp only [List.reverse_reverse]
    cases front with
    | nil => rfl
    | cons c names =>
      cases c <;>
      · refine congrArg some (String.toList_injective ?_)
        simp [render, String.toList_append, String.toList_intercalate, Function.comp_def]

theorem texts_sublist (pieces : List (List Char)) :
    ((pieces.filterMap componentOf).map (·.text.toList)).Sublist pieces := by
  induction pieces with
  | nil => exact List.Sublist.refl _
  | cons p pieces ih =>
    cases hc : componentOf p with
    | none =>
      rw [List.filterMap_cons_none hc]
      exact ih.cons p
    | some c =>
      rw [List.filterMap_cons_some hc, List.map_cons, text_of_componentOf hc]
      exact ih.cons_cons p

/-- The text of a path that is put together again is a part of the path's text. -/
theorem render_components_sublist (path : List Char) : (render (components path)).Sublist path := by
  have hjoin : ['/'].intercalate (path.splitOn '/') = path := List.intercalate_splitOn '/'
  have hsteps : ∀ c ∈ (path.splitOn '/').filterMap componentOf, c.IsStep := fun _ => isStep_of_mem
  rw [components_eq]
  cases path with
  | nil => exact List.nil_sublist _
  | cons c path =>
    by_cases hc : c = '/'
    · subst hc
      have hsplit : ('/' :: path).splitOn '/' = [] :: path.splitOn '/' :=
        List.splitOn_append_cons_self [] path
      rw [hsplit, List.filterMap_cons_none rfl]
      refine List.Sublist.cons_cons '/' ?_
      have htexts := intercalate_sublist ['/'] (texts_sublist (path.splitOn '/'))
      rwa [List.intercalate_splitOn] at htexts
    · rw [frontOf_of_ne hc]
      split
      · rename_i hdot
        obtain ⟨head, rest, hsplit⟩ :=
          List.exists_cons_of_ne_nil (List.splitOn_ne_nil '/' (c :: path))
        obtain rfl : head = ['.'] := by simpa [hsplit] using hdot
        rw [hsplit] at hjoin ⊢
        conv => rhs; rw [← hjoin]
        exact intercalate_sublist ['/'] ((texts_sublist rest).cons_cons ['.'])
      · rw [List.nil_append, render_steps hsteps]
        conv => rhs; rw [← hjoin]
        exact intercalate_sublist ['/'] (texts_sublist _)

theorem render_sublist_append (front more : List Component) :
    (render front).Sublist (render (front ++ more)) := by
  have htexts : ∀ names : List Component, (['/'].intercalate (names.map (·.text.toList))).Sublist
      (['/'].intercalate ((names ++ more).map (·.text.toList))) := fun names =>
    intercalate_sublist ['/'] ((List.sublist_append_left names more).map _)
  cases front with
  | nil => exact List.nil_sublist _
  | cons c names =>
    cases c with
    | root => exact (htexts names).cons_cons '/'
    | here => exact htexts (.here :: names)
    | up => exact htexts (.up :: names)
    | name text => exact htexts (.name text :: names)

/-- The pieces of a path that is put together from steps with names behind them. -/
theorem piecesOf_render {front steps : List Component} {names : List String}
    (hfront : IsFront front) (h : ∀ c ∈ steps ++ names.map .name, c.IsStep) :
    ∃ before, piecesOf (String.ofList (render (front ++ (steps ++ names.map .name))))
        = before ++ names ∧ undot before = undot (steps.map (·.text)) := by
  obtain ⟨dots, hdots, hall⟩ := splitOn_render hfront h
  refine ⟨dots.map String.ofList ++ steps.map (·.text), ?_, ?_⟩
  · rw [piecesOf_eq, String.toList_ofList, hdots]
    simp [Function.comp_def, Component.text]
  · rw [undot_append, List.append_left_eq_self, undot, List.filter_eq_nil_iff]
    intro p hp
    obtain ⟨d, hd, rfl⟩ := List.mem_map.mp hp
    rw [hall d hd]
    decide

/-- The parent of a path has no other names than the path. -/
theorem mem_piecesOf_of_parent? {path parent piece : String} (h : parent? path = some parent)
    (hdot : piece ≠ ".") (hp : piece ∈ piecesOf parent) : piece ∈ piecesOf path := by
  have hsteps : ∀ c ∈ (path.toList.splitOn '/').filterMap componentOf, c.IsStep :=
    fun _ => isStep_of_mem
  have hpath := components_eq path.toList
  suffices hmem : piece ∈ undot (piecesOf path) from (List.mem_filter.mp hmem).1
  rw [undot_piecesOf]
  rcases List.eq_nil_or_concat ((path.toList.splitOn '/').filterMap componentOf) with
    hnil | ⟨steps, last, hrow⟩
  · -- nothing but the front of a path
    rw [hnil, List.append_nil] at hpath
    rcases isFront_frontOf path.toList with hfront | hfront | hfront
    · simp [parent?, hpath, hfront] at h
    · simp [parent?, hpath, hfront] at h
    · rw [hfront] at hpath
      rw [parent?_of_components (hpath.trans (List.nil_append _).symm) nofun] at h
      obtain rfl := Option.some.inj h
      cases hp
  · rw [List.concat_eq_append] at hrow
    rw [hrow] at hpath hsteps ⊢
    rw [← List.append_assoc] at hpath
    rw [parent?_of_components hpath (hsteps last (by simp)).ne_root] at h
    obtain rfl := Option.some.inj h
    obtain ⟨before, hpieces, hundot⟩ := @piecesOf_render _ steps [] (isFront_frontOf path.toList)
      fun c hc => hsteps c (by simpa using Or.inl hc)
    rw [List.map_nil, List.append_nil, List.append_nil] at hpieces
    have hbefore : piece ∈ undot before :=
      List.mem_filter.mpr ⟨hpieces ▸ hp, by simpa using hdot⟩
    rw [hundot] at hbefore
    rw [List.map_append]
    exact List.mem_append_left _ (List.mem_filter.mp hbefore).1

/-- Below a directory that has a path there is no empty path. -/
theorem IsBelow.ne_empty {dir path : String} {names : List String} (hdir : dir ≠ "")
    (h : IsBelow dir path names) : path ≠ "" := by
  rintro rfl
  have hcomp : FilePath.components dir.toList ++ names.map .name = [] := h.components.symm
  exact components_ne_nil (by simpa using hdir) (List.append_eq_nil_iff.mp hcomp).1

/-- **The parent of a path below a directory** is below it, too, and its text is a part of the
path's. -/
theorem IsBelow.parent {dir path : String} {names : List String} {name : String}
    (h : IsBelow dir path (names ++ [name])) (hnames : ∀ n ∈ names, (Component.name n).IsStep) :
    ∃ parent, parent? path = some parent ∧ IsBelow dir parent names ∧
      parent.toList.Sublist path.toList := by
  have hcomp := h.components
  rw [List.map_append, List.map_singleton, ← List.append_assoc] at hcomp
  -- the components of the parent: the front of the directory's, and steps
  have hsteps : ∀ c ∈ (dir.toList.splitOn '/').filterMap componentOf ++ names.map .name,
      c.IsStep := by
    intro c hc
    rcases List.mem_append.mp hc with hc | hc
    · exact isStep_of_mem hc
    · obtain ⟨n, hn, rfl⟩ := List.mem_map.mp hc
      exact hnames n hn
  have hrow : FilePath.components dir.toList ++ names.map .name = frontOf dir.toList ++
      ((dir.toList.splitOn '/').filterMap componentOf ++ names.map .name) := by
    rw [components_eq, List.append_assoc]
  refine ⟨_, parent?_of_components hcomp nofun, ⟨?_, ?_⟩, ?_⟩
  · rw [String.toList_ofList, hrow, components_render (isFront_frontOf dir.toList) hsteps]
  · obtain ⟨before, hpieces, hundot⟩ := piecesOf_render (isFront_frontOf dir.toList) hsteps
    refine ⟨before, by rw [hrow, hpieces], ?_⟩
    rw [hundot, ← undot_piecesOf, undot_undot]
  · have hpath := render_components_sublist path.toList
    rw [hcomp] at hpath
    rw [String.toList_ofList]
    exact (render_sublist_append _ _).trans hpath

/-- A part of a path can be walked along, if there is anything of it. -/
theorem Passable.of_sublist {path part : String} (h : Passable path)
    (hsub : part.toList.Sublist path.toList) (hne : part ≠ "") : Passable part where
  plain := fun hm => h.plain (hsub.subset hm)
  nonempty := hne
  short := by
    have hbytes := utf8ByteSize_le_of_sublist hsub
    rw [String.ofList_toList, String.ofList_toList] at hbytes
    exact Nat.le_trans hbytes h.short

end FileTree
end ScriptWeave
