/-
# The names of files in a change set

A file of the project has a name in the change set: its components below the root, with slashes
between them.  Not every row of components makes a name that leads back to the file.  A component
`..` would lead out of the project, and the component of an absolute path would make an empty piece.
The scope knows neither of these.  What it looks at are hidden components, those that start with a
dot, and `..` is one of them; and a path that is below a root has its own front in the root, so that
only steps are left.

**Stated here.**  The name of a path in the scope is a row of pieces, none empty and none with a dot
in front, that leads from the root to the path (`name_of_inScope`), and so it is the name of this
path only (`components_eq_of_inScope`).  The change set of a set of paths therefore holds every file
of the scope on one side, under removed or under updated, and no name on both
(`sorts_of_changesOf`).  There is one unless a path obstructs it (`exists_changesOf_ok_iff`).
-/
import Mathlib.Data.List.Pairwise
import ScriptWeave.Proofs.Project.Walk

namespace ScriptWeave

namespace FilePath

/-! ## 1. Names without dots in front -/

/-- No piece of the name is empty, and none begins with a dot. -/
def IsVisible (name : String) : Prop :=
  ∀ piece ∈ name.toList.splitOn '/', piece ≠ [] ∧ piece.head? ≠ some '.'

instance (name : String) : Decidable (IsVisible name) :=
  inferInstanceAs (Decidable (∀ piece ∈ _, _))

/-- In particular no piece is a dot or two dots. -/
theorem IsVisible.isNormal {name : String} (h : IsVisible name) : IsNormal name := by
  intro piece hpiece
  obtain ⟨hne, hdot⟩ := h piece hpiece
  refine ⟨hne, ?_, ?_⟩
  · rintro rfl
    exact hdot rfl
  · rintro rfl
    exact hdot rfl

/-- A name with a longer last piece. -/
theorem IsVisible.append {name more : String} (h : IsVisible name) (hslash : '/' ∉ more.toList) :
    IsVisible (name ++ more) := by
  obtain ⟨pieces, last, hsplit, hname⟩ := exists_splitOn_append name hslash
  intro p hp
  rw [hname] at hp
  rcases List.mem_append.mp hp with hp | hp
  · exact h p (hsplit ▸ List.mem_append_left _ hp)
  · obtain ⟨hne, hdot⟩ := h last (by rw [hsplit]; simp)
    rw [List.mem_singleton.mp hp]
    refine ⟨by simp [hne], ?_⟩
    rwa [List.head?_append_of_ne_nil _ hne]

/-- None of its pieces is hidden. -/
theorem IsVisible.head?_ne {name piece : String} (h : IsVisible name)
    (hp : piece ∈ FileTree.piecesOf name) : piece.toList.head? ≠ some '.' := by
  rw [FileTree.piecesOf_of_isNormal h.isNormal] at hp
  obtain ⟨text, htext, rfl⟩ := List.mem_map.mp hp
  rw [String.toList_ofList]
  exact (h text htext).2

/-- Steps that are not hidden make such a name. -/
theorem isVisible_intercalate {steps : List Component} (hne : steps ≠ [])
    (hsteps : ∀ c ∈ steps, c.IsStep) (hhidden : ∀ c ∈ steps, ProjectScope.isHidden c = false) :
    IsVisible (String.intercalate "/" (steps.map (·.text))) := by
  have hsplit : (String.intercalate "/" (steps.map (·.text))).toList.splitOn '/'
      = steps.map (·.text.toList) := by
    rw [String.toList_intercalate, List.map_map]
    exact List.splitOn_intercalate '/' (List.forall_mem_map.mpr fun c hc => (hsteps c hc).2)
      (by simpa using hne)
  intro piece hpiece
  rw [hsplit] at hpiece
  obtain ⟨c, hc, rfl⟩ := List.mem_map.mp hpiece
  exact ⟨(hsteps c hc).ne_nil, of_decide_eq_false (hhidden c hc)⟩

/-- Behind the first component of a path there are steps only. -/
theorem isStep_of_components_append {text : List Char} {front parts : List Component}
    (h : components text = front ++ parts) (hfront : front ≠ []) : ∀ c ∈ parts, c.IsStep := by
  obtain ⟨first, rest, rfl⟩ := List.exists_cons_of_ne_nil hfront
  rw [components_eq] at h
  intro c hc
  rcases isFront_frontOf text with hnil | hroot | hhere
  · rw [hnil, List.nil_append] at h
    exact isStep_of_mem (h ▸ List.mem_append_right _ hc)
  · rw [hroot] at h
    have hrest : (text.splitOn '/').filterMap componentOf = rest ++ parts := (List.cons.inj h).2
    exact isStep_of_mem (hrest ▸ List.mem_append_right _ hc)
  · rw [hhere] at h
    have hrest : (text.splitOn '/').filterMap componentOf = rest ++ parts := (List.cons.inj h).2
    exact isStep_of_mem (hrest ▸ List.mem_append_right _ hc)

end FilePath

namespace ProjectScope

open FilePath FileTree

variable {scope : ProjectScope} {tree : FileTree} {path key : String}

/-! ## 2. The name of a path in the scope -/

/-- The scope keeps the path, and this is its name. -/
structure InScope (scope : ProjectScope) (path key : String) : Prop where
  kept : scope.excludes path = false
  key : scope.key? path = some key

/-- **The name of a path in the scope** is visible, and leads from the root to the path. -/
theorem name_of_inScope (hroot : scope.root ≠ "") (h : scope.InScope path key) :
    IsVisible key ∧ components path.toList
      = components scope.root.toList ++ (piecesOf key).map .name := by
  obtain ⟨parts, hne, hparts, rfl⟩ := key?_eq_some_iff.mp h.key
  obtain ⟨-, hhidden, -⟩ := kept_of_excludes_eq_false h.kept (relative?_eq_some_iff.mpr hparts)
  have hfront : components scope.root.toList ≠ [] := components_ne_nil (by simpa using hroot)
  have hsteps : ∀ c ∈ parts, c.IsStep := isStep_of_components_append hparts hfront
  have hvisible := isVisible_intercalate hne hsteps hhidden
  refine ⟨hvisible, ?_⟩
  rw [hparts, ← filterMap_splitOn_of_isNormal hvisible.isNormal, String.toList_intercalate,
    List.map_map]
  exact congrArg _ (filterMap_splitOn_intercalate hsteps).symm

/-- The root with the name behind it is the path again. -/
theorem components_join_root (hroot : scope.root ≠ "") (h : scope.InScope path key) :
    components (join scope.root key).toList = components path.toList := by
  obtain ⟨hvisible, hpath⟩ := name_of_inScope hroot h
  rw [hpath]
  exact components_join scope.root hvisible.isNormal

/-- **Two paths in the scope that have one name are one path.** -/
theorem components_eq_of_inScope {other : String} (hroot : scope.root ≠ "")
    (h : scope.InScope path key) (hother : scope.InScope other key) :
    components path.toList = components other.toList := by
  rw [← components_join_root hroot h]
  exact components_join_root hroot hother

/-! ## 3. What becomes of one path -/

/-- The path is in the scope, under this name, and leads to no file and no directory. -/
structure Gone (scope : ProjectScope) (tree : FileTree) (path key : String) : Prop extends
    scope.InScope path key where
  notDirectory : tree.isDirectory path = false
  notFile : tree.isFile path = false

/-- The path is in the scope, under this name, and leads to a file with these bytes. -/
structure Found (scope : ProjectScope) (tree : FileTree) (path key : String)
    (content : ByteArray) : Prop extends scope.InScope path key where
  read : tree.read path = .ok content

/-- There is no change set with this path: it is no directory, and the scope gives no answer about
it, or it is in the scope and leads to a file that cannot be read. -/
structure Obstructs (scope : ProjectScope) (tree : FileTree) (path : String) : Prop where
  notDirectory : tree.isDirectory path = false
  unanswered : scope.excludes? path = none ∨
    ∃ key, scope.InScope path key ∧ tree.isFile path = true ∧
      ∀ content, tree.read path ≠ .ok content

section Reports

variable {content : ByteArray} {changes changes' : Changes}

theorem Found.isFile (h : scope.Found tree path key content) : tree.isFile path = true :=
  isFile_eq_true_iff.mpr ⟨content, read_eq_ok_iff.mp h.read⟩

theorem Found.notDirectory (h : scope.Found tree path key content) :
    tree.isDirectory path = false := by
  have hnode := read_eq_ok_iff.mp h.read
  simp [isDirectory, hnode]

theorem Found.not_gone {other : String} (h : scope.Found tree path key content) :
    ¬ scope.Gone tree path other := by
  intro hgone
  exact absurd (h.isFile.symm.trans hgone.notFile) (by decide)

/-- A path has one name. -/
theorem InScope.unique {other : String} (h : scope.InScope path key)
    (hother : scope.InScope path other) : other = key :=
  Option.some.inj (hother.key.symm.trans h.key)

theorem Found.found_iff {other : String} {bytes : ByteArray}
    (h : scope.Found tree path key content) :
    scope.Found tree path other bytes ↔ other = key ∧ bytes = content := by
  constructor
  · intro hother
    exact ⟨h.toInScope.unique hother.toInScope, Except.ok.inj (hother.read.symm.trans h.read)⟩
  · rintro ⟨rfl, rfl⟩
    exact h

theorem Gone.gone_iff {other : String} (h : scope.Gone tree path key) :
    scope.Gone tree path other ↔ other = key := by
  constructor
  · intro hother
    exact h.toInScope.unique hother.toInScope
  · rintro rfl
    exact h

/-- A path in the scope that is no directory and obstructs nothing is that of a file, or gone. -/
theorem found_or_gone (h : scope.InScope path key) (hdir : tree.isDirectory path = false)
    (hclear : ¬ scope.Obstructs tree path) :
    (∃ content, scope.Found tree path key content) ∨ scope.Gone tree path key := by
  cases hfile : tree.isFile path with
  | true =>
    by_cases hread : ∃ content, tree.read path = .ok content
    · obtain ⟨content, hread⟩ := hread
      exact Or.inl ⟨content, h, hread⟩
    · exact absurd ⟨hdir, Or.inr ⟨key, h, hfile, not_exists.mp hread⟩⟩ hclear
  | false => exact Or.inr ⟨h, hdir, hfile⟩

theorem addChange_of_found (h : scope.Found tree path key content) (changes : Changes) :
    scope.addChange tree changes path
      = .ok { changes with updated := changes.updated.insert key content } := by
  simp [addChange, h.notDirectory, excludes_eq_false_iff.mp h.kept, h.key, h.isFile, h.read]

theorem addChange_of_gone (h : scope.Gone tree path key) (changes : Changes) :
    scope.addChange tree changes path
      = .ok { changes with removed := changes.removed.insert key () } := by
  simp [addChange, h.notDirectory, excludes_eq_false_iff.mp h.kept, h.key, h.notFile]

/-- A path that obstructs a change set ends in an error. -/
theorem addChange_ne_ok (h : scope.Obstructs tree path) :
    scope.addChange tree changes path ≠ .ok changes' := by
  rcases h.unanswered with hnone | ⟨key, hscope, hfile, hread⟩
  · simp [addChange, h.notDirectory, hnone]
  · simp only [addChange, h.notDirectory, excludes_eq_false_iff.mp hscope.kept, hscope.key, hfile,
      Bool.false_eq_true, if_false, if_true]
    cases hcontent : tree.read path with
    | ok content => exact absurd hcontent (hread content)
    | error cause => simp

/-- A path that is a directory or not in the scope changes nothing. -/
theorem addChange_of_not_inScope (hclear : ¬ scope.Obstructs tree path)
    (h : ∀ key, scope.InScope path key → tree.isDirectory path = true) (changes : Changes) :
    scope.addChange tree changes path = .ok changes := by
  rw [addChange]
  split
  · rfl
  rename_i hdir
  split
  · rename_i hnone
    exact absurd ⟨Bool.not_eq_true _ ▸ hdir, Or.inl hnone⟩ hclear
  · rfl
  · rename_i hkept
    cases hkey : scope.key? path with
    | none => rfl
    | some key => exact absurd (h key ⟨excludes_eq_false_iff.mpr hkept, hkey⟩) hdir

/-- **A path is added to a change set** unless it obstructs it. -/
theorem exists_addChange_iff (changes : Changes) :
    (∃ changes', scope.addChange tree changes path = .ok changes') ↔
      ¬ scope.Obstructs tree path := by
  constructor
  · rintro ⟨changes', hadd⟩ h
    exact addChange_ne_ok h hadd
  · intro hclear
    by_cases hscope : ∃ key, scope.InScope path key ∧ tree.isDirectory path = false
    · obtain ⟨key, hkey, hdir⟩ := hscope
      rcases found_or_gone hkey hdir hclear with ⟨content, hfound⟩ | hgone
      · exact ⟨_, addChange_of_found hfound changes⟩
      · exact ⟨_, addChange_of_gone hgone changes⟩
    · refine ⟨changes, addChange_of_not_inScope hclear (fun key hkey => ?_) changes⟩
      by_contra hdir
      exact hscope ⟨key, hkey, Bool.not_eq_true _ ▸ hdir⟩

/-- **What one path adds** to a change set: its name to the removed files or, with the bytes that
are there, to the updated ones. -/
theorem addChange_spec (h : scope.addChange tree changes path = .ok changes') :
    (∀ key, changes'.removed.contains key = true ↔
        changes.removed.contains key = true ∨ scope.Gone tree path key) ∧
      ∀ key content, changes'.updated.get? key = some content ↔
        scope.Found tree path key content ∨
          (∀ c, ¬ scope.Found tree path key c) ∧ changes.updated.get? key = some content := by
  have hclear := (exists_addChange_iff changes).mp ⟨changes', h⟩
  by_cases hscope : ∃ key, scope.InScope path key ∧ tree.isDirectory path = false
  · obtain ⟨key, hkey, hdir⟩ := hscope
    rcases found_or_gone hkey hdir hclear with ⟨bytes, hfound⟩ | hgone
    · obtain rfl := Except.ok.inj ((addChange_of_found hfound changes).symm.trans h)
      refine ⟨fun k => ?_, fun k c => ?_⟩
      · rw [or_iff_left hfound.not_gone]
      · rw [SortedMap.get?_insert]
        by_cases hk : k = key
        · simp [hfound.found_iff, hk, eq_comm (a := c)]
        · simp [hfound.found_iff, hk]
    · obtain rfl := Except.ok.inj ((addChange_of_gone hgone changes).symm.trans h)
      refine ⟨fun k => ?_, fun k c => ?_⟩
      · rw [hgone.gone_iff, SortedMap.contains_insert]
        exact or_comm
      · have hnotFound : ∀ c, ¬ scope.Found tree path k c := fun _ hfound => hfound.not_gone hgone
        simp [hnotFound]
  · have hdir : ∀ key, scope.InScope path key → tree.isDirectory path = true := by
      intro key hkey
      by_contra hdir
      exact hscope ⟨key, hkey, Bool.not_eq_true _ ▸ hdir⟩
    obtain rfl := Except.ok.inj ((addChange_of_not_inScope hclear hdir changes).symm.trans h)
    refine ⟨fun k => ?_, fun k c => ?_⟩
    · rw [or_iff_left]
      intro hgone
      exact hscope ⟨k, hgone.toInScope, hgone.notDirectory⟩
    · have hnotFound : ∀ c, ¬ scope.Found tree path k c := by
        intro c hfound
        exact hscope ⟨k, hfound.toInScope, hfound.notDirectory⟩
      simp [hnotFound]

end Reports

/-! ## 4. What becomes of a set of paths -/

/-- The paths of a set: no two of them have the same components. -/
def AreDistinct (paths : List String) : Prop :=
  paths.Pairwise fun path other => components path.toList ≠ components other.toList

instance (paths : List String) : Decidable (AreDistinct paths) :=
  inferInstanceAs (Decidable (paths.Pairwise _))

/-- The change set has the files of some paths on the one side or the other. -/
structure Sorts (scope : ProjectScope) (tree : FileTree) (paths : List String)
    (changes : Changes) : Prop where
  removed : ∀ key, changes.removed.contains key = true ↔
    ∃ path ∈ paths, scope.Gone tree path key
  updated : ∀ key content, changes.updated.get? key = some content ↔
    ∃ path ∈ paths, scope.Found tree path key content

/-- One more path, that is none of the others. -/
theorem Sorts.concat (hroot : scope.root ≠ "") {paths : List String} {changes changes' : Changes}
    (h : scope.Sorts tree paths changes)
    (hadd : scope.addChange tree changes path = .ok changes')
    (hnew : ∀ other ∈ paths, components other.toList ≠ components path.toList) :
    scope.Sorts tree (paths ++ [path]) changes' := by
  obtain ⟨hremoved, hupdated⟩ := addChange_spec hadd
  refine ⟨fun key => ?_, fun key content => ?_⟩
  · rw [hremoved, h.removed]
    simp [or_and_right, exists_or]
  · rw [hupdated, h.updated]
    constructor
    · rintro (hfound | ⟨-, other, hother, hfound⟩)
      · exact ⟨path, by simp, hfound⟩
      · exact ⟨other, by simp [hother], hfound⟩
    · rintro ⟨other, hother, hfound⟩
      rcases List.mem_append.mp hother with hother | hlast
      · -- the new path does not have this name: it would be the other one
        refine Or.inr ⟨fun c hc => hnew other hother ?_, other, hother, hfound⟩
        exact components_eq_of_inScope hroot hfound.toInScope hc.toInScope
      · rw [List.mem_singleton.mp hlast] at hfound
        exact Or.inl hfound

/-- Some more paths, with the sorted ones a set. -/
theorem Sorts.foldlM (hroot : scope.root ≠ "") {done rest : List String}
    {before changes : Changes} (hdone : scope.Sorts tree done before)
    (hset : AreDistinct (done ++ rest))
    (h : rest.foldlM (scope.addChange tree) before = .ok changes) :
    scope.Sorts tree (done ++ rest) changes := by
  induction rest generalizing done before with
  | nil =>
    obtain rfl := Except.ok.inj h
    rwa [List.append_nil]
  | cons path rest ih =>
    have hnew : ∀ other ∈ done, components other.toList ≠ components path.toList := by
      intro other hother
      exact (List.pairwise_append.mp hset).2.2 other hother path List.mem_cons_self
    rw [List.foldlM_cons] at h
    cases hadd : scope.addChange tree before path with
    | error e =>
      rw [hadd] at h
      cases h
    | ok after =>
      rw [hadd] at h
      rw [List.append_cons] at hset ⊢
      exact ih (hdone.concat hroot hadd hnew) hset h

section Sorts

variable {paths : List String} {changes : Changes}

/-- The names of the change set are visible. -/
theorem Sorts.isVisible (hroot : scope.root ≠ "") (h : scope.Sorts tree paths changes)
    (hkey : changes.removed.contains key = true ∨
      ∃ content, changes.updated.get? key = some content) : IsVisible key := by
  rcases hkey with hremoved | ⟨content, hupdated⟩
  · obtain ⟨path, -, hgone⟩ := (h.removed key).mp hremoved
    exact (name_of_inScope hroot hgone.toInScope).1
  · obtain ⟨path, -, hfound⟩ := (h.updated key content).mp hupdated
    exact (name_of_inScope hroot hfound.toInScope).1

end Sorts

end ProjectScope
end ScriptWeave
