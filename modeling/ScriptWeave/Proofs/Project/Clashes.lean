/-
# How a batch can clash with the project before it

A batch knows nothing of the files it does not visit, and a source map has no entry of its own in
a change set.  So under one name the result of a file, the source map of another and a tombstone
can get into each other's way, and then the batch does not leave what a full build of the changed
project has there.  `Clash` lists all ways in which this happens.

Everything here is about one name.  `old` is the file under this name before the batch is written,
`new` the file afterwards, and `Artifacts.Carries` says how the one comes from the other.

**Stated here.**  If the old file is what the project comes to, the new one is what the changed
project comes to if there is no clash (`shows_of_not_clash`), and only then
(`not_shows_of_clash`).
-/
import ScriptWeave.Proofs.Batch.Project
import ScriptWeave.Proofs.Project.Writing

namespace ScriptWeave.Builder

/-! ## 1. Clashes -/

/-- **How a change set clashes with a project**: under the name `k` it does not leave what a full
build of the changed project has there. -/
inductive Clash (builder : Builder) (args : Option OptionLayer) (project : Project)
    (changes : Changes) (k : String) : Prop
  /-- The result of a file is lost to the source map of a changed script. -/
  | overwritten {f : String} {map : Json} {content : ByteArray} :
      project.get? k = some content → changes.Spares k →
      builder.MapIn args changes.visited f map → sourceMapName f = k →
      ¬ builder.Delivers args ⟨k, content, []⟩ map.indented.toUTF8 →
      Clash builder args project changes k
  /-- The result of a file is deleted with a removed file, as if it were its source map. -/
  | deleted {f : String} {content : ByteArray} :
      project.get? k = some content → changes.Spares k →
      changes.removed.contains f = true → sourceMapName f = k →
      (∀ g map, builder.MapIn args changes.visited g map → sourceMapName g ≠ f) →
      Clash builder args project changes k
  /-- The source map of a script is deleted with a removed file of its name. -/
  | uncovered {f : String} {map : Json} :
      changes.removed.contains k = true → sourceMapName f = k → changes.Spares f →
      builder.MapIn args project f map → Clash builder args project changes k
  /-- The source map of a changed script stays, although the script has none any more. -/
  | outdated {f : String} {map : Json} {content : ByteArray} :
      project.get? k = none → changes.Spares k → sourceMapName f = k →
      builder.MapIn args project f map → changes.visited.get? f = some content →
      (∀ map, ¬ builder.MapIn args changes.visited f map) → Clash builder args project changes k
  /-- The source map of a removed script stays, since the script's tombstone was lost to the source
  map of a changed one. -/
  | abandoned {f g : String} {map map' : Json} :
      project.get? k = none → changes.Spares k → sourceMapName f = k →
      builder.MapIn args project f map → changes.removed.contains f = true →
      builder.MapIn args changes.visited g map' → sourceMapName g = f →
      Clash builder args project changes k

/-! ## 2. One name, before and after a batch -/

section Step

variable {builder : Builder} {args : Option OptionLayer} {project : Project} {changes : Changes}
  {k : String}

/-- The source maps in the project after a change set. -/
theorem mapIn_applyTo_iff {f : String} {map : Json} :
    builder.MapIn args (changes.applyTo project) f map ↔
      builder.MapIn args changes.visited f map ∨
        changes.Spares f ∧ builder.MapIn args project f map := by
  simp only [MapIn, Changes.get?_applyTo_eq_some_iff]
  constructor
  · rintro ⟨content, hv | ⟨hs, hp⟩, hm⟩
    · exact Or.inl ⟨content, hv, hm⟩
    · exact Or.inr ⟨hs, content, hp, hm⟩
  · rintro (⟨content, hv, hm⟩ | ⟨hs, content, hp, hm⟩)
    · exact ⟨content, Or.inl hv, hm⟩
    · exact ⟨content, Or.inr ⟨hs, hp⟩, hm⟩

theorem not_mapIn_visited_of_removed {f : String} (hr : changes.removed.contains f = true)
    (map : Json) : ¬ builder.MapIn args changes.visited f map := by
  rintro ⟨content, hv, -⟩
  rw [Changes.get?_visited_of_removed hr] at hv
  cases hv

theorem not_mapIn_visited_of_spares {f : String} (hs : changes.Spares f)
    (map : Json) : ¬ builder.MapIn args changes.visited f map := by
  rintro ⟨content, hv, -⟩
  rw [hs.2] at hv
  cases hv

/-- A removed file is not spared. -/
theorem not_spares_of_removed (hr : changes.removed.contains k = true) : ¬ changes.Spares k := by
  intro hs
  rw [hs.1] at hr
  cases hr

/-- Only the script of that name can have made a source map. -/
theorem forall_mapIn_ne {files : Project} {f : String}
    (h : ∀ map, ¬ builder.MapIn args files f map) (g : String) (map : Json)
    (hm : builder.MapIn args files g map) : sourceMapName g ≠ sourceMapName f := by
  intro heq
  rw [sourceMapName_injective heq] at hm
  exact h map hm

variable (hpure : builder.compiler.Memoryless)
  (hok : (builder.run changes ∅ args []).failure = none)

include hpure hok

/-- A name that is spared has no entry unless a source map of this name is made. -/
theorem output_of_spares (hs : changes.Spares k)
    (hno : ∀ f map, builder.MapIn args changes.visited f map → sourceMapName f ≠ k) :
    (builder.run changes ∅ args []).output.get? k = none := by
  rcases output_cases hpure hok k with ⟨content, bytes, hv, -⟩ | ⟨-, f, map, hm, heq, -⟩ |
    ⟨-, -, hget⟩
  · rw [hs.2] at hv
    cases hv
  · exact absurd heq (hno f map hm)
  · rw [hget, hs.1]
    rfl

/-- A source map that is made is in the output, unless a file of its name is visited. -/
theorem output_of_mapIn {f : String} {map : Json} (hk : changes.visited.get? k = none)
    (hm : builder.MapIn args changes.visited f map) (heq : sourceMapName f = k) :
    (builder.run changes ∅ args []).output.get? k = some (.content map.indented.toUTF8) := by
  rcases output_cases hpure hok k with ⟨content, bytes, hv, -⟩ | ⟨-, f', map', hm', heq', hget⟩ |
    ⟨-, hno, -⟩
  · rw [hk] at hv
    cases hv
  · obtain rfl := sourceMapName_injective (heq.trans heq'.symm)
    rw [hget, hm.unique hm']
  · exact absurd heq (hno f map hm)

variable {old new : Option FileContent}

/-- A source map that the script has no more is still there. -/
theorem not_shows_of_stale (hcarries : (builder.run changes ∅ args []).output.Carries k old new)
    (hold : ∀ bytes, old = some (.bytes bytes) ↔ builder.Shows args project k bytes) {f : String}
    {map : Json} (hp : project.get? k = none) (hs : changes.Spares k) (heq : sourceMapName f = k)
    (hm : builder.MapIn args project f map) (hf : ¬ changes.Spares f)
    (hno : ∀ map, ¬ builder.MapIn args changes.visited f map)
    (hlive : (builder.run changes ∅ args []).output.get? f ≠ some .tombstone) :
    ¬ ∀ bytes, new = some (.bytes bytes) ↔
        builder.Shows args (changes.applyTo project) k bytes := by
  intro hnew
  have hout := output_of_spares hpure hok hs (heq ▸ forall_mapIn_ne hno)
  have hsame : new = old := hcarries.kept hout fun t ht hmap => by
    rw [sourceMapName_injective (hmap.trans heq.symm)] at ht
    exact hlive ht
  have hstale := (hold _).mpr (.sourceMap hp hm heq)
  have hshows := (hnew _).mp (hsame.trans hstale)
  have hnone := (Changes.get?_applyTo_of_spares project hs).trans hp
  obtain ⟨f', map', hm', heq', -⟩ := (shows_iff_of_no_file hnone).mp hshows
  rw [sourceMapName_injective (heq'.trans heq.symm)] at hm'
  rcases mapIn_applyTo_iff.mp hm' with hv | ⟨hs', -⟩
  · exact hno map' hv
  · exact hf hs'

/-- After a clash there is not what a full build has. -/
theorem not_shows_of_clash (hsound : builder.Sound args project)
    (hcarries : (builder.run changes ∅ args []).output.Carries k old new)
    (hold : ∀ bytes, old = some (.bytes bytes) ↔ builder.Shows args project k bytes)
    (h : builder.Clash args project changes k) :
    ¬ ∀ bytes, new = some (.bytes bytes) ↔
        builder.Shows args (changes.applyTo project) k bytes := by
  cases h with
  | overwritten hp hs hm heq hne =>
    intro hnew
    have hshows := (hnew _).mp (hcarries.entry _ (output_of_mapIn hpure hok hs.2 hm heq))
    rw [shows_iff_of_file ((Changes.get?_applyTo_of_spares project hs).trans hp)] at hshows
    exact hne hshows
  | @deleted f content hp hs hr heq hno =>
    intro hnew
    have hout := output_of_spares hpure hok hs
      (heq ▸ forall_mapIn_ne (not_mapIn_visited_of_removed hr))
    have hnone := hcarries.cleared hout f ((output_eq_tombstone_iff hpure hok f).mpr ⟨hr, hno⟩) heq
    obtain ⟨bytes, hd⟩ := hsound k content hp
    have hfile := (Changes.get?_applyTo_of_spares project hs).trans hp
    have hsome := (hnew bytes).mpr (.own hfile hd)
    rw [hnone] at hsome
    cases hsome
  | @uncovered f map hr heq hs hm =>
    intro hnew
    have hout := (output_eq_tombstone_iff hpure hok k).mpr
      ⟨hr, heq ▸ forall_mapIn_ne (not_mapIn_visited_of_spares hs)⟩
    have hfile := Changes.get?_applyTo_of_removed project hr
    have hsome := (hnew _).mpr (.sourceMap hfile (mapIn_applyTo_iff.mpr (Or.inr ⟨hs, hm⟩)) heq)
    rw [hcarries.entry _ hout] at hsome
    cases hsome
  | @outdated f map content hp hs heq hm hv hno =>
    refine not_shows_of_stale hpure hok hcarries hold hp hs heq hm (fun hf => ?_) hno fun ht => ?_
    · rw [hf.2] at hv
      cases hv
    · have hr := ((output_eq_tombstone_iff hpure hok f).mp ht).1
      rw [Changes.get?_visited_of_removed hr] at hv
      cases hv
  | @abandoned f g map map' hp hs heq hm hr hg hgf =>
    refine not_shows_of_stale hpure hok hcarries hold hp hs heq hm (not_spares_of_removed hr)
      (not_mapIn_visited_of_removed hr) fun ht => ?_
    exact ((output_eq_tombstone_iff hpure hok f).mp ht).2 g map' hg hgf

/-- Without a clash the script of a source map that is left alone is spared, too: else its source
map would be stale. -/
theorem spares_of_not_clash (h : ¬ builder.Clash args project changes k) (hs : changes.Spares k)
    {f : String} {map : Json} (hp : project.get? k = none) (heq : sourceMapName f = k)
    (hm : builder.MapIn args project f map)
    (hno : ∀ map, ¬ builder.MapIn args changes.visited f map)
    (hlive : (builder.run changes ∅ args []).output.get? f ≠ some .tombstone) :
    changes.Spares f := by
  constructor
  · by_cases hr : changes.removed.contains f = true
    · refine absurd ((output_eq_tombstone_iff hpure hok f).mpr ⟨hr, ?_⟩) hlive
      exact fun g map' hg hgf => h (.abandoned hp hs heq hm hr hg hgf)
    · simpa using hr
  · cases hv : changes.visited.get? f with
    | none => rfl
    | some content => exact absurd (.outdated hp hs heq hm hv hno) h

/-- Without a clash there is what a full build has, under a name of which the batch has no entry. -/
theorem shows_of_spared
    (hcarries : (builder.run changes ∅ args []).output.Carries k old new)
    (hold : ∀ bytes, old = some (.bytes bytes) ↔ builder.Shows args project k bytes)
    (h : ¬ builder.Clash args project changes k) (hs : changes.Spares k)
    (hno : ∀ f map, builder.MapIn args changes.visited f map → sourceMapName f ≠ k)
    (hget : (builder.run changes ∅ args []).output.get? k = none) (bytes : ByteArray) :
    new = some (.bytes bytes) ↔ builder.Shows args (changes.applyTo project) k bytes := by
  have hsame := Changes.get?_applyTo_of_spares project hs
  by_cases ht : ∃ t, (builder.run changes ∅ args []).output.get? t = some .tombstone ∧
      sourceMapName t = k
  · -- deleted with a removed file
    obtain ⟨t, htomb, heq⟩ := ht
    obtain ⟨hr, hfree⟩ := (output_eq_tombstone_iff hpure hok t).mp htomb
    rw [hcarries.cleared hget t htomb heq]
    cases hp : project.get? k with
    | some content => exact absurd (.deleted hp hs hr heq hfree) h
    | none =>
      rw [shows_iff_of_no_file (hsame.trans hp)]
      constructor
      · nofun
      · rintro ⟨f, map, hm, heq', -⟩
        rw [sourceMapName_injective (heq'.trans heq.symm)] at hm
        rcases mapIn_applyTo_iff.mp hm with hm' | ⟨hs', -⟩
        · exact absurd hm' (not_mapIn_visited_of_removed hr map)
        · exact absurd hs' (not_spares_of_removed hr)
  · -- left alone
    rw [hcarries.kept hget fun t htomb heq => ht ⟨t, htomb, heq⟩, hold]
    cases hp : project.get? k with
    | some content => rw [shows_iff_of_file hp, shows_iff_of_file (hsame.trans hp)]
    | none =>
      rw [shows_iff_of_no_file hp, shows_iff_of_no_file (hsame.trans hp)]
      constructor
      · rintro ⟨f, map, hm, heq, hbytes⟩
        have hf := spares_of_not_clash hpure hok h hs hp heq hm
          (fun map' hm' => hno f map' hm' heq) fun htomb => ht ⟨f, htomb, heq⟩
        exact ⟨f, map, mapIn_applyTo_iff.mpr (Or.inr ⟨hf, hm⟩), heq, hbytes⟩
      · rintro ⟨f, map, hm, heq, hbytes⟩
        rcases mapIn_applyTo_iff.mp hm with hm' | ⟨-, hm'⟩
        · exact absurd heq (hno f map hm')
        · exact ⟨f, map, hm', heq, hbytes⟩

/-- Without a clash there is what a full build has. -/
theorem shows_of_not_clash
    (hcarries : (builder.run changes ∅ args []).output.Carries k old new)
    (hold : ∀ bytes, old = some (.bytes bytes) ↔ builder.Shows args project k bytes)
    (h : ¬ builder.Clash args project changes k) (bytes : ByteArray) :
    new = some (.bytes bytes) ↔ builder.Shows args (changes.applyTo project) k bytes := by
  rcases output_cases hpure hok k with ⟨content, own, hv, hd, hget⟩ |
    ⟨hv, f, map, hm, heq, hget⟩ | ⟨hv, hno, hget⟩
  · -- a file that is visited
    rw [hcarries.entry _ hget,
      shows_iff_of_file (Changes.get?_applyTo_eq_some_iff.mpr (Or.inl hv))]
    exact Artifact.file?_content_eq_some_iff.trans hd.eq_iff
  · -- a source map that is made
    rw [hcarries.entry _ hget, Artifact.file?_content_eq_some_iff]
    cases hfile : (changes.applyTo project).get? k with
    | some content =>
      rw [shows_iff_of_file hfile]
      obtain hv' | ⟨hs, hp⟩ := Changes.get?_applyTo_eq_some_iff.mp hfile
      · rw [hv] at hv'
        cases hv'
      · have hd : builder.Delivers args ⟨k, content, []⟩ map.indented.toUTF8 :=
          Classical.byContradiction fun hne => h (.overwritten hp hs hm heq hne)
        exact hd.eq_iff
    | none =>
      rw [shows_iff_of_no_file hfile]
      constructor
      · intro hsame
        exact ⟨f, map, mapIn_applyTo_iff.mpr (Or.inl hm), heq, hsame⟩
      · rintro ⟨f', map', hm', heq', rfl⟩
        rw [sourceMapName_injective (heq'.trans heq.symm)] at hm'
        rcases mapIn_applyTo_iff.mp hm' with hv' | ⟨hs, -⟩
        · rw [hm.unique hv']
        · exact absurd hm (not_mapIn_visited_of_spares hs map)
  · by_cases hr : changes.removed.contains k = true
    · -- a removed name
      rw [if_pos hr] at hget
      have hfile := Changes.get?_applyTo_of_removed project hr
      rw [hcarries.entry _ hget, shows_iff_of_no_file hfile]
      constructor
      · nofun
      · rintro ⟨f, map, hm, heq, -⟩
        rcases mapIn_applyTo_iff.mp hm with hm' | ⟨hs, hp⟩
        · exact absurd heq (hno f map hm')
        · exact absurd (.uncovered hr heq hs hp) h
    · rw [if_neg hr] at hget
      exact shows_of_spared hpure hok hcarries hold h ⟨by simpa using hr, hv⟩ hno hget bytes

end Step

end ScriptWeave.Builder
