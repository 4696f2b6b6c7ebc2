/-
# Attributes that look like `type`

A block is meant to be a script whose attribute `type` carries the marker.  What the scan asks for
is the text `type="` anywhere in the tag, and an attribute like `data-type` ends in it.  Whether the
attribute is the right one is said by the character before that text: it `StandsAlone` behind a
blank, or it is the end of a longer name.

The scan takes the reading with the shortest run before `type="`.  A lookalike is therefore taken
exactly if nothing in front of it is a reading too: a real `type` that carries the marker saves the
block if it is written before the lookalike, and does not if it is written behind it.

**Stated here.**  Which attribute a block is read by does not depend on how its opening is
divided (`Reading.Fits.typeStandsAlone_iff`); the blocks of a page are all read by an attribute
`type` exactly when every lookalike, where a block starts, has such a reading in front of it
(`forall_typeStandsAlone_iff`); pages on which each `type="` stands behind a blank are of this kind
(`typeStandsAlone_of_no_lookalike`), and there is a page that is not
(`not_typeStandsAlone_of_data_type`).
-/
import ScriptWeave.Proofs.Markup.Canonical
import ScriptWeave.Proofs.Markup.Leftmost

namespace ScriptWeave
namespace Markup

open Text

/-! ## 1. The attribute that a block is read by -/

/-- The value that holds the marker is the one of an attribute named `type`: its `type="` stands
behind a blank. -/
def Block.TypeStandsAlone (b : Block) : Prop :=
  ∃ front blank typed value, isBlank blank = true ∧ SameWord typeWord typed ∧ '"' ∉ value ∧
    b.opening = front ++ blank :: (typed ++ value)

/-- The run before `type="` is empty, so that the blank behind `<script` is before it, or it
ends with a blank. -/
def Reading.StandsAlone (r : Reading) : Prop :=
  ∀ c ∈ r.run.getLast?, isBlank c = true

/-- A text has one part behind its last `c`. -/
theorem append_cons_inj_of_notMem_right {α : Type} {x y u v : List α} {c : α} (hu : c ∉ u)
    (hv : c ∉ v) (h : x ++ c :: u = y ++ c :: v) : x = y ∧ u = v := by
  have hrev := congrArg List.reverse h
  simp only [List.reverse_append, List.reverse_cons, List.append_assoc, List.singleton_append]
    at hrev
  obtain ⟨huv, hxy⟩ := append_cons_inj_of_notMem (by simpa using hu) (by simpa using hv) hrev
  exact ⟨List.reverse_injective hxy, List.reverse_injective huv⟩

/-- **An opening has one `type="`.**  The quotation mark in it is the last one of the opening, so
the character before the word is the same however the opening is divided. -/
theorem Reading.Fits.typeStandsAlone_iff {marker : List Char} {r : Reading} (h : r.Fits marker) :
    r.block.TypeStandsAlone ↔ r.StandsAlone := by
  obtain ⟨tag, blank, typed, -, hblank, -, htyped, hvalue, ho⟩ := h.opening
  constructor
  · rintro ⟨front, blank', typed', value', hblank', htyped', hvalue', ho'⟩ c hc
    obtain ⟨u, -, rfl⟩ := exists_of_typeWord htyped
    obtain ⟨u', -, rfl⟩ := exists_of_typeWord htyped'
    have hlen : u.length = u'.length := by
      have := htyped.length_eq.symm.trans htyped'.length_eq
      simpa using this
    have heq : (tag ++ blank :: r.run ++ u) ++ '"' :: r.value
        = (front ++ [blank'] ++ u') ++ '"' :: value' := by
      simpa using ho.symm.trans ho'
    obtain ⟨hfront, -⟩ := append_cons_inj_of_notMem_right hvalue hvalue' heq
    obtain ⟨hrun, -⟩ := List.append_inj' hfront hlen
    -- both sides end with the character before `type="`
    obtain ⟨run, hr⟩ := List.getLast?_eq_some_iff.mp hc
    rw [hr, ← List.cons_append, ← List.append_assoc] at hrun
    have hcb := (List.append_inj' hrun rfl).2
    rw [(List.cons.inj hcb).1]
    exact hblank'
  · intro hrun
    rcases List.eq_nil_or_concat r.run with hnil | ⟨run, c, hc⟩
    · exact ⟨tag, blank, typed, r.value, hblank, htyped, hvalue, by rw [ho, hnil, List.nil_append]⟩
    · refine ⟨tag ++ blank :: run, c, typed, r.value, hrun c ?_, htyped, hvalue, ?_⟩
      · simp [hc]
      · rw [ho, hc]
        simp

/-! ## 2. Which reading is taken -/

/-- A block is among the segments exactly if it is at some position. -/
theorem block_mem_iff_exists_placed {b : Block} {segs : List Segment} (pos : Nat) :
    .block b ∈ segs ↔ ∃ i, (i, b) ∈ placed pos segs := by
  induction segs generalizing pos with
  | nil => simp [placed]
  | cons seg segs ih =>
    cases seg with
    | literal text => simp [placed, ih (pos + text.length)]
    | block b' =>
      have hih := ih (pos + b'.spell.length)
      simp only [placed, List.mem_cons, Segment.block.injEq, Prod.mk.injEq, hih]
      constructor
      · rintro (rfl | ⟨i, hi⟩)
        · exact ⟨pos, Or.inl ⟨rfl, rfl⟩⟩
        · exact ⟨i, Or.inr hi⟩
      · rintro ⟨i, ⟨-, rfl⟩ | hi⟩
        · exact Or.inl rfl
        · exact Or.inr ⟨i, hi⟩

/-- Each block that a scan takes is the one of the first reading at its position. -/
theorem Leftmost.exists_isFirst {marker page : List Char} {pos i : Nat} {b : Block}
    {blocks : List (Nat × Block)} (h : Leftmost marker page pos blocks) (hb : (i, b) ∈ blocks) :
    ∃ r : Reading, r.IsFirst marker (page.drop i) ∧ r.block = b := by
  induction h with
  | done _ => cases hb
  | @next pos j r blocks _ _ hfirst _ ih =>
    rcases List.mem_cons.mp hb with heq | hb
    · obtain ⟨rfl, rfl⟩ := Prod.mk.inj heq
      exact ⟨r, hfirst, rfl⟩
    · exact ih hb

namespace Reading

variable {marker s : List Char} {r r' : Reading}

/-- A reading by an attribute `type` is in front of this one. -/
def Forestalled (marker s : List Char) (r : Reading) : Prop :=
  ∃ r' : Reading, r'.Of marker s ∧ r'.StandsAlone ∧ r'.run.length < r.run.length

/-- Behind `<script` and the blank, a text with a reading has the run and `type="`. -/
theorem Of.exists_run_append (h : r.Of marker s) :
    ∃ typed after, SameWord typeWord typed ∧ s.drop 8 = r.run ++ (typed ++ after) := by
  obtain ⟨typed, rest, htyped, hs, -⟩ := h.exists_drop_eq
  exact ⟨typed, _, htyped, hs⟩

/-- Two readings of a text with runs of one length have the same run. -/
theorem Of.run_eq (h : r.Of marker s) (h' : r'.Of marker s)
    (hlen : r.run.length = r'.run.length) : r.run = r'.run := by
  obtain ⟨_, _, -, hs⟩ := h.exists_run_append
  obtain ⟨_, _, -, hs'⟩ := h'.exists_run_append
  exact (List.append_inj (hs.symm.trans hs') hlen).1

/-- The first reading is by an attribute `type` exactly when all lookalikes are forestalled. -/
theorem IsFirst.standsAlone_iff (h : r.IsFirst marker s) :
    r.StandsAlone ↔
      ∀ r' : Reading, r'.Of marker s → ¬ r'.StandsAlone → r'.Forestalled marker s := by
  constructor
  · intro halone r' hr' hnot
    refine ⟨r, h.1, halone, ?_⟩
    rcases h.2 r' hr' with rfl | hlt | ⟨hlen, -⟩
    · exact absurd halone hnot
    · exact hlt
    · -- with runs of one length, both would stand behind the same character
      rw [StandsAlone, ← h.1.run_eq hr' hlen] at hnot
      exact absurd halone hnot
  · intro hall
    by_contra hnot
    obtain ⟨r', hr', -, hlt⟩ := hall r h.1 hnot
    rcases h.2 r' hr' with rfl | hbefore
    · exact absurd hlt (Nat.lt_irrefl _)
    · unfold Before at hbefore
      omega

end Reading

/-! ## 3. The blocks of a page -/

variable {marker page : List Char}

/-- A block of a page is read by an attribute `type` exactly when, where it starts, all lookalikes
are forestalled. -/
theorem typeStandsAlone_iff_of_placed {i : Nat} {b : Block}
    (h : (i, b) ∈ placed 0 (segments marker page)) :
    b.TypeStandsAlone ↔ ∀ r : Reading, r.Of marker (page.drop i) → ¬ r.StandsAlone →
      r.Forestalled marker (page.drop i) := by
  have hleft := (placed_segments_eq_iff marker page _).mp rfl
  obtain ⟨r, hfirst, rfl⟩ := hleft.exists_isFirst h
  exact hfirst.1.1.typeStandsAlone_iff.trans hfirst.standsAlone_iff

/-- **Only the attribute `type` makes a block, unless a lookalike comes first.**  The blocks of a
page are all read by an attribute named `type` exactly when at each place where a block starts, each
reading by a longer name has a reading by `type` in front of it. -/
theorem forall_typeStandsAlone_iff (marker page : List Char) :
    (∀ b, Segment.block b ∈ segments marker page → b.TypeStandsAlone) ↔
      ∀ i b, (i, b) ∈ placed 0 (segments marker page) → ∀ r : Reading,
        r.Of marker (page.drop i) → ¬ r.StandsAlone → r.Forestalled marker (page.drop i) := by
  constructor
  · intro h i b hplaced
    exact (typeStandsAlone_iff_of_placed hplaced).mp
      (h b ((block_mem_iff_exists_placed 0).mpr ⟨i, hplaced⟩))
  · intro h b hb
    obtain ⟨i, hplaced⟩ := (block_mem_iff_exists_placed 0).mp hb
    exact (typeStandsAlone_iff_of_placed hplaced).mpr (h i b hplaced)

/-- On a page without lookalikes, where each `type="` stands behind a blank, only an attribute
`type` makes a block. -/
theorem typeStandsAlone_of_no_lookalike {b : Block}
    (hpage : ∀ front typed rest, SameWord typeWord typed → page = front ++ (typed ++ rest) →
      ∀ c ∈ front.getLast?, isBlank c = true)
    (hb : .block b ∈ segments marker page) : b.TypeStandsAlone := by
  obtain ⟨i, hplaced⟩ := (block_mem_iff_exists_placed 0).mp hb
  refine (typeStandsAlone_iff_of_placed hplaced).mpr fun r hr hnot => absurd ?_ hnot
  intro c hc
  obtain ⟨typed, after, htyped, hs⟩ := hr.exists_run_append
  have heq : page = (page.take (i + 8) ++ r.run) ++ (typed ++ after) := by
    rw [List.append_assoc, ← hs, List.drop_drop, List.take_append_drop]
  refine hpage _ typed after htyped heq c ?_
  rw [List.getLast?_append, Option.mem_def.mp hc]
  rfl

/-- The page of one script, the marker in its attribute `data-type`. -/
def dataTypePage : List Char := "<script data-type=\"text/jsx\">x</script>".toList

/-- Its block, as a reading: the run is `data-`. -/
def dataTypeReading : Reading where
  run := "data-".toList
  value := []
  block := { opening := "<script data-type=\"".toList, marker := "text/jsx".toList,
             attributes := [], tagClose := "\">".toList, body := ['x'],
             closing := "</script>".toList }

theorem segments_dataTypePage :
    segments "text/jsx".toList dataTypePage = [.block dataTypeReading.block] := by
  decide +kernel

/-- **A lookalike is taken**: a script with the marker in its attribute `data-type` is a block. -/
theorem not_typeStandsAlone_of_data_type :
    ¬ ∀ b, Segment.block b ∈ segments "text/jsx".toList dataTypePage → b.TypeStandsAlone := by
  intro h
  have hfits : dataTypeReading.Fits "text/jsx".toList :=
    { opening := ⟨scriptWord, ' ', typeWord, by decide, by decide, by decide, by decide, by decide,
        by decide⟩
      marker := by decide
      attributes := by decide
      tagClose := ⟨[], by decide, by decide⟩
      closing := ⟨closingWord, [], by decide, List.forall_mem_nil _, by decide⟩ }
  have hmem : Segment.block dataTypeReading.block ∈ segments "text/jsx".toList dataTypePage := by
    rw [segments_dataTypePage]
    exact List.mem_singleton_self _
  have hblank : isBlank '-' = true :=
    hfits.typeStandsAlone_iff.mp (h _ hmem) '-' (by decide)
  exact absurd hblank (by decide)

end Markup
end ScriptWeave
