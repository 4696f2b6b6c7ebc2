/-
# Where one piece of a page ends and the next begins

Two texts put side by side may hold a word that neither of them holds: half of it ends the first and
half of it begins the second.  The words that a scan looks for do not come about in this way,
because of the characters `<`, `>` and `"`.  These are no letters, so case folding leaves
them alone (`Text.eq_of_sameLetter`); a word like `<script` or a closing tag has a `<` at its front
and nowhere else, and `type="` has its quotation mark at the end.

**Stated here.**  A word with its only `<` in front that starts before a `<` ends before it
(`exists_of_head_only`); two readings of one text with runs and values of the same lengths have the
same tag (`Reading.Of.tag_eq`); of these the one with the shorter body lies within the other one's
body (`Reading.Of.exists_of_lt`).
-/
import ScriptWeave.Proofs.Markup.Reading

namespace ScriptWeave

/-! ## 1. Characters that are no letters -/

namespace Text

/-- A character of the ASCII range that stands before the letters. -/
def IsMark (c : Char) : Prop := 0 < c.toNat ∧ c.toNat < 0x41

/-- No character but itself folds to a mark. -/
theorem IsMark.eq_of_fold_eq {a d : Char} (hd : IsMark d) (h : fold a = d) : a = d := by
  unfold fold at h
  split at h
  · rename_i ha
    have hlower : a.toLower.toNat < 0x41 → a.toLower = a :=
      forall_ascii (P := fun a => a.toLower.toNat < 0x41 → a.toLower = a) (by decide) ha
    rw [h] at hlower
    exact (hlower hd.2).symm
  · split at h
    · rename_i r hr
      -- the runs of the table lead to letters
      have hruns : (foldRuns.all fun r => decide (0x41 ≤ (r.first : Int) + r.shift)) = true := by
        decide
      have hlow := List.all_eq_true.mp hruns r (List.mem_of_find?_eq_some hr)
      have hholds := List.find?_some hr
      simp only [FoldRun.holds, Bool.and_eq_true, decide_eq_true_eq] at hholds hlow
      obtain ⟨hpos, hlt⟩ := hd
      rw [← h] at hpos hlt
      by_cases hv : (a.toNat + r.shift).toNat.isValidChar
      · have hn : (Char.ofNat (a.toNat + r.shift).toNat).toNat = (a.toNat + r.shift).toNat := by
          rw [Char.ofNat, dif_pos hv]
          rfl
        omega
      · have hn : (Char.ofNat (a.toNat + r.shift).toNat).toNat = 0 := by
          rw [Char.ofNat, dif_neg hv]
          rfl
        omega
    · exact h

theorem IsMark.isUpper_eq_false {d : Char} (hd : IsMark d) : d.isUpper = false := by
  refine decide_eq_false_iff_not.mpr ?_
  rintro ⟨hle, -⟩
  have hge : 0x41 ≤ d.toNat := hle
  exact absurd hd.2 (Nat.not_lt.mpr hge)

/-- A mark is the same letter as itself only. -/
theorem IsMark.eq_of_sameLetter {a d : Char} (hd : IsMark d)
    (h : sameLetter a d = true) : a = d := by
  have hlt : d.toNat < 0x80 := Nat.lt_trans hd.2 (by decide)
  refine hd.eq_of_fold_eq ?_
  rw [← fold_of_not_isUpper hlt hd.isUpper_eq_false]
  simpa [sameLetter] using h

theorem sameLetter_comm (a b : Char) : sameLetter a b = sameLetter b a := BEq.comm

theorem isMark_quote : IsMark '"' := ⟨by decide, by decide⟩

theorem isMark_less : IsMark '<' := ⟨by decide, by decide⟩

end Text

namespace Markup

open Text

/-! ## 2. Words -/

/-- A mark stands in a spelling of a word as often as in the word. -/
theorem SameWord.count_eq {w x : List Char} {d : Char} (h : SameWord w x) (hd : IsMark d) :
    x.count d = w.count d := by
  induction h with
  | nil => rfl
  | @cons a b w x hab _ ih =>
    have hiff : (a = d) ↔ (b = d) := by
      constructor
      · rintro rfl
        exact hd.eq_of_sameLetter (by rwa [sameLetter_comm])
      · rintro rfl
        exact hd.eq_of_sameLetter hab
    rw [List.count_cons, List.count_cons, ih]
    simp only [beq_iff_eq, hiff]

theorem SameWord.mem_iff {w x : List Char} {d : Char} (h : SameWord w x) (hd : IsMark d) :
    d ∈ x ↔ d ∈ w := by
  rw [← List.count_pos_iff, ← List.count_pos_iff, h.count_eq hd]

/-- A word that begins with a mark, as it is spelled. -/
theorem SameWord.exists_of_cons {w x : List Char} {d : Char} (h : SameWord (d :: w) x)
    (hd : IsMark d) : ∃ u, SameWord w u ∧ x = d :: u := by
  obtain ⟨c, u, hc, hu, rfl⟩ := List.forall₂_cons_left_iff.mp h
  have hcd : c = d := hd.eq_of_sameLetter (by rwa [sameLetter_comm])
  exact ⟨u, hu, by rw [hcd]⟩

/-- A word that ends with a mark, as it is spelled. -/
theorem SameWord.exists_of_append {w x : List Char} {d : Char} (h : SameWord (w ++ [d]) x)
    (hd : IsMark d) : ∃ u, SameWord w u ∧ x = u ++ [d] := by
  have hrev : SameWord (w ++ [d]).reverse x.reverse := List.forall₂_reverse_iff.mpr h
  rw [show (w ++ [d]).reverse = d :: w.reverse by simp] at hrev
  obtain ⟨u, hu, hx⟩ := hrev.exists_of_cons hd
  refine ⟨u.reverse, ?_, by simpa using congrArg List.reverse hx⟩
  exact List.forall₂_reverse_iff.mp (by rwa [List.reverse_reverse])

/-- `<script` as it is spelled: the `<` is in front, and there is no other. -/
theorem exists_of_scriptWord {x : List Char} (h : SameWord scriptWord x) :
    ∃ u, '<' ∉ u ∧ x = '<' :: u := by
  obtain ⟨u, hu, rfl⟩ := SameWord.exists_of_cons h isMark_less
  exact ⟨u, fun hm => absurd ((hu.mem_iff isMark_less).mp hm) (by decide), rfl⟩

/-- A closing tag: the `<` is in front, and there is no other. -/
theorem IsClosing.exists_eq {x : List Char} (h : IsClosing x) :
    ∃ u, '<' ∉ u ∧ x = '<' :: u := by
  obtain ⟨w, gap, hw, hgap, rfl⟩ := h
  obtain ⟨u, hu, rfl⟩ := SameWord.exists_of_cons hw isMark_less
  refine ⟨u ++ gap ++ ['>'], fun hm => ?_, by simp⟩
  simp only [List.mem_append, List.mem_singleton] at hm
  rcases hm with (hm | hm) | hm
  · exact absurd ((hu.mem_iff isMark_less).mp hm) (by decide)
  · have hb := hgap _ hm
    rw [isBlank_bracket.1] at hb
    cases hb
  · cases hm

/-- `type="` as it is spelled: the quotation mark is at the end, and there is no other. -/
theorem exists_of_typeWord {x : List Char} (h : SameWord typeWord x) :
    ∃ u, '"' ∉ u ∧ x = u ++ ['"'] := by
  obtain ⟨u, hu, rfl⟩ :=
    SameWord.exists_of_append (w := ['t', 'y', 'p', 'e', '=']) h isMark_quote
  exact ⟨u, fun hm => absurd ((hu.mem_iff isMark_quote).mp hm) (by decide), rfl⟩

/-! ## 3. Seams -/

section Seams

variable {α : Type} {x y z : List α} {c : α}

/-- What ends in `c` and begins a text ends before any part of it that has no `c`. -/
theorem prefix_of_prefix_append (h : x ++ [c] <+: y ++ z) (hz : c ∉ z) : x ++ [c] <+: y := by
  obtain ⟨rest, heq⟩ := h
  rcases List.append_eq_append_iff.mp heq with ⟨as, rfl, -⟩ | ⟨bs, hxy, rfl⟩
  · exact List.prefix_append _ _
  · -- the `c` is the last of `bs`, if that is not empty
    rcases List.eq_nil_or_concat bs with rfl | ⟨bs, d, rfl⟩
    · rw [List.append_nil] at hxy
      exact hxy ▸ List.prefix_rfl
    · rw [List.concat_eq_append, ← List.append_assoc] at hxy
      have hcd := (List.append_inj' hxy rfl).2
      simp only [List.cons.injEq, and_true] at hcd
      simp [hcd] at hz

/-- A text has one part in front of its first `c`. -/
theorem append_cons_inj_of_notMem {u v : List α} (hx : c ∉ x) (hy : c ∉ y)
    (h : x ++ c :: u = y ++ c :: v) : x = y ∧ u = v := by
  rcases List.append_eq_append_iff.mp h with ⟨as, rfl, has⟩ | ⟨as, rfl, has⟩
  · cases as with
    | nil => exact ⟨(List.append_nil x).symm, (List.cons.inj has).2⟩
    | cons a as => simp [(List.cons.inj has).1] at hy
  · cases as with
    | nil => exact ⟨List.append_nil y, (List.cons.inj has).2.symm⟩
    | cons a as => simp [(List.cons.inj has).1] at hx

/-- What has its only `c` in front, and starts before a `c`, ends before it. -/
theorem exists_of_head_only {u rest v : List α} (hu : c ∉ u) (hz : z ≠ [])
    (h : c :: u ++ rest = z ++ c :: v) : ∃ after, z = c :: u ++ after := by
  rcases List.append_eq_append_iff.mp h with ⟨as, rfl, -⟩ | ⟨bs, hcu, hbs⟩
  · exact ⟨as, rfl⟩
  · cases bs with
    | nil => exact ⟨[], by simpa using hcu.symm⟩
    | cons b bs =>
      simp only [List.cons_append, List.cons.injEq] at hbs
      obtain ⟨d, z, rfl⟩ := List.exists_cons_of_ne_nil hz
      simp only [List.cons_append, List.cons.injEq] at hcu
      rw [hcu.2, ← hbs.1] at hu
      simp at hu

end Seams

/-- A closing tag that starts before another one ends before it. -/
theorem IsClosing.exists_of_lt {x y c d rest rest' : List Char} (hc : IsClosing c)
    (hd : IsClosing d) (h : x ++ (c ++ rest) = y ++ (d ++ rest')) (hlt : x.length < y.length) :
    ∃ after, y = x ++ (c ++ after) := by
  obtain ⟨u, hu, rfl⟩ := hc.exists_eq
  obtain ⟨v, -, rfl⟩ := hd.exists_eq
  rcases List.append_eq_append_iff.mp h with ⟨z, rfl, hz⟩ | ⟨z, rfl, -⟩
  · have hne : z ≠ [] := by
      rintro rfl
      simp at hlt
    obtain ⟨after, rfl⟩ := exists_of_head_only hu hne hz
    exact ⟨after, rfl⟩
  · rw [List.length_append] at hlt
    omega

/-- A text begins with one closing tag at most. -/
theorem IsClosing.unique {c d rest rest' : List Char} (hc : IsClosing c) (hd : IsClosing d)
    (h : c ++ rest = d ++ rest') : c = d ∧ rest = rest' := by
  have hc' : closingAt (c ++ rest) = some (c, rest) := closingAt_eq_some_iff.mpr ⟨hc, rfl⟩
  rw [h, closingAt_eq_some_iff.mpr ⟨hd, rfl⟩] at hc'
  obtain ⟨rfl, rfl⟩ := Prod.mk.inj (Option.some.inj hc')
  exact ⟨rfl, rfl⟩

/-! ## 4. Two readings of one text -/

/-- The start tag of a block: everything before the body. -/
def Block.tag (b : Block) : List Char := b.opening ++ b.marker ++ b.attributes ++ b.tagClose

theorem Block.spell_eq (b : Block) : b.spell = b.tag ++ (b.body ++ b.closing) := by
  simp [Block.spell, Block.tag]

namespace Reading

variable {marker s : List Char} {r r' : Reading}

/-- A reading of a text, from the blank behind `<script` on. -/
theorem Of.exists_drop_eq (h : r.Of marker s) :
    ∃ typed rest, SameWord typeWord typed ∧
      s.drop 8 = r.run ++ (typed ++ (r.value ++ (r.block.marker ++ (r.block.attributes ++
        (r.block.tagClose ++ (r.block.body ++ (r.block.closing ++ rest))))))) ∧
      r.block.opening = s.take 8 ++ (r.run ++ (typed ++ r.value)) := by
  obtain ⟨hfits, rest, rfl⟩ := h
  obtain ⟨tag, blank, typed, htag, -, -, htyped, -, ho⟩ := hfits.opening
  have hlen : (tag ++ [blank]).length = 8 := by
    rw [List.length_append, ← htag.length_eq]
    rfl
  have hs : r.block.spell ++ rest = (tag ++ [blank]) ++ (r.run ++ (typed ++ (r.value ++
      (r.block.marker ++ (r.block.attributes ++ (r.block.tagClose ++ (r.block.body ++
        (r.block.closing ++ rest)))))))) := by
    simp [Block.spell, ho]
  refine ⟨typed, rest, htyped, ?_, ?_⟩
  · rw [hs, ← hlen, List.drop_left]
  · rw [hs, ← hlen, List.take_left, ho]
    simp

/-- Two readings of a text with runs of one length, and values of one length, have the same pieces
up to the body. -/
theorem Of.pieces_eq (h : r.Of marker s) (h' : r'.Of marker s)
    (hrun : r.run.length = r'.run.length) (hvalue : r.value.length = r'.value.length) :
    r.run = r'.run ∧ r.value = r'.value ∧ r.block.opening = r'.block.opening ∧
      r.block.marker = r'.block.marker ∧ r.block.attributes = r'.block.attributes ∧
      r.block.tagClose = r'.block.tagClose := by
  obtain ⟨typed, rest, htyped, hs, ho⟩ := h.exists_drop_eq
  obtain ⟨typed', rest', htyped', hs', ho'⟩ := h'.exists_drop_eq
  obtain ⟨m, hm, htc⟩ := h.1.tagClose
  obtain ⟨m', hm', htc'⟩ := h'.1.tagClose
  have heq := hs.symm.trans hs'
  simp only [htc, htc', List.append_assoc, List.cons_append] at heq
  obtain ⟨hr, hafterRun⟩ := List.append_inj heq hrun
  obtain ⟨ht, hafterTyped⟩ := List.append_inj hafterRun
    (htyped.length_eq.symm.trans htyped'.length_eq)
  obtain ⟨hv, hafterValue⟩ := List.append_inj hafterTyped hvalue
  obtain ⟨hmk, hafterMarker⟩ := List.append_inj hafterValue
    (h.1.marker.length_eq.symm.trans h'.1.marker.length_eq)
  -- the attributes end at the first quotation mark, the tag at the first bracket behind it
  obtain ⟨ha, hafterQuote⟩ :=
    append_cons_inj_of_notMem h.1.attributes h'.1.attributes hafterMarker
  obtain ⟨hm, -⟩ := append_cons_inj_of_notMem hm hm' hafterQuote
  exact ⟨hr, hv, by rw [ho, ho', hr, ht, hv], hmk, ha, by rw [htc, htc', hm]⟩

theorem Of.tag_eq (h : r.Of marker s) (h' : r'.Of marker s)
    (hrun : r.run.length = r'.run.length) (hvalue : r.value.length = r'.value.length) :
    r.block.tag = r'.block.tag := by
  obtain ⟨-, -, ho, hm, ha, htc⟩ := h.pieces_eq h' hrun hvalue
  rw [Block.tag, Block.tag, ho, hm, ha, htc]

/-- Of two readings of a text with the same tag, the one with the shorter body ends within the
other one's body. -/
theorem Of.exists_of_lt (h : r.Of marker s) (h' : r'.Of marker s)
    (htag : r.block.tag = r'.block.tag) (hlt : r.block.body.length < r'.block.body.length) :
    ∃ after, r'.block.body = r.block.body ++ (r.block.closing ++ after) := by
  obtain ⟨hfits, rest, hs⟩ := h
  obtain ⟨hfits', rest', hs'⟩ := h'
  have heq := hs.trans hs'.symm
  simp only [Block.spell_eq, htag, List.append_assoc] at heq
  exact hfits.closing.exists_of_lt hfits'.closing (List.append_cancel_left heq) hlt

/-- Two readings of a text with the same tag, and bodies of one length, are of the same block. -/
theorem Of.body_closing_eq (h : r.Of marker s) (h' : r'.Of marker s)
    (htag : r.block.tag = r'.block.tag) (hlen : r.block.body.length = r'.block.body.length) :
    r.block.body = r'.block.body ∧ r.block.closing = r'.block.closing := by
  obtain ⟨hfits, rest, hs⟩ := h
  obtain ⟨hfits', rest', hs'⟩ := h'
  have heq := hs.trans hs'.symm
  simp only [Block.spell_eq, htag, List.append_assoc] at heq
  obtain ⟨hb, heq⟩ := List.append_inj (List.append_cancel_left heq) hlen
  exact ⟨hb, (hfits.closing.unique hfits'.closing heq).1⟩

end Reading
end Markup
end ScriptWeave
