/-
# Segments that a scan gives back

A list of segments can be spelled out and scanned again, and most lists do not come back: a literal
may hold a block, a run before `type="` may hold another `type="`, a body may hold a closing tag.
The lists that do come back are described here piece by piece (`IsCanonical`), with nothing said
about what stands beside what, save that no two literals do.

Two things have to be shown.  No block starts within a literal, also none that ends behind it
(`scan_literal_append`): `<script` would have to reach over the seam, and what follows is a `<` or
nothing.  And the reading of a block by its own pieces is the first one of the text it starts,
whatever follows (`Reading.Canonical.isFirst`).

**Stated here.**  A canonical list of segments is the list of segments of the text it spells
(`segments_spellAll`).
-/
import Mathlib.Data.List.Infix
import ScriptWeave.Proofs.Markup.Seams
import ScriptWeave.Proofs.Markup.Weaving

namespace ScriptWeave
namespace Markup

open Text

/-! ## 1. Words in a text -/

instance (w x : List Char) : Decidable (SameWord w x) :=
  inferInstanceAs (Decidable (List.Forall₂ _ w x))

/-- The word stands somewhere in the text, the case of its letters set aside. -/
def Occurs (w s : List Char) : Prop := ∃ x, SameWord w x ∧ x <:+: s

theorem Occurs.of_infix {w s t : List Char} (h : Occurs w s) (ht : s <:+: t) : Occurs w t := by
  obtain ⟨x, hx, hs⟩ := h
  exact ⟨x, hx, hs.trans ht⟩

/-- A word stands in a text if it can be stripped off one of its ends. -/
theorem occurs_iff {w s : List Char} :
    Occurs w s ↔ ∃ t ∈ s.tails, (stripWord w t).isSome = true := by
  constructor
  · rintro ⟨x, hx, before, after, rfl⟩
    refine ⟨x ++ after, (List.mem_tails _ _).mpr ⟨before, by simp⟩, ?_⟩
    rw [stripWord_eq_some_iff.mpr ⟨x, hx, rfl⟩, Option.isSome_some]
  · rintro ⟨t, ht, hw⟩
    obtain ⟨rest, hrest⟩ := Option.isSome_iff_exists.mp hw
    obtain ⟨x, hx, rfl⟩ := stripWord_eq_some_iff.mp hrest
    obtain ⟨before, rfl⟩ := (List.mem_tails _ _).mp ht
    exact ⟨x, hx, before, rest, by simp⟩

instance (w s : List Char) : Decidable (Occurs w s) := decidable_of_iff _ occurs_iff.symm

/-- A closing tag stands somewhere in the text. -/
def Closes (s : List Char) : Prop := ∃ c, IsClosing c ∧ c <:+: s

theorem closes_iff {s : List Char} :
    Closes s ↔ ∃ t ∈ s.tails, (closingAt t).isSome = true := by
  constructor
  · rintro ⟨c, hc, before, after, rfl⟩
    refine ⟨c ++ after, (List.mem_tails _ _).mpr ⟨before, by simp⟩, ?_⟩
    rw [closingAt_eq_some_iff.mpr ⟨hc, rfl⟩, Option.isSome_some]
  · rintro ⟨t, ht, hc⟩
    obtain ⟨⟨c, rest⟩, hrest⟩ := Option.isSome_iff_exists.mp hc
    obtain ⟨hclosing, rfl⟩ := closingAt_eq_some_iff.mp hrest
    obtain ⟨before, rfl⟩ := (List.mem_tails _ _).mp ht
    exact ⟨c, hclosing, before, rest, by simp⟩

instance (s : List Char) : Decidable (Closes s) := decidable_of_iff _ closes_iff.symm

/-! ## 2. Canonical segments -/

/-- The six pieces of a block whose every choice is the only one: there is no `type="` in the run,
no marker before the marker in the value, and no closing tag in the body. -/
structure Reading.Canonical (m₀ : List Char) (r : Reading) : Prop extends r.Fits m₀ where
  run : ¬ Occurs typeWord r.run
  first : ∀ before x, SameWord m₀ x →
    before ++ x <+: r.value ++ (r.block.marker ++ r.block.attributes) →
    r.value.length ≤ before.length
  body : ¬ Closes r.block.body

/-- A literal that is not empty and has no `<script` in it, or a canonical block. -/
def Segment.Canonical (marker : List Char) : Segment → Prop
  | .literal text => text ≠ [] ∧ ¬ Occurs scriptWord text
  | .block b => ∃ r : Reading, r.block = b ∧ r.Canonical marker

/-- Canonical segments, no two literals side by side. -/
def IsCanonical (marker : List Char) (segs : List Segment) : Prop :=
  segs.IsChain Apart ∧ ∀ s ∈ segs, s.Canonical marker

theorem IsCanonical.tail {marker : List Char} {s : Segment} {segs : List Segment}
    (h : IsCanonical marker (s :: segs)) : IsCanonical marker segs :=
  ⟨h.1.tail, fun t ht => h.2 t (List.mem_cons_of_mem s ht)⟩

/-! ## 3. The block of a canonical reading is the one that is read -/

namespace Reading

variable {marker s : List Char} {r r' : Reading}

/-- A marker without a quotation mark stands in the first quoted text behind `type="`. -/
theorem Fits.quote_notMem_value (h : r.Fits marker) (hmarker : '"' ∉ marker) :
    '"' ∉ r.value ++ (r.block.marker ++ r.block.attributes) := by
  obtain ⟨-, -, -, -, -, -, -, hvalue, -⟩ := h.opening
  simp only [List.mem_append, not_or]
  exact ⟨hvalue, fun hm => hmarker ((h.marker.mem_iff isMark_quote).mp hm), h.attributes⟩

/-- No reading of a text has a shorter run than a canonical one. -/
theorem Canonical.run_le (h : r.Canonical marker) (hs : r.Of marker s) (hs' : r'.Of marker s) :
    r.run.length ≤ r'.run.length := by
  obtain ⟨typed, rest, htyped, hs, -⟩ := hs.exists_drop_eq
  obtain ⟨typed', rest', htyped', hs', -⟩ := hs'.exists_drop_eq
  rcases Nat.lt_or_ge r'.run.length r.run.length with hlt | hge
  · -- the other `type="` would end before the quotation mark of this one, hence within the run
    exfalso
    have hlen := htyped.length_eq.symm.trans htyped'.length_eq
    obtain ⟨u, hu, rfl⟩ := exists_of_typeWord htyped
    obtain ⟨u', -, rfl⟩ := exists_of_typeWord htyped'
    simp only [List.length_append, List.length_singleton, Nat.add_right_cancel_iff] at hlen
    have hpre : r'.run ++ u' ++ ['"'] <+: s.drop 8 := by
      rw [hs', List.append_assoc u', ← List.append_assoc, ← List.append_assoc]
      exact List.prefix_append _ _
    have hpre' : r.run ++ u <+: s.drop 8 := by
      rw [hs, List.append_assoc u, ← List.append_assoc]
      exact List.prefix_append _ _
    have hwithin := List.prefix_of_prefix_length_le hpre hpre'
      (by simp only [List.length_append, List.length_singleton]; omega)
    have hrun := prefix_of_prefix_append hwithin hu
    rw [List.append_assoc] at hrun
    exact h.run ⟨u' ++ ['"'], htyped', (List.suffix_append _ _).isInfix.trans hrun.isInfix⟩
  · exact hge

/-- Of the readings of a text with one run, none has a shorter value than a canonical one. -/
theorem Canonical.value_le (h : r.Canonical marker) (hmarker : '"' ∉ marker) (hs : r.Of marker s)
    (hs' : r'.Of marker s) (hrun : r.run.length = r'.run.length) :
    r.value.length ≤ r'.value.length := by
  have hfits' := hs'.1
  obtain ⟨typed, rest, htyped, hs, -⟩ := hs.exists_drop_eq
  obtain ⟨typed', rest', htyped', hs', -⟩ := hs'.exists_drop_eq
  obtain ⟨m, -, htc⟩ := h.tagClose
  obtain ⟨m', -, htc'⟩ := hfits'.tagClose
  have heq := hs.symm.trans hs'
  simp only [htc, htc', List.cons_append] at heq
  obtain ⟨-, hafterRun⟩ := List.append_inj heq hrun
  obtain ⟨-, hafterTyped⟩ := List.append_inj hafterRun
    (htyped.length_eq.symm.trans htyped'.length_eq)
  -- both values, with marker and attributes, reach up to the first quotation mark
  obtain ⟨hwhole, -⟩ := append_cons_inj_of_notMem
    (h.quote_notMem_value hmarker) (hfits'.quote_notMem_value hmarker)
    (by simpa only [List.append_assoc] using hafterTyped)
  refine h.first r'.value r'.block.marker hfits'.marker ?_
  rw [hwhole, ← List.append_assoc]
  exact List.prefix_append _ _

/-- Of the readings of a text with one tag, none has a shorter body than a canonical one. -/
theorem Canonical.body_le (h : r.Canonical marker) (hs : r.Of marker s) (hs' : r'.Of marker s)
    (htag : r.block.tag = r'.block.tag) : r.block.body.length ≤ r'.block.body.length := by
  rcases Nat.lt_or_ge r'.block.body.length r.block.body.length with hlt | hge
  · obtain ⟨after, hafter⟩ := hs'.exists_of_lt hs htag.symm hlt
    exact absurd ⟨r'.block.closing, hs'.1.closing, r'.block.body, after, by simp [hafter]⟩ h.body
  · exact hge

/-- **A canonical reading is the first one of every text that begins with its block.** -/
theorem Canonical.isFirst (h : r.Canonical marker) (hmarker : '"' ∉ marker)
    (hs : r.Of marker s) : r.IsFirst marker s := by
  refine ⟨hs, fun r' hs' => ?_⟩
  rcases Nat.lt_or_eq_of_le (h.run_le hs hs') with hlt | hrun
  · exact Or.inr (Or.inl hlt)
  rcases Nat.lt_or_eq_of_le (h.value_le hmarker hs hs' hrun) with hlt | hvalue
  · exact Or.inr (Or.inr ⟨hrun, Or.inl hlt⟩)
  have htag := hs.tag_eq hs' hrun hvalue
  rcases Nat.lt_or_eq_of_le (h.body_le hs hs' htag) with hlt | hbody
  · exact Or.inr (Or.inr ⟨hrun, Or.inr ⟨hvalue, hlt⟩⟩)
  · -- the same lengths throughout: the same pieces
    left
    obtain ⟨hr, hv, ho, hm, ha, htc⟩ := hs.pieces_eq hs' hrun hvalue
    obtain ⟨hb, hc⟩ := hs.body_closing_eq hs' htag hbody
    obtain ⟨run, value, opening, m, attributes, tagClose, body, closing⟩ := r
    obtain ⟨run', value', opening', m', attributes', tagClose', body', closing'⟩ := r'
    simp only at hr hv ho hm ha htc hb hc
    subst hr hv ho hm ha htc hb hc
    rfl

end Reading

/-! ## 4. No block starts in a literal -/

/-- What may stand behind a literal: nothing, or something that starts with a `<`. -/
def StartsAtTag (s : List Char) : Prop := s = [] ∨ ∃ u, s = '<' :: u

/-- No block starts in a text without `<script`, also none that would end behind it. -/
theorem blockAt_append_eq_none {marker t s : List Char} (ht : t ≠ []) (h : ¬ Occurs scriptWord t)
    (hs : StartsAtTag s) : blockAt marker (t ++ s) = none := by
  rw [blockAt_eq_none_iff]
  rintro r ⟨hfits, rest, heq⟩
  obtain ⟨tag, blank, typed, htag, -, -, -, -, ho⟩ := hfits.opening
  obtain ⟨u, hu, rfl⟩ := exists_of_scriptWord htag
  simp only [Block.spell, ho, List.append_assoc] at heq
  rcases hs with rfl | ⟨v, rfl⟩
  · rw [List.append_nil] at heq
    exact h ⟨_, htag, (List.IsPrefix.isInfix ⟨_, heq⟩)⟩
  · obtain ⟨after, rfl⟩ := exists_of_head_only hu ht heq
    exact h ⟨_, htag, (List.prefix_append _ after).isInfix⟩

/-- The scan passes over a text without `<script`. -/
theorem scan_literal_append {marker seen t s : List Char} (h : ¬ Occurs scriptWord t)
    (hs : StartsAtTag s) : scan marker seen (t ++ s) = scan marker (t.reverse ++ seen) s := by
  induction t generalizing seen with
  | nil => rfl
  | cons c t ih =>
    have hnone : blockAt marker (c :: (t ++ s)) = none :=
      blockAt_append_eq_none (List.cons_ne_nil c t) h hs
    have ht : ¬ Occurs scriptWord t := fun ho => h (ho.of_infix (List.suffix_cons c t).isInfix)
    rw [List.cons_append, scan_of_none hnone, ih ht]
    simp

/-! ## 5. Scanning what was spelled -/

theorem Reading.Fits.startsAtTag {marker : List Char} {r : Reading} (h : r.Fits marker)
    (rest : List Char) : StartsAtTag (r.block.spell ++ rest) := by
  obtain ⟨tag, blank, typed, htag, -, -, -, -, ho⟩ := h.opening
  obtain ⟨u, -, rfl⟩ := exists_of_scriptWord htag
  exact Or.inr ⟨_, by simp [Block.spell, ho]; rfl⟩

/-- A canonical block is scanned as that block, whatever stands before it and behind it. -/
theorem scan_block_append {marker : List Char} {b : Block}
    (hb : (Segment.block b).Canonical marker) (hmarker : '"' ∉ marker) (seen rest : List Char) :
    scan marker seen (b.spell ++ rest) = literalOf seen ++ .block b :: scan marker [] rest := by
  obtain ⟨r, rfl, hr⟩ := hb
  have hof : r.Of marker (r.block.spell ++ rest) := ⟨hr.toFits, List.prefix_append _ _⟩
  exact scan_of_some (blockAt_eq_some_iff.mpr ⟨r, hr.isFirst hmarker hof, rfl, rfl⟩)

/-- The literal of a text that is not empty. -/
theorem literalOf_reverse {t : List Char} (ht : t ≠ []) : literalOf t.reverse = [.literal t] := by
  simp [literalOf, ht]

/-- The scan of a canonical list, spelled, gives the list back. -/
theorem scan_spellAll {marker : List Char} (hmarker : '"' ∉ marker) :
    ∀ {segs : List Segment}, IsCanonical marker segs →
      scan marker [] (Segment.spellAll segs) = segs
  | [], _ => scan_nil marker []
  | .block b :: rest, h => by
    rw [Segment.spellAll_cons, Segment.spell, scan_block_append (h.2 _ List.mem_cons_self) hmarker,
      scan_spellAll hmarker h.tail]
    rfl
  | [.literal t], h => by
    obtain ⟨hne, ht⟩ := h.2 _ List.mem_cons_self
    have hpass : scan marker [] (t ++ []) = scan marker (t.reverse ++ []) [] :=
      scan_literal_append ht (Or.inl rfl)
    rw [Segment.spellAll_cons, Segment.spell, Segment.spellAll_nil, hpass, List.append_nil,
      scan_nil, literalOf_reverse hne]
  | .literal t :: .literal _ :: _, h => by
    rcases (List.isChain_cons_cons.mp h.1).1 with hb | hb <;> cases hb
  | .literal t :: .block b :: rest, h => by
    obtain ⟨hne, ht⟩ := h.2 _ List.mem_cons_self
    have hb : (Segment.block b).Canonical marker :=
      h.2 _ (List.mem_cons_of_mem _ List.mem_cons_self)
    have hstart : StartsAtTag (b.spell ++ Segment.spellAll rest) := by
      obtain ⟨r, rfl, hr⟩ := hb
      exact hr.toFits.startsAtTag _
    rw [Segment.spellAll_cons, Segment.spell, Segment.spellAll_cons, Segment.spell,
      scan_literal_append ht hstart, scan_block_append hb hmarker,
      scan_spellAll hmarker h.tail.tail, List.append_nil, literalOf_reverse hne]
    rfl

/-- **Scanning inverts spelling on canonical lists of segments.** -/
theorem segments_spellAll {marker : List Char} {segs : List Segment} (hmarker : '"' ∉ marker)
    (h : IsCanonical marker segs) : segments marker (Segment.spellAll segs) = segs := by
  rw [segments_eq_scan]
  exact scan_spellAll hmarker h

/-- A literal, a block with a second marker in its attributes and half a closing tag at the end of
its body, and a block right behind it. -/
def twoBlocks : List Segment :=
  [.literal "a<b".toList,
    .block ⟨"<script type=\"".toList, "JSX".toList, ";jsx".toList, "\">".toList,
      "x</scrip".toList, "</SCRIPT >".toList⟩,
    .block ⟨"<script type=\"".toList, "jsx".toList, [], "\">".toList, [], "</script>".toList⟩]

theorem segments_spellAll_twoBlocks :
    '"' ∉ "jsx".toList ∧ IsCanonical "jsx".toList twoBlocks ∧
      segments "jsx".toList
          "a<b<script type=\"JSX;jsx\">x</scrip</SCRIPT ><script type=\"jsx\"></script>".toList
        = twoBlocks := by
  have hopening : IsOpening [] [] "<script type=\"".toList :=
    ⟨scriptWord, ' ', typeWord, by decide, by decide, by decide, by decide, by decide, by decide⟩
  have htagClose : IsTagClose "\">".toList := ⟨[], by decide, by decide⟩
  have hcanonical : IsCanonical "jsx".toList twoBlocks := by
    refine ⟨?_, ?_⟩
    · exact .cons_cons (.inr rfl) (.cons_cons (.inl rfl) (.singleton _))
    · intro s hs
      simp only [twoBlocks, List.mem_cons, List.not_mem_nil, or_false] at hs
      rcases hs with rfl | rfl | rfl
      · exact ⟨by decide, by decide⟩
      · exact ⟨⟨[], [], _⟩, rfl,
          { opening := hopening, marker := by decide, attributes := by decide,
            tagClose := htagClose, run := by decide, first := fun _ _ _ _ => Nat.zero_le _,
            body := by decide,
            closing := ⟨"</SCRIPT".toList, [' '], by decide, List.forall_mem_singleton.mpr rfl,
              by decide⟩ }⟩
      · exact ⟨⟨[], [], _⟩, rfl,
          { opening := hopening, marker := by decide, attributes := by decide,
            tagClose := htagClose, run := by decide, first := fun _ _ _ _ => Nat.zero_le _,
            body := by decide,
            closing := ⟨closingWord, [], by decide, List.forall_mem_nil _, by decide⟩ }⟩
  exact ⟨by decide, hcanonical, segments_spellAll (by decide) hcanonical⟩

end Markup
end ScriptWeave
