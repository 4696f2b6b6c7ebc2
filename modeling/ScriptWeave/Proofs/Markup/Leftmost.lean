/-
# The blocks of a page are those of the scan from the left

The segments of a page come from one pass that skips most places (`Markup.Segments`).  Which blocks
they hold is said here by position alone, with no reader and no pass (`Leftmost`): a block starts
at the first position, from the end of the block before on, at which the rest of the page has a
reading, and it is the block of the first reading there.

**Stated here.**  The blocks of the segments, with the positions at which they start, are the ones
that the scan from the left takes, and no others (`placed_segments_eq_iff`).
-/
import ScriptWeave.Markup.Segments
import ScriptWeave.Proofs.Markup.Reading

namespace ScriptWeave
namespace Markup

/-! ## 1. Blocks and their positions -/

/-- The blocks among some segments, each with the position at which it starts; the segments
start at `pos`. -/
def placed : Nat → List Segment → List (Nat × Block)
  | _, [] => []
  | pos, .literal text :: rest => placed (pos + text.length) rest
  | pos, .block b :: rest => (pos, b) :: placed (pos + b.spell.length) rest

theorem placed_literalOf_append (pos : Nat) (seen : List Char) (rest : List Segment) :
    placed pos (literalOf seen ++ rest) = placed (pos + seen.length) rest := by
  unfold literalOf
  split
  · rename_i hs
    simp [hs]
  · simp [placed]

/-- The blocks that a scan from the left takes, when it goes on at the position given: from the
end of one block to the start of the next no rest of the page has a reading, and each block is
the one of the first reading where it starts. -/
inductive Leftmost (marker page : List Char) : Nat → List (Nat × Block) → Prop
  | done {pos : Nat} :
      (∀ i, pos ≤ i → ∀ r : Reading, ¬ r.Of marker (page.drop i)) →
      Leftmost marker page pos []
  | next {pos i : Nat} {r : Reading} {blocks : List (Nat × Block)} :
      pos ≤ i →
      (∀ j, pos ≤ j → j < i → ∀ r' : Reading, ¬ r'.Of marker (page.drop j)) →
      r.IsFirst marker (page.drop i) →
      Leftmost marker page (i + r.block.spell.length) blocks →
      Leftmost marker page pos ((i, r.block) :: blocks)

/-- From one position on, a scan takes one list of blocks only. -/
theorem Leftmost.unique {marker page : List Char} {pos : Nat} {blocks blocks' : List (Nat × Block)}
    (h : Leftmost marker page pos blocks) (h' : Leftmost marker page pos blocks') :
    blocks = blocks' := by
  induction h generalizing blocks' with
  | done hnone =>
    cases h' with
    | done _ => rfl
    | next hle _ hfirst _ => exact absurd hfirst.1 (hnone _ hle _)
  | @next pos i r blocks hle hbefore hfirst _ ih =>
    cases h' with
    | done hnone => exact absurd hfirst.1 (hnone _ hle _)
    | @next _ i' r' blocks' hle' hbefore' hfirst' hrest' =>
      have hi : i = i' := by
        rcases Nat.lt_trichotomy i i' with hlt | heq | hlt
        · exact absurd hfirst.1 (hbefore' i hle hlt r)
        · exact heq
        · exact absurd hfirst'.1 (hbefore i' hle' hlt r')
      subst hi
      obtain rfl := hfirst.unique hfirst'
      rw [ih hrest']

/-! ## 2. The scan -/

/-- The scan takes the leftmost blocks.  `front` is what stands before the characters `seen`, and
no block starts among these. -/
theorem leftmost_scan {marker page seen s : List Char} (front : List Char)
    (hpage : page = front ++ (seen.reverse ++ s))
    (hnone : ∀ i, front.length ≤ i → i < front.length + seen.length →
      ∀ r : Reading, ¬ r.Of marker (page.drop i)) :
    Leftmost marker page front.length (placed front.length (scan marker seen s)) := by
  -- behind `front` and `seen` the page is `s`
  have hdrop : page.drop (front.length + seen.length) = s := by
    rw [hpage, ← List.append_assoc]
    exact List.drop_left' (by simp)
  fun_induction scan marker seen s generalizing front with
  | case1 seen s b rest h ih =>
    obtain ⟨r, hfirst, rfl, hs⟩ := blockAt_eq_some_iff.mp h
    rw [placed_literalOf_append, placed]
    refine Leftmost.next (Nat.le_add_right _ _) hnone (by rw [hdrop]; exact hfirst) ?_
    have hlen : (front ++ (seen.reverse ++ r.block.spell)).length
        = front.length + seen.length + r.block.spell.length := by
      simp [Nat.add_assoc]
    have hnext := ih (front ++ (seen.reverse ++ r.block.spell)) (by simp [hpage, hs])
      (fun i hle hlt => absurd hlt (Nat.not_lt.mpr hle))
      (by rw [List.length_nil, Nat.add_zero, hlen, ← List.drop_drop, hdrop, hs, List.drop_left])
    rwa [hlen] at hnext
  | case2 seen h =>
    rw [← List.append_nil (literalOf seen), placed_literalOf_append]
    refine Leftmost.done fun i hle => ?_
    rcases Nat.lt_or_ge i (front.length + seen.length) with hlt | hge
    · exact hnone i hle hlt
    · have hi : page.drop i = [] := by
        rw [List.drop_eq_nil_iff, hpage]
        simpa using hge
      rw [hi]
      exact blockAt_eq_none_iff.mp h
  | case3 seen c s h ih =>
    refine ih front (by simp [hpage]) (fun i hle hlt => ?_) ?_
    · rcases Nat.lt_or_ge i (front.length + seen.length) with hlt' | hge
      · exact hnone i hle hlt'
      · have hi : i = front.length + seen.length := by
          rw [List.length_cons] at hlt
          omega
        rw [hi, hdrop]
        exact blockAt_eq_none_iff.mp h
    · rw [List.length_cons, ← Nat.add_assoc, ← List.drop_drop, hdrop, List.drop_one, List.tail_cons]

/-- **The blocks of a page are the leftmost ones.**  Some blocks with positions are those of the
segments of the page exactly when a scan from the left takes them. -/
theorem placed_segments_eq_iff (marker page : List Char) (blocks : List (Nat × Block)) :
    placed 0 (segments marker page) = blocks ↔ Leftmost marker page 0 blocks := by
  have hscan : Leftmost marker page 0 (placed 0 (segments marker page)) := by
    rw [segments_eq_scan]
    exact leftmost_scan [] rfl fun i _ hlt => absurd hlt (by simp)
  constructor
  · rintro rfl
    exact hscan
  · intro h
    exact hscan.unique h

end Markup
end ScriptWeave
