/-
# Resets can be taken away again

A text that is reset has reset sequences in it that the compiler did not write, and perhaps others
that it did; nothing in the text tells the ones from the others.  Their place does.  Resetting puts
one sequence at the start of every line after the first that is no stack frame, and a line is a
stack frame afterwards exactly when it was one before.  So one sequence is to be taken away at the
start of each such line, and what is left is the text, also where it had been reset before.

**Stated here.**  Resetting keeps the number of lines, the first line and the stack frames, and is
undone by taking those sequences away, so that no two texts look alike when they are reset
(`resetText_loses_nothing`).  A text is one that has been reset exactly if each line after the first
is what some line is shown as (`exists_resetText_eq_iff`).
-/
import ScriptWeave.Proofs.Compile.Parting

namespace ScriptWeave
namespace Diagnosis

/-! ## 1. Taking resets away -/

/-- A later line without the reset sequence at its start, unless it is a stack frame. -/
def unresetLine (line : List Char) : List Char :=
  if isFrame line then line else (line.dropPrefix? resetCode).getD line

/-- The lines, with one reset sequence less at the start of every one after the first. -/
def unresetLines : List (List Char) → List (List Char)
  | [] => []
  | first :: rest => first :: rest.map unresetLine

/-- The text, with one reset sequence less at the start of every line after the first. -/
def unresetText (s : List Char) : List Char := unlines (unresetLines (lines s))

section Undo

variable {line old s : List Char}

theorem unresetLine_of_shownAs (h : ShownAs old line) : unresetLine line = old := by
  cases h with
  | frame h => rw [unresetLine, if_pos (isFrame_eq_true_iff.mpr h)]
  | other h =>
    rw [unresetLine, isFrame_resetCode, if_neg Bool.false_ne_true,
      List.dropPrefix?_append_of_beq old BEq.rfl, Option.getD_some]

theorem resetLine_of_shownAs (h : ShownAs old line) : resetLine old = line := by
  cases h with
  | frame h => rw [resetLine, if_pos (isFrame_eq_true_iff.mpr h)]
  | other h => rw [resetLine, if_neg fun hframe => h (isFrame_eq_true_iff.mp hframe)]

theorem unresetLines_resetLines (ls : List (List Char)) : unresetLines (resetLines ls) = ls := by
  cases ls with
  | nil => rfl
  | cons first rest =>
    have hline : unresetLine ∘ resetLine = id :=
      funext fun line => unresetLine_of_shownAs (shownAs_resetLine line)
    rw [resetLines, unresetLines, List.map_map, hline, List.map_id]

theorem unresetText_resetText (t : List Char) : unresetText (resetText t) = t := by
  rw [unresetText, lines_resetText, unresetLines_resetLines, unlines_lines]

theorem notMem_unresetLine (h : '\n' ∉ line) : '\n' ∉ unresetLine line := by
  unfold unresetLine
  split
  · exact h
  · cases hrest : line.dropPrefix? resetCode with
    | none => exact h
    | some rest =>
      obtain ⟨front, rfl, -⟩ := List.dropPrefix?_eq_some_iff.mp hrest
      exact fun hmem => h (List.mem_append_right front hmem)

theorem lines_unresetText (s : List Char) : lines (unresetText s) = unresetLines (lines s) := by
  obtain ⟨first, rest, hlines⟩ := List.exists_cons_of_ne_nil (lines_ne_nil s)
  have hplain : ∀ line ∈ first :: rest, '\n' ∉ line := fun line hline =>
    notMem_of_mem_lines (hlines ▸ hline)
  rw [unresetText, hlines, unresetLines]
  refine lines_unlines (List.cons_ne_nil _ _) ?_
  rw [List.forall_mem_cons, List.forall_mem_map]
  rw [List.forall_mem_cons] at hplain
  exact ⟨hplain.1, fun line hline => notMem_unresetLine (hplain.2 line hline)⟩

end Undo

/-! ## 2. What resetting keeps -/

/-- Stack frames are found in the same places as before. -/
theorem forall₂_isStackFrame_resetText (t : List Char) :
    List.Forall₂ (fun old new => IsStackFrame new ↔ IsStackFrame old)
      (lines t) (lines (resetText t)) := by
  rw [lines_resetText]
  cases lines t with
  | nil => exact .nil
  | cons first rest =>
    refine .cons Iff.rfl ?_
    rw [List.forall₂_map_right_iff, List.forall₂_same]
    intro line _
    rw [← isFrame_eq_true_iff, ← isFrame_eq_true_iff, isFrame_resetLine]

theorem head?_lines_resetText (t : List Char) : (lines (resetText t)).head? = (lines t).head? := by
  rw [lines_resetText]
  cases lines t <;> rfl

/-- Every later line of a text that is reset is what a line is shown as. -/
theorem exists_shownAs_of_mem_tail {t line : List Char} (h : line ∈ (lines (resetText t)).tail) :
    ∃ old, ShownAs old line := by
  obtain ⟨first, rest, hlines⟩ := List.exists_cons_of_ne_nil (lines_ne_nil t)
  rw [lines_resetText, hlines, resetLines, List.tail_cons] at h
  obtain ⟨old, -, rfl⟩ := List.mem_map.mp h
  exact ⟨old, shownAs_resetLine old⟩

/-- **Resetting loses nothing and stops styles.**  There are as many lines as before, the first one
is the same, and every later one is a stack frame or begins with the reset sequence; stack frames
stay stack frames and nothing else becomes one; and the text comes back when one reset sequence is
taken away from every later line that is no stack frame. -/
theorem resetText_loses_nothing :
    (∀ t : List Char,
      (lines (resetText t)).length = (lines t).length ∧
      (lines (resetText t)).head? = (lines t).head? ∧
      (∀ line ∈ (lines (resetText t)).tail, IsStackFrame line ∨ resetCode <+: line) ∧
      List.Forall₂ (fun old new => IsStackFrame new ↔ IsStackFrame old)
        (lines t) (lines (resetText t)) ∧
      unresetText (resetText t) = t) ∧
    Function.Injective resetText := by
  refine ⟨fun t => ⟨length_lines_resetText t, head?_lines_resetText t, fun line hline => ?_,
    forall₂_isStackFrame_resetText t, unresetText_resetText t⟩,
    Function.LeftInverse.injective unresetText_resetText⟩
  obtain ⟨old, hshown⟩ := exists_shownAs_of_mem_tail hline
  cases hshown with
  | frame h => exact .inl h
  | other h => exact .inr (List.prefix_append resetCode old)

/-- A text with a reset sequence of its own, and one that has been reset already. -/
example :
    resetText "a\n\x1b[0mb\n  at c".toList = "a\n\x1b[0m\x1b[0mb\n  at c".toList ∧
    unresetText "a\n\x1b[0m\x1b[0mb\n  at c".toList = "a\n\x1b[0mb\n  at c".toList := by
  decide +kernel

/-! ## 3. Texts that have been reset -/

theorem resetText_unresetText {s : List Char}
    (h : ∀ line ∈ (lines s).tail, ∃ old, ShownAs old line) : resetText (unresetText s) = s := by
  have hlines : resetLines (unresetLines (lines s)) = lines s := by
    cases hs : lines s with
    | nil => rfl
    | cons first rest =>
      rw [hs, List.tail_cons] at h
      have hrest : ∀ line ∈ rest, (resetLine ∘ unresetLine) line = id line := by
        intro line hline
        obtain ⟨old, hshown⟩ := h line hline
        rw [Function.comp_apply, unresetLine_of_shownAs hshown, resetLine_of_shownAs hshown, id]
      rw [unresetLines, resetLines, List.map_map, List.map_congr_left hrest, List.map_id]
  rw [resetText, lines_unresetText, hlines, unlines_lines]

/-- **The texts that have been reset** are those whose later lines are all shown lines.  A line that
would be a stack frame without the reset sequence it begins with is not among them. -/
theorem exists_resetText_eq_iff {s : List Char} :
    (∃ t, resetText t = s) ↔ ∀ line ∈ (lines s).tail, ∃ old, ShownAs old line := by
  constructor
  · rintro ⟨t, rfl⟩ line hline
    exact exists_shownAs_of_mem_tail hline
  · exact fun h => ⟨unresetText s, resetText_unresetText h⟩

end Diagnosis
end ScriptWeave
