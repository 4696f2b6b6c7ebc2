/-
# What a failed compiler wrote reaches the user whole

The output of a compiler that has failed goes through two cuts.  It is cut into message and stack
before the first stack frame, and when both have been reset as one text, that text is cut again
behind as many lines as the message has.  All of this is said of lines here: cutting splits
their list in two, resetting changes each line by itself, and joining them gives the text back.  So
the two cuts are at the same place, and nothing is lost between them.

**Stated here.**  Resetting message and stack together comes to resetting the message alone and
every line of the stack (`resetBoth_some`); and message and stack of a compiler's output, put
together again, are its output reset (`withResets_ofOutput`).
-/
import Mathlib.Data.List.TakeWhile
import ScriptWeave.Compile.Diagnosis
import ScriptWeave.Proofs.Text.Splitting

namespace ScriptWeave
namespace Diagnosis

open Text

/-! ## 1. Lines -/

section Lines

variable {ls ls' : List (List Char)} {s t line : List Char}

theorem lines_ne_nil (s : List Char) : lines s ≠ [] := List.splitOn_ne_nil '\n' s

theorem notMem_of_mem_lines (h : line ∈ lines s) : '\n' ∉ line := notMem_of_mem_splitOn h

/-- Lines that are joined come back. -/
theorem lines_unlines (hne : ls ≠ []) (h : ∀ line ∈ ls, '\n' ∉ line) : lines (unlines ls) = ls :=
  List.splitOn_intercalate '\n' h hne

theorem lines_append (s t : List Char) : lines (s ++ '\n' :: t) = lines s ++ lines t :=
  List.splitOn_append_cons_self s t

theorem unlines_append (h : ls ≠ []) (h' : ls' ≠ []) :
    unlines (ls ++ ls') = unlines ls ++ '\n' :: unlines ls' :=
  intercalate_append_of_ne_nil ['\n'] h h'

end Lines

/-! ## 2. Resetting, line by line -/

section Reset

variable {ls : List (List Char)} {s t line : List Char}

theorem notMem_resetLine (h : '\n' ∉ line) : '\n' ∉ resetLine line := by
  unfold resetLine
  split
  · exact h
  · rw [List.mem_append, not_or]
    exact ⟨by decide, h⟩

theorem resetLines_eq (ls : List (List Char)) :
    resetLines ls = ls.take 1 ++ ls.tail.map resetLine := by
  cases ls <;> rfl

theorem resetLines_append (h : ls ≠ []) (more : List (List Char)) :
    resetLines (ls ++ more) = resetLines ls ++ more.map resetLine := by
  cases ls with
  | nil => exact absurd rfl h
  | cons first rest => simp [resetLines]

/-- **The lines of a text that is reset** are its lines, reset. -/
theorem lines_resetText (s : List Char) : lines (resetText s) = resetLines (lines s) := by
  refine lines_unlines ?_ fun line hline => ?_
  · intro hnil
    have hlen := length_resetLines (lines s)
    rw [hnil] at hlen
    exact lines_ne_nil s (List.length_eq_zero_iff.mp hlen.symm)
  · rw [resetLines_eq] at hline
    rcases List.mem_append.mp hline with hline | hline
    · exact notMem_of_mem_lines (List.mem_of_mem_take hline)
    · obtain ⟨old, hold, rfl⟩ := List.mem_map.mp hline
      exact notMem_resetLine (notMem_of_mem_lines (List.mem_of_mem_tail hold))

/-- The text of later lines, all of them reset. -/
def resetLater (s : List Char) : List Char := unlines ((lines s).map resetLine)

theorem lines_resetLater (s : List Char) : lines (resetLater s) = (lines s).map resetLine := by
  refine lines_unlines (by simpa using lines_ne_nil s) fun line hline => ?_
  obtain ⟨old, hold, rfl⟩ := List.mem_map.mp hline
  exact notMem_resetLine (notMem_of_mem_lines hold)

theorem resetText_append (s t : List Char) :
    resetText (s ++ '\n' :: t) = resetText s ++ '\n' :: resetLater t := by
  have hs : resetLines (lines s) ≠ [] := by
    rw [← lines_resetText]
    exact lines_ne_nil _
  rw [resetText, lines_append, resetLines_append (lines_ne_nil s), resetText, resetLater,
    unlines_append hs (by simpa using lines_ne_nil t)]

/-- **Message and stack, reset as one text and parted again**: the message is reset by itself, and
every line of the stack is a later line. -/
theorem resetBoth_some (message stack : List Char) :
    resetBoth message (some stack) = (resetText message, some (resetLater stack)) := by
  have hlines : lines (resetText (message ++ '\n' :: stack))
      = resetLines (lines message) ++ (lines stack).map resetLine := by
    rw [lines_resetText, lines_append, resetLines_append (lines_ne_nil message)]
  have hlen : (lines message).length = (resetLines (lines message)).length :=
    (length_resetLines _).symm
  simp only [resetBoth, hlines, hlen, List.take_left, List.drop_left]
  rfl

/-- In a message that is reset, no later line is a stack frame if none was. -/
theorem isFrame_of_mem_tail_resetText (h : ∀ line ∈ (lines s).tail, isFrame line = false) :
    ∀ line ∈ (lines (resetText s)).tail, isFrame line = false := by
  intro line hline
  obtain ⟨first, rest, hlines⟩ := List.exists_cons_of_ne_nil (lines_ne_nil s)
  rw [lines_resetText, hlines, resetLines, List.tail_cons] at hline
  rw [hlines, List.tail_cons] at h
  obtain ⟨old, hold, rfl⟩ := List.mem_map.mp hline
  rw [isFrame_resetLine, h old hold]

theorem withResets_ofMessage (s : List Char) :
    (ofMessage (String.ofList s)).withResets = ofMessage (String.ofList (resetText s)) := by
  simp [withResets, ofMessage, resetBoth]

theorem withResets_of_stack (s t : List Char) :
    withResets ⟨String.ofList s, some (String.ofList t)⟩
      = ⟨String.ofList (resetText s), some (String.ofList (resetLater t))⟩ := by
  simp [withResets, resetBoth_some]

end Reset

/-! ## 3. The output of a compiler -/

/-- Message and stack as one text. -/
def whole (d : Diagnosis) : List Char :=
  match d.stack with
  | none => d.message.toList
  | some stack => d.message.toList ++ '\n' :: stack.toList

section Output

variable {text : List Char}

/-- Without a stack frame behind the first line, all is message. -/
theorem ofOutput_of_no_frame (h : ∀ line ∈ (lines (trimEnd text)).tail, isFrame line = false) :
    ofOutput text = ofMessage (String.ofList (trimEnd text)) := by
  obtain ⟨first, rest, hlines⟩ := List.exists_cons_of_ne_nil (lines_ne_nil (trimEnd text))
  rw [hlines, List.tail_cons] at h
  have hdrop : rest.dropWhile (fun line => !isFrame line) = [] :=
    List.dropWhile_eq_nil_iff.mpr fun line hline => by simp [h line hline]
  simp only [ofOutput, hlines, cut, hdrop]

/-- With one, the stack begins there. -/
theorem ofOutput_of_frame (h : ∃ line ∈ (lines (trimEnd text)).tail, isFrame line = true) :
    ∃ first before frame later,
      lines (trimEnd text) = (first :: before) ++ frame :: later ∧
      (∀ line ∈ before, isFrame line = false) ∧ isFrame frame = true ∧
      ofOutput text = ⟨String.ofList (unlines (first :: before)),
        some (String.ofList (unlines (frame :: later)))⟩ := by
  obtain ⟨first, rest, hlines⟩ := List.exists_cons_of_ne_nil (lines_ne_nil (trimEnd text))
  obtain ⟨line, hline, hframe⟩ := h
  rw [hlines, List.tail_cons] at hline
  have hne : rest.dropWhile (fun line => !isFrame line) ≠ [] := fun hnil => by
    simpa [hframe] using List.dropWhile_eq_nil_iff.mp hnil line hline
  obtain ⟨frame, later, hdrop⟩ := List.exists_cons_of_ne_nil hne
  have hhead := List.head_dropWhile_not (fun line => !isFrame line) hne
  refine ⟨first, rest.takeWhile fun line => !isFrame line, frame, later, ?_, ?_, ?_, ?_⟩
  · rw [hlines, ← hdrop, List.cons_append, List.takeWhile_append_dropWhile]
  · intro line hline
    simpa using List.all_eq_true.mp List.all_takeWhile line hline
  · simpa [hdrop] using hhead
  · simp only [ofOutput, hlines, cut, hdrop]

end Output

/-- **What a failed compiler wrote reaches the user whole**, reset as one text.  There is a stack
exactly if there is a stack frame behind the first line; then the stack begins with the first of
these frames, as it is, and in the message there is none. -/
theorem withResets_ofOutput (text : List Char) :
    let written := trimEnd text
    let shown := (ofOutput text).withResets
    shown.whole = resetText written ∧
    (shown.stack ≠ none ↔ ∃ line ∈ (lines written).tail, isFrame line = true) ∧
    (∀ stack, shown.stack = some stack → ∃ before frame later,
      lines written = before ++ frame :: later ∧ before ≠ [] ∧
        (∀ line ∈ before.tail, isFrame line = false) ∧ isFrame frame = true ∧
        (lines stack.toList).head? = some frame) ∧
    ∀ line ∈ (lines shown.message.toList).tail, isFrame line = false := by
  intro written shown
  by_cases h : ∃ line ∈ (lines written).tail, isFrame line = true
  · obtain ⟨first, before, frame, later, hlines, hbefore, hframe, hout⟩ := ofOutput_of_frame h
    have hplain : ∀ line ∈ (first :: before) ++ frame :: later, '\n' ∉ line := by
      rw [← hlines]
      exact fun _ => notMem_of_mem_lines
    have hmessage : lines (unlines (first :: before)) = first :: before :=
      lines_unlines (by simp) fun line hline => hplain line (List.mem_append_left _ hline)
    have hstack : lines (unlines (frame :: later)) = frame :: later :=
      lines_unlines (by simp) fun line hline => hplain line (List.mem_append_right _ hline)
    have hwritten : written = unlines (first :: before) ++ '\n' :: unlines (frame :: later) := by
      rw [← unlines_append (by simp) (by simp), ← hlines, unlines_lines]
    have hshown : shown = ⟨String.ofList (resetText (unlines (first :: before))),
        some (String.ofList (resetLater (unlines (frame :: later))))⟩ := by
      rw [← withResets_of_stack, ← hout]
    rw [hshown]
    refine ⟨?_, by simpa using h, ?_, ?_⟩
    · rw [hwritten, resetText_append]
      simp [whole]
    · rintro stack ⟨⟩
      refine ⟨_, frame, later, hlines, by simp, hbefore, hframe, ?_⟩
      rw [String.toList_ofList, lines_resetLater, hstack, List.map_cons, List.head?_cons,
        resetLine, if_pos hframe]
    · rw [String.toList_ofList]
      refine isFrame_of_mem_tail_resetText ?_
      rwa [hmessage, List.tail_cons]
  · have hnone : ∀ line ∈ (lines written).tail, isFrame line = false := fun line hline => by
      simpa using fun hframe => h ⟨line, hline, hframe⟩
    have hshown : shown = ofMessage (String.ofList (resetText written)) := by
      rw [← withResets_ofMessage, ← ofOutput_of_no_frame hnone]
    rw [hshown]
    refine ⟨by simp [whole, ofMessage], by simpa [ofMessage] using h, nofun, ?_⟩
    rw [ofMessage, String.toList_ofList]
    exact isFrame_of_mem_tail_resetText hnone

/-- A line behind the stack frames belongs to the stack, and is reset. -/
example : (ofOutput "no such name\n  at a.js\n1 | x\n".toList).withResets
    = ⟨"no such name", some "  at a.js\n\x1b[0m1 | x"⟩ := by decide +kernel

end Diagnosis
end ScriptWeave
