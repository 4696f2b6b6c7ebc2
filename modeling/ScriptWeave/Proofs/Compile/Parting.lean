/-
# Where message and stack are parted again

Message and stack are reset as one text, and what comes out is parted behind as many lines as the
message has.  Nothing in the text marks that place: a message may have empty lines, stack frames and
reset sequences of its own.  The count is right all the same, because resetting changes lines and
makes none.

The first line of the stack is a later line here, and is reset like one.  Alone it would be a first
line and stay as it is.

**Stated here.**  What a stack frame is, without the recogniser (`isFrame_eq_true_iff`); and that the
two parts make up the whole text reset, the message as it is reset alone, and each line of the stack
with the reset sequence in front unless it is a stack frame (`resetBoth_parts`).
-/
import Mathlib.Data.List.Forall2
import ScriptWeave.Proofs.Compile.Resetting

namespace ScriptWeave
namespace Diagnosis

open Text

/-! ## 1. Stack frames -/

/-- A stack frame: one blank or more, the word `at`, and then a blank or nothing. -/
def IsStackFrame (line : List Char) : Prop :=
  ∃ blanks rest, line = blanks ++ 'a' :: 't' :: rest ∧ blanks ≠ [] ∧
    (∀ c ∈ blanks, isBlank c = true) ∧ ∀ c ∈ rest.head?, isBlank c = true

theorem isFrame_cons_iff (c : Char) (line : List Char) :
    isFrame (c :: line) = true ↔ isBlank c = true ∧
      ∃ rest, trimStart (c :: line) = 'a' :: 't' :: rest ∧ ∀ d ∈ rest.head?, isBlank d = true := by
  simp only [isFrame, Bool.and_eq_true]
  refine and_congr_right fun _ => ?_
  split
  · next rest h => simp [h, Option.all_eq_true]
  · next h => simpa using fun rest hrest => absurd hrest (h rest)

/-- Stack frames, and only they, are recognised. -/
theorem isFrame_eq_true_iff {line : List Char} : isFrame line = true ↔ IsStackFrame line := by
  constructor
  · intro h
    cases line with
    | nil => cases h
    | cons c line =>
      obtain ⟨hc, rest, htrim, hrest⟩ := (isFrame_cons_iff c line).mp h
      obtain ⟨blanks, hline, hblanks⟩ := trimStart_eq_append (c :: line)
      rw [htrim] at hline
      refine ⟨blanks, rest, hline, ?_, hblanks, hrest⟩
      -- without blanks the blank `c` would be the `a`
      rintro rfl
      obtain ⟨rfl, -⟩ := List.cons.inj hline
      exact absurd hc (by decide)
  · rintro ⟨blanks, rest, rfl, hne, hblanks, hrest⟩
    have htrim : trimStart (blanks ++ 'a' :: 't' :: rest) = 'a' :: 't' :: rest := by
      rw [trimStart, List.dropWhile_append_of_pos hblanks]
      exact List.dropWhile_cons_of_neg (by decide)
    obtain ⟨c, blanks, rfl⟩ := List.exists_cons_of_ne_nil hne
    exact (isFrame_cons_iff c _).mpr ⟨hblanks c List.mem_cons_self, rest, htrim, hrest⟩

/-! ## 2. Lines of a stack -/

/-- A line behind the first, and what it is shown as: a stack frame as it is, any other line with
the reset sequence in front. -/
inductive ShownAs : List Char → List Char → Prop
  | frame {line : List Char} : IsStackFrame line → ShownAs line line
  | other {line : List Char} : ¬ IsStackFrame line → ShownAs line (resetCode ++ line)

theorem shownAs_resetLine (line : List Char) : ShownAs line (resetLine line) := by
  unfold resetLine
  split
  · next h => exact .frame (isFrame_eq_true_iff.mp h)
  · next h => exact .other fun hframe => h (isFrame_eq_true_iff.mpr hframe)

theorem forall₂_shownAs_resetLater (s : List Char) :
    List.Forall₂ ShownAs (lines s) (lines (resetLater s)) := by
  rw [lines_resetLater, List.forall₂_map_right_iff, List.forall₂_same]
  exact fun line _ => shownAs_resetLine line

theorem length_lines_resetText (s : List Char) :
    (lines (resetText s)).length = (lines s).length := by
  rw [lines_resetText, length_resetLines]

/-! ## 3. The two parts -/

/-- **Message and stack are parted where they were joined.**  The two parts, joined, are the whole
text reset; the message is what it would be alone; both have as many lines as before; and every line
of the stack, the first one too, is shown as a later line. -/
theorem resetBoth_parts (message stack : List Char) :
    ∃ m s, resetBoth message (some stack) = (m, some s) ∧
      m ++ '\n' :: s = resetText (message ++ '\n' :: stack) ∧
      m = resetText message ∧
      (lines m).length = (lines message).length ∧
      (lines s).length = (lines stack).length ∧
      List.Forall₂ ShownAs (lines stack) (lines s) := by
  have hshown := forall₂_shownAs_resetLater stack
  exact ⟨resetText message, resetLater stack, resetBoth_some message stack,
    (resetText_append message stack).symm, rfl, length_lines_resetText message,
    hshown.length_eq.symm, hshown⟩

/-- A message that ends in an empty line, and a stack that begins with a line of its own. -/
example : resetBoth "no\n".toList (some "Stack:\n  at a.js".toList)
    = ("no\n\x1b[0m".toList, some "\x1b[0mStack:\n  at a.js".toList) := by decide +kernel

end Diagnosis
end ScriptWeave
