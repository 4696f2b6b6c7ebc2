/-
# What a failed command has to report

A failed command is reported by what it wrote before the first stack frame behind the first line,
and one that wrote nothing but blanks by its status.  Whether there is something to report is asked
of all that was written, and then only the part in front of the frames is reported.  Between the two
is a gap: where line ends and blanks come first, and then a stack frame, the command wrote
something, and nothing of it is in the message.

**Stated here.**  That is the only case in which a failed command reports nothing
(`compile_reports_iff`), and there is such a case (`not_hasText_of_frame_first`).
-/
import ScriptWeave.Batch.Log
import ScriptWeave.Compile.Command
import ScriptWeave.Proofs.Compile.Replies
import ScriptWeave.Proofs.Compile.Undoing

namespace ScriptWeave

/-! ## 1. Texts with something on them -/

namespace Text

/-- The text has a character that is not blank. -/
def HasText (s : List Char) : Prop := ∃ c ∈ s, isBlank c = false

instance (s : List Char) : Decidable (HasText s) := List.decidableBEx (isBlank · = false) s

section Trim

variable {s t : List Char}

theorem not_hasText_iff : ¬ HasText s ↔ ∀ c ∈ s, isBlank c = true := by
  simp [HasText]

theorem HasText.mono (h : HasText s) (hsub : s ⊆ t) : HasText t :=
  h.imp fun _ hc => ⟨hsub hc.1, hc.2⟩

theorem trimStart_eq_nil_iff : trimStart s = [] ↔ ¬ HasText s := by
  rw [trimStart, List.dropWhile_eq_nil_iff, not_hasText_iff]

theorem trimEnd_append_of_hasText (s : List Char) (h : HasText t) :
    trimEnd (s ++ t) = s ++ trimEnd t := by
  have hne : t.reverse.dropWhile isBlank ≠ [] := by
    obtain ⟨c, hc, htext⟩ := h
    exact fun hnil => by
      simpa [htext] using List.dropWhile_eq_nil_iff.mp hnil c (List.mem_reverse.mpr hc)
  rw [trimEnd, List.reverse_append, List.dropWhile_append, if_neg (by simpa using hne),
    List.reverse_append, List.reverse_reverse, trimEnd]

theorem trimEnd_append_of_not_hasText (s : List Char) (h : ¬ HasText t) :
    trimEnd (s ++ t) = trimEnd s := by
  have hnil : t.reverse.dropWhile isBlank = [] := by
    rw [List.dropWhile_eq_nil_iff]
    exact fun c hc => not_hasText_iff.mp h c (List.mem_reverse.mp hc)
  rw [trimEnd, List.reverse_append, List.dropWhile_append, hnil, List.isEmpty_nil, if_pos rfl,
    trimEnd]

/-- Trimming at the end drops blanks and nothing else. -/
theorem trimEnd_eq_append (s : List Char) :
    ∃ blanks, s = trimEnd s ++ blanks ∧ ¬ HasText blanks := by
  obtain ⟨blanks, hs, hblanks⟩ := trimStart_eq_append s.reverse
  refine ⟨blanks.reverse, ?_, ?_⟩
  · have hreverse := congrArg List.reverse hs
    rwa [List.reverse_reverse, List.reverse_append] at hreverse
  · rw [not_hasText_iff]
    exact fun c hc => hblanks c (List.mem_reverse.mp hc)

theorem hasText_trimEnd_iff : HasText (trimEnd s) ↔ HasText s := by
  obtain ⟨blanks, hs, hblanks⟩ := trimEnd_eq_append s
  constructor
  · exact fun h => h.mono fun c hc => hs ▸ List.mem_append_left blanks hc
  · rintro ⟨c, hc, htext⟩
    rw [hs] at hc
    rcases List.mem_append.mp hc with hc | hc
    · exact ⟨c, hc, htext⟩
    · exact absurd ⟨c, hc, htext⟩ hblanks

theorem isEmpty_trim_iff : (trim s).isEmpty = true ↔ ¬ HasText s := by
  rw [List.isEmpty_iff, trim, trimStart_eq_nil_iff, hasText_trimEnd_iff]

end Trim

end Text

namespace Diagnosis

open Text

/-! ## 2. Frames with nothing before them -/

/-- The first line is a stack frame. -/
def StartsWithFrame (s : List Char) : Prop :=
  ∃ frame, (lines s).head? = some frame ∧ IsStackFrame frame

/-- The first line with something on it is a stack frame, and there is a line before it. -/
def OpensWithFrame (text : List Char) : Prop :=
  ∃ front rest, text = front ++ '\n' :: rest ∧ ¬ HasText front ∧ StartsWithFrame rest

section Frames

variable {s text front rest line : List Char}

theorem IsStackFrame.hasText (h : IsStackFrame line) : HasText line := by
  obtain ⟨blanks, rest, rfl, -⟩ := h
  exact ⟨'a', by simp, by decide⟩

theorem subset_of_mem_lines (h : line ∈ lines s) : line ⊆ s := by
  have hsub := intercalate_sublist ['\n'] (List.singleton_sublist.mpr h)
  rw [List.intercalate_singleton] at hsub
  rw [← unlines_lines s]
  exact hsub.subset

theorem head?_lines (s : List Char) : (lines s).head? = some (s.takeWhile (· ≠ '\n')) := by
  rw [lines]
  induction s with
  | nil => rfl
  | cons c s ih =>
    rw [List.splitOn_cons_eq_if_modifyHead, List.takeWhile_cons]
    by_cases hc : c = '\n'
    · simp [hc]
    · simp [hc, ih]

/-- A text starts with a stack frame if its characters do: blanks, the word `at`, and then a blank,
which may be the line end, or nothing. -/
theorem startsWithFrame_iff : StartsWithFrame s ↔
    ∃ blanks rest, s = blanks ++ 'a' :: 't' :: rest ∧ blanks ≠ [] ∧
      (∀ c ∈ blanks, isBlank c = true) ∧ '\n' ∉ blanks ∧ ∀ c ∈ rest.head?, isBlank c = true := by
  simp only [StartsWithFrame, head?_lines, Option.some.injEq, exists_eq_left']
  constructor
  · rintro ⟨blanks, rest, hline, hne, hblanks, hrest⟩
    have hs : s = blanks ++ 'a' :: 't' :: (rest ++ s.dropWhile (· ≠ '\n')) := by
      conv_lhs => rw [← List.takeWhile_append_dropWhile (p := (· ≠ '\n')) (l := s), hline]
      simp
    have hplain : '\n' ∉ s.takeWhile (· ≠ '\n') := fun hmem => by
      simpa using List.all_eq_true.mp List.all_takeWhile _ hmem
    rw [hline] at hplain
    refine ⟨blanks, _, hs, hne, hblanks, fun hmem => hplain (List.mem_append_left _ hmem), ?_⟩
    cases rest with
    | cons d rest => exact hrest
    | nil =>
      -- what follows the `at` directly is the end of the line
      intro c hc
      have hend := List.head?_dropWhile_not (fun d => decide (d ≠ '\n')) s
      rw [List.nil_append] at hc
      simp only [Option.mem_def] at hc
      rw [hc] at hend
      have hc' : c = '\n' := by simpa using hend
      subst hc'
      decide
  · rintro ⟨blanks, rest, rfl, hne, hblanks, hplain, hrest⟩
    refine ⟨blanks, rest.takeWhile (· ≠ '\n'), ?_, hne, hblanks, ?_⟩
    · have hindent : ∀ c ∈ blanks, decide (c ≠ '\n') = true := fun c hc => by
        simpa using fun heq : c = '\n' => hplain (heq ▸ hc)
      rw [List.takeWhile_append_of_pos hindent]
      simp
    · intro c hc
      cases rest with
      | nil => cases hc
      | cons d rest =>
        rw [List.takeWhile_cons] at hc
        split at hc
        · exact hrest c hc
        · cases hc

theorem StartsWithFrame.hasText (h : StartsWithFrame s) : HasText s := by
  obtain ⟨blanks, rest, rfl, -⟩ := startsWithFrame_iff.mp h
  exact ⟨'a', by simp, by decide⟩

theorem StartsWithFrame.append (h : StartsWithFrame s) {blanks : List Char}
    (hblanks : ¬ HasText blanks) : StartsWithFrame (s ++ blanks) := by
  obtain ⟨indent, rest, rfl, hne, hindent, hplain, hrest⟩ := startsWithFrame_iff.mp h
  refine startsWithFrame_iff.mpr
    ⟨indent, rest ++ blanks, by simp, hne, hindent, hplain, fun c hc => ?_⟩
  cases rest with
  | nil => exact not_hasText_iff.mp hblanks c (List.mem_of_mem_head? hc)
  | cons d rest => exact hrest c hc

theorem StartsWithFrame.trimEnd (h : StartsWithFrame s) : StartsWithFrame (trimEnd s) := by
  obtain ⟨indent, rest, rfl, hne, hindent, hplain, hrest⟩ := startsWithFrame_iff.mp h
  have hword : HasText ['a', 't'] := ⟨'a', by simp, by decide⟩
  have hsplit : indent ++ 'a' :: 't' :: rest = (indent ++ ['a', 't']) ++ rest := by simp
  by_cases htext : HasText rest
  · obtain ⟨blanks, hrest', -⟩ := trimEnd_eq_append rest
    refine startsWithFrame_iff.mpr ⟨indent, Text.trimEnd rest, ?_, hne, hindent, hplain, ?_⟩
    · rw [hsplit, trimEnd_append_of_hasText _ htext]
      simp
    · rw [hrest'] at hrest
      exact fun c hc => hrest c (List.mem_head?_append_of_mem_head? hc)
  · refine startsWithFrame_iff.mpr ⟨indent, [], ?_, hne, hindent, hplain, by simp⟩
    rw [hsplit, trimEnd_append_of_not_hasText _ htext, trimEnd_append_of_hasText _ hword]
    rfl

theorem OpensWithFrame.hasText (h : OpensWithFrame text) : HasText text := by
  obtain ⟨front, rest, rfl, -, hframe⟩ := h
  exact hframe.hasText.mono fun c hc => by simp [hc]

/-- Blanks at the end make no difference to what comes first. -/
theorem opensWithFrame_trimEnd_iff : OpensWithFrame (trimEnd text) ↔ OpensWithFrame text := by
  constructor
  · rintro ⟨front, rest, htrim, hfront, hframe⟩
    obtain ⟨blanks, htext, hblanks⟩ := trimEnd_eq_append text
    refine ⟨front, rest ++ blanks, ?_, hfront, hframe.append hblanks⟩
    rw [htext, htrim, List.append_assoc, List.cons_append]
  · rintro ⟨front, rest, rfl, hfront, hframe⟩
    refine ⟨front, trimEnd rest, ?_, hfront, hframe.trimEnd⟩
    rw [List.append_cons, trimEnd_append_of_hasText _ hframe.hasText, ← List.append_cons]

/-! ## 3. Messages -/

/-- Where the frames have nothing before them, the message is what is before them. -/
theorem message_ofOutput_of_frame_first (htext : trimEnd text = front ++ '\n' :: rest)
    (hfront : ¬ HasText front) (hframe : StartsWithFrame rest) :
    (ofOutput text).message = String.ofList front := by
  obtain ⟨frame, hhead, hframe⟩ := hframe
  obtain ⟨later, hrest⟩ := List.head?_eq_some_iff.mp hhead
  obtain ⟨first, before, hlines⟩ := List.exists_cons_of_ne_nil (lines_ne_nil front)
  have hnone : ∀ line ∈ before, (!isFrame line) = true := by
    intro line hline
    rw [Bool.not_eq_true', Bool.eq_false_iff]
    intro hframe
    obtain ⟨c, hc, hblank⟩ := (isFrame_eq_true_iff.mp hframe).hasText
    have hmem : line ∈ lines front := hlines ▸ List.mem_cons_of_mem first hline
    exact hfront ⟨c, subset_of_mem_lines hmem hc, hblank⟩
  have hcut : cut (lines (trimEnd text)) = (lines front, frame :: later) := by
    rw [htext, lines_append, hrest, hlines, List.cons_append, cut,
      List.takeWhile_append_of_pos hnone, List.dropWhile_append_of_pos hnone,
      List.takeWhile_cons_of_neg (by simp [isFrame_eq_true_iff.mpr hframe]),
      List.dropWhile_cons_of_neg (by simp [isFrame_eq_true_iff.mpr hframe]), List.append_nil]
  simp only [ofOutput, hcut, unlines_lines]

/-- Where there is a frame behind the first line, what was written is the message and a stack. -/
theorem exists_stack_of_frame (h : ∃ line ∈ (lines (trimEnd text)).tail, isFrame line = true) :
    ∃ stack, trimEnd text = (ofOutput text).message.toList ++ '\n' :: stack ∧
      StartsWithFrame stack := by
  obtain ⟨first, before, frame, later, hlines, -, hframe, hout⟩ := ofOutput_of_frame h
  have hplain : ∀ line ∈ frame :: later, '\n' ∉ line := fun line hline =>
    notMem_of_mem_lines (hlines ▸ List.mem_append_right _ hline)
  have hstack : lines (unlines (frame :: later)) = frame :: later :=
    lines_unlines (List.cons_ne_nil _ _) hplain
  refine ⟨unlines (frame :: later), ?_, frame, ?_, isFrame_eq_true_iff.mp hframe⟩
  · rw [hout, String.toList_ofList,
      ← unlines_append (List.cons_ne_nil _ _) (List.cons_ne_nil _ _), ← hlines, unlines_lines]
  · rw [hstack, List.head?_cons]

/-- **The message of a text with something on it** is blank only where the text opens with a stack
frame. -/
theorem hasText_message_ofOutput_iff (h : HasText text) :
    HasText (ofOutput text).message.toList ↔ ¬ OpensWithFrame text := by
  rw [← opensWithFrame_trimEnd_iff]
  constructor
  · rintro hmessage ⟨front, rest, htrim, hfront, hframe⟩
    rw [message_ofOutput_of_frame_first htrim hfront hframe, String.toList_ofList] at hmessage
    exact hfront hmessage
  · intro hopens
    by_cases hframe : ∃ line ∈ (lines (trimEnd text)).tail, isFrame line = true
    · obtain ⟨stack, hwritten, hstack⟩ := exists_stack_of_frame hframe
      by_contra hblank
      exact hopens ⟨_, stack, hwritten, hblank, hstack⟩
    · rw [ofOutput_of_no_frame fun line hline => by simpa using fun hf => hframe ⟨line, hline, hf⟩,
        ofMessage, String.toList_ofList, hasText_trimEnd_iff]
      exact h

/-- The message of a diagnosis, as it is shown: reset by itself. -/
theorem message_withResets (d : Diagnosis) :
    d.withResets.message = String.ofList (resetText d.message.toList) := by
  cases hstack : d.stack with
  | none => simp [withResets, hstack, resetBoth]
  | some stack => simp [withResets, hstack, resetBoth_some]

end Frames

end Diagnosis

/-! ## 4. Commands -/

namespace ExternalCompiler

open Text Diagnosis

theorem hasText_message_failure_iff (compiler : ExternalCompiler) (status : Option Nat)
    (errors : String) :
    HasText (compiler.failure status errors).message.toList ↔ ¬ OpensWithFrame errors.toList := by
  rw [failure]
  split
  · next hblank =>
    have hmark : HasText (compiler.shown ++ " exited with status "
        ++ (status.map toString).getD "unknown").toList :=
      ⟨'s', by simp, by decide⟩
    have hopens : ¬ OpensWithFrame errors.toList := fun hopens =>
      isEmpty_trim_iff.mp hblank hopens.hasText
    exact iff_of_true hmark hopens
  · next htext =>
    exact hasText_message_ofOutput_iff (not_not.mp (mt isEmpty_trim_iff.mpr htext))

/-- **What a failed command has to report.**  A command that ends with a status other than zero, or
is killed, has failed.  The message has something on it unless what the command wrote opens with a
stack frame, and the log has the message behind `due to`, with resets in it. -/
theorem compile_reports_iff {compiler : ExternalCompiler} {runner : CommandRunner}
    {tree : FileTree} {past : List CompileRequest} {request : CompileRequest}
    {result : CommandResult}
    (hend : (runner (compiler.treeAfter runner tree past) (compiler.call request)).2 = .ok result)
    (hstatus : result.status ≠ some 0) :
    ∃ d, compiler.compiler runner tree past request = .error d ∧
      (HasText d.message.toList ↔ ¬ OpensWithFrame (Lenient.read result.errors).toList) ∧
      ∀ filename elapsed, ∃ shown,
        (LogLine.ofEvent elapsed (.failed filename (CompileSetup.blame filename d))).message
          = "Failed to process " ++ filename ++ " due to " ++ String.ofList shown ∧
        unresetText shown = d.message.toList := by
  refine ⟨compiler.failure result.status (Lenient.read result.errors), ?_,
    hasText_message_failure_iff _ _ _, fun filename elapsed => ⟨_, ?_, unresetText_resetText _⟩⟩
  · simp only [ExternalCompiler.compiler, hend, answer, if_neg hstatus]
  · rw [← message_withResets]
    rfl

theorem read_toUTF8 (s : String) : Lenient.read s.toUTF8 = s := by
  rw [Lenient.read, fromUTF8?_toUTF8]

/-- The runner under which every command leaves the files alone, writes these errors and ends with
status one. -/
def failingWith (errors : String) : CommandRunner :=
  fun tree _ => (tree, .ok ⟨some 1, .empty, errors.toUTF8, .written⟩)

/-- An empty line, a message, and a stack frame. -/
theorem compile_reports_bad_token :
    let compiler : ExternalCompiler := ⟨"cc", "/work"⟩
    let request : CompileRequest := ⟨"x(", ({} : OptionLayer).resolve "a.js"⟩
    let errors := "\nbad token\n  at x"
    (failingWith errors (compiler.treeAfter (failingWith errors) ∅ []) (compiler.call request)).2
      = .ok ⟨some 1, .empty, errors.toUTF8, .written⟩ ∧
    (some 1 : Option Nat) ≠ some 0 ∧
    ∃ d, compiler.compiler (failingWith errors) ∅ [] request = .error d ∧
      HasText d.message.toList := by
  intro compiler request errors
  have hstatus : (some 1 : Option Nat) ≠ some 0 := by decide
  refine ⟨rfl, hstatus, ?_⟩
  obtain ⟨d, hd, hreports, -⟩ := @compile_reports_iff compiler (failingWith errors) ∅ [] request
    ⟨some 1, .empty, errors.toUTF8, .written⟩ rfl hstatus
  refine ⟨d, hd, hreports.mpr ?_⟩
  rw [read_toUTF8]
  exact (hasText_message_ofOutput_iff (by decide +kernel)).mp (by decide +kernel)

/-- **A failed command that reports nothing**: an empty line and a stack frame. -/
theorem not_hasText_of_frame_first :
    let compiler : ExternalCompiler := ⟨"cc", "/work"⟩
    let request : CompileRequest := ⟨"x(", ({} : OptionLayer).resolve "a.js"⟩
    ∃ d, compiler.compiler (failingWith "\n  at x") ∅ [] request = .error d ∧
      ¬ HasText d.message.toList ∧
      (LogLine.ofEvent "" (.failed "a.js" (CompileSetup.blame "a.js" d))).message
        = "Failed to process a.js due to " := by
  intro compiler request
  have hanswer : compiler.compiler (failingWith "\n  at x") ∅ [] request
      = .error (compiler.failure (some 1) "\n  at x") :=
    congrArg (fun errors => Except.error (compiler.failure (some 1) errors))
      (read_toUTF8 "\n  at x")
  have hfailure : compiler.failure (some 1) "\n  at x" = ⟨"", some "  at x"⟩ := by decide +kernel
  rw [hfailure] at hanswer
  exact ⟨_, hanswer, by decide +kernel, by decide +kernel⟩

end ExternalCompiler
end ScriptWeave
