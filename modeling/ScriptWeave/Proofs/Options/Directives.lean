/-
# Directives, written and read

A directive is written as one piece behind a semicolon: its key alone if it is a flag, its key, an
equals sign and the text of its value otherwise (`spell`).  Not every table of directives has such
a text.  A key that is empty or has a semicolon or an equals sign in it cannot be written, and
neither can a text that is empty, has a semicolon in it, or is one of the two words for truth
values; an equals sign in a text does no harm, because the first one of a piece counts.  The
tables without such keys and texts are the canonical ones (`IsCanonical`).

**Stated here.**  What is read is canonical, and a canonical table is read back from its text, in
whatever order its directives are written and whatever stands before the first semicolon
(`parse_spell`).  So spelling and reading are inverse to each other.
-/
import Mathlib.Data.List.TakeWhile
import ScriptWeave.Options.Directive
import ScriptWeave.Proofs.SortedMap
import ScriptWeave.Proofs.Text.Splitting

namespace ScriptWeave

/-! ## 1. One directive -/

namespace Directive

/-- A key and a value that a piece between semicolons can write. -/
structure IsCanonical (d : String × Directive.Value) : Prop where
  key_ne : d.1 ≠ ""
  semicolon : ';' ∉ d.1.toList
  equals : '=' ∉ d.1.toList
  text : ∀ t, d.2 = .text t → t ≠ "" ∧ ';' ∉ t.toList ∧ t ≠ "true" ∧ t ≠ "false"

/-- The piece that writes a directive. -/
def spellPiece (d : String × Directive.Value) : List Char :=
  d.1.toList ++ if d.2 = .flag then [] else '=' :: d.2.toText.toList

variable {d : String × Directive.Value}

/-- A text is the value of every text but the three that mean something else. -/
theorem Value.ofText_eq_text_iff {raw t : String} :
    Value.ofText raw = .text t ↔ raw = t ∧ raw ≠ "" ∧ raw ≠ "true" ∧ raw ≠ "false" := by
  unfold Value.ofText
  split_ifs <;> simp_all

/-- The value of a canonical directive is what its text means. -/
theorem IsCanonical.ofText_toText (h : IsCanonical d) : Value.ofText d.2.toText = d.2 :=
  Value.ofText_toText fun t ht =>
    ⟨(h.text t ht).1, (h.text t ht).2.2.1, (h.text t ht).2.2.2⟩

theorem IsCanonical.semicolon_notMem_toText (h : IsCanonical d) : ';' ∉ d.2.toText.toList := by
  obtain ⟨key, value⟩ := d
  cases value with
  | flag => exact List.not_mem_nil
  | bool b => cases b <;> simp [Value.toText]
  | text t => exact (h.text t rfl).2.1

theorem IsCanonical.semicolon_notMem_spellPiece (h : IsCanonical d) : ';' ∉ spellPiece d := by
  unfold spellPiece
  rw [List.mem_append, not_or]
  refine ⟨h.semicolon, ?_⟩
  split
  · exact List.not_mem_nil
  · rw [List.mem_cons, not_or]
    exact ⟨by decide, h.semicolon_notMem_toText⟩

end Directive

namespace DirectiveTable

open Directive

variable {d : String × Directive.Value}

/-- A key is all of the piece up to the equals sign, whatever stands behind it. -/
theorem readPiece_append {key : List Char} (hkey : '=' ∉ key) (hne : key ≠ []) (raw : List Char) :
    readPiece key = some (String.ofList key, .flag) ∧
      readPiece (key ++ '=' :: raw)
        = some (String.ofList key, Directive.Value.ofText (String.ofList raw)) := by
  have hall : ∀ c ∈ key, decide (c ≠ '=') = true := fun c hc =>
    decide_eq_true fun h => hkey (h ▸ hc)
  constructor
  · have htake : key.takeWhile (· ≠ '=') = key := List.takeWhile_eq_self_iff.mpr hall
    have hdrop : key.dropWhile (· ≠ '=') = [] := List.dropWhile_eq_nil_iff.mpr hall
    simp only [readPiece, htake, hdrop, if_neg hne]
    rfl
  · have htake : (key ++ '=' :: raw).takeWhile (· ≠ '=') = key := by
      rw [List.takeWhile_append_of_pos hall]
      simp
    have hdrop : (key ++ '=' :: raw).dropWhile (· ≠ '=') = '=' :: raw := by
      rw [List.dropWhile_append_of_pos hall]
      simp
    simp only [readPiece, htake, hdrop, if_neg hne]
    rfl

/-- **A canonical directive is read back** from its piece. -/
theorem readPiece_spellPiece (h : IsCanonical d) : readPiece (spellPiece d) = some d := by
  obtain ⟨key, value⟩ := d
  have hne : key.toList ≠ [] := fun hnil => h.key_ne (String.toList_eq_nil_iff.mp hnil)
  obtain ⟨hflag, htext⟩ := readPiece_append h.equals hne value.toText.toList
  unfold spellPiece
  by_cases hv : value = .flag
  · subst hv
    simpa using hflag
  · rw [if_neg hv, htext, String.ofList_toList, String.ofList_toList]
    exact congrArg (fun v => some (key, v)) h.ofText_toText

/-- A directive that is read from a piece is canonical. -/
theorem isCanonical_of_readPiece {piece : List Char} (hs : ';' ∉ piece)
    (h : readPiece piece = some d) : IsCanonical d := by
  simp only [readPiece] at h
  split at h
  · cases h
  · next hne =>
    cases h
    -- the parts of the piece have no semicolon, because the piece has none
    have hkey : ';' ∉ piece.takeWhile (· ≠ '=') := fun hc =>
      hs ((List.takeWhile_sublist _).subset hc)
    have hraw : ';' ∉ (piece.dropWhile (· ≠ '=')).drop 1 := fun hc =>
      hs (((List.drop_sublist _ _).trans (List.dropWhile_sublist _)).subset hc)
    have hequals : '=' ∉ piece.takeWhile (· ≠ '=') := fun hc => by
      simpa using List.all_eq_true.mp List.all_takeWhile _ hc
    refine ⟨by simpa using hne, by simpa using hkey, by simpa using hequals, fun t ht => ?_⟩
    obtain ⟨rfl, hempty, htrue, hfalse⟩ := Value.ofText_eq_text_iff.mp ht
    exact ⟨hempty, by simpa using hraw, htrue, hfalse⟩

/-! ## 2. Rows of directives -/

/-- What is written behind another text is read behind it. -/
theorem written_append (s₁ s₂ : List Char) :
    written (s₁ ++ ';' :: s₂) = written s₁ ++ written (';' :: s₂) := by
  have hcut : (';' :: s₂).splitOn ';' = [[]] ++ s₂.splitOn ';' :=
    List.splitOn_append_cons_self [] s₂
  unfold written
  rw [List.splitOn_append_cons_self, hcut, ← List.filterMap_append,
    List.drop_append_of_le_length (List.length_pos_iff.mpr (List.splitOn_ne_nil ';' s₁))]
  rfl

/-- Directives as a text: each one's piece, behind a semicolon. -/
def spell (ds : List (String × Directive.Value)) : List Char :=
  ds.flatMap fun d => ';' :: spellPiece d

/-- Cutting a spelled text gives its pieces, behind the text in front. -/
theorem splitOn_append_spell {p : List Char} (hp : ';' ∉ p) {ds : List (String × Directive.Value)}
    (h : ∀ d ∈ ds, IsCanonical d) :
    (p ++ spell ds).splitOn ';' = p :: ds.map spellPiece := by
  induction ds generalizing p with
  | nil =>
    rw [spell, List.flatMap_nil, List.append_nil]
    exact List.splitOn_eq_singleton hp
  | cons d ds ih =>
    rw [spell, List.flatMap_cons, List.cons_append,
      List.splitOn_append_cons_self_of_not_mem hp]
    exact congrArg (p :: ·) (ih (h d List.mem_cons_self).semicolon_notMem_spellPiece
      fun e he => h e (List.mem_cons_of_mem _ he))

theorem filterMap_map_spellPiece {ds : List (String × Directive.Value)}
    (h : ∀ d ∈ ds, IsCanonical d) : (ds.map spellPiece).filterMap readPiece = ds := by
  induction ds with
  | nil => rfl
  | cons d ds ih =>
    rw [List.map_cons, List.filterMap_cons_some (readPiece_spellPiece (h d List.mem_cons_self)),
      ih fun e he => h e (List.mem_cons_of_mem _ he)]

/-- The directives of a spelled text are the ones spelled, in their order. -/
theorem written_append_spell {p : List Char} (hp : ';' ∉ p) {ds : List (String × Directive.Value)}
    (h : ∀ d ∈ ds, IsCanonical d) : written (p ++ spell ds) = ds := by
  unfold written
  rw [splitOn_append_spell hp h, List.drop_one, List.tail_cons]
  exact filterMap_map_spellPiece h

/-! ## 3. Tables -/

/-- The table has a text. -/
def IsCanonical (m : DirectiveTable) : Prop := ∀ d ∈ m.entries, Directive.IsCanonical d

theorem isCanonical_parse (s : List Char) : IsCanonical (parse s) := by
  intro d hd
  obtain ⟨piece, hpiece, hread⟩ := List.mem_filterMap.mp (SortedMap.mem_of_mem_ofList hd)
  exact isCanonical_of_readPiece (notMem_of_mem_splitOn (List.mem_of_mem_drop hpiece)) hread

/-- **Texts and tables of directives are inverse to each other.**  What is read is canonical, and
spelled and read again it is the same; a canonical table is read from its directives spelled in any
order, behind any text without a semicolon. -/
theorem parse_spell :
    (∀ s : List Char, IsCanonical (parse s) ∧ parse (spell (parse s).entries) = parse s) ∧
    ∀ m : DirectiveTable, IsCanonical m → ∀ ds, ds.Perm m.entries → ∀ p : List Char, ';' ∉ p →
      parse (p ++ spell ds) = m := by
  have hback : ∀ m : DirectiveTable, IsCanonical m → ∀ ds, ds.Perm m.entries →
      ∀ p : List Char, ';' ∉ p → parse (p ++ spell ds) = m := by
    intro m hm ds hds p hp
    unfold parse
    rw [written_append_spell hp fun d hd => hm d (hds.mem_iff.mp hd)]
    exact SortedMap.ofList_of_perm hds
  refine ⟨fun s => ⟨isCanonical_parse s, ?_⟩, hback⟩
  exact hback _ (isCanonical_parse s) _ (List.Perm.refl _) [] List.not_mem_nil

/-- A flag, a truth value and a text with an equals sign in it, behind a marker and against the
order of their keys. -/
theorem parse_spell_against_order :
    parse ("text/jsx".toList ++
        spell [("pragma", .text "a=b"), ("harmony", .bool true), ("bare", .flag)])
      = ⟨[("bare", .flag), ("harmony", .bool true), ("pragma", .text "a=b")], by decide⟩ := by
  refine parse_spell.2 _ ?_ _ (by decide) _ (by decide)
  intro d hd
  have hd : d = ("bare", .flag) ∨ d = ("harmony", .bool true) ∨ d = ("pragma", .text "a=b") := by
    simpa using hd
  rcases hd with rfl | rfl | rfl
  · exact ⟨by decide, by decide, by decide, by simp⟩
  · exact ⟨by decide, by decide, by decide, by simp⟩
  · exact ⟨by decide, by decide, by decide, fun t ht => by cases ht; decide⟩

end DirectiveTable

end ScriptWeave
