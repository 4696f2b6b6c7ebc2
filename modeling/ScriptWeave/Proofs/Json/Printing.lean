/-
# What the printer writes

The printer writes a value as a text of its tokens: the characters of a text each in its one
spelling, and blanks of one kind or another between the tokens, as the style has it.

Doubles are left out.  Their digits read back by way of floating-point arithmetic, which is not
computed with in proofs; so what is said here is about values all of whose numbers are whole and
have 64 bits (`AllNumbers`).

**Stated here.**  The printer writes a text of the value's tokens (`textOf_renderAt`).  So what it
writes is read back as what the value means, in either style and up to any depth that the value
keeps to (`readWithin_render`).
-/
import ScriptWeave.Json.Printer
import ScriptWeave.Proofs.Json.Reading

namespace ScriptWeave.Json

open JsonNumber (IsWord NumberText)

/-! ## 1. Texts between quotation marks -/

theorem hexDigit_spec (n : Nat) : HexDigit (n % 16) (hexDigit n) := by
  have hlower : ∀ v < 16, v.digitChar.toLower = v.digitChar := by decide
  have hlt : n % 16 < 16 := Nat.mod_lt _ (by decide)
  exact ⟨hlt, hlower _ hlt⟩

/-- A character is escaped in one of its spellings. -/
theorem charText_escape (c : Char) : CharText c (escape c) := by
  unfold escape
  split_ifs with hquote hslash hplain hb ht hn hf hr
  · exact .short (by subst hquote; decide)
  · exact .short (by subst hslash; decide)
  · exact .plain hplain hquote hslash
  · exact .short (by subst hb; decide)
  · exact .short (by subst ht; decide)
  · exact .short (by subst hn; decide)
  · exact .short (by subst hf; decide)
  · exact .short (by subst hr; decide)
  · refine .unit ?_
    have hzero : HexDigit 0 '0' := ⟨by decide, by decide⟩
    have hunit := UnitText.mk hzero hzero (hexDigit_spec (c.toNat / 16)) (hexDigit_spec c.toNat)
    have hvalue : ((0 * 16 + 0) * 16 + c.toNat / 16 % 16) * 16 + c.toNat % 16 = c.toNat := by omega
    rwa [hvalue] at hunit

theorem stringText_escape (cs : List Char) : StringText cs (cs.flatMap escape) := by
  induction cs with
  | nil => exact .nil
  | cons c cs ih => exact .cons (charText_escape c) ih

theorem tokenText_quote (s : String) : TokenText (.string s) (quote s) :=
  .string (stringText_escape s.toList)

/-! ## 2. Rows of texts -/

theorem TextOf.blanks_append {b : List Char} (hb : IsBlanks b) {ts : List Token} {s : List Char}
    (h : TextOf ts s) : TextOf ts (b ++ s) := by
  induction b with
  | nil => exact h
  | cons c b ih =>
    exact (ih fun d hd => hb d (List.mem_cons_of_mem _ hd)).blank_cons
      (isSpace_iff.mpr (hb c List.mem_cons_self))

theorem TextOf.append {ts us : List Token} {s r : List Char} (h : TextOf ts s) (h' : TextOf us r) :
    TextOf (ts ++ us) (s ++ r) := by
  induction h with
  | nil hb => exact h'.blanks_append hb
  | cons hb hw _ ih =>
    rw [List.append_assoc, List.append_assoc, List.cons_append]
    exact .cons hb hw ih

/-- A token written without blanks. -/
theorem TextOf.token {t : Token} {w : List Char} (h : TokenText t w) : TextOf [t] w := by
  have hnone : IsBlanks [] := fun _ hc => by cases hc
  simpa using TextOf.cons hnone h (.nil hnone)

/-- Items are written one after the other, each behind its comma. -/
theorem textOf_later {α : Type} {toks : α → List Token} {text : α → List Char} {xs : List α}
    (h : ∀ x ∈ xs, TextOf (toks x) (text x)) :
    TextOf (xs.flatMap fun x => .comma :: toks x) (xs.flatMap fun x => ',' :: text x) := by
  induction xs with
  | nil => exact .nil fun _ hc => by cases hc
  | cons x xs ih =>
    have hitem := (TextOf.token .comma).append (h x List.mem_cons_self)
    exact hitem.append (ih fun y hy => h y (List.mem_cons_of_mem _ hy))

/-! ## 3. The numbers of a value -/

/-- All numbers that stand in a value are such. -/
def AllNumbers (P : JsonNumber → Prop) (v : Json) : Prop := ∀ n, Token.number n ∈ tokens v → P n

theorem allNumbers_bool {P : JsonNumber → Prop} (b : Bool) : AllNumbers P (bool b) :=
  fun n hn => by simp [tokens] at hn

theorem allNumbers_string {P : JsonNumber → Prop} (s : String) : AllNumbers P (string s) :=
  fun n hn => by simp [tokens] at hn

theorem allNumbers_array {P : JsonNumber → Prop} {items : List Json} :
    AllNumbers P (array items) ↔ ∀ v ∈ items, AllNumbers P v := by
  have hmem : ∀ n, Token.number n ∈ tokens (array items) ↔
      ∃ v ∈ items, Token.number n ∈ tokens v := by
    intro n
    cases items with
    | nil => simp [tokens]
    | cons v vs => simp [tokens, laterItems_eq]
  simp only [AllNumbers, hmem]
  grind

theorem allNumbers_object {P : JsonNumber → Prop} {members : List (String × Json)} :
    AllNumbers P (object members) ↔ ∀ m ∈ members, AllNumbers P m.2 := by
  have hmem : ∀ n, Token.number n ∈ tokens (object members) ↔
      ∃ m ∈ members, Token.number n ∈ tokens m.2 := by
    intro n
    cases members with
    | nil => simp [tokens]
    | cons m ms => simp [tokens, memberTokens, laterMembers_eq]
  simp only [AllNumbers, hmem]
  grind

theorem AllNumbers.ofMembers {P : JsonNumber → Prop} {members : List (String × Json)}
    (h : ∀ m ∈ members, AllNumbers P m.2) : AllNumbers P (ofMembers members) :=
  allNumbers_object.mpr fun m hm => h m (SortedMap.mem_of_mem_ofList hm)

/-- The number is whole and has 64 bits. -/
inductive WordNumber : JsonNumber → Prop
  | integer {n : Int} : IsWord n → WordNumber (.integer n)

/-! ## 4. The text of a value -/

theorem isBlanks_lineBreak (style : Style) (depth : Nat) : IsBlanks (style.lineBreak depth) := by
  cases style with
  | compact => exact fun _ hc => by cases hc
  | indented =>
    intro c hc
    rcases List.mem_cons.mp hc with rfl | hc
    · exact Or.inr (Or.inr (Or.inl rfl))
    · exact Or.inl (List.eq_of_mem_replicate hc)

theorem textOf_colon (style : Style) : TextOf [.colon] style.colon := by
  cases style with
  | compact => exact .token .colon
  | indented =>
    have hblank : IsBlanks [' '] := by
      intro c hc
      exact Or.inl (List.mem_singleton.mp hc)
    exact (TextOf.token .colon).append (.nil hblank)

/-- The text of an item on its line. -/
def itemText (style : Style) (depth : Nat) (v : Json) : List Char :=
  style.lineBreak depth ++ renderAt style depth v

/-- The text of a member on its line. -/
def memberText (style : Style) (depth : Nat) (m : String × Json) : List Char :=
  style.lineBreak depth ++ quote m.1 ++ style.colon ++ renderAt style depth m.2

theorem renderItems_eq (style : Style) (depth : Nat) (vs : List Json) :
    renderItems style depth vs = vs.flatMap fun v => ',' :: itemText style depth v := by
  induction vs with
  | nil => rfl
  | cons v vs ih => rw [renderItems, ih, List.flatMap_cons, itemText, List.cons_append]

theorem renderMembers_eq (style : Style) (depth : Nat) (ms : List (String × Json)) :
    renderMembers style depth ms = ms.flatMap fun m => ',' :: memberText style depth m := by
  induction ms with
  | nil => rfl
  | cons m ms ih =>
    obtain ⟨k, v⟩ := m
    rw [renderMembers, ih, List.flatMap_cons, memberText, List.cons_append]

theorem textOf_itemText {style : Style} {depth : Nat} {v : Json}
    (h : TextOf (tokens v) (renderAt style depth v)) :
    TextOf (tokens v) (itemText style depth v) :=
  h.blanks_append (isBlanks_lineBreak style depth)

theorem textOf_memberText {style : Style} {depth : Nat} {m : String × Json}
    (h : TextOf (tokens m.2) (renderAt style depth m.2)) :
    TextOf (memberTokens m) (memberText style depth m) := by
  have hkey := (TextOf.token (tokenText_quote m.1)).blanks_append (isBlanks_lineBreak style depth)
  exact (hkey.append (textOf_colon style)).append h

theorem textOf_array {style : Style} {depth : Nat} {vs : List Json}
    (h : ∀ v ∈ vs, TextOf (tokens v) (renderAt style (depth + 1) v)) :
    TextOf (tokens (array vs)) (renderAt style depth (array vs)) := by
  cases vs with
  | nil => exact (TextOf.token .openBracket).append (.token .closeBracket)
  | cons v vs =>
    have hitem := fun w hw => textOf_itemText (h w hw)
    have hlater := textOf_later fun w hw => hitem w (List.mem_cons_of_mem _ hw)
    have hclose := (TextOf.token .closeBracket).blanks_append (isBlanks_lineBreak style depth)
    have hall := (TextOf.token .openBracket).append
      ((hitem v List.mem_cons_self).append (hlater.append hclose))
    rw [tokens, laterItems_eq, renderAt, renderItems_eq]
    simpa [itemText] using hall

theorem textOf_object {style : Style} {depth : Nat} {ms : List (String × Json)}
    (h : ∀ m ∈ ms, TextOf (tokens m.2) (renderAt style (depth + 1) m.2)) :
    TextOf (tokens (object ms)) (renderAt style depth (object ms)) := by
  cases ms with
  | nil => exact (TextOf.token .openBrace).append (.token .closeBrace)
  | cons m ms =>
    have hmember := fun m hm => textOf_memberText (h m hm)
    have hlater := textOf_later fun m hm => hmember m (List.mem_cons_of_mem _ hm)
    have hclose := (TextOf.token .closeBrace).blanks_append (isBlanks_lineBreak style depth)
    have hall := (TextOf.token .openBrace).append
      ((hmember m List.mem_cons_self).append (hlater.append hclose))
    obtain ⟨k, v⟩ := m
    rw [tokens, laterMembers_eq, renderAt, renderMembers_eq]
    simpa [memberText, memberTokens] using hall

/-- **The printer writes a text of the value's tokens**, if all of its numbers are whole and have 64
bits. -/
theorem textOf_renderAt (style : Style) (depth : Nat) {v : Json} (h : AllNumbers WordNumber v) :
    TextOf (tokens v) (renderAt style depth v) := by
  induction v using inductionOn generalizing depth with
  | null => exact .token .null
  | bool b =>
    cases b with
    | true => exact .token .boolTrue
    | false => exact .token .boolFalse
  | number n =>
    obtain ⟨hword⟩ := h n List.mem_cons_self
    exact .token (.number (.integer hword))
  | string s => exact .token (tokenText_quote s)
  | array items ih =>
    rw [allNumbers_array] at h
    exact textOf_array fun v hv => ih v hv (depth + 1) (h v hv)
  | object members ih =>
    rw [allNumbers_object] at h
    exact textOf_object fun m hm => ih m hm (depth + 1) (h m hm)

theorem isText_render (style : Style) {v : Json} (h : AllNumbers WordNumber v) :
    IsText v (v.render style) := by
  rw [IsText, render, String.toList_ofList]
  exact textOf_renderAt style 0 h

/-- **What the printer writes is read back** as what the value means. -/
theorem readWithin_render (style : Style) {v : Json} {limit : Nat} (h : AllNumbers WordNumber v)
    (hlimit : v.nesting ≤ limit) : readWithin limit (v.render style) = some v.settled :=
  readWithin_eq_some_iff.mpr ⟨v, isText_render style h, hlimit, rfl⟩

end ScriptWeave.Json
