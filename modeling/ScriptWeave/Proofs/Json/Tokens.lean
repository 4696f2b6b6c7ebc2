/-
# The texts of tokens

Most tokens have one text.  A text between quotation marks has many: each of its characters may be
written plainly, unless it is a quotation mark, a backslash or below U+0020; by the letter of
a short escape, if it has one; or by the code of its UTF-16 units, four hexadecimal digits of either
case each, which are two units for a character beyond U+FFFF (`CharText`).  The texts of numbers are
those of `NumberText`.

A row of tokens is written with blanks before, between and behind them (`TextOf`).  Two numbers in a
row may run into one another; a row without that is `Apart`.

**Stated here.**  The tokens of a text are found in it (`tokens?_of_textOf`), and what is found is
written there (`textOf_of_tokens?`).
-/
import Mathlib.Data.List.Chain
import ScriptWeave.Json.Token
import ScriptWeave.Proofs.Json.Numbers
import ScriptWeave.Text.CaseFold

namespace ScriptWeave.Json

open JsonNumber (NumberText LiteralText Ends)

/-! ## 1. Characters between quotation marks -/

/-- A hexadecimal digit of either case. -/
def HexDigit (v : Nat) (c : Char) : Prop := v < 16 ∧ c.toLower = v.digitChar

/-- The escape of a UTF-16 unit. -/
inductive UnitText : Nat → List Char → Prop
  | mk {i j k l : Nat} {a b c d : Char} :
      HexDigit i a → HexDigit j b → HexDigit k c → HexDigit l d →
      UnitText (((i * 16 + j) * 16 + k) * 16 + l) ['\\', 'u', a, b, c, d]

/-- The letters of the short escapes and what they mean. -/
def shortEscapes : List (Char × Char) :=
  [('"', '"'), ('\\', '\\'), ('/', '/'), ('b', '\x08'), ('f', '\x0c'), ('n', '\n'), ('r', '\r'),
    ('t', '\t')]

/-- How a character is written between quotation marks. -/
inductive CharText : Char → List Char → Prop
  | plain {c : Char} : 0x20 ≤ c.toNat → c ≠ '"' → c ≠ '\\' → CharText c [c]
  | short {c e : Char} : (e, c) ∈ shortEscapes → CharText c ['\\', e]
  | unit {c : Char} {w : List Char} : UnitText c.toNat w → CharText c w
  | pair {c : Char} {high low : Nat} {w w' : List Char} :
      0xD800 ≤ high → high < 0xDC00 → 0xDC00 ≤ low → low < 0xE000 →
      c.toNat = 0x10000 + (high - 0xD800) * 0x400 + (low - 0xDC00) →
      UnitText high w → UnitText low w' → CharText c (w ++ w')

/-- How a text is written between quotation marks. -/
inductive StringText : List Char → List Char → Prop
  | nil : StringText [] []
  | cons {c : Char} {cs w ws : List Char} : CharText c w → StringText cs ws →
      StringText (c :: cs) (w ++ ws)

/-! ## 2. Reading a text -/

theorem hexDigit_of_hexValue? {c : Char} {v : Nat} (h : hexValue? c = some v) : HexDigit v c := by
  have hascii : c.toNat < 0x80 := by
    unfold hexValue? at h
    by_contra hge
    have hlarge : ∀ d : Char, d.toNat < 0x80 → ¬ c ≤ d := fun d hd hle => by
      have : c.toNat ≤ d.toNat := hle
      omega
    rw [if_neg fun hc => hlarge '9' (by decide) hc.2, if_neg fun hc => hlarge 'f' (by decide) hc.2,
      if_neg fun hc => hlarge 'F' (by decide) hc.2] at h
    cases h
  have hall := Text.forall_ascii
    (P := fun c => (hexValue? c).all (fun v => decide (v < 16 ∧ c.toLower = v.digitChar)) = true)
    (by decide +kernel) hascii
  rw [h, Option.all_some, decide_eq_true_eq] at hall
  exact hall

theorem hexValue?_of_hexDigit {c : Char} {v : Nat} (h : HexDigit v c) : hexValue? c = some v := by
  obtain ⟨hv, hc⟩ := h
  have hdigit : ∀ v < 16, v.digitChar.toNat < 0x80 := by decide
  have hascii : c.toNat < 0x80 := by
    by_contra hge
    -- beyond ASCII there are no capitals that a small letter could come from
    have hsmall : c.toLower = c := by
      unfold Char.toLower
      rw [dif_neg]
      rintro ⟨-, hle⟩
      have : c.toNat ≤ 'Z'.toNat := hle
      have : 'Z'.toNat = 90 := rfl
      omega
    have := hdigit v hv
    rw [← hc, hsmall] at this
    exact hge this
  have hall := Text.forall_ascii
    (P := fun c => ∀ v < 16, c.toLower = v.digitChar → hexValue? c = some v)
    (by decide +kernel) hascii
  exact hall v hv hc

/-- Four digits make the escape of a unit exactly if they write the unit. -/
theorem unitText_iff {n : Nat} {w : List Char} :
    UnitText n w ↔ ∃ a b c d, w = ['\\', 'u', a, b, c, d] ∧ codeUnit? a b c d = some n := by
  unfold codeUnit?
  simp only [Option.bind_eq_bind, Option.bind_eq_some_iff, Option.pure_def, Option.some.injEq]
  constructor
  · rintro ⟨hi, hj, hk, hl⟩
    exact ⟨_, _, _, _, rfl, _, hexValue?_of_hexDigit hi, _, hexValue?_of_hexDigit hj, _,
      hexValue?_of_hexDigit hk, _, hexValue?_of_hexDigit hl, rfl⟩
  · rintro ⟨a, b, c, d, rfl, i, hi, j, hj, k, hk, l, hl, rfl⟩
    exact .mk (hexDigit_of_hexValue? hi) (hexDigit_of_hexValue? hj) (hexDigit_of_hexValue? hk)
      (hexDigit_of_hexValue? hl)

theorem shortEscape?_eq_some_iff {e c : Char} :
    shortEscape? e = some c ↔ (e, c) ∈ shortEscapes := by
  unfold shortEscape? shortEscapes
  split <;> simp_all [eq_comm]

/-- A character is no half of one. -/
theorem not_surrogate (c : Char) :
    isLowSurrogate c.toNat = false ∧ isHighSurrogate c.toNat = false := by
  have hvalid : c.toNat < 0xD800 ∨ 0xDFFF < c.toNat ∧ c.toNat < 0x110000 := c.valid
  constructor
  · simp only [isLowSurrogate, Bool.and_eq_false_iff, decide_eq_false_iff_not]
    omega
  · simp only [isHighSurrogate, Bool.and_eq_false_iff, decide_eq_false_iff_not]
    omega

theorem isLowSurrogate_iff {n : Nat} : isLowSurrogate n = true ↔ 0xDC00 ≤ n ∧ n < 0xE000 := by
  simp [isLowSurrogate]

theorem isHighSurrogate_iff {n : Nat} : isHighSurrogate n = true ↔ 0xD800 ≤ n ∧ n < 0xDC00 := by
  simp [isHighSurrogate]

/-- The text of a character is read as that character. -/
theorem readString_append {c : Char} {w : List Char} (h : CharText c w) (seen rest : List Char) :
    readString seen (w ++ rest) = readString (c :: seen) rest := by
  cases h with
  | plain hlow hquote hslash =>
    rw [List.singleton_append, readString.eq_def]
    split <;> simp_all
  | @short e he =>
    have hshort := shortEscape?_eq_some_iff.mpr he
    have hu : e ≠ 'u' := by
      rintro rfl
      cases hshort
    rw [List.cons_append, List.singleton_append, readString, hshort]
    exact fun _ _ _ _ _ he _ => hu he
  | unit hu =>
    obtain ⟨hlow, hhigh⟩ := not_surrogate c
    obtain ⟨a, b, d, e, rfl, hunit⟩ := unitText_iff.mp hu
    simp only [List.cons_append, List.nil_append]
    rw [readString, hunit]
    simp only [hlow, hhigh, Bool.false_eq_true, if_false, Char.ofNat_toNat]
  | pair hh hh' hl hl' hc hu hu' =>
    have hhigh := isHighSurrogate_iff.mpr ⟨hh, hh'⟩
    have hlow := isLowSurrogate_iff.mpr ⟨hl, hl'⟩
    have hnot : isLowSurrogate _ = false := Bool.eq_false_iff.mpr fun h =>
      absurd (isLowSurrogate_iff.mp h).1 (Nat.not_le.mpr hh')
    obtain ⟨a, b, d, e, rfl, hunit⟩ := unitText_iff.mp hu
    obtain ⟨a', b', d', e', rfl, hunit'⟩ := unitText_iff.mp hu'
    simp only [List.cons_append, List.nil_append]
    rw [readString, hunit]
    simp only [hnot, hhigh, Bool.false_eq_true, if_false, if_true]
    rw [hunit']
    simp only [hlow, if_true]
    rw [joinSurrogates, ← hc, Char.ofNat_toNat]

/-- **A text is read from how it is written** between quotation marks. -/
theorem readString_stringText {cs ws : List Char} (h : StringText cs ws) (seen rest : List Char) :
    readString seen (ws ++ '"' :: rest) = some (String.ofList (seen.reverse ++ cs), rest) := by
  induction h generalizing seen with
  | nil => rw [List.nil_append, readString, List.append_nil]
  | cons hc _ ih =>
    rw [List.append_assoc, readString_append hc, ih, List.reverse_cons, List.append_assoc,
      List.singleton_append]

theorem toNat_ofNat {n : Nat} (h : n.isValidChar) : (Char.ofNat n).toNat = n := by
  unfold Char.ofNat
  rw [dif_pos h]
  rfl

/-- The text of a unit that is no surrogate is that of a character. -/
theorem charText_ofNat {n : Nat} {w : List Char} (hlow : ¬ isLowSurrogate n = true)
    (hhigh : ¬ isHighSurrogate n = true) (h : UnitText n w) : CharText (Char.ofNat n) w := by
  have hsmall : n < 0x10000 := by
    obtain ⟨⟨_, _⟩, ⟨_, _⟩, ⟨_, _⟩, ⟨_, _⟩⟩ := h
    omega
  rw [isLowSurrogate_iff] at hlow
  rw [isHighSurrogate_iff] at hhigh
  have hvalid : n.isValidChar := by
    unfold Nat.isValidChar
    omega
  refine .unit ?_
  rwa [toNat_ofNat hvalid]

/-- The text of two surrogates is that of the character they make. -/
theorem charText_joinSurrogates {high low : Nat} {w w' : List Char}
    (hhigh : isHighSurrogate high = true) (hlow : isLowSurrogate low = true) (h : UnitText high w)
    (h' : UnitText low w') : CharText (joinSurrogates high low) (w ++ w') := by
  obtain ⟨hh, hh'⟩ := isHighSurrogate_iff.mp hhigh
  obtain ⟨hl, hl'⟩ := isLowSurrogate_iff.mp hlow
  refine .pair hh hh' hl hl' ?_ h h'
  have hvalid : (0x10000 + (high - 0xD800) * 0x400 + (low - 0xDC00)).isValidChar := by
    unfold Nat.isValidChar
    omega
  exact toNat_ofNat hvalid

/-- **What is read as a text is written there**, up to its quotation mark. -/
theorem exists_of_readString {seen s rest : List Char} {x : String}
    (h : readString seen s = some (x, rest)) :
    ∃ cs ws, s = ws ++ '"' :: rest ∧ StringText cs ws ∧ x = String.ofList (seen.reverse ++ cs) := by
  -- one character more in front of what was read behind it
  have step : ∀ {c : Char} {w s seen : List Char}, CharText c w →
      (∃ cs ws, s = ws ++ '"' :: rest ∧ StringText cs ws ∧
        x = String.ofList ((c :: seen).reverse ++ cs)) →
      ∃ cs ws, w ++ s = ws ++ '"' :: rest ∧ StringText cs ws ∧
        x = String.ofList (seen.reverse ++ cs) := by
    rintro c w s seen hc ⟨cs, ws, rfl, hcs, rfl⟩
    refine ⟨c :: cs, w ++ ws, by rw [List.append_assoc], .cons hc hcs, ?_⟩
    rw [List.reverse_cons, List.append_assoc, List.singleton_append]
  fun_induction readString seen s with
  | case1 => cases h
  | case2 seen rest =>
    cases h
    exact ⟨[], [], rfl, .nil, by rw [List.append_nil]⟩
  | case6 seen a b c d high hu hnot hhigh e f g k s low hu' hlow ih =>
    have hfirst := unitText_iff.mpr ⟨a, b, c, d, rfl, hu⟩
    have hsecond := unitText_iff.mpr ⟨e, f, g, k, rfl, hu'⟩
    exact step (charText_joinSurrogates hhigh hlow hfirst hsecond) (ih h)
  | case9 seen a b c d s n hu hlow hhigh ih =>
    exact step (charText_ofNat hlow hhigh (unitText_iff.mpr ⟨a, b, c, d, rfl, hu⟩)) (ih h)
  | case10 seen e s _ c he ih => exact step (.short (shortEscape?_eq_some_iff.mp he)) (ih h)
  | case12 seen c s hquote _ _ hc ih => exact step (.plain hc.1 hquote hc.2) (ih h)
  | _ => cases h

/-! ## 3. Tokens as texts -/

/-- How a token is written. -/
inductive TokenText : Token → List Char → Prop
  | openBrace : TokenText .openBrace ['\x7b']
  | closeBrace : TokenText .closeBrace ['\x7d']
  | openBracket : TokenText .openBracket ['[']
  | closeBracket : TokenText .closeBracket [']']
  | comma : TokenText .comma [',']
  | colon : TokenText .colon [':']
  | null : TokenText .null ['n', 'u', 'l', 'l']
  | boolTrue : TokenText (.bool true) ['t', 'r', 'u', 'e']
  | boolFalse : TokenText (.bool false) ['f', 'a', 'l', 's', 'e']
  | number {n : JsonNumber} {w : List Char} : NumberText n w → TokenText (.number n) w
  | string {s : String} {w : List Char} : StringText s.toList w →
      TokenText (.string s) ('"' :: (w ++ ['"']))

/-- The blanks between tokens. -/
def IsBlanks (b : List Char) : Prop := ∀ c ∈ b, c = ' ' ∨ c = '\t' ∨ c = '\n' ∨ c = '\r'

/-- How a row of tokens is written: with blanks before, between and behind them. -/
inductive TextOf : List Token → List Char → Prop
  | nil {b : List Char} : IsBlanks b → TextOf [] b
  | cons {b w s : List Char} {t : Token} {ts : List Token} : IsBlanks b → TokenText t w →
      TextOf ts s → TextOf (t :: ts) (b ++ (w ++ s))

/-- The token is a number. -/
def Token.isNumber : Token → Bool
  | .number _ => true
  | _ => false

/-- No two numbers stand next to each other. -/
def Apart (ts : List Token) : Prop := ts.IsChain fun t u => t.isNumber = false ∨ u.isNumber = false

/-! ## 4. Reading a token -/

/-- What a text can begin with. -/
theorem exists_of_literalText {l : JsonNumber.Literal} {w : List Char} (h : LiteralText l w) :
    ∃ c s, w = c :: s ∧ (c = '-' ∨ c.isDigit = true) := by
  obtain ⟨negative, ⟨⟨hne, hall⟩, -⟩, -, -⟩ := h
  next whole f e fraction exponent =>
  cases whole with
  | nil => exact absurd rfl hne
  | cons d ds =>
    cases negative with
    | true => exact ⟨'-', _, rfl, Or.inl rfl⟩
    | false => exact ⟨d, _, rfl, Or.inr (hall d List.mem_cons_self)⟩

/-- A text that begins with a minus sign or a digit is read as a number. -/
theorem readToken_of_digit {c : Char} (h : c = '-' ∨ c.isDigit = true) (s : List Char) :
    readToken (c :: s) = do
      let (literal, rest) ← JsonNumber.Literal.read (c :: s)
      let n ← literal.value?
      return (.number n, rest) := by
  have hother : ∀ d : Char, (d = '-' ∨ d.isDigit = true) = False → c ≠ d := fun d hd heq => by
    rw [heq, hd] at h
    exact h
  rw [readToken.eq_def]
  split
  case h_11 => rfl
  all_goals
    next heq =>
      obtain ⟨rfl, -⟩ := List.cons.inj heq
      exact absurd rfl (hother _ (by decide))

/-- **A token is read from its text.**  A number is read up to where it ends. -/
theorem readToken_append {t : Token} {w rest : List Char} (h : TokenText t w)
    (hrest : t.isNumber = true → Ends rest) : readToken (w ++ rest) = some (t, rest) := by
  cases h with
  | number hn =>
    obtain ⟨l, hw, hv⟩ := JsonNumber.numberText_iff.mp hn
    have hread := JsonNumber.read_append hw (hrest rfl)
    obtain ⟨c, s, rfl, hc⟩ := exists_of_literalText hw
    rw [List.cons_append] at hread ⊢
    rw [readToken_of_digit hc, hread]
    simp only [Option.bind_eq_bind, Option.bind_some, hv]
    rfl
  | string hs =>
    have hread := readString_stringText hs [] rest
    rw [List.cons_append, List.append_assoc, List.singleton_append, readToken, hread]
    simp
  | _ => rfl

/-- **What is read as a token is written there.** -/
theorem exists_of_readToken {t : Token} {s rest : List Char} (h : readToken s = some (t, rest)) :
    ∃ w, s = w ++ rest ∧ TokenText t w := by
  unfold readToken at h
  split at h
  case h_7 s =>
    obtain ⟨⟨x, s'⟩, hread, hx⟩ := Option.map_eq_some_iff.mp h
    cases hx
    obtain ⟨cs, ws, rfl, hcs, rfl⟩ := exists_of_readString hread
    refine ⟨'"' :: (ws ++ ['"']), by simp, .string ?_⟩
    simpa using hcs
  case h_11 =>
    simp only [Option.bind_eq_bind, Option.bind_eq_some_iff, Option.pure_def, Option.some.injEq,
      Prod.mk.injEq, Prod.exists] at h
    obtain ⟨l, s', hread, n, hv, rfl, rfl⟩ := h
    obtain ⟨w, rfl, hw⟩ := JsonNumber.exists_of_read hread
    exact ⟨w, rfl, .number (JsonNumber.numberText_iff.mpr ⟨l, hw, hv⟩)⟩
  all_goals
    cases h
    exact ⟨_, rfl, by constructor⟩

/-! ## 5. Rows of tokens -/

theorem isSpace_iff {c : Char} : isSpace c = true ↔ c = ' ' ∨ c = '\t' ∨ c = '\n' ∨ c = '\r' := by
  simp [isSpace, or_assoc]

/-- Blanks are passed by, one step for each. -/
theorem tokensWithin_blanks {b : List Char} (hb : IsBlanks b) (seen : List Token) (s : List Char)
    (n : Nat) : tokensWithin (b.length + n) seen (b ++ s) = tokensWithin n seen s := by
  induction b with
  | nil => rw [List.length_nil, Nat.zero_add, List.nil_append]
  | cons c b ih =>
    have hc := isSpace_iff.mpr (hb c List.mem_cons_self)
    have hsteps : (c :: b).length + n = b.length + n + 1 := by
      rw [List.length_cons]
      omega
    rw [hsteps, List.cons_append, tokensWithin, if_pos hc]
    exact ih fun d hd => hb d (List.mem_cons_of_mem _ hd)

/-- The first character of a token is no blank. -/
theorem TokenText.exists_cons {t : Token} {w : List Char} (h : TokenText t w) :
    ∃ c s, w = c :: s ∧ isSpace c = false ∧
      (t.isNumber = false → c.isDigit = false ∧ c ≠ '.' ∧ c ≠ 'e' ∧ c ≠ 'E') := by
  cases h with
  | number hn =>
    obtain ⟨l, hw, -⟩ := JsonNumber.numberText_iff.mp hn
    obtain ⟨c, s, rfl, hc⟩ := exists_of_literalText hw
    refine ⟨c, s, rfl, ?_, fun h => by cases h⟩
    rw [Bool.eq_false_iff, ne_eq, isSpace_iff]
    rintro (rfl | rfl | rfl | rfl) <;> exact absurd hc (by decide)
  | string _ => exact ⟨_, _, rfl, by decide, fun _ => by decide⟩
  | _ => exact ⟨_, _, rfl, by decide, fun _ => by decide⟩

/-- A number ends where tokens follow of which the first is no number. -/
theorem TextOf.ends {ts : List Token} {s : List Char} (h : TextOf ts s)
    (hfirst : ∀ t us, ts = t :: us → t.isNumber = false) : Ends s := by
  -- it is enough to look at the first character
  have of_head : (∀ c r, s = c :: r → c.isDigit = false ∧ c ≠ '.' ∧ c ≠ 'e' ∧ c ≠ 'E') → Ends s :=
    fun hc => ⟨fun c r hs => (hc c r hs).1, fun r hs => (hc _ r hs).2.1 rfl,
      fun c r hs => (hc c r hs).2.2⟩
  have of_blank : ∀ c, (c = ' ' ∨ c = '\t' ∨ c = '\n' ∨ c = '\r') →
      c.isDigit = false ∧ c ≠ '.' ∧ c ≠ 'e' ∧ c ≠ 'E' := by
    rintro c (rfl | rfl | rfl | rfl) <;> decide
  refine of_head fun c r hs => ?_
  cases h with
  | nil hb => exact of_blank c (hb c (hs ▸ List.mem_cons_self))
  | @cons b w _ t ts hb hw _ =>
    cases b with
    | cons d b =>
      obtain ⟨rfl, -⟩ := List.cons.inj hs
      exact of_blank d (hb d List.mem_cons_self)
    | nil =>
      obtain ⟨d, _, rfl, -, hd⟩ := hw.exists_cons
      obtain ⟨rfl, -⟩ := List.cons.inj hs
      exact hd (hfirst t ts rfl)

theorem tokensWithin_of_textOf {ts : List Token} {s : List Char} (h : TextOf ts s)
    (hts : Apart ts) (seen : List Token) {n : Nat} (hn : s.length ≤ n) :
    tokensWithin n seen s = some (seen.reverse ++ ts) := by
  induction h generalizing seen n with
  | nil hb =>
    next b =>
    have hblanks := tokensWithin_blanks hb seen [] (n - b.length)
    have hsteps : b.length + (n - b.length) = n := by omega
    rw [hsteps, List.append_nil] at hblanks
    rw [hblanks, tokensWithin, List.append_nil]
  | @cons b w s t ts hb hw hs ih =>
    have hlater : Apart ts := hts.tail
    have hends : t.isNumber = true → Ends s := by
      intro ht
      refine hs.ends fun u us hu => ?_
      subst hu
      exact ((List.isChain_cons_cons.mp hts).1).resolve_left (by simp [ht])
    obtain ⟨c, r, rfl, hc, -⟩ := hw.exists_cons
    have hread := readToken_append hw hends
    rw [List.length_append, List.length_append, List.length_cons] at hn
    obtain ⟨m, rfl⟩ : ∃ m, n = b.length + (m + 1) := ⟨n - b.length - 1, by omega⟩
    rw [tokensWithin_blanks hb, List.cons_append, tokensWithin, if_neg (by simp [hc]),
      ← List.cons_append, hread]
    dsimp only
    rw [ih hlater (t :: seen) (by omega), List.reverse_cons, List.append_assoc,
      List.singleton_append]

/-- **The tokens of a text are found in it**, if no two of them are numbers in a row. -/
theorem tokens?_of_textOf {ts : List Token} {s : List Char} (h : TextOf ts s) (hts : Apart ts) :
    tokens? s = some ts :=
  tokensWithin_of_textOf h hts [] (Nat.le_refl _)

theorem TextOf.blank_cons {c : Char} (hc : isSpace c = true) {ts : List Token} {s : List Char}
    (h : TextOf ts s) : TextOf ts (c :: s) := by
  have hcons : ∀ b, IsBlanks b → IsBlanks (c :: b) := fun b hb d hd => by
    rcases List.mem_cons.mp hd with rfl | hd
    · exact isSpace_iff.mp hc
    · exact hb d hd
  cases h with
  | nil hb => exact .nil (hcons _ hb)
  | @cons b _ _ _ _ hb hw hs => exact .cons (hcons b hb) hw hs

theorem exists_of_tokensWithin {n : Nat} {seen ts : List Token} {s : List Char}
    (h : tokensWithin n seen s = some ts) : ∃ us, ts = seen.reverse ++ us ∧ TextOf us s := by
  fun_induction tokensWithin n seen s with
  | case1 n seen =>
    cases h
    exact ⟨[], by rw [List.append_nil], .nil fun _ hc => by cases hc⟩
  | case2 => cases h
  | case3 n seen c s hc ih =>
    obtain ⟨us, rfl, hus⟩ := ih h
    exact ⟨us, rfl, hus.blank_cons hc⟩
  | case4 n seen c s hc t s' hread ih =>
    obtain ⟨us, rfl, hus⟩ := ih h
    obtain ⟨w, hw, htext⟩ := exists_of_readToken hread
    refine ⟨t :: us, by simp, ?_⟩
    rw [hw]
    exact .cons (b := []) (fun _ hc => by cases hc) htext hus
  | case5 => cases h

/-- **What is found in a text is written there.** -/
theorem textOf_of_tokens? {ts : List Token} {s : List Char} (h : tokens? s = some ts) :
    TextOf ts s := by
  obtain ⟨us, rfl, hus⟩ := exists_of_tokensWithin h
  exact hus

end ScriptWeave.Json
