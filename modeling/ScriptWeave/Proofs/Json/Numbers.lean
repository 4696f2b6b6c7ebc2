/-
# The texts of numbers

A number is written by a literal: perhaps a minus sign, a whole part whose first digit is a zero
only if it is the only one, perhaps a fraction, and perhaps an exponent behind a mark of either case
(`LiteralText`).  A literal ends where no further character could belong to a number (`Ends`).

A whole number of 64 bits, signed or unsigned, has one text only, its decimal digits behind the sign
(`NumberText`).  Whatever else a literal writes is a double, among it the whole numbers that are
too large and minus zero.

**Stated here.**  Reading takes a literal whole, up to where it ends (`read_append`), and takes
nothing but literals (`exists_of_read`).  The literals that have a number as their value are exactly
its texts (`numberText_iff`).
-/
import Mathlib.Data.List.Induction
import Mathlib.Data.List.TakeDrop
import Mathlib.Data.List.TakeWhile
import ScriptWeave.Json.Number

namespace ScriptWeave.JsonNumber

/-! ## 1. Literals as texts -/

/-- One or more decimal digits. -/
structure IsDigits (ds : List Char) : Prop where
  ne_nil : ds ≠ []
  isDigit : ∀ c ∈ ds, c.isDigit = true

/-- The digits of a whole number: a zero in front stands alone. -/
structure IsWhole (ds : List Char) : Prop extends IsDigits ds where
  zero : ∀ rest, ds = '0' :: rest → rest = []

/-- How a fraction is written, if there is one. -/
inductive FractionText : Option (List Char) → List Char → Prop
  | absent : FractionText none []
  | digits {ds : List Char} : IsDigits ds → FractionText (some ds) ('.' :: ds)

/-- How the sign of an exponent is written. -/
inductive SignText : Bool → List Char → Prop
  | absent : SignText false []
  | plus : SignText false ['+']
  | minus : SignText true ['-']

/-- How an exponent is written, if there is one. -/
inductive ExponentText : Option ExponentPart → List Char → Prop
  | absent : ExponentText none []
  | digits {mark : Char} {negative : Bool} {sign ds : List Char} : mark = 'e' ∨ mark = 'E' →
      SignText negative sign → IsDigits ds →
      ExponentText (some ⟨negative, ds⟩) (mark :: (sign ++ ds))

/-- How a literal is written. -/
inductive LiteralText : Literal → List Char → Prop
  | mk {whole f e : List Char} {fraction : Option (List Char)} {exponent : Option ExponentPart}
      (negative : Bool) : IsWhole whole → FractionText fraction f → ExponentText exponent e →
      LiteralText ⟨negative, whole, fraction, exponent⟩
        ((if negative then ['-'] else []) ++ (whole ++ (f ++ e)))

/-- No character that could belong to a number stands here. -/
structure Ends (rest : List Char) : Prop where
  digit : ∀ c s, rest = c :: s → c.isDigit = false
  point : ∀ s, rest ≠ '.' :: s
  mark : ∀ c s, rest = c :: s → c ≠ 'e' ∧ c ≠ 'E'

/-! ## 2. Runs of digits -/

/-- No digit stands here. -/
def NoDigit (rest : List Char) : Prop := ∀ c s, rest = c :: s → c.isDigit = false

theorem spanDigits_append {ds rest : List Char} (h : ∀ c ∈ ds, c.isDigit = true)
    (hrest : NoDigit rest) : spanDigits (ds ++ rest) = (ds, rest) := by
  have hnone : rest.takeWhile Char.isDigit = [] ∧ rest.dropWhile Char.isDigit = rest := by
    cases rest with
    | nil => exact ⟨rfl, rfl⟩
    | cons c s => simp [hrest c s rfl]
  rw [spanDigits, List.span_eq_takeWhile_dropWhile, List.takeWhile_append_of_pos h,
    List.dropWhile_append_of_pos h, hnone.1, hnone.2, List.append_nil]

theorem of_spanDigits {s ds rest : List Char} (h : spanDigits s = (ds, rest)) :
    s = ds ++ rest ∧ ∀ c ∈ ds, c.isDigit = true := by
  rw [spanDigits, List.span_eq_takeWhile_dropWhile] at h
  cases h
  exact ⟨List.takeWhile_append_dropWhile.symm, fun _ hc =>
    List.all_eq_true.mp List.all_takeWhile _ hc⟩

theorem noDigit_cons {c : Char} (h : c.isDigit = false) (s : List Char) : NoDigit (c :: s) := by
  rintro _ _ ⟨rfl, rfl⟩
  exact h

/-! ## 3. Reading a literal from its text -/

section Read

variable {rest : List Char}

theorem readFraction_append {fraction : Option (List Char)} {f : List Char}
    (h : FractionText fraction f) (hdigit : NoDigit rest) (hpoint : ∀ s, rest ≠ '.' :: s) :
    readFraction (f ++ rest) = some (fraction, rest) := by
  cases h with
  | absent =>
    rw [List.nil_append]
    unfold readFraction
    split
    · exact absurd rfl (hpoint _)
    · rfl
  | @digits ds hds =>
    obtain ⟨hne, hall⟩ := hds
    cases ds with
    | nil => exact absurd rfl hne
    | cons d ds =>
      rw [List.cons_append, readFraction, spanDigits_append hall hdigit]

theorem readSign_append {negative : Bool} {sign body : List Char} (h : SignText negative sign)
    (hbody : ∀ c s, body = c :: s → c.isDigit = true) :
    readSign (sign ++ body) = (negative, body) := by
  cases h with
  | plus => rfl
  | minus => rfl
  | absent =>
    -- a digit is no sign
    rw [List.nil_append]
    unfold readSign
    split
    · exact absurd (hbody _ _ rfl) (by decide)
    · exact absurd (hbody _ _ rfl) (by decide)
    · rfl

theorem exists_of_readSign (s : List Char) :
    ∃ sign, s = sign ++ (readSign s).2 ∧ SignText (readSign s).1 sign := by
  unfold readSign
  split
  · exact ⟨['-'], rfl, .minus⟩
  · exact ⟨['+'], rfl, .plus⟩
  · exact ⟨[], rfl, .absent⟩

theorem readExponent_append {exponent : Option ExponentPart} {e : List Char}
    (h : ExponentText exponent e) (hrest : Ends rest) :
    readExponent (e ++ rest) = some (exponent, rest) := by
  cases h with
  | absent =>
    rw [List.nil_append]
    cases rest with
    | nil => rfl
    | cons c s =>
      obtain ⟨he, hE⟩ := hrest.mark c s rfl
      rw [readExponent, if_neg (not_or.mpr ⟨he, hE⟩)]
  | @digits mark negative sign ds hmark hsign hds =>
    obtain ⟨hne, hall⟩ := hds
    cases ds with
    | nil => exact absurd rfl hne
    | cons d ds =>
      have hfirst : ∀ c s, d :: ds ++ rest = c :: s → c.isDigit = true := by
        rintro c s ⟨rfl, -⟩
        exact hall _ List.mem_cons_self
      rw [List.cons_append, List.append_assoc, readExponent, if_pos hmark,
        readSign_append hsign hfirst, spanDigits_append hall hrest.digit]

theorem readWhole_append {whole : List Char} (h : IsWhole whole) (hrest : NoDigit rest) :
    readWhole (whole ++ rest) = some (whole, rest) := by
  obtain ⟨⟨hne, hall⟩, hzero⟩ := h
  cases whole with
  | nil => exact absurd rfl hne
  | cons d ds =>
    by_cases hd : d = '0'
    · subst hd
      rw [hzero ds rfl]
      rfl
    · rw [readWhole.eq_def]
      split
      · next heq => exact absurd (List.cons.inj heq).1 hd
      · rw [spanDigits_append hall hrest]

theorem FractionText.noDigit {fraction : Option (List Char)} {f : List Char}
    (h : FractionText fraction f) (hrest : NoDigit rest) : NoDigit (f ++ rest) := by
  cases h with
  | absent => exact hrest
  | digits _ => exact noDigit_cons (by decide) _

theorem ExponentText.noDigit {exponent : Option ExponentPart} {e : List Char}
    (h : ExponentText exponent e) (hrest : NoDigit rest) : NoDigit (e ++ rest) := by
  cases h with
  | absent => exact hrest
  | digits hmark _ _ =>
    refine noDigit_cons ?_ _
    rcases hmark with rfl | rfl <;> decide

theorem ExponentText.ne_point {exponent : Option ExponentPart} {e : List Char}
    (h : ExponentText exponent e) (hrest : ∀ s, rest ≠ '.' :: s) (s : List Char) :
    e ++ rest ≠ '.' :: s := by
  cases h with
  | absent => exact hrest s
  | digits hmark _ _ => rcases hmark with rfl | rfl <;> simp

/-- **Reading finds every literal**, up to where it ends. -/
theorem read_append {l : Literal} {w : List Char} (h : LiteralText l w) (hrest : Ends rest) :
    Literal.read (w ++ rest) = some (l, rest) := by
  obtain ⟨negative, hwhole, hf, he⟩ := h
  next whole f e fraction exponent =>
  have hstep : readUnsigned negative (whole ++ (f ++ (e ++ rest)))
      = some (⟨negative, whole, fraction, exponent⟩, rest) := by
    have hnext := he.noDigit hrest.digit
    rw [readUnsigned, readWhole_append hwhole (hf.noDigit hnext)]
    simp only [Option.bind_eq_bind, Option.bind_some]
    rw [readFraction_append hf hnext (he.ne_point hrest.point)]
    simp only [Option.bind_some]
    rw [readExponent_append he hrest]
    rfl
  cases negative with
  | true =>
    rw [if_pos rfl, List.singleton_append, List.cons_append, List.append_assoc, List.append_assoc]
    exact hstep
  | false =>
    simp only [Bool.false_eq_true, if_false, List.nil_append, List.append_assoc]
    -- a digit is no minus sign
    unfold Literal.read
    split
    · next heq =>
      obtain ⟨⟨hne, hall⟩, -⟩ := hwhole
      cases whole with
      | nil => exact absurd rfl hne
      | cons d ds =>
        have hd := hall d List.mem_cons_self
        obtain ⟨rfl, -⟩ := List.cons.inj heq
        exact absurd hd (by decide)
    · exact hstep

/-! ## 4. The text that a literal was read from -/

theorem exists_of_readWhole {s whole : List Char} (h : readWhole s = some (whole, rest)) :
    s = whole ++ rest ∧ IsWhole whole := by
  unfold readWhole at h
  split at h
  · cases h
    have hzero : ∀ c ∈ ['0'], c.isDigit = true := List.forall_mem_singleton.mpr rfl
    exact ⟨rfl, ⟨List.cons_ne_nil _ _, hzero⟩, fun r hr => (List.cons.inj hr).2.symm⟩
  · next hzero =>
    split at h
    · cases h
    · next ds r hne hspan =>
      cases h
      obtain ⟨rfl, hall⟩ := of_spanDigits hspan
      exact ⟨rfl, ⟨hne, hall⟩, fun r hr => absurd (congrArg (· ++ rest) hr) (hzero _)⟩

theorem exists_of_readFraction {s : List Char} {fraction : Option (List Char)}
    (h : readFraction s = some (fraction, rest)) : ∃ f, s = f ++ rest ∧ FractionText fraction f := by
  unfold readFraction at h
  split at h
  · split at h
    · cases h
    · next hne hspan =>
      cases h
      obtain ⟨rfl, hall⟩ := of_spanDigits hspan
      exact ⟨_, rfl, .digits ⟨hne, hall⟩⟩
  · cases h
    exact ⟨[], rfl, .absent⟩

theorem exists_of_readExponent {s : List Char} {exponent : Option ExponentPart}
    (h : readExponent s = some (exponent, rest)) :
    ∃ e, s = e ++ rest ∧ ExponentText exponent e := by
  cases s with
  | nil =>
    cases h
    exact ⟨[], rfl, .absent⟩
  | cons c s =>
    rw [readExponent] at h
    split at h
    · next hmark =>
      split at h
      · cases h
      · next ds r hne hspan =>
        cases h
        obtain ⟨hbody, hall⟩ := of_spanDigits hspan
        obtain ⟨sign, hs, hsign⟩ := exists_of_readSign s
        refine ⟨c :: (sign ++ ds), ?_, .digits hmark hsign ⟨hne, hall⟩⟩
        rw [List.cons_append, List.append_assoc, ← hbody, ← hs]
    · cases h
      exact ⟨[], rfl, .absent⟩

theorem exists_of_readUnsigned {negative : Bool} {s : List Char} {l : Literal}
    (h : readUnsigned negative s = some (l, rest)) :
    ∃ w, s = w ++ rest ∧ LiteralText l ((if negative then ['-'] else []) ++ w) := by
  rw [readUnsigned] at h
  simp only [Option.bind_eq_bind, Option.bind_eq_some_iff, Option.pure_def, Option.some.injEq,
    Prod.mk.injEq, Prod.exists] at h
  obtain ⟨whole, s₁, hw, fraction, s₂, hf, exponent, s₃, he, rfl, rfl⟩ := h
  obtain ⟨rfl, hwhole⟩ := exists_of_readWhole hw
  obtain ⟨f, rfl, hfraction⟩ := exists_of_readFraction hf
  obtain ⟨e, rfl, hexponent⟩ := exists_of_readExponent he
  exact ⟨whole ++ (f ++ e), by simp, .mk negative hwhole hfraction hexponent⟩

/-- **What is read is the text of a literal.** -/
theorem exists_of_read {s : List Char} {l : Literal} (h : Literal.read s = some (l, rest)) :
    ∃ w, s = w ++ rest ∧ LiteralText l w := by
  unfold Literal.read at h
  split at h
  · obtain ⟨w, rfl, hw⟩ := exists_of_readUnsigned h
    exact ⟨'-' :: w, rfl, hw⟩
  · exact exists_of_readUnsigned h

end Read

/-! ## 5. Decimal digits -/

theorem ofDigits_eq (ds : List Char) : ofDigits ds = Nat.ofDigitChars 10 ds 0 := by
  unfold ofDigits Nat.ofDigitChars digitValue
  congr 1
  funext n c
  rw [Nat.mul_comm]

theorem ofDigits_toDigits (n : Nat) : ofDigits (Nat.toDigits 10 n) = n := by
  rw [ofDigits_eq]
  exact Nat.ofDigitChars_ten_toDigits

theorem ofDigits_concat (ds : List Char) (c : Char) :
    ofDigits (ds ++ [c]) = 10 * ofDigits ds + digitValue c := by
  rw [ofDigits, List.foldl_append, List.foldl_cons, List.foldl_nil, Nat.mul_comm]
  rfl

/-- The value of a digit is below ten, and the digit is the one of that value. -/
theorem digitValue_spec {c : Char} (h : c.isDigit = true) :
    digitValue c < 10 ∧ (digitValue c).digitChar = c := by
  obtain ⟨hlow, hhigh⟩ := Char.isDigit_iff_toNat.mp h
  have hlow : 48 ≤ c.toNat := hlow
  have hhigh : c.toNat ≤ 57 := hhigh
  have hv : digitValue c = c.toNat - 48 := rfl
  refine ⟨by omega, Char.toNat_inj.mp ?_⟩
  rw [Nat.toNat_digitChar_of_lt_ten (by omega)]
  omega

/-- Decimal digits have no zero in front, but for zero itself. -/
theorem isWhole_toDigits (n : Nat) : IsWhole (Nat.toDigits 10 n) where
  ne_nil := Nat.toDigits_ne_nil
  isDigit := fun _ hc => Nat.isDigit_of_mem_toDigits (by decide) (by decide) hc
  zero := by
    induction n using Nat.strongRecOn with
    | ind n ih =>
      intro rest hrest
      rw [Nat.toDigits_eq_if (by decide)] at hrest
      split at hrest
      · exact (List.cons.inj hrest).2.symm
      · -- the digits of a tenth begin with the same digit
        cases hd : Nat.toDigits 10 (n / 10) with
        | nil => exact absurd hd Nat.toDigits_ne_nil
        | cons c ds =>
          rw [hd] at hrest
          obtain ⟨rfl, -⟩ := List.cons.inj hrest
          obtain rfl := ih (n / 10) (by omega) ds hd
          have hzero := ofDigits_toDigits (n / 10)
          rw [hd] at hzero
          have hnone : n / 10 = 0 := hzero.symm
          omega

theorem IsWhole.of_concat {ds : List Char} {c : Char} (h : IsWhole (ds ++ [c])) (hne : ds ≠ []) :
    IsWhole ds ∧ ds ≠ ['0'] := by
  refine ⟨⟨⟨hne, fun d hd => h.isDigit d (List.mem_append_left _ hd)⟩, fun rest hrest => ?_⟩, ?_⟩
  · have := h.zero (rest ++ [c]) (by rw [hrest]; rfl)
    simp at this
  · rintro rfl
    have := h.zero [c] rfl
    simp at this

/-- A whole part is the digits of the number it writes. -/
theorem toDigits_ofDigits {ds : List Char} (h : IsWhole ds) : Nat.toDigits 10 (ofDigits ds) = ds := by
  induction ds using List.reverseRecOn with
  | nil => exact absurd rfl h.ne_nil
  | append_singleton ds c ih =>
    obtain ⟨hlt, hchar⟩ := digitValue_spec (h.isDigit c (by simp))
    rw [ofDigits_concat]
    by_cases hne : ds = []
    · subst hne
      have hone : 10 * ofDigits [] + digitValue c = digitValue c := by simp [ofDigits]
      rw [hone, Nat.toDigits_of_lt_base hlt, hchar, List.nil_append]
    · obtain ⟨hwhole, hzero⟩ := h.of_concat hne
      have hback := ih hwhole
      have hpos : ofDigits ds ≠ 0 := by
        intro h0
        rw [h0] at hback
        exact hzero hback.symm
      rw [Nat.toDigits_of_base_le (by decide) (by omega)]
      have hdiv : (10 * ofDigits ds + digitValue c) / 10 = ofDigits ds := by omega
      have hmod : (10 * ofDigits ds + digitValue c) % 10 = digitValue c := by omega
      rw [hdiv, hmod, hback, hchar]

/-! ## 6. Whole numbers -/

/-- Digits behind a number make it no smaller. -/
theorem le_foldl_digits (ds : List Char) (n : Nat) :
    n ≤ ds.foldl (fun n c => n * 10 + digitValue c) n := by
  induction ds generalizing n with
  | nil => exact Nat.le_refl n
  | cons c ds ih =>
    rw [List.foldl_cons]
    exact Nat.le_trans (by omega) (ih _)

/-- No digit is left exactly if the number stays below the limit, and then it is gathered. -/
theorem gather_spec (ds : List Char) {n : Nat} (taken : Nat) (hn : n < Nat.pow 2 64) :
    ((gather n taken ds).2.2 = 0 ↔
        ds.foldl (fun n c => n * 10 + digitValue c) n < Nat.pow 2 64) ∧
      ((gather n taken ds).2.2 = 0 →
        (gather n taken ds).1 = ds.foldl (fun n c => n * 10 + digitValue c) n) := by
  induction ds generalizing n taken with
  | nil => simpa [gather] using hn
  | cons c ds ih =>
    rw [gather, List.foldl_cons]
    split
    · next hlt => exact ih (taken + 1) hlt
    · next hge =>
      have hle := le_foldl_digits ds (n * 10 + digitValue c)
      refine ⟨⟨fun h => ?_, fun h => ?_⟩, fun h => ?_⟩
      · exact absurd h (Nat.succ_ne_zero _)
      · exact absurd (Nat.lt_of_le_of_lt hle h) hge
      · exact absurd h (Nat.succ_ne_zero _)

/-- A whole number of 64 bits, signed or unsigned. -/
def IsWord (n : Int) : Prop := -Int.pow 2 63 ≤ n ∧ n < Int.pow 2 64

theorem isWord_iff {n : Int} :
    IsWord n ↔ -9223372036854775808 ≤ n ∧ n < 18446744073709551616 := Iff.rfl

/-- A double is no whole number. -/
theorem double?_ne_integer {negative : Bool} {significand : Nat} {exponent n : Int} :
    double? negative significand exponent ≠ some (.integer n) := by
  unfold double?
  intro h
  obtain ⟨_, _, h⟩ := Option.map_eq_some_iff.mp h
  cases h

/-- A literal with a fraction, an exponent or too many digits writes no whole number. -/
theorem value?_ne_integer {l : Literal} {n : Int}
    (h : l.fraction ≠ none ∨ l.exponent ≠ none ∨ Nat.pow 2 64 ≤ ofDigits l.whole) :
    l.value? ≠ some (.integer n) := by
  obtain ⟨negative, whole, fraction, exponent⟩ := l
  have hspec := (gather_spec whole 0 (show 0 < Nat.pow 2 64 by decide)).1
  intro hv
  unfold Literal.value? at hv
  split at hv
  next significand taken beyond hg =>
    rw [hg] at hspec
    split at hv
    · -- the fast path: neither fraction nor exponent, and no digit left
      next hf he =>
      rcases h with h | h | h
      · exact h hf
      · exact h he
      · exact absurd (hspec.mp rfl) (Nat.not_lt.mpr h)
    · split at hv
      next significand taken left hg' =>
        dsimp only at hv
        split at hv
        · exact double?_ne_integer hv
        · split at hv
          · split at hv <;> cases hv
          · exact double?_ne_integer hv

/-- The value of a row of digits below the limit. -/
theorem value?_digits {negative : Bool} {whole : List Char}
    (h : ofDigits whole < Nat.pow 2 64) :
    Literal.value? ⟨negative, whole, none, none⟩
      = if !negative then some (.integer (ofDigits whole))
        else if ofDigits whole = 0 ∨ Nat.pow 2 63 < ofDigits whole then
          double? true (ofDigits whole) 0
        else some (.integer (-(ofDigits whole : Int))) := by
  obtain ⟨hzero, hvalue⟩ := gather_spec whole 0 (show 0 < Nat.pow 2 64 by decide)
  have hnone := hzero.mpr h
  have hsome : (gather 0 0 whole).1 = ofDigits whole := hvalue hnone
  unfold Literal.value?
  generalize gather 0 0 whole = g at hnone hsome
  obtain ⟨significand, taken, beyond⟩ := g
  subst hnone hsome
  rfl

/-- **The value of a literal is a whole number** exactly if it has neither fraction nor exponent and
stands for a word, but for minus zero. -/
theorem value?_eq_integer_iff {l : Literal} {n : Int} :
    l.value? = some (.integer n) ↔
      l.fraction = none ∧ l.exponent = none ∧ IsWord n ∧
        (if l.negative then n ≠ 0 ∧ n = -(ofDigits l.whole : Int) else n = ofDigits l.whole) := by
  have h64 : Nat.pow 2 64 = 18446744073709551616 := rfl
  have h63 : Nat.pow 2 63 = 9223372036854775808 := rfl
  by_cases hplain : l.fraction ≠ none ∨ l.exponent ≠ none ∨ Nat.pow 2 64 ≤ ofDigits l.whole
  · refine iff_of_false (value?_ne_integer hplain) ?_
    rintro ⟨hf, he, hword, hn⟩
    obtain ⟨hlow, hhigh⟩ := isWord_iff.mp hword
    rcases hplain with h | h | h
    · exact h hf
    · exact h he
    · split at hn <;> omega
  · obtain ⟨negative, whole, fraction, exponent⟩ := l
    rw [not_or, not_or, not_not, not_not, Nat.not_le] at hplain
    obtain ⟨rfl, rfl, hlt⟩ := hplain
    have hlt : ofDigits whole < 18446744073709551616 := hlt
    rw [value?_digits hlt]
    rw [isWord_iff]
    cases negative with
    | false =>
      simp only [Bool.not_false, if_true, Option.some.injEq, JsonNumber.integer.injEq, true_and,
        Bool.false_eq_true, if_false]
      omega
    | true =>
      simp only [Bool.not_true, Bool.false_eq_true, if_false, true_and, if_true]
      split_ifs with h
      · refine iff_of_false double?_ne_integer ?_
        omega
      · rw [Option.some.injEq, JsonNumber.integer.injEq]
        omega

/-! ## 7. The text of a number -/

/-- How a number is written.  A word has one text; a double has many. -/
inductive NumberText : JsonNumber → List Char → Prop
  | integer {n : Int} : IsWord n → NumberText (.integer n) (toString n).toList
  | double {l : Literal} {w : List Char} {x : Binary64} : LiteralText l w →
      l.value? = some (.double x) → NumberText (.double x) w

/-- The text of a whole number: its decimal digits behind its sign. -/
theorem toList_toString_int (n : Int) :
    (toString n).toList = (if n < 0 then ['-'] else []) ++ Nat.toDigits 10 n.natAbs := by
  rw [Int.toString_eq_repr, Int.repr_eq_if]
  split_ifs with h h'
  · omega
  · rw [Nat.toList_repr, List.nil_append, ← Int.natAbs_of_nonneg h]
    rfl
  · rw [String.toList_append, Nat.toList_repr, ← Int.natAbs_neg]
    congr 2
    omega
  · omega

/-- The literal of a word. -/
theorem exists_literal_of_isWord {n : Int} (h : IsWord n) :
    ∃ l, LiteralText l (toString n).toList ∧ l.value? = some (.integer n) := by
  refine ⟨⟨decide (n < 0), Nat.toDigits 10 n.natAbs, none, none⟩, ?_, ?_⟩
  · have htext := LiteralText.mk (decide (n < 0)) (isWhole_toDigits n.natAbs) .absent .absent
    rw [List.append_nil, List.append_nil] at htext
    rw [toList_toString_int]
    simpa only [decide_eq_true_eq] using htext
  · rw [value?_eq_integer_iff]
    refine ⟨rfl, rfl, h, ?_⟩
    simp only [ofDigits_toDigits, decide_eq_true_eq]
    split_ifs <;> omega

/-- A literal whose value is a whole number is its text. -/
theorem eq_of_value?_eq_integer {l : Literal} {w : List Char} {n : Int} (hw : LiteralText l w)
    (h : l.value? = some (.integer n)) : w = (toString n).toList := by
  obtain ⟨hf, he, -, hn⟩ := value?_eq_integer_iff.mp h
  obtain ⟨negative, hwhole, htext, hetext⟩ := hw
  next whole f e fraction exponent =>
  dsimp only at hf he hn
  subst hf he
  cases htext
  cases hetext
  have hdigits := toDigits_ofDigits hwhole
  rw [toList_toString_int, List.append_nil, List.append_nil]
  cases negative with
  | false =>
    simp only [Bool.false_eq_true, if_false] at hn ⊢
    rw [if_neg (by omega), hn, Int.natAbs_natCast, hdigits]
  | true =>
    simp only [if_true] at hn ⊢
    rw [if_pos (by omega), hn.2, Int.natAbs_neg, Int.natAbs_natCast, hdigits]

/-- **A number is written by the literals that have it as their value.** -/
theorem numberText_iff {n : JsonNumber} {w : List Char} :
    NumberText n w ↔ ∃ l, LiteralText l w ∧ l.value? = some n := by
  constructor
  · rintro (hword | ⟨hw, hv⟩)
    · exact exists_literal_of_isWord hword
    · exact ⟨_, hw, hv⟩
  · rintro ⟨l, hw, hv⟩
    cases n with
    | integer n =>
      rw [eq_of_value?_eq_integer hw hv]
      exact .integer (value?_eq_integer_iff.mp hv).2.2.1
    | double x => exact .double hw hv

end ScriptWeave.JsonNumber
