/-
# Sizes in the right unit

A size is told in the largest unit that fits into it, and the number of these units is printed with
one decimal.  The unit is chosen by the exact number, and what is printed is the rounded one.
Between the two is a gap: what falls short of 1024 of a unit by a twentieth of it, or by less, is
not yet one of the next unit, but reads as 1024.0 of this one.

**Stated here.**  Below `2 ^ 53` bytes a size is told in the right unit, by a number that is rounded
to one decimal and at least 1.0, and below terabytes less than 1024.0, exactly if it is in no such
gap; in a gap it reads as 1024.0 (`inRightUnit_iff`).  A byte less than a megabyte is in one
(`not_inRightUnit_of_one_byte_short`).
-/
import Mathlib.Algebra.Order.Field.Rat
import Mathlib.Tactic.Linarith
import Mathlib.Tactic.LinearCombination
import Mathlib.Tactic.Positivity
import Mathlib.Tactic.Qify
import ScriptWeave.Batch.Report

namespace ScriptWeave

/-! ## 1. Numbers with one decimal -/

namespace Number

/-- A number of tenths is `x` rounded to one decimal: it is at most a twentieth away, and even where
it is as far away as its neighbour. -/
structure IsRounded (x : ℚ) (tenths : ℕ) : Prop where
  near : |(tenths : ℚ) / 10 - x| ≤ 1 / 20
  even : |(tenths : ℚ) / 10 - x| = 1 / 20 → Even tenths

/-- The text of a number of tenths. -/
def tenthsText (tenths : ℕ) : String := toString (tenths / 10) ++ "." ++ toString (tenths % 10)

theorem oneDecimal_eq (num den : ℕ) :
    oneDecimal num den = tenthsText (roundDiv (num * 10) den) := rfl

theorem two_mul_mod_of_half {num den k : ℕ} (h : 2 * num = (2 * k + 1) * den) :
    2 * (num % den) = den := by
  calc 2 * (num % den) = 2 * num % (2 * den) := (Nat.mul_mod_mul_left ..).symm
    _ = (2 * k + 1) * den % (2 * den) := by rw [h]
    _ = (2 * k + 1) % 2 * den := Nat.mul_mod_mul_right ..
    _ = den := by rw [Nat.mul_add_mod, Nat.one_mod, Nat.one_mul]

/-- A quotient that is half way between two naturals is rounded to the even one. -/
theorem even_roundDiv_of_half {num den k : ℕ} (h : 2 * num = (2 * k + 1) * den) :
    Even (roundDiv num den) :=
  Nat.even_iff.mpr (even_roundDiv_of_tie (two_mul_mod_of_half h))

/-- `roundDiv` rounds the tenths of a quotient. -/
theorem isRounded_roundDiv (num : ℕ) {den : ℕ} (h : 0 < den) :
    IsRounded (num / den) (roundDiv (num * 10) den) := by
  have hup := two_mul_roundDiv_le (num * 10) h
  have hdown := le_two_mul_roundDiv (num * 10) h
  have heven := @even_roundDiv_of_half (num * 10) den
  generalize roundDiv (num * 10) den = t at hup hdown heven
  have hden : (0 : ℚ) < den := by exact_mod_cast h
  have hx : (num : ℚ) / den * den = num := div_mul_cancel₀ _ hden.ne'
  have hx0 : (0 : ℚ) ≤ num / den := by positivity
  generalize (num : ℚ) / den = x at hx hx0
  qify at hup hdown
  have hle : 2 * t ≤ 20 * x + 1 := le_of_mul_le_mul_right (by linarith) hden
  have hge : 20 * x ≤ 2 * t + 1 := le_of_mul_le_mul_right (by linarith) hden
  constructor
  · rw [abs_le]
    constructor <;> linarith
  · intro htie
    rcases eq_or_eq_neg_of_abs_eq htie with hhalf | hhalf
    · -- half a tenth above the quotient
      obtain ⟨k, rfl⟩ : ∃ k, t = k + 1 := Nat.exists_eq_add_one_of_ne_zero fun hzero => by
        subst hzero
        norm_num at hhalf
        linarith
      push_cast at hhalf
      refine heven (k := k) ?_
      qify
      linear_combination -20 * hx - 20 * (den : ℚ) * hhalf
    · refine heven (k := t) ?_
      qify
      linear_combination -20 * hx - 20 * (den : ℚ) * hhalf

/-- What rounds to less than a whole number is less by more than a twentieth. -/
theorem IsRounded.lt_iff {x : ℚ} {tenths : ℕ} (h : IsRounded x tenths) (whole : ℕ) :
    (tenths : ℚ) / 10 < whole ↔ x < whole - 1 / 20 := by
  obtain ⟨hlow, hhigh⟩ := abs_le.mp h.near
  constructor
  · intro hlt
    have hbelow : tenths < 10 * whole := by
      qify
      linarith
    have hle : (tenths : ℚ) + 1 ≤ 10 * whole := by exact_mod_cast hbelow
    refine lt_of_le_of_ne (by linarith) fun heq => ?_
    -- a tie just below a whole number goes up to it
    have htie : |(tenths : ℚ) / 10 - x| = 1 / 20 := by
      rw [abs_sub_comm, abs_of_nonneg (by linarith)]
      linarith
    have hodd : tenths + 1 = 10 * whole := by
      qify
      linarith
    have heven := Nat.even_iff.mp (h.even htie)
    omega
  · intro hlt
    linarith

end Number

/-! ## 2. Units -/

namespace Report

/-- The units above the byte. -/
inductive SizeUnit
  | kb
  | mb
  | gb
  | tb
  deriving DecidableEq

namespace SizeUnit

/-- How many bytes the unit has. -/
def bytes : SizeUnit → ℕ
  | kb => 1024
  | mb => 1024 ^ 2
  | gb => 1024 ^ 3
  | tb => 1024 ^ 4

/-- The name by which it is printed. -/
def name : SizeUnit → String
  | kb => "KB"
  | mb => "MB"
  | gb => "GB"
  | tb => "TB"

/-- A size of `n` bytes in this unit, exactly. -/
def amount (u : SizeUnit) (n : ℕ) : ℚ := n / u.bytes

/-- The unit is the largest that fits into `n` bytes. -/
structure IsLargest (u : SizeUnit) (n : ℕ) : Prop where
  fits : u.bytes ≤ n
  largest : ∀ v : SizeUnit, v.bytes ≤ n → v.bytes ≤ u.bytes

/-- The gap below 1024 of this unit: a size of `n` bytes falls short of them by a twentieth of the
unit or by less. -/
def JustShort (u : SizeUnit) (n : ℕ) : Prop := 1024 - 1 / 20 ≤ u.amount n ∧ u.amount n < 1024

variable {u v : SizeUnit} {n : ℕ}

theorem le_bytes (u : SizeUnit) : 1024 ≤ u.bytes := by
  cases u <;> decide

theorem bytes_pos (u : SizeUnit) : 0 < u.bytes :=
  lt_of_lt_of_le (by decide) u.le_bytes

theorem one_le_amount_iff : 1 ≤ u.amount n ↔ u.bytes ≤ n := by
  have hpos : (0 : ℚ) < u.bytes := by exact_mod_cast u.bytes_pos
  rw [amount, one_le_div hpos]
  exact Nat.cast_le

theorem amount_lt_iff : u.amount n < 1024 ↔ n < 1024 * u.bytes := by
  have hpos : (0 : ℚ) < u.bytes := by exact_mod_cast u.bytes_pos
  rw [amount, div_lt_iff₀ hpos]
  exact_mod_cast Iff.rfl

/-- Below terabytes there is a unit of 1024 times the size. -/
theorem exists_bytes_eq_mul (h : u ≠ tb) : ∃ v : SizeUnit, v.bytes = 1024 * u.bytes := by
  cases u with
  | kb => exact ⟨mb, rfl⟩
  | mb => exact ⟨gb, rfl⟩
  | gb => exact ⟨tb, rfl⟩
  | tb => exact absurd rfl h

/-- A larger unit is at least 1024 times as large. -/
theorem mul_bytes_le_of_lt (h : u.bytes < v.bytes) : u ≠ tb ∧ 1024 * u.bytes ≤ v.bytes := by
  revert h
  cases u <;> cases v <;> decide

theorem isLargest_iff : u.IsLargest n ↔ u.bytes ≤ n ∧ (u ≠ tb → n < 1024 * u.bytes) := by
  constructor
  · rintro ⟨hfits, hlargest⟩
    refine ⟨hfits, fun hu => ?_⟩
    obtain ⟨v, hv⟩ := exists_bytes_eq_mul hu
    by_contra hge
    have hle : v.bytes ≤ u.bytes := hlargest v (by omega)
    have hpos := u.bytes_pos
    omega
  · rintro ⟨hfits, hlt⟩
    refine ⟨hfits, fun v hv => ?_⟩
    by_contra hge
    obtain ⟨hu, hle⟩ := mul_bytes_le_of_lt (not_le.mp hge)
    exact absurd (hlt hu) (by omega)

theorem IsLargest.eq (hu : u.IsLargest n) (hv : v.IsLargest n) : u = v := by
  have heq : u.bytes = v.bytes := le_antisymm (hv.largest u hu.fits) (hu.largest v hv.fits)
  revert heq
  cases u <;> cases v <;> decide

theorem JustShort.isLargest (h : u.JustShort n) : u.IsLargest n := by
  obtain ⟨hge, hlt⟩ := h
  have hone : 1 ≤ u.amount n := by linarith
  exact isLargest_iff.mpr ⟨one_le_amount_iff.mp hone, fun _ => amount_lt_iff.mp hlt⟩

end SizeUnit

/-! ## 3. The choice of a unit -/

section Choice

variable {value size n k : ℕ} {names : List String}

theorem chooseUnit_cons_cons (value size : ℕ) (name next : String) (larger : List String) :
    chooseUnit value size (name :: next :: larger) =
      if value < 1024 * size then (size, name)
      else chooseUnit value (1024 * size) (next :: larger) := rfl

/-- From a unit that fits, the choice goes on to the last one that does. -/
theorem exists_chooseUnit_eq (hne : names ≠ []) (hfits : size ≤ value) :
    ∃ k, ∃ hk : k < names.length, chooseUnit value size names = (1024 ^ k * size, names[k]) ∧
      1024 ^ k * size ≤ value ∧ (k + 1 < names.length → value < 1024 * (1024 ^ k * size)) := by
  -- on the units that are left to choose from; each time the size is that of the first of them
  induction names generalizing size with
  | nil => exact absurd rfl hne
  | cons name larger ih =>
    cases larger with
    | nil => exact ⟨0, by simp, by simp [chooseUnit], by simpa using hfits, by simp⟩
    | cons next larger =>
      rw [chooseUnit_cons_cons]
      split
      · next hlt => exact ⟨0, by simp, by simp, by simpa using hfits, fun _ => by simpa using hlt⟩
      · next hge =>
        obtain ⟨k, hk, hchosen, hle, hlt⟩ := ih (List.cons_ne_nil _ _) (not_lt.mp hge)
        have hsize : 1024 ^ k * (1024 * size) = 1024 ^ (k + 1) * size := by
          rw [pow_succ, Nat.mul_assoc]
        rw [hsize] at hchosen hle hlt
        exact ⟨k + 1, Nat.succ_lt_succ hk, hchosen, hle, fun hk' => hlt (Nat.lt_of_succ_lt_succ hk')⟩

/-- The names of the units stand in the order of their sizes. -/
theorem exists_unit_at (hk : k < units.length) :
    ∃ u : SizeUnit, u.bytes = 1024 ^ k * 1024 ∧ u.name = units[k] ∧
      (u ≠ .tb → k + 1 < units.length) := by
  match k, hk with
  | 0, _ => exact ⟨.kb, rfl, rfl, by decide⟩
  | 1, _ => exact ⟨.mb, rfl, rfl, by decide⟩
  | 2, _ => exact ⟨.gb, rfl, rfl, by decide⟩
  | 3, _ => exact ⟨.tb, rfl, rfl, by decide⟩

/-- **The unit that is chosen** is the largest that fits. -/
theorem exists_isLargest_chosen (h : 1024 ≤ n) :
    ∃ u : SizeUnit, u.IsLargest n ∧ chooseUnit n 1024 units = (u.bytes, u.name) := by
  obtain ⟨k, hk, hchosen, hle, hlt⟩ := exists_chooseUnit_eq (by decide : units ≠ []) h
  obtain ⟨u, hbytes, hname, hlast⟩ := exists_unit_at hk
  rw [← hbytes] at hchosen hle hlt
  exact ⟨u, SizeUnit.isLargest_iff.mpr ⟨hle, fun hu => hlt (hlast hu)⟩, hname ▸ hchosen⟩

end Choice

/-! ## 4. Sizes as they are printed -/

section Sizes

open Number

variable {n tenths : ℕ} {u v : SizeUnit}

/-- Below `2 ^ 53` a double has every bit of a number. -/
theorem leadingBits_eq_self (h : n < 2 ^ 53) : leadingBits n = n := by
  have hlog : n.log2 < 53 := by
    by_cases hzero : n = 0
    · subst hzero
      decide
    · exact (Nat.log2_lt hzero).mpr h
  have hexcess : n.log2 + 1 - 53 = 0 := by omega
  have hexact := roundDiv_mul_self n Nat.one_pos
  simpa [leadingBits, hexcess] using hexact

/-- A size is printed as a number of a unit: the unit is the largest that fits, and the number is the
exact one, rounded to one decimal. -/
structure PrintedAs (n : ℕ) (u : SizeUnit) (tenths : ℕ) : Prop where
  text : sizeText n = tenthsText tenths ++ " " ++ u.name
  unit : u.IsLargest n
  rounded : IsRounded (u.amount n) tenths

/-- A size is told in the right unit: in whole bytes below 1024, and otherwise in the largest unit
that fits, by a number that is at least 1.0 and, where there is a larger unit, less than 1024.0. -/
structure InRightUnit (n : ℕ) : Prop where
  bytes : n < 1024 → sizeText n = toString n ++ " B"
  units : 1024 ≤ n → ∃ u tenths, PrintedAs n u tenths ∧ 1 ≤ (tenths : ℚ) / 10 ∧
    (u ≠ .tb → (tenths : ℚ) / 10 < 1024)

theorem sizeText_eq (h : n < 2 ^ 53) (hle : 1024 ≤ n)
    (hchosen : chooseUnit n 1024 units = (u.bytes, u.name)) :
    sizeText n = tenthsText (roundDiv (n * 10) u.bytes) ++ " " ++ u.name := by
  simp only [sizeText, if_neg (not_lt.mpr hle), leadingBits_eq_self h, hchosen, oneDecimal_eq]

/-- **From 1024 bytes on** a size is printed as a number of the largest unit that fits. -/
theorem exists_printedAs (h : n < 2 ^ 53) (hle : 1024 ≤ n) : ∃ u tenths, PrintedAs n u tenths := by
  obtain ⟨u, hlargest, hchosen⟩ := exists_isLargest_chosen hle
  exact ⟨u, roundDiv (n * 10) u.bytes, sizeText_eq h hle hchosen, hlargest,
    isRounded_roundDiv n u.bytes_pos⟩

theorem PrintedAs.one_le (h : PrintedAs n u tenths) : 1 ≤ (tenths : ℚ) / 10 := by
  have hround := h.rounded.lt_iff 1
  have hfits := SizeUnit.one_le_amount_iff.mpr h.unit.fits
  push_cast at hround
  by_contra hlt
  have hless := hround.mp (not_le.mp hlt)
  linarith

/-- Short of 1024 of the unit, the number is less than 1024.0 except in the gap. -/
theorem PrintedAs.lt_iff (h : PrintedAs n u tenths) (hlt : u.amount n < 1024) :
    (tenths : ℚ) / 10 < 1024 ↔ ¬ u.JustShort n := by
  have hround := h.rounded.lt_iff 1024
  push_cast at hround
  rw [hround, SizeUnit.JustShort, not_and_or, not_le]
  exact ⟨Or.inl, fun hor => hor.resolve_right (not_not_intro hlt)⟩

/-- **In the gap** a size reads as 1024.0 of the unit of which it falls short. -/
theorem printedAs_of_justShort (h : n < 2 ^ 53) (hshort : u.JustShort n) :
    PrintedAs n u 10240 := by
  have hlargest := hshort.isLargest
  obtain ⟨v, tenths, hprinted⟩ := exists_printedAs h (u.le_bytes.trans hlargest.fits)
  obtain rfl := hprinted.unit.eq hlargest
  -- it is not below 1024.0, and it cannot be 1024.1: that is too far away
  have hge : ¬ (tenths : ℚ) / 10 < 1024 := fun hlt =>
    (hprinted.lt_iff hshort.2).mp hlt hshort
  have hnear := (abs_le.mp hprinted.rounded.near).2
  have hlow : 10240 ≤ tenths := by
    qify
    linarith
  have hhigh : tenths < 10241 := by
    qify
    linarith [hshort.2]
  obtain rfl : tenths = 10240 := by omega
  exact hprinted

theorem not_inRightUnit_of_justShort (hu : u ≠ .tb) (hshort : u.JustShort n) :
    ¬ InRightUnit n := by
  intro hright
  obtain ⟨v, tenths, hprinted, -, hbelow⟩ :=
    hright.units (u.le_bytes.trans hshort.isLargest.fits)
  obtain rfl := hprinted.unit.eq hshort.isLargest
  exact (hprinted.lt_iff hshort.2).mp (hbelow hu) hshort

/-- **A size is told in the right unit** exactly if it does not fall just short of 1024 KB, MB or GB.
What falls just short is told in the unit of which it does, as 1024.0. -/
theorem inRightUnit_iff (h : n < 2 ^ 53) :
    (InRightUnit n ↔ ∀ u : SizeUnit, u ≠ .tb → ¬ u.JustShort n) ∧
      ∀ u : SizeUnit, u.JustShort n → PrintedAs n u 10240 := by
  refine ⟨⟨fun hright u hu hshort => not_inRightUnit_of_justShort hu hshort hright, ?_⟩,
    fun u hshort => printedAs_of_justShort h hshort⟩
  intro hgap
  refine ⟨fun hlt => if_pos hlt, fun hle => ?_⟩
  obtain ⟨u, tenths, hprinted⟩ := exists_printedAs h hle
  refine ⟨u, tenths, hprinted, hprinted.one_le, fun hu => ?_⟩
  have hlt := SizeUnit.amount_lt_iff.mpr ((SizeUnit.isLargest_iff.mp hprinted.unit).2 hu)
  exact (hprinted.lt_iff hlt).mpr (hgap u hu)

/-- The last size before the gap below a megabyte. -/
theorem inRightUnit_before_gap :
    1048524 < 2 ^ 53 ∧ InRightUnit 1048524 ∧ sizeText 1048524 = "1023.9 KB" := by
  have h : 1048524 < 2 ^ 53 := by decide
  refine ⟨h, (inRightUnit_iff h).1.mpr fun u _ hshort => ?_, by decide +kernel⟩
  cases u <;> norm_num [SizeUnit.JustShort, SizeUnit.amount, SizeUnit.bytes] at hshort

/-- **A size that is not told in the right unit**: a byte less than a megabyte. -/
theorem not_inRightUnit_of_one_byte_short :
    1048575 < 2 ^ 53 ∧ sizeText 1048575 = "1024.0 KB" ∧ ¬ InRightUnit 1048575 := by
  refine ⟨by decide, by decide +kernel, not_inRightUnit_of_justShort (u := .kb) (by decide) ?_⟩
  norm_num [SizeUnit.JustShort, SizeUnit.amount, SizeUnit.bytes]

end Sizes

end Report
end ScriptWeave
