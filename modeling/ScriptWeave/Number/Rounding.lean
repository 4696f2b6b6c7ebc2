/-
# Rounding a quotient

Two kinds of printed number need a quotient of naturals rounded to a whole one: sizes and
percentages with one decimal, and the digits of a double.  Both round to the nearest, and a tie
goes to the even neighbour.

**Stated here.**  The rounded quotient lies within half a unit of the quotient
(`two_mul_roundDiv_le`, `le_two_mul_roundDiv`), an exact quotient is kept (`roundDiv_mul_self`),
and a tie has an even result (`even_roundDiv_of_tie`).
-/

namespace ScriptWeave.Number

/-- The natural number nearest to `num / den`; of two equally near, the even one. -/
def roundDiv (num den : Nat) : Nat :=
  let q := num / den
  let twice := 2 * (num % den)
  if twice < den then q else if den < twice then q + 1 else if q % 2 = 0 then q else q + 1

/-- Rounding never goes up by more than half a unit. -/
theorem two_mul_roundDiv_le (num : Nat) {den : Nat} (h : 0 < den) :
    2 * (roundDiv num den * den) ≤ 2 * num + den := by
  have hd := Nat.div_add_mod num den
  have hm := Nat.mod_lt num h
  have hc : den * (num / den) = num / den * den := Nat.mul_comm ..
  simp only [roundDiv]
  split
  · omega
  · split
    · rw [Nat.add_mul]; omega
    · split
      · omega
      · rw [Nat.add_mul]; omega

/-- Rounding never goes down by more than half a unit. -/
theorem le_two_mul_roundDiv (num : Nat) {den : Nat} (h : 0 < den) :
    2 * num ≤ 2 * (roundDiv num den * den) + den := by
  have hd := Nat.div_add_mod num den
  have hm := Nat.mod_lt num h
  have hc : den * (num / den) = num / den * den := Nat.mul_comm ..
  simp only [roundDiv]
  split
  · omega
  · split
    · rw [Nat.add_mul]; omega
    · split
      · omega
      · rw [Nat.add_mul]; omega

/-- A quotient without remainder is kept. -/
theorem roundDiv_mul_self (n : Nat) {den : Nat} (h : 0 < den) : roundDiv (n * den) den = n := by
  simp [roundDiv, Nat.mul_div_cancel n h, h]

/-- A tie goes to the even neighbour. -/
theorem even_roundDiv_of_tie {num den : Nat} (h : 2 * (num % den) = den) :
    roundDiv num den % 2 = 0 := by
  simp only [roundDiv, h, Nat.lt_irrefl, if_false]
  split
  · assumption
  · omega

/-- A quotient printed with exactly one decimal. -/
def oneDecimal (num den : Nat) : String :=
  let tenths := roundDiv (num * 10) den
  toString (tenths / 10) ++ "." ++ toString (tenths % 10)

end ScriptWeave.Number
