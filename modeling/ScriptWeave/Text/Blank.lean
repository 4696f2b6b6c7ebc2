/-
# Blank characters, and trimming by them

What counts as blank is one question, answered here once.  Three places ask it: the scanner (the
character after `<script` and those before the `>` of a closing tag), the reader of feature
lists, and the recogniser of stack frames.  All of them mean the `White_Space` property of
Unicode, which has twenty-five members.  A byte order mark, a zero-width space and NUL are NOT
among them.

**Stated here.**  Trimming at the front drops only blanks (`trimStart_eq_append`); trimming at the
end is the same seen from behind; and a text without a blank at either end stays as it is
(`trim_eq_self`).
-/

namespace ScriptWeave.Text

/-! ## 1. The class -/

/-- The `White_Space` property of Unicode. -/
def isBlank (c : Char) : Bool :=
  (0x09 ≤ c.toNat && c.toNat ≤ 0x0D) || c.toNat == 0x20 || c.toNat == 0x85 || c.toNat == 0xA0 ||
    c.toNat == 0x1680 || (0x2000 ≤ c.toNat && c.toNat ≤ 0x200A) || c.toNat == 0x2028 ||
    c.toNat == 0x2029 || c.toNat == 0x202F || c.toNat == 0x205F || c.toNat == 0x3000

/-- Neither bracket of a tag is blank. -/
theorem isBlank_bracket : isBlank '<' = false ∧ isBlank '>' = false := by decide

/-! ## 2. Trimming -/

/-- The text without the blanks it starts with. -/
def trimStart (s : List Char) : List Char := s.dropWhile isBlank

/-- The text without the blanks it ends with. -/
def trimEnd (s : List Char) : List Char := (s.reverse.dropWhile isBlank).reverse

/-- The text without the blanks at either end. -/
def trim (s : List Char) : List Char := trimStart (trimEnd s)

/-- Trimming at the front drops blanks and nothing else. -/
theorem trimStart_eq_append (s : List Char) :
    ∃ blanks : List Char, s = blanks ++ trimStart s ∧ ∀ c ∈ blanks, isBlank c = true :=
  ⟨s.takeWhile isBlank, (List.takeWhile_append_dropWhile).symm,
    fun _ hc => List.all_eq_true.1 List.all_takeWhile _ hc⟩

/-- There is nothing to trim at the front where no blank is. -/
theorem trimStart_eq_self {s : List Char} (h : ∀ c ∈ s.head?, isBlank c = false) :
    trimStart s = s := by
  cases s with
  | nil => rfl
  | cons c s =>
    have hc : isBlank c = false := h c rfl
    rw [trimStart, List.dropWhile_cons, hc, if_neg Bool.false_ne_true]

/-- There is nothing to trim where neither end is blank. -/
theorem trim_eq_self {s : List Char} (hhead : ∀ c ∈ s.head?, isBlank c = false)
    (hlast : ∀ c ∈ s.getLast?, isBlank c = false) : trim s = s := by
  have hreverse : trimStart s.reverse = s.reverse :=
    trimStart_eq_self (by rwa [List.head?_reverse])
  have hend : trimEnd s = s :=
    (congrArg List.reverse hreverse).trans s.reverse_reverse
  rw [trim, hend, trimStart_eq_self hhead]

end ScriptWeave.Text
