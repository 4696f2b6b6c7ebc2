/-
# What a block is, said without a reader

`Markup.Scan` reads a block off the front of a text by three searches, one inside the other.
This file says what a block IS, as six pieces with a condition on each (`Reading.Fits`), and which
one of all the blocks that a text may begin with is meant (`Reading.Before`): the one with the
shortest run before `type="`, then the shortest value before the marker, then the shortest
body.  Neither definition mentions a reader.

The two are brought together reader by reader.  `Finds read Fits before` says of a reader that it
succeeds exactly where something fits, and then with the one thing that stands before all the
others.  It passes through everything the readers are built from:

* a word in front (`Finds.afterWord`);
* a stretch up to a given character (`Finds.upTo`);
* a search (`Finds.search`), which puts the length of what it passes over in front of the order.

**Stated here.**  A block is read exactly when it is the block of the first reading
(`blockAt_eq_some_iff`), and none is read exactly when there is no reading
(`blockAt_eq_none_iff`).
-/
import Mathlib.Data.List.Forall2
import Mathlib.Data.List.TakeWhile
import ScriptWeave.Markup.Scan

namespace ScriptWeave
namespace Markup

open Text

/-! ## 1. The pieces of a block -/

/-- `x` is the word `w`, the case of each letter set aside. -/
def SameWord (w x : List Char) : Prop := List.Forall₂ (fun a b => sameLetter a b = true) w x

/-- The text from the quotation mark behind a value to the end of the tag. -/
def IsTagClose (x : List Char) : Prop := ∃ m, '>' ∉ m ∧ x = '"' :: (m ++ ['>'])

/-- A closing tag: `</script`, blanks, `>`. -/
def IsClosing (x : List Char) : Prop :=
  ∃ w gap, SameWord closingWord w ∧ (∀ c ∈ gap, isBlank c = true) ∧ x = w ++ gap ++ ['>']

/-- An opening: `<script`, a blank, the run without `>`, `type="`, the value without `"`. -/
def IsOpening (run value x : List Char) : Prop :=
  ∃ tag blank typed, SameWord scriptWord tag ∧ isBlank blank = true ∧ '>' ∉ run ∧
    SameWord typeWord typed ∧ '"' ∉ value ∧ x = tag ++ blank :: (run ++ (typed ++ value))

/-- A block, and which parts of its opening are the run before `type="` and the value before
the marker. -/
structure Reading where
  run : List Char
  value : List Char
  block : Block

namespace Reading

/-- The six pieces are what a block with this marker is made of.  The body may be anything. -/
structure Fits (marker : List Char) (r : Reading) : Prop where
  opening : IsOpening r.run r.value r.block.opening
  marker : SameWord marker r.block.marker
  attributes : '"' ∉ r.block.attributes
  tagClose : IsTagClose r.block.tagClose
  closing : IsClosing r.block.closing

/-- `s` begins with the block. -/
def Of (marker s : List Char) (r : Reading) : Prop := r.Fits marker ∧ r.block.spell <+: s

/-- The order of preference: the shorter run, then the shorter value, then the shorter body. -/
def Before (r r' : Reading) : Prop :=
  r.run.length < r'.run.length ∨ r.run.length = r'.run.length ∧
    (r.value.length < r'.value.length ∨ r.value.length = r'.value.length ∧
      r.block.body.length < r'.block.body.length)

/-- Of all readings of `s`, the one before the others. -/
def IsFirst (marker s : List Char) (r : Reading) : Prop :=
  r.Of marker s ∧ ∀ r', r'.Of marker s → r' = r ∨ r.Before r'

theorem Before.asymm {r r' : Reading} (h : r.Before r') : ¬ r'.Before r := by
  unfold Before at *
  omega

/-- There is at most one first reading. -/
theorem IsFirst.unique {marker s : List Char} {r r' : Reading} (h : r.IsFirst marker s)
    (h' : r'.IsFirst marker s) : r = r' := by
  rcases h.2 r' h'.1 with heq | hb
  · exact heq.symm
  · rcases h'.2 r h.1 with heq | hb'
    · exact heq
    · exact absurd hb' hb.asymm

end Reading

/-! ## 2. Words -/

theorem SameWord.length_eq {w x : List Char} (h : SameWord w x) : w.length = x.length :=
  List.Forall₂.length_eq h

/-- A word is stripped off exactly where the text begins with it. -/
theorem stripWord_eq_some_iff {w s rest : List Char} :
    stripWord w s = some rest ↔ ∃ x, SameWord w x ∧ s = x ++ rest := by
  induction w generalizing s with
  | nil => simp [stripWord, SameWord]
  | cons a w ih =>
    constructor
    · intro h
      cases s with
      | nil => simp [stripWord] at h
      | cons c s =>
        simp only [stripWord] at h
        split at h
        · rename_i hc
          obtain ⟨x, hx, rfl⟩ := ih.mp h
          exact ⟨c :: x, List.Forall₂.cons hc hx, rfl⟩
        · simp at h
    · rintro ⟨x, hx, rfl⟩
      obtain ⟨c, u, hc, hu, rfl⟩ := List.forall₂_cons_left_iff.mp hx
      simp only [List.cons_append, stripWord, hc, if_true]
      exact ih.mpr ⟨u, hu, rfl⟩

/-- What stands before the first character without `p` is cut off by `takeWhile`. -/
theorem takeWhile_dropWhile_of_cut {p : Char → Bool} {c : Char} {x u : List Char}
    (hx : ∀ a ∈ x, p a = true) (hc : p c = false) :
    (x ++ c :: u).takeWhile p = x ∧ (x ++ c :: u).dropWhile p = c :: u := by
  rw [List.takeWhile_append_of_pos hx, List.dropWhile_append_of_pos hx]
  simp [hc]

theorem takeWhile_dropWhile_ne {c : Char} {x u : List Char} (hx : c ∉ x) :
    (x ++ c :: u).takeWhile (· ≠ c) = x ∧ (x ++ c :: u).dropWhile (· ≠ c) = c :: u := by
  refine takeWhile_dropWhile_of_cut (fun a ha => ?_) (by simp)
  simpa using fun heq : a = c => hx (heq ▸ ha)

theorem dropWhile_ne_of_notMem {c : Char} {s : List Char} (hs : c ∉ s) :
    s.dropWhile (· ≠ c) = [] :=
  List.dropWhile_eq_nil_iff.mpr fun a ha => by simpa using fun heq : a = c => hs (heq ▸ ha)

/-! ## 3. Readers that find the first of what fits -/

section Finds

variable {α β : Type} {read : List Char → Option α} {Fits : List Char → α → Prop}
  {before : α → α → Prop}

/-- The reader succeeds exactly where something fits, and then with the one thing that stands
before all others. -/
structure Finds (read : List Char → Option α) (Fits : List Char → α → Prop)
    (before : α → α → Prop) : Prop where
  fits : ∀ {s a}, read s = some a → Fits s a
  first : ∀ {s a b}, read s = some a → Fits s b → b = a ∨ before a b
  total : ∀ {s b}, Fits s b → ∃ a, read s = some a

/-- A part at the front, and behind it something that fits. -/
def Behind (Part : List Char → Prop) (Fits : List Char → α → Prop) (s : List Char)
    (x : List Char × α) : Prop :=
  Part x.1 ∧ ∃ rest, s = x.1 ++ rest ∧ Fits rest x.2

/-- The order in which the length of the front counts first. -/
def Sooner (before : α → α → Prop) (x y : List Char × α) : Prop :=
  x.1.length < y.1.length ∨ x.1.length = y.1.length ∧ before x.2 y.2

/-- A reader without a choice finds what it reads. -/
theorem Finds.of_iff (h : ∀ s a, read s = some a ↔ Fits s a) :
    Finds read Fits (fun _ _ => False) where
  fits := (h _ _).mp
  first := by
    intro s a b ha hb
    rw [(h s b).mpr hb] at ha
    exact Or.inl (Option.some.inj ha)
  total := fun hb => ⟨_, (h _ _).mpr hb⟩

/-- What is found may be put in another form, if the form keeps the order. -/
theorem Finds.map {Fits' : List Char → β → Prop} {before' : β → β → Prop} (f : α → β)
    (h : Finds read Fits before) (hf : ∀ s b, Fits' s b ↔ ∃ a, Fits s a ∧ f a = b)
    (hb : ∀ {s a a'}, Fits s a → Fits s a' → before a a' → before' (f a) (f a')) :
    Finds (fun s => (read s).map f) Fits' before' where
  fits := by
    intro s b hs
    obtain ⟨a, ha, rfl⟩ := Option.map_eq_some_iff.mp hs
    exact (hf s _).mpr ⟨a, h.fits ha, rfl⟩
  first := by
    intro s b b' hs hb'
    obtain ⟨a, ha, rfl⟩ := Option.map_eq_some_iff.mp hs
    obtain ⟨a', ha', rfl⟩ := (hf s b').mp hb'
    rcases h.first ha ha' with rfl | hlt
    · exact Or.inl rfl
    · exact Or.inr (hb (h.fits ha) ha' hlt)
  total := by
    intro s b hs
    obtain ⟨a, ha, -⟩ := (hf s b).mp hs
    obtain ⟨a', ha'⟩ := h.total ha
    exact ⟨f a', by simp [ha']⟩

/-- A word, then the reader. -/
def afterWord (w : List Char) (read : List Char → Option α) (s : List Char) :
    Option (List Char × α) := do
  let a ← read (← stripWord w s)
  some (s.take w.length, a)

/-- A word first, then the reader. -/
theorem Finds.afterWord (h : Finds read Fits before) (w : List Char) :
    Finds (afterWord w read) (Behind (SameWord w) Fits) (fun x y => before x.2 y.2) where
  fits := by
    intro s x hs
    simp only [Markup.afterWord, Option.bind_eq_bind, Option.bind_eq_some_iff,
      Option.some.injEq] at hs
    obtain ⟨s', hw, a, ha, rfl⟩ := hs
    obtain ⟨x, hx, rfl⟩ := stripWord_eq_some_iff.mp hw
    have hlen := hx.length_eq
    refine ⟨?_, s', ?_, h.fits ha⟩ <;> simp [hlen, hx]
  first := by
    rintro s x ⟨y, b⟩ hs ⟨hy, rest, rfl, hb⟩
    simp only [Markup.afterWord, Option.bind_eq_bind, Option.bind_eq_some_iff,
      Option.some.injEq] at hs
    obtain ⟨s', hw, a, ha, rfl⟩ := hs
    rw [stripWord_eq_some_iff.mpr ⟨y, hy, rfl⟩] at hw
    obtain rfl := Option.some.inj hw
    have hlen := hy.length_eq
    rcases h.first ha hb with rfl | hlt
    · exact Or.inl (by simp [hlen])
    · exact Or.inr hlt
  total := by
    rintro s ⟨y, b⟩ ⟨hy, rest, rfl, hb⟩
    obtain ⟨a, ha⟩ := h.total hb
    have hw : stripWord w (y ++ rest) = some rest := stripWord_eq_some_iff.mpr ⟨y, hy, rfl⟩
    exact ⟨((y ++ rest).take w.length, a), by simp [Markup.afterWord, hw, ha]⟩

/-- One character with `p`, then the reader. -/
def afterChar (p : Char → Bool) (read : List Char → Option α) : List Char → Option (Char × α)
  | c :: s => if p c then (read s).map fun a => (c, a) else none
  | [] => none

/-- A character of a kind first, then the reader. -/
theorem Finds.afterChar (h : Finds read Fits before) (p : Char → Bool) :
    Finds (afterChar p read)
      (fun s x => p x.1 = true ∧ ∃ rest, s = x.1 :: rest ∧ Fits rest x.2)
      (fun x y => before x.2 y.2) where
  fits := by
    intro s x hs
    cases s with
    | nil => cases hs
    | cons c s =>
      simp only [Markup.afterChar] at hs
      split at hs
      · rename_i hc
        obtain ⟨a, ha, rfl⟩ := Option.map_eq_some_iff.mp hs
        exact ⟨hc, s, rfl, h.fits ha⟩
      · cases hs
  first := by
    rintro s x ⟨c, b⟩ hs ⟨hc, rest, rfl, hb⟩
    simp only at hc hb
    simp only [Markup.afterChar, hc, if_true] at hs
    obtain ⟨a, ha, rfl⟩ := Option.map_eq_some_iff.mp hs
    rcases h.first ha hb with rfl | hlt
    · exact Or.inl rfl
    · exact Or.inr hlt
  total := by
    rintro s ⟨c, b⟩ ⟨hc, rest, rfl, hb⟩
    simp only at hc hb
    obtain ⟨a, ha⟩ := h.total hb
    exact ⟨(c, a), by simp [Markup.afterChar, hc, ha]⟩

/-- The text up to the first `c`, then the reader behind it. -/
def upTo (c : Char) (read : List Char → Option α) (s : List Char) : Option (List Char × α) :=
  match s.dropWhile (· ≠ c) with
  | _ :: rest => (read rest).map fun a => (s.takeWhile (· ≠ c), a)
  | [] => none

/-- What `upTo` does with a text that has a `c`. -/
theorem upTo_append {c : Char} {x rest : List Char} (hx : c ∉ x) :
    upTo c read (x ++ c :: rest) = (read rest).map fun a => (x, a) := by
  obtain ⟨ht, hd⟩ := takeWhile_dropWhile_ne (u := rest) hx
  simp only [upTo, hd, ht]

/-- A text has a `c`, or `upTo` fails. -/
theorem exists_of_upTo_eq_some {c : Char} {s : List Char} {x : List Char × α}
    (h : upTo c read s = some x) : ∃ y rest, c ∉ y ∧ s = y ++ c :: rest := by
  by_cases hc : c ∈ s
  · obtain ⟨y, rest, hs, hy⟩ := List.eq_append_cons_of_mem hc
    exact ⟨y, rest, hy, hs⟩
  · simp only [upTo, dropWhile_ne_of_notMem hc] at h
    cases h

/-- Up to a character first, then the reader. -/
theorem Finds.upTo (h : Finds read Fits before) (c : Char) :
    Finds (upTo c read) (Behind (c ∉ ·) fun s a => ∃ s', s = c :: s' ∧ Fits s' a)
      (fun x y => before x.2 y.2) where
  fits := by
    intro s x hs
    obtain ⟨y, rest, hy, rfl⟩ := exists_of_upTo_eq_some hs
    rw [upTo_append hy] at hs
    obtain ⟨a, ha, rfl⟩ := Option.map_eq_some_iff.mp hs
    exact ⟨hy, _, rfl, rest, rfl, h.fits ha⟩
  first := by
    rintro s x ⟨y, b⟩ hs ⟨hy, _, rfl, rest, rfl, hb⟩
    rw [upTo_append hy] at hs
    obtain ⟨a, ha, rfl⟩ := Option.map_eq_some_iff.mp hs
    rcases h.first ha hb with rfl | hlt
    · exact Or.inl rfl
    · exact Or.inr hlt
  total := by
    rintro s ⟨y, b⟩ ⟨hy, _, rfl, rest, rfl, hb⟩
    obtain ⟨a, ha⟩ := h.total hb
    exact ⟨(y, a), by rw [upTo_append hy, ha]; rfl⟩

/-- A search ends at the latest where its reader is known to succeed. -/
theorem search_le {stops : Char → Bool} {x y : List Char} {b : α} (hy : read y = some b)
    (hx : ∀ c ∈ x, stops c = false) (seen : List Char) :
    ∃ front a, search read stops seen (x ++ y) = some (front, a) ∧
      front.length ≤ seen.length + x.length := by
  induction x generalizing seen with
  | nil =>
    refine ⟨seen.reverse, b, ?_, by simp⟩
    cases y with
    | nil => simp [search, hy]
    | cons c y => simp [search, hy]
  | cons c x ih =>
    cases hc : read (c :: (x ++ y)) with
    | some a => exact ⟨seen.reverse, a, by simp [search, hc], by simp⟩
    | none =>
      obtain ⟨front, a, hs, hl⟩ := ih (fun d hd => hx d (List.mem_cons_of_mem _ hd)) (c :: seen)
      refine ⟨front, a, ?_, ?_⟩
      · simpa [search, hc, hx c List.mem_cons_self] using hs
      · simp only [List.length_cons] at hl ⊢
        omega

/-- A search finds the first of what fits behind characters that do not stop it, the length of
these characters counting first. -/
theorem Finds.search (h : Finds read Fits before) (stops : Char → Bool) :
    Finds (search read stops []) (Behind (fun x => ∀ c ∈ x, stops c = false) Fits)
      (Sooner before) where
  fits := by
    rintro s ⟨front, a⟩ hs
    obtain ⟨passed, rest, rfl, rfl, ha, hp⟩ := search_eq_some hs
    exact ⟨by simpa using hp, rest, by simp, h.fits ha⟩
  first := by
    rintro s ⟨front, a⟩ ⟨y, b⟩ hs ⟨hy, rest', heq, hb⟩
    obtain ⟨passed, rest, rfl, rfl, ha, hp⟩ := search_eq_some hs
    simp only at heq hy hb
    -- the search cannot have gone past `y`, since the reader succeeds behind it
    obtain ⟨b', hb'⟩ := h.total hb
    obtain ⟨front, a', hs', hle⟩ := search_le hb' hy []
    rw [← heq, hs] at hs'
    obtain ⟨rfl, rfl⟩ := Prod.mk.inj (Option.some.inj hs')
    simp only [List.length_nil, Nat.zero_add] at hle
    rcases Nat.lt_or_eq_of_le hle with hlt | hlen
    · exact Or.inr (Or.inl hlt)
    · obtain ⟨rfl, rfl⟩ := List.append_inj heq hlen
      rcases h.first ha hb with rfl | hlt
      · exact Or.inl rfl
      · exact Or.inr (Or.inr ⟨rfl, hlt⟩)
  total := by
    rintro s ⟨y, b⟩ ⟨hy, rest, rfl, hb⟩
    obtain ⟨b', hb'⟩ := h.total hb
    obtain ⟨front, a, hs, -⟩ := search_le hb' hy []
    exact ⟨(front, a), hs⟩

end Finds

/-! ## 4. The readers of a block, one by one -/

/-- A closing tag is read exactly where one stands. -/
theorem closingAt_eq_some_iff {s closing rest : List Char} :
    closingAt s = some (closing, rest) ↔ IsClosing closing ∧ s = closing ++ rest := by
  simp only [closingAt, Option.bind_eq_bind, Option.bind_eq_some_iff]
  constructor
  · rintro ⟨s', hstrip, h⟩
    obtain ⟨w, hw, rfl⟩ := stripWord_eq_some_iff.mp hstrip
    split at h
    · rename_i rest' hd
      obtain ⟨rfl, rfl⟩ := Prod.mk.inj (Option.some.inj h)
      have hlen := hw.length_eq
      have hcut := List.takeWhile_append_dropWhile (p := isBlank) (l := s')
      rw [hd] at hcut
      refine ⟨⟨w, s'.takeWhile isBlank, hw, fun c hc => List.mem_takeWhile_imp hc, ?_⟩, ?_⟩
      · simp [hlen]
      · conv => lhs; rw [← hcut]
        simp [hlen]
    · simp at h
  · rintro ⟨⟨w, gap, hw, hgap, rfl⟩, rfl⟩
    refine ⟨gap ++ '>' :: rest, stripWord_eq_some_iff.mpr ⟨w, hw, by simp⟩, ?_⟩
    obtain ⟨ht, hd⟩ := takeWhile_dropWhile_of_cut (u := rest) hgap isBlank_bracket.2
    simp [hd, ht, hw.length_eq]

/-- What may follow the marker at the front of a text. -/
structure FitsTail (s : List Char) (t : Tail) : Prop where
  text : s = t.attributes ++ (t.tagClose ++ (t.body ++ (t.closing ++ t.rest)))
  attributes : '"' ∉ t.attributes
  tagClose : IsTagClose t.tagClose
  closing : IsClosing t.closing

/-- `readTail`, as its parts in a row. -/
theorem readTail_eq (s : List Char) :
    readTail s = (upTo '"' (upTo '>' (search closingAt (fun _ => false) [])) s).map
      fun x => ⟨x.1, '"' :: (x.2.1 ++ ['>']), x.2.2.1, x.2.2.2.1, x.2.2.2.2⟩ := by
  by_cases hq : '"' ∈ s
  · obtain ⟨x, s₁, rfl, hx⟩ := List.eq_append_cons_of_mem hq
    obtain ⟨ht, hd⟩ := takeWhile_dropWhile_ne (u := s₁) hx
    rw [upTo_append hx]
    by_cases hg : '>' ∈ s₁
    · obtain ⟨m, s₂, rfl, hm⟩ := List.eq_append_cons_of_mem hg
      obtain ⟨ht', hd'⟩ := takeWhile_dropWhile_ne (u := s₂) hm
      simp only [readTail, hd, hd', ht, ht', upTo_append hm]
      cases search closingAt (fun _ => false) [] s₂ <;> rfl
    · simp only [readTail, upTo, hd, dropWhile_ne_of_notMem hg, Option.map_none]
  · simp only [readTail, upTo, dropWhile_ne_of_notMem hq, Option.map_none]

theorem finds_readTail :
    Finds readTail FitsTail (fun t t' => t.body.length < t'.body.length) := by
  have hclosing : Finds closingAt (fun s x => IsClosing x.1 ∧ s = x.1 ++ x.2) (fun _ _ => False) :=
    Finds.of_iff fun _ _ => closingAt_eq_some_iff
  have hs := ((hclosing.search (fun _ => false)).upTo '>').upTo '"'
  rw [show readTail = _ from funext readTail_eq]
  refine hs.map _ ?_ ?_
  · intro s t
    constructor
    · obtain ⟨attributes, tagClose, body, closing, rest⟩ := t
      rintro ⟨rfl, hq, ⟨m, hm, rfl⟩, hc⟩
      refine ⟨(attributes, m, body, closing, rest), ?_, rfl⟩
      exact ⟨hq, _, rfl, _, by simp, hm, _, rfl, _, rfl, by simp, _, rfl, hc, rfl⟩
    · rintro ⟨⟨a, m, body, closing, rest⟩, hx, rfl⟩
      obtain ⟨hq, _, rfl, _, rfl, hm, _, rfl, _, rfl, -, _, rfl, hc, rfl⟩ := hx
      exact ⟨by simp, hq, ⟨m, hm, rfl⟩, hc⟩
  · intro s x x' _ _ hlt
    rcases hlt with hlt | ⟨-, hf⟩
    · exact hlt
    · exact hf.elim

theorem finds_readMarked (marker : List Char) :
    Finds (readMarked marker) (Behind (SameWord marker) FitsTail)
      (fun x y => x.2.body.length < y.2.body.length) :=
  finds_readTail.afterWord marker

/-- What may stand at the front of a text from `type="` on: the attribute and its value up to the
marker as one piece, then the marker and the rest. -/
def FitsValue (marker s : List Char) (x : List Char × List Char × Tail) : Prop :=
  ∃ typed value, SameWord typeWord typed ∧ '"' ∉ value ∧ x.1 = typed ++ value ∧
    ∃ rest, s = x.1 ++ rest ∧ Behind (SameWord marker) FitsTail rest x.2

/-- `readValue`, as its parts in a row. -/
theorem readValue_eq (marker s : List Char) :
    readValue marker s =
      (afterWord typeWord (search (readMarked marker) (· == '"') []) s).map
        fun x => (x.1 ++ x.2.1, x.2.2) := by
  simp only [readValue, afterWord, Option.bind_eq_bind]
  cases stripWord typeWord s with
  | none => rfl
  | some s' =>
    simp only [Option.bind_some]
    cases search (readMarked marker) (· == '"') [] s' <;> rfl

theorem finds_readValue (marker : List Char) :
    Finds (readValue marker) (FitsValue marker)
      (Sooner fun x y => x.2.body.length < y.2.body.length) := by
  have hs := ((finds_readMarked marker).search (· == '"')).afterWord typeWord
  rw [show readValue marker = _ from funext (readValue_eq marker)]
  refine hs.map _ ?_ ?_
  · rintro s ⟨front, found⟩
    constructor
    · rintro ⟨typed, value, ht, hv, hfront, rest, rfl, hm⟩
      simp only at hfront
      subst hfront
      refine ⟨(typed, value, found), ⟨ht, value ++ rest, by simp, ?_, rest, rfl, hm⟩, rfl⟩
      intro c hc
      simpa using fun heq : c = '"' => hv (heq ▸ hc)
    · rintro ⟨⟨typed, value, x⟩, ⟨ht, _, rfl, hv, rest, rfl, hm⟩, heq⟩
      obtain ⟨rfl, rfl⟩ := Prod.mk.inj heq
      exact ⟨typed, value, ht, fun hc => by simpa using hv _ hc, rfl, rest, by simp, hm⟩
  · rintro s x x' ⟨ht, -⟩ ⟨ht', -⟩ hlt
    have hlen := ht.length_eq.symm.trans ht'.length_eq
    simp only [Sooner, List.length_append] at hlt ⊢
    omega

/-! ## 5. The reader of a block -/

/-- The reading that the pieces of an element make, and the text behind it: the tag's name, the
blank, the run, `type="` with the value, the marker, and the rest. -/
def readingOf (x : List Char × Char × List Char × List Char × List Char × Tail) :
    Reading × List Char :=
  let (tag, blank, run, front, marker, tail) := x
  ({ run, value := front.drop typeWord.length,
     block := { opening := tag ++ blank :: (run ++ front), marker, attributes := tail.attributes,
                tagClose := tail.tagClose, body := tail.body, closing := tail.closing } },
    tail.rest)

/-- `blockAt`, with the parts of the opening kept. -/
def readingAt (marker s : List Char) : Option (Reading × List Char) :=
  (afterWord scriptWord (afterChar isBlank (search (readValue marker) (· == '>') [])) s).map
    readingOf

theorem blockAt_eq (marker s : List Char) :
    blockAt marker s = (readingAt marker s).map fun x => (x.1.block, x.2) := by
  simp only [blockAt, readingAt, afterWord, Option.bind_eq_bind, Option.map_map]
  cases hw : stripWord scriptWord s with
  | none => rfl
  | some s' =>
    cases s' with
    | nil => rfl
    | cons c s' =>
      simp only [Option.bind_some, afterChar]
      split
      · cases search (readValue marker) (· == '>') [] s' <;> rfl
      · rfl

/-- **The reader of a block finds the first reading.** -/
theorem finds_readingAt (m₀ : List Char) :
    Finds (readingAt m₀) (fun s x => x.1.Fits m₀ ∧ s = x.1.block.spell ++ x.2)
      (fun x y => x.1.Before y.1) := by
  have hs := (((finds_readValue m₀).search (· == '>')).afterChar isBlank).afterWord scriptWord
  refine hs.map _ ?_ ?_
  · rintro s ⟨⟨run, value, b⟩, rest⟩
    constructor
    · rintro ⟨⟨⟨tag, blank, typed, htag, hblank, hrun, htyped, hvalue, ho⟩, hm, ha, htc, hc⟩, rfl⟩
      obtain ⟨opening, m, attributes, tagClose, body, closing⟩ := b
      simp only at ho hm ha htc hc
      have hdrop : (typed ++ value).drop typeWord.length = value := by
        simp [htyped.length_eq]
      refine ⟨(tag, blank, run, typed ++ value, m, ⟨attributes, tagClose, body, closing, rest⟩),
        ?_, by simp only [readingOf, hdrop, ← ho]⟩
      have hstop : ∀ c ∈ run, (c == '>') = false := fun c hc => by
        simpa using fun heq : c = '>' => hrun (heq ▸ hc)
      subst ho
      have hbehind : Behind (SameWord m₀) FitsTail
          (m ++ (attributes ++ (tagClose ++ (body ++ (closing ++ rest)))))
          (m, ⟨attributes, tagClose, body, closing, rest⟩) :=
        ⟨hm, _, rfl, rfl, ha, htc, hc⟩
      exact ⟨htag, _, by simp [Block.spell], hblank, _, rfl, hstop, _, rfl, typed, value, htyped,
        hvalue, rfl, _, (List.append_assoc ..).symm, hbehind⟩
    · rintro ⟨⟨tag, blank, run', front, m, t⟩, hx, heq⟩
      obtain ⟨htag, _, rfl, hblank, _, rfl, hstop, _, rfl, hval⟩ := hx
      obtain ⟨typed, value', htyped, hvalue, rfl, _, rfl, hm, _, rfl, htail⟩ := hval
      have hdrop : (typed ++ value').drop typeWord.length = value' := by
        simp [htyped.length_eq]
      simp only [readingOf, hdrop, Prod.mk.injEq, Reading.mk.injEq] at heq
      obtain ⟨⟨rfl, rfl, rfl⟩, rfl⟩ := heq
      refine ⟨⟨⟨tag, blank, typed, htag, hblank, fun hc => ?_, htyped, hvalue, rfl⟩, hm,
        htail.attributes, htail.tagClose, htail.closing⟩, ?_⟩
      · simpa using hstop _ hc
      · have htext := htail.text
        simp only at htext
        simp [Block.spell, htext]
  · rintro s ⟨tag, blank, run, front, m, t⟩ ⟨tag', blank', run', front', m', t'⟩ hx hx' hlt
    obtain ⟨-, _, -, -, _, -, -, _, -, typed, value, htyped, -, rfl, -⟩ := hx
    obtain ⟨-, _, -, -, _, -, -, _, -, typed', value', htyped', -, rfl, -⟩ := hx'
    have hlen := htyped.length_eq
    have hlen' := htyped'.length_eq
    simp only [Sooner, List.length_append] at hlt
    simp only [Reading.Before, readingOf, List.length_drop, List.length_append]
    omega

/-! ## 6. What is read -/

/-- **A block is read exactly when it is the block of the first reading.** -/
theorem blockAt_eq_some_iff {marker s rest : List Char} {b : Block} :
    blockAt marker s = some (b, rest) ↔
      ∃ r : Reading, r.IsFirst marker s ∧ r.block = b ∧ s = b.spell ++ rest := by
  have hf := finds_readingAt marker
  have hfirst : ∀ {r rest}, readingAt marker s = some (r, rest) → r.IsFirst marker s := by
    intro r rest hr
    have hfit := hf.fits hr
    refine ⟨⟨hfit.1, rest, hfit.2.symm⟩, ?_⟩
    rintro r' ⟨hr', rest', hs'⟩
    rcases hf.first (b := (r', rest')) hr ⟨hr', hs'.symm⟩ with heq | hlt
    · exact Or.inl (Prod.mk.inj heq).1
    · exact Or.inr hlt
  rw [blockAt_eq]
  constructor
  · intro h
    obtain ⟨⟨r, rest'⟩, hr, heq⟩ := Option.map_eq_some_iff.mp h
    obtain ⟨rfl, rfl⟩ := Prod.mk.inj heq
    exact ⟨r, hfirst hr, rfl, (hf.fits hr).2⟩
  · rintro ⟨r, hr, rfl, hs⟩
    obtain ⟨⟨r', rest'⟩, hr'⟩ := hf.total (b := (r, rest)) ⟨hr.1.1, hs⟩
    obtain rfl := (hfirst hr').unique hr
    have hs' := (hf.fits hr').2
    obtain rfl := List.append_cancel_left (hs'.symm.trans hs)
    rw [hr']
    rfl

/-- **No block is read exactly when there is no reading.** -/
theorem blockAt_eq_none_iff {marker s : List Char} :
    blockAt marker s = none ↔ ∀ r : Reading, ¬ r.Of marker s := by
  rw [blockAt_eq, Option.map_eq_none_iff]
  constructor
  · rintro h r ⟨hr, rest, hs⟩
    obtain ⟨a, ha⟩ := (finds_readingAt marker).total (b := (r, rest)) ⟨hr, hs.symm⟩
    rw [h] at ha
    cases ha
  · intro h
    cases hr : readingAt marker s with
    | none => rfl
    | some x =>
      have hfit := (finds_readingAt marker).fits hr
      exact absurd ⟨hfit.1, x.2, hfit.2.symm⟩ (h x.1)

end Markup
end ScriptWeave
