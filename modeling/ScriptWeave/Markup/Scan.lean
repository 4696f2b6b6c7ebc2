/-
# Finding the blocks of a page

A block starts at `<script` and a blank.  From there the reader goes on as follows, and every choice
it has is the *earliest* one that leads to a whole block:

1. some characters, none of them `>`, up to `type="`;
2. some characters, none of them a quotation mark, up to the marker;
3. the rest of the value, up to its quotation mark;
4. the rest of the tag, up to its `>`;
5. the body, up to the first `</script`, blanks, `>`.

Letters are compared without regard to case, by `Text.sameLetter`.  Only 1, 2 and the start of 5
are choices, and all three are one function: `search` takes the first place at which a given
reading succeeds, and gives up at a character that may not be passed.

**Stated here.**  What `search` skips and finds (`search_eq_some`), that a block that is read is the
front of the text (`blockAt_eq_some`), hence that scanning ends and that what it finds spells
the page (`spellAll_scan`).
-/
import ScriptWeave.Markup.Block
import ScriptWeave.Text.Blank
import ScriptWeave.Text.CaseFold

namespace ScriptWeave.Markup

open ScriptWeave.Text

/-! ## 1. Words and searches -/

/-- The text behind a word, if the text begins with it; case is set aside. -/
def stripWord : List Char → List Char → Option (List Char)
  | [], s => some s
  | _ :: _, [] => none
  | w :: ws, c :: s => if sameLetter w c then stripWord ws s else none

/-- The first place, from the front of the text on, at which `here` succeeds, unless a character
that `stops` stands before it.  `seen` holds the characters passed so far, the latest first. -/
def search {α : Type} (here : List Char → Option α) (stops : Char → Bool) (seen : List Char) :
    List Char → Option (List Char × α)
  | [] => (here []).map fun a => (seen.reverse, a)
  | c :: s =>
    match here (c :: s) with
    | some a => some (seen.reverse, a)
    | none => if stops c then none else search here stops (c :: seen) s

/-- A word that is stripped off is as long as what it was compared with. -/
theorem stripWord_eq_some {w s rest : List Char} (h : stripWord w s = some rest) :
    s = s.take w.length ++ rest := by
  induction w generalizing s with
  | nil => simp_all [stripWord]
  | cons x xs ih =>
    cases s with
    | nil => simp [stripWord] at h
    | cons c s =>
      simp only [stripWord] at h
      split at h
      · simpa using ih h
      · simp at h

/-- What a search passes and where it ends. -/
theorem search_eq_some {α : Type} {here : List Char → Option α} {stops : Char → Bool}
    {seen s front : List Char} {a : α} (h : search here stops seen s = some (front, a)) :
    ∃ passed rest, front = seen.reverse ++ passed ∧ s = passed ++ rest ∧ here rest = some a ∧
      ∀ c ∈ passed, stops c = false := by
  induction s generalizing seen with
  | nil =>
    obtain ⟨b, hb, heq⟩ := Option.map_eq_some_iff.1 h
    simp only [Prod.mk.injEq] at heq
    exact ⟨[], [], by simp [heq.1], rfl, heq.2 ▸ hb, by simp⟩
  | cons c s ih =>
    simp only [search] at h
    split at h
    · next b hb =>
      simp only [Option.some.injEq, Prod.mk.injEq] at h
      exact ⟨[], c :: s, by simp [h.1], rfl, h.2 ▸ hb, by simp⟩
    · split at h
      · simp at h
      · next hstop =>
        obtain ⟨passed, rest, hf, hs, hh, hp⟩ := ih h
        refine ⟨c :: passed, rest, by simp [hf], by simp [hs], hh, ?_⟩
        simpa using ⟨by simpa using hstop, hp⟩

/-! ## 2. Reading a block -/

/-- The word that opens a script element. -/
def scriptWord : List Char := ['<', 's', 'c', 'r', 'i', 'p', 't']

/-- The attribute whose value carries the marker, and the quotation mark before the value. -/
def typeWord : List Char := ['t', 'y', 'p', 'e', '=', '"']

/-- The word that closes a script element. -/
def closingWord : List Char := ['<', '/', 's', 'c', 'r', 'i', 'p', 't']

/-- A closing tag, and the text behind it. -/
def closingAt (s : List Char) : Option (List Char × List Char) := do
  let s' ← stripWord closingWord s
  match s'.dropWhile isBlank with
  | '>' :: rest =>
    some (s.take closingWord.length ++ s'.takeWhile isBlank ++ ['>'], rest)
  | _ => none

/-- What follows the marker: the rest of the value, of the tag, and of the element. -/
structure Tail where
  attributes : List Char
  tagClose : List Char
  body : List Char
  closing : List Char
  rest : List Char

/-- Reads what follows the marker. -/
def readTail (s : List Char) : Option Tail :=
  match s.dropWhile (· ≠ '"') with
  | '"' :: s₁ =>
    match s₁.dropWhile (· ≠ '>') with
    | '>' :: s₂ => do
      let (body, closing, rest) ← search closingAt (fun _ => false) [] s₂
      some ⟨s.takeWhile (· ≠ '"'), '"' :: (s₁.takeWhile (· ≠ '>') ++ ['>']), body, closing, rest⟩
    | _ => none
  | _ => none

/-- Reads the marker, as it is written here, and what follows it. -/
def readMarked (marker s : List Char) : Option (List Char × Tail) := do
  let tail ← readTail (← stripWord marker s)
  some (s.take marker.length, tail)

/-- Reads `type="`, the value up to the marker, and the rest. -/
def readValue (marker s : List Char) : Option (List Char × List Char × Tail) := do
  let s' ← stripWord typeWord s
  let (front, found) ← search (readMarked marker) (· == '"') [] s'
  some (s.take typeWord.length ++ front, found)

/-- The block at the front of a text, if there is one, and the text behind it. -/
def blockAt (marker s : List Char) : Option (Block × List Char) :=
  match stripWord scriptWord s with
  | some (blank :: s') =>
    if isBlank blank then do
      let (run, front, marker, tail) ← search (readValue marker) (· == '>') [] s'
      some ({ opening := s.take scriptWord.length ++ blank :: (run ++ front), marker,
              attributes := tail.attributes, tagClose := tail.tagClose, body := tail.body,
              closing := tail.closing }, tail.rest)
    else none
  | _ => none

/-! ## 3. A block that is read is the front of the text -/

theorem closingAt_eq_some {s closing rest : List Char} (h : closingAt s = some (closing, rest)) :
    s = closing ++ rest := by
  simp only [closingAt, Option.bind_eq_bind, Option.bind_eq_some_iff] at h
  obtain ⟨s', hs', h⟩ := h
  split at h
  · next rest' hd =>
    simp only [Option.some.injEq, Prod.mk.injEq] at h
    obtain ⟨rfl, rfl⟩ := h
    have := List.takeWhile_append_dropWhile (p := isBlank) (l := s')
    rw [hd] at this
    conv => lhs; rw [stripWord_eq_some hs', ← this]
    simp
  · simp at h

theorem readTail_eq_some {s : List Char} {t : Tail} (h : readTail s = some t) :
    s = t.attributes ++ t.tagClose ++ t.body ++ t.closing ++ t.rest := by
  simp only [readTail] at h
  split at h
  · next s₁ h₁ =>
    split at h
    · next s₂ h₂ =>
      simp only [Option.bind_eq_bind, Option.bind_eq_some_iff, Option.some.injEq] at h
      obtain ⟨⟨body, closing, rest⟩, hsearch, rfl⟩ := h
      obtain ⟨passed, r, hp, hs, hc, -⟩ := search_eq_some hsearch
      have e₁ := List.takeWhile_append_dropWhile (p := (· ≠ '"')) (l := s)
      have e₂ := List.takeWhile_append_dropWhile (p := (· ≠ '>')) (l := s₁)
      rw [h₁, ← e₂, h₂, hs, closingAt_eq_some hc] at e₁
      conv => lhs; rw [← e₁]
      simp [hp]
    · simp at h
  · simp at h

theorem readMarked_eq_some {marker s m : List Char} {t : Tail}
    (h : readMarked marker s = some (m, t)) :
    s = m ++ t.attributes ++ t.tagClose ++ t.body ++ t.closing ++ t.rest := by
  simp only [readMarked, Option.bind_eq_bind, Option.bind_eq_some_iff, Option.some.injEq,
    Prod.mk.injEq] at h
  obtain ⟨s', hs', t', ht', rfl, rfl⟩ := h
  conv => lhs; rw [stripWord_eq_some hs', readTail_eq_some ht']
  simp

theorem readValue_eq_some {marker s front m : List Char} {t : Tail}
    (h : readValue marker s = some (front, m, t)) :
    s = front ++ m ++ t.attributes ++ t.tagClose ++ t.body ++ t.closing ++ t.rest := by
  simp only [readValue, Option.bind_eq_bind, Option.bind_eq_some_iff, Option.some.injEq] at h
  obtain ⟨s', hs', ⟨run, found⟩, hsearch, heq⟩ := h
  obtain ⟨passed, r, hp, hs, hc, -⟩ := search_eq_some hsearch
  simp only [Prod.mk.injEq] at heq
  obtain ⟨rfl, rfl⟩ := heq
  conv => lhs; rw [stripWord_eq_some hs', hs, readMarked_eq_some hc]
  simp [hp]

/-- A block that is read, and the text behind it, are the text. -/
theorem blockAt_eq_some {marker s rest : List Char} {b : Block}
    (h : blockAt marker s = some (b, rest)) : s = b.spell ++ rest := by
  simp only [blockAt] at h
  split at h
  · next blank s' hs' =>
    split at h
    · simp only [Option.bind_eq_bind, Option.bind_eq_some_iff, Option.some.injEq] at h
      obtain ⟨⟨run, front, m, t⟩, hsearch, heq⟩ := h
      obtain ⟨passed, r, hp, hs, hc, -⟩ := search_eq_some hsearch
      simp only [Prod.mk.injEq] at heq
      obtain ⟨rfl, rfl⟩ := heq
      conv => lhs; rw [stripWord_eq_some hs', hs, readValue_eq_some hc]
      simp [hp, Block.spell]
    · simp at h
  · simp at h

/-- A block is not empty, so the text behind it is shorter. -/
theorem length_lt_of_blockAt {marker s rest : List Char} {b : Block}
    (h : blockAt marker s = some (b, rest)) : rest.length < s.length := by
  have hs := blockAt_eq_some h
  have hne : b.opening ≠ [] := by
    simp only [blockAt] at h
    split at h
    · split at h
      · simp only [Option.bind_eq_bind, Option.bind_eq_some_iff, Option.some.injEq] at h
        obtain ⟨⟨run, front, m, t⟩, -, heq⟩ := h
        simp only [Prod.mk.injEq] at heq
        obtain ⟨rfl, -⟩ := heq
        simp
      · simp at h
    · simp at h
  have hpos : 0 < b.opening.length := List.length_pos_iff.2 hne
  rw [hs]
  simp only [Block.spell, List.length_append]
  omega

/-! ## 4. Scanning -/

/-- The literal segment of the characters passed, the latest first; none if there are none. -/
def literalOf (seen : List Char) : List Segment :=
  if seen = [] then [] else [.literal seen.reverse]

/-- The segments of a text behind the characters `seen`, the latest first, that belong to no block.
-/
def scan (marker seen s : List Char) : List Segment :=
  match _h : blockAt marker s with
  | some (b, rest) => literalOf seen ++ .block b :: scan marker [] rest
  | none =>
    match s with
    | [] => literalOf seen
    | c :: s => scan marker (c :: seen) s
termination_by s.length
decreasing_by
  · exact length_lt_of_blockAt _h
  · simp

theorem scan_nil (marker seen : List Char) : scan marker seen [] = literalOf seen := by
  rw [scan]
  split
  · next h => simpa using length_lt_of_blockAt h
  · rfl

theorem scan_of_some {marker seen s rest : List Char} {b : Block}
    (h : blockAt marker s = some (b, rest)) :
    scan marker seen s = literalOf seen ++ .block b :: scan marker [] rest := by
  rw [scan]
  split
  · next b' rest' h' =>
    obtain ⟨rfl, rfl⟩ : b = b' ∧ rest = rest' := by simpa [h] using h'
    rfl
  · next h' => simp [h] at h'

theorem scan_of_none {marker seen s : List Char} {c : Char}
    (h : blockAt marker (c :: s) = none) :
    scan marker seen (c :: s) = scan marker (c :: seen) s := by
  rw [scan]
  split
  · next h' => simp [h] at h'
  · rfl

theorem spellAll_literalOf (seen : List Char) :
    Segment.spellAll (literalOf seen) = seen.reverse := by
  unfold literalOf
  split
  · simp [*]
  · simp [Segment.spell]

theorem spellAll_scan (marker seen s : List Char) :
    Segment.spellAll (scan marker seen s) = seen.reverse ++ s := by
  fun_induction scan marker seen s with
  | case1 seen s b rest h ih =>
    simp only [Segment.spellAll, List.flatMap_append, List.flatMap_cons] at *
    rw [ih, ← Segment.spellAll, spellAll_literalOf]
    simp [blockAt_eq_some h, Segment.spell]
  | case2 seen => simp [spellAll_literalOf]
  | case3 seen c s _ ih => simp [ih]

end ScriptWeave.Markup
