/-
# Letter case never moves a block

The readers of a block compare letters without regard to case, and beside that they look for a
quotation mark, a `>` and blanks, none of which is a letter.  So they cannot tell a text from the
same text in small letters.  This is said of each reader by itself (`Lowers`): what it reads in the
text in small letters is what it reads in the text, in small letters.  It passes through the parts
that the readers are built from, a word, a character of a kind, a stretch up to a mark and a search,
and so from the closing tag up to the segments of a page (`segments_asciiLower`).

A capital of ASCII and its small letter take one byte each, so offsets in bytes stay as they are.

**Stated here.**  Markers and pages that differ in the case of ASCII letters alone have segments of
the same shapes, with all their pieces at the same offsets (`extents_segments_eq`).
-/
import Mathlib.Data.List.TakeWhile
import ScriptWeave.Markup.Segments
import ScriptWeave.Proofs.Markup.Seams

namespace ScriptWeave

/-! ## 1. Small letters -/

namespace Text

theorem sameLetter_toLower (a b : Char) : sameLetter a.toLower b.toLower = sameLetter a b := by
  rw [sameLetter, fold_toLower, fold_toLower, sameLetter]

theorem isBlank_toLower : ∀ c : Char, isBlank c.toLower = isBlank c :=
  forall_toLower (P := fun c d => isBlank d = isBlank c) (fun _ => rfl) (by decide)

theorem utf8Size_toLower : ∀ c : Char, c.toLower.utf8Size = c.utf8Size :=
  forall_toLower (P := fun c d => d.utf8Size = c.utf8Size) (fun _ => rfl) (by decide)

theorem isMark_bracket : IsMark '>' := ⟨by decide, by decide⟩

/-- A mark is the small letter of itself only. -/
theorem IsMark.toLower_eq_iff {mark : Char} (h : IsMark mark) (c : Char) :
    c.toLower = mark ↔ c = mark := by
  constructor
  · rintro rfl
    exact h.eq_of_sameLetter (by rw [sameLetter, fold_toLower, beq_self_eq_true])
  · rintro rfl
    exact toLower_eq_self h.isUpper_eq_false

theorem IsMark.beq_toLower {mark : Char} (h : IsMark mark) (c : Char) :
    (c.toLower == mark) = (c == mark) := by
  rw [Bool.eq_iff_iff, beq_iff_eq, beq_iff_eq]
  exact h.toLower_eq_iff c

section AsciiLower

variable (c : Char) (s t : List Char)

@[simp] theorem asciiLower_nil : asciiLower [] = [] := rfl

@[simp] theorem asciiLower_cons : asciiLower (c :: s) = c.toLower :: asciiLower s := rfl

@[simp] theorem asciiLower_append : asciiLower (s ++ t) = asciiLower s ++ asciiLower t :=
  List.map_append

@[simp] theorem asciiLower_reverse : asciiLower s.reverse = (asciiLower s).reverse :=
  List.map_reverse

@[simp] theorem asciiLower_take (n : Nat) : asciiLower (s.take n) = (asciiLower s).take n :=
  List.map_take

@[simp] theorem length_asciiLower : (asciiLower s).length = s.length := List.length_map _

variable {p : Char → Bool}

theorem takeWhile_asciiLower (hp : ∀ c : Char, p c.toLower = p c) :
    (asciiLower s).takeWhile p = asciiLower (s.takeWhile p) := by
  have hcomp : p ∘ Char.toLower = p := funext hp
  rw [asciiLower, List.takeWhile_map, hcomp, asciiLower]

theorem dropWhile_asciiLower (hp : ∀ c : Char, p c.toLower = p c) :
    (asciiLower s).dropWhile p = asciiLower (s.dropWhile p) := by
  have hcomp : p ∘ Char.toLower = p := funext hp
  rw [asciiLower, List.dropWhile_map, hcomp, asciiLower]

end AsciiLower

end Text

namespace Markup

open Text

/-! ## 2. Readers that do not see letter case -/

section Readers

variable {α β γ δ : Type} {read : List Char → Option α} {read' : List Char → Option β}
  {lower : α → β}

/-- What the second reader reads in a text in small letters is what the first one reads in the
text, in small letters. -/
def Lowers (read : List Char → Option α) (read' : List Char → Option β) (lower : α → β) : Prop :=
  ∀ s, read' (asciiLower s) = (read s).map lower

theorem Lowers.map (h : Lowers read read' lower) {f : α → γ} {f' : β → δ} {lower' : γ → δ}
    (hf : ∀ a, f' (lower a) = lower' (f a)) :
    Lowers (fun s => (read s).map f) (fun s => (read' s).map f') lower' := by
  intro s
  have hcomp : f' ∘ lower = lower' ∘ f := funext hf
  dsimp only
  rw [h s, Option.map_map, Option.map_map, hcomp]

theorem lowers_stripWord (w : List Char) :
    Lowers (stripWord w) (stripWord (asciiLower w)) asciiLower := by
  intro s
  fun_induction stripWord w s with
  | case1 s => rfl
  | case2 w ws => rfl
  | case3 w ws c s hc ih => simpa [stripWord, sameLetter_toLower, hc] using ih
  | case4 w ws c s hc => simp [stripWord, sameLetter_toLower, hc]

theorem Lowers.afterWord (h : Lowers read read' lower) (w : List Char) :
    Lowers (afterWord w read) (afterWord (asciiLower w) read') (Prod.map asciiLower lower) := by
  intro s
  simp only [Markup.afterWord, Option.bind_eq_bind, lowers_stripWord w s]
  cases stripWord w s with
  | none => rfl
  | some s' =>
    simp only [Option.map_some, Option.bind_some, h s']
    cases read s' with
    | none => rfl
    | some a => simp

theorem Lowers.afterChar (h : Lowers read read' lower) {p : Char → Bool}
    (hp : ∀ c : Char, p c.toLower = p c) :
    Lowers (afterChar p read) (afterChar p read') (Prod.map Char.toLower lower) := by
  intro s
  cases s with
  | nil => rfl
  | cons c s =>
    simp only [asciiLower_cons, Markup.afterChar, hp, h s]
    split
    · rw [Option.map_map, Option.map_map]
      rfl
    · rfl

theorem Lowers.upTo (h : Lowers read read' lower) {mark : Char} (hmark : IsMark mark) :
    Lowers (upTo mark read) (upTo mark read') (Prod.map asciiLower lower) := by
  intro s
  have hp : ∀ c : Char, (fun c => decide (c ≠ mark)) c.toLower = decide (c ≠ mark) := fun c => by
    simp [hmark.toLower_eq_iff c]
  simp only [Markup.upTo]
  rw [takeWhile_asciiLower s hp, dropWhile_asciiLower s hp]
  cases s.dropWhile (fun c => decide (c ≠ mark)) with
  | nil => rfl
  | cons c rest =>
    simp only [asciiLower_cons, h rest, Option.map_map]
    rfl

theorem Lowers.search_seen (h : Lowers read read' lower) {stops : Char → Bool}
    (hstops : ∀ c : Char, stops c.toLower = stops c) (seen s : List Char) :
    search read' stops (asciiLower seen) (asciiLower s)
      = (search read stops seen s).map (Prod.map asciiLower lower) := by
  induction s generalizing seen with
  | nil =>
    have hnil := h []
    rw [asciiLower_nil] at hnil
    simp [Markup.search, hnil, Function.comp_def]
  | cons c s ih =>
    have hcons := h (c :: s)
    have hseen := ih (c :: seen)
    rw [asciiLower_cons] at hcons hseen
    simp only [asciiLower_cons, Markup.search, hcons, hstops]
    cases read (c :: s) with
    | some a => simp
    | none =>
      simp only [Option.map_none]
      split
      · rfl
      · exact hseen

theorem Lowers.search (h : Lowers read read' lower) (stops : Char → Bool)
    (hstops : ∀ c : Char, stops c.toLower = stops c) :
    Lowers (search read stops []) (search read' stops []) (Prod.map asciiLower lower) :=
  h.search_seen hstops []

end Readers

/-! ## 3. The readers of a block -/

theorem lowers_closingAt : Lowers closingAt closingAt (Prod.map asciiLower asciiLower) := by
  intro s
  have hword : stripWord closingWord (asciiLower s) = (stripWord closingWord s).map asciiLower :=
    lowers_stripWord closingWord s
  simp only [closingAt, hword]
  cases stripWord closingWord s with
  | none => rfl
  | some s' =>
    simp only [Option.map_some, Option.bind_eq_bind, Option.bind_some]
    rw [takeWhile_asciiLower s' isBlank_toLower, dropWhile_asciiLower s' isBlank_toLower]
    cases s'.dropWhile isBlank with
    | nil => rfl
    | cons c rest =>
      by_cases hc : c = '>'
      · subst hc
        simp
      · have hlower : c.toLower ≠ '>' := fun heq => hc ((isMark_bracket.toLower_eq_iff c).mp heq)
        simp [hc, hlower]

/-- What follows the marker, in small letters. -/
def Tail.lower (t : Tail) : Tail :=
  ⟨asciiLower t.attributes, asciiLower t.tagClose, asciiLower t.body, asciiLower t.closing,
    asciiLower t.rest⟩

theorem lowers_readTail : Lowers readTail readTail Tail.lower := by
  have hparts := ((lowers_closingAt.search (fun _ => false) fun _ => rfl).upTo
    isMark_bracket).upTo isMark_quote
  rw [show readTail = _ from funext readTail_eq]
  refine hparts.map fun x => ?_
  simp [Tail.lower]

theorem lowers_readMarked (marker : List Char) :
    Lowers (readMarked marker) (readMarked (asciiLower marker)) (Prod.map asciiLower Tail.lower) :=
  lowers_readTail.afterWord marker

theorem lowers_readValue (marker : List Char) :
    Lowers (readValue marker) (readValue (asciiLower marker))
      (Prod.map asciiLower (Prod.map asciiLower Tail.lower)) := by
  have hparts := ((lowers_readMarked marker).search (· == '"')
    isMark_quote.beq_toLower).afterWord typeWord
  rw [show readValue marker = _ from funext (readValue_eq marker),
    show readValue (asciiLower marker) = _ from funext (readValue_eq (asciiLower marker))]
  refine hparts.map fun x => ?_
  simp

/-- The block with its pieces in small letters. -/
def Block.lower (b : Block) : Block :=
  ⟨asciiLower b.opening, asciiLower b.marker, asciiLower b.attributes, asciiLower b.tagClose,
    asciiLower b.body, asciiLower b.closing⟩

theorem lowers_blockAt (marker : List Char) :
    Lowers (blockAt marker) (blockAt (asciiLower marker)) (Prod.map Block.lower asciiLower) := by
  have hparts := (((lowers_readValue marker).search (· == '>')
    isMark_bracket.beq_toLower).afterChar isBlank_toLower).afterWord scriptWord
  have hread : ∀ m, blockAt m = fun s =>
      (afterWord scriptWord (afterChar isBlank (search (readValue m) (· == '>') [])) s).map
        fun x => ((readingOf x).1.block, (readingOf x).2) := by
    intro m
    funext s
    rw [blockAt_eq, readingAt, Option.map_map]
    rfl
  rw [hread, hread]
  refine hparts.map fun x => ?_
  simp [readingOf, Block.lower, Tail.lower]

/-! ## 4. Segments -/

namespace Segment

/-- The segment in small letters. -/
def lower : Segment → Segment
  | literal text => literal (asciiLower text)
  | block b => block b.lower

/-- The pieces of a segment, in the order they stand in. -/
def pieces : Segment → List (List Char)
  | literal text => [text]
  | block b => b.pieces

theorem isBlock_lower (s : Segment) : s.lower.isBlock = s.isBlock := by
  cases s <;> rfl

theorem pieces_lower (s : Segment) : s.lower.pieces = s.pieces.map asciiLower := by
  cases s <;> rfl

theorem spell_lower (s : Segment) : s.lower.spell = asciiLower s.spell := by
  cases s with
  | literal text => rfl
  | block b => simp [lower, Block.lower, spell, Block.spell]

end Segment

theorem literalOf_asciiLower (seen : List Char) :
    literalOf (asciiLower seen) = (literalOf seen).map Segment.lower := by
  cases seen with
  | nil => rfl
  | cons c seen => simp [literalOf, Segment.lower]

/-- A scan in small letters, from the place where the characters `seen` have been passed. -/
theorem scan_asciiLower (marker seen s : List Char) :
    scan (asciiLower marker) (asciiLower seen) (asciiLower s)
      = (scan marker seen s).map Segment.lower := by
  fun_induction scan marker seen s with
  | case1 seen s b rest h ih =>
    have hb := lowers_blockAt marker s
    rw [h] at hb
    rw [asciiLower_nil] at ih
    rw [scan_of_some hb, ih, literalOf_asciiLower, List.map_append]
    rfl
  | case2 seen => rw [asciiLower_nil, scan_nil, literalOf_asciiLower]
  | case3 seen c s h ih =>
    have hb := lowers_blockAt marker (c :: s)
    rw [h] at hb
    exact (scan_of_none hb).trans ih

/-- **The segments of a page in small letters** are the segments of the page, in small letters. -/
theorem segments_asciiLower (marker page : List Char) :
    segments (asciiLower marker) (asciiLower page) = (segments marker page).map Segment.lower := by
  rw [segments_eq_scan, segments_eq_scan]
  exact scan_asciiLower marker [] page

/-! ## 5. Offsets -/

/-- The length of a text in bytes. -/
def byteLength (s : List Char) : Nat := (String.ofList s).utf8ByteSize

/-- The first and the last offset of each of some texts that stand in a row, in bytes. -/
def spans (pos : Nat) : List (List Char) → List (Nat × Nat)
  | [] => []
  | text :: rest => (pos, pos + byteLength text) :: spans (pos + byteLength text) rest

/-- The shape of a segment, and where its pieces lie. -/
structure Extent where
  isBlock : Bool
  pieces : List (Nat × Nat)
  deriving DecidableEq

/-- The extents of some segments that stand in a row. -/
def extents (pos : Nat) : List Segment → List Extent
  | [] => []
  | s :: rest => ⟨s.isBlock, spans pos s.pieces⟩ :: extents (pos + byteLength s.spell) rest

theorem byteLength_asciiLower (s : List Char) : byteLength (asciiLower s) = byteLength s := by
  induction s with
  | nil => rfl
  | cons c s ih =>
    have hcons : ∀ (d : Char) (t : List Char), byteLength (d :: t) = d.utf8Size + byteLength t := by
      intro d t
      rw [byteLength, String.ofList_cons, String.utf8ByteSize_append,
        String.utf8ByteSize_singleton, byteLength]
    rw [asciiLower_cons, hcons, hcons, ih, utf8Size_toLower]

theorem spans_map_asciiLower (pos : Nat) (texts : List (List Char)) :
    spans pos (texts.map asciiLower) = spans pos texts := by
  induction texts generalizing pos with
  | nil => rfl
  | cons text texts ih => rw [List.map_cons, spans, byteLength_asciiLower, ih, spans]

theorem extents_map_lower (pos : Nat) (segments : List Segment) :
    extents pos (segments.map Segment.lower) = extents pos segments := by
  induction segments generalizing pos with
  | nil => rfl
  | cons s segments ih =>
    rw [List.map_cons, extents, s.isBlock_lower, s.pieces_lower, spans_map_asciiLower,
      s.spell_lower, byteLength_asciiLower, ih, extents]

/-- **Letter case never moves a block.**  Where markers and pages are equal up to the case of ASCII
letters, the segments have the same shapes and all their pieces the same offsets. -/
theorem extents_segments_eq {marker marker' page page' : List Char}
    (hmarker : asciiLower marker = asciiLower marker') (hpage : asciiLower page = asciiLower page') :
    extents 0 (segments marker page) = extents 0 (segments marker' page') := by
  rw [← extents_map_lower, ← segments_asciiLower, hmarker, hpage, segments_asciiLower,
    extents_map_lower]

/-- One page in small letters and in capitals, behind a letter of two bytes. -/
theorem extents_segments_capitals :
    asciiLower "text/jsx".toList = asciiLower "Text/JSX".toList ∧
    asciiLower "é<script type=\"text/jsx;a=B\">x</script>".toList
      = asciiLower "é<SCRIPT TYPE=\"TEXT/jsx;A=b\">X</sCript>".toList ∧
    extents 0 (segments "Text/JSX".toList "é<SCRIPT TYPE=\"TEXT/jsx;A=b\">X</sCript>".toList)
      = [⟨false, [(0, 2)]⟩,
         ⟨true, [(2, 16), (16, 24), (24, 28), (28, 30), (30, 31), (31, 40)]⟩] := by
  have hsmall : extents 0
      (segments "text/jsx".toList "é<script type=\"text/jsx;a=B\">x</script>".toList)
        = [⟨false, [(0, 2)]⟩,
           ⟨true, [(2, 16), (16, 24), (24, 28), (28, 30), (30, 31), (31, 40)]⟩] := by
    decide +kernel
  have hmarker : asciiLower "text/jsx".toList = asciiLower "Text/JSX".toList := by decide
  have hpage : asciiLower "é<script type=\"text/jsx;a=B\">x</script>".toList
      = asciiLower "é<SCRIPT TYPE=\"TEXT/jsx;A=b\">X</sCript>".toList := by decide
  exact ⟨hmarker, hpage, (extents_segments_eq hmarker hpage).symm.trans hsmall⟩

end Markup
end ScriptWeave
