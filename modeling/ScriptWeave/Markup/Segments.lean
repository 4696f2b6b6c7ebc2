/-
# The segments of a page, in one pass

`scan` tries every place of a page, and an attempt that fails may have read to the end.  Two
observations spare that work without changing a segment.

* Behind some place nothing can be closed any more: there is no quotation mark with a `>` and a
  closing tag behind it.  `closable` is the least length of text in which all three still stand.
  Where less is left, no tail is read, and where that much is left, a tail is found.
* An attempt that fails has seen every `type="` up to the next `>`.  A block that would start before
  that `>` has no others to choose from, so the scan goes on at the `>`.

The readers of `Markup.Scan` appear here with the length of the text that is left beside it.

**Stated here.**  No tail is read where less than `closable` is left (`readTail_eq_none`); each
reader agrees with its plain form (`blockLeft_eq_blockAt`); a failed attempt speaks for all places
before the `>` (`scan_eq_of_dead`); hence the segments are those of the plain scan
(`segments_eq_scan`) and spell the page (`spellAll_segments`).
-/
import ScriptWeave.Markup.Scan

namespace ScriptWeave.Markup

open ScriptWeave.Text

/-! ## 1. Where nothing can be closed any more -/

/-- What stands before the last closing tag, the latest first. -/
def beforeClosing : List Char → List Char → Option (List Char)
  | [], rest => if (closingAt rest).isSome then some [] else none
  | c :: front, rest =>
    if (closingAt rest).isSome then some (c :: front) else beforeClosing front (c :: rest)

/-- What stands before the last `c`; the text and the answer are given the latest first. -/
def beforeLast (c : Char) : List Char → Option (List Char)
  | [] => none
  | d :: front => if d = c then some front else beforeLast c front

/-- How much of a page must be left for a tail to be read. -/
def closable (page : List Char) : Nat :=
  match ((beforeClosing page.reverse []).bind (beforeLast '>')).bind (beforeLast '"') with
  | some front => page.length - front.length
  | none => page.length + 1

theorem prefix_of_beforeClosing {front rest x u : List Char} (hs : front.reverse ++ rest = x ++ u)
    (hx : x.length ≤ front.length) (hu : (closingAt u).isSome) :
    ∃ f, beforeClosing front rest = some f ∧ x <+: f.reverse := by
  induction front generalizing rest with
  | nil =>
    obtain rfl : x = [] := List.length_eq_zero_iff.1 (by simpa using hx)
    obtain rfl : rest = u := by simpa using hs
    exact ⟨[], by simp [beforeClosing, hu], by simp⟩
  | cons c front ih =>
    by_cases hc : (closingAt rest).isSome
    · refine ⟨c :: front, by simp [beforeClosing, hc], ?_⟩
      exact List.prefix_of_prefix_length_le (hs ▸ List.prefix_append x u)
        (List.prefix_append _ rest) (by simpa using hx)
    · have hlt : x.length ≠ (c :: front).length := by
        intro heq
        have := List.append_inj_right hs (by simpa using heq.symm)
        exact hc (this ▸ hu)
      have hs' : front.reverse ++ c :: rest = x ++ u := by simpa using hs
      obtain ⟨f, hf, hp⟩ := ih hs'
        (by simp only [List.length_cons] at hx hlt; omega)
      exact ⟨f, by simp [beforeClosing, hc, hf], hp⟩

theorem prefix_of_beforeLast {c : Char} {x front : List Char} (h : x ++ [c] <+: front.reverse) :
    ∃ f, beforeLast c front = some f ∧ x <+: f.reverse := by
  induction front with
  | nil => simp at h
  | cons d front ih =>
    have hlen := h.length_le
    simp only [List.length_append, List.length_cons, List.length_nil, List.length_reverse] at hlen
    rw [List.reverse_cons] at h
    by_cases hd : d = c
    · refine ⟨front, by simp [beforeLast, hd], ?_⟩
      exact List.prefix_of_prefix_length_le ((List.prefix_append x [c]).trans h)
        (List.prefix_append _ [d]) (by simpa using by omega)
    · have hlt : x.length ≠ front.length := by
        intro heq
        have := h.eq_of_length (by simp [heq])
        have := List.append_inj_right this (by simp [heq])
        simp only [List.cons.injEq, and_true] at this
        exact hd this.symm
      obtain ⟨f, hf, hp⟩ := ih (List.prefix_of_prefix_length_le h (List.prefix_append _ [d])
        (by simpa using by omega))
      exact ⟨f, by simp [beforeLast, hd, hf], hp⟩

/-- A tail has a quotation mark, a `>` behind it, and a closing tag behind that. -/
theorem closes_of_readTail {s : List Char} {t : Tail} (h : readTail s = some t) :
    ∃ a b d u, s = a ++ '"' :: b ++ '>' :: d ++ u ∧ (closingAt u).isSome := by
  simp only [readTail] at h
  split at h
  · next s₁ h₁ =>
    split at h
    · next s₂ h₂ =>
      simp only [Option.bind_eq_bind, Option.bind_eq_some_iff, Option.some.injEq] at h
      obtain ⟨⟨body, closing, rest⟩, hsearch, -⟩ := h
      obtain ⟨d, u, -, hs, hc, -⟩ := search_eq_some hsearch
      have e₁ := List.takeWhile_append_dropWhile (p := (· ≠ '"')) (l := s)
      have e₂ := List.takeWhile_append_dropWhile (p := (· ≠ '>')) (l := s₁)
      rw [h₁, ← e₂, h₂, hs] at e₁
      exact ⟨s.takeWhile (· ≠ '"'), s₁.takeWhile (· ≠ '>'), d, u,
        e₁.symm.trans (by simp), by simp [hc]⟩
    · simp at h
  · simp at h

/-- Where less than `closable` is left of a page, no tail is read. -/
theorem readTail_eq_none {page s : List Char} (hs : s <:+ page) (hl : s.length < closable page) :
    readTail s = none := by
  rw [Option.eq_none_iff_forall_ne_some]
  intro t ht
  obtain ⟨w, hw⟩ := hs
  obtain ⟨a, b, d, u, hs, hu⟩ := closes_of_readTail ht
  have hpage : page.reverse.reverse ++ [] = (w ++ a ++ '"' :: b ++ '>' :: d) ++ u := by
    rw [← hw, hs]; simp
  obtain ⟨f, hf, hp⟩ := prefix_of_beforeClosing hpage
    (by have := congrArg List.length hpage; simp only [List.length_append, List.length_reverse,
          List.length_nil, List.length_cons] at this ⊢; omega) hu
  obtain ⟨g, hg, hq⟩ := prefix_of_beforeLast (c := '>') (x := w ++ a ++ '"' :: b)
    (List.IsPrefix.trans ⟨d, by simp⟩ hp)
  obtain ⟨e, he, hr⟩ := prefix_of_beforeLast (c := '"') (x := w ++ a)
    (List.IsPrefix.trans ⟨b, by simp⟩ hq)
  have h₁ := hr.length_le
  have h₂ := congrArg List.length hw
  simp only [closable, hf, Option.bind_some, hg, he] at hl
  simp only [List.length_append, List.length_reverse] at h₁ h₂
  omega

/-! ## 2. The readers, with the length that is left -/

/-- `search`, for a reader that is told how much text is left. -/
def searchLeft {α : Type} (here : Nat → List Char → Option α) (stops : Char → Bool)
    (seen : List Char) : Nat → List Char → Option (List Char × α)
  | n, [] => (here n []).map fun a => (seen.reverse, a)
  | n, c :: s =>
    match here n (c :: s) with
    | some a => some (seen.reverse, a)
    | none => if stops c then none else searchLeft here stops (c :: seen) (n - 1) s

/-- `readMarked`, unless too little is left behind the marker. -/
def markedLeft (least : Nat) (marker : List Char) (width n : Nat) (s : List Char) :
    Option (List Char × Tail) := do
  let s' ← stripWord marker s
  if n - width < least then none
  else do
    let tail ← readTail s'
    some (s.take marker.length, tail)

/-- `readValue`, with the length that is left. -/
def valueLeft (least : Nat) (marker : List Char) (width n : Nat) (s : List Char) :
    Option (List Char × List Char × Tail) := do
  let s' ← stripWord typeWord s
  let (front, found) ←
    searchLeft (markedLeft least marker width) (· == '"') [] (n - typeWord.length) s'
  some (s.take typeWord.length ++ front, found)

/-- `blockAt`, with the length that is left. -/
def blockLeft (least : Nat) (marker : List Char) (width n : Nat) (s : List Char) :
    Option (Block × List Char) :=
  match stripWord scriptWord s with
  | some (blank :: s') =>
    if isBlank blank then do
      let (run, front, marker, tail) ←
        searchLeft (valueLeft least marker width) (· == '>') [] (n - (scriptWord.length + 1)) s'
      some ({ opening := s.take scriptWord.length ++ blank :: (run ++ front), marker,
              attributes := tail.attributes, tagClose := tail.tagClose, body := tail.body,
              closing := tail.closing }, tail.rest)
    else none
  | _ => none

theorem length_of_stripWord {w s rest : List Char} (h : stripWord w s = some rest) :
    rest.length = s.length - w.length ∧ rest <:+ s := by
  induction w generalizing s with
  | nil => simp_all [stripWord]
  | cons x xs ih =>
    cases s with
    | nil => simp [stripWord] at h
    | cons c s =>
      simp only [stripWord] at h
      split at h
      · exact ⟨by simpa using (ih h).1, (ih h).2.trans (List.suffix_cons c s)⟩
      · simp at h

theorem searchLeft_eq_search {α : Type} {here : Nat → List Char → Option α}
    {plain : List Char → Option α} {stops : Char → Bool} {seen s : List Char}
    (h : ∀ t, t <:+ s → here t.length t = plain t) :
    searchLeft here stops seen s.length s = search plain stops seen s := by
  induction s generalizing seen with
  | nil => simp [searchLeft, search, ← h [] (List.suffix_refl _)]
  | cons c s ih =>
    have hc := h (c :: s) (List.suffix_refl _)
    have ih := @ih (c :: seen) fun t ht => h t (ht.trans (List.suffix_cons c s))
    rw [List.length_cons] at hc
    cases hp : plain (c :: s) with
    | none => simp [searchLeft, search, hc, hp, ih]
    | some a => simp [searchLeft, search, hc, hp]

/-- Too little is left in every end of the text that is shorter than `least`. -/
def EndsAt (least : Nat) (s : List Char) : Prop :=
  ∀ t, t <:+ s → t.length < least → readTail t = none

theorem EndsAt.of_suffix {least : Nat} {s t : List Char} (h : EndsAt least s) (ht : t <:+ s) :
    EndsAt least t :=
  fun u hu => h u (hu.trans ht)

theorem markedLeft_eq {least : Nat} {marker s : List Char} (h : EndsAt least s) :
    markedLeft least marker marker.length s.length s = readMarked marker s := by
  simp only [markedLeft, readMarked, Option.bind_eq_bind]
  cases hs : stripWord marker s with
  | none => rfl
  | some s' =>
    obtain ⟨hlen, hsuf⟩ := length_of_stripWord hs
    simp only [Option.bind_some, ← hlen]
    split
    · next hlt => simp [h s' hsuf hlt]
    · rfl

theorem valueLeft_eq {least : Nat} {marker s : List Char} (h : EndsAt least s) :
    valueLeft least marker marker.length s.length s = readValue marker s := by
  simp only [valueLeft, readValue, Option.bind_eq_bind]
  cases hs : stripWord typeWord s with
  | none => rfl
  | some s' =>
    obtain ⟨hlen, hsuf⟩ := length_of_stripWord hs
    simp only [Option.bind_some, ← hlen]
    rw [searchLeft_eq_search fun t ht => markedLeft_eq (h.of_suffix (ht.trans hsuf))]

theorem blockLeft_eq_blockAt {least : Nat} {marker s : List Char} (h : EndsAt least s) :
    blockLeft least marker marker.length s.length s = blockAt marker s := by
  simp only [blockLeft, blockAt]
  cases hs : stripWord scriptWord s with
  | none => rfl
  | some s' =>
    obtain ⟨hlen, hsuf⟩ := length_of_stripWord hs
    cases s' with
    | nil => rfl
    | cons blank s' =>
      have hlen' : s.length - (scriptWord.length + 1) = s'.length := by
        rw [← Nat.sub_sub, ← hlen]; simp
      simp only [hlen']
      rw [searchLeft_eq_search fun t ht =>
        valueLeft_eq (h.of_suffix (ht.trans ((List.suffix_cons blank s').trans hsuf)))]

/-! ## 3. A failed attempt speaks for the places before the `>` -/

/-- The text begins like a script element. -/
def opens (s : List Char) : Bool :=
  match stripWord scriptWord s with
  | some (blank :: _) => isBlank blank
  | _ => false

/-- No `type="` before the next `>` leads to a block. -/
def Fruitless (marker s : List Char) : Prop :=
  ∀ seen, search (readValue marker) (· == '>') seen s = none

/-- A search that finds nothing does so whatever it has seen. -/
theorem search_eq_none_of_seen {α : Type} {here : List Char → Option α} {stops : Char → Bool}
    {seen s : List Char} (h : search here stops seen s = none) (seen' : List Char) :
    search here stops seen' s = none := by
  induction s generalizing seen seen' with
  | nil => simpa [search] using h
  | cons c s ih =>
    simp only [search] at h ⊢
    split at h
    · simp at h
    · split at h
      · next hstop => simp [hstop]
      · next hstop => simpa [hstop] using ih h _

theorem Fruitless.tail {marker s : List Char} {c : Char} (h : Fruitless marker (c :: s))
    (hc : c ≠ '>') : Fruitless marker s := by
  have h := h []
  simp only [search] at h
  split at h
  · simp at h
  · split at h
    · next hstop => simp [hc] at hstop
    · exact search_eq_none_of_seen h

/-- No block starts here, and none starts further on before the next `>`. -/
def Dead (marker s : List Char) : Prop := '>' ∈ s.take 8 ∨ Fruitless marker (s.drop 8)

theorem Dead.tail {marker s : List Char} {c : Char} (h : Dead marker (c :: s)) (hc : c ≠ '>') :
    Dead marker s := by
  have hdrop : s.drop 8 = (s.drop 7).drop 1 := by simp
  have htake : s.take 8 = s.take 7 ++ (s.drop 7).take 1 := by rw [← List.take_add]
  rcases h with h | h
  · rw [List.take_succ_cons, List.mem_cons] at h
    exact .inl (htake ▸ List.mem_append_left _ (h.resolve_left (Ne.symm hc)))
  · rw [List.drop_succ_cons] at h
    rw [Dead, hdrop, htake]
    cases hs : s.drop 7 with
    | nil => exact .inr (by simpa [hs] using h)
    | cons d r =>
      by_cases hd : d = '>'
      · exact .inl (by simp [hd])
      · exact .inr (by simpa using (hs ▸ h).tail hd)

theorem not_mem_of_stripWord {w s rest : List Char} {x : Char} (h : stripWord w s = some rest)
    (hx : ∀ c ∈ w, sameLetter c x = false) : x ∉ s.take w.length := by
  induction w generalizing s with
  | nil => simp
  | cons y ys ih =>
    cases s with
    | nil => simp
    | cons c s =>
      simp only [stripWord] at h
      split at h
      · next hc =>
        simp only [List.length_cons, List.take_succ_cons, List.mem_cons, not_or]
        refine ⟨?_, ih h fun z hz => hx z (List.mem_cons_of_mem _ hz)⟩
        rintro rfl
        simp [hx y List.mem_cons_self] at hc
      · simp at h

/-- What a script word and a blank leave, and that neither holds a `>`. -/
theorem drop_eight_of_opens {s s' : List Char} {blank : Char}
    (hs : stripWord scriptWord s = some (blank :: s')) (hb : isBlank blank) :
    s.drop 8 = s' ∧ '>' ∉ s.take 8 := by
  have heq := stripWord_eq_some hs
  have hword : (scriptWord.all fun y => !sameLetter y '>') = true := by decide
  have hmem := not_mem_of_stripWord (x := '>') hs fun y hy => by
    simpa using List.all_eq_true.1 hword y hy
  have hlen : (s.take scriptWord.length).length = 7 := by
    have := (length_of_stripWord hs).1
    simp only [List.length_cons, scriptWord, List.length_take] at this ⊢
    simp only [List.length_nil] at this ⊢
    omega
  have hw : scriptWord.length = 7 := rfl
  constructor
  · rw [heq, List.drop_append, hlen]
    simp only [hw, Nat.reduceSub, List.drop_succ_cons, List.drop_zero]
    rw [List.drop_eq_nil_of_le (by simp only [List.length_take]; omega), List.nil_append]
  · rw [heq, List.take_append, hlen]
    simp only [hw] at hmem ⊢
    simp only [List.take_take, List.mem_append, not_or]
    refine ⟨by simpa using hmem, ?_⟩
    simp only [Nat.reduceSub, List.take_succ_cons, List.take_zero, List.mem_singleton]
    rintro rfl
    simp [isBlank_bracket] at hb

theorem Dead.blockAt_eq_none {marker s : List Char} (h : Dead marker s) :
    blockAt marker s = none := by
  simp only [blockAt]
  split
  · next blank s' hs =>
    split
    · next hb =>
      obtain ⟨hdrop, hmem⟩ := drop_eight_of_opens hs hb
      have := h.resolve_left hmem []
      rw [hdrop] at this
      simp [this]
    · rfl
  · rfl

theorem dead_of_opens {marker s : List Char} (ho : opens s) (hn : blockAt marker s = none) :
    Dead marker s := by
  simp only [opens] at ho
  split at ho
  · next blank s' hs =>
    refine .inr ?_
    rw [(drop_eight_of_opens hs ho).1]
    simp only [blockAt, hs, ho, if_true, Option.bind_eq_bind, Option.bind_eq_none_iff] at hn
    refine search_eq_none_of_seen (?_ : search _ _ [] _ = none)
    rw [Option.eq_none_iff_forall_ne_some]
    intro x hx
    simpa using hn x hx
  · simp at ho

/-- Where no block starts before the next `>`, the scan may go on there. -/
theorem scan_eq_of_dead {marker seen s : List Char} (h : Dead marker s) :
    scan marker seen s =
      scan marker ((s.takeWhile (· ≠ '>')).reverse ++ seen) (s.dropWhile (· ≠ '>')) := by
  induction s generalizing seen with
  | nil => simp
  | cons c s ih =>
    by_cases hc : c = '>'
    · simp [hc]
    · rw [scan_of_none h.blockAt_eq_none, ih (h.tail hc)]
      simp [hc]

/-! ## 4. Scanning -/

/-- `scan`, with the length that is left; it passes over places at which no block starts. -/
def scanLeft (least : Nat) (marker : List Char) (width : Nat) (seen : List Char) :
    Nat → List Char → List Segment
  | 0, s => literalOf (s.reverse ++ seen)
  | n + 1, s =>
    match blockLeft least marker width (n + 1) s with
    | some (b, rest) =>
      literalOf seen ++
        .block b :: scanLeft least marker width [] (n - (b.spell.length - 1)) rest
    | none =>
      match s with
      | [] => literalOf seen
      | c :: s =>
        if opens (c :: s) then
          let passed := s.takeWhile (· ≠ '>')
          scanLeft least marker width (passed.reverse ++ c :: seen) (n - passed.length)
            (s.dropWhile (· ≠ '>'))
        else scanLeft least marker width (c :: seen) n s

/-- The segments of a page: its blocks, from left to right, and the text between them. -/
def segments (marker page : List Char) : List Segment :=
  scanLeft (closable page) marker marker.length [] page.length page

theorem opens_head {s : List Char} {c : Char} (h : opens (c :: s)) : c ≠ '>' := by
  rintro rfl
  have : sameLetter '<' '>' = false := by decide
  simp [opens, stripWord, scriptWord, this] at h

theorem scanLeft_eq_scan {least : Nat} {marker seen s : List Char} (h : EndsAt least s) :
    scanLeft least marker marker.length seen s.length s = scan marker seen s := by
  generalize hn : s.length = n
  induction n using Nat.strongRecOn generalizing seen s with
  | ind n ih =>
    cases n with
    | zero =>
      obtain rfl := List.length_eq_zero_iff.1 hn
      simp [scanLeft, scan_nil]
    | succ n =>
      have hblock : blockLeft least marker marker.length (n + 1) s = blockAt marker s :=
        hn ▸ blockLeft_eq_blockAt h
      rw [scanLeft.eq_def]
      simp only [hblock]
      split
      · next b rest hb =>
        have hlen := length_lt_of_blockAt hb
        have hs := blockAt_eq_some hb
        have hl := congrArg List.length hs
        simp only [List.length_append] at hl
        rw [scan_of_some hb, ih _ (by omega) (h.of_suffix ⟨_, hs.symm⟩) (by omega)]
      · next hb =>
        cases s with
        | nil => simp at hn
        | cons c s =>
          simp only [List.length_cons, Nat.add_right_cancel_iff] at hn
          have hs := h.of_suffix (List.suffix_cons c s)
          rw [scan_of_none hb]
          dsimp only
          split
          · next ho =>
            rw [scan_eq_of_dead ((dead_of_opens ho hb).tail (opens_head ho))]
            have hl := congrArg List.length
              (List.takeWhile_append_dropWhile (p := (· ≠ '>')) (l := s))
            simp only [List.length_append] at hl
            exact ih _ (by omega) (hs.of_suffix (List.dropWhile_suffix _)) (by omega)
          · exact ih n (by omega) hs hn

/-- The segments are those of the plain scan. -/
theorem segments_eq_scan (marker page : List Char) :
    segments marker page = scan marker [] page :=
  scanLeft_eq_scan fun _ ht hl => readTail_eq_none ht hl

/-- The segments of a page spell the page. -/
theorem spellAll_segments (marker page : List Char) :
    Segment.spellAll (segments marker page) = page := by
  simp [segments_eq_scan, spellAll_scan]

end ScriptWeave.Markup
