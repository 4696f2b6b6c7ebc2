/-
# A page behind a page

A page that ends with a block can be cut off there: what stands behind it neither changes the
segments before the cut nor joins with them.  The danger is in attempts that fail within the first
page, for want of a quotation mark, a `>` or a closing tag, and that go on into the second one.

They do not come to more there, for the block at the end has all of it: where an attempt gets to the
start of its body before the last closing tag of the first page, it can end with that tag
(`Reading.exists_of_tag_le`).  Where it does not, it has gone past the `type="` of the last block
before its own (`Reading.tag_length_le`, by counting quotation marks), and then that `type="`
would have been the better choice (`Reading.exists_of_run_lt`).

**Stated here.**  At a place from which on a text ends with a block, the same block is read whether
or not more text follows (`blockAt_append`); hence the segments of two pages in a row
(`segments_append`), and the weaving of both is that of one after the other (`weave_append`).
-/
import ScriptWeave.Proofs.Compile.Memoryless
import ScriptWeave.Proofs.Markup.Seams
import ScriptWeave.Proofs.Markup.Weaving

namespace ScriptWeave
namespace Markup

open Text

/-! ## 1. Two start tags in one text -/

/-- What reaches up to the second `q` behind a `q`, with as many others between the two as another
such stretch has that starts no earlier, ends no later than that one. -/
theorem length_le_of_count_eq {q : Char} {s a b c d : List Char} (h : a ++ q :: b <+: s)
    (h' : c ++ q :: d ++ [q] <+: s) (hcount : b.count q = d.count q) (hle : a.length ≤ c.length) :
    (a ++ q :: b).length ≤ (c ++ q :: d).length := by
  rcases Nat.lt_or_ge (c ++ q :: d).length (a ++ q :: b).length with hlt | hge
  · exfalso
    have hpre : c ++ q :: d ++ [q] <+: a ++ q :: b :=
      List.prefix_of_prefix_length_le h' h (by rw [List.length_append]; exact hlt)
    obtain ⟨e, rfl⟩ : a <+: c := List.prefix_of_prefix_length_le
      ((List.prefix_append a (q :: b)).trans h)
      (List.IsPrefix.trans ⟨q :: d ++ [q], by simp⟩ h') hle
    simp only [List.append_assoc, List.prefix_append_right_inj] at hpre
    have hcounts := hpre.sublist.count_le q
    simp only [List.count_append, List.count_cons_self, List.count_nil, List.cons_append,
      hcount] at hcounts
    omega
  · exact hge

namespace Reading

variable {marker s front : List Char} {r l : Reading}

/-- A start tag, cut at the quotation marks around the value and at its end. -/
theorem Fits.exists_tag_eq (h : r.Fits marker) :
    ∃ before value behind, r.block.tag = before ++ '"' :: value ++ '"' :: behind ++ ['>'] ∧
      before.length = r.run.length + 13 ∧ value.count '"' = marker.count '"' ∧ '>' ∉ behind := by
  obtain ⟨tag, blank, typed, htag, -, -, htyped, hvalue, ho⟩ := h.opening
  obtain ⟨m, hm, htc⟩ := h.tagClose
  have hlen := htyped.length_eq
  obtain ⟨u, -, rfl⟩ := exists_of_typeWord htyped
  refine ⟨tag ++ blank :: (r.run ++ u), r.value ++ r.block.marker ++ r.block.attributes, m,
    by simp [Block.tag, ho, htc], ?_, ?_, hm⟩
  · simp only [List.length_append, List.length_cons, ← htag.length_eq, scriptWord, typeWord,
      List.length_nil] at hlen ⊢
    omega
  · simp only [List.count_append, List.count_eq_zero.mpr hvalue,
      List.count_eq_zero.mpr h.attributes, h.marker.count_eq isMark_quote, Nat.zero_add,
      Nat.add_zero]

/-- Of two start tags in a text, the one whose `type="` is not behind the other's ends no later. -/
theorem tag_length_le (hr : r.Fits marker) (hl : l.Fits marker) (hrs : r.block.tag <+: s)
    (hls : front ++ l.block.tag <+: s) (hrun : r.run.length ≤ front.length + l.run.length) :
    r.block.tag.length ≤ (front ++ l.block.tag).length := by
  obtain ⟨a, b, m, htag, ha, hb, hm⟩ := hr.exists_tag_eq
  obtain ⟨c, d, n, htag', hc, hd, -⟩ := hl.exists_tag_eq
  rw [htag] at hrs ⊢
  rw [htag'] at hls ⊢
  -- the quotation mark behind the value comes no later
  have hquote : (a ++ '"' :: b).length ≤ ((front ++ c) ++ '"' :: d).length :=
    length_le_of_count_eq (List.IsPrefix.trans ⟨'"' :: m ++ ['>'], by simp⟩ hrs)
      (List.IsPrefix.trans ⟨n ++ ['>'], by simp⟩ hls) (hb.trans hd.symm)
      (by rw [List.length_append]; omega)
  -- and so does the first bracket behind it
  rcases Nat.lt_or_ge (front ++ (c ++ '"' :: d ++ '"' :: n ++ ['>'])).length
    (a ++ '"' :: b ++ '"' :: m ++ ['>']).length with hlt | hge
  · exfalso
    have hpre : (front ++ (c ++ '"' :: d ++ '"' :: n)) ++ ['>'] <+: (a ++ '"' :: b ++ ['"']) ++ m :=
      List.prefix_of_prefix_length_le
        (List.IsPrefix.trans ⟨[], by simp⟩ hls) (List.IsPrefix.trans ⟨['>'], by simp⟩ hrs)
        (by simp only [List.length_append, List.length_cons, List.length_nil] at hlt ⊢; omega)
    have hbefore := (prefix_of_prefix_append hpre hm).length_le
    simp only [List.length_append, List.length_cons, List.length_nil] at hbefore hquote
    omega
  · exact hge

/-! ## 2. A text that ends with a block -/

/-- The reading with another end behind its start tag. -/
def withEnd (r : Reading) (body closing : List Char) : Reading :=
  { r with block := { r.block with body, closing } }

theorem spell_withEnd (r : Reading) (body closing : List Char) :
    (r.withEnd body closing).block.spell = r.block.tag ++ (body ++ closing) := by
  simp [withEnd, Block.spell, Block.tag]

theorem Fits.withEnd {closing : List Char} (h : r.Fits marker) (hc : IsClosing closing)
    (body : List Char) : (r.withEnd body closing).Fits marker where
  opening := h.opening
  marker := h.marker
  attributes := h.attributes
  tagClose := h.tagClose
  closing := hc

/-- A reading whose start tag ends before the last closing tag may end with that tag. -/
theorem exists_of_tag_le {rest : List Char} (hr : r.Of marker (front ++ l.block.spell ++ rest))
    (hl : l.Fits marker)
    (hle : r.block.tag.length ≤ (front ++ l.block.tag ++ l.block.body).length) :
    ∃ r' : Reading, r'.Of marker (front ++ l.block.spell) ∧ r'.run.length = r.run.length ∧
      r'.value.length = r.value.length := by
  have htag : r.block.tag <+: front ++ l.block.tag ++ l.block.body :=
    List.prefix_of_prefix_length_le
      ((List.IsPrefix.trans ⟨_, r.block.spell_eq.symm⟩ hr.2))
      ⟨l.block.closing ++ rest, by simp [Block.spell_eq]⟩ hle
  obtain ⟨body, hbody⟩ := htag
  refine ⟨r.withEnd body l.block.closing, ⟨hr.1.withEnd hl.closing body, [], ?_⟩, rfl, rfl⟩
  rw [spell_withEnd, Block.spell_eq l.block, ← List.append_assoc r.block.tag, hbody]
  simp

/-- A reading whose run goes past the `type="` of the last block might have stopped there. -/
theorem exists_of_run_lt {rest : List Char} (hr : r.Of marker (front ++ l.block.spell ++ rest))
    (hl : l.Fits marker) (hlt : front.length + l.run.length < r.run.length) :
    ∃ r' : Reading, r'.Of marker (front ++ l.block.spell) ∧ r'.run.length < r.run.length := by
  obtain ⟨tag, blank, typed, htag, hblank, -, htyped, hvalue, ho⟩ := hl.opening
  obtain ⟨hfits, rest', hs⟩ := hr
  obtain ⟨tag', blank', typed', htag', hblank', hrun', -, -, ho'⟩ := hfits.opening
  have hlen := htag.length_eq.symm.trans htag'.length_eq
  -- what stands before the `type="` of the last block
  have hpre : front ++ (tag ++ blank :: l.run) <+: front ++ l.block.spell ++ rest :=
    ⟨typed ++ (l.value ++ (l.block.marker ++ (l.block.attributes ++ (l.block.tagClose ++
      (l.block.body ++ (l.block.closing ++ rest)))))), by simp [Block.spell, ho]⟩
  have hpre' : tag' ++ blank' :: r.run <+: front ++ l.block.spell ++ rest :=
    hs ▸ ⟨typed' ++ (r.value ++ (r.block.marker ++ (r.block.attributes ++ (r.block.tagClose ++
      (r.block.body ++ (r.block.closing ++ rest')))))), by simp [Block.spell, ho']⟩
  have hwithin := List.prefix_of_prefix_length_le hpre hpre'
    (by simp only [List.length_append, List.length_cons] at *; omega)
  -- starts like the reading, whose run it ends in
  obtain ⟨run, hrun⟩ : tag' ++ [blank'] <+: front ++ (tag ++ blank :: l.run) :=
    List.prefix_of_prefix_length_le (List.IsPrefix.trans ⟨r.run, by simp⟩ hpre') hpre
      (by simp only [List.length_append, List.length_cons, List.length_nil]; omega)
  rw [← hrun, List.append_assoc, List.prefix_append_right_inj] at hwithin
  have hrunpre : run <+: r.run := (List.prefix_cons_inj blank').mp hwithin
  refine ⟨⟨run, l.value, { l.block with opening := front ++ l.block.opening }⟩,
    ⟨⟨?_, hl.marker, hl.attributes, hl.tagClose, hl.closing⟩, ?_⟩, ?_⟩
  · refine ⟨tag', blank', typed, htag', hblank', fun hm => hrun' (hrunpre.subset hm), htyped,
      hvalue, ?_⟩
    have happ := congrArg (· ++ (typed ++ l.value)) hrun
    simpa [ho] using happ.symm
  · exact ⟨[], by simp [Block.spell]⟩
  · have hlength := congrArg List.length hrun
    simp only [List.length_append, List.length_cons, List.length_nil] at hlength
    simp only
    omega

/-- A reading of a text that ends with a block, and goes on behind it, does not come before all
readings that end with the block. -/
theorem exists_of_append {rest : List Char} (hr : r.Of marker (front ++ l.block.spell ++ rest))
    (hl : l.Fits marker) :
    ∃ r' : Reading, r'.Of marker (front ++ l.block.spell) ∧
      (r'.run.length < r.run.length ∨
        r'.run.length = r.run.length ∧ r'.value.length = r.value.length) := by
  rcases Nat.lt_or_ge (front.length + l.run.length) r.run.length with hlt | hge
  · obtain ⟨r', hr', hshorter⟩ := exists_of_run_lt hr hl hlt
    exact ⟨r', hr', Or.inl hshorter⟩
  · have hpre : front ++ l.block.tag <+: front ++ l.block.spell ++ rest :=
      ⟨l.block.body ++ (l.block.closing ++ rest), by simp [Block.spell_eq]⟩
    have htag := tag_length_le hr.1 hl (List.IsPrefix.trans ⟨_, r.block.spell_eq.symm⟩ hr.2) hpre
      hge
    obtain ⟨r', hr', hsame⟩ := exists_of_tag_le hr hl
      (Nat.le_trans htag (List.prefix_append _ _).length_le)
    exact ⟨r', hr', Or.inr hsame⟩

theorem Of.append (h : r.Of marker s) (rest : List Char) : r.Of marker (s ++ rest) :=
  ⟨h.1, h.2.trans (List.prefix_append s rest)⟩

/-- The first reading of a text that ends with a block ends with the text, also if more follows. -/
theorem IsFirst.of_append {rest : List Char} (h : r.IsFirst marker (front ++ l.block.spell ++ rest))
    (hl : l.Fits marker) : r.IsFirst marker (front ++ l.block.spell) := by
  obtain ⟨hr, hfirst⟩ := h
  refine ⟨⟨hr.1, ?_⟩, fun r' hr' => hfirst r' (hr'.append rest)⟩
  obtain ⟨r', hr', hle⟩ := exists_of_append hr hl
  have hbefore : r' = r ∨ r.Before r' := hfirst r' (hr'.append rest)
  rcases hbefore with rfl | hbefore
  · exact hr'.2
  -- the other reading has the same tag, and its body goes on at least as long
  unfold Before at hbefore
  have htag := hr.tag_eq (hr'.append rest) (by omega) (by omega)
  have hbody : r.block.body.length < r'.block.body.length := by omega
  obtain ⟨after, hafter⟩ := hr.exists_of_lt (hr'.append rest) htag hbody
  refine List.IsPrefix.trans ⟨after ++ r'.block.closing, ?_⟩ hr'.2
  rw [Block.spell_eq, Block.spell_eq, htag, hafter]
  simp

end Reading

/-! ## 3. Scanning two texts in a row -/

/-- The text ends with a block. -/
def EndsWithBlock (marker s : List Char) : Prop :=
  ∃ front, ∃ r : Reading, r.Fits marker ∧ s = front ++ r.block.spell

theorem EndsWithBlock.append {marker s : List Char} (h : EndsWithBlock marker s)
    (front : List Char) : EndsWithBlock marker (front ++ s) := by
  obtain ⟨front', r, hr, rfl⟩ := h
  exact ⟨front ++ front', r, hr, (List.append_assoc ..).symm⟩

/-- **What follows a text that ends with a block does not change what is read at its front.** -/
theorem blockAt_append {marker s : List Char} (h : EndsWithBlock marker s) (rest : List Char) :
    blockAt marker (s ++ rest) = (blockAt marker s).map fun x => (x.1, x.2 ++ rest) := by
  obtain ⟨front, l, hl, rfl⟩ := h
  cases hread : blockAt marker (front ++ l.block.spell ++ rest) with
  | none =>
    have hnone : blockAt marker (front ++ l.block.spell) = none :=
      blockAt_eq_none_iff.mpr fun r hr => blockAt_eq_none_iff.mp hread r (hr.append rest)
    rw [hnone, Option.map_none]
  | some x =>
    obtain ⟨b, after⟩ := x
    obtain ⟨r, hfirst, rfl, hs⟩ := blockAt_eq_some_iff.mp hread
    have hfirst' := hfirst.of_append hl
    obtain ⟨after', hafter'⟩ := hfirst'.1.2
    have hread' : blockAt marker (front ++ l.block.spell) = some (r.block, after') :=
      blockAt_eq_some_iff.mpr ⟨r, hfirst', rfl, hafter'.symm⟩
    rw [← hafter', List.append_assoc] at hs
    rw [hread', Option.map_some, List.append_cancel_left hs]

theorem scan_eq_nil {marker s : List Char} (h : scan marker [] s = []) : s = [] := by
  have hspell := spellAll_scan marker [] s
  rw [h] at hspell
  exact hspell.symm

/-- Where the last segment is a block, the text ends with one. -/
theorem endsWithBlock_of_scan {marker seen s : List Char} {b : Block}
    (h : (scan marker seen s).getLast? = some (.block b)) : EndsWithBlock marker s := by
  fun_induction scan marker seen s with
  | case1 seen s b' rest hread ih =>
    obtain ⟨r, hfirst, rfl, hs⟩ := blockAt_eq_some_iff.mp hread
    cases hscan : scan marker [] rest with
    | nil =>
      obtain rfl := scan_eq_nil hscan
      exact ⟨[], r, hfirst.1.1, by simpa using hs⟩
    | cons t ts =>
      rw [hscan] at h ih
      rw [hs]
      exact (ih (by simpa using h)).append _
  | case2 seen =>
    unfold literalOf at h
    split at h <;> simp at h
  | case3 seen c s hread ih => exact (ih h).append [c]

/-- Behind a text whose last segment is a block, the scan starts anew. -/
theorem scan_append {marker seen s : List Char} {b : Block}
    (h : (scan marker seen s).getLast? = some (.block b)) (rest : List Char) :
    scan marker seen (s ++ rest) = scan marker seen s ++ scan marker [] rest := by
  have hends := endsWithBlock_of_scan h
  fun_induction scan marker seen s with
  | case1 seen s b' after hread ih =>
    have hread' := blockAt_append hends rest
    rw [hread, Option.map_some] at hread'
    rw [scan_of_some hread', List.append_assoc, List.cons_append]
    cases hscan : scan marker [] after with
    | nil => rw [scan_eq_nil hscan]; rfl
    | cons t ts =>
      have hlast : (scan marker [] after).getLast? = some (.block b) := by
        rw [hscan] at h ⊢
        simpa using h
      rw [ih hlast (endsWithBlock_of_scan hlast), hscan]
  | case2 seen =>
    unfold literalOf at h
    split at h <;> simp at h
  | case3 seen c s hread ih =>
    have hread' := blockAt_append hends rest
    rw [hread, Option.map_none, List.cons_append] at hread'
    rw [List.cons_append, scan_of_none hread', ih h (endsWithBlock_of_scan h)]

/-- **The segments of two pages in a row**, the first of which ends with a block. -/
theorem segments_append {marker page : List Char} {b : Block}
    (h : (segments marker page).getLast? = some (.block b)) (page' : List Char) :
    segments marker (page ++ page') = segments marker page ++ segments marker page' := by
  rw [segments_eq_scan] at h
  simp only [segments_eq_scan, scan_append h]

/-! ## 4. Weaving two pages in a row -/

/-- Segments in a row are woven one after the other. -/
theorem weaveSegments_append (setup : CompileSetup) (runtimeMarker : List Char) (filename : String)
    (segs segs' : List Segment) :
    weaveSegments setup runtimeMarker filename (segs ++ segs') = (do
      let woven ← weaveSegments setup runtimeMarker filename segs
      let woven' ← weaveSegments setup runtimeMarker filename segs'
      pure (woven ++ woven')) := by
  induction segs with
  | nil => simp [weaveSegments]
  | cons s segs ih => cases s <;> simp [weaveSegments, ih]

theorem spellAll_append (segs segs' : List Segment) :
    Segment.spellAll (segs ++ segs') = Segment.spellAll segs ++ Segment.spellAll segs' :=
  List.flatMap_append

section Weave

variable {setup : CompileSetup} {dialectMarker runtimeMarker filename page : String} {b : Block}

theorem ne_empty_of_getLast? (h : (pageSegments dialectMarker page).getLast? = some (.block b)) :
    page ≠ "" := by
  rintro rfl
  have hnil : pageSegments dialectMarker "" = [] := by
    rw [pageSegments, segments_eq_scan]
    exact scan_nil _ []
  rw [hnil] at h
  cases h

theorem pageSegments_append (h : (pageSegments dialectMarker page).getLast? = some (.block b))
    (page' : String) :
    pageSegments dialectMarker (page ++ page')
      = pageSegments dialectMarker page ++ pageSegments dialectMarker page' := by
  rw [pageSegments, String.toList_append]
  exact segments_append h _

/-- Two pages in a row, the first of which ends with a block, are woven one after the other. -/
theorem weave_append_eq (h : (pageSegments dialectMarker page).getLast? = some (.block b))
    (page' : String) :
    weave setup dialectMarker runtimeMarker filename (page ++ page') = (do
      let woven ← weave setup dialectMarker runtimeMarker filename page
      let woven' ← weave setup dialectMarker runtimeMarker filename page'
      pure (some (woven.getD "" ++ woven'.getD ""))) := by
  have hpage := ne_empty_of_getLast? h
  have hboth : page ++ page' ≠ "" := by simp [String.append_eq_empty_iff, hpage]
  have hsegs := pageSegments_append h page'
  simp only [pageSegments] at hsegs
  by_cases hpage' : page' = ""
  · subst hpage'
    simp [weave, hpage]
  · simp only [weave, hpage, hboth, hpage', if_false, hsegs, weaveSegments_append, bind_assoc,
      pure_bind, spellAll_append, String.ofList_append, Option.getD_some]

end Weave

/-- **A page behind a page is scanned and woven on its own.**  Where the last segment of the first
page is a block, the segments of both pages in a row are those of the first and then those of the
second; and a compiler without a memory gives the result and gets the requests of weaving the
first, then, if that succeeds, of weaving the second. -/
theorem weave_append {dialectMarker page : String} {b : Block}
    (h : (pageSegments dialectMarker page).getLast? = some (.block b)) (page' : String) :
    pageSegments dialectMarker (page ++ page')
      = pageSegments dialectMarker page ++ pageSegments dialectMarker page' ∧
    ∀ (setup : CompileSetup) (runtimeMarker filename : String) (past : List CompileRequest),
      setup.compiler.Memoryless →
      -- the first page fails: so do both
      (∀ e asked, weave setup dialectMarker runtimeMarker filename page past = ⟨.error e, asked⟩ →
        weave setup dialectMarker runtimeMarker filename (page ++ page') past
          = ⟨.error e, asked⟩) ∧
      ∀ woven asked,
        weave setup dialectMarker runtimeMarker filename page past = ⟨.ok woven, asked⟩ →
        -- the second page fails, behind the requests of the first
        (∀ e asked',
          weave setup dialectMarker runtimeMarker filename page' past = ⟨.error e, asked'⟩ →
          weave setup dialectMarker runtimeMarker filename (page ++ page') past
            = ⟨.error e, asked ++ asked'⟩) ∧
        -- both succeed
        ∀ woven' asked',
          weave setup dialectMarker runtimeMarker filename page' past = ⟨.ok woven', asked'⟩ →
          weave setup dialectMarker runtimeMarker filename (page ++ page') past
            = ⟨.ok (some (woven.getD "" ++ woven'.getD "")), asked ++ asked'⟩ := by
  refine ⟨pageSegments_append h page', fun setup runtimeMarker filename past hm => ?_⟩
  have hsteady := steady_weave hm dialectMarker runtimeMarker filename page'
  rw [weave_append_eq h page']
  refine ⟨fun e asked hw => Work.bind_apply_of_error hw, fun woven asked hw => ⟨?_, ?_⟩⟩
  · intro e asked' hw'
    rw [hsteady past (past ++ asked)] at hw'
    rw [Work.bind_apply_of_ok hw, Work.bind_apply_of_error hw']
  · intro woven' asked' hw'
    rw [hsteady past (past ++ asked)] at hw'
    rw [Work.bind_apply_of_ok hw, Work.bind_apply_of_ok hw', Work.pure_apply, List.append_nil]

/-- The compiler that puts a `!` behind every source. -/
def shouting : CompileSetup :=
  ⟨Compiler.pure fun request => .ok { code := request.source ++ "!" }, "f", none⟩

/-- A second page that begins with a closing tag, and has a block of its own. -/
theorem weave_append_closing_tag :
    (pageSegments "m" "a<script type=\"m\">x</script>").getLast?
        = some (.block ⟨"<script type=\"".toList, "m".toList, [], "\">".toList, "x".toList,
            "</script>".toList⟩) ∧
      weave shouting "m" "n" "a.html"
          ("a<script type=\"m\">x</script>" ++ "</script><script type=\"m\">z</script>") []
        = ⟨.ok (some ("a<script type=\"n\">x!</script>" ++
              "</script><script type=\"n\">z!</script>")),
            pageRequests shouting "m" "a.html" "a<script type=\"m\">x</script>" ++
              pageRequests shouting "m" "a.html" "</script><script type=\"m\">z</script>"⟩ := by
  have hsegs : pageSegments "m" "a<script type=\"m\">x</script>"
      = [.literal "a".toList, .block ⟨"<script type=\"".toList, "m".toList, [], "\">".toList,
          "x".toList, "</script>".toList⟩] := by
    decide +kernel
  have hsegs' : pageSegments "m" "</script><script type=\"m\">z</script>"
      = [.literal "</script>".toList, .block ⟨"<script type=\"".toList, "m".toList, [],
          "\">".toList, "z".toList, "</script>".toList⟩] := by
    decide +kernel
  have hlast : (pageSegments "m" "a<script type=\"m\">x</script>").getLast?
      = some (.block ⟨"<script type=\"".toList, "m".toList, [], "\">".toList, "x".toList,
          "</script>".toList⟩) := by
    rw [hsegs]
    rfl
  obtain ⟨-, hweave⟩ := weave_append hlast "</script><script type=\"m\">z</script>"
  obtain ⟨-, hok⟩ := hweave shouting "n" "a.html" [] (Compiler.memoryless_pure _)
  refine ⟨hlast, (hok (some "a<script type=\"n\">x!</script>") _ ?_).2
    (some "</script><script type=\"n\">z!</script>") _ ?_⟩
  · rw [weave_of_ne _ _ _ _ (by decide), pageRequests, hsegs]
    rfl
  · rw [weave_of_ne _ _ _ _ (by decide), pageRequests, hsegs']
    rfl

end Markup
end ScriptWeave
