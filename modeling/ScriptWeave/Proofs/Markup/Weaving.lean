/-
# Weaving changes markers and bodies, and nothing else

A page is taken apart into segments, its blocks are compiled in order, and the pieces are put
together again.  The frame of that operation has three parts, and they are proved apart:

* **The segments tile the page.**  They spell it (`spellAll_segments`, in `Markup.Segments`), no
  literal among them is empty (`nil_literal_not_mem_segments`) and no two literals stand side by
  side (`isChain_segments`).
* **The calls.**  A compiler may remember what it was asked, so what "every block compiles" means
  depends on the requests before.  `Answers` walks along a list of requests with that memory;
  either it gets to the end, or there is a first request that fails (`answers_or_fails`).
* **The pieces.**  `wovenPieces` is the list of all pieces of a page, with the marker and the body
  of each block replaced.  `weave_frame` says that this is what comes out, in every case.
-/
import Mathlib.Data.List.Chain
import ScriptWeave.Markup.Weave
import ScriptWeave.Proofs.Compile.Asking

namespace ScriptWeave
namespace Markup

/-! ## 1. The segments tile the page -/

/-- One of two neighbours is a block. -/
def Apart (a b : Segment) : Prop := a.isBlock = true ∨ b.isBlock = true

theorem nil_literal_not_mem_literalOf (seen : List Char) :
    Segment.literal [] ∉ literalOf seen := by
  unfold literalOf
  split
  · simp
  · rename_i hs
    simpa using hs

theorem nil_literal_not_mem_scan (marker seen s : List Char) :
    Segment.literal [] ∉ scan marker seen s := by
  fun_induction scan marker seen s with
  | case1 seen s b rest h ih =>
    intro hm
    rcases List.mem_append.mp hm with hm | hm
    · exact nil_literal_not_mem_literalOf seen hm
    · rcases List.mem_cons.mp hm with hb | hm
      · cases hb
      · exact ih hm
  | case2 seen h => exact nil_literal_not_mem_literalOf seen
  | case3 seen c s h ih => exact ih

theorem isChain_scan (marker seen s : List Char) : (scan marker seen s).IsChain Apart := by
  fun_induction scan marker seen s with
  | case1 seen s b rest h ih =>
    have hblock : (Segment.block b :: scan marker [] rest).IsChain Apart :=
      List.isChain_cons.mpr ⟨fun _ _ => Or.inl rfl, ih⟩
    unfold literalOf
    split
    · exact hblock
    · exact List.isChain_cons_cons.mpr ⟨Or.inr rfl, hblock⟩
  | case2 seen h =>
    unfold literalOf
    split
    · exact List.isChain_nil
    · exact List.isChain_singleton _
  | case3 seen c s h ih => exact ih

/-- No literal segment is empty. -/
theorem nil_literal_not_mem_segments (marker page : List Char) :
    Segment.literal [] ∉ segments marker page := by
  rw [segments_eq_scan]
  exact nil_literal_not_mem_scan marker [] page

/-- No two literal segments are neighbours. -/
theorem isChain_segments (marker page : List Char) :
    (segments marker page).IsChain Apart := by
  rw [segments_eq_scan]
  exact isChain_scan marker [] page

/-! ## 2. The calls that a page makes, and the pieces that come of it -/

/-- The blocks among some segments. -/
def blocksOf (segments : List Segment) : List Block :=
  segments.filterMap fun
    | .literal _ => none
    | .block b => some b

/-- What the compiler is asked about a block: the text of its body, with the options that its
directives make. -/
def requestOf (setup : CompileSetup) (filename : String) (b : Block) : CompileRequest :=
  ⟨String.ofList b.body, setup.options filename (some (directivesOf b))⟩

/-- What the compiler is asked about the blocks of a page, in their order. -/
def requestsOf (setup : CompileSetup) (filename : String) (segments : List Segment) :
    List CompileRequest :=
  (blocksOf segments).map (requestOf setup filename)

@[simp] theorem requestsOf_nil (setup : CompileSetup) (filename : String) :
    requestsOf setup filename [] = [] := rfl

@[simp] theorem requestsOf_literal (setup : CompileSetup) (filename : String) (text : List Char)
    (rest : List Segment) :
    requestsOf setup filename (.literal text :: rest) = requestsOf setup filename rest := rfl

@[simp] theorem requestsOf_block (setup : CompileSetup) (filename : String) (b : Block)
    (rest : List Segment) :
    requestsOf setup filename (.block b :: rest)
      = requestOf setup filename b :: requestsOf setup filename rest := rfl

/-- The pieces of some segments, with the runtime marker for each marker and the code of the
outputs, in order, for each body. -/
def wovenPieces (runtimeMarker : List Char) : List Segment → List Compiled → List (List Char)
  | .literal text :: rest, outputs => text :: wovenPieces runtimeMarker rest outputs
  | .block b :: rest, output :: outputs =>
    [b.opening, runtimeMarker, b.attributes, b.tagClose, output.code.toList, b.closing] ++
      wovenPieces runtimeMarker rest outputs
  | _, _ => []

/-! ## 3. Weaving -/

section Weave

variable {setup : CompileSetup} {runtimeMarker : List Char} {filename : String}

/-- Where every block is answered, weaving makes the requests of all of them and yields segments
with the woven pieces. -/
theorem weaveSegments_of_answers :
    ∀ {segs : List Segment} {past : List CompileRequest} {outputs : List Compiled},
      Answers setup.compiler past (requestsOf setup filename segs) outputs →
      ∃ woven, weaveSegments setup runtimeMarker filename segs past
          = ⟨.ok woven, requestsOf setup filename segs⟩ ∧
        Segment.spellAll woven = (wovenPieces runtimeMarker segs outputs).flatten
  | [], past, outputs, h => by
    cases h
    exact ⟨[], rfl, rfl⟩
  | .literal text :: rest, past, outputs, h => by
    rw [requestsOf_literal] at h ⊢
    obtain ⟨woven, hw, hs⟩ := weaveSegments_of_answers h
    refine ⟨.literal text :: woven, ?_, by simp [wovenPieces, Segment.spell, hs]⟩
    rw [weaveSegments, Work.bind_apply_of_ok hw, Work.pure_apply, List.append_nil]
  | .block b :: rest, past, outputs, h => by
    rw [requestsOf_block] at h ⊢
    cases h with
    | @cons _ _ _ output outputs hc ha =>
      obtain ⟨woven, hw, hs⟩ := weaveSegments_of_answers ha
      have hcall : setup.compile filename (String.ofList b.body) (some (directivesOf b)) past
          = ⟨.ok output, [requestOf setup filename b]⟩ := CompileSetup.compile_apply_of_ok hc
      refine ⟨.block (b.withCode runtimeMarker output.code.toList) :: woven, ?_,
        by simp [wovenPieces, Segment.spell, Block.spell, Block.withCode, hs]⟩
      rw [weaveSegments, Work.bind_apply_of_ok hcall, Work.bind_apply_of_ok hw, Work.pure_apply,
        List.append_nil, List.singleton_append]

/-- Where a block is refused, weaving ends with it: its error is the result, and its request is the
last one. -/
theorem weaveSegments_of_failsAfter :
    ∀ {segs : List Segment} {past done : List CompileRequest} {failed : CompileRequest}
      {why : Diagnosis},
      FailsAfter setup.compiler past (requestsOf setup filename segs) done failed why →
      weaveSegments setup runtimeMarker filename segs past
        = ⟨.error (.compile filename why.withResets.message why.withResets.stack),
          done ++ [failed]⟩
  | [], _, done, failed, _, h => by
    simpa using h.upTo
  | .literal text :: rest, past, done, failed, why, h => by
    rw [requestsOf_literal] at h
    rw [weaveSegments, Work.bind_apply_of_error (weaveSegments_of_failsAfter h)]
  | .block b :: rest, past, [], failed, why, ⟨_, hr, hpre⟩ => by
    obtain rfl : failed = requestOf setup filename b := by simpa using hpre
    rw [List.append_nil] at hr
    have hcall : setup.compile filename (String.ofList b.body) (some (directivesOf b)) past
        = ⟨.error _, [requestOf setup filename b]⟩ := CompileSetup.compile_apply_of_error hr
    rw [weaveSegments, Work.bind_apply_of_error hcall, List.nil_append]
  | .block b :: rest, past, request :: done, failed, why, ⟨⟨outputs, ha⟩, hr, hpre⟩ => by
    rw [requestsOf_block, List.cons_append] at hpre
    obtain ⟨rfl, hrest⟩ := List.cons_prefix_cons.mp hpre
    cases ha with
    | @cons _ _ _ output outputs hc ha =>
      have hcall : setup.compile filename (String.ofList b.body) (some (directivesOf b)) past
          = ⟨.ok output, [requestOf setup filename b]⟩ := CompileSetup.compile_apply_of_ok hc
      have hfails : FailsAfter setup.compiler (past ++ [requestOf setup filename b])
          (requestsOf setup filename rest) done failed why :=
        ⟨⟨outputs, ha⟩, by rwa [List.append_assoc], hrest⟩
      rw [weaveSegments, Work.bind_apply_of_ok hcall,
        Work.bind_apply_of_error (weaveSegments_of_failsAfter hfails), List.singleton_append,
        List.cons_append]

end Weave

/-! ## 4. The frame -/

/-- The segments of a page, both texts given as strings. -/
def pageSegments (dialectMarker page : String) : List Segment :=
  segments dialectMarker.toList page.toList

/-- What the compiler is asked about the blocks of a page. -/
def pageRequests (setup : CompileSetup) (dialectMarker filename page : String) :
    List CompileRequest :=
  requestsOf setup filename (pageSegments dialectMarker page)

/-- Where there is no block, the pieces are the segments. -/
theorem flatten_wovenPieces_of_no_block (runtimeMarker : List Char) :
    ∀ {segs : List Segment}, blocksOf segs = [] →
      (wovenPieces runtimeMarker segs []).flatten = Segment.spellAll segs
  | [], _ => rfl
  | .literal text :: rest, h => by
    have hrest : blocksOf rest = [] := h
    simp [wovenPieces, Segment.spell, flatten_wovenPieces_of_no_block runtimeMarker hrest]
  | .block b :: rest, h => by
    simp [blocksOf] at h

/-- Weaving a page that is not empty is weaving its segments. -/
theorem weave_of_ne (setup : CompileSetup) (dialectMarker runtimeMarker filename : String)
    {page : String} (hpage : page ≠ "") :
    weave setup dialectMarker runtimeMarker filename page =
      (weaveSegments setup runtimeMarker.toList filename (pageSegments dialectMarker page)) >>=
        fun woven => pure (some (String.ofList (Segment.spellAll woven))) := by
  rw [weave, if_neg hpage, pageSegments]

/-- **Weaving changes markers and bodies, and nothing else.** -/
theorem weave_frame (setup : CompileSetup) (dialectMarker runtimeMarker filename page : String)
    (past : List CompileRequest) (hpage : page ≠ "") :
    -- the segments are a tiling of the page
    (Segment.spellAll (pageSegments dialectMarker page) = page.toList ∧
      Segment.literal [] ∉ pageSegments dialectMarker page ∧
      (pageSegments dialectMarker page).IsChain Apart) ∧
    -- the requests are about the bodies of the blocks
    ((pageRequests setup dialectMarker filename page).map (·.source.toList)
      = (blocksOf (pageSegments dialectMarker page)).map (·.body)) ∧
    -- either every block compiles, or there is a first one that fails
    ((∃ outputs,
        Answers setup.compiler past (pageRequests setup dialectMarker filename page) outputs) ∨
      ∃ done failed why, FailsAfter setup.compiler past
        (pageRequests setup dialectMarker filename page) done failed why) ∧
    -- every block compiles: one call for each, and only markers and bodies are replaced
    (∀ outputs,
      Answers setup.compiler past (pageRequests setup dialectMarker filename page) outputs →
      weave setup dialectMarker runtimeMarker filename page past
        = ⟨.ok (some (String.ofList
            (wovenPieces runtimeMarker.toList (pageSegments dialectMarker page) outputs).flatten)),
          pageRequests setup dialectMarker filename page⟩) ∧
    -- a block fails: its error is the result, and no later block is compiled
    (∀ done failed why,
      FailsAfter setup.compiler past (pageRequests setup dialectMarker filename page)
        done failed why →
      weave setup dialectMarker runtimeMarker filename page past
        = ⟨.error (.compile filename why.withResets.message why.withResets.stack),
          done ++ [failed]⟩) ∧
    -- no block: the page itself, and no call
    (blocksOf (pageSegments dialectMarker page) = [] →
      weave setup dialectMarker runtimeMarker filename page past = ⟨.ok (some page), []⟩) := by
  have hok : ∀ outputs,
      Answers setup.compiler past (pageRequests setup dialectMarker filename page) outputs →
      weave setup dialectMarker runtimeMarker filename page past
        = ⟨.ok (some (String.ofList
            (wovenPieces runtimeMarker.toList (pageSegments dialectMarker page) outputs).flatten)),
          pageRequests setup dialectMarker filename page⟩ := by
    intro outputs ha
    obtain ⟨woven, hw, hs⟩ := weaveSegments_of_answers ha
    rw [weave_of_ne _ _ _ _ hpage, Work.bind_apply_of_ok hw, Work.pure_apply, List.append_nil, hs]
    rfl
  have htile : Segment.spellAll (pageSegments dialectMarker page) = page.toList :=
    spellAll_segments _ _
  refine ⟨⟨htile, nil_literal_not_mem_segments _ _, isChain_segments _ _⟩, ?_,
    answers_or_fails _ _ _, hok, ?_, ?_⟩
  · rw [pageRequests, requestsOf, List.map_map]
    exact List.map_congr_left fun b _ => String.toList_ofList
  · intro done failed why hf
    rw [weave_of_ne _ _ _ _ hpage, Work.bind_apply_of_error (weaveSegments_of_failsAfter hf)]
  · intro hb
    have hreq : pageRequests setup dialectMarker filename page = [] := by
      rw [pageRequests, requestsOf, hb, List.map_nil]
    have hnil :
        Answers setup.compiler past (pageRequests setup dialectMarker filename page) [] := by
      rw [hreq]
      exact Answers.nil
    rw [hok [] hnil, hreq, flatten_wovenPieces_of_no_block _ hb, htile, String.ofList_toList]

/-- One block between two literals, and a compiler that turns everything into `y`. -/
theorem weave_one_block :
    weave ⟨Compiler.pure fun _ => .ok { code := "y" }, "f", none⟩ "m" "n" "a.html"
        "a<script type=\"m\">x</script>b" []
      = ⟨.ok (some "a<script type=\"n\">y</script>b"),
          pageRequests ⟨Compiler.pure fun _ => .ok { code := "y" }, "f", none⟩ "m" "a.html"
            "a<script type=\"m\">x</script>b"⟩ := by
  have hsegs : pageSegments "m" "a<script type=\"m\">x</script>b"
      = [.literal "a".toList, .block ⟨"<script type=\"".toList, "m".toList, [], "\">".toList,
          "x".toList, "</script>".toList⟩, .literal "b".toList] := by
    decide +kernel
  obtain ⟨-, -, -, hok, -, -⟩ := weave_frame ⟨Compiler.pure fun _ => .ok { code := "y" }, "f", none⟩
    "m" "n" "a.html" "a<script type=\"m\">x</script>b" [] (by decide)
  rw [hok [{ code := "y" }], hsegs]
  · rfl
  · rw [pageRequests, hsegs]
    exact Answers.cons rfl Answers.nil

end Markup
end ScriptWeave
