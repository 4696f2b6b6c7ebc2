/-
# The compile calls of a batch

Whatever a batch does, each call it makes is one that the text of a visited file asks for
(`Builder.CallsFor`).  A script asks for one, about the whole text.  A page asks for one for each of
its blocks, about the body, and the directives that stand in the value of the block's `type` take
part in the options.  Below these come the options of the caller, and the name of the file at the
bottom.

That is seen from the visits: a batch makes the calls of its visits (`Builder.requests_run`), and
those of a page are the first ones of its requests, up to a refusal.

**Stated here.**  The options of every compile call follow the last word of these layers, and the
list of features ends with the builder's own one (`options_follow_last_word`).
-/
import ScriptWeave.Proofs.Batch.Trace
import ScriptWeave.Proofs.Compile.Replies
import ScriptWeave.Proofs.Options.LastWord

namespace ScriptWeave

/-! ## 1. The calls for one file -/

/-- Every request up to a refusal is one of the requests. -/
theorem Compiler.mem_of_mem_upToRefusal {compiler : Compiler} {request : CompileRequest} :
    ∀ {requests past : List CompileRequest}, request ∈ compiler.upToRefusal past requests →
      request ∈ requests
  | [], _, h => h
  | first :: rest, past, h => by
    rw [upToRefusal] at h
    rcases List.mem_cons.mp h with rfl | h
    · exact List.mem_cons_self
    · cases hc : compiler past first with
      | error why =>
        rw [hc] at h
        cases h
      | ok output =>
        rw [hc] at h
        exact List.mem_cons_of_mem _ (mem_of_mem_upToRefusal h)

/-- The requests of a page are about its blocks. -/
theorem Markup.mem_pageRequests_iff {setup : CompileSetup} {dialectMarker filename page : String}
    {request : CompileRequest} :
    request ∈ pageRequests setup dialectMarker filename page ↔
      ∃ b, .block b ∈ pageSegments dialectMarker page ∧ requestOf setup filename b = request := by
  rw [pageRequests, requestsOf, List.mem_map]
  refine exists_congr fun b => and_congr_left fun _ => ?_
  rw [blocksOf, List.mem_filterMap]
  constructor
  · rintro ⟨segment, hsegment, hblock⟩
    cases segment with
    | literal text => cases hblock
    | block other => exact Option.some.inj hblock ▸ hsegment
  · exact fun hb => ⟨_, hb, rfl⟩

namespace Builder

/-- The request is one that the text of a file asks for: about the whole of a script, or about a
block of a page, with the directives of the block. -/
inductive CallsFor (builder : Builder) (args : Option OptionLayer) (filename text : String)
    (request : CompileRequest) : Prop
  | script (kind : builder.routes.classify filename = .script) (source : request.source = text)
      (options : request.options = (builder.setup args).options filename none)
  | block {b : Markup.Block} (kind : builder.routes.classify filename = .markup)
      (there : .block b ∈ Markup.segments builder.dialectMarker.toList text.toList)
      (source : request.source = String.ofList b.body)
      (options : request.options = (builder.setup args).options filename
        (some (.ofDirectives (.parse b.attributes))))

section Visit

variable {builder : Builder} {args : Option OptionLayer} {request : CompileRequest}

/-- **Every call of a visit** is one that the text of the file asks for. -/
theorem exists_callsFor_of_mem_callsAt {v : Visited} (h : request ∈ builder.callsAt args v) :
    ∃ text, String.fromUTF8? v.content = some text ∧ builder.CallsFor args v.name text request := by
  unfold callsAt at h
  cases hk : builder.routes.classify v.name with
  | passthrough =>
    simp only [hk] at h
    cases h
  | script =>
    cases hs : String.fromUTF8? v.content with
    | none =>
      simp only [hk, hs] at h
      cases h
    | some text =>
      simp only [hk, hs, List.mem_singleton] at h
      exact ⟨text, rfl, .script hk (by rw [h]) (by rw [h])⟩
  | markup =>
    cases hs : String.fromUTF8? v.content with
    | none =>
      simp only [hk, hs] at h
      cases h
    | some text =>
      simp only [hk, hs] at h
      obtain ⟨b, hb, rfl⟩ := Markup.mem_pageRequests_iff.mp (Compiler.mem_of_mem_upToRefusal h)
      exact ⟨text, rfl, .block hk hb rfl rfl⟩

end Visit
end Builder

/-! ## 2. The options of every call -/

open OptionLayer in
/-- **Options follow the last word on each of them**, for all layers, and so in every compile call
of every batch; and there the feature of the builder ends the list. -/
theorem options_follow_last_word :
    (∀ layers feature file o,
      o = (merge layers feature).resolve file ↔ FollowsLastWord layers feature file o) ∧
    ∀ (builder : Builder) (changes : Changes) (output : Artifacts) (args : Option OptionLayer)
      (past : List CompileRequest), ∀ request ∈ (builder.run changes output args past).requests,
      -- the call is made for a file that is added or changed and not removed
      ∃ name content text, changes.updated.get? name = some content ∧
        changes.removed.contains name = false ∧ String.fromUTF8? content = some text ∧
        -- it is about the whole of a script, with the options of two layers
        (builder.routes.classify name = .script ∧ request.source = text ∧
            FollowsLastWord (ofFile name :: args.toList) builder.featureFlag name
              request.options ∨
          -- or about a block of a page, whose directives are the third
          builder.routes.classify name = .markup ∧
            ∃ b, .block b ∈ Markup.segments builder.dialectMarker.toList text.toList ∧
              request.source = String.ofList b.body ∧
              FollowsLastWord
                (ofFile name :: (args.toList ++ [ofDirectives (DirectiveTable.parse b.attributes)]))
                builder.featureFlag name request.options) ∧
        ∃ before, request.options.features = before ++ [builder.featureFlag] := by
  refine ⟨fun _ _ _ _ => eq_resolve_merge_iff, ?_⟩
  intro builder changes output args past request hr
  rw [Builder.requests_run] at hr
  obtain ⟨v, hv, hcall⟩ := List.mem_flatMap.mp hr
  obtain ⟨hupdated, hkept⟩ := Builder.mem_of_mem_visits hv
  obtain ⟨text, htext, hcalls⟩ := Builder.exists_callsFor_of_mem_callsAt hcall
  refine ⟨v.name, v.content, text, hupdated, hkept, htext, ?_⟩
  cases hcalls with
  | script kind source options =>
    have hword : FollowsLastWord (ofFile v.name :: (args.toList ++ [])) builder.featureFlag v.name
        request.options := eq_resolve_merge_iff.mp options
    obtain ⟨l, -, hfeatures⟩ := hword.features
    rw [List.append_nil] at hword
    exact ⟨Or.inl ⟨kind, source, hword⟩, _, hfeatures⟩
  | @block b kind there source options =>
    have hword : FollowsLastWord
        (ofFile v.name :: (args.toList ++ [ofDirectives (DirectiveTable.parse b.attributes)]))
        builder.featureFlag v.name request.options := eq_resolve_merge_iff.mp options
    obtain ⟨l, -, hfeatures⟩ := hword.features
    exact ⟨Or.inr ⟨kind, b, there, source, hword⟩, _, hfeatures⟩

/-- A page with a block that names its module. -/
def modulePage : String := "<script type=\"text/jsx;moduleId=app\">x</script>"

/-- The block. -/
def moduleBlock : Markup.Block :=
  ⟨"<script type=\"".toList, "text/jsx".toList, ";moduleId=app".toList, "\">".toList, "x".toList,
    "</script>".toList⟩

theorem segments_modulePage :
    Markup.segments "text/jsx".toList modulePage.toList = [.block moduleBlock] := by
  decide +kernel

/-- The block is compiled as its directives say, with the caller's features, and the builder's own
one behind them. -/
theorem options_of_block_call :
    ∃ request ∈ (Builder.mapping.run ⟨∅, SortedMap.ofList [("a.html", modulePage.toUTF8)]⟩ ∅
        (some { features := some ["es6"] }) []).requests,
      request.source = "x" ∧ request.options.moduleName = some "app" ∧
        ∃ before, request.options.features = before ++ ["jsx"] := by
  let caller : Option OptionLayer := some { features := some ["es6"] }
  let request : CompileRequest :=
    Markup.requestOf (Builder.mapping.setup caller) "a.html" moduleBlock
  have hpage : Markup.pageRequests (Builder.mapping.setup caller) "text/jsx" "a.html" modulePage
      = [request] := by
    rw [Markup.pageRequests, Markup.pageSegments, segments_modulePage]
    rfl
  have hr : request ∈ (Builder.mapping.run ⟨∅, SortedMap.ofList [("a.html", modulePage.toUTF8)]⟩ ∅
      caller []).requests := by
    rw [Builder.requests_run]
    refine List.mem_flatMap.mpr ⟨⟨"a.html", modulePage.toUTF8, []⟩, List.mem_cons_self, ?_⟩
    have hkind : Builder.mapping.routes.classify "a.html" = .markup := by decide
    simp only [Builder.callsAt, hkind, fromUTF8?_toUTF8]
    exact hpage ▸ List.mem_cons_self
  refine ⟨request, hr, ?_⟩
  obtain ⟨name, content, text, hget, -, htext, hcall, hbefore⟩ := options_follow_last_word.2
    Builder.mapping ⟨∅, SortedMap.ofList [("a.html", modulePage.toUTF8)]⟩ ∅ caller [] request hr
  obtain ⟨rfl, rfl⟩ : name = "a.html" ∧ content = modulePage.toUTF8 :=
    Prod.mk.inj (List.mem_singleton.mp (SortedMap.get?_eq_some_iff.mp hget))
  obtain rfl := Option.some.inj ((fromUTF8?_toUTF8 modulePage).symm.trans htext)
  rcases hcall with ⟨hkind, -⟩ | ⟨-, b, hb, hsource, hword⟩
  · exact absurd hkind (by decide)
  · have hthere : Markup.Segment.block b ∈ [.block moduleBlock] := segments_modulePage ▸ hb
    obtain rfl := Markup.Segment.block.inj (List.mem_singleton.mp hthere)
    obtain ⟨v, hv, hmodule⟩ := hword.moduleName
    refine ⟨hsource, ?_, hbefore⟩
    rw [hmodule, ← hv.foldl_eq]
    decide +kernel

end ScriptWeave
