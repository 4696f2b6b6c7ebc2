/-
# What a compiler's reply stands for

A command that compiles may reply with a JSON object that has its code at `code` and a source map at
`map`, or with the code itself.  Which of the two a reply is has to be told from its text alone.

A reply is an object with code if its text writes one (`IsReplyWith`): in whatever order its members
stand, with whatever blanks and whatever spelling of its texts, and of several members with one key
the last one.  Brackets may nest no deeper than the reader goes, so that the values of the
members may nest up to one level less.

**Stated here.**  Such a reply stands for its code and its source map, and one whose source map is
missing or null for the code alone; any other reply stands for itself; and the bytes that are written
for a source map are a text of it (`ofReply_cases`).
-/
import ScriptWeave.Batch.Run
import ScriptWeave.Compile.Command
import ScriptWeave.Proofs.Json.Printing

namespace ScriptWeave

open Json (lastAt AllNumbers WordNumber)

/-! ## 1. Parts of what a tree means -/

namespace Json

theorem isNull_eq_false_iff {v : Json} : v.isNull = false ↔ v ≠ null := by
  cases v <;> simp [isNull]

theorem isNull_settled (v : Json) : v.settled.isNull = v.isNull := by
  cases v with
  | array items => rw [settled_array]; rfl
  | object members => rw [settled_object]; rfl
  | _ => rfl

theorem settled_eq_string_iff {v : Json} {s : String} : v.settled = string s ↔ v = string s := by
  cases v with
  | array items => simp [settled_array]
  | object members => simp [settled_object, ofMembers]
  | _ => rfl

/-- A tree that means something with a member is an object. -/
theorem exists_of_member?_settled {v : Json} {key : String} {w : Json}
    (h : v.settled.member? key = some w) :
    ∃ ms u, v = object ms ∧ lastAt key ms = some u ∧ u.settled = w := by
  cases v with
  | object ms =>
    rw [member?_settled] at h
    obtain ⟨u, hu, rfl⟩ := Option.map_eq_some_iff.mp h
    exact ⟨ms, u, rfl, hu, rfl⟩
  | array items =>
    rw [settled_array] at h
    cases h
  | _ => cases h

end Json

/-! ## 2. Replies -/

namespace Compiled

/-- The reply is the text of an object with these members, and with this code. -/
structure IsReplyWith (members : List (String × Json)) (code reply : String) : Prop where
  text : (Json.object members).IsText reply
  code : lastAt "code" members = some (.string code)

theorem ofReply_of_isReplyWith {members : List (String × Json)} {code reply : String}
    (h : IsReplyWith members code reply) (hdepth : ∀ m ∈ members, m.2.nesting ≤ 126) :
    ofReply reply =
      ⟨code, ((lastAt "map" members).filter fun map => !map.isNull).map Json.settled⟩ := by
  have hread : Json.read? reply = some (Json.object members).settled :=
    Json.read?_eq_some_iff.mpr ⟨_, h.text, Json.nesting_object_le_iff.mpr hdepth, rfl⟩
  -- whether a source map is null can be told before it is settled
  have hnull : (fun map : Json => !map.isNull) ∘ Json.settled = fun map => !map.isNull :=
    funext fun map => congrArg not (Json.isNull_settled map)
  have hcode : (Json.string code).settled = .string code := rfl
  rw [ofReply, hread]
  dsimp only
  rw [Json.member?_settled, Json.member?_settled, h.code, Option.map_some, hcode,
    Option.filter_map, hnull]

theorem ofReply_of_not_isReplyWith {reply : String}
    (h : ∀ members code, ¬ IsReplyWith members code reply) : ofReply reply = ⟨reply, none⟩ := by
  unfold ofReply
  split
  · next v hread =>
    split
    · next code hcode =>
      obtain ⟨tree, htext, -, rfl⟩ := Json.read?_eq_some_iff.mp hread
      obtain ⟨members, u, rfl, hlast, hu⟩ := Json.exists_of_member?_settled hcode
      obtain rfl := Json.settled_eq_string_iff.mp hu
      exact absurd ⟨htext, hlast⟩ (h members code)
    · rfl
  · rfl

/-- Every code and every source map have a reply: the object of the two, as the printer writes it. -/
theorem ofReply_render (style : Json.Style) (code : String) {map : Json} (hmap : map ≠ .null)
    (hsettled : map.settled = map) (hwords : AllNumbers WordNumber map) (hdepth : map.nesting ≤ 126) :
    ofReply ((Json.object [("code", .string code), ("map", map)]).render style)
      = ⟨code, some map⟩ := by
  have hall : AllNumbers WordNumber (.object [("code", .string code), ("map", map)]) := by
    rw [Json.allNumbers_object]
    simp only [List.mem_cons, List.not_mem_nil, or_false, forall_eq_or_imp, forall_eq]
    exact ⟨Json.allNumbers_string code, hwords⟩
  have hreply : IsReplyWith [("code", .string code), ("map", map)] code
      ((Json.object [("code", .string code), ("map", map)]).render style) :=
    ⟨Json.isText_render style hall, rfl⟩
  have hlast : lastAt "map" [("code", .string code), ("map", map)] = some map := rfl
  have hnull := Json.isNull_eq_false_iff.mpr hmap
  rw [ofReply_of_isReplyWith hreply (by simp [Json.nesting, hdepth]), hlast, Option.filter_some,
    if_pos (by simp [hnull]), Option.map_some, hsettled]

end Compiled

/-! ## 3. What is written for a source map -/

/-- The bytes of a text are read as the text. -/
theorem fromUTF8?_toUTF8 (s : String) : String.fromUTF8? s.toUTF8 = some s := by
  unfold String.fromUTF8?
  rw [String.toUTF8_eq_toByteArray, dif_pos s.isValidUTF8]
  rfl

namespace Compiled

/-- **A reply is told by its text**, whatever reply it is.

An object with code stands for the code and the source map, or without a source map for the code
alone.  What is no object with code stands for itself.  And the bytes that are written for a source
map are a text of it. -/
theorem ofReply_cases (reply : String) :
    (∀ members code, IsReplyWith members code reply → (∀ m ∈ members, m.2.nesting ≤ 126) →
      (∀ map, lastAt "map" members = some map → map ≠ .null →
        ofReply reply = ⟨code, some map.settled⟩) ∧
      (lastAt "map" members = none ∨ lastAt "map" members = some .null →
        ofReply reply = ⟨code, none⟩)) ∧
    ((∀ members code, ¬ IsReplyWith members code reply) → ofReply reply = ⟨reply, none⟩) ∧
    (∀ filename code map, map.settled = map → AllNumbers WordNumber map → map.nesting ≤ 126 →
      ∃ bytes text, String.fromUTF8? bytes = some text ∧ Json.read? text = some map ∧
        Builder.entriesOf filename ⟨code, some map⟩
          = [(sourceMapName filename, .content bytes), (filename, .content code.toUTF8)]) := by
  refine ⟨fun members code h hdepth => ?_, ofReply_of_not_isReplyWith, ?_⟩
  · rw [ofReply_of_isReplyWith h hdepth]
    constructor
    · intro map hmap hnull
      rw [hmap, Option.filter_some, if_pos (by simpa using Json.isNull_eq_false_iff.mpr hnull)]
      rfl
    · rintro (hmap | hmap) <;> rw [hmap] <;> rfl
  · intro filename code map hsettled hwords hdepth
    have hread : Json.readWithin Json.depthLimit (map.render .indented) = some map.settled :=
      Json.readWithin_render .indented hwords (hdepth.trans (by decide))
    rw [hsettled, ← Json.read?_eq] at hread
    exact ⟨map.indented.toUTF8, map.indented, fromUTF8?_toUTF8 _, hread, rfl⟩

/-- A reply whose members stand the other way round, spelled in an unusual way, and with a key that
is repeated. -/
theorem ofReply_cases_spelled :
    let reply := " \x7b\"map\":\n \x7b\"version\": 3, \"version\": 4\x7d, \"code\" : \"\\u0061\" \x7d "
    let map := Json.object [("version", .ofInt 3), ("version", .ofInt 4)]
    let members := [("map", map), ("code", .string "a")]
    IsReplyWith members "a" reply ∧
      ofReply reply = ⟨"a", some (.object [("version", .ofInt 4)])⟩ := by
  intro reply map members
  have htokens : Json.tokens? reply.toList = some (Json.object members).tokens := by decide +kernel
  have h : IsReplyWith members "a" reply := ⟨Json.textOf_of_tokens? htokens, rfl⟩
  refine ⟨h, ?_⟩
  exact ((ofReply_cases reply).1 members "a" h (by decide)).1 map rfl (by simp [map])

end Compiled

end ScriptWeave
