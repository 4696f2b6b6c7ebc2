/-
# JSON texts and their values

A JSON text writes a tree: its arrays list their items, and its objects list their members as they
stand in the text, in any order and with keys that may be repeated.  The tree is written by its
tokens (`tokens`), with blanks between them.  What it means is its settled form (`settled`): in
every object the members are put in the order of their keys, and of several members with one key
the last one counts.

Reading is limited in depth.  How deep brackets nest in a text is a question of its tree, not of its
value: a member that does not count is read all the same.

**Stated here.**  Up to any depth, reading a text gives a value exactly if the text writes a tree of
at most that depth, and the value is what the tree means (`readWithin_eq_some_iff`); so the reader
of this library gives values for exactly those texts (`read?_eq_some_iff`).  At a key of an object
stands what the last member with that key means (`member?_settled`), and what a tree means, means
itself (`settled_settled`).
-/
import ScriptWeave.Json.Reader
import ScriptWeave.Proofs.Json.Tokens
import ScriptWeave.Proofs.SortedMap

namespace ScriptWeave.Json

/-! ## 1. Trees -/

/-- What holds of values without brackets, and of arrays and objects if it holds of what is in
them, holds of all values. -/
@[elab_as_elim]
theorem inductionOn {P : Json → Prop} (v : Json) (null : P null) (bool : ∀ b, P (bool b))
    (number : ∀ n, P (number n)) (string : ∀ s, P (string s))
    (array : ∀ items, (∀ v ∈ items, P v) → P (array items))
    (object : ∀ members, (∀ m ∈ members, P m.2) → P (object members)) : P v :=
  match v with
  | .null => null
  | .bool b => bool b
  | .number n => number n
  | .string s => string s
  | .array items => array items fun v _ => inductionOn v null bool number string array object
  | .object members =>
    object members fun m _ => inductionOn m.2 null bool number string array object
termination_by sizeOf v
decreasing_by
  · next h =>
    have := List.sizeOf_lt_of_mem h
    simp only [Json.array.sizeOf_spec]
    omega
  · next h =>
    have := List.sizeOf_lt_of_mem h
    obtain ⟨_, _⟩ := m
    simp only [Prod.mk.sizeOf_spec, Json.object.sizeOf_spec] at this ⊢
    omega

mutual

/-- How deep brackets nest in a value. -/
def nesting : Json → Nat
  | array items => itemsNesting items + 1
  | object members => membersNesting members + 1
  | _ => 0

/-- How deep brackets nest in the items of an array. -/
def itemsNesting : List Json → Nat
  | [] => 0
  | v :: vs => max (nesting v) (itemsNesting vs)

/-- How deep brackets nest in the members of an object. -/
def membersNesting : List (String × Json) → Nat
  | [] => 0
  | (_, v) :: ms => max (nesting v) (membersNesting ms)

end

mutual

/-- The tokens that write a value. -/
def tokens : Json → List Token
  | null => [.null]
  | bool b => [.bool b]
  | number n => [.number n]
  | string s => [.string s]
  | array [] => [.openBracket, .closeBracket]
  | array (v :: vs) => .openBracket :: (tokens v ++ (laterItems vs ++ [.closeBracket]))
  | object [] => [.openBrace, .closeBrace]
  | object ((k, v) :: ms) =>
    .openBrace :: .string k :: .colon :: (tokens v ++ (laterMembers ms ++ [.closeBrace]))

/-- The tokens of the items after the first, each after its comma. -/
def laterItems : List Json → List Token
  | [] => []
  | v :: vs => .comma :: (tokens v ++ laterItems vs)

/-- The tokens of the members after the first, each after its comma. -/
def laterMembers : List (String × Json) → List Token
  | [] => []
  | (k, v) :: ms => .comma :: .string k :: .colon :: (tokens v ++ laterMembers ms)

end

mutual

/-- What a tree means: its members in the order of their keys, the last of several equal keys. -/
def settled : Json → Json
  | array items => array (settledItems items)
  | object members => ofMembers (settledMembers members)
  | v => v

/-- What the items of an array mean. -/
def settledItems : List Json → List Json
  | [] => []
  | v :: vs => settled v :: settledItems vs

/-- What the members of an object mean. -/
def settledMembers : List (String × Json) → List (String × Json)
  | [] => []
  | (k, v) :: ms => (k, settled v) :: settledMembers ms

end

/-! ## 2. Small facts -/

theorem itemsNesting_le_iff {items : List Json} {n : Nat} :
    itemsNesting items ≤ n ↔ ∀ v ∈ items, v.nesting ≤ n := by
  induction items with
  | nil => simp [itemsNesting]
  | cons v vs ih => rw [itemsNesting, Nat.max_le, ih, List.forall_mem_cons]

theorem membersNesting_le_iff {members : List (String × Json)} {n : Nat} :
    membersNesting members ≤ n ↔ ∀ m ∈ members, m.2.nesting ≤ n := by
  induction members with
  | nil => simp [membersNesting]
  | cons m ms ih =>
    obtain ⟨k, v⟩ := m
    rw [membersNesting, Nat.max_le, ih, List.forall_mem_cons]

theorem nesting_array_le_iff {items : List Json} {n : Nat} :
    (array items).nesting ≤ n + 1 ↔ ∀ v ∈ items, v.nesting ≤ n := by
  rw [nesting, Nat.add_le_add_iff_right, itemsNesting_le_iff]

theorem nesting_object_le_iff {members : List (String × Json)} {n : Nat} :
    (object members).nesting ≤ n + 1 ↔ ∀ m ∈ members, m.2.nesting ≤ n := by
  rw [nesting, Nat.add_le_add_iff_right, membersNesting_le_iff]

/-- The tokens of a member. -/
def memberTokens (m : String × Json) : List Token := .string m.1 :: .colon :: tokens m.2

theorem laterItems_eq (vs : List Json) : laterItems vs = vs.flatMap fun v => .comma :: tokens v := by
  induction vs with
  | nil => rfl
  | cons v vs ih => rw [laterItems, ih, List.flatMap_cons, List.cons_append]

theorem laterMembers_eq (ms : List (String × Json)) :
    laterMembers ms = ms.flatMap fun m => .comma :: memberTokens m := by
  induction ms with
  | nil => rfl
  | cons m ms ih =>
    obtain ⟨k, v⟩ := m
    rw [laterMembers, ih, List.flatMap_cons, memberTokens]
    rfl

theorem settledItems_eq (vs : List Json) : settledItems vs = vs.map settled := by
  induction vs with
  | nil => rfl
  | cons v vs ih => rw [settledItems, ih, List.map_cons]

theorem settledMembers_eq (ms : List (String × Json)) :
    settledMembers ms = ms.map fun m => (m.1, settled m.2) := by
  induction ms with
  | nil => rfl
  | cons m ms ih =>
    obtain ⟨k, v⟩ := m
    rw [settledMembers, ih, List.map_cons]

theorem settled_array (vs : List Json) : (array vs).settled = array (vs.map settled) := by
  rw [settled, settledItems_eq]

theorem settled_object (ms : List (String × Json)) :
    (object ms).settled = ofMembers (ms.map fun m => (m.1, settled m.2)) := by
  rw [settled, settledMembers_eq]

/-- A value begins with no closing bracket. -/
theorem exists_tokens_eq_cons (v : Json) :
    ∃ t ts, tokens v = t :: ts ∧ t ≠ .closeBracket ∧ t ≠ .closeBrace := by
  cases v with
  | array items =>
    cases items with
    | nil => exact ⟨_, _, by rw [tokens], by decide, by decide⟩
    | cons v vs => exact ⟨_, _, by rw [tokens], by decide, by decide⟩
  | object members =>
    cases members with
    | nil => exact ⟨_, _, by rw [tokens], by decide, by decide⟩
    | cons m ms =>
      obtain ⟨k, v⟩ := m
      exact ⟨_, _, by rw [tokens], by decide, by decide⟩
  | _ => exact ⟨_, _, by rw [tokens], by simp, by simp⟩

/-! ## 3. Rows of items -/

section Row

variable {α β : Type} {item : List Token → Option (β × List Token)} {close : Token}
  {toks : α → List Token} {val : α → β} {rest : List Token}

theorem length_le_later (toks : α → List Token) (xs : List α) :
    xs.length ≤ (xs.flatMap fun x => Token.comma :: toks x).length := by
  induction xs with
  | nil => exact Nat.le_refl _
  | cons x xs ih =>
    rw [List.flatMap_cons, List.length_append, List.length_cons, List.length_cons]
    omega

/-- Items are read one after the other from their tokens. -/
theorem readList_append (toks : α → List Token) (val : α → β) (hclose : close ≠ .comma)
    {xs : List α} {x : α} {n : Nat}
    (h : ∀ y ∈ x :: xs, ∀ rest, item (toks y ++ rest) = some (val y, rest)) (rest : List Token)
    (hn : xs.length < n) :
    readList item close n (toks x ++ ((xs.flatMap fun y => .comma :: toks y) ++ close :: rest))
      = some ((x :: xs).map val, rest) := by
  -- on the items behind the first one, which takes the place of the first in the next step
  induction xs generalizing x n with
  | nil =>
    obtain ⟨n, rfl⟩ : ∃ m, n = m + 1 := ⟨n - 1, by simp at hn; omega⟩
    rw [List.flatMap_nil, List.nil_append, readList, h x List.mem_cons_self]
    simp
  | cons y ys ih =>
    obtain ⟨n, rfl⟩ : ∃ m, n = m + 1 := ⟨n - 1, by omega⟩
    have hlater := ih (x := y) (n := n) (fun z hz => h z (List.mem_cons_of_mem _ hz))
      (by rw [List.length_cons] at hn; omega)
    rw [readList, h x List.mem_cons_self, List.flatMap_cons, List.append_assoc, List.cons_append]
    dsimp only
    rw [if_neg (Ne.symm hclose), if_pos rfl, hlater]
    rfl

/-- What is read as a row of items is written by the tokens of items. -/
theorem exists_of_readList {P : α → Prop}
    (h : ∀ ts y rest, item ts = some (y, rest) → ∃ x, ts = toks x ++ rest ∧ P x ∧ val x = y)
    {n : Nat} {ts : List Token} {ys : List β} (hr : readList item close n ts = some (ys, rest)) :
    ∃ x xs, ts = toks x ++ ((xs.flatMap fun y => .comma :: toks y) ++ close :: rest) ∧
      (∀ y ∈ x :: xs, P y) ∧ (x :: xs).map val = ys := by
  induction n generalizing ts ys with
  | zero => cases hr
  | succ n ih =>
    rw [readList] at hr
    split at hr
    · cases hr
    · cases hr
    · next y t us hitem =>
      obtain ⟨x, rfl, hx, rfl⟩ := h _ _ _ hitem
      split at hr
      · next ht =>
        cases hr
        subst ht
        exact ⟨x, [], rfl, by simpa using hx, rfl⟩
      · split at hr
        · next ht =>
          subst ht
          obtain ⟨⟨zs, r⟩, hlater, hr⟩ := Option.map_eq_some_iff.mp hr
          cases hr
          obtain ⟨y, ys, rfl, hys, rfl⟩ := ih hlater
          refine ⟨x, y :: ys, by simp, ?_, rfl⟩
          intro z hz
          rcases List.mem_cons.mp hz with rfl | hz
          · exact hx
          · exact hys z hz
        · cases hr

end Row

/-! ## 4. Numbers in a row -/

/-- The row is empty or begins with a token that is no number. -/
def BeginsApart (ts : List Token) : Prop := ∀ t us, ts = t :: us → t.isNumber = false

theorem Apart.append {ts us : List Token} (h : Apart ts) (h' : Apart us) (hus : BeginsApart us) :
    Apart (ts ++ us) := by
  refine List.IsChain.append h h' fun t _ u hu => Or.inr ?_
  obtain ⟨us, rfl⟩ := List.head?_eq_some_iff.mp hu
  exact hus u us rfl

theorem Apart.cons {t : Token} {ts : List Token} (ht : t.isNumber = false) (h : Apart ts) :
    Apart (t :: ts) :=
  List.isChain_cons.mpr ⟨fun _ _ => Or.inl ht, h⟩

theorem beginsApart_cons {t : Token} (ht : t.isNumber = false) (ts : List Token) :
    BeginsApart (t :: ts) := by
  rintro _ _ ⟨⟩
  exact ht

/-- What stands behind commas stays apart from what stands before. -/
theorem apart_later {α : Type} (toks : α → List Token) {xs : List α} (h : ∀ x ∈ xs, Apart (toks x))
    {rest : List Token} (hrest : Apart rest) (hfirst : BeginsApart rest) :
    Apart ((xs.flatMap fun x => .comma :: toks x) ++ rest) ∧
      BeginsApart ((xs.flatMap fun x => .comma :: toks x) ++ rest) := by
  induction xs with
  | nil => exact ⟨hrest, hfirst⟩
  | cons x xs ih =>
    obtain ⟨hlater, hcomma⟩ := ih fun y hy => h y (List.mem_cons_of_mem _ hy)
    rw [List.flatMap_cons, List.append_assoc, List.cons_append]
    exact ⟨((h x List.mem_cons_self).append hlater hcomma).cons rfl, beginsApart_cons rfl _⟩

/-- **The tokens of a value are apart.** -/
theorem apart_tokens (v : Json) : Apart (tokens v) := by
  have hclose : ∀ t : Token, Apart [t] := fun t => List.isChain_singleton t
  induction v using inductionOn with
  | array items ih =>
    cases items with
    | nil => exact (hclose _).cons rfl
    | cons v vs =>
      rw [tokens, laterItems_eq]
      obtain ⟨hlater, hcomma⟩ := apart_later tokens (fun w hw => ih w (List.mem_cons_of_mem _ hw))
        (hclose .closeBracket) (beginsApart_cons rfl _)
      exact ((ih v List.mem_cons_self).append hlater hcomma).cons rfl
  | object members ih =>
    cases members with
    | nil => exact (hclose _).cons rfl
    | cons m ms =>
      obtain ⟨k, v⟩ := m
      rw [tokens, laterMembers_eq]
      obtain ⟨hlater, hcomma⟩ := apart_later memberTokens
        (fun m hm => ((ih m (List.mem_cons_of_mem _ hm)).cons rfl).cons rfl)
        (hclose .closeBrace) (beginsApart_cons rfl _)
      exact ((((ih (k, v) List.mem_cons_self).append hlater hcomma).cons rfl).cons rfl).cons rfl
  | _ => exact hclose _

/-! ## 5. Reading a value -/

/-- A member is read from its tokens. -/
theorem readMember_append {value : List Token → Option (Json × List Token)} {m : String × Json}
    {w : Json} {rest : List Token} (h : value (tokens m.2 ++ rest) = some (w, rest)) :
    readMember value (memberTokens m ++ rest) = some ((m.1, w), rest) := by
  rw [memberTokens, List.cons_append, List.cons_append, readMember, h]
  rfl

theorem readValue_openBracket {depth : Nat} {t : Token} (ht : t ≠ .closeBracket) (ts : List Token) :
    readValue (depth + 1) (.openBracket :: t :: ts)
      = (readList (readValue depth) .closeBracket (ts.length + 1) (t :: ts)).map
          fun (vs, ts) => (array vs, ts) := by
  rw [readValue]
  · rfl
  · rintro _ ⟨⟩
    exact ht rfl

theorem readValue_openBrace {depth : Nat} {t : Token} (ht : t ≠ .closeBrace) (ts : List Token) :
    readValue (depth + 1) (.openBrace :: t :: ts)
      = (readList (readMember (readValue depth)) .closeBrace (ts.length + 1) (t :: ts)).map
          fun (ms, ts) => (ofMembers ms, ts) := by
  rw [readValue]
  · rfl
  · rintro _ ⟨⟩
    exact ht rfl

/-- An array is read from its tokens, if its items are read from theirs. -/
theorem readValue_array {depth : Nat} {vs : List Json}
    (h : ∀ v ∈ vs, ∀ rest, readValue depth (tokens v ++ rest) = some (v.settled, rest))
    (rest : List Token) :
    readValue (depth + 1) (tokens (array vs) ++ rest) = some ((array vs).settled, rest) := by
  rw [settled_array]
  cases vs with
  | nil =>
    rw [tokens, List.cons_append, List.cons_append, readValue]
    rfl
  | cons v vs =>
    have hclose : Token.closeBracket ≠ .comma := by decide
    have hrow := fun n => readList_append tokens settled hclose h rest (n := n)
    have hlength := length_le_later tokens vs
    obtain ⟨t, ts, ht, hbracket, -⟩ := exists_tokens_eq_cons v
    rw [ht] at hrow
    rw [tokens, laterItems_eq, ht]
    simp only [List.cons_append, List.append_assoc, List.nil_append] at hrow ⊢
    rw [readValue_openBracket hbracket, hrow]
    · rfl
    · simp only [List.length_append, List.length_cons]
      omega

/-- An object is read from its tokens, if the values of its members are read from theirs. -/
theorem readValue_object {depth : Nat} {ms : List (String × Json)}
    (h : ∀ m ∈ ms, ∀ rest, readValue depth (tokens m.2 ++ rest) = some (m.2.settled, rest))
    (rest : List Token) :
    readValue (depth + 1) (tokens (object ms) ++ rest) = some ((object ms).settled, rest) := by
  rw [settled_object]
  cases ms with
  | nil =>
    rw [tokens, List.cons_append, List.cons_append, readValue]
    rfl
  | cons m ms =>
    have hclose : Token.closeBrace ≠ .comma := by decide
    have hrow := fun n => readList_append memberTokens (fun m => (m.1, m.2.settled)) hclose
      (fun m hm rest => readMember_append (h m hm rest)) rest (n := n)
    have hlength := length_le_later memberTokens ms
    obtain ⟨k, v⟩ := m
    rw [tokens, laterMembers_eq]
    simp only [memberTokens, List.cons_append, List.append_assoc, List.nil_append] at hrow ⊢
    rw [readValue_openBrace (by simp), hrow]
    · rfl
    · simp only [memberTokens, List.length_append, List.length_cons] at hlength ⊢
      omega

/-- **A value is read from its tokens**, with its members settled, if brackets nest in it no deeper
than allowed. -/
theorem readValue_append {depth : Nat} {v : Json} (h : v.nesting ≤ depth) (rest : List Token) :
    readValue depth (tokens v ++ rest) = some (v.settled, rest) := by
  -- the depth that is left goes down with the brackets of the tree
  induction v using inductionOn generalizing depth rest with
  | array items ih =>
    obtain ⟨depth, rfl⟩ : ∃ d, depth = d + 1 := ⟨depth - 1, by rw [nesting] at h; omega⟩
    rw [nesting_array_le_iff] at h
    exact readValue_array (fun v hv rest => ih v hv (h v hv) rest) rest
  | object members ih =>
    obtain ⟨depth, rfl⟩ : ∃ d, depth = d + 1 := ⟨depth - 1, by rw [nesting] at h; omega⟩
    rw [nesting_object_le_iff] at h
    exact readValue_object (fun m hm rest => ih m hm (h m hm) rest) rest
  | _ =>
    rw [tokens, List.cons_append, readValue]
    rfl

theorem exists_of_readMember {value : List Token → Option (Json × List Token)} {P : Json → Prop}
    (h : ∀ ts w rest, value ts = some (w, rest) → ∃ v, ts = tokens v ++ rest ∧ P v ∧ settled v = w)
    {ts rest : List Token} {m : String × Json} (hr : readMember value ts = some (m, rest)) :
    ∃ m', ts = memberTokens m' ++ rest ∧ P m'.2 ∧ (m'.1, settled m'.2) = m := by
  unfold readMember at hr
  split at hr
  · next k ts =>
    obtain ⟨⟨w, r⟩, hv, hr⟩ := Option.map_eq_some_iff.mp hr
    cases hr
    obtain ⟨v, rfl, hP, rfl⟩ := h _ _ _ hv
    exact ⟨(k, v), rfl, hP, rfl⟩
  · cases hr

/-- **What is read as a value is written by the tokens of a tree** that means it. -/
theorem exists_of_readValue {depth : Nat} {ts rest : List Token} {w : Json}
    (h : readValue depth ts = some (w, rest)) :
    ∃ v, ts = tokens v ++ rest ∧ v.nesting ≤ depth ∧ v.settled = w := by
  induction depth using Nat.strong_induction_on generalizing ts w rest with
  | h depth ih =>
    -- what is read one level deeper
    have inner : ∀ d, depth = d + 1 → ∀ ts w rest, readValue d ts = some (w, rest) →
        ∃ v, ts = tokens v ++ rest ∧ v.nesting ≤ d ∧ v.settled = w :=
      fun d hd ts w rest h => ih d (by omega) h
    rw [readValue.eq_def] at h
    split at h
    case h_1 => cases h; exact ⟨null, rfl, Nat.zero_le _, rfl⟩
    case h_2 => cases h; exact ⟨bool _, rfl, Nat.zero_le _, rfl⟩
    case h_3 => cases h; exact ⟨number _, rfl, Nat.zero_le _, rfl⟩
    case h_4 => cases h; exact ⟨string _, rfl, Nat.zero_le _, rfl⟩
    case h_5 =>
      cases h
      exact ⟨array [], rfl, nesting_array_le_iff.mpr (by simp), settled_array _⟩
    case h_6 =>
      obtain ⟨⟨vs, r⟩, hrow, h⟩ := Option.map_eq_some_iff.mp h
      cases h
      obtain ⟨v, vs, rfl, hvs, rfl⟩ := exists_of_readList (inner _ rfl) hrow
      refine ⟨array (v :: vs), ?_, nesting_array_le_iff.mpr hvs, settled_array _⟩
      simp [tokens, laterItems_eq]
    case h_7 =>
      cases h
      exact ⟨object [], rfl, nesting_object_le_iff.mpr (by simp), settled_object _⟩
    case h_8 =>
      obtain ⟨⟨ms, r⟩, hrow, h⟩ := Option.map_eq_some_iff.mp h
      cases h
      obtain ⟨m, ms, rfl, hms, rfl⟩ :=
        exists_of_readList (fun ts m rest => exists_of_readMember (inner _ rfl)) hrow
      refine ⟨object (m :: ms), ?_, nesting_object_le_iff.mpr hms, settled_object _⟩
      simp [tokens, memberTokens, laterMembers_eq]
    case h_9 => cases h

/-! ## 6. Reading a text -/

/-- The value that a text writes, if brackets nest in it no deeper than `limit`. -/
def readWithin (limit : Nat) (s : String) : Option Json :=
  match tokens? s.toList with
  | none => none
  | some ts =>
    match readValue limit ts with
    | some (v, []) => some v
    | _ => none

/-- The text writes the tree. -/
def IsText (v : Json) (s : String) : Prop := TextOf (tokens v) s.toList

theorem read?_eq (s : String) : read? s = readWithin depthLimit s := rfl

/-- **A text is read as a value exactly if it writes a tree that means it**, up to any depth. -/
theorem readWithin_eq_some_iff {limit : Nat} {s : String} {w : Json} :
    readWithin limit s = some w ↔
      ∃ v, IsText v s ∧ v.nesting ≤ limit ∧ v.settled = w := by
  constructor
  · intro h
    unfold readWithin at h
    split at h
    · cases h
    · next ts hts =>
      split at h
      · next w hread =>
        cases h
        obtain ⟨v, rfl, hv, rfl⟩ := exists_of_readValue hread
        rw [List.append_nil] at hts
        exact ⟨v, textOf_of_tokens? hts, hv, rfl⟩
      · cases h
  · rintro ⟨v, hs, hv, rfl⟩
    have hread := readValue_append hv []
    rw [List.append_nil] at hread
    rw [readWithin, tokens?_of_textOf hs (apart_tokens v)]
    dsimp only
    rw [hread]

/-- The reader gives values for exactly the texts of trees whose brackets nest at most `depthLimit`
deep. -/
theorem read?_eq_some_iff {s : String} {w : Json} :
    read? s = some w ↔ ∃ v, IsText v s ∧ v.nesting ≤ depthLimit ∧ v.settled = w := by
  rw [read?_eq, readWithin_eq_some_iff]

/-! ## 7. What a tree means -/

/-- The value of the last member with this key. -/
def lastAt (key : String) (members : List (String × Json)) : Option Json :=
  (members.reverse.find? fun m => m.1 = key).map (·.2)

/-- What stands at a key of an object is what the last member with this key means. -/
theorem member?_settled (key : String) (ms : List (String × Json)) :
    (object ms).settled.member? key = (lastAt key ms).map settled := by
  rw [settled_object]
  change (SortedMap.ofList (ms.map fun m => (m.1, m.2.settled))).get? key = _
  rw [SortedMap.get?_ofList, lastAt, ← List.map_reverse, List.find?_map, Option.map_map,
    Option.map_map]
  rfl

theorem settled_array_of_forall {items : List Json} (h : ∀ v ∈ items, v.settled = v) :
    (array items).settled = array items := by
  rw [settled_array]
  exact congrArg array ((List.map_congr_left h).trans (List.map_id _))

/-- An object whose members are in order and mean themselves means itself. -/
theorem settled_object_entries {m : SortedMap String Json}
    (h : ∀ e ∈ m.entries, e.2.settled = e.2) : (object m.entries).settled = object m.entries := by
  have hself : m.entries.map (fun e => (e.1, e.2.settled)) = m.entries := by
    refine (List.map_congr_left fun e he => ?_).trans (List.map_id _)
    rw [h e he, id]
  rw [settled_object, hself, ofMembers, SortedMap.ofList_of_perm (List.Perm.refl _)]

theorem settled_ofMembers {ms : List (String × Json)} (h : ∀ m ∈ ms, m.2.settled = m.2) :
    (ofMembers ms).settled = ofMembers ms :=
  settled_object_entries fun e he => h e (SortedMap.mem_of_mem_ofList he)

end ScriptWeave.Json
