/-
# Verdicts on a path and the directories above it

A path is asked for as a text, and the directories above it are made from that text by cutting off
the last name.  For a text that is made of names in the first place these are the rows that the row
of names begins with, the longest first, down to the empty one (`withParents_joined`).

The first of them that the rules say something about decides.  A rule that keeps can therefore save
a path whose directory is ignored; without such rules a path that is not ignored has no ignored
directory above it.

Rules are asked about whole paths, with the directory of their file in front.  There are paths that
they cannot be asked about, but plain paths in that directory are not among them.

**Stated here.**  Where no rule keeps, a path that is not ignored with its parents is not ignored
itself, and neither is any directory above it (`verdict_ne_ignored_of_prefix`).  The answer to a
plain path in the directory of the rules is the verdict on the names behind it (`verdict?_pathTo`).
-/
import Mathlib.Data.List.Induction
import ScriptWeave.Ignore.Rules
import ScriptWeave.Proofs.FileTree.Disk

namespace ScriptWeave
namespace Ignore

open FilePath FileTree

/-! ## 1. The paths above a path -/

/-- The text of a path made of names. -/
def joined (names : List String) : List Char := ['/'].intercalate (names.map String.toList)

variable {names front : List String} {name : String}

theorem ofList_joined (names : List String) :
    String.ofList (joined names) = String.intercalate "/" names := by
  refine String.toList_injective ?_
  rw [String.toList_ofList, String.toList_intercalate]
  rfl

/-- A path made of names does not start with a slash. -/
theorem head?_joined_ne (h : ∀ n ∈ names, (Component.name n).IsStep) :
    (joined names).head? ≠ some '/' := by
  intro hslash
  cases names with
  | nil => cases hslash
  | cons first more =>
    obtain ⟨rest, hrest⟩ : ∃ rest, joined (first :: more) = first.toList ++ rest := by
      by_cases hmore : more = []
      · exact ⟨[], by simp [joined, hmore]⟩
      · refine ⟨['/'] ++ joined more, ?_⟩
        rw [joined, List.map_cons, List.intercalate_cons_of_ne_nil (by simpa using hmore),
          List.append_assoc]
        rfl
    have hfirst := h first List.mem_cons_self
    have hne : first.toList ≠ [] := hfirst.ne_nil
    rw [hrest, List.head?_append_of_ne_nil _ hne] at hslash
    exact hfirst.2 (List.mem_of_head? hslash)

/-- Nothing is cut off behind a name. -/
theorem trimPieces_append (h : ∀ n ∈ front, (Component.name n).IsStep) (more : List (List Char)) :
    trimPieces ((front.map String.toList).reverse ++ more)
      = if front = [] then trimPieces more else (front.map String.toList).reverse ++ more := by
  obtain rfl | ⟨before, last, rfl⟩ := List.eq_nil_or_concat front
  · rfl
  · have hlast := h last (by simp)
    have hne : last.toList ≠ [] := hlast.ne_nil
    have hdot : last.toList ≠ ['.'] := fun heq =>
      (ne_dot_of_isStep hlast).1 (String.toList_injective heq)
    simp [trimPieces, isComponent, hne, hdot]

/-- The path above a path, with some names at the end of its pieces. -/
theorem parentOf?_of_splitOn {path : List Char} {before : List (List Char)}
    (h : ∀ n ∈ front ++ [name], (Component.name n).IsStep)
    (hsplit : path.splitOn '/' = before ++ (front ++ [name]).map String.toList) :
    parentOf? path = some (['/'].intercalate
      (if front = [] then (trimPieces before.reverse).reverse
        else before ++ front.map String.toList)) := by
  have hall := trimPieces_append h before.reverse
  have hfront := trimPieces_append (fun n hn => h n (List.mem_append_left _ hn)) before.reverse
  rw [if_neg (by simp)] at hall
  rw [parentOf?, hsplit, List.reverse_append, hall]
  have hcons : ((front ++ [name]).map String.toList).reverse ++ before.reverse
      = name.toList :: ((front.map String.toList).reverse ++ before.reverse) := by simp
  rw [hcons]
  simp only [hfront]
  split <;> simp

/-- The pieces of a path made of names. -/
theorem splitOn_joined (h : ∀ n ∈ names, (Component.name n).IsStep) (hne : names ≠ []) :
    (joined names).splitOn '/' = names.map String.toList := by
  refine List.splitOn_intercalate '/' (fun t ht => ?_) (by simpa using hne)
  obtain ⟨n, hn, rfl⟩ := List.mem_map.mp ht
  exact (h n hn).2

/-- The path above a path is made of one name less. -/
theorem parentOf?_joined (h : ∀ n ∈ front ++ [name], (Component.name n).IsStep) :
    parentOf? (joined (front ++ [name])) = some (joined front) := by
  have hsplit : (joined (front ++ [name])).splitOn '/'
      = [] ++ (front ++ [name]).map String.toList := splitOn_joined h (by simp)
  rw [parentOf?_of_splitOn h hsplit]
  split
  · rename_i hnil
    rw [hnil]
    rfl
  · rfl

/-- **The paths above a path** are made of the rows that its names begin with. -/
theorem withParents_joined {n : Nat} (h : ∀ m ∈ names, (Component.name m).IsStep)
    (hn : names.length ≤ n) :
    withParents n (joined names) = names.inits.reverse.map joined := by
  induction names using List.reverseRecOn generalizing n with
  | nil =>
    cases n with
    | zero => rfl
    | succ n => rfl
  | append_singleton front name ih =>
    obtain ⟨n, rfl⟩ : ∃ k, n = k + 1 := Nat.exists_eq_add_one.mpr (by
      rw [List.length_append, List.length_singleton] at hn
      omega)
    have hfront := ih (n := n) (fun m hm => h m (List.mem_append_left _ hm)) (by simpa using hn)
    rw [withParents, parentOf?_joined h]
    simp only [hfront]
    simp

/-! ## 2. The first verdict -/

section Verdicts

variable {rules : List Rule}

theorem verdict_ne_kept (h : ∀ r ∈ rules, r.keeps = false) (path : List UInt8)
    (isDirectory : Bool) : verdict rules path isDirectory ≠ .kept := by
  unfold verdict
  split
  · rename_i rule hfind
    have hmem : rule ∈ rules := List.mem_reverse.mp (List.mem_of_find?_eq_some hfind)
    simp [h rule hmem]
  · simp

/-- A verdict that was found first stays. -/
theorem foldl_orElse_of_ne_silent {α : Type} {v : Verdict} (hv : v ≠ .silent) (f : α → Verdict)
    (l : List α) : l.foldl (fun v a => v.orElse fun _ => f a) v = v := by
  induction l with
  | nil => rfl
  | cons a l ih =>
    rw [List.foldl_cons]
    have hstay : (v.orElse fun _ => f a) = v := by cases v <;> simp [Verdict.orElse] at hv ⊢
    rw [hstay, ih]

/-- A verdict comes from one of the two asked. -/
theorem eq_or_eq_of_orElse {v w : Verdict} {other : Unit → Verdict} (h : v.orElse other = w) :
    v = w ∨ other () = w := by
  cases v with
  | silent => exact .inr h
  | ignored => exact .inl h
  | kept => exact .inl h

/-- A verdict that was found at last comes from one of those asked. -/
theorem eq_or_exists_of_foldl_orElse {α : Type} {v w : Verdict} {f : α → Verdict} {l : List α}
    (h : l.foldl (fun v a => v.orElse fun _ => f a) v = w) : v = w ∨ ∃ a ∈ l, f a = w := by
  induction l generalizing v with
  | nil => exact .inl h
  | cons a l ih =>
    rcases ih h with hfirst | ⟨b, hb, heq⟩
    · rcases eq_or_eq_of_orElse hfirst with heq | heq
      · exact .inl heq
      · exact .inr ⟨a, List.mem_cons_self, heq⟩
    · exact .inr ⟨b, List.mem_cons_of_mem _ hb, heq⟩

/-- Where nothing is kept, what is not ignored has no ignored one among those asked. -/
theorem ne_ignored_of_foldl_orElse {α : Type} {v : Verdict} {f : α → Verdict} {l : List α}
    (hv : v ≠ .kept) (hf : ∀ a ∈ l, f a ≠ .kept)
    (h : l.foldl (fun v a => v.orElse fun _ => f a) v ≠ .ignored) :
    v ≠ .ignored ∧ ∀ a ∈ l, f a ≠ .ignored := by
  induction l generalizing v with
  | nil => exact ⟨h, by simp⟩
  | cons a l ih =>
    rw [List.foldl_cons] at h
    cases v with
    | silent =>
      obtain ⟨ha, hl⟩ := ih (hf a List.mem_cons_self)
        (fun b hb => hf b (List.mem_cons_of_mem _ hb)) h
      exact ⟨by simp, List.forall_mem_cons.mpr ⟨ha, hl⟩⟩
    | ignored => exact absurd (foldl_orElse_of_ne_silent (by simp [Verdict.orElse]) f l) h
    | kept => exact absurd rfl hv

theorem length_le_length_joined (h : ∀ n ∈ names, (Component.name n).IsStep) :
    names.length ≤ (joined names).length := by
  have hlen : (names.map String.toList).length ≤ (joined names).length := by
    refine length_le_length_intercalate ['/'] fun t ht => ?_
    obtain ⟨n, hn, rfl⟩ := List.mem_map.mp ht
    exact (h n hn).ne_nil
  rwa [List.length_map] at hlen

/-- **Without rules that keep**, a path that is not ignored has no ignored directory above it. -/
theorem verdict_ne_ignored_of_prefix (hkeeps : ∀ r ∈ rules, r.keeps = false)
    (hnames : ∀ n ∈ names, (Component.name n).IsStep) (hne : names ≠ [])
    (h : verdictWithParents rules (joined names) ≠ .ignored) {above : List String}
    (habove : above <+: names) :
    verdict rules (String.intercalate "/" above).toUTF8.toList (decide (above ≠ names))
      ≠ .ignored := by
  obtain ⟨front, name, rfl⟩ := (List.eq_nil_or_concat names).resolve_left hne
  rw [List.concat_eq_append] at *
  have hrow : (front ++ [name]).inits.reverse = (front ++ [name]) :: front.inits.reverse := by simp
  rw [verdictWithParents, withParents_joined hnames (length_le_length_joined hnames), hrow] at h
  simp only [List.map_cons, List.foldl_map, ofList_joined] at h
  obtain ⟨hself, hparents⟩ := ne_ignored_of_foldl_orElse (verdict_ne_kept hkeeps _ _)
    (fun _ _ => verdict_ne_kept hkeeps _ _) h
  by_cases hall : above = front ++ [name]
  · simpa [hall] using hself
  · have hinit : above ∈ front.inits.reverse :=
      List.mem_reverse.mpr ((List.mem_inits _ _).mpr
        ((List.prefix_concat_iff.mp habove).resolve_left hall))
    simpa [hall] using hparents above hinit

/-- Without rules there is nothing to say. -/
theorem verdictWithParents_nil (path : List Char) : verdictWithParents [] path = .silent := by
  unfold verdictWithParents
  split
  · rfl
  · rename_i self parents hparents
    clear hparents
    induction parents with
    | nil => rfl
    | cons _ _ ih => exact ih

end Verdicts

/-! ## 3. Asking about plain paths -/

section Plain

variable {base : Location}

/-- An ignore file on a plain path is in the directory that the path says. -/
theorem directoryOf_pathTo (h : ∀ n ∈ base ++ [name], (Component.name n).IsStep) :
    directoryOf (pathTo (base ++ [name])).toList = (pathTo base).toList := by
  have hsplit : (pathTo (base ++ [name])).toList.splitOn '/'
      = [[]] ++ (base ++ [name]).map String.toList := by
    have hroot := List.splitOn_append_cons_self (a := '/') [] (joined (base ++ [name]))
    rw [splitOn_joined h (by simp)] at hroot
    rw [toList_pathTo]
    exact hroot
  rw [directoryOf, parentOf?_of_splitOn h hsplit]
  by_cases hbase : base = []
  · have htop : (pathTo (base ++ [name])).toList.head? = some '/' := by
      rw [toList_pathTo]
      rfl
    rw [if_pos hbase, htop, hbase]
    rfl
  · have htext : ['/'].intercalate ([[]] ++ base.map String.toList) = (pathTo base).toList := by
      rw [List.singleton_append, List.intercalate_cons_of_ne_nil (by simpa using hbase),
        toList_pathTo]
      rfl
    rw [if_neg hbase, htext, toList_pathTo]
    rfl

/-- Behind its front a text is what was put there. -/
theorem below?_pathTo (hnames : ∀ n ∈ names, (Component.name n).IsStep) :
    below? (pathTo base).toList (pathTo (base ++ names)).toList = some (joined names) := by
  have hslash : ∀ place : Location, (['.', '/'].isPrefixOf? (pathTo place).toList).getD
      (pathTo place).toList = (pathTo place).toList := fun place => by
    rw [toList_pathTo]
    rfl
  have hdirectory : (pathTo base).toList ≠ ['.'] := by simp [toList_pathTo]
  have hmem : '/' ∈ (pathTo (base ++ names)).toList := by simp [toList_pathTo]
  -- a slash stands behind the directory, unless that is the top or nothing is below it
  obtain ⟨rest, hcut, hrest⟩ : ∃ rest,
      (pathTo base).toList.isPrefixOf? (pathTo (base ++ names)).toList = some rest ∧
        (rest = joined names ∨ rest = '/' :: joined names) := by
    simp only [List.isPrefixOf?_eq_some_iff_append_eq]
    by_cases hbase : base = []
    · exact ⟨joined names, by rw [hbase, List.nil_append, toList_pathTo names]; rfl, Or.inl rfl⟩
    by_cases hnil : names = []
    · exact ⟨[], by rw [hnil, List.append_nil, List.append_nil], Or.inl (by rw [hnil]; rfl)⟩
    · refine ⟨'/' :: joined names, ?_, Or.inr rfl⟩
      rw [toList_pathTo, toList_pathTo, List.map_append, intercalate_append_of_ne_nil ['/']
        (by simpa using hbase) (by simpa using hnil)]
      rfl
  have hbelow : (['/'].isPrefixOf? rest).getD rest = joined names := by
    rcases hrest with rfl | rfl
    · cases hslash : ['/'].isPrefixOf? (joined names) with
      | none => rfl
      | some more =>
        rw [List.isPrefixOf?_eq_some_iff_append_eq] at hslash
        exact absurd (congrArg List.head? hslash.symm) (head?_joined_ne hnames)
    · rfl
  have hhead := head?_joined_ne hnames
  simp only [below?, hslash, hdirectory, hmem, not_true_eq_false, or_self, if_false, hcut, hbelow,
    hhead]

/-- **The rules of an ignore file can be asked about every plain path** in its directory. -/
theorem verdict?_pathTo (rules : List Rule)
    (hbase : ∀ n ∈ base ++ [name], (Component.name n).IsStep)
    (hnames : ∀ n ∈ names, (Component.name n).IsStep) :
    verdict? rules (pathTo (base ++ [name])).toList (pathTo (base ++ names)).toList
      = some (verdictWithParents rules (joined names)) := by
  rw [verdict?, directoryOf_pathTo hbase, below?_pathTo hnames]
  split
  · rename_i hempty
    rw [List.isEmpty_iff.mp hempty, verdictWithParents_nil]
  · rfl

end Plain

end Ignore
end ScriptWeave
