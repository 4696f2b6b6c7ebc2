/-
# Only the last extension of a name decides

How a file is handled is read off its name, and of the name only the last component counts, of that
only what stands behind its last dot, and of that only the letters and not their case.  The
configured lists are read in the same way: the dots in front of an entry, the case of its letters,
its place in the list and how often it stands there make no difference.

The last component of a path is the last of its pieces between slashes that counts for something; an
empty piece does not, and neither does a dot.  Two dots do, but they have no extension, and neither
has a component whose only dot is in front.

**Stated here.**  What does not change how a file is handled, and how it is handled for each last
component that there can be (`classify_by_last_extension`).
-/
import ScriptWeave.Project.Routes
import ScriptWeave.Proofs.FileTree.Paths
import ScriptWeave.Proofs.Markup.LetterCase

namespace ScriptWeave

/-! ## 1. Marks in small letters -/

namespace Text

theorem isMark_slash : IsMark '/' := ⟨by decide, by decide⟩

theorem isMark_dot : IsMark '.' := ⟨by decide, by decide⟩

section Marks

variable {mark : Char} {s w : List Char}

theorem IsMark.mem_asciiLower_iff (h : IsMark mark) : mark ∈ asciiLower s ↔ mark ∈ s := by
  simp [asciiLower, h.toLower_eq_iff]

theorem IsMark.splitOn_asciiLower (h : IsMark mark) (s : List Char) :
    (asciiLower s).splitOn mark = (s.splitOn mark).map asciiLower := by
  induction s with
  | nil => rfl
  | cons c s ih =>
    rw [asciiLower_cons, List.splitOn_cons_eq_if_modifyHead, List.splitOn_cons_eq_if_modifyHead,
      h.beq_toLower, ih]
    split
    · rfl
    · obtain ⟨p, ps, hps⟩ := List.exists_cons_of_ne_nil (List.splitOn_ne_nil mark s)
      rw [hps]
      rfl

/-- A text of marks is the small form of itself only. -/
theorem asciiLower_eq_iff_of_marks (h : ∀ c ∈ w, IsMark c) : asciiLower s = w ↔ s = w := by
  induction w generalizing s with
  | nil => exact List.map_eq_nil_iff
  | cons c w ih =>
    rw [List.forall_mem_cons] at h
    cases s with
    | nil => simp
    | cons d s => simp [h.1.toLower_eq_iff, ih h.2]

end Marks

end Text

open Text

namespace FilePath

/-! ## 2. Last components -/

/-- The piece counts for nothing in a path. -/
def IsIdle (piece : List Char) : Prop := piece = [] ∨ piece = ['.']

instance (piece : List Char) : Decidable (IsIdle piece) :=
  inferInstanceAs (Decidable (piece = [] ∨ piece = ['.']))

/-- The last of the pieces between slashes that counts for something. -/
def LastComponent (path name : List Char) : Prop :=
  ∃ before after, path.splitOn '/' = before ++ name :: after ∧ ¬ IsIdle name ∧
    ∀ piece ∈ after, IsIdle piece

section Last

variable {path name piece : List Char}

theorem isIdle_asciiLower_iff : IsIdle (asciiLower piece) ↔ IsIdle piece := by
  rw [IsIdle, IsIdle, asciiLower_eq_iff_of_marks (List.forall_mem_nil IsMark),
    asciiLower_eq_iff_of_marks (by simpa using isMark_dot)]

theorem componentOf_eq_none_iff : componentOf piece = none ↔ IsIdle piece := by
  unfold componentOf IsIdle
  split
  · next h => exact iff_of_true rfl h
  · next h => split <;> exact iff_of_false nofun h

theorem filterMap_componentOf_of_isIdle {pieces : List (List Char)}
    (h : ∀ piece ∈ pieces, IsIdle piece) : pieces.filterMap componentOf = [] :=
  List.filterMap_eq_nil_iff.mpr fun piece hp => componentOf_eq_none_iff.mpr (h piece hp)

/-- Where there is no last component, all pieces are idle. -/
theorem isIdle_or_exists_lastComponent (path : List Char) :
    (∀ piece ∈ path.splitOn '/', IsIdle piece) ∨ ∃ name, LastComponent path name := by
  suffices h : ∀ pieces : List (List Char), (∀ piece ∈ pieces, IsIdle piece) ∨
      ∃ name before after, pieces = before ++ name :: after ∧ ¬ IsIdle name ∧
        ∀ piece ∈ after, IsIdle piece from h _
  intro pieces
  induction pieces with
  | nil => exact .inl (List.forall_mem_nil IsIdle)
  | cons first rest ih =>
    rcases ih with hrest | ⟨name, before, after, rfl, hname, hafter⟩
    · by_cases hfirst : IsIdle first
      · exact .inl (List.forall_mem_cons.mpr ⟨hfirst, hrest⟩)
      · exact .inr ⟨first, [], rest, rfl, hfirst, hrest⟩
    · exact .inr ⟨name, first :: before, after, rfl, hname, hafter⟩

theorem LastComponent.asciiLower (h : LastComponent path name) :
    LastComponent (asciiLower path) (asciiLower name) := by
  obtain ⟨before, after, hpath, hname, hafter⟩ := h
  refine ⟨before.map Text.asciiLower, after.map Text.asciiLower, ?_,
    mt isIdle_asciiLower_iff.mp hname,
    List.forall_mem_map.mpr fun piece hp => isIdle_asciiLower_iff.mpr (hafter piece hp)⟩
  rw [isMark_slash.splitOn_asciiLower, hpath, List.map_append, List.map_cons]

/-- A name behind a slash is the last component. -/
theorem lastComponent_append (dir : List Char) (hslash : '/' ∉ name) (hname : ¬ IsIdle name) :
    LastComponent (dir ++ '/' :: name) name :=
  ⟨dir.splitOn '/', [], by rw [List.splitOn_append_cons_self, List.splitOn_eq_singleton hslash],
    hname, List.forall_mem_nil IsIdle⟩

theorem lastComponent_self (hslash : '/' ∉ name) (hname : ¬ IsIdle name) :
    LastComponent name name :=
  ⟨[], [], List.splitOn_eq_singleton hslash, hname, List.forall_mem_nil IsIdle⟩

theorem fileName?_of_lastComponent (h : LastComponent path name) :
    fileName? path = if name = ['.', '.'] then none else some name := by
  obtain ⟨before, after, hpath, hname, hafter⟩ := h
  have hlast : ∀ c, componentOf name = some c → (components path).getLast? = some c := by
    intro c hc
    rw [components_eq, hpath, List.filterMap_append, List.filterMap_cons_some hc,
      filterMap_componentOf_of_isIdle hafter, ← List.append_assoc, List.getLast?_concat]
  rw [fileName?]
  by_cases hup : name = ['.', '.']
  · rw [hlast .up (by simp [hup, componentOf]), if_pos hup]
  · have hc : componentOf name = some (.name (String.ofList name)) := by
      rw [componentOf, if_neg (not_or.mpr (not_or.mp hname)), if_neg hup]
    rw [hlast _ hc, if_neg hup]
    simp

theorem fileName?_of_isIdle (h : ∀ piece ∈ path.splitOn '/', IsIdle piece) :
    fileName? path = none := by
  rw [fileName?, components_eq, filterMap_componentOf_of_isIdle h, List.append_nil]
  rcases isFront_frontOf path with hfront | hfront | hfront <;> simp [hfront]

end Last

/-! ## 3. Extensions -/

section Extension

variable {path name stem ext rest : List Char}

theorem extensionOf_of_notMem (h : '.' ∉ name) : extensionOf name = none := by
  rw [extensionOf, List.splitOn_eq_singleton h]
  rfl

theorem extensionOf_cons_dot (h : '.' ∉ rest) : extensionOf ('.' :: rest) = none := by
  have hsplit := List.splitOn_append_cons_self_of_not_mem (List.not_mem_nil (a := '.')) rest
  rw [List.nil_append, List.splitOn_eq_singleton h] at hsplit
  rw [extensionOf, hsplit]
  rfl

theorem extensionOf_append (hstem : stem ≠ []) (hext : '.' ∉ ext) :
    extensionOf (stem ++ '.' :: ext) = some ext := by
  have hpieces : stem.splitOn '.' ≠ [[]] := by
    intro h
    have hjoin : ['.'].intercalate (stem.splitOn '.') = stem := List.intercalate_splitOn '.'
    rw [h, List.intercalate_singleton] at hjoin
    exact hstem hjoin.symm
  have hne := List.splitOn_ne_nil '.' stem
  rw [extensionOf, List.splitOn_append_cons_self, List.splitOn_eq_singleton hext]
  simp only [List.getLast?_concat, List.dropLast_concat]
  split
  · next h => exact absurd h hne
  · next h => exact absurd h hpieces
  · rfl

/-- A name has no dot, or one in front and no other, or it is a stem with an extension. -/
theorem dots_cases (name : List Char) : '.' ∉ name ∨ (∃ rest, name = '.' :: rest ∧ '.' ∉ rest) ∨
    ∃ stem ext, name = stem ++ '.' :: ext ∧ stem ≠ [] ∧ '.' ∉ ext := by
  by_cases h : '.' ∈ name
  · obtain ⟨ext, stem, hsplit, hext⟩ := List.eq_append_cons_of_mem (List.mem_reverse.mpr h)
    have hname : name = stem.reverse ++ '.' :: ext.reverse := by
      simpa using congrArg List.reverse hsplit
    rw [← List.mem_reverse] at hext
    by_cases hstem : stem.reverse = []
    · exact .inr (.inl ⟨ext.reverse, by rw [hname, hstem, List.nil_append], hext⟩)
    · exact .inr (.inr ⟨stem.reverse, ext.reverse, hname, hstem, hext⟩)
  · exact .inl h

theorem extensionOf_asciiLower (name : List Char) :
    extensionOf (asciiLower name) = (extensionOf name).map asciiLower := by
  have hlower : ∀ {s : List Char}, '.' ∉ s → '.' ∉ asciiLower s :=
    fun h => mt isMark_dot.mem_asciiLower_iff.mp h
  have hdot : '.'.toLower = '.' := by decide
  rcases dots_cases name with h | ⟨rest, rfl, h⟩ | ⟨stem, ext, rfl, hstem, hext⟩
  · rw [extensionOf_of_notMem h, extensionOf_of_notMem (hlower h), Option.map_none]
  · rw [asciiLower_cons, hdot, extensionOf_cons_dot h, extensionOf_cons_dot (hlower h),
      Option.map_none]
  · have hstem' : asciiLower stem ≠ [] := mt List.map_eq_nil_iff.mp hstem
    rw [asciiLower_append, asciiLower_cons, hdot, extensionOf_append hstem hext,
      extensionOf_append hstem' (hlower hext), Option.map_some]

theorem extension?_of_lastComponent (h : LastComponent path name) (hup : name ≠ ['.', '.']) :
    extension? path = extensionOf name := by
  rw [extension?, fileName?_of_lastComponent h, if_neg hup, Option.bind_some]

theorem extension?_of_isIdle (h : ∀ piece ∈ path.splitOn '/', IsIdle piece) :
    extension? path = none := by
  rw [extension?, fileName?_of_isIdle h, Option.bind_none]

theorem extension?_of_up (h : LastComponent path ['.', '.']) : extension? path = none := by
  rw [extension?, fileName?_of_lastComponent h, if_pos rfl, Option.bind_none]

/-- **The extension of a path in small letters** is its extension, in small letters. -/
theorem extension?_asciiLower (path : List Char) :
    extension? (asciiLower path) = (extension? path).map asciiLower := by
  rcases isIdle_or_exists_lastComponent path with h | ⟨name, h⟩
  · rw [extension?_of_isIdle h, Option.map_none, extension?_of_isIdle]
    rw [isMark_slash.splitOn_asciiLower]
    exact List.forall_mem_map.mpr fun piece hp => isIdle_asciiLower_iff.mpr (h piece hp)
  · have hdots : asciiLower name = ['.', '.'] ↔ name = ['.', '.'] :=
      asciiLower_eq_iff_of_marks (by simpa using isMark_dot)
    have hlower := h.asciiLower
    by_cases hup : name = ['.', '.']
    · rw [hdots.mpr hup] at hlower
      rw [hup] at h
      rw [extension?_of_up h, extension?_of_up hlower, Option.map_none]
    · rw [extension?_of_lastComponent h hup,
        extension?_of_lastComponent hlower (mt hdots.mp hup), extensionOf_asciiLower]

end Extension

end FilePath

/-! ## 4. Lists of extensions -/

namespace Routes

open FilePath

/-- An entry of the list is the extension, the dots in front of it and the case of ASCII letters set
aside. -/
def Listed (entries : List String) (ext : List Char) : Prop :=
  ∃ entry ∈ entries, asciiLower (entry.toList.dropWhile (· = '.')) = asciiLower ext

instance (entries : List String) (ext : List Char) : Decidable (Listed entries ext) :=
  inferInstanceAs (Decidable (∃ entry ∈ entries, _))

/-- The two entries differ in dots in front and in the case of ASCII letters at most. -/
def Alike (entry entry' : String) : Prop :=
  ∃ dots dots' core core', entry.toList = dots ++ core ∧ entry'.toList = dots' ++ core' ∧
    (∀ c ∈ dots ++ dots', c = '.') ∧ asciiLower core = asciiLower core'

/-- The two lists have the same entries up to dots in front and letter case, in any order and each
as often as you like. -/
def SameEntries (entries entries' : List String) : Prop :=
  (∀ entry ∈ entries, ∃ entry' ∈ entries', Alike entry entry') ∧
    ∀ entry' ∈ entries', ∃ entry ∈ entries, Alike entry entry'

section Lists

variable {entries entries' markup markup' script script' : List String} {entry entry' : String}
  {ext ext' : List Char} {filename filename' : String}

theorem mem_map_normalize_iff :
    asciiLower ext ∈ entries.map normalize ↔ Listed entries ext := List.mem_map

theorem Alike.normalize_eq (h : Alike entry entry') : normalize entry = normalize entry' := by
  obtain ⟨dots, dots', core, core', hentry, hentry', hdots, hcore⟩ := h
  rw [List.forall_mem_append] at hdots
  have hlower : ∀ c : Char, decide (c.toLower = '.') = decide (c = '.') := fun c =>
    decide_eq_decide.mpr (isMark_dot.toLower_eq_iff c)
  rw [normalize, normalize, hentry, hentry',
    List.dropWhile_append_of_pos fun c hc => decide_eq_true (hdots.1 c hc),
    List.dropWhile_append_of_pos fun c hc => decide_eq_true (hdots.2 c hc),
    ← dropWhile_asciiLower core hlower, ← dropWhile_asciiLower core' hlower, hcore]

theorem listed_iff_of_sameEntries (h : SameEntries entries entries')
    (hext : asciiLower ext = asciiLower ext') : Listed entries ext ↔ Listed entries' ext' := by
  constructor
  · rintro ⟨entry, hentry, heq⟩
    obtain ⟨entry', hentry', halike⟩ := h.1 entry hentry
    exact ⟨entry', hentry', halike.normalize_eq.symm.trans (heq.trans hext)⟩
  · rintro ⟨entry', hentry', heq⟩
    obtain ⟨entry, hentry, halike⟩ := h.2 entry' hentry'
    exact ⟨entry, hentry, halike.normalize_eq.trans (heq.trans hext.symm)⟩

/-! ## 5. Handling -/

theorem classify_of_no_extension (h : extension? filename.toList = none) :
    (ofExtensions markup script).classify filename = .passthrough := by
  rw [classify, h]

theorem classify_of_extension (h : extension? filename.toList = some ext) :
    (ofExtensions markup script).classify filename
      = if Listed markup ext then .markup else if Listed script ext then .script
        else .passthrough := by
  simp only [classify, h, ofExtensions, mem_map_normalize_iff]

theorem classify_eq_of_same (hmarkup : SameEntries markup markup')
    (hscript : SameEntries script script')
    (hname : asciiLower filename.toList = asciiLower filename'.toList) :
    (ofExtensions markup' script').classify filename'
      = (ofExtensions markup script).classify filename := by
  have hext : (extension? filename.toList).map asciiLower
      = (extension? filename'.toList).map asciiLower := by
    rw [← extension?_asciiLower, hname, extension?_asciiLower]
  cases h : extension? filename.toList with
  | none =>
    rw [h, Option.map_none, eq_comm, Option.map_eq_none_iff] at hext
    rw [classify_of_no_extension h, classify_of_no_extension hext]
  | some ext =>
    rw [h, Option.map_some, eq_comm, Option.map_eq_some_iff] at hext
    obtain ⟨ext', h', hlower⟩ := hext
    rw [classify_of_extension h, classify_of_extension h']
    simp only [listed_iff_of_sameEntries hmarkup hlower.symm,
      listed_iff_of_sameEntries hscript hlower.symm]

theorem classify_eq_of_lastComponent {name : String}
    (h : LastComponent filename.toList name.toList) (hself : LastComponent name.toList name.toList)
    (routes : Routes) : routes.classify filename = routes.classify name := by
  rw [classify, classify, extension?, extension?, fileName?_of_lastComponent h,
    fileName?_of_lastComponent hself]

/-- **Only the last extension decides.**  A directory in front of a name makes no difference, nor
does the case of ASCII letters in the name or in the lists, nor do dots in front of entries, nor
their order or number.  Where the last component is a stem with an extension, the file is handled as
markup if that is listed there, else as a script if it is listed there, and else passes through; all
other files pass through: those whose last component has no dot, or only one in front, or is the
directory above, and those without any. -/
theorem classify_by_last_extension (markup script : List String) :
    (∀ dir name : String, name ≠ "" → name ≠ "." → '/' ∉ name.toList →
      (ofExtensions markup script).classify (dir ++ "/" ++ name)
        = (ofExtensions markup script).classify name) ∧
    (∀ markup' script' filename filename', SameEntries markup markup' → SameEntries script script' →
      asciiLower filename.toList = asciiLower filename'.toList →
      (ofExtensions markup' script').classify filename'
        = (ofExtensions markup script).classify filename) ∧
    (∀ filename stem ext, LastComponent filename.toList (stem ++ '.' :: ext) → stem ≠ [] →
      '.' ∉ ext → stem ++ '.' :: ext ≠ "..".toList →
      ((ofExtensions markup script).classify filename = .markup ↔ Listed markup ext) ∧
      ((ofExtensions markup script).classify filename = .script ↔
        ¬ Listed markup ext ∧ Listed script ext) ∧
      ((ofExtensions markup script).classify filename = .passthrough ↔
        ¬ Listed markup ext ∧ ¬ Listed script ext)) ∧
    (∀ filename name, LastComponent filename.toList name →
      '.' ∉ name ∨ (∃ rest, name = '.' :: rest ∧ '.' ∉ rest) ∨ name = "..".toList →
      (ofExtensions markup script).classify filename = .passthrough) ∧
    (∀ filename, (∀ name, ¬ LastComponent filename.toList name) →
      (ofExtensions markup script).classify filename = .passthrough) := by
  refine ⟨?directory, fun _ _ _ _ => classify_eq_of_same, ?extension, ?noExtension, ?noName⟩
  case directory =>
    intro dir name hne hdot hslash
    have hname : ¬ IsIdle name.toList := by
      rintro (h | h)
      · exact hne (String.toList_inj.mp h)
      · exact hdot (String.toList_inj.mp h)
    have hpath : (dir ++ "/" ++ name).toList = dir.toList ++ '/' :: name.toList := by simp
    refine classify_eq_of_lastComponent ?_ (lastComponent_self hslash hname) _
    rw [hpath]
    exact lastComponent_append _ hslash hname
  case extension =>
    intro filename stem ext hlast hstem hext hup
    have h := extension?_of_lastComponent hlast hup
    rw [extensionOf_append hstem hext] at h
    rw [classify_of_extension h]
    by_cases hmarkup : Listed markup ext <;> by_cases hscript : Listed script ext <;>
      simp [hmarkup, hscript]
  case noExtension =>
    intro filename name hlast hname
    refine classify_of_no_extension ?_
    by_cases hup : name = ['.', '.']
    · exact extension?_of_up (hup ▸ hlast)
    · rw [extension?_of_lastComponent hlast hup]
      rcases hname with h | ⟨rest, rfl, h⟩ | h
      · exact extensionOf_of_notMem h
      · exact extensionOf_cons_dot h
      · exact absurd h hup
  case noName =>
    intro filename hnone
    refine classify_of_no_extension (extension?_of_isIdle ?_)
    exact (isIdle_or_exists_lastComponent _).resolve_right fun ⟨name, h⟩ => hnone name h

/-- A page in a directory, with a dot behind it, under two spellings of its path and the lists. -/
theorem classify_page :
    LastComponent "src/Page.XHTML/.".toList ("Page".toList ++ '.' :: "XHTML".toList) ∧
    Listed [".xhtml", "htm"] "XHTML".toList ∧
    (ofExtensions [".xhtml", "htm"] ["js"]).classify "src/Page.XHTML/." = .markup ∧
    SameEntries [".xhtml", "htm"] ["HTM", "xHtml", "htm"] ∧ SameEntries ["js"] ["..js"] ∧
    asciiLower "src/Page.XHTML/.".toList = asciiLower "SRC/page.xhtml/.".toList ∧
    (ofExtensions ["HTM", "xHtml", "htm"] ["..js"]).classify "SRC/page.xhtml/." = .markup ∧
    '/' ∉ "Page.XHTML".toList ∧
    (ofExtensions [".xhtml", "htm"] ["js"]).classify ("src" ++ "/" ++ "Page.XHTML")
      = (ofExtensions [".xhtml", "htm"] ["js"]).classify "Page.XHTML" := by
  obtain ⟨hdirectory, hsame, hextension, -, -⟩ :=
    classify_by_last_extension [".xhtml", "htm"] ["js"]
  have hlast : LastComponent "src/Page.XHTML/.".toList ("Page".toList ++ '.' :: "XHTML".toList) :=
    ⟨["src".toList], [['.']], by decide, by decide, by decide⟩
  have hlisted : Listed [".xhtml", "htm"] "XHTML".toList := by decide
  have hpage := (hextension "src/Page.XHTML/." _ _ hlast (by decide) (by decide) (by decide)).1.mpr
    hlisted
  have hmarkup : SameEntries [".xhtml", "htm"] ["HTM", "xHtml", "htm"] := by
    have hxhtml : Alike ".xhtml" "xHtml" :=
      ⟨['.'], [], "xhtml".toList, "xHtml".toList, by decide, by decide, by simp, by decide⟩
    have hcapitals : Alike "htm" "HTM" :=
      ⟨[], [], "htm".toList, "HTM".toList, by decide, by decide, by simp, by decide⟩
    have hhtm : Alike "htm" "htm" :=
      ⟨[], [], "htm".toList, "htm".toList, by decide, by decide, by simp, by decide⟩
    simp [SameEntries, hxhtml, hcapitals, hhtm]
  have hscript : SameEntries ["js"] ["..js"] := by
    have hjs : Alike "js" "..js" :=
      ⟨[], ['.', '.'], "js".toList, "js".toList, by decide, by decide, by simp, by decide⟩
    simp [SameEntries, hjs]
  have hname : asciiLower "src/Page.XHTML/.".toList = asciiLower "SRC/page.xhtml/.".toList := by
    decide
  exact ⟨hlast, hlisted, hpage, hmarkup, hscript, hname,
    (hsame _ _ _ _ hmarkup hscript hname).trans hpage, by decide,
    hdirectory "src" "Page.XHTML" (by decide) (by decide) (by decide)⟩

end Lists

end Routes
end ScriptWeave
