import PageDiff.Proofs.Script.Refusal
import PageDiff.Proofs.Text.Letters
import PageDiff.Proofs.Url.Composition
import PageDiff.Proofs.Url.Host

/-!
# What addresses are written with

The origins of a script have a host unless their network location holds only a user or a port
(`origins_sited`).  The addresses of its test cases start with a letter, do not end in a blank, and
hold no space and no control character of ASCII; every other character can stand in them, in the
origin as well as in the path, those blanks and control characters included that are not of ASCII.
Main statement: `address_character_iff`.
-/

namespace PageDiff.Script

open PageDiff.Text

variable {s t : State} {made : Option TestCase} {raw : List Char} {before : List (List Char)}

/-! ### Hosts -/

/-- An origin is accepted on its own, or as a field of a line that is accepted. -/
inductive IsOrigin (origin : String) : Prop
  | alone (checked : Url.checkOrigin origin = .ok ())
  | field {s t : State} {raw : List Char} {args a b : String} {made : Option TestCase}
    (read : Line.read raw = .directive .compare args) (accepted : s.step raw = .ok (t, made))
    (pair : IsPair args a b) (mem : origin = a ∨ origin = b)

theorem IsOrigin.checkOrigin {origin : String} (h : IsOrigin origin) :
    Url.checkOrigin origin = .ok () := by
  cases h with
  | alone checked => exact checked
  | field read accepted pair mem =>
    rw [State.step, read] at accepted
    obtain ⟨a, b, hpair, ha, hb, -⟩ := State.compare_eq_ok.mp accepted
    obtain ⟨rfl, rfl⟩ := pair.unique hpair
    obtain rfl | rfl := mem
    · exact ha
    · exact hb

/-- **Hosts of origins.**  Every accepted origin has a scheme and a network location, and a host
exactly if the network location is not just a user, a port or both. -/
theorem origins_sited {origin : String} (h : IsOrigin origin) : ∃ parts, Url.Sited origin parts :=
  Url.sited_of_checkOrigin h.checkOrigin

/-- An origin with a user and a port around its host, and one with an address in brackets. -/
theorem origins_sited_bracketed : ∃ t,
    Line.read "compare http://me@a:80 http://[::1]".toList =
        .directive .compare "http://me@a:80 http://[::1]" ∧
      State.step {} "compare http://me@a:80 http://[::1]".toList = .ok (t, none) ∧
      IsPair "http://me@a:80 http://[::1]" "http://me@a:80" "http://[::1]" ∧
      (∃ parts, Url.Sited "http://me@a:80" parts) ∧ ∃ parts, Url.Sited "http://[::1]" parts := by
  have hread : Line.read "compare http://me@a:80 http://[::1]".toList =
      .directive .compare "http://me@a:80 http://[::1]" := by decide +kernel
  have hstep : State.step {} "compare http://me@a:80 http://[::1]".toList =
      .ok ({ originA := "http://me@a:80", originB := "http://[::1]" }, none) := by decide +kernel
  have hpair : IsPair "http://me@a:80 http://[::1]" "http://me@a:80" "http://[::1]" := by
    simp [IsPair]
  exact ⟨_, hread, hstep, hpair, origins_sited (.field hread hstep hpair (.inl rfl)),
    origins_sited (.field hread hstep hpair (.inr rfl))⟩

/-- A port alone is taken for a place. -/
theorem origin_without_host : Url.checkOrigin "http://:80" = .ok () ∧
    Url.split "http://:80".toList = .ok ⟨"http".toList, ":80".toList, []⟩ ∧
    Url.host ":80".toList = [] := by
  decide +kernel

/-! ### Characters that no address holds -/

/-- The text of a compiled address. -/
structure AddressText (url : String) : Prop where
  clean : Url.IsClean url.toList
  first : ∃ c, url.toList.head? = some c ∧ c.isAlpha = true
  last : ∃ c, url.toList.getLast? = some c ∧ isBlank c = false

/-- An argument at the end of a line does not end in a blank. -/
theorem not_isBlank_of_read {k : Keyword} {args : String} {c : Char}
    (h : Line.read raw = .directive k args) (hc : args.toList.getLast? = some c) :
    isBlank c = false := by
  obtain ⟨first, hsays, -⟩ := read_eq_directive.mp h
  obtain ⟨gap, hraw, -⟩ := hsays.fields
  have hlast : (strip raw).getLast? = some c := by
    rw [hraw, List.getLast?_append, List.getLast?_append, hc]
    rfl
  exact getLast?_strip hlast

/-- A state in which the path does not end in a blank, and whose addresses have been looked at. -/
structure Written (before : List (List Char)) (s : State) : Prop where
  addressed : Addressed before s
  path : ∀ c, s.block.pathname.toList.getLast? = some c → isBlank c = false

theorem written_nil : Written [] {} := ⟨addressed_nil, by simp⟩

theorem Written.next (hw : Written before s) (he : State.Effect s (Line.read raw) t made) :
    Written (before ++ [raw]) t := by
  refine ⟨hw.addressed.next he, ?_⟩
  by_cases hb : Line.read raw = .blank
  · rw [he.block_of_blank hb]
    simp
  · cases hp : argument? .pathname raw with
    | some args =>
      rw [he.pathname_of_some hp]
      exact fun c hc => not_isBlank_of_read (argument?_eq_some.mp hp) hc
    | none =>
      rw [he.pathname_eq hb hp]
      exact hw.path

/-- An accepted origin and a path that is written in order make the text of an address. -/
theorem addressText_append {origin path : String} (ho : Url.checkOrigin origin = .ok ())
    (hp : Url.PathOk path) (hne : path ≠ "")
    (hlast : ∀ c, path.toList.getLast? = some c → isBlank c = false) :
    AddressText (origin ++ path) := by
  obtain ⟨hcheck, hs, -⟩ := Url.checkOrigin_eq_ok.mp ho
  obtain ⟨hclean, -⟩ := Url.check_eq_ok.mp hcheck
  obtain ⟨c, hc, hletter⟩ := Url.exists_head?_of_scheme hs
  have hnil : path.toList ≠ [] := by simpa using hne
  refine ⟨?_, ⟨c, ?_, hletter⟩, path.toList.getLast hnil, ?_, ?_⟩
  · rw [String.toList_append, Url.isClean_append]
    exact ⟨hclean, hp.clean⟩
  · rw [String.toList_append, List.head?_append, hc]
    rfl
  · rw [String.toList_append, List.getLast?_append, List.getLast?_eq_some_getLast hnil]
    rfl
  · exact hlast _ (List.getLast?_eq_some_getLast hnil)

theorem Written.addressText {line : Line} {tc : TestCase} (hw : Written before s)
    (he : State.Effect s line t (some tc)) : AddressText tc.urlA ∧ AddressText tc.urlB := by
  cases he with
  | capture origins path asks fresh =>
    obtain ⟨hA, hB⟩ := hw.addressed.origins origins
    exact ⟨addressText_append hA hw.addressed.path path hw.path,
      addressText_append hB hw.addressed.path path hw.path⟩

theorem addressText_of_compile {text : List Char} {script : Option String} {cases : List TestCase}
    (h : compile text script = .ok cases) :
    ∀ tc ∈ cases, AddressText tc.urlA ∧ AddressText tc.urlB := by
  obtain ⟨s, hrun⟩ := compile_eq_ok.mp h
  refine (State.run_induction (P := fun raws s cases => Written raws s ∧
    ∀ tc ∈ cases, AddressText tc.urlA ∧ AddressText tc.urlB) ⟨written_nil, by simp⟩ ?_ hrun).2
  rintro raws raw s t cases made ⟨hw, hcases⟩ he
  refine ⟨hw.next he, fun tc htc => ?_⟩
  rcases List.mem_append.mp htc with htc | htc
  · exact hcases tc htc
  · obtain rfl : made = some tc := by simpa using htc
    exact hw.addressText he

/-! ### Characters that an address can hold -/

/-- A path that holds a character, with two digits behind it in case that it is a percent sign. -/
def pathWith (c : Char) : String := String.ofList ['/', c, 'a', 'a']

def originWith (c : Char) : String := "http://a" ++ pathWith c

/-- A script with a character in the path of its page and in one of its origins. -/
def rowsWith (c : Char) : List (List Char) :=
  [("compare " ++ originWith c ++ " http://b").toList, ("pathname " ++ pathWith c).toList,
    "capture".toList]

/-- The only test case of that script. -/
def caseWith (c : Char) : TestCase where
  name := pathWith c
  pathname := pathWith c
  originA := originWith c
  originB := "http://b"

section Holding

variable {c : Char}

theorem toList_pathWith (c : Char) : (pathWith c).toList = ['/', c, 'a', 'a'] := by
  simp [pathWith]

theorem pathWith_endsBefore (c : Char) : Url.EndsBefore (pathWith c).toList := by
  intro d hd
  rw [toList_pathWith] at hd
  exact .inl (Option.some.inj hd).symm

theorem pathWith_ok (h : Url.isControlOrSpace c = false) :
    Url.IsClean (pathWith c).toList ∧ Url.EscapesComplete (pathWith c).toList := by
  rw [toList_pathWith]
  constructor
  · intro d hd
    simp only [List.mem_cons, List.not_mem_nil, or_false] at hd
    rcases hd with rfl | rfl | rfl | rfl
    · decide
    · exact h
    · decide
    · decide
  · rw [← Url.escapesOk_iff]
    by_cases hc : c = '%'
    · rw [hc]
      decide
    · rw [Url.escapesOk_cons_of_ne (by decide), Url.escapesOk_cons_of_ne hc]
      decide

theorem check_pathWith {origin : String} (ho : Url.checkOrigin origin = .ok ())
    (h : Url.isControlOrSpace c = false) : Url.check (origin ++ pathWith c) = .ok () :=
  (Url.check_below_origin ho (pathWith_endsBefore c)).1.mpr (pathWith_ok h)

theorem checkOrigin_originWith (h : Url.isControlOrSpace c = false) :
    Url.checkOrigin (originWith c) = .ok () := by
  have ho : Url.checkOrigin "http://a" = .ok () := by decide +kernel
  obtain ⟨-, hs, hn⟩ := Url.checkOrigin_eq_ok.mp ho
  rw [Url.checkOrigin_eq_ok]
  refine ⟨check_pathWith ho h, ?_⟩
  rw [originWith, String.toList_append, Url.partsOf_append hs hn (pathWith_endsBefore c)]
  exact ⟨hs, hn⟩

/-- A line of a word and an argument with visible ends. -/
theorem read_eq_of_visible {k : Keyword} {first last : Char} {word front : List Char}
    {args : String} (hvisible : (first :: word).any isBlank = false) (hhash : first ≠ '#')
    (hk : capitals (first :: word) = k.word.toList) (hargs : args.toList = front ++ [last])
    (hgap : ∀ d, args.toList.head? = some d → isGap d = false) (hlast : isBlank last = false) :
    Line.read (first :: word ++ ' ' :: args.toList) = .directive k args := by
  have hword : ∀ d ∈ first :: word, isBlank d = false :=
    fun d hd => Bool.eq_false_iff.mpr (List.any_eq_false.mp hvisible d hd)
  have hraw : first :: word ++ ' ' :: args.toList =
      first :: ((word ++ ' ' :: front) ++ [last]) := by
    rw [hargs]
    simp
  have hstrip : strip (first :: word ++ ' ' :: args.toList) =
      first :: word ++ ' ' :: args.toList := by
    rw [hraw]
    exact strip_of_visible (hword first List.mem_cons_self) hlast _
  refine read_eq_directive.mpr ⟨first :: word, ⟨?_, ?_, ?_⟩, hk⟩
  · rw [hstrip]
    exact List.cons_ne_nil _ _
  · rw [hstrip]
    exact fun h => hhash (Option.some.inj h)
  · rw [hstrip]
    refine ⟨[' '], rfl, ?_, List.forall_mem_singleton.mpr (by decide), hgap, by simp⟩
    intro d hd
    by_contra hd'
    have := isBlank_of_isGap (by simpa using hd')
    rw [hword d hd] at this
    cases this

theorem read_originRow (c : Char) : Line.read ("compare " ++ originWith c ++ " http://b").toList =
    .directive .compare (originWith c ++ " http://b") := by
  have hargs : (originWith c ++ " http://b").toList =
      ("http://a".toList ++ ['/', c, 'a', 'a'] ++ " http://".toList) ++ ['b'] := by
    simp [originWith, toList_pathWith]
  have hrow : ("compare " ++ originWith c ++ " http://b").toList =
      'c' :: "ompare".toList ++ ' ' :: (originWith c ++ " http://b").toList := by
    simp [originWith, toList_pathWith]
  rw [hrow]
  refine read_eq_of_visible (by decide) (by decide) (by decide) hargs ?_ (by decide)
  intro d hd
  rw [hargs] at hd
  obtain rfl : 'h' = d := by simpa using hd
  decide

theorem read_pathRow (c : Char) : Line.read ("pathname " ++ pathWith c).toList =
    .directive .pathname (pathWith c) := by
  have hrow : ("pathname " ++ pathWith c).toList =
      'p' :: "athname".toList ++ ' ' :: (pathWith c).toList := by
    simp
  have hargs : (pathWith c).toList = ['/', c, 'a'] ++ ['a'] := toList_pathWith c
  rw [hrow]
  refine read_eq_of_visible (by decide) (by decide) (by decide) hargs ?_ (by decide)
  intro d hd
  rw [toList_pathWith] at hd
  obtain rfl : '/' = d := by simpa using hd
  decide

/-- What that script has said after its second line. -/
def stateWith (c : Char) : State where
  originA := originWith c
  originB := "http://b"
  block := { testName := pathWith c, pathname := pathWith c }

theorem pathWith_ne_empty (c : Char) : pathWith c ≠ "" :=
  fun h => by simpa [h] using toList_pathWith c

theorem run_rowsWith (h : Url.isControlOrSpace c = false) :
    State.run {} 1 (rowsWith c) =
      .ok ({ stateWith c with names := [pathWith c] }, [caseWith c]) := by
  have hA := checkOrigin_originWith h
  have hB : Url.checkOrigin "http://b" = .ok () := by decide +kernel
  have horigins : State.hasOrigins { originA := originWith c, originB := "http://b" } = true := by
    simp [State.hasOrigins, originWith]
  have hcompare : State.compare {} (originWith c ++ " http://b") =
      .ok ({ originA := originWith c, originB := "http://b" }, none) :=
    State.compare_eq_ok.mpr ⟨originWith c, "http://b", ⟨by simp [String.append_assoc],
      not_mem_space_of_checkOrigin hA, not_mem_space_of_checkOrigin hB⟩, hA, hB, rfl, rfl⟩
  have hpathname : State.pathname { originA := originWith c, originB := "http://b" } (pathWith c) =
      .ok (stateWith c, none) :=
    State.pathname_eq_ok.mpr ⟨horigins, check_pathWith hA h, check_pathWith hB h, by simp, rfl, rfl⟩
  have hcapture : (stateWith c).capture "" =
      .ok ({ stateWith c with names := [pathWith c] }, some (caseWith c)) := by
    have hfields : Fields "".toList [] [] := fields_iff.mpr rfl
    refine State.capture_eq_ok.mpr ⟨horigins, pathWith_ne_empty c, .viewport, none,
      .whole hfields (.bare rfl) rfl, List.not_mem_nil, ?_, ?_⟩
    · simp [stateWith, suffix]
    · simp [stateWith, suffix, State.caseOf, caseWith, sizeOr]
  have hread : Line.read "capture".toList = .directive .capture "" := by decide +kernel
  simp only [rowsWith, State.run, State.step, read_dropReturn, read_originRow, read_pathRow, hread,
    State.obey, State.directive, hcompare, hpathname, hcapture]
  rfl

/-- The script compiles, whatever the character is. -/
theorem compile_rowsWith (h : Url.isControlOrSpace c = false) :
    compile (joinLines (rowsWith c)) = .ok [caseWith c] := by
  have hc : '\n' ≠ c := by
    rintro rfl
    cases h
  have hrows : ∀ row ∈ rowsWith c, '\n' ∉ row := by
    simp [rowsWith, originWith, toList_pathWith, hc]
  rw [compile_joinLines hrows, run_rowsWith h]
  rfl

end Holding

/-! ### Which characters stand in addresses -/

/-- A control character, of ASCII or not. -/
def IsControl (c : Char) : Prop := c.toNat < 0x20 ∨ (0x7F ≤ c.toNat ∧ c.toNat ≤ 0x9F)

/-- The addresses of compiled scripts. -/
def IsAddress (url : String) : Prop :=
  ∃ text script cases tc, compile text script = .ok cases ∧ tc ∈ cases ∧
    (url = tc.urlA ∨ url = tc.urlB)

/-- A character stands in some address. -/
def StandsInAddress (c : Char) : Prop := ∃ url, IsAddress url ∧ c ∈ url.toList

/-- A character stands in an origin and in the path of a test case of some compiled script. -/
def StandsInOriginAndPath (c : Char) : Prop :=
  ∃ text script cases tc, compile text script = .ok cases ∧ tc ∈ cases ∧
    c ∈ tc.originA.toList ∧ c ∈ tc.pathname.toList

/-- Of the blanks and the control characters, those of ASCII are looked for. -/
theorem isControlOrSpace_eq_false_iff {c : Char} (h : isBlank c = true ∨ IsControl c) :
    Url.isControlOrSpace c = false ↔ 0x80 ≤ c.toNat := by
  simp only [isBlank, inRanges, blankRanges, IsControl, List.any_cons, List.any_nil,
    Bool.or_eq_true, Bool.and_eq_true, decide_eq_true_eq, Bool.false_eq_true, or_false] at h
  simp only [Url.isControlOrSpace, Bool.or_eq_false_iff, decide_eq_false_iff_not,
    beq_eq_false_iff_ne, ne_eq]
  omega

theorem IsAddress.addressText {url : String} (h : IsAddress url) : AddressText url := by
  obtain ⟨text, script, cases, tc, hcompile, htc, rfl | rfl⟩ := h
  · exact (addressText_of_compile hcompile tc htc).1
  · exact (addressText_of_compile hcompile tc htc).2

theorem StandsInAddress.not_isControlOrSpace {c : Char} (h : StandsInAddress c) :
    Url.isControlOrSpace c = false := by
  obtain ⟨url, hurl, hc⟩ := h
  exact hurl.addressText.clean c hc

theorem standsInOriginAndPath {c : Char} (h : Url.isControlOrSpace c = false) :
    StandsInOriginAndPath c :=
  ⟨_, _, _, _, compile_rowsWith h, List.mem_singleton_self _,
    by simp [caseWith, originWith, toList_pathWith], by simp [caseWith, toList_pathWith]⟩

theorem StandsInOriginAndPath.standsInAddress {c : Char} (h : StandsInOriginAndPath c) :
    StandsInAddress c := by
  obtain ⟨text, script, cases, tc, hcompile, htc, horigin, -⟩ := h
  refine ⟨tc.urlA, ⟨text, script, cases, tc, hcompile, htc, .inl rfl⟩, ?_⟩
  rw [TestCase.urlA, String.toList_append]
  exact List.mem_append_left _ horigin

theorem standsInAddress_iff {c : Char} :
    StandsInAddress c ↔ Url.isControlOrSpace c = false :=
  ⟨fun h => h.not_isControlOrSpace, fun h => (standsInOriginAndPath h).standsInAddress⟩

theorem standsInOriginAndPath_iff {c : Char} :
    StandsInOriginAndPath c ↔ Url.isControlOrSpace c = false :=
  ⟨fun h => h.standsInAddress.not_isControlOrSpace, standsInOriginAndPath⟩

theorem isLetter_of_isAlpha {c : Char} (h : c.isAlpha = true) : IsLetter c := by
  unfold Char.isAlpha Char.isUpper Char.isLower at h
  simpa [IsLetter, UInt32.le_iff_toNat_le] using h

/-- A letter is neither a blank nor a control character. -/
theorem not_isAlpha {c : Char} (h : isBlank c = true ∨ IsControl c) : c.isAlpha = false := by
  rw [Bool.eq_false_iff]
  intro halpha
  have hletter := isLetter_of_isAlpha halpha
  obtain hblank | hcontrol := h
  · rw [not_isBlank_of_isLetter hletter] at hblank
    cases hblank
  · unfold IsLetter at hletter
    unfold IsControl at hcontrol
    omega

/-- **Blanks and control characters of addresses.**  For some script a blank or a control character
stands in an address, and even in an origin and in a path at once, exactly if it is not of ASCII.
It never stands first, and a blank never stands last. -/
theorem address_character_iff {c : Char} (hc : isBlank c = true ∨ IsControl c) :
    (StandsInAddress c ↔ 0x80 ≤ c.toNat) ∧ (StandsInOriginAndPath c ↔ 0x80 ≤ c.toNat) ∧
      ∀ url, IsAddress url → url.toList.head? ≠ some c ∧
        (isBlank c = true → url.toList.getLast? ≠ some c) := by
  rw [standsInAddress_iff, standsInOriginAndPath_iff, isControlOrSpace_eq_false_iff hc]
  refine ⟨.rfl, .rfl, fun url hurl => ⟨fun hfirst => ?_, fun hblank hlast => ?_⟩⟩
  · obtain ⟨d, hd, hletter⟩ := hurl.addressText.first
    obtain rfl : d = c := Option.some.inj (hd.symm.trans hfirst)
    rw [not_isAlpha hc] at hletter
    cases hletter
  · obtain ⟨d, hd, hvisible⟩ := hurl.addressText.last
    obtain rfl : d = c := Option.some.inj (hd.symm.trans hlast)
    rw [hblank] at hvisible
    cases hvisible

/-- A script with a no-break space in its path. -/
def blankInside : List Char :=
  "compare http://a http://b\npathname /a\u00a0b\ncapture".toList

def blankInsideCase : TestCase where
  name := "/a\u00a0b"
  pathname := "/a\u00a0b"
  originA := "http://a"
  originB := "http://b"

theorem address_character_iff_blankInside : compile blankInside = .ok [blankInsideCase] ∧
    IsAddress "http://a/a\u00a0b" ∧ isBlank '\u00a0' = true ∧
    (StandsInAddress '\u00a0' ↔ 0x80 ≤ '\u00a0'.toNat) ∧
    "http://a/a\u00a0b".toList.head? ≠ some '\u00a0' ∧
    "http://a/a\u00a0b".toList.getLast? ≠ some '\u00a0' := by
  have hcompile : compile blankInside = .ok [blankInsideCase] := by decide +kernel
  have hblank : isBlank '\u00a0' = true := by decide
  have hurl : IsAddress "http://a/a\u00a0b" :=
    ⟨_, _, _, _, hcompile, List.mem_singleton_self _, .inl (by decide +kernel)⟩
  obtain ⟨hstands, -, hends⟩ := address_character_iff (.inl hblank)
  exact ⟨hcompile, hurl, hblank, hstands, (hends _ hurl).1, (hends _ hurl).2 hblank⟩

theorem blank_stands_in_address : compile blankInside = .ok [blankInsideCase] ∧
    isBlank '\u00a0' = true ∧ '\u00a0' ∈ blankInsideCase.urlA.toList := by
  decide +kernel

end PageDiff.Script
