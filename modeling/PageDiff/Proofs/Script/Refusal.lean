import PageDiff.Proofs.Script.Addresses
import PageDiff.Proofs.Script.Meaning
import PageDiff.Proofs.Script.Naming

/-!
# Which lines are refused

What a line may say where it stands, without a word about the state of the compiler.  `Says` reads
a line as a first field and an argument, `Wrong` lists for every directive what may be wrong with
its argument after the lines in front of it, and `Refused` puts the two together.  Main statement
(`line_refused_iff`): of all lines behind an accepted beginning exactly the `Refused` ones stop the
script, and every other one is accepted.

The link to the compiler is `Standing`, which says what a state holds after the lines so far.
-/

namespace PageDiff.Script

open PageDiff.Text

variable {s t : State} {made : Option TestCase} {raw : List Char} {before : List (List Char)}
  {cases : List TestCase} {args : String}

/-! ### What a line says -/

/-- The word for a directive, in capitals. -/
def Keyword.word : Keyword → String
  | .windowsize => "WINDOWSIZE"
  | .compare => "COMPARE"
  | .test => "TEST"
  | .pathname => "PATHNAME"
  | .click => "CLICK"
  | .wait => "WAIT"
  | .capture => "CAPTURE"

theorem Keyword.ofField?_eq_some {field : List Char} {k : Keyword} :
    ofField? field = some k ↔ capitals field = k.word.toList := by
  constructor
  · intro h
    obtain ⟨l₁, l₂, htable, -⟩ := List.lookup_eq_some_iff.mp h
    have hmem : (capitals field, k) ∈ table := by
      rw [htable]
      simp
    have hwords : ∀ e ∈ table, e.1 = e.2.word.toList := by decide
    exact hwords _ hmem
  · intro h
    rw [ofField?, h]
    cases k <;> decide

/-- A line that is neither blank nor a comment has a first field and an argument. -/
structure Says (raw first : List Char) (args : String) : Prop where
  notBlank : strip raw ≠ []
  notComment : (strip raw).head? ≠ some '#'
  fields : Fields (strip raw) first args.toList

theorem Says.read_eq {first : List Char} (h : Says raw first args) :
    Line.read raw =
      match Keyword.ofField? first with
      | some keyword => .directive keyword args
      | none => .unknown (String.ofList (strip raw)) := by
  have hfirst : first ≠ [] := by
    rintro rfl
    refine h.notBlank (read_eq_blank.mp ?_)
    rw [Line.read, Line.ofStripped, if_neg h.notComment, fields_iff.mp h.fields]
    rfl
  rw [Line.read, Line.ofStripped, if_neg h.notComment, fields_iff.mp h.fields]
  cases hk : Keyword.ofField? first <;> simp only [if_neg hfirst, hk, String.ofList_toList]

theorem exists_says (raw : List Char) (hb : Line.read raw ≠ .blank)
    (hc : Line.read raw ≠ .comment) :
    ∃ first args, Says raw first args := by
  refine ⟨(splitField (strip raw)).1, String.ofList (splitField (strip raw)).2, ?_, ?_, ?_⟩
  · exact fun h => hb (read_eq_blank.mpr h)
  · intro h
    exact hc (by rw [Line.read, Line.ofStripped, if_pos h])
  · rw [String.toList_ofList]
    exact fields_splitField _

theorem read_eq_directive {k : Keyword} : Line.read raw = .directive k args ↔
    ∃ first, Says raw first args ∧ capitals first = k.word.toList := by
  constructor
  · intro h
    obtain ⟨first, args', hs⟩ := exists_says raw (by simp [h]) (by simp [h])
    rw [hs.read_eq] at h
    cases hk : Keyword.ofField? first with
    | none => simp [hk] at h
    | some k' =>
      rw [hk] at h
      cases h
      exact ⟨first, hs, Keyword.ofField?_eq_some.mp hk⟩
  · rintro ⟨first, hs, hk⟩
    rw [hs.read_eq, Keyword.ofField?_eq_some.mpr hk]

theorem read_eq_unknown : (∃ text, Line.read raw = .unknown text) ↔
    ∃ first args, Says raw first args ∧ ∀ k : Keyword, capitals first ≠ k.word.toList := by
  constructor
  · rintro ⟨text, h⟩
    obtain ⟨first, args, hs⟩ := exists_says raw (by simp [h]) (by simp [h])
    refine ⟨first, args, hs, fun k hk => ?_⟩
    rw [hs.read_eq, Keyword.ofField?_eq_some.mpr hk] at h
    cases h
  · rintro ⟨first, args, hs, hno⟩
    refine ⟨String.ofList (strip raw), ?_⟩
    cases hk : Keyword.ofField? first with
    | none => rw [hs.read_eq, hk]
    | some k => exact absurd (Keyword.ofField?_eq_some.mp hk) (hno k)

/-! ### What may be wrong with an argument -/

/-- A run of digits that is not too long. -/
structure Digits (cs : List Char) : Prop where
  given : cs ≠ []
  digits : ∀ c ∈ cs, c.isDigit = true
  short : cs.length ≤ 4300

/-- Two runs of digits with an `x` between them. -/
def SizeText (text : List Char) : Prop :=
  ∃ width height, text = width ++ 'x' :: height ∧ Digits width ∧ Digits height

theorem digits_iff {cs : List Char} :
    Digits cs ↔ isNumeral cs = true ∧ ∃ n, readNumeral cs = .ok n := by
  have hlimit : (∃ n, readNumeral cs = .ok n) ↔ cs.length ≤ 4300 := by
    unfold readNumeral digitLimit
    by_cases h : cs.length > 4300
    · simp only [if_pos h, reduceCtorEq, exists_false, false_iff]
      omega
    · simp only [if_neg h, Except.ok.injEq, exists_eq', true_iff]
      omega
  simp only [hlimit, isNumeral, Bool.and_eq_true, List.all_eq_true]
  constructor
  · rintro ⟨hgiven, hdigits, hshort⟩
    exact ⟨⟨by simpa using hgiven, hdigits⟩, hshort⟩
  · rintro ⟨⟨hgiven, hdigits⟩, hshort⟩
    exact ⟨by simpa using hgiven, hdigits, hshort⟩

theorem sizeText_iff {text : List Char} : SizeText text ↔ ∃ w h, IsSize text w h := by
  constructor
  · rintro ⟨width, height, rfl, hw, hh⟩
    obtain ⟨hwn, w, hw⟩ := digits_iff.mp hw
    obtain ⟨hhn, h, hh⟩ := digits_iff.mp hh
    exact ⟨w, h, width, height, rfl, hwn, hhn, hw, hh⟩
  · rintro ⟨w, h, width, height, rfl, hwn, hhn, hw, hh⟩
    exact ⟨width, height, rfl, digits_iff.mpr ⟨hwn, w, hw⟩, digits_iff.mpr ⟨hhn, h, hh⟩⟩

/-- Two accepted origins with one space between them. -/
def OriginsText (args : String) : Prop :=
  ∃ a b, args = a ++ " " ++ b ∧ Url.checkOrigin a = .ok () ∧ Url.checkOrigin b = .ok ()

theorem not_mem_space_of_checkOrigin {origin : String} (h : Url.checkOrigin origin = .ok ()) :
    ' ' ∉ origin.toList := by
  obtain ⟨hclean, -⟩ := Url.check_eq_ok.mp (Url.checkOrigin_eq_ok.mp h).1
  intro hmem
  exact absurd (hclean ' ' hmem) (by decide)

/-- No part of an origin is a space, so the space between two of them is the only one. -/
theorem originsText_iff : OriginsText args ↔
    ∃ a b, IsPair args a b ∧ Url.checkOrigin a = .ok () ∧ Url.checkOrigin b = .ok () := by
  constructor
  · rintro ⟨a, b, hargs, ha, hb⟩
    exact ⟨a, b, ⟨hargs, not_mem_space_of_checkOrigin ha, not_mem_space_of_checkOrigin hb⟩, ha, hb⟩
  · rintro ⟨a, b, ⟨hargs, -, -⟩, ha, hb⟩
    exact ⟨a, b, hargs, ha, hb⟩

/-- The argument of a capture asks for nothing that can be shown. -/
inductive AsksNothing (args : String) : Prop
  | kind {field rest} (fields : Fields args.toList field rest) (unknown : ∀ kind, ¬ Names field kind)
  | selector {field} (fields : Fields args.toList field []) (named : Names field .element)
  | size {field rest kind shown} (fields : Fields args.toList field rest)
      (named : Names field kind) (page : kind.page? = some shown) (given : rest ≠ [])
      (bad : ¬ SizeText rest)

theorem asksNothing_of_forall (h : ∀ shown size?, ¬ Asks args shown size?) : AsksNothing args := by
  have hf := fields_splitField args.toList
  set field := (splitField args.toList).1
  set rest := (splitField args.toList).2
  by_cases hk : ∃ kind, Names field kind
  · obtain ⟨kind, named⟩ := hk
    by_cases hr : rest = []
    · rw [hr] at hf
      cases kind with
      | viewport => exact absurd (.whole hf named rfl) (h .viewport none)
      | fullPage => exact absurd (.whole hf named rfl) (h .fullPage none)
      | element => exact .selector hf named
    · have hsize {shown : Capture} (page : kind.page? = some shown) : ¬ SizeText rest := by
        intro hs
        obtain ⟨w, k, hsize⟩ := sizeText_iff.mp hs
        exact h _ _ (.sized hf named page hsize)
      cases kind with
      | viewport => exact .size hf named rfl hr (hsize rfl)
      | fullPage => exact .size hf named rfl hr (hsize rfl)
      | element =>
        have given : String.ofList rest ≠ "" := fun he => hr (by simpa using congrArg String.toList he)
        exact absurd (.element (by rwa [String.toList_ofList]) named given)
          (h (.element (String.ofList rest)) none)
  · exact .kind hf (not_exists.mp hk)

theorem AsksNothing.not_asks (h : AsksNothing args) {shown : Capture}
    {size? : Option (Nat × Nat)} (ha : Asks args shown size?) : False := by
  cases h with
  | kind fields unknown =>
    cases ha with
    | whole fields' named' => exact unknown _ ((fields.unique fields').1 ▸ named')
    | sized fields' named' => exact unknown _ ((fields.unique fields').1 ▸ named')
    | element fields' named' => exact unknown _ ((fields.unique fields').1 ▸ named')
  | selector fields named =>
    cases ha with
    | whole fields' named' page' =>
      obtain ⟨rfl, -⟩ := fields.unique fields'
      obtain rfl := named.unique named'
      cases page'
    | sized fields' named' page' =>
      obtain ⟨rfl, -⟩ := fields.unique fields'
      obtain rfl := named.unique named'
      cases page'
    | element fields' _ given' =>
      exact given' (String.toList_inj.mp (fields.unique fields').2.symm)
  | size fields named page given bad =>
    cases ha with
    | whole fields' => exact given (fields.unique fields').2
    | sized fields' _ _ size' =>
      obtain ⟨-, rfl⟩ := fields.unique fields'
      exact bad (sizeText_iff.mpr ⟨_, _, size'⟩)
    | element fields' named' =>
      obtain ⟨rfl, -⟩ := fields.unique fields'
      obtain rfl := named.unique named'
      cases page

/-! ### What may be wrong where a line stands -/

/-- The origins in force after lines that give some. -/
def Origins (before : List (List Char)) (a b : String) : Prop :=
  ∃ pair, lastArgument? .compare before = some pair ∧ IsPair pair a b

/-- The path in force after lines, empty if there is none. -/
def pathAfter (before : List (List Char)) : String :=
  (lastArgument? .pathname (blockOf before)).getD ""

/-- The name in force once a path is given: that of the block, or else the path. -/
def nameOnPath (before : List (List Char)) (path : String) : String :=
  if nameAfter (blockOf before) = "" then path else nameAfter (blockOf before)

/-- What may be wrong with the argument of a directive after lines that have made `cases`. -/
inductive Wrong (before : List (List Char)) (cases : List TestCase) (args : String) : Keyword → Prop
  | size (bad : ¬ SizeText args.toList) : Wrong before cases args .windowsize
  | origins (bad : ¬ OriginsText args) : Wrong before cases args .compare
  | testTaken (taken : args ∈ cases.map (·.name)) : Wrong before cases args .test
  | pathEarly (early : arguments .compare before = []) : Wrong before cases args .pathname
  | address {a b} (origins : Origins before a b) (bad : ¬ PathChecked a b args) :
      Wrong before cases args .pathname
  | pathTaken (taken : nameOnPath before args ∈ cases.map (·.name)) :
      Wrong before cases args .pathname
  | clickNothing (nothing : args = "") : Wrong before cases args .click
  | waitNothing (nothing : args = "") : Wrong before cases args .wait
  | captureEarly (early : arguments .compare before = []) : Wrong before cases args .capture
  | captureNoPath (noPath : pathAfter before = "") : Wrong before cases args .capture
  | captureNothing (nothing : AsksNothing args) : Wrong before cases args .capture
  | captureTaken {shown size?} (asks : Asks args shown size?)
      (taken : nameAfter (blockOf before) ++ suffix shown size? ∈ cases.map (·.name)) :
      Wrong before cases args .capture

/-- A line is refused if it says something, and that is no directive or one with a wrong argument. -/
def Refused (before : List (List Char)) (cases : List TestCase) (raw : List Char) : Prop :=
  ∃ first args, Says raw first args ∧
    ((∀ k : Keyword, capitals first ≠ k.word.toList) ∨
      ∃ k : Keyword, capitals first = k.word.toList ∧ Wrong before cases args k)

theorem refused_iff : Refused before cases raw ↔ (∃ text, Line.read raw = .unknown text) ∨
    ∃ k args, Line.read raw = .directive k args ∧ Wrong before cases args k := by
  simp only [read_eq_unknown, read_eq_directive]
  constructor
  · rintro ⟨first, args, hs, hno | ⟨k, hk, hw⟩⟩
    · exact .inl ⟨first, args, hs, hno⟩
    · exact .inr ⟨k, args, ⟨first, hs, hk⟩, hw⟩
  · rintro (⟨first, args, hs, hno⟩ | ⟨k, args, ⟨first, hs, hk⟩, hw⟩)
    · exact ⟨first, args, hs, .inl hno⟩
    · exact ⟨first, args, hs, .inr ⟨k, hk, hw⟩⟩

/-! ### What a state holds -/

/-- A state holds what the lines so far leave in force, the names of the test cases that they have
made, and origins that have been accepted if any have been given. -/
structure Standing (before : List (List Char)) (s : State) (cases : List TestCase) : Prop where
  reflects : Reflects before s
  named : Named before s cases
  served : arguments .compare before ≠ [] →
    Url.checkOrigin s.originA = .ok () ∧ Url.checkOrigin s.originB = .ok ()

theorem standing_nil : Standing [] {} [] := ⟨reflects_nil, named_nil, fun h => absurd rfl h⟩

theorem Standing.next (hs : Standing before s cases) (he : State.Effect s (Line.read raw) t made) :
    Standing (before ++ [raw]) t (cases ++ made.toList) := by
  refine ⟨hs.reflects.next he, hs.named.next he, ?_⟩
  cases hc : argument? .compare raw with
  | some args => exact fun _ => (he.origins_of_some hc).2
  | none =>
    obtain ⟨hA, hB⟩ := he.origins_eq hc
    rw [arguments_concat, hc, hA, hB]
    simpa using hs.served

theorem standing_of_run {n : Nat} (h : State.run {} n before = .ok (s, cases)) :
    Standing before s cases :=
  State.run_induction standing_nil (fun _ _ _ _ _ _ hs he => hs.next he) h

namespace Standing

theorem origins_iff (hs : Standing before s cases) (hc : arguments .compare before ≠ [])
    {a b : String} : Origins before a b ↔ a = s.originA ∧ b = s.originB := by
  have ho := hs.reflects.origins
  unfold OriginsAfter at ho
  unfold Origins
  cases hl : lastArgument? .compare before with
  | none => exact absurd (List.getLast?_eq_none_iff.mp hl) hc
  | some pair =>
    rw [hl] at ho
    constructor
    · rintro ⟨pair', hp, hpair⟩
      cases hp
      exact hpair.unique ho
    · rintro ⟨rfl, rfl⟩
      exact ⟨pair, rfl, ho⟩

theorem hasOrigins_iff (hs : Standing before s cases) :
    s.hasOrigins = true ↔ arguments .compare before ≠ [] := by
  constructor
  · intro h hnil
    have ho := hs.reflects.origins
    rw [OriginsAfter, lastArgument?, hnil] at ho
    obtain ⟨hA, hB⟩ : s.originA = "" ∧ s.originB = "" := ho
    simp [State.hasOrigins, hA] at h
  · intro h
    obtain ⟨hA, hB⟩ := hs.served h
    have hempty : Url.checkOrigin "" ≠ .ok () := by decide
    have hne {origin : String} (ho : Url.checkOrigin origin = .ok ()) : origin ≠ "" := by
      rintro rfl
      exact hempty ho
    simp [State.hasOrigins, hne hA, hne hB]

theorem nameWith_eq (hs : Standing before s cases) (path : String) :
    s.nameWith path = nameOnPath before path := by
  rw [State.nameWith, nameOnPath, hs.named.testName]

/-! ### What a directive accepts -/

theorem wrong_pathname_iff (hs : Standing before s cases) :
    Wrong before cases args .pathname ↔ ¬ ∃ t made, s.pathname args = .ok (t, made) := by
  constructor
  · rintro hw ⟨t, made, h⟩
    obtain ⟨ho, hA, hB, hfresh, -⟩ := State.pathname_eq_ok.mp h
    have hc := hs.hasOrigins_iff.mp ho
    cases hw with
    | pathEarly early => exact hc early
    | address origins bad =>
      obtain ⟨rfl, rfl⟩ := (hs.origins_iff hc).mp origins
      exact bad ⟨hA, hB⟩
    | pathTaken taken =>
      rw [hs.nameWith_eq, hs.named.names] at hfresh
      exact hfresh taken
  · intro hno
    by_cases hc : arguments .compare before = []
    · exact .pathEarly hc
    by_cases hurl : PathChecked s.originA s.originB args
    · refine .pathTaken ?_
      by_contra hfresh
      rw [← hs.nameWith_eq, ← hs.named.names] at hfresh
      exact hno ⟨_, _, State.pathname_eq_ok.mpr
        ⟨hs.hasOrigins_iff.mpr hc, hurl.1, hurl.2, hfresh, rfl, rfl⟩⟩
    · exact .address ((hs.origins_iff hc).mpr ⟨rfl, rfl⟩) hurl

theorem wrong_capture_iff (hs : Standing before s cases) :
    Wrong before cases args .capture ↔ ¬ ∃ t made, s.capture args = .ok (t, made) := by
  have hpath : s.block.pathname = pathAfter before := hs.reflects.pathname
  constructor
  · rintro hw ⟨t, made, h⟩
    obtain ⟨ho, hp, shown, size?, hasks, hfresh, -⟩ := State.capture_eq_ok.mp h
    cases hw with
    | captureEarly early => exact hs.hasOrigins_iff.mp ho early
    | captureNoPath noPath => exact hp (hpath.trans noPath)
    | captureNothing nothing => exact nothing.not_asks hasks
    | captureTaken asks taken =>
      obtain ⟨rfl, rfl⟩ := asks.unique hasks
      rw [hs.named.testName, hs.named.names] at hfresh
      exact hfresh taken
  · intro hno
    by_cases hc : arguments .compare before = []
    · exact .captureEarly hc
    by_cases hp : pathAfter before = ""
    · exact .captureNoPath hp
    by_cases hasks : ∃ shown size?, Asks args shown size?
    · obtain ⟨shown, size?, hasks⟩ := hasks
      refine .captureTaken hasks ?_
      by_contra hfresh
      rw [← hs.named.testName, ← hs.named.names] at hfresh
      exact hno ⟨_, _, State.capture_eq_ok.mpr
        ⟨hs.hasOrigins_iff.mpr hc, hpath ▸ hp, shown, size?, hasks, hfresh, rfl, rfl⟩⟩
    · exact .captureNothing (asksNothing_of_forall fun shown size? h => hasks ⟨shown, size?, h⟩)

/-- An argument is wrong exactly if the directive does not accept it. -/
theorem wrong_iff (hs : Standing before s cases) {k : Keyword} :
    Wrong before cases args k ↔ ¬ ∃ t made, s.directive k args = .ok (t, made) := by
  cases k with
  | windowsize =>
    have haccept : (∃ t made, s.windowsize args = .ok (t, made)) ↔ SizeText args.toList := by
      simp [State.windowsize_eq_ok, sizeText_iff]
    exact ⟨fun (.size bad) h => bad (haccept.mp h), fun h => .size (mt haccept.mpr h)⟩
  | compare =>
    have haccept : (∃ t made, s.compare args = .ok (t, made)) ↔ OriginsText args := by
      simp [State.compare_eq_ok, originsText_iff]
    exact ⟨fun (.origins bad) h => bad (haccept.mp h), fun h => .origins (mt haccept.mpr h)⟩
  | test =>
    have haccept : (∃ t made, s.test args = .ok (t, made)) ↔ args ∉ cases.map (·.name) := by
      simp [State.test_eq_ok, ← hs.named.names]
    exact ⟨fun (.testTaken taken) h => haccept.mp h taken,
      fun h => .testTaken (not_not.mp (mt haccept.mpr h))⟩
  | pathname => exact hs.wrong_pathname_iff
  | click =>
    have haccept : (∃ t made, s.action "click" .click args = .ok (t, made)) ↔ args ≠ "" := by
      simp [State.action_eq_ok]
    exact ⟨fun (.clickNothing nothing) h => haccept.mp h nothing,
      fun h => .clickNothing (not_not.mp (mt haccept.mpr h))⟩
  | wait =>
    have haccept : (∃ t made, s.action "wait" .wait args = .ok (t, made)) ↔ args ≠ "" := by
      simp [State.action_eq_ok]
    exact ⟨fun (.waitNothing nothing) h => haccept.mp h nothing,
      fun h => .waitNothing (not_not.mp (mt haccept.mpr h))⟩
  | capture => exact hs.wrong_capture_iff

/-- A line is refused exactly if the compiler does not accept it. -/
theorem refused_iff_obey (hs : Standing before s cases) :
    Refused before cases raw ↔ ¬ ∃ t made, s.obey (Line.read raw) = .ok (t, made) := by
  rw [refused_iff]
  cases hread : Line.read raw with
  | blank => simp [State.obey, State.quiet]
  | comment => simp [State.obey, State.quiet]
  | unknown text => simp [State.obey]
  | directive k args => simpa [State.obey] using hs.wrong_iff

end Standing

/-! ### Which lines are refused -/

theorem compile_eq_error_iff {text : List Char} {script : Option String} {n : Nat}
    {problem : Problem} : compile text script = .error ⟨problem, some (n : Int), script⟩ ↔
      State.run {} 1 (lines text) = .error (n, problem) := by
  rw [compile_eq_error]
  constructor
  · rintro ⟨m, problem', hrun, heq⟩
    obtain ⟨rfl, hline, -⟩ := CompileError.mk.inj heq
    obtain rfl : n = m := Int.ofNat.inj (Option.some.inj hline)
    exact hrun
  · intro hrun
    exact ⟨n, problem, hrun, rfl⟩

/-- **Which lines are refused.**  Behind lines that are accepted, a script is refused on the next
line exactly if that line is `Refused`; otherwise the line is accepted. -/
theorem line_refused_iff {text : List Char} {script : Option String}
    {before after : List (List Char)} {raw : List Char} {s : State} {cases : List TestCase}
    (htext : lines text = before ++ raw :: after)
    (hbefore : State.run {} 1 before = .ok (s, cases)) :
    ((∃ problem, compile text script = .error ⟨problem, some (before.length + 1), script⟩) ↔
      Refused before cases raw) ∧
    ((∃ t, ∃ made : Option TestCase,
        State.run {} 1 (before ++ [raw]) = .ok (t, cases ++ made.toList)) ↔
      ¬ Refused before cases raw) := by
  have hrefused : Refused before cases raw ↔ ¬ ∃ t made, s.obey (Line.read raw) = .ok (t, made) :=
    (standing_of_run hbefore).refused_iff_obey
  have hline : (before.length : Int) + 1 = ((1 + before.length : Nat) : Int) := by omega
  simp only [hline, compile_eq_error_iff, State.run_eq_error, hrefused, not_not, htext]
  refine ⟨⟨?_, ?_⟩, ?_, ?_⟩
  · rintro ⟨problem, before', raw', after', mid, made', hsplit, hlen, hrun, hobey⟩
    -- the two cuts of the script are at the same line
    obtain ⟨rfl, hcons⟩ := List.append_inj hsplit (by omega)
    obtain ⟨rfl, -⟩ := List.cons.inj hcons
    rw [hbefore] at hrun
    cases hrun
    simp [hobey]
  · intro hno
    cases hobey : s.obey (Line.read raw) with
    | ok r => exact absurd ⟨r.1, r.2, hobey⟩ hno
    | error problem => exact ⟨problem, before, raw, after, s, cases, rfl, rfl, hbefore, hobey⟩
  · rintro ⟨t, made, hrun⟩
    obtain ⟨mid, earlier, made', hrun', hobey, -⟩ := State.run_concat_eq_ok.mp hrun
    rw [hbefore] at hrun'
    cases hrun'
    exact ⟨t, made', hobey⟩
  · rintro ⟨t, made, hobey⟩
    exact ⟨t, made, State.run_concat_eq_ok.mpr ⟨s, cases, made, hbefore, hobey, rfl⟩⟩

/-- A script with two blocks, of which the first takes the name that the capture of the second
would have. -/
def takenName : List Char :=
  ("compare http://a http://b\ntest m 1x1\npathname /x\ncapture\n\n"
    ++ "test m\npathname /y\ncapture viewport 1x1").toList

/-- The lines in front of the last one. -/
def takenNameFront : List (List Char) := (lines takenName).dropLast

def takenNameCase : TestCase := ⟨"m 1x1", "/x", "http://a", "http://b", [], 0, 0, .viewport⟩

def takenNameState : State :=
  { originA := "http://a", originB := "http://b", block := ⟨"m", "/y", []⟩, names := ["m 1x1"] }

theorem line_refused_iff_takenName :
    lines takenName = takenNameFront ++ ["capture viewport 1x1".toList] ∧
    State.run {} 1 takenNameFront = .ok (takenNameState, [takenNameCase]) ∧
    compile takenName = .error ⟨.duplicateTest "m 1x1", some (takenNameFront.length + 1), none⟩ ∧
    Refused takenNameFront [takenNameCase] "capture viewport 1x1".toList := by
  have htext : lines takenName = takenNameFront ++ ["capture viewport 1x1".toList] := by
    decide +kernel
  have hfront : State.run {} 1 takenNameFront = .ok (takenNameState, [takenNameCase]) := by
    decide +kernel
  have hcompile : compile takenName =
      .error ⟨.duplicateTest "m 1x1", some (takenNameFront.length + 1), none⟩ := by
    decide +kernel
  exact ⟨htext, hfront, hcompile, (line_refused_iff htext hfront).1.mp ⟨_, hcompile⟩⟩

end PageDiff.Script
