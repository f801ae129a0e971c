import PageDiff.Proofs.Script.Meaning
import PageDiff.Proofs.Script.Naming

/-!
# What a block learns from the blocks before it

Two scripts that end in the same block, each behind a blank line, run side by side.  `Beside` says
that the two states differ in the names that were taken before the block at most.  A line asks about
those names one question, whether the one name that it takes is among them (`course`), so that the
two runs part only at a line that takes a name of an earlier test case (`run_beside`).  Main
statement (`blocks_independent`): behind two beginnings with the same window size and origins in
force, a block makes the same test cases, unless it is refused for such a name.
-/

namespace PageDiff.Script

open PageDiff.Text

variable {s s' t t' : State} {line : Line} {raw : List Char} {before : List (List Char)}

/-! ### Names -/

namespace State

/-- A state in which other names are taken. -/
def withNames (s : State) (names : List String) : State := { s with names }

section withNames

variable (s : State) (names : List String)

@[simp] theorem withNames_window : (s.withNames names).window = s.window := rfl

@[simp] theorem withNames_originA : (s.withNames names).originA = s.originA := rfl

@[simp] theorem withNames_originB : (s.withNames names).originB = s.originB := rfl

@[simp] theorem withNames_block : (s.withNames names).block = s.block := rfl

@[simp] theorem withNames_names : (s.withNames names).names = names := rfl

@[simp] theorem hasOrigins_withNames : (s.withNames names).hasOrigins = s.hasOrigins := rfl

end withNames

/-- A line is refused with `problem` when the name that it takes is taken already. -/
inductive Takes (s : State) (line : Line) (name : String) : Problem → Prop
  | test : Takes s line name (.duplicateTest name)
  | path {path} (reads : line = .directive .pathname path) (named : name = s.nameWith path) :
      Takes s line name (.duplicatePathname path)

/-- What a line does in a state, whichever names are taken: it is refused for another reason, or it
takes no name, or it takes one name and is refused just if that is taken. -/
inductive Course (s : State) (line : Line) : Prop
  | refused (problem : Problem) (all : ∀ names, (s.withNames names).obey line = .error problem)
  | free (t : State) (all : ∀ names, (s.withNames names).obey line = .ok (t.withNames names, none))
  | taking (t : State) (made : Option TestCase) (name : String) (problem : Problem)
      (takes : Takes s line name problem)
      (all : ∀ names, (s.withNames names).obey line =
        if name ∈ names then .error problem
        else .ok (t.withNames (names ++ made.toList.map (·.name)), made))

theorem course_windowsize (s : State) (args : String) :
    Course s (.directive .windowsize args) := by
  cases hr : readSize args.toList with
  | error e =>
    refine .refused (.size e) fun names => ?_
    simp [obey, directive, windowsize, hr]
  | ok size =>
    refine .free { s with window := (size.1, size.2) } fun names => ?_
    simp [obey, directive, windowsize, hr, quiet, withNames]

theorem course_compare (s : State) (args : String) : Course s (.directive .compare args) := by
  by_cases hp : ∃ a b, args.toList.splitOn ' ' = [a, b]
  · obtain ⟨a, b, hsplit⟩ := hp
    cases hA : Url.checkOrigin (String.ofList a) with
    | error e =>
      refine .refused (.origin (String.ofList a) e) fun names => ?_
      simp [obey, directive, compare, hsplit, hA]
    | ok _ =>
      cases hB : Url.checkOrigin (String.ofList b) with
      | error e =>
        refine .refused (.origin (String.ofList b) e) fun names => ?_
        simp [obey, directive, compare, hsplit, hA, hB]
      | ok _ =>
        refine .free { s with originA := String.ofList a, originB := String.ofList b }
          fun names => ?_
        simp [obey, directive, compare, hsplit, hA, hB, quiet, withNames]
  · refine .refused (.originCount args) fun names => ?_
    simp only [obey, directive, compare]
    split
    · next a b hsplit => exact absurd ⟨a, b, hsplit⟩ hp
    · rfl

theorem course_test (s : State) (args : String) : Course s (.directive .test args) := by
  refine .taking { s with block := { s.block with testName := args } } none args _ .test
    fun names => ?_
  rw [Option.toList_none, List.map_nil, List.append_nil]
  rfl

theorem course_pathname (s : State) (args : String) : Course s (.directive .pathname args) := by
  by_cases ho : s.hasOrigins
  · cases hA : Url.check (s.originA ++ args) with
    | error e =>
      refine .refused (.url (s.originA ++ args) e) fun names => ?_
      simp [obey, directive, pathname, ho, hA]
    | ok _ =>
      cases hB : Url.check (s.originB ++ args) with
      | error e =>
        refine .refused (.url (s.originB ++ args) e) fun names => ?_
        simp [obey, directive, pathname, ho, hA, hB]
      | ok _ =>
        refine .taking
          { s with block := { s.block with pathname := args, testName := s.nameWith args } } none
          (s.nameWith args) _ (.path rfl rfl) fun names => ?_
        rw [Option.toList_none, List.map_nil, List.append_nil]
        simp only [obey, directive, pathname, hasOrigins_withNames, withNames_originA,
          withNames_originB, ho, hA, hB]
        rfl
  · refine .refused (.noCompare "pathname") fun names => ?_
    simp [obey, directive, pathname, ho]

theorem course_action {directive : String} {act : String → Action} {k : Keyword}
    (hk : ∀ s : State, s.directive k = s.action directive act) (s : State) (args : String) :
    Course s (.directive k args) := by
  by_cases h : args = ""
  · refine .refused (.noSelector directive) fun names => ?_
    rw [obey, hk, action, if_pos h]
  · refine .free { s with block := { s.block with actions := s.block.actions ++ [act args] } }
      fun names => ?_
    rw [obey, hk, action, if_neg h]
    rfl

/-- A capture looks for its name at the very end. -/
theorem course_emit (name : String) (size : Int × Int) (shown : Capture)
    (h : ∀ names, (s.withNames names).obey line = (s.withNames names).emit name size shown) :
    Course s line := by
  refine .taking s (some (s.caseOf name size shown)) name _ .test fun names => ?_
  rw [h]
  rfl

/-- A capture of the page as such, with or without a size of its own. -/
theorem course_page {args : String} {field rest : List Char} {kind : CaptureKind} {shown : Capture}
    (ho : s.hasOrigins = true) (hp : s.block.pathname ≠ "")
    (hf : splitField args.toList = (field, rest)) (hk : CaptureKind.ofField? field = some kind)
    (page : kind.page? = some shown) : Course s (.directive .capture args) := by
  by_cases hr : rest = []
  · refine course_emit s.block.testName s.window shown fun names => ?_
    obtain ⟨rfl, rfl⟩ | ⟨rfl, rfl⟩ := page_cases page <;>
      simp [obey, directive, capture, ho, hp, hf, hk, hr]
  · cases hs : readSize rest with
    | error e =>
      refine .refused (.size e) fun names => ?_
      obtain ⟨rfl, rfl⟩ | ⟨rfl, rfl⟩ := page_cases page <;>
        simp [obey, directive, capture, ho, hp, hf, hk, hr, hs]
    | ok size =>
      refine course_emit (sizedName s.block.testName size.1 size.2) (size.1, size.2) shown
        fun names => ?_
      obtain ⟨rfl, rfl⟩ | ⟨rfl, rfl⟩ := page_cases page <;>
        simp [obey, directive, capture, ho, hp, hf, hk, hr, hs]

theorem course_capture (s : State) (args : String) : Course s (.directive .capture args) := by
  by_cases ho : s.hasOrigins
  · by_cases hp : s.block.pathname = ""
    · refine .refused .noPathname fun names => ?_
      simp [obey, directive, capture, ho, hp]
    cases hf : splitField args.toList with
    | mk field rest =>
      cases hk : CaptureKind.ofField? field with
      | none =>
        refine .refused (.captureKind (String.ofList field)) fun names => ?_
        simp [obey, directive, capture, ho, hp, hf, hk]
      | some kind =>
        cases kind with
        | viewport => exact course_page ho hp hf hk rfl
        | fullPage => exact course_page ho hp hf hk rfl
        | element =>
          by_cases hr : rest = []
          · refine .refused (.noSelector "capture element") fun names => ?_
            simp [obey, directive, capture, ho, hp, hf, hk, hr]
          · refine course_emit (elementName s.block.testName (String.ofList rest)) s.window
              (.element (String.ofList rest)) fun names => ?_
            simp [obey, directive, capture, ho, hp, hf, hk, hr]
  · refine .refused (.noCompare "capture") fun names => ?_
    simp [obey, directive, capture, ho]

/-- A line asks at most one question about the names that are taken. -/
theorem course (s : State) (line : Line) : Course s line := by
  cases line with
  | blank => exact .free s.forgetBlock fun _ => rfl
  | comment => exact .free s fun _ => rfl
  | unknown text => exact .refused (.unknownDirective text) fun _ => rfl
  | directive k args =>
    cases k with
    | windowsize => exact course_windowsize s args
    | compare => exact course_compare s args
    | test => exact course_test s args
    | pathname => exact course_pathname s args
    | click => exact course_action (fun _ => rfl) s args
    | wait => exact course_action (fun _ => rfl) s args
    | capture => exact course_capture s args

end State

/-! ### Two states side by side -/

/-- Two states that differ at most in the names taken before a block: `old` before the one and
`old'` before the other. -/
def Beside (old old' : List String) (s s' : State) : Prop :=
  ∃ new, s.names = old ++ new ∧ s' = s.withNames (old' ++ new)

/-- How two runs can part at a line: it is refused for the same reason in both, or in one of them
for a name that was taken before the block. -/
inductive Parts (old old' : List String) (s s' : State) (line : Line) : Prop
  | both {problem} (left : s.obey line = .error problem) (right : s'.obey line = .error problem)
  | left {name problem} (taken : name ∈ old) (takes : s.Takes line name problem)
      (left : s.obey line = .error problem)
  | right {name problem} (taken : name ∈ old') (takes : s'.Takes line name problem)
      (right : s'.obey line = .error problem)

theorem State.Takes.withNames {name : String} {problem : Problem} (h : s.Takes line name problem)
    (names : List String) : (s.withNames names).Takes line name problem := by
  cases h with
  | test => exact .test
  | path reads named => exact .path reads named

/-- Two states side by side stay so, and make the same test case, unless they part. -/
theorem Beside.obey {old old' : List String} (hb : Beside old old' s s') (line : Line) :
    (∃ t t' made, s.obey line = .ok (t, made) ∧ s'.obey line = .ok (t', made) ∧
      Beside old old' t t') ∨ Parts old old' s s' line := by
  obtain ⟨new, hnames, rfl⟩ := hb
  have hs : s.obey line = (s.withNames (old ++ new)).obey line := by rw [← hnames]; rfl
  cases s.course line with
  | refused problem all => exact .inr (.both (hs.trans (all _)) (all _))
  | free t all => exact .inl ⟨_, _, _, hs.trans (all _), all _, new, rfl, rfl⟩
  | taking t made name problem takes all =>
    rw [all] at hs
    have hs' := all (old' ++ new)
    by_cases hnew : name ∈ new
    · rw [if_pos (List.mem_append_right _ hnew)] at hs hs'
      exact .inr (.both hs hs')
    by_cases hold : name ∈ old
    · rw [if_pos (List.mem_append_left _ hold)] at hs
      exact .inr (.left hold takes hs)
    by_cases hold' : name ∈ old'
    · rw [if_pos (List.mem_append_left _ hold')] at hs'
      exact .inr (.right hold' (takes.withNames _) hs')
    · rw [if_neg (by simp [hnew, hold])] at hs
      rw [if_neg (by simp [hnew, hold'])] at hs'
      refine .inl ⟨_, _, _, hs, hs', new ++ made.toList.map (·.name), ?_, ?_⟩
      · rw [State.withNames_names, List.append_assoc]
      · rw [List.append_assoc]
        rfl

/-- Two runs accept the same lines, and make the same test cases, up to a line where they part. -/
theorem run_beside {old old' : List String} (hb : Beside old old' s s') (n n' : Nat)
    (raws : List (List Char)) :
    ∃ pre rest t t' cases, raws = pre ++ rest ∧ s.run n pre = .ok (t, cases) ∧
      s'.run n' pre = .ok (t', cases) ∧
      ∀ raw ∈ rest.head?, Parts old old' t t' (Line.read raw) := by
  induction raws generalizing s s' n n' with
  | nil => exact ⟨[], [], s, s', [], rfl, rfl, rfl, by simp⟩
  | cons raw raws ih =>
    rcases hb.obey (Line.read raw) with ⟨t, t', made, hs, hs', hnext⟩ | hparts
    · obtain ⟨pre, rest, u, u', cases, rfl, hrun, hrun', hrest⟩ := ih hnext (n + 1) (n' + 1)
      refine ⟨raw :: pre, rest, u, u', made.toList ++ cases, rfl, ?_, ?_, hrest⟩
      · simp [State.run, State.step, hs, hrun]
      · simp [State.run, State.step, hs', hrun']
    · exact ⟨[], raw :: raws, s, s', [], rfl, rfl, rfl, by simpa using hparts⟩

/-! ### Beginnings and blocks -/

/-- A beginning, a line `gap` and a block. -/
def withBlock (front gap block : List Char) : List Char := front ++ '\n' :: (gap ++ '\n' :: block)

/-- Nothing but blank characters, and all of them on one line. -/
structure BlankLine (gap : List Char) : Prop where
  blank : strip gap = []
  oneLine : '\n' ∉ gap

theorem lines_withBlock {front gap : List Char} (hgap : BlankLine gap) (block : List Char) :
    lines (withBlock front gap block) = (lines front ++ [gap]) ++ lines block := by
  rw [lines, withBlock, List.splitOn_append_cons_self,
    List.splitOn_append_cons_self_of_not_mem hgap.oneLine, List.append_assoc]
  rfl

/-- The same window size is in force after both, and so are the same origins. -/
structure SameInForce (before before' : List (List Char)) : Prop where
  window : ∃ window, WindowAfter before window ∧ WindowAfter before' window
  origins : ∃ originA originB, OriginsAfter before originA originB ∧
    OriginsAfter before' originA originB

/-- The same is in force where the last lines that give a size, or origins, say the same. -/
theorem sameInForce_of_lastArgument? {text : List Char} {script : Option String}
    {cases : List TestCase} (h : compile text script = .ok cases)
    (hw : lastArgument? .windowsize before = lastArgument? .windowsize (lines text))
    (ho : lastArgument? .compare before = lastArgument? .compare (lines text)) :
    SameInForce (lines text) before := by
  obtain ⟨s, hrun⟩ := compile_eq_ok.mp h
  have hr := (reflects_of_run hrun).1
  refine ⟨⟨s.window, hr.window, ?_⟩, s.originA, s.originB, hr.origins, ?_⟩
  · rw [WindowAfter, hw]
    exact hr.window
  · rw [OriginsAfter, ho]
    exact hr.origins

theorem OriginsAfter.unique {a b a' b' : String} (h : OriginsAfter before a b)
    (h' : OriginsAfter before a' b') : a = a' ∧ b = b' := by
  unfold OriginsAfter at h h'
  cases hl : lastArgument? .compare before with
  | none =>
    rw [hl] at h h'
    exact ⟨h.1.trans h'.1.symm, h.2.trans h'.2.symm⟩
  | some args =>
    rw [hl] at h h'
    exact h.unique h'

theorem blockOf_append_blank {gap : List Char} (hgap : strip gap = [])
    (front pre : List (List Char)) : blockOf ((front ++ [gap]) ++ pre) = blockOf pre := by
  have hblank : Line.read gap = .blank := read_eq_blank.mpr hgap
  induction pre using List.reverseRecOn with
  | nil => rw [List.append_nil, blockOf_concat_of_blank hblank, blockOf_nil]
  | append_singleton pre raw ih =>
    rw [← List.append_assoc]
    by_cases hb : Line.read raw = .blank
    · rw [blockOf_concat_of_blank hb, blockOf_concat_of_blank hb]
    · rw [blockOf_concat hb, blockOf_concat hb, ih]

/-- The state in which a block begins, behind a beginning that makes the test cases `made`. -/
structure Opened (front gap : List Char) (made : List TestCase) (s : State) : Prop where
  blankLine : BlankLine gap
  run : State.run {} 1 (lines front ++ [gap]) = .ok (s, made)
  window : WindowAfter (lines front) s.window
  origins : OriginsAfter (lines front) s.originA s.originB
  block : s.block = {}
  names : s.names = made.map (·.name)

theorem exists_opened {front gap : List Char} {script : Option String} {made : List TestCase}
    (h : compile front script = .ok made) (hgap : BlankLine gap) : ∃ s, Opened front gap made s := by
  obtain ⟨s, hrun⟩ := compile_eq_ok.mp h
  have hr := (reflects_of_run hrun).1
  refine ⟨s.forgetBlock, hgap, ?_, hr.window, hr.origins, rfl, (named_of_run hrun).1.names⟩
  refine State.run_concat_eq_ok.mpr ⟨s, made, none, hrun, ?_, by simp⟩
  rw [read_eq_blank.mpr hgap.blank]
  rfl

namespace Opened

variable {front gap front' gap' block : List Char} {made made' cases : List TestCase}
  {script : Option String} {pre post : List (List Char)} {n : Nat}

/-- Two blocks begin side by side if the same is in force. -/
theorem beside (h : Opened front gap made s) (h' : Opened front' gap' made' s')
    (hsame : SameInForce (lines front) (lines front')) :
    Beside (made.map (·.name)) (made'.map (·.name)) s s' := by
  obtain ⟨window, hw, hw'⟩ := hsame.window
  obtain ⟨a, b, ho, ho'⟩ := hsame.origins
  obtain ⟨hA, hB⟩ := h.origins.unique ho
  obtain ⟨hA', hB'⟩ := h'.origins.unique ho'
  have hwindow := (h.window.unique hw).trans (h'.window.unique hw').symm
  refine ⟨[], by rw [h.names, List.append_nil], ?_⟩
  rw [List.append_nil, ← h'.names]
  obtain ⟨window, originA, originB, block, names⟩ := s
  obtain ⟨window', originA', originB', block', names'⟩ := s'
  have hblock := h.block.trans h'.block.symm
  simp only at hwindow hblock hA hB hA' hB'
  simp only [State.withNames, hwindow, hblock, hA, hA', hB, hB']

theorem run_lines (h : Opened front gap made s) (pre : List (List Char)) :
    State.run {} 1 ((lines front ++ [gap]) ++ pre) =
      match s.run ((lines front).length + 2) pre with
      | .error e => .error e
      | .ok (t, cases) => .ok (t, made ++ cases) := by
  have hn : 1 + (lines front ++ [gap]).length = (lines front).length + 2 := by
    rw [List.length_append, List.length_singleton]
    omega
  cases hr : s.run ((lines front).length + 2) pre <;>
    simp only [State.run_append, h.run, hn, hr]

theorem compile_withBlock (h : Opened front gap made s) :
    compile (withBlock front gap block) script =
      match s.run ((lines front).length + 2) (lines block) with
      | .error (n, problem) => .error { problem, line := some n, script }
      | .ok (_, cases) => .ok (made ++ cases) := by
  rw [compile, lines_withBlock h.blankLine, h.run_lines]
  cases s.run ((lines front).length + 2) (lines block) <;> rfl

end Opened

/-- A problem with the line of a block that stands behind the lines `pre`. -/
def errorInBlock (front : List Char) (pre : List (List Char)) (problem : Problem)
    (script : Option String) : CompileError :=
  { problem, line := some (((lines front).length + 2 + pre.length : Nat) : Int), script }

/-- The line `raw` of a block, behind the lines `pre`, takes the name of one of the test cases. -/
def TakenFrom (cases : List TestCase) (pre : List (List Char)) (raw : List Char)
    (problem : Problem) : Prop :=
  ∃ tc ∈ cases, problem = .duplicateTest tc.name ∨
    ∃ path, problem = .duplicatePathname path ∧ argument? .pathname raw = some path ∧
      nameAfter (blockOf (pre ++ [raw])) = tc.name

namespace Opened

variable {front gap front' gap' block : List Char} {made made' cases : List TestCase}
  {script : Option String} {pre post : List (List Char)} {problem : Problem}

theorem compile_eq_error (h : Opened front gap made s) (hblock : lines block = pre ++ raw :: post)
    (hrun : s.run ((lines front).length + 2) pre = .ok (t, cases))
    (hobey : t.obey (Line.read raw) = .error problem) :
    compile (withBlock front gap block) script = .error (errorInBlock front pre problem script) := by
  have hfails : s.run ((lines front).length + 2) (lines block) =
      .error ((lines front).length + 2 + pre.length, problem) :=
    State.run_eq_error.mpr ⟨pre, raw, post, t, cases, hblock, rfl, hrun, hobey⟩
  rw [h.compile_withBlock, hfails]
  rfl

/-- The block that a line stands in is all that its name depends on. -/
theorem testName_eq (h : Opened front gap made s)
    (hrun : s.run ((lines front).length + 2) pre = .ok (t, cases)) :
    t.block.testName = nameAfter (blockOf pre) := by
  have hwhole : State.run {} 1 ((lines front ++ [gap]) ++ pre) = .ok (t, made ++ cases) := by
    rw [h.run_lines, hrun]
  rw [(named_of_run hwhole).1.testName, blockOf_append_blank h.blankLine.blank]

theorem takenFrom (h : Opened front gap made s)
    (hrun : s.run ((lines front).length + 2) pre = .ok (t, cases)) {name : String}
    (taken : name ∈ made.map (·.name)) (takes : t.Takes (Line.read raw) name problem) :
    TakenFrom made pre raw problem := by
  obtain ⟨tc, hmem, rfl⟩ := List.mem_map.mp taken
  cases takes with
  | test => exact ⟨tc, hmem, .inl rfl⟩
  | @path path reads named =>
    have harg : argument? .pathname raw = some path := argument?_eq_some.mpr reads
    refine ⟨tc, hmem, .inr ⟨path, rfl, harg, ?_⟩⟩
    rw [blockOf_concat (by simp [reads]), nameAfter_concat_pathname harg, ← h.testName_eq hrun]
    exact named.symm

/-- Two blocks that begin side by side make the same test cases, or they part at a line. -/
theorem compile_cases (h : Opened front gap made s) (h' : Opened front' gap' made' s')
    (hsame : SameInForce (lines front) (lines front')) (block : List Char)
    (script : Option String) :
    (∃ emitted, compile (withBlock front gap block) script = .ok (made ++ emitted) ∧
      compile (withBlock front' gap' block) script = .ok (made' ++ emitted)) ∨
    ∃ pre raw post problem, lines block = pre ++ raw :: post ∧
      ((compile (withBlock front gap block) script =
            .error (errorInBlock front pre problem script) ∧
          compile (withBlock front' gap' block) script =
            .error (errorInBlock front' pre problem script)) ∨
        (compile (withBlock front gap block) script =
            .error (errorInBlock front pre problem script) ∧ TakenFrom made pre raw problem) ∨
        (compile (withBlock front' gap' block) script =
            .error (errorInBlock front' pre problem script) ∧
          TakenFrom made' pre raw problem)) := by
  obtain ⟨pre, rest, t, t', cases, hblock, hrun, hrun', hrest⟩ := run_beside (h.beside h' hsame)
    ((lines front).length + 2) ((lines front').length + 2) (lines block)
  cases rest with
  | nil =>
    rw [List.append_nil] at hblock
    refine .inl ⟨cases, ?_, ?_⟩
    · rw [h.compile_withBlock, hblock, hrun]
    · rw [h'.compile_withBlock, hblock, hrun']
  | cons raw post =>
    refine .inr ⟨pre, raw, post, ?_⟩
    cases hrest raw rfl with
    | @both problem left right =>
      exact ⟨problem, hblock, .inl ⟨h.compile_eq_error hblock hrun left,
        h'.compile_eq_error hblock hrun' right⟩⟩
    | @left name problem taken takes left =>
      exact ⟨problem, hblock, .inr (.inl ⟨h.compile_eq_error hblock hrun left,
        h.takenFrom hrun taken takes⟩)⟩
    | @right name problem taken takes right =>
      exact ⟨problem, hblock, .inr (.inr ⟨h'.compile_eq_error hblock hrun' right,
        h'.takenFrom hrun' taken takes⟩)⟩

end Opened

/-- **What a block learns from the blocks before it.**  Behind two beginnings with the same window
size and origins in force, a block that compiles makes the same test cases; where it compiles
behind one of them only, it is refused behind the other for a name of a test case made there; and
where it compiles behind neither, it is refused on the same line for the same reason, unless one of
the refusals is for such a name. -/
theorem blocks_independent {front gap front' gap' block : List Char} {script : Option String}
    {made made' : List TestCase} (hfront : compile front script = .ok made)
    (hfront' : compile front' script = .ok made')
    (hsame : SameInForce (lines front) (lines front')) (hgap : BlankLine gap)
    (hgap' : BlankLine gap') :
    (∀ all all', compile (withBlock front gap block) script = .ok all →
      compile (withBlock front' gap' block) script = .ok all' →
      ∃ emitted, all = made ++ emitted ∧ all' = made' ++ emitted) ∧
    (∀ all e, compile (withBlock front gap block) script = .ok all →
      compile (withBlock front' gap' block) script = .error e →
      ∃ pre raw post problem, lines block = pre ++ raw :: post ∧
        e = errorInBlock front' pre problem script ∧ TakenFrom made' pre raw problem) ∧
    (∀ e e', compile (withBlock front gap block) script = .error e →
      compile (withBlock front' gap' block) script = .error e' →
      ∃ pre raw post problem, lines block = pre ++ raw :: post ∧
        ((e = errorInBlock front pre problem script ∧
            e' = errorInBlock front' pre problem script) ∨
          (e = errorInBlock front pre problem script ∧ TakenFrom made pre raw problem) ∨
          (e' = errorInBlock front' pre problem script ∧ TakenFrom made' pre raw problem))) := by
  obtain ⟨s, hs⟩ := exists_opened hfront hgap
  obtain ⟨s', hs'⟩ := exists_opened hfront' hgap'
  have hcases := hs.compile_cases hs' hsame block script
  refine ⟨?_, ?_, ?_⟩
  · intro all all' h h'
    simpa [h, h'] using hcases
  · intro all e h h'
    simpa [h, h'] using hcases
  · intro e e' h h'
    simpa [h, h'] using hcases

/-- A beginning with a click, and one with a name, a wait and a size of its own.  In the end the same
is in force. -/
def clickFront : List Char :=
  "compare http://a http://b\nwindowsize 8x6\npathname /x\nclick #m\ncapture".toList

def waitFront : List Char :=
  ("windowsize 8x6\ncompare http://c http://d\ntest m\npathname /y\nwait #w\ncapture viewport 2x3\n"
    ++ "compare http://a http://b").toList

def clickCase : TestCase := ⟨"/x", "/x", "http://a", "http://b", [.click "#m"], 8, 6, .viewport⟩

def waitCase : TestCase := ⟨"m 2x3", "/y", "http://c", "http://d", [.wait "#w"], 2, 3, .viewport⟩

/-- A block without a name, and one with the name that the second beginning takes. -/
def plainBlock : List Char := "pathname /z\ncapture".toList

def takenBlock : List Char := "pathname /z\ntest m 2x3\ncapture".toList

def plainCase : TestCase := ⟨"/z", "/z", "http://a", "http://b", [], 8, 6, .viewport⟩

theorem blocks_independent_clickWait :
    compile clickFront = .ok [clickCase] ∧ compile waitFront = .ok [waitCase] ∧
    SameInForce (lines clickFront) (lines waitFront) ∧ BlankLine [] ∧ BlankLine [' '] ∧
    compile (withBlock clickFront [] plainBlock) = .ok [clickCase, plainCase] ∧
    compile (withBlock waitFront [' '] plainBlock) = .ok [waitCase, plainCase] ∧
    (∃ emitted, [clickCase, plainCase] = [clickCase] ++ emitted ∧
      [waitCase, plainCase] = [waitCase] ++ emitted) ∧
    compile (withBlock clickFront [] takenBlock) =
      .ok [clickCase, { plainCase with name := "m 2x3" }] ∧
    compile (withBlock waitFront [' '] takenBlock) =
      .error ⟨.duplicateTest "m 2x3", some 10, none⟩ ∧
    ∃ pre raw post problem, lines takenBlock = pre ++ raw :: post ∧
      ⟨.duplicateTest "m 2x3", some 10, none⟩ = errorInBlock waitFront pre problem none ∧
      TakenFrom [waitCase] pre raw problem := by
  have hclick : compile clickFront = .ok [clickCase] := by decide +kernel
  have hwait : compile waitFront = .ok [waitCase] := by decide +kernel
  have hsame : SameInForce (lines clickFront) (lines waitFront) :=
    sameInForce_of_lastArgument? hclick (by decide +kernel) (by decide +kernel)
  have hempty : BlankLine [] := ⟨rfl, by simp⟩
  have hspace : BlankLine [' '] := ⟨by decide, by decide⟩
  have hplain : compile (withBlock clickFront [] plainBlock) = .ok [clickCase, plainCase] := by
    decide +kernel
  have hplain' : compile (withBlock waitFront [' '] plainBlock) = .ok [waitCase, plainCase] := by
    decide +kernel
  have htaken : compile (withBlock clickFront [] takenBlock) =
      .ok [clickCase, { plainCase with name := "m 2x3" }] := by
    decide +kernel
  have htaken' : compile (withBlock waitFront [' '] takenBlock) =
      .error ⟨.duplicateTest "m 2x3", some 10, none⟩ := by
    decide +kernel
  exact ⟨hclick, hwait, hsame, hempty, hspace, hplain, hplain',
    (blocks_independent hclick hwait hsame hempty hspace).1 _ _ hplain hplain', htaken, htaken',
    (blocks_independent hclick hwait hsame hempty hspace).2.1 _ _ htaken htaken'⟩

end PageDiff.Script
