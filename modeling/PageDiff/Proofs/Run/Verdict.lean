import PageDiff.Browser.Rehearsed
import PageDiff.Proofs.Run.Outside
import PageDiff.Proofs.Script.Addresses

/-!
# How a test case ends

Two addresses, two pictures, two images and three files can each fail.  `Ends` says for every
combination which failure is told and what is left outside: nothing is asked of the browser after a
failure, and no file is touched before both pictures have been read.  Main statement
(`comparePages_ends_iff`): a test case ends in this way and in no other.
-/

namespace PageDiff.Run

open PageDiff.Browser PageDiff.Path PageDiff.Script

variable {driver : Driver} {config : Config} {outDir : Path} {tc : TestCase} {o : Outside}

/-! ### Pictures -/

/-- Tries to take a picture of a page.  Without any time nothing is asked of the browser. -/
def tryPicture (driver : Driver) (config : Config) (url : String) (tc : TestCase) :
    Run Interruption Screenshot :=
  if config.timeout.isNonpositive then throw .expired
  else inContext driver config url tc (.ok tc.capture)

theorem takeCasePicture_eq (driver : Driver) (config : Config) (url : String) (tc : TestCase) :
    takeCasePicture driver config url tc =
      (tryPicture driver config url tc).mapError (asCaseFailure config url) := by
  unfold takeCasePicture takePicture tryPicture
  by_cases h : config.timeout.isNonpositive = true
  · rw [if_pos h, if_pos h]
    rfl
  · rw [if_neg h, if_neg h]

theorem quiet_tryPicture (driver : Driver) (config : Config) (url : String) (tc : TestCase) :
    Quiet (tryPicture driver config url tc) := by
  unfold tryPicture
  split
  · exact moves_throw _
  · exact quiet_inContext driver config url tc _

theorem outward_tryPicture (driver : Driver) (config : Config) (url : String) (tc : TestCase) :
    Outward (tryPicture driver config url tc) := by
  unfold tryPicture
  split
  · exact outward_throw _
  · exact outward_inContext driver config url tc _

/-- What comes of a picture, and what is outside then. -/
abbrev pictureAt (driver : Driver) (config : Config) (url : String) (tc : TestCase) (o : Outside) :
    Except Interruption Screenshot × Outside :=
  outcomeAt (tryPicture driver config url tc) o

/-- How the failure of a picture is told.  A time limit that has passed, a fault of the browser and
a value that does not fit are told as a missing picture, and every other fault as it is. -/
inductive CaptureTold (config : Config) (url : String) : Interruption → CaseFailure → Prop
  | expired : CaptureTold config url .expired (.capture ⟨url, timedOut config⟩)
  | timeout (text : String) :
      CaptureTold config url (.fault (.timeout text)) (.capture ⟨url, timedOut config⟩)
  | missing {f : Fault} (known : f.isBrowser = true ∨ f.isValue = true) :
      CaptureTold config url (.fault f) (.capture ⟨url, f⟩)
  | other {f : Fault} (unknown : ¬ (f.isBrowser = true ∨ f.isValue = true))
      (inTime : ∀ text, f ≠ .timeout text) : CaptureTold config url (.fault f) (.fault f)

theorem asCaseFailure_fault (url : String) {f : Fault} (h : ∀ text, f ≠ .timeout text) :
    asCaseFailure config url (.fault f) =
      if f.isBrowser || f.isValue then .capture ⟨url, f⟩ else .fault f := by
  unfold asCaseFailure
  split
  · next heq => cases heq
  · next text heq => exact absurd (Interruption.fault.inj heq) (h text)
  · next heq => rw [Interruption.fault.inj heq]

theorem captureTold_iff {url : String} {i : Interruption} {failure : CaseFailure} :
    CaptureTold config url i failure ↔ asCaseFailure config url i = failure := by
  constructor
  · intro h
    cases h with
    | expired => rfl
    | timeout text => rfl
    | @missing f known =>
      have htime : ∀ text, f ≠ .timeout text := by
        rintro text rfl
        simp [Fault.isBrowser, Fault.isValue] at known
      rw [asCaseFailure_fault url htime, if_pos (by simpa using known)]
    | other unknown inTime =>
      rw [asCaseFailure_fault url inTime, if_neg (by simpa using unknown)]
  · rintro rfl
    cases i with
    | expired => exact .expired
    | fault f =>
      by_cases htime : ∃ text, f = .timeout text
      · obtain ⟨text, rfl⟩ := htime
        exact .timeout text
      · have hne : ∀ text, f ≠ .timeout text := fun text h => htime ⟨text, h⟩
        rw [asCaseFailure_fault url hne]
        by_cases known : f.isBrowser = true ∨ f.isValue = true
        · rw [if_pos (by simpa using known)]
          exact .missing known
        · rw [if_neg (by simpa using known)]
          exact .other known hne

/-! ### Images -/

/-- How an unreadable picture is told: a fault of the system as a missing picture, and every other
fault as it is. -/
inductive DecodeTold (url : String) (f : Fault) : CaseFailure → Prop
  | missing (system : f.isSystem = true) : DecodeTold url f (.capture ⟨url, f⟩)
  | other (foreign : f.isSystem = false) : DecodeTold url f (.fault f)

theorem decodeTold_iff {url : String} {f : Fault} {failure : CaseFailure} :
    DecodeTold url f failure ↔ (if f.isSystem then .capture ⟨url, f⟩ else .fault f) = failure := by
  constructor
  · rintro (system | foreign)
    · rw [if_pos system]
    · rw [if_neg (by simp [foreign])]
  · rintro rfl
    by_cases h : f.isSystem = true
    · rw [if_pos h]
      exact .missing h
    · rw [if_neg h]
      exact .other (by simpa using h)

/-! ### Files -/

/-- What is told of several files that have been written: nothing if all could be, or else the
first that could not. -/
inductive FirstFailure : List (Option ArtifactError) → Option ArtifactError → Prop
  | none {errors : List (Option ArtifactError)} (all : ∀ e ∈ errors, e = none) :
      FirstFailure errors none
  | some {e : ArtifactError} (written : Nat) (later : List (Option ArtifactError)) :
      FirstFailure (List.replicate written none ++ some e :: later) (some e)

theorem firstFailure_iff {errors : List (Option ArtifactError)} {failure : Option ArtifactError} :
    FirstFailure errors failure ↔ errors.findSome? id = failure := by
  constructor
  · intro h
    cases h with
    | none all =>
      rw [List.findSome?_eq_none_iff]
      exact all
    | some written later => simp [List.findSome?_append]
  · intro h
    induction errors with
    | nil => exact h ▸ .none (by simp)
    | cons e errors ih =>
      cases e with
      | some e =>
        rw [List.findSome?_cons] at h
        exact h ▸ .some 0 errors
      | none =>
        rw [List.findSome?_cons] at h
        cases ih h with
        | none all => exact .none (by simpa using all)
        | some written later => exact .some (written + 1) later

/-! ### Steps of a test case -/

theorem yields_acceptUrl {url : String} (h : Url.check url = .ok ()) :
    Yields (acceptUrl url) o (.ok ()) o := by
  unfold acceptUrl
  rw [h]
  exact yields_pure ()

theorem yields_refuseUrl {url : String} {e : Url.Error} (h : Url.check url = .error e) :
    Yields (acceptUrl url) o (.error (.capture ⟨url, .url e⟩)) o := by
  unfold acceptUrl
  rw [h]
  exact yields_throw _

theorem yields_picture {url : String} {r : Except Interruption Screenshot} {o' : Outside}
    (h : pictureAt driver config url tc o = (r, o')) :
    Yields (takeCasePicture driver config url tc) o (r.mapError (asCaseFailure config url)) o' := by
  rw [takeCasePicture_eq]
  exact ((outward_tryPicture driver config url tc).yields_of h).mapError _

theorem yields_missingPicture {url : String} {i : Interruption} {failure : CaseFailure}
    {o' : Outside} (h : pictureAt driver config url tc o = (.error i, o'))
    (told : CaptureTold config url i failure) :
    Yields (takeCasePicture driver config url tc) o (.error failure) o' := by
  rw [← captureTold_iff.mp told]
  exact yields_picture h

theorem yields_decode {url : String} {shot : Screenshot} {image : Image}
    (h : shot.decode = .ok image) : Yields (decodePicture url shot) o (.ok image) o := by
  unfold decodePicture
  rw [h]
  exact yields_pure image

theorem yields_unreadable {url : String} {shot : Screenshot} {f : Fault} {failure : CaseFailure}
    (h : shot.decode = .error f) (told : DecodeTold url f failure) :
    Yields (decodePicture url shot) o (.error failure) o := by
  unfold decodePicture
  rw [h, ← decodeTold_iff.mp told]
  exact yields_throw _

/-- An address that is accepted has a host. -/
theorem hostPart_of_check {url : String} (h : Url.check url = .ok ()) :
    ∃ host, hostPart url = .ok host := by
  obtain ⟨hclean, -, hok⟩ := Url.check_eq_ok.mp h
  have hsplit : Url.split url.toList = .ok (Url.partsOf url.toList) := by
    rw [Url.split_eq_ok, hclean.cleaned_eq]
    exact ⟨hok.brackets, hok.delimiters, rfl⟩
  exact ⟨_, bind_eq_ok.mpr ⟨_, hsplit, rfl⟩⟩

theorem artifacts_of_accepted (h : Accepted tc) (outDir : Path) :
    ∃ paths, ArtifactPaths.ofTest outDir tc.name tc.urlA tc.urlB = .ok paths := by
  obtain ⟨hostA, hA⟩ := hostPart_of_check h.1
  obtain ⟨hostB, hB⟩ := hostPart_of_check h.2
  exact ⟨_, bind_eq_ok.mpr ⟨hostA, hA, bind_eq_ok.mpr ⟨hostB, hB, rfl⟩⟩⟩

/-- What a test case makes of its two pictures. -/
def judge (config : Config) (outDir : Path) (tc : TestCase) (screenA screenB : Screenshot) :
    Run CaseFailure Unit := do
  if screenA = screenB then
    logLine .info s!"{tc.urlA} == {tc.urlB}"
  else
    logLine .info s!"{tc.urlA} != {tc.urlB}"
    let imageA ← decodePicture tc.urlA screenA
    let imageB ← decodePicture tc.urlB screenB
    reportMismatch config tc outDir imageA imageB

/-! ### Endings -/

/-- Both pictures of a test case have been taken, one after the other, and nothing has been done to
the disk. -/
structure Taken (driver : Driver) (config : Config) (tc : TestCase) (o : Outside)
    (screenA screenB : Screenshot) (trace : List Event) : Prop where
  accepted : Accepted tc
  pictures : ∃ between,
    pictureAt driver config tc.urlA tc o = (.ok screenA, ⟨o.disk, between⟩) ∧
    pictureAt driver config tc.urlB tc ⟨o.disk, between⟩ = (.ok screenB, ⟨o.disk, trace⟩)

/-- The ways in which a test case can end, and what it leaves outside. -/
inductive Ends (driver : Driver) (config : Config) (outDir : Path) (tc : TestCase) (o : Outside) :
    Except CaseFailure Unit → Outside → Prop
  /-- The first address is refused before the browser is asked for anything. -/
  | addressA {e : Url.Error} (a : Url.check tc.urlA = .error e) :
      Ends driver config outDir tc o (.error (.capture ⟨tc.urlA, .url e⟩)) o
  | addressB {e : Url.Error} (a : Url.check tc.urlA = .ok ()) (b : Url.check tc.urlB = .error e) :
      Ends driver config outDir tc o (.error (.capture ⟨tc.urlB, .url e⟩)) o
  /-- The first picture fails, and no second one is tried. -/
  | captureA {i : Interruption} {failure : CaseFailure} {trace : List Event}
      (accepted : Accepted tc)
      (a : pictureAt driver config tc.urlA tc o = (.error i, ⟨o.disk, trace⟩))
      (told : CaptureTold config tc.urlA i failure) :
      Ends driver config outDir tc o (.error failure) ⟨o.disk, trace⟩
  | captureB {i : Interruption} {failure : CaseFailure} {screenA : Screenshot}
      {between trace : List Event} (accepted : Accepted tc)
      (a : pictureAt driver config tc.urlA tc o = (.ok screenA, ⟨o.disk, between⟩))
      (b : pictureAt driver config tc.urlB tc ⟨o.disk, between⟩ = (.error i, ⟨o.disk, trace⟩))
      (told : CaptureTold config tc.urlB i failure) :
      Ends driver config outDir tc o (.error failure) ⟨o.disk, trace⟩
  | same {screen : Screenshot} {trace : List Event}
      (taken : Taken driver config tc o screen screen trace) :
      Ends driver config outDir tc o (.ok ()) ⟨o.disk, trace⟩
  | decodeA {screenA screenB : Screenshot} {f : Fault} {failure : CaseFailure}
      {trace : List Event} (taken : Taken driver config tc o screenA screenB trace)
      (differ : screenA ≠ screenB) (a : screenA.decode = .error f)
      (told : DecodeTold tc.urlA f failure) :
      Ends driver config outDir tc o (.error failure) ⟨o.disk, trace⟩
  | decodeB {screenA screenB : Screenshot} {imageA : Image} {f : Fault} {failure : CaseFailure}
      {trace : List Event} (taken : Taken driver config tc o screenA screenB trace)
      (differ : screenA ≠ screenB) (a : screenA.decode = .ok imageA)
      (b : screenB.decode = .error f) (told : DecodeTold tc.urlB f failure) :
      Ends driver config outDir tc o (.error failure) ⟨o.disk, trace⟩
  /-- All artifacts are tried, the rendered difference and both pages, and the mismatch is told
  whatever becomes of them. -/
  | mismatch {screenA screenB : Screenshot} {imageA imageB : Image} {paths : ArtifactPaths}
      {d : Disk} {errors : List (Option ArtifactError)} {failure : Option ArtifactError}
      {trace : List Event} (taken : Taken driver config tc o screenA screenB trace)
      (differ : screenA ≠ screenB) (a : screenA.decode = .ok imageA)
      (b : screenB.decode = .ok imageB)
      (named : ArtifactPaths.ofTest outDir tc.name tc.urlA tc.urlB = .ok paths)
      (written : WriteTask.performAll
        [⟨paths.diff, ((Image.compare imageA imageB (.double config.threshold)).mapError
            Fault.cutoff).map Image.Comparison.image⟩,
          ⟨paths.pageA, .ok imageA⟩, ⟨paths.pageB, .ok imageB⟩] o.disk = (d, errors))
      (first : FirstFailure errors failure) :
      Ends driver config outDir tc o (.error (.mismatch ⟨tc.urlA, tc.urlB, failure⟩)) ⟨d, trace⟩

/-- What is made of the pictures comes after everything else. -/
theorem Taken.yields {screenA screenB : Screenshot} {trace : List Event}
    {r : Except CaseFailure Unit} {o' : Outside}
    (taken : Taken driver config tc o screenA screenB trace)
    (h : Yields (judge config outDir tc screenA screenB) ⟨o.disk, trace⟩ r o') :
    Yields (comparePages driver config outDir tc) o r o' := by
  obtain ⟨between, a, b⟩ := taken.pictures
  refine (yields_logLine .info _).bind ((yields_acceptUrl taken.accepted.1).bind
    ((yields_acceptUrl taken.accepted.2).bind ?_))
  exact (yields_picture a).bind ((yields_picture b).bind h)

theorem yields_judge_of_ne {screenA screenB : Screenshot} (differ : screenA ≠ screenB)
    {r : Except CaseFailure Unit} {o' : Outside}
    (h : Yields (do
      let imageA ← decodePicture tc.urlA screenA
      let imageB ← decodePicture tc.urlB screenB
      reportMismatch config tc outDir imageA imageB) o r o') :
    Yields (judge config outDir tc screenA screenB) o r o' := by
  rw [judge, if_neg differ]
  exact (yields_logLine .info _).bind h

theorem Ends.yields {ended : Except CaseFailure Unit} {o' : Outside}
    (h : Ends driver config outDir tc o ended o') :
    Yields (comparePages driver config outDir tc) o ended o' := by
  cases h with
  | addressA a => exact (yields_logLine .info _).bind (yields_refuseUrl a).bind_of_error
  | addressB a b =>
    exact (yields_logLine .info _).bind
      ((yields_acceptUrl a).bind (yields_refuseUrl b).bind_of_error)
  | captureA accepted a told =>
    exact (yields_logLine .info _).bind ((yields_acceptUrl accepted.1).bind
      ((yields_acceptUrl accepted.2).bind (yields_missingPicture a told).bind_of_error))
  | captureB accepted a b told =>
    exact (yields_logLine .info _).bind ((yields_acceptUrl accepted.1).bind
      ((yields_acceptUrl accepted.2).bind ((yields_picture a).bind
        (yields_missingPicture b told).bind_of_error)))
  | same taken =>
    refine taken.yields ?_
    rw [judge, if_pos rfl]
    exact yields_logLine .info _
  | decodeA taken differ a told =>
    exact taken.yields (yields_judge_of_ne differ (yields_unreadable a told).bind_of_error)
  | decodeB taken differ a b told =>
    exact taken.yields (yields_judge_of_ne differ
      ((yields_decode a).bind (yields_unreadable b told).bind_of_error))
  | mismatch taken differ a b named written first =>
    refine taken.yields (yields_judge_of_ne differ
      ((yields_decode a).bind ((yields_decode b).bind (yields_reportMismatch named ?_))))
    rw [writeArtifacts, writeTasks, written, ← firstFailure_iff.mp first]

/-! ### There is always an ending -/

/-- Taking a picture leaves the disk alone. -/
theorem pictureAt_cases (driver : Driver) (config : Config) (url : String) (tc : TestCase)
    (o : Outside) : ∃ trace,
      (∃ i, pictureAt driver config url tc o = (.error i, ⟨o.disk, trace⟩)) ∨
        ∃ screen, pictureAt driver config url tc o = (.ok screen, ⟨o.disk, trace⟩) := by
  have hdisk := outcomeAt_disk (quiet_tryPicture driver config url tc) (o := o)
  cases h : pictureAt driver config url tc o with
  | mk r o' =>
    obtain ⟨d, trace⟩ := o'
    rw [show outcomeAt (tryPicture driver config url tc) o = _ from h] at hdisk
    obtain rfl : d = o.disk := hdisk
    cases r with
    | error i => exact ⟨trace, .inl ⟨i, rfl⟩⟩
    | ok screen => exact ⟨trace, .inr ⟨screen, rfl⟩⟩

theorem exists_captureTold (config : Config) (url : String) (i : Interruption) :
    ∃ failure, CaptureTold config url i failure := ⟨_, captureTold_iff.mpr rfl⟩

theorem exists_decodeTold (url : String) (f : Fault) : ∃ failure, DecodeTold url f failure :=
  ⟨_, decodeTold_iff.mpr rfl⟩

theorem Taken.exists_ends {screenA screenB : Screenshot} {trace : List Event}
    (taken : Taken driver config tc o screenA screenB trace) (outDir : Path) :
    ∃ ended o', Ends driver config outDir tc o ended o' := by
  by_cases differ : screenA = screenB
  · subst differ
    exact ⟨_, _, .same taken⟩
  · cases a : screenA.decode with
    | error f =>
      obtain ⟨failure, told⟩ := exists_decodeTold tc.urlA f
      exact ⟨_, _, .decodeA taken differ a told⟩
    | ok imageA =>
      cases b : screenB.decode with
      | error f =>
        obtain ⟨failure, told⟩ := exists_decodeTold tc.urlB f
        exact ⟨_, _, .decodeB taken differ a b told⟩
      | ok imageB =>
        obtain ⟨paths, named⟩ := artifacts_of_accepted taken.accepted outDir
        exact ⟨_, _, .mismatch taken differ a b named rfl (firstFailure_iff.mpr rfl)⟩

theorem exists_ends (driver : Driver) (config : Config) (outDir : Path) (tc : TestCase)
    (o : Outside) : ∃ ended o', Ends driver config outDir tc o ended o' := by
  cases a : Url.check tc.urlA with
  | error e => exact ⟨_, _, .addressA a⟩
  | ok u =>
    cases b : Url.check tc.urlB with
    | error e => exact ⟨_, _, .addressB a b⟩
    | ok u =>
      have accepted : Accepted tc := ⟨a, b⟩
      obtain ⟨between, ⟨i, hA⟩ | ⟨screenA, hA⟩⟩ := pictureAt_cases driver config tc.urlA tc o
      · obtain ⟨failure, told⟩ := exists_captureTold config tc.urlA i
        exact ⟨_, _, .captureA accepted hA told⟩
      · obtain ⟨trace, ⟨i, hB⟩ | ⟨screenB, hB⟩⟩ :=
          pictureAt_cases driver config tc.urlB tc ⟨o.disk, between⟩
        · obtain ⟨failure, told⟩ := exists_captureTold config tc.urlB i
          exact ⟨_, _, .captureB accepted hA hB told⟩
        · have taken : Taken driver config tc o screenA screenB trace :=
            ⟨accepted, between, hA, hB⟩
          exact taken.exists_ends outDir

/-- **How a test case ends.**  For every behaviour of the browser and every disk, a test case ends
in one of the ways of `Ends` and leaves outside what that way leaves. -/
theorem comparePages_ends_iff (driver : Driver) (config : Config) (outDir : Path) (tc : TestCase)
    (w : World) (ended : Except CaseFailure Unit) (o : Outside) :
    ((comparePages driver config outDir tc w).1 = ended ∧
        (comparePages driver config outDir tc w).2.outside = o) ↔
      Ends driver config outDir tc w.outside ended o := by
  constructor
  · rintro ⟨rfl, rfl⟩
    obtain ⟨ended, o', h⟩ := exists_ends driver config outDir tc w.outside
    obtain ⟨log, hrun⟩ := h.yields w rfl
    rw [hrun]
    exact h
  · intro h
    obtain ⟨log, hrun⟩ := h.yields w rfl
    rw [hrun]
    exact ⟨rfl, rfl⟩

/-- A browser whose first page is a black pixel and whose others are white ones. -/
def darkFirst : Driver :=
  Rehearsed.driver { scenes := [some { picture := .encoded ⟨.rgb, 1, 1, #[0, 0, 0]⟩ "" }] }

def plainConfig : Config := { outputRoot := .ofString "out" }

def plainCase : TestCase := ⟨"/x", "/x", "http://a", "http://b", [], 0, 0, .viewport⟩

/-- A disk with a directory where the picture of the first page would be written. -/
def blockedDisk : Disk where
  entries := [(["out"], .directory), (["out", "-x.a.png"], .directory)]

/-- The mismatch of `plainCase`, with the one file that could not be written. -/
def blockedMismatch : Mismatch where
  urlA := "http://a/x"
  urlB := "http://b/x"
  artifact := some ⟨"out/-x.a.png", .disk (.refused .isDirectory "out/-x.a.png")⟩

/-- The difference and the second page are written beside it. -/
theorem comparePages_ends_iff_blockedDisk :
    ∃ o, Ends darkFirst plainConfig (.ofString "out") plainCase ⟨blockedDisk, []⟩
        (.error (.mismatch blockedMismatch)) o ∧
      o.disk.find? ["out", "-x.diff.png"] = some (.file (.picture ⟨.rgb, 1, 1, #[255, 0, 0]⟩)) ∧
      o.disk.find? ["out", "-x.a.png"] = some .directory ∧
      o.disk.find? ["out", "-x.b.png"] =
        some (.file (.picture ⟨.rgb, 1, 1, #[255, 255, 255]⟩)) := by
  have htold : (comparePages darkFirst plainConfig (.ofString "out") plainCase
      { disk := blockedDisk }).1 = .error (.mismatch blockedMismatch) := by decide +kernel
  refine ⟨_, (comparePages_ends_iff darkFirst plainConfig (.ofString "out") plainCase
    { disk := blockedDisk } _ _).mp ⟨htold, rfl⟩, ?_⟩
  decide +kernel

end PageDiff.Run
