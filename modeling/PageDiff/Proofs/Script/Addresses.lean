import PageDiff.Proofs.Script.Step
import PageDiff.Proofs.Url.Extension
import PageDiff.Run.Pages

/-!
# The addresses of test cases

A path is checked together with the origins in force when it is read, and a test case has the
origins in force when its picture is asked for.  Main statement (`addresses_accepted_iff`): the
addresses of a compiled test case are accepted again exactly if its path fits both of its origins.
That is so whenever no origins have been given since the path.
-/

namespace PageDiff.Script

open PageDiff.Text

variable {s t : State} {made : Option TestCase} {raw : List Char} {before : List (List Char)}

/-! ### The invariant -/

/-- The origins given since the last path of the block that the lines end in. -/
def comparesSincePath (before : List (List Char)) : List String :=
  arguments .compare (since .pathname (blockOf before))

theorem comparesSincePath_concat (hb : Line.read raw ≠ .blank)
    (hp : argument? .pathname raw = none) :
    comparesSincePath (before ++ [raw]) =
      comparesSincePath before ++ (argument? .compare raw).toList := by
  rw [comparesSincePath, blockOf_concat hb, since_concat_of_none hp, arguments_concat]
  rfl

/-- Both addresses of a path are accepted. -/
def PathChecked (originA originB path : String) : Prop :=
  Url.check (originA ++ path) = .ok () ∧ Url.check (originB ++ path) = .ok ()

/-- A state has accepted its origins, its path can stand behind an origin, and both together are
accepted unless origins have been given since. -/
structure Addressed (before : List (List Char)) (s : State) : Prop where
  origins : s.hasOrigins = true →
    Url.checkOrigin s.originA = .ok () ∧ Url.checkOrigin s.originB = .ok ()
  path : Url.PathOk s.block.pathname
  checked : comparesSincePath before = [] → s.block.pathname ≠ "" →
    PathChecked s.originA s.originB s.block.pathname

theorem addressed_nil : Addressed [] {} :=
  ⟨fun h => by simp [State.hasOrigins] at h, Url.pathOk_empty, fun _ h => absurd rfl h⟩

theorem Addressed.next_origins (ha : Addressed before s)
    (he : State.Effect s (Line.read raw) t made) (h : t.hasOrigins = true) :
    Url.checkOrigin t.originA = .ok () ∧ Url.checkOrigin t.originB = .ok () := by
  cases hc : argument? .compare raw with
  | some args => exact (he.origins_of_some hc).2
  | none =>
    obtain ⟨hA, hB⟩ := he.origins_eq hc
    rw [State.hasOrigins, hA, hB] at h
    rw [hA, hB]
    exact ha.origins h

theorem Addressed.next (ha : Addressed before s) (he : State.Effect s (Line.read raw) t made) :
    Addressed (before ++ [raw]) t := by
  by_cases hb : Line.read raw = .blank
  · refine ⟨ha.next_origins he, ?_, ?_⟩
    · rw [he.block_of_blank hb]
      exact Url.pathOk_empty
    · intro _ hne
      rw [he.block_of_blank hb] at hne
      exact absurd rfl hne
  cases hp : argument? .pathname raw with
  | some args =>
    obtain ⟨ho, hchecked⟩ := he.checks_of_pathname hp
    refine ⟨ha.next_origins he, ?_, fun _ _ => hchecked⟩
    have hc : argument? .compare raw = none := by
      rw [argument?_eq_some] at hp
      simp [argument?, hp]
    have hA := (ha.origins ho).1
    rw [← (he.origins_eq hc).1] at hA
    exact Url.pathOk_of_check hA hchecked.1
  | none =>
    have hpath := he.pathname_eq hb hp
    refine ⟨ha.next_origins he, ?_, ?_⟩
    · rw [hpath]
      exact ha.path
    · intro hnil hne
      -- no origins in this line either, so they are those that were checked
      rw [comparesSincePath_concat hb hp, List.append_eq_nil_iff] at hnil
      have hc : argument? .compare raw = none := by simpa using hnil.2
      obtain ⟨hA, hB⟩ := he.origins_eq hc
      rw [hpath] at hne
      rw [hpath, hA, hB]
      exact ha.checked hnil.1 hne

/-! ### The addresses of a test case -/

/-- Both addresses of a test case are accepted. -/
def Accepted (tc : TestCase) : Prop :=
  Url.check tc.urlA = .ok () ∧ Url.check tc.urlB = .ok ()

def FitsBoth (tc : TestCase) : Prop :=
  Url.Fits tc.originA tc.pathname ∧ Url.Fits tc.originB tc.pathname

/-- Looking at an address again leaves a run alone exactly if it is accepted. -/
theorem acceptUrl_eq_pure_iff {url : String} :
    Run.acceptUrl url = pure () ↔ Url.check url = .ok () := by
  unfold Run.acceptUrl
  cases h : Url.check url with
  | ok u => simp
  | error e =>
    simp only [reduceCtorEq, iff_false]
    intro heq
    have hw := congrFun heq ⟨{}, [], [], .zero, [], [], ""⟩
    cases hw

/-- What the lines in front of a capture say about the addresses of its test case.  They are
accepted, and a run that looks at them again goes on, exactly if the path fits both origins; that
is so if no origins have been given since the path, and if the path itself ends the network
location. -/
structure AddressesOf (before : List (List Char)) (tc : TestCase) : Prop where
  accepted_iff : Accepted tc ↔ FitsBoth tc
  goesOn_iff : (Run.acceptUrl tc.urlA = pure () ∧ Run.acceptUrl tc.urlB = pure ()) ↔ FitsBoth tc
  accepted_of_nil : comparesSincePath before = [] → Accepted tc
  accepted_of_endsNetloc : ∀ c, tc.pathname.toList.head? = some c → Url.endsNetloc c = true →
    Accepted tc

theorem addressesOf_of_capture {args : String} (ha : Addressed before s)
    (he : State.Effect s (.directive .capture args) t made) :
    ∃ tc, made = some tc ∧ AddressesOf before tc := by
  cases he with
  | capture origins path asks fresh =>
    refine ⟨_, rfl, ?_⟩
    obtain ⟨hA, hB⟩ := ha.origins origins
    have hiff : PathChecked s.originA s.originB s.block.pathname ↔
        Url.Fits s.originA s.block.pathname ∧ Url.Fits s.originB s.block.pathname :=
      and_congr (Url.check_append_iff hA ha.path) (Url.check_append_iff hB ha.path)
    refine ⟨hiff, ?_, fun hnil => ha.checked hnil path, fun c hc hend => hiff.mpr ?_⟩
    · rw [acceptUrl_eq_pure_iff, acceptUrl_eq_pure_iff]
      exact hiff
    · exact ⟨Url.fits_of_endsNetloc hA hc hend, Url.fits_of_endsNetloc hB hc hend⟩

theorem addressed_of_run {n : Nat} {raws : List (List Char)} {cases : List TestCase}
    (h : State.run {} n raws = .ok (s, cases)) :
    Addressed raws s ∧ List.Forall₂ (fun c tc => AddressesOf c.1 tc) (captures raws) cases :=
  State.run_captures (P := fun raws s _ => Addressed raws s) addressed_nil
    (fun _ _ _ _ _ _ ha he => ha.next he) (fun _ _ _ _ _ _ ha he => addressesOf_of_capture ha he) h

/-- **What becomes of a checked address.**  The addresses of a compiled test case are accepted
again exactly if its path fits both of its origins, and that is so unless other origins have been
given between the path and the capture. -/
theorem addresses_accepted_iff {text : List Char} {script : Option String} {cases : List TestCase}
    (h : compile text script = .ok cases) :
    List.Forall₂ (fun c tc => AddressesOf c.1 tc) (captures (lines text)) cases := by
  obtain ⟨s, hrun⟩ := compile_eq_ok.mp h
  exact (addressed_of_run hrun).2

/-- A script whose path is a port of the first origins and no port of the second ones. -/
def strayPort : List Char :=
  "compare http://a http://b\npathname :80\ncompare http://c:1 http://d:1\ncapture".toList

def strayPortCase : TestCase := ⟨":80", ":80", "http://c:1", "http://d:1", [], 0, 0, .viewport⟩

theorem compile_strayPort : compile strayPort = .ok [strayPortCase] := by decide +kernel

theorem addresses_accepted_iff_strayPort : compile strayPort = .ok [strayPortCase] ∧
    List.Forall₂ (fun c tc => AddressesOf c.1 tc) (captures (lines strayPort))
      [strayPortCase] :=
  ⟨compile_strayPort, addresses_accepted_iff compile_strayPort⟩

theorem address_refused_strayPort : compile strayPort = .ok [strayPortCase] ∧
    Url.check strayPortCase.urlA = .error (.portText "1:80") ∧ ¬ Accepted strayPortCase := by
  have h : Url.check strayPortCase.urlA = .error (.portText "1:80") := by decide +kernel
  refine ⟨compile_strayPort, h, ?_⟩
  rintro ⟨hA, -⟩
  rw [h] at hA
  cases hA

end PageDiff.Script
