import PageDiff.Proofs.Command.ExitCode
import PageDiff.Proofs.Disk.Written
import PageDiff.Proofs.Schema.Fields
import PageDiff.Proofs.Text.Encoding
import PageDiff.Proofs.Text.Returns

/-!
# The report of a run is read back

The report of everything is a document with a member for each field of a result, and with a record
for each script and each test case, in order (`IsRunRecord`).  A result is determined by the members
of its record (`checkRunResult_of_record`), so that whoever reads the file gets the whole result and
no other (`document_read_back`).

What can be read back are doubles of the format and integers without too many digits
(`RunResult.Readable`).  Results that are taken from documents have no others
(`readable_of_checkRunResult`), nor have those of runs, but for the number of test cases
(`readable_of_runMatching`).
-/

namespace PageDiff.Run

open PageDiff.Browser PageDiff.Command PageDiff.Json PageDiff.Number PageDiff.Schema PageDiff.Script
  PageDiff.Text

variable {m : Members} {v : Value} {room : Nat} {c : CaseResult} {s : ScriptResult} {r : RunResult}

/-! ### Numbers that are read back -/

/-- Whether the numbers of a result are read back. -/
structure RunResult.Readable (r : RunResult) : Prop where
  total : (Numeric.int r.total).Readable
  passed : (Numeric.int r.passed).Readable
  failed : (Numeric.int r.failed).Readable
  errors : (Numeric.int r.errors).Readable
  duration : r.duration.InFormat
  cases : ∀ c ∈ r.cases, c.duration.InFormat

theorem readable_ofString? (text : Option String) : (Value.ofString? text).Readable room := by
  cases text with
  | none => trivial
  | some text => trivial

theorem CaseResult.readable_toValue (hc : c.duration.InFormat) (hroom : 0 < room) :
    c.toValue.Readable room :=
  ⟨hroom, trivial, trivial, trivial, trivial, readable_ofString? _, hc, trivial⟩

theorem ScriptResult.readable_toValue (hs : ∀ c ∈ s.cases, c.duration.InFormat)
    (hroom : 2 < room) : s.toValue.Readable room := by
  have hcases : ReadableItems (room - 1 - 1) (s.cases.map CaseResult.toValue) := by
    rw [readableItems_iff]
    intro v hv
    obtain ⟨c, hc, rfl⟩ := List.mem_map.mp hv
    exact c.readable_toValue (hs c hc) (by omega)
  exact ⟨by omega, trivial, trivial, ⟨by omega, hcases⟩, trivial⟩

theorem RunResult.Readable.toValue (hr : r.Readable) : r.toValue.Readable depthLimit := by
  have hscripts : ReadableItems (depthLimit - 1 - 1) (r.scripts.map ScriptResult.toValue) := by
    rw [readableItems_iff]
    intro v hv
    obtain ⟨s, hs, rfl⟩ := List.mem_map.mp hv
    refine s.readable_toValue (fun c hc => hr.cases c ?_) (by decide)
    exact List.mem_flatMap.mpr ⟨s, hs, hc⟩
  exact ⟨by decide, trivial, trivial, trivial, hr.total, hr.passed, hr.failed, hr.errors,
    hr.duration, ⟨by decide, hscripts⟩, trivial⟩

/-! ### Records -/

/-- An object whose members name something. -/
def IsObject {α : Type} (names : Members → α → Prop) (v : Value) (a : α) : Prop :=
  ∃ m, v = .object m ∧ names m a

/-- Members that name the result of a test case.  A reason that is absent is there as a null. -/
structure IsCaseResultRecord (m : Members) (c : CaseResult) : Prop where
  testName : member? m "test_name" = some (.string c.testName)
  urlA : member? m "url_a" = some (.string c.urlA)
  urlB : member? m "url_b" = some (.string c.urlB)
  result : member? m "result" = some (.string c.result)
  failureReason : member? m "failure_reason" = some (.ofString? c.failureReason)
  duration : member? m "duration_seconds" = some (.double c.duration)

/-- Members that name the result of a script, and those of its test cases in order. -/
structure IsScriptRecord (m : Members) (s : ScriptResult) : Prop where
  script : member? m "script" = some (.string s.script)
  outputDir : member? m "output_dir" = some (.string s.outputDir)
  cases : ∃ vs, member? m "case_results" = some (.array vs) ∧
    List.Forall₂ (IsObject IsCaseResultRecord) vs s.cases

/-- Members that name the result of a run, and those of its scripts in order. -/
structure IsRunRecord (m : Members) (r : RunResult) : Prop where
  pattern : member? m "pattern" = some (.string r.pattern)
  startedAt : member? m "started_at" = some (.string r.startedAt)
  completedAt : member? m "completed_at" = some (.string r.completedAt)
  total : member? m "total_tests" = some (.int r.total)
  passed : member? m "passed" = some (.int r.passed)
  failed : member? m "failed" = some (.int r.failed)
  errors : member? m "errors" = some (.int r.errors)
  duration : member? m "duration_seconds" = some (.double r.duration)
  scripts : ∃ vs, member? m "script_results" = some (.array vs) ∧
    List.Forall₂ (IsObject IsScriptRecord) vs r.scripts

theorem isCaseResultRecord_toValue (c : CaseResult) : IsObject IsCaseResultRecord c.toValue c :=
  ⟨_, rfl, rfl, rfl, rfl, rfl, rfl, rfl⟩

theorem isScriptRecord_toValue (s : ScriptResult) : IsObject IsScriptRecord s.toValue s := by
  refine ⟨_, rfl, rfl, rfl, _, rfl, ?_⟩
  rw [List.forall₂_map_left_iff, List.forall₂_same]
  exact fun c _ => isCaseResultRecord_toValue c

theorem isRunRecord_toValue (r : RunResult) : IsObject IsRunRecord r.toValue r := by
  refine ⟨_, rfl, rfl, rfl, rfl, rfl, rfl, rfl, rfl, rfl, _, rfl, ?_⟩
  rw [List.forall₂_map_left_iff, List.forall₂_same]
  exact fun s _ => isScriptRecord_toValue s

/-! ### Results are taken back from their records -/

theorem checkOptionalString_ofString? (text : Option String) :
    checkOptionalString (.ofString? text) = .ok text := by
  cases text with
  | none => rfl
  | some text => rfl

/-- Records in a list are taken one by one, if each of them is. -/
theorem checkList_of_records {α : Type} {names : Members → α → Prop} {model : String}
    {check : Members → Checked α} {complaint : Complaint} {vs : List Value} {as : List α}
    (h : ∀ {m a}, names m a → check m = .ok a) (hvs : List.Forall₂ (IsObject names) vs as) :
    checkList complaint (checkModel model check) (.array vs) = .ok as := by
  rw [checkList_eq_ok]
  refine hvs.imp ?_
  rintro _ a ⟨m, rfl, hm⟩
  exact h hm

theorem checkCaseResult_of_record (h : IsCaseResultRecord m c) : checkCaseResult m = .ok c := by
  rw [checkCaseResult, required_string h.testName, required_string h.urlA, required_string h.urlB,
    required_string h.result,
    optional_of_member? h.failureReason (checkOptionalString_ofString? c.failureReason),
    optional_double h.duration]
  rfl

theorem checkScriptResult_of_record (h : IsScriptRecord m s) : checkScriptResult m = .ok s := by
  obtain ⟨vs, hvs, hcases⟩ := h.cases
  have hlist : checkList .notList (checkModel "CaseResult" checkCaseResult) (.array vs) =
      .ok s.cases := checkList_of_records checkCaseResult_of_record hcases
  rw [checkScriptResult, required_string h.script, required_string h.outputDir,
    optional_of_member? hvs hlist]
  rfl

/-- Members that name a result are taken as that result, whatever else there is. -/
theorem checkRunResult_of_record (h : IsRunRecord m r) : checkRunResult m = .ok r := by
  obtain ⟨vs, hvs, hscripts⟩ := h.scripts
  have hlist : checkList .notList (checkModel "ScriptResult" checkScriptResult) (.array vs) =
      .ok r.scripts := checkList_of_records checkScriptResult_of_record hscripts
  have hcompleted : optional m "completed_at" "" checkString = .ok r.completedAt :=
    optional_of_member? h.completedAt rfl
  rw [checkRunResult, required_string h.pattern, required_string h.startedAt, hcompleted,
    optional_integer h.total, optional_integer h.passed, optional_integer h.failed,
    optional_integer h.errors, optional_double h.duration, optional_of_member? hvs hlist]
  rfl

/-! ### Results that are taken from documents -/

/-- The double of an optional field is one of the format if its default is. -/
theorem inFormat_of_optional {key : String} {default x : Double} (hdefault : default.InFormat)
    (hm : ReadableMembers room m) (h : optional m key default checkDouble = .ok x) :
    x.InFormat := by
  obtain rfl | ⟨v, hmem, hv⟩ := optional_eq_ok h
  · exact hdefault
  · exact inFormat_of_checkDouble (isGenuine_of_readable (readableMembers_iff.mp hm _ hmem)) hv

/-- An optional count is zero or an integer that is short enough. -/
theorem readable_of_optional {key : String} {n : ℤ} (hm : ReadableMembers room m)
    (h : optional m key 0 checkInteger = .ok n) : (Numeric.int n).Readable := by
  obtain rfl | ⟨v, hmem, hv⟩ := optional_eq_ok h
  · exact (by decide : (Nat.toDigits 10 0).length ≤ digitLimit)
  · exact readable_of_checkInteger (readableMembers_iff.mp hm _ hmem) hv

/-- What holds of everything that is taken from a readable object holds of a list of such. -/
theorem forall_of_optional {α : Type} {P : α → Prop} {key model : String}
    {check : Members → Checked α} {complaint : Complaint} {as : List α}
    (hcheck : ∀ {room m a}, ReadableMembers room m → check m = .ok a → P a)
    (hm : ReadableMembers room m)
    (h : optional m key [] (checkList complaint (checkModel model check)) = .ok as) :
    ∀ a ∈ as, P a := by
  obtain rfl | ⟨v, hmem, hv⟩ := optional_eq_ok h
  · simp
  · refine forall_of_checkList ?_ (readableMembers_iff.mp hm _ hmem) hv
    intro room v a hread ha
    cases v with
    | object m => exact hcheck hread.2 ha
    | _ => cases ha

theorem inFormat_of_checkCaseResult (hm : ReadableMembers room m)
    (h : checkCaseResult m = .ok c) : c.duration.InFormat := by
  simp only [checkCaseResult, Checked.seq_eq_ok, Checked.map_eq_ok] at h
  obtain ⟨_, _, ⟨_, _, ⟨_, _, ⟨_, _, ⟨_, _, ⟨_, -, rfl⟩, -, rfl⟩, -, rfl⟩, -, rfl⟩, -, rfl⟩,
    hduration, rfl⟩ := h
  exact inFormat_of_optional (Double.inFormat_zero false) hm hduration

theorem inFormat_of_checkScriptResult (hm : ReadableMembers room m)
    (h : checkScriptResult m = .ok s) : ∀ c ∈ s.cases, c.duration.InFormat := by
  simp only [checkScriptResult, Checked.seq_eq_ok, Checked.map_eq_ok] at h
  obtain ⟨_, _, ⟨_, _, ⟨_, -, rfl⟩, -, rfl⟩, hcases, rfl⟩ := h
  exact forall_of_optional inFormat_of_checkCaseResult hm hcases

/-- **Results that are taken from documents can be read back.** -/
theorem readable_of_checkRunResult (hm : ReadableMembers room m) (h : checkRunResult m = .ok r) :
    r.Readable := by
  simp only [checkRunResult, Checked.seq_eq_ok, Checked.map_eq_ok] at h
  obtain ⟨_, _, ⟨_, _, ⟨_, _, ⟨_, _, ⟨_, _, ⟨_, _, ⟨_, _, ⟨_, _, ⟨_, -, rfl⟩, -, rfl⟩, -, rfl⟩,
    htotal, rfl⟩, hpassed, rfl⟩, hfailed, rfl⟩, herrors, rfl⟩, hduration, rfl⟩, hscripts, rfl⟩ := h
  have hcases := forall_of_optional inFormat_of_checkScriptResult hm hscripts
  refine ⟨readable_of_optional hm htotal, readable_of_optional hm hpassed,
    readable_of_optional hm hfailed, readable_of_optional hm herrors,
    inFormat_of_optional (Double.inFormat_zero false) hm hduration, ?_⟩
  intro c hc
  obtain ⟨s, hs, hc⟩ := List.mem_flatMap.mp hc
  exact hcases s hs c hc

/-! ### Results of runs -/

variable {env : Environment} {config : Config} {w u : World}

/-- The time between two readings of the clock is a double of the format. -/
theorem inFormat_elapsed (start stop : Double) : (elapsed start stop).InFormat := by
  unfold elapsed
  cases stop.sub start with
  | nan => trivial
  | infinity negative => trivial
  | finite negative m e => exact Double.inFormat_ofQuotient _ _ (by norm_num)

theorem inFormat_of_runScript {reporter : Reporter} {script : Compiled}
    (h : runScript env config reporter script w = (.ok s, u)) :
    ∀ c ∈ s.cases, c.duration.InFormat := by
  obtain ⟨path, cases⟩ := script
  obtain ⟨prepared, launched, results, ran, -, -, hresults, -, rfl⟩ := runScript_eq_ok h
  intro c hc
  obtain ⟨tc, -, before, after, hcase⟩ := mapM_apply_eq_ok hresults c hc
  obtain ⟨told, done, -, hrecord, -⟩ := reportedCase_eq_ok hcase
  obtain ⟨start, -, -, -, -, -, stop, -, -, -, -, rfl⟩ := recordCase_eq_ok hrecord
  exact inFormat_elapsed start stop

/-- A count of test cases is no longer than their number. -/
theorem readable_count {cs : List CaseResult} (hsize : cs.length < 10 ^ digitLimit)
    (p : CaseResult → Bool) : (Numeric.int (cs.countP p)).Readable := by
  have hcount : cs.countP p < 10 ^ digitLimit := List.countP_le_length.trans_lt hsize
  exact (Nat.length_toDigits_le_iff (by norm_num) (by decide)).mpr hcount

/-- **Results of runs can be read back**, if the number of test cases can be. -/
theorem readable_of_runMatching {reporter : Reporter} {pattern : String} {requireTests : Bool}
    (h : runMatching env config pattern reporter requireTests w = (.ok r, u))
    (hsize : r.cases.length < 10 ^ digitLimit) : r.Readable := by
  rw [runMatching_eq] at h
  obtain ⟨scripts, compiled, -, h⟩ := bind_apply_eq_ok h
  obtain ⟨start, -, started, results, ran, -, stop, -, -, hresults, -, rfl⟩ := runCompiled_eq_ok h
  refine ⟨?_, readable_count hsize _, readable_count hsize _, readable_count hsize _,
    inFormat_elapsed start stop, ?_⟩
  · exact (Nat.length_toDigits_le_iff (by norm_num) (by decide)).mpr hsize
  · intro c hc
    obtain ⟨s, hs, hc⟩ := List.mem_flatMap.mp hc
    obtain ⟨script, -, _, _, hscript⟩ := mapM_apply_eq_ok hresults s hs
    exact inFormat_of_runScript hscript c hc

/-! ### The file -/

/-- A file whose text spells a document. -/
def HoldsDocument (d : Disk) (p : Path) (v : Value) : Prop :=
  ∃ content text, d.read p = .ok content ∧ Utf8.decode content.data = .ok text ∧
    parse (unixNewlines text) = .ok v

/-- A value is the record of one result at most. -/
theorem isRunRecord_iff (h : IsObject IsRunRecord v r) (other : RunResult) :
    IsObject IsRunRecord v other ↔ other = r := by
  constructor
  · rintro ⟨m, rfl, hother⟩
    obtain ⟨m', hm', hr⟩ := h
    obtain rfl := Value.object.inj hm'
    have htaken := checkRunResult_of_record hother
    rw [checkRunResult_of_record hr] at htaken
    cases htaken
    rfl
  · rintro rfl
    exact h

/-- **The document of a run loses nothing.**  It is written wherever a file can be written, and the
value that the file spells names the pattern, the times, the counts and the duration of this run,
and its scripts and test cases in order, and is the record of no other result.  The check of results
takes this one from it. -/
theorem document_read_back {d : Disk} {p : Path} (hr : r.Readable) (hp : CanWrite d p) :
    ∃ d' v, r.write d p = (d', .ok ()) ∧ HoldsDocument d' p v ∧
      (∀ other, IsObject IsRunRecord v other ↔ other = r) ∧
      checkModel "RunResult" checkRunResult v = .ok r := by
  obtain ⟨made, q, hmade, hopen⟩ := hp
  obtain ⟨d', hwritten, -, hread⟩ := Disk.read_writeText hmade hopen r.document
  have hrecord := isRunRecord_toValue r
  have hlines : unixNewlines r.document.toList = r.document.toList :=
    unixNewlines_of_not_mem (return_not_mem_render hr.toValue)
  refine ⟨d', r.toValue, hwritten, ⟨_, _, hread, Utf8.decode_encode _, ?_⟩,
    isRunRecord_iff hrecord, ?_⟩
  · rw [hlines]
    exact parse_render hr.toValue
  · obtain ⟨m, hm, hnames⟩ := hrecord
    rw [hm]
    exact checkRunResult_of_record hnames

/-- A result with quotes, controls, a character of two units, a reason that is absent and one that
is empty, a script without test cases, and times that are not numbers. -/
def oddResult : RunResult where
  pattern := "tests/\"*\"\\é😀.txt"
  startedAt := "2024-02-29T12:00:00Z"
  total := 2
  passed := -1
  duration := .infinity true
  scripts := [
    { script := "a\n\r\x01\x7f.txt", outputDir := "", cases := [
      { testName := "/\u2028", urlA := "", urlB := "null", result := "pass", duration := .nan },
      { testName := "\t", urlA := "[", urlB := "\x7b", result := "error", failureReason := "",
        duration := .zero true }] },
    { script := "", outputDir := "😀" }]

theorem readable_oddResult : oddResult.Readable := by
  have hcount {n : ℤ} (hn : (Nat.toDigits 10 n.natAbs).length ≤ digitLimit) :
      (Numeric.int n).Readable := hn
  refine ⟨hcount (by decide), hcount (by decide), hcount (by decide), hcount (by decide), trivial,
    ?_⟩
  intro c hc
  simp only [oddResult, RunResult.cases, List.flatMap_cons, List.flatMap_nil, List.append_nil,
    List.mem_cons, List.not_mem_nil, or_false] at hc
  obtain rfl | rfl := hc
  · trivial
  · exact Double.inFormat_zero true

theorem document_read_back_oddResult :
    oddResult.Readable ∧ CanWrite { entries := [] } (.ofString "out/odd.json") ∧
      ∃ d' v, oddResult.write { entries := [] } (.ofString "out/odd.json") = (d', .ok ()) ∧
        HoldsDocument d' (.ofString "out/odd.json") v ∧
        (∀ other, IsObject IsRunRecord v other ↔ other = oddResult) ∧
        checkModel "RunResult" checkRunResult v = .ok oddResult := by
  have hp : CanWrite { entries := [] } (.ofString "out/odd.json") :=
    canWrite_of_writeText "" (by decide +kernel)
  exact ⟨readable_oddResult, hp, document_read_back readable_oddResult hp⟩

end PageDiff.Run
