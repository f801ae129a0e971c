import PageDiff.Proofs.Command.ExitCode
import PageDiff.Proofs.Disk.Written
import PageDiff.Proofs.Schema.Fields
import PageDiff.Proofs.Text.Encoding
import PageDiff.Proofs.Text.Returns

/-!
# Settings are loaded as they were saved

Settings come about by a check of single values or of a document (`Obtained`), and what the checks
make sure of (`Sane`) is what they ask again when the settings are loaded.  So settings that are
saved where a file can be written are loaded from there (`load_saved`): the document is read back
and its members are taken one by one.  A time limit that is an integer comes back as a double, and a
text comes back as it is read from its units.  Main statement (`load_save`): the settings that come
back are the same exactly if no text splits a pair.  Texts of characters alone do not, and neither
do those of settings that have been loaded.
-/

namespace PageDiff.Config

open PageDiff.Command PageDiff.Json PageDiff.Number PageDiff.Schema PageDiff.Text

variable {c : Config} {m : Members} {root : String}

/-! ### Settings that have been checked -/

/-- How settings come about: from values that are given for some of them, or from a file. -/
inductive Obtained : Config → Prop
  | constructed {root : String} {m : Members} {c : Config} (given : ∀ e ∈ m, IsGenuine e.2)
    (checked : check root m = .ok c) : Obtained c
  | loaded {d : Disk} {root : String} {p : Path} {c : Config} (loaded : load d root p = .ok c) :
    Obtained c

/-- What is true of all settings: the checks make sure of it, or the defaults have it. -/
structure Sane (c : Config) : Prop where
  width : 0 < c.width
  height : 0 < c.height
  timeout : c.timeout = .int 60 ∨ ∃ x : Double, x.InFormat ∧ c.timeout = .double x
  threshold : c.threshold.InFormat
  fraction : (Double.zero.le c.threshold && c.threshold.le (.ofInt 1)) = true

theorem pos_of_checkDimension {v : Value} {n : Int} (h : checkDimension v = .ok n) : 0 < n := by
  obtain ⟨k, -, hk⟩ := Checked.andThen_eq_ok.mp h
  split at hk
  · cases hk
  · cases hk
    omega

theorem of_checkThreshold {v : Value} {x : Double} (hv : IsGenuine v)
    (h : checkThreshold v = .ok x) :
    x.InFormat ∧ (Double.zero.le x && x.le (.ofInt 1)) = true := by
  obtain ⟨y, hy, hin⟩ := Checked.andThen_eq_ok.mp h
  split at hin
  · next hfraction =>
    cases hin
    exact ⟨inFormat_of_checkDouble hv hy, hfraction⟩
  · cases hin

theorem of_checkTimeout {v : Value} {n : Numeric} (hv : IsGenuine v)
    (h : checkTimeout v = .ok n) : ∃ x : Double, x.InFormat ∧ n = .double x := by
  obtain ⟨x, hx, rfl⟩ := Checked.map_eq_ok.mp h
  exact ⟨x, inFormat_of_checkDouble hv hx, rfl⟩

/-- The fields of settings are checked side by side. -/
theorem check_eq_ok : check root m = .ok c ↔
    optional m "browser_width" 1536 checkDimension = .ok c.width ∧
    optional m "browser_height" 960 checkDimension = .ok c.height ∧
    optional m "headless" true checkBoolean = .ok c.headless ∧
    optional m "browser_args" [] (checkList .notList checkLoose) = .ok c.browserArgs ∧
    optional m "capture_timeout_seconds" (.int 60) checkTimeout = .ok c.timeout ∧
    optional m "diff_threshold" (.ofQuotient false 1 10) checkThreshold = .ok c.threshold ∧
    optional m "output_root" (.ofString root) checkLoose = .ok c.outputRoot := by
  constructor
  · intro h
    simp only [check, Checked.seq_eq_ok, Checked.map_eq_ok] at h
    obtain ⟨_, _, ⟨_, _, ⟨_, _, ⟨_, _, ⟨_, _, ⟨_, _, ⟨_, hwidth, rfl⟩, hheight, rfl⟩, hheadless,
      rfl⟩, hargs, rfl⟩, htimeout, rfl⟩, hthreshold, rfl⟩, hroot, rfl⟩ := h
    exact ⟨hwidth, hheight, hheadless, hargs, htimeout, hthreshold, hroot⟩
  · rintro ⟨hwidth, hheight, hheadless, hargs, htimeout, hthreshold, hroot⟩
    rw [check]
    dsimp only
    rw [hwidth, hheight, hheadless, hargs, htimeout, hthreshold, hroot]
    rfl

theorem sane_of_check (hm : ∀ e ∈ m, IsGenuine e.2) (h : check root m = .ok c) : Sane c := by
  obtain ⟨hwidth, hheight, -, -, htimeout, hthreshold, -⟩ := check_eq_ok.mp h
  have hdefault : (Double.ofQuotient false 1 10).InFormat ∧
      (Double.zero.le (.ofQuotient false 1 10) && (Double.ofQuotient false 1 10).le (.ofInt 1)) =
        true :=
    ⟨Double.inFormat_ofQuotient false 1 (by norm_num), by decide +kernel⟩
  have hthreshold' : c.threshold.InFormat ∧
      (Double.zero.le c.threshold && c.threshold.le (.ofInt 1)) = true := by
    obtain heq | ⟨v, hmem, hv⟩ := optional_eq_ok hthreshold
    · rw [heq]
      exact hdefault
    · exact of_checkThreshold (hm _ hmem) hv
  refine ⟨?_, ?_, ?_, hthreshold'.1, hthreshold'.2⟩
  · obtain heq | ⟨v, -, hv⟩ := optional_eq_ok hwidth
    · omega
    · exact pos_of_checkDimension hv
  · obtain heq | ⟨v, -, hv⟩ := optional_eq_ok hheight
    · omega
    · exact pos_of_checkDimension hv
  · obtain heq | ⟨v, hmem, hv⟩ := optional_eq_ok htimeout
    · exact .inl heq
    · exact .inr (of_checkTimeout (hm _ hmem) hv)

/-- What is loaded from a file is what its text says. -/
theorem load_eq_ok {d : Disk} {p : Path} : load d root p = .ok c ↔
    ∃ content text, d.exists? p = .ok true ∧ d.read p = .ok content ∧
      Utf8.decode content.data = .ok text ∧ ofText root (unixNewlines text) = .ok c := by
  unfold load
  cases he : d.exists? p with
  | error e => simp [bind, Except.bind, Except.mapError]
  | ok there =>
    cases there with
    | false => simp [bind, Except.bind, Except.mapError]
    | true =>
      cases hr : d.read p with
      | error e => simp [bind, Except.bind, Except.mapError]
      | ok content =>
        cases ht : Utf8.decode content.data with
        | error e => simp [bind, Except.bind, Except.mapError, ht]
        | ok text =>
          cases hc : ofText root (unixNewlines text) with
          | error e => simp [bind, Except.bind, Except.mapError, ht, hc]
          | ok c' => simp [bind, Except.bind, Except.mapError, ht, hc]

/-- Settings that are taken from a text are those of the object that it spells. -/
theorem ofText_eq_ok {text : List Char} : ofText root text = .ok c ↔
    ∃ m, parse text = .ok (.object m) ∧ check root m = .ok c := by
  unfold ofText
  split
  · next v hv =>
    simp only [hv, Except.ok.injEq]
    unfold ofValue
    split
    · next m =>
      simp only [Value.object.injEq, exists_eq_left']
      split
      · next c' hc => simp [hc]
      · next issues hc => simp [hc]
    · next hne =>
      simp only [reduceCtorEq, false_iff, not_exists, not_and]
      rintro m rfl
      exact absurd rfl (hne m)
  · next e he => simp [he]

/-- Settings that are loaded are taken from a document that can be written. -/
theorem check_of_load {d : Disk} {p : Path} (h : load d root p = .ok c) :
    ∃ m, ReadableMembers (depthLimit - 1) m ∧ check root m = .ok c := by
  obtain ⟨content, text, -, -, -, htext⟩ := load_eq_ok.mp h
  obtain ⟨m, hparse, hcheck⟩ := ofText_eq_ok.mp htext
  exact ⟨m, (readable_of_parse hparse).2, hcheck⟩

theorem sane_of_obtained (h : Obtained c) : Sane c := by
  cases h with
  | constructed given checked => exact sane_of_check given checked
  | loaded hload =>
    obtain ⟨m, hm, hcheck⟩ := check_of_load hload
    exact sane_of_check
      (fun e he => isGenuine_of_readable (readableMembers_iff.mp hm e he)) hcheck

/-! ### Texts of settings -/

/-- The texts of settings. -/
def texts (c : Config) : List Loose := c.outputRoot :: c.browserArgs

/-- Whether settings have been loaded from a file. -/
def IsLoaded (c : Config) : Prop := ∃ d root p, load d root p = .ok c

/-- Settings that have been loaded hold no text that splits a pair. -/
theorem IsLoaded.not_splitsPair (h : IsLoaded c) : ∀ t ∈ c.texts, ¬ t.SplitsPair := by
  obtain ⟨d, root, p, hload⟩ := h
  obtain ⟨m, hm, hcheck⟩ := check_of_load hload
  obtain ⟨-, -, -, hargs, -, -, hroot⟩ := check_eq_ok.mp hcheck
  rw [texts, List.forall_mem_cons]
  constructor
  · obtain heq | ⟨v, hmem, hv⟩ := optional_eq_ok hroot
    · rw [heq]
      exact Loose.not_splitsPair_ofString root
    · exact not_splitsPair_of_checkLoose (readableMembers_iff.mp hm _ hmem) hv
  · obtain heq | ⟨v, hmem, hv⟩ := optional_eq_ok hargs
    · rw [heq]
      exact nofun
    · exact forall_of_checkList not_splitsPair_of_checkLoose (readableMembers_iff.mp hm _ hmem) hv

/-- The settings with texts as they are read from their units. -/
def joined (c : Config) : Config :=
  { c with
    browserArgs := c.browserArgs.map Loose.joined
    outputRoot := c.outputRoot.joined }

theorem Sane.joined (hc : Sane c) : Sane c.joined :=
  ⟨hc.width, hc.height, hc.timeout, hc.threshold, hc.fraction⟩

/-- A document spells texts by their units, so it is that of the texts that are read from it. -/
theorem render_joined (c : Config) : c.joined.render = c.render := by
  have hargs : renderAt 1 (.array ((c.browserArgs.map Loose.joined).map .ofLoose)) =
      renderAt 1 (.array (c.browserArgs.map .ofLoose)) := by
    cases c.browserArgs with
    | nil => rfl
    | cons t ts =>
      simp only [List.map_cons, renderAt, renderAt_ofLoose, renderItems_ofLoose, List.flatMap_map,
        Loose.units_joined]
  simp only [render, Json.render, members, joined, renderAt, renderMembers, hargs, renderAt_ofLoose,
    Loose.units_joined]

/-! ### Settings that are saved -/

theorem member?_members (c : Config) :
    member? c.members "browser_width" = some (.int c.width) ∧
    member? c.members "browser_height" = some (.int c.height) ∧
    member? c.members "headless" = some (.bool c.headless) ∧
    member? c.members "browser_args" = some (.array (c.browserArgs.map .ofLoose)) ∧
    member? c.members "capture_timeout_seconds" = some (.number c.timeout) ∧
    member? c.members "diff_threshold" = some (.double c.threshold) ∧
    member? c.members "output_root" = some (.ofLoose c.outputRoot) :=
  ⟨rfl, rfl, rfl, rfl, rfl, rfl, rfl⟩

/-- The settings that come back: texts as they are read from their units, and a time limit as a
double. -/
def reloaded (c : Config) : Config := { c.joined with timeout := .double c.timeout.toDouble }

theorem checkTimeout_number {n : Numeric} (h : n = .int 60 ∨ ∃ x, n = .double x) :
    checkTimeout (.number n) = .ok (.double n.toDouble) := by
  obtain rfl | ⟨x, rfl⟩ := h
  · have hsixty : Double.ofInt 60 = .finite false (60 * 2 ^ 47) (-47) := by decide +kernel
    simp only [checkTimeout, checkDouble, Numeric.toDouble, hsixty]
    rfl
  · rfl

/-- What is written of settings is taken back, with a double for the time limit. -/
theorem check_members (hc : Sane c) (root : String) :
    check root c.members = .ok { c with timeout := .double c.timeout.toDouble } := by
  obtain ⟨hwidth, hheight, hheadless, hargs, htimeout, hthreshold, hroot⟩ := member?_members c
  have hdimension {n : Int} (hn : 0 < n) : checkDimension (.int n) = .ok n :=
    if_neg (Int.not_le.mpr hn)
  refine check_eq_ok.mpr ⟨?_, ?_, ?_, ?_, ?_, ?_, ?_⟩
  · exact optional_of_member? hwidth (hdimension hc.width)
  · exact optional_of_member? hheight (hdimension hc.height)
  · exact optional_of_member? hheadless rfl
  · exact optional_of_member? hargs (checkList_ofLoose _ _)
  · exact optional_of_member? htimeout
      (checkTimeout_number (hc.timeout.imp_right fun ⟨x, _, hx⟩ => ⟨x, hx⟩))
  · exact optional_of_member? hthreshold (if_pos hc.fraction)
  · exact optional_of_member? hroot (checkLoose_ofLoose _)

/-- Every double but not-a-number equals itself. -/
theorem eqv_self {x : Double} (h : x ≠ .nan) : x.eqv x = true := by
  cases x with
  | nan => exact absurd rfl h
  | infinity s => cases s <;> rfl
  | finite s m e => simp [Double.eqv, Double.le]

/-- The settings that come back are the same exactly if no text splits a pair. -/
theorem same_reloaded_iff (hc : Sane c) (hnan : c.timeout ≠ .double .nan) :
    c.same c.reloaded = true ↔ ∀ t ∈ c.texts, ¬ t.SplitsPair := by
  have hthreshold : c.threshold.eqv c.threshold = true := by
    refine eqv_self fun heq => ?_
    have hfraction := hc.fraction
    rw [heq] at hfraction
    cases hfraction
  have htimeout : c.timeout.eqv (.double c.timeout.toDouble) = true := by
    obtain heq | ⟨x, -, heq⟩ := hc.timeout
    · rw [heq]
      decide +kernel
    · rw [heq]
      refine eqv_self fun hx => hnan ?_
      rw [heq, hx]
  have hsame : c.same c.reloaded = true ↔
      c.browserArgs = c.browserArgs.map Loose.joined ∧ c.outputRoot = c.outputRoot.joined := by
    simp [same, reloaded, joined, htimeout, hthreshold]
  rw [hsame, texts, List.forall_mem_cons, ← Loose.map_joined_eq_self_iff,
    ← Loose.joined_eq_self_iff, and_comm]
  exact and_congr eq_comm eq_comm

/-- What is written of settings is read back, if their integers do not have too many digits and
their texts split no pairs. -/
theorem readable_members (hc : Sane c)
    (hwidth : (Nat.toDigits 10 c.width.natAbs).length ≤ digitLimit)
    (hheight : (Nat.toDigits 10 c.height.natAbs).length ≤ digitLimit)
    (htexts : ∀ t ∈ c.texts, ¬ t.SplitsPair) :
    (Value.object c.members).Readable depthLimit := by
  rw [texts, List.forall_mem_cons] at htexts
  have htimeout : c.timeout.Readable := by
    obtain heq | ⟨x, hx, heq⟩ := hc.timeout
    · rw [heq]
      exact (by decide : (Nat.toDigits 10 60).length ≤ digitLimit)
    · rw [heq]
      exact hx
  have hargs : (Value.array (c.browserArgs.map .ofLoose)).Readable (depthLimit - 1) := by
    refine ⟨by decide, readableItems_iff.mpr fun v hv => ?_⟩
    obtain ⟨t, ht, rfl⟩ := List.mem_map.mp hv
    exact readable_ofLoose (htexts.2 t ht) _
  exact ⟨by decide, hwidth, hheight, trivial, hargs, htimeout, hc.threshold,
    readable_ofLoose htexts.1 _, trivial⟩

/-- Settings that are saved can be loaded. -/
theorem load_saved {d : Disk} {p : Path} (hc : Sane c)
    (hwidth : (Nat.toDigits 10 c.width.natAbs).length ≤ digitLimit)
    (hheight : (Nat.toDigits 10 c.height.natAbs).length ≤ digitLimit) (hp : CanWrite d p)
    (root : String) :
    ∃ d', c.save d p = (d', .ok ()) ∧ load d' root p = .ok c.reloaded := by
  have htexts : ∀ t ∈ c.joined.texts, ¬ t.SplitsPair := by
    intro t ht
    have hmem : t ∈ c.texts.map Loose.joined := ht
    obtain ⟨t, -, rfl⟩ := List.mem_map.mp hmem
    exact Loose.not_splitsPair_joined t
  -- what is saved is also the document of the settings that come back
  have hreadable := readable_members hc.joined hwidth hheight htexts
  obtain ⟨made, q, hmade, hopen⟩ := hp
  obtain ⟨d', hsaved, hexists, hread⟩ := Disk.read_writeText hmade hopen c.render
  have hlines : unixNewlines c.joined.render.toList = c.joined.render.toList :=
    unixNewlines_of_not_mem (return_not_mem_render hreadable)
  refine ⟨d', hsaved, load_eq_ok.mpr ⟨_, _, hexists, hread, Utf8.decode_encode _, ?_⟩⟩
  rw [← render_joined, hlines, ofText_eq_ok]
  exact ⟨c.joined.members, parse_render hreadable, check_members hc.joined root⟩

/-- **Settings are loaded as they were saved.**  Saving succeeds wherever a file can be written, and
loading accepts what was saved and gives all fields as they were, but a time limit as a double and a
pair that is split as its character.  So the settings that come back are the same exactly if no text
splits a pair, and no text does that has characters alone or has been loaded. -/
theorem load_save {d : Disk} {p : Path} (hc : Obtained c)
    (hwidth : (Nat.toDigits 10 c.width.natAbs).length ≤ digitLimit)
    (hheight : (Nat.toDigits 10 c.height.natAbs).length ≤ digitLimit)
    (hnan : c.timeout ≠ .double .nan) (hp : CanWrite d p) (root : String) :
    (∃ d', c.save d p = (d', .ok ()) ∧ load d' root p = .ok c.reloaded) ∧
      (c.same c.reloaded = true ↔ ∀ t ∈ c.texts, ¬ t.SplitsPair) ∧
      ((∀ t ∈ c.texts, ∃ s, t = .ofString s) ∨ IsLoaded c → c.same c.reloaded = true) := by
  have hsane := sane_of_obtained hc
  have hsame := same_reloaded_iff hsane hnan
  refine ⟨load_saved hsane hwidth hheight hp root, hsame, ?_⟩
  rintro (hcharacters | hloaded)
  · rw [hsame]
    intro t ht
    obtain ⟨s, rfl⟩ := hcharacters t ht
    exact Loose.not_splitsPair_ofString s
  · exact hsame.mpr hloaded.not_splitsPair

/-- The first half of a pair. -/
def highHalf : Half := ⟨0xD83D, by decide⟩

/-- The second half of a pair. -/
def lowHalf : Half := ⟨0xDE00, by decide⟩

/-- Settings with quotes, controls, a character of two units, the halves of a pair in the wrong
order, and no time limit. -/
def oddSettings : Config where
  width := 800
  browserArgs := [.ofString "--title=\"\\\n\x01\x7f😀\"", ⟨[.half lowHalf, .half highHalf]⟩]
  timeout := .double (.infinity false)
  threshold := .zero true
  outputRoot := .ofString "shots/é"

theorem load_save_oddSettings :
    Obtained oddSettings ∧ oddSettings.timeout ≠ .double .nan ∧
      CanWrite { entries := [] } (.ofString "settings/odd.json") ∧
      (∃ d', oddSettings.save { entries := [] } (.ofString "settings/odd.json") = (d', .ok ()) ∧
        load d' "" (.ofString "settings/odd.json") = .ok oddSettings.reloaded) ∧
      oddSettings.same oddSettings.reloaded = true := by
  have hchecked : check "shots/é"
      [("browser_width", .string " 8_00 "),
        ("browser_args", .array [.string "--title=\"\\\n\x01\x7f😀\"",
          .torn ⟨[.half lowHalf, .half highHalf]⟩]),
        ("capture_timeout_seconds", .string "Infinity"), ("diff_threshold", .double (.zero true))] =
      .ok oddSettings := rfl
  have hc : Obtained oddSettings := by
    refine .constructed (fun e he x hx => ?_) hchecked
    simp only [List.mem_cons, List.not_mem_nil, or_false] at he
    obtain rfl | rfl | rfl | rfl := he
    · cases hx
    · cases hx
    · cases hx
    · cases hx
      exact Double.inFormat_zero true
  have hnan : oddSettings.timeout ≠ .double .nan := by decide
  have hp : CanWrite { entries := [] } (.ofString "settings/odd.json") :=
    canWrite_of_writeText "" (by decide +kernel)
  have htexts : ∀ t ∈ oddSettings.texts, t.joined = t := by decide +kernel
  obtain ⟨hsaved, hsame, -⟩ := load_save hc (by decide) (by decide) hnan hp ""
  exact ⟨hc, hnan, hp, hsaved, hsame.mpr fun t ht => Loose.joined_eq_self_iff.mp (htexts t ht)⟩

/-- Settings with a text that splits a pair. -/
def splitSettings : Config where
  outputRoot := ⟨[.half highHalf, .half lowHalf]⟩

/-- A text that splits a pair does not come back: in its place there is the character of the
pair. -/
theorem splitPair_not_kept :
    Obtained splitSettings ∧ splitSettings.timeout = .int 60 ∧
      CanWrite { entries := [] } (.ofString "settings/split.json") ∧
      ∃ d' c', splitSettings.save { entries := [] } (.ofString "settings/split.json") =
          (d', .ok ()) ∧
        load d' "" (.ofString "settings/split.json") = .ok c' ∧
        c'.outputRoot = .ofString "😀" ∧ splitSettings.outputRoot ≠ c'.outputRoot ∧
        splitSettings.same c' = false := by
  have hchecked : check "" [("output_root", .torn ⟨[.half highHalf, .half lowHalf]⟩)] =
      .ok splitSettings := rfl
  have hc : Obtained splitSettings := by
    refine .constructed (fun e he x hx => ?_) hchecked
    rw [List.mem_singleton.mp he] at hx
    cases hx
  have hp : CanWrite { entries := [] } (.ofString "settings/split.json") :=
    canWrite_of_writeText "" (by decide +kernel)
  obtain ⟨d', hsaved, hloaded⟩ :=
    load_saved (sane_of_obtained hc) (by decide) (by decide) hp ""
  exact ⟨hc, rfl, hp, d', _, hsaved, hloaded, by decide +kernel, by decide +kernel,
    by decide +kernel⟩

end PageDiff.Config
