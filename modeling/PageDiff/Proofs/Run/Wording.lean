import PageDiff.Proofs.Run.Verdict
import PageDiff.Proofs.Run.Completion
import PageDiff.Proofs.Script.AddressText
import PageDiff.Proofs.Text.OneLine

/-!
# Reasons of one line

A reason is put together from addresses, from paths and from what a fault says.  Addresses and names
of test cases are of one line because they come from lines of a script, a path is if its names are,
and the program quotes what else it tells of faults.  Only the browser and its pictures say what
they like.  Main statement (`isLine_of_ends`): a reason is of one line if the directory is and the
browser speaks in single lines, and the reason of a mismatch is whatever the browser says.
-/

namespace PageDiff.Run

open PageDiff.Browser PageDiff.Path PageDiff.Script PageDiff.Text

/-! ### Names of test cases -/

section Names

variable {raw : List Char}

/-- The argument of a line holds nothing that the line does not hold. -/
theorem mem_of_mem_argument {k : Keyword} {args : String} {c : Char}
    (h : Line.read raw = .directive k args) (hc : c ∈ args.toList) : c ∈ raw := by
  obtain ⟨first, hsays, -⟩ := read_eq_directive.mp h
  obtain ⟨gap, hraw, -⟩ := hsays.fields
  have hstrip : c ∈ strip raw := by
    rw [hraw]
    exact List.mem_append_right _ (List.mem_append_right _ hc)
  exact (List.dropWhile_sublist _).subset ((List.rdropWhile_prefix isBlank _).subset hstrip)

theorem isLine_suffix {args : String} {shown : Capture} {size? : Option (Nat × Nat)}
    (h : Asks args shown size?) (hargs : IsLine args) : IsLine (suffix shown size?) := by
  have hsize : ∀ w h : Nat, IsLine (" " ++ toString w ++ "x" ++ toString h) := by
    intro w h
    simp only [isLine_append]
    exact ⟨⟨⟨by decide, isLine_toString w⟩, by decide⟩, isLine_toString h⟩
  cases h with
  | whole fields named page =>
    rcases State.page_cases page with ⟨-, rfl⟩ | ⟨-, rfl⟩ <;> exact List.not_mem_nil
  | sized fields named page size =>
    rcases State.page_cases page with ⟨-, rfl⟩ | ⟨-, rfl⟩ <;> exact hsize _ _
  | element fields named given =>
    obtain ⟨gap, hfields, -⟩ := fields
    rw [suffix, isLine_append]
    refine ⟨by decide, fun hfeed => hargs ?_⟩
    rw [hfields]
    exact List.mem_append_right _ (List.mem_append_right _ hfeed)

/-- Lines give names of one line. -/
theorem isLine_names_of_effect {s t : State} {made : Option TestCase}
    (he : State.Effect s (Line.read raw) t made) (hraw : '\n' ∉ raw)
    (hs : IsLine s.block.testName) :
    IsLine t.block.testName ∧ ∀ tc ∈ made, IsLine tc.name := by
  have hargs : ∀ k args, Line.read raw = .directive k args → IsLine args :=
    fun k args h hfeed => hraw (mem_of_mem_argument h hfeed)
  generalize Line.read raw = line at he hargs
  cases he with
  | blank => exact ⟨List.not_mem_nil, nofun⟩
  | comment => exact ⟨hs, nofun⟩
  | windowsize size => exact ⟨hs, nofun⟩
  | compare pair originA originB => exact ⟨hs, nofun⟩
  | test fresh => exact ⟨hargs _ _ rfl, nofun⟩
  | pathname origins urlA urlB fresh =>
    refine ⟨?_, nofun⟩
    show IsLine (s.nameWith _)
    unfold State.nameWith
    split_ifs
    · exact hargs _ _ rfl
    · exact hs
  | click given => exact ⟨hs, nofun⟩
  | wait given => exact ⟨hs, nofun⟩
  | capture origins path asks fresh =>
    refine ⟨hs, ?_⟩
    rintro tc ⟨⟩
    exact isLine_append.mpr ⟨hs, isLine_suffix asks (hargs _ _ rfl)⟩

theorem isLine_names_of_compile {text : List Char} {script : Option String}
    {cases : List TestCase} (h : compile text script = .ok cases) :
    ∀ tc ∈ cases, IsLine tc.name := by
  obtain ⟨s, hrun⟩ := compile_eq_ok.mp h
  have hinvariant := State.run_induction (P := fun raws s cases => (∀ raw ∈ raws, '\n' ∉ raw) →
    IsLine s.block.testName ∧ ∀ tc ∈ cases, IsLine tc.name)
    (fun _ => ⟨List.not_mem_nil, nofun⟩) ?_ hrun
  · exact (hinvariant fun _ => not_mem_of_mem_splitOn _).2
  · intro raws raw s t cases made ih he hraws
    simp only [List.mem_append, List.mem_singleton] at hraws
    obtain ⟨hs, hcases⟩ := ih fun r hr => hraws r (.inl hr)
    obtain ⟨ht, hmade⟩ := isLine_names_of_effect he (hraws raw (.inr rfl)) hs
    refine ⟨ht, fun tc htc => ?_⟩
    rcases List.mem_append.mp htc with htc | htc
    · exact hcases tc htc
    · exact hmade tc (Option.mem_toList.mp htc)

end Names

/-! ### Addresses -/

section Addresses

variable {url : String}

theorem isLine_of_isClean (h : Url.IsClean url.toList) : IsLine url :=
  fun hfeed => absurd (h _ hfeed) (by decide)

theorem mem_of_mem_netloc {cs : List Char} {c : Char} (h : c ∈ (Url.partsOf cs).netloc) :
    c ∈ cs := by
  have hrest : (Url.splitScheme cs).2 <:+ cs := by
    unfold Url.splitScheme
    split
    · exact (List.drop_suffix 1 _).trans (List.dropWhile_suffix _)
    · exact List.suffix_refl cs
  refine hrest.subset ?_
  change c ∈ (Url.splitNetloc (Url.splitScheme cs).2).1 at h
  unfold Url.splitNetloc at h
  split at h
  · next rest heq =>
    rw [heq]
    exact List.mem_cons_of_mem _ (List.mem_cons_of_mem _ ((List.takeWhile_sublist _).subset h))
  · cases h

/-- A text between two others, as messages are put together. -/
theorem isLine_framed {a b c : String} (ha : IsLine a) (hb : IsLine b) (hc : IsLine c) :
    IsLine (a ++ b ++ c) :=
  isLine_append.mpr ⟨isLine_append.mpr ⟨ha, hb⟩, hc⟩

theorem isLine_tooManyDigits (e : TooManyDigits) : IsLine e.message := by
  refine isLine_append.mpr ⟨isLine_framed (by decide) (isLine_toString _) (by decide), ?_⟩
  exact isLine_framed (by decide) (isLine_toString _) (by decide)

/-- Only one refusal of an address holds something that is not quoted. -/
theorem isLine_urlError {e : Url.Error}
    (h : ∀ netloc, e = .hiddenDelimiter netloc → IsLine netloc) : IsLine e.message := by
  cases e with
  | badCharacter c => exact isLine_framed (by decide) (isLine_quoted _) (by decide)
  | badEscape url => exact isLine_append.mpr ⟨by decide, isLine_quoted _⟩
  | brackets => decide
  | futureFormat => decide
  | notAddress host => exact isLine_append.mpr ⟨isLine_quoted _, by decide⟩
  | bracketedV4 => decide
  | hiddenDelimiter netloc => exact isLine_framed (by decide) (h netloc rfl) (by decide)
  | portText port => exact isLine_append.mpr ⟨by decide, isLine_quoted _⟩
  | portDigits e => exact isLine_tooManyDigits e
  | portRange => decide
  | notAbsolute origin => exact isLine_framed (by decide) (isLine_quoted _) (by decide)

theorem checkBrackets_ne_hidden (cs : List Char) (netloc : String) :
    Url.checkBrackets cs ≠ .error (.hiddenDelimiter netloc) := by
  have hhost : ∀ host, Url.checkBracketedHost host ≠ .error (.hiddenDelimiter netloc) := by
    intro host
    unfold Url.checkBracketedHost
    split_ifs <;> simp
  unfold Url.checkBrackets
  split
  · unfold Url.bracketedHost
    dsimp only
    split_ifs
    · rintro ⟨⟩
    · split
      · exact hhost _
      · split_ifs
        · exact hhost _
        · rintro ⟨⟩
    · exact hhost _
  · simp
  · simp

theorem port?_ne_hidden (cs : List Char) (netloc : String) :
    Url.port? cs ≠ .error (.hiddenDelimiter netloc) := by
  unfold Url.port?
  dsimp only
  split_ifs
  · simp
  · simp
  · split
    · simp
    · split_ifs <;> simp

/-- Only the delimiters of a clean address can be refused for a hidden one. -/
theorem checkDelimiters_of_hidden {netloc : String} (hclean : Url.IsClean url.toList)
    (h : Url.check url = .error (.hiddenDelimiter netloc)) :
    Url.checkDelimiters (Url.partsOf url.toList).netloc = .error (.hiddenDelimiter netloc) := by
  have hnone : url.toList.find? Url.isControlOrSpace = none := by simpa [Url.IsClean] using hclean
  have hchars : Url.checkChars url.toList = .error (.hiddenDelimiter netloc) := by
    rw [Url.check] at h
    cases hc : Url.checkChars url.toList with
    | error e =>
      rw [hc] at h
      exact congrArg Except.error (Except.error.inj h)
    | ok parts =>
      rw [hc] at h
      cases h
  unfold Url.checkChars at hchars
  by_cases he : Url.escapesOk url.toList = true
  · simp only [hnone, he, if_true, bind_eq_error, Url.split, hclean.cleaned_eq] at hchars
    rcases hchars with (hb | ⟨-, -, hd | ⟨-, -, hpure⟩⟩) |
      ⟨_, _, hp | ⟨_, _, hpure⟩⟩
    · exact absurd hb (checkBrackets_ne_hidden _ _)
    · exact hd
    · cases hpure
    · exact absurd hp (port?_ne_hidden _ _)
    · cases hpure
  · simp only [hnone, he] at hchars
    cases hchars

/-- What is told of an address that is refused stays on its line if the address is clean. -/
theorem isLine_of_refused {e : Url.Error} (hclean : Url.IsClean url.toList)
    (h : Url.check url = .error e) : IsLine e.message := by
  refine isLine_urlError ?_
  rintro netloc rfl
  have hd := checkDelimiters_of_hidden hclean h
  unfold Url.checkDelimiters at hd
  split_ifs at hd
  rw [← Url.Error.hiddenDelimiter.inj (Except.error.inj hd), isLine_ofList]
  exact fun hfeed => isLine_of_isClean hclean (mem_of_mem_netloc hfeed)

end Addresses

/-! ### Paths -/

section Paths

variable {p out script : Path} {config : Config}

theorem isLine_joinNames_iff {names : List String} :
    IsLine (joinNames names) ↔ ∀ n ∈ names, IsLine n := by
  induction names with
  | nil => simp [IsLine, joinNames]
  | cons n names ih =>
    cases names with
    | nil => simp [IsLine, joinNames]
    | cons next names =>
      have hslash : IsLine "/" := by decide
      rw [List.forall_mem_cons, ← ih, joinNames, String.intercalate_cons_cons, isLine_append,
        isLine_append, and_iff_left hslash]
      rfl

/-- A path is of one line if its names are. -/
theorem isLine_text_iff : IsLine p.text ↔ ∀ n ∈ p.names, IsLine n := by
  have hanchor : IsLine p.anchor.text := by
    cases p.anchor <;> decide
  rw [← isLine_joinNames_iff, Path.text]
  split_ifs with hempty
  · obtain ⟨-, hnames⟩ := String.append_eq_empty_iff.mp hempty
    rw [hnames]
    exact ⟨fun _ => List.not_mem_nil, fun _ => by decide⟩
  · rw [isLine_append, and_iff_right hanchor]

theorem isLine_ofString {text : String} (h : IsLine text) : IsLine (Path.ofString text).text := by
  rw [isLine_text_iff]
  intro n hn hfeed
  obtain ⟨piece, hpiece, rfl⟩ := List.mem_map.mp (List.mem_of_mem_filter hn)
  rw [String.toList_ofList] at hfeed
  exact h (mem_of_mem_splitOn _ hpiece hfeed)

theorem isLine_child {name : String} (hout : IsLine out.text) (hname : IsLine name) :
    IsLine (out.child name).text := by
  unfold Path.child
  split_ifs
  · exact hout
  · rw [isLine_text_iff] at hout ⊢
    exact List.forall_mem_append.mpr ⟨hout, by simpa using hname⟩

theorem feed_not_mem_fileNameChars {cs : List Char} (h : '\n' ∉ cs) : '\n' ∉ fileNameChars cs := by
  simp only [fileNameChars, List.mem_map, not_exists, not_and]
  intro c hc heq
  split_ifs at heq with hunsafe
  · cases heq
  · exact h (heq ▸ hc)

theorem isLine_fileNamePart {text : String} (h : IsLine text) : IsLine (fileNamePart text) :=
  isLine_ofList.mpr (feed_not_mem_fileNameChars h)

theorem isLine_name (h : IsLine script.text) : IsLine script.name := by
  unfold Path.name
  cases hl : script.names.getLast? with
  | none => exact List.not_mem_nil
  | some n => exact isLine_text_iff.mp h n (List.mem_of_getLast? hl)

theorem isLine_outputDir (hroot : IsLine config.outputRoot.shown) (hscript : IsLine script.text) :
    IsLine (outputDir config script).text :=
  isLine_child (isLine_ofString hroot) (isLine_fileNamePart (isLine_name hscript))

theorem isLine_hostPart {url host : String} (hurl : Url.IsClean url.toList)
    (h : hostPart url = .ok host) : IsLine host := by
  obtain ⟨parts, hsplit, hhost⟩ := bind_eq_ok.mp h
  obtain ⟨-, -, rfl⟩ := Url.split_eq_ok.mp hsplit
  rw [← Except.ok.inj hhost, isLine_ofList, hurl.cleaned_eq]
  exact feed_not_mem_fileNameChars fun hfeed => isLine_of_isClean hurl (mem_of_mem_netloc hfeed)

theorem isLine_artifactName {name shown : String} (hname : IsLine name) (hshown : IsLine shown) :
    IsLine (artifactName name shown) :=
  isLine_append.mpr ⟨isLine_framed hname (by decide) hshown, by decide⟩

/-- The artifacts of a test case have paths of one line if the directory has. -/
theorem isLine_artifacts {name urlA urlB : String} {paths : ArtifactPaths} (hout : IsLine out.text)
    (hname : IsLine name) (hA : Url.IsClean urlA.toList) (hB : Url.IsClean urlB.toList)
    (h : ArtifactPaths.ofTest out name urlA urlB = .ok paths) :
    ∀ p ∈ paths.toList, IsLine p.text := by
  obtain ⟨hostA, hostA_eq, h⟩ := bind_eq_ok.mp h
  obtain ⟨hostB, hostB_eq, h⟩ := bind_eq_ok.mp h
  rw [← Except.ok.inj h]
  have hpart := isLine_fileNamePart hname
  have hchild : ∀ shown, IsLine shown →
      IsLine (out.child (artifactName (fileNamePart name) shown)).text :=
    fun shown hshown => isLine_child hout (isLine_artifactName hpart hshown)
  simp only [ArtifactPaths.toList, List.forall_mem_cons, List.not_mem_nil, false_implies,
    implies_true, and_true]
  exact ⟨hchild _ (by decide), hchild _ (isLine_hostPart hA hostA_eq),
    hchild _ (isLine_hostPart hB hostB_eq)⟩

end Paths

/-! ### Faults of the disk -/

theorem isLine_diskError (e : DiskError) : IsLine e.message := by
  have hcode : ∀ code : OsCode, IsLine code.text ∧ IsLine (toString code.number) := by
    intro code
    cases code <;> decide
  cases e with
  | nullCharacter => decide
  | refused code path =>
    obtain ⟨htext, hnumber⟩ := hcode code
    refine isLine_append.mpr ⟨isLine_framed ?_ htext (by decide), isLine_quoted _⟩
    exact isLine_framed (by decide) hnumber (by decide)
  | notEmptied code path =>
    obtain ⟨htext, hnumber⟩ := hcode code
    refine isLine_framed (isLine_framed ?_ htext (by decide)) (isLine_quoted _) (by decide)
    exact isLine_framed (by decide) hnumber (by decide)

theorem isLine_of_savePicture {d : Disk} {p : Path} {image : Image} {f : Fault}
    (h : (savePicture d p image).2 = .error f) : IsLine f.message := by
  unfold savePicture at h
  split at h
  · obtain rfl := Except.error.inj h
    exact isLine_diskError _
  · by_cases hempty : image.isEmpty = true
    · rw [if_pos hempty] at h
      obtain rfl := Except.error.inj h
      decide
    · rw [if_neg hempty] at h
      cases h

/-- What has kept a picture from being made is told on one line. -/
def TaskLined (t : WriteTask) : Prop :=
  IsLine t.path.text ∧ ∀ f, t.picture = .error f → IsLine f.message

theorem isLine_of_perform {t : WriteTask} {d : Disk} {e : ArtifactError} (ht : TaskLined t)
    (h : (t.perform d).2 = some e) : IsLine e.message := by
  obtain ⟨hpath, hpicture⟩ := ht
  have hmessage : ∀ f, IsLine f.message → IsLine (ArtifactError.message ⟨t.path.text, f⟩) :=
    fun f hf => isLine_append.mpr ⟨isLine_framed (by decide) hpath (by decide), hf⟩
  unfold WriteTask.perform at h
  split at h
  · next f hf =>
    obtain rfl := Option.some.inj h
    exact hmessage f (hpicture f hf)
  · next image hi =>
    split at h
    · cases h
    · next d' f hf =>
      obtain rfl := Option.some.inj h
      exact hmessage f (isLine_of_savePicture (congrArg Prod.snd hf))

theorem isLine_of_performAll {ts : List WriteTask} (hts : ∀ t ∈ ts, TaskLined t) {d : Disk} :
    ∀ e, some e ∈ (WriteTask.performAll ts d).2 → IsLine e.message := by
  induction ts generalizing d with
  | nil => exact fun e h => absurd h List.not_mem_nil
  | cons t ts ih =>
    obtain ⟨ht, hrest⟩ := List.forall_mem_cons.mp hts
    intro e he
    rcases List.mem_cons.mp he with he | he
    · exact isLine_of_perform ht he.symm
    · exact ih hrest e he

theorem taskLined_of_mem_writeTasks {paths : ArtifactPaths} {a b : Image}
    {threshold : Number.Numeric} (h : ∀ p ∈ paths.toList, IsLine p.text) :
    ∀ t ∈ writeTasks paths a b threshold, TaskLined t := by
  simp only [ArtifactPaths.toList, List.forall_mem_cons] at h
  obtain ⟨hdiff, hA, hB, -⟩ := h
  simp only [writeTasks, List.forall_mem_cons, List.not_mem_nil, false_implies, implies_true,
    and_true]
  refine ⟨⟨hdiff, ?_⟩, ⟨hA, fun f hf => by cases hf⟩, ⟨hB, fun f hf => by cases hf⟩⟩
  intro f hf
  cases hc : Image.compare a b threshold with
  | ok c =>
    rw [hc] at hf
    cases hf
  | error e =>
    rw [hc] at hf
    rw [← Except.error.inj hf]
    cases e <;> decide

/-! ### What the browser says -/

/-- The browser tells its faults on one line each, and so does the decoder of its pictures. -/
structure SpeaksLines (driver : Driver) : Prop where
  replies : ∀ history e f, driver.reply history e = .fails f → IsLine f.message
  pictures : ∀ history why, (driver.picture history).decode = .error why → IsLine why.message

/-- A computation tells its faults on one line each, and what it gives has a property. -/
def GivesLined {α : Type} (x : Run Interruption α) (P : α → Prop) : Prop :=
  ∀ w, (∀ f, (x w).1 = .error (.fault f) → IsLine f.message) ∧ ∀ a, (x w).1 = .ok a → P a

section GivesLined

variable {α β : Type} {x : Run Interruption α} {P : α → Prop} {Q : β → Prop} {driver : Driver}

theorem givesLined_pure {a : α} (h : P a) : GivesLined (pure a : Run Interruption α) P :=
  fun _ => ⟨nofun, fun _ ha => Except.ok.inj ha ▸ h⟩

theorem givesLined_expired : GivesLined (throw .expired : Run Interruption α) P :=
  fun _ => ⟨nofun, nofun⟩

theorem GivesLined.bind {f : α → Run Interruption β} (hx : GivesLined x P)
    (hf : ∀ a, P a → GivesLined (f a) Q) : GivesLined (x >>= f) Q := by
  intro w
  cases hr : x w with
  | mk r v =>
    cases r with
    | ok a =>
      rw [bind_apply_of_ok hr]
      exact hf a ((hx w).2 a (by rw [hr])) v
    | error i =>
      rw [bind_apply_of_error hr]
      refine ⟨fun f hi => (hx w).1 f ?_, nofun⟩
      rw [hr]
      exact congrArg Except.error (Except.error.inj hi)

theorem GivesLined.cleanedUp {y : Run Interruption Unit} {R : Unit → Prop} (hx : GivesLined x P)
    (hy : GivesLined y R) : GivesLined (x.cleanedUp y) P := by
  intro w
  unfold Run.cleanedUp
  cases hr : x w with
  | mk r v =>
    have hxw := hx w
    rw [hr] at hxw
    dsimp only
    cases hr' : y v with
    | mk r' v' =>
      cases r' with
      | ok u => exact hxw
      | error i =>
        refine ⟨fun f hi => (hy v).1 f ?_, nofun⟩
        rw [hr']
        exact congrArg Except.error (Except.error.inj hi)

theorem givesLined_call (hs : SpeaksLines driver) (e : Event) :
    GivesLined (call driver e) fun _ => True := by
  intro w
  refine ⟨fun f hf => ?_, fun _ _ => trivial⟩
  unfold call at hf
  cases hr : driver.reply w.trace e with
  | done =>
    rw [hr] at hf
    cases hf
  | fails fault =>
    rw [hr] at hf
    rw [← Interruption.fault.inj (Except.error.inj hf)]
    exact hs.replies _ _ _ hr
  | hangs =>
    rw [hr] at hf
    cases hf

theorem givesLined_callAll (hs : SpeaksLines driver) (es : List Event) :
    GivesLined (callAll driver es) fun _ => True := by
  induction es with
  | nil => exact givesLined_pure trivial
  | cons e es ih => exact (givesLined_call hs e).bind fun _ _ => ih

/-- What the decoder tells of a picture is of one line. -/
def PictureLined (shot : Screenshot) : Prop := ∀ why, shot.decode = .error why → IsLine why.message

theorem givesLined_tryPicture (hs : SpeaksLines driver) (config : Config) (url : String)
    (tc : TestCase) : GivesLined (tryPicture driver config url tc) PictureLined := by
  unfold tryPicture
  split
  · exact givesLined_expired
  · refine (givesLined_call hs _).bind fun _ _ => ?_
    have hnote : ∀ e, GivesLined (note e : Run Interruption Unit) fun _ => True :=
      fun e _ => ⟨nofun, fun _ _ => trivial⟩
    refine (hnote _).bind fun _ _ => GivesLined.cleanedUp ?_ (givesLined_call hs .closeContext)
    refine (givesLined_callAll hs _).bind fun _ _ => (givesLined_callAll hs _).bind fun _ _ => ?_
    exact fun w => ⟨nofun, fun shot hshot => Except.ok.inj hshot ▸ hs.pictures _⟩

end GivesLined

/-! ### Reasons -/

section Reasons

variable {driver : Driver} {config : Config} {outDir : Path} {tc : TestCase} {o o' : Outside}
  {url : String}

/-- The reason that is recorded for an ending. -/
def reasonFor (ended : Ended) : String := (recorded ended).2.getD "None"

theorem isLine_kindName (f : Fault) : IsLine f.kindName := by
  have hcode : ∀ code : OsCode, IsLine code.kindName := by
    intro code
    cases code <;> decide
  unfold Fault.kindName
  split
  all_goals first | decide | exact hcode _

theorem isLine_missing {f : Fault} (hurl : IsLine url) (hf : IsLine f.message) :
    IsLine (reasonFor (.error (.capture ⟨url, f⟩))) := by
  refine isLine_append.mpr ⟨isLine_framed (by decide) hurl (by decide), ?_⟩
  split_ifs
  · exact isLine_kindName f
  · exact hf

theorem isLine_crash {f : Fault} (hf : IsLine f.message) :
    IsLine (reasonFor (.error (.fault f))) :=
  isLine_framed (isLine_kindName f) (by decide) hf

theorem isLine_timedOut (config : Config) : IsLine (timedOut config).message :=
  isLine_framed (by decide) (isLine_generalText _) (by decide)

theorem isLine_of_captureTold {i : Interruption} {failure : CaseFailure} (hurl : IsLine url)
    (hi : ∀ f, i = .fault f → IsLine f.message) (told : CaptureTold config url i failure) :
    IsLine (reasonFor (.error failure)) := by
  cases told with
  | expired => exact isLine_missing hurl (isLine_timedOut config)
  | timeout text => exact isLine_missing hurl (isLine_timedOut config)
  | missing known => exact isLine_missing hurl (hi _ rfl)
  | other unknown inTime => exact isLine_crash (hi _ rfl)

theorem isLine_of_decodeTold {f : Fault} {failure : CaseFailure} (hurl : IsLine url)
    (hf : IsLine f.message) (told : DecodeTold url f failure) :
    IsLine (reasonFor (.error failure)) := by
  cases told with
  | missing system => exact isLine_missing hurl hf
  | other foreign => exact isLine_crash hf

/-- The name and the addresses of a test case are of one line, as those of a script are. -/
structure CaseLined (tc : TestCase) : Prop where
  name : IsLine tc.name
  urlA : Url.IsClean tc.urlA.toList
  urlB : Url.IsClean tc.urlB.toList

theorem caseLined_of_compile {text : List Char} {script : Option String} {cases : List TestCase}
    (h : compile text script = .ok cases) : ∀ tc ∈ cases, CaseLined tc := by
  intro tc htc
  obtain ⟨hA, hB⟩ := addressText_of_compile h tc htc
  exact ⟨isLine_names_of_compile h tc htc, hA.clean, hB.clean⟩

/-- The reason of a mismatch is of one line if the directory is. -/
theorem isLine_of_mismatch {e : Mismatch} (hout : IsLine outDir.text) (htc : CaseLined tc)
    (h : Ends driver config outDir tc o (.error (.mismatch e)) o') :
    IsLine (reasonFor (.error (.mismatch e))) := by
  cases h with
  | captureA accepted a told => cases told
  | captureB accepted a b told => cases told
  | decodeA taken differ a told => cases told
  | decodeB taken differ a b told => cases told
  | @mismatch _ _ imageA imageB paths d errors failure _ taken differ a b named written first =>
    have hwritten : WriteTask.performAll
        (writeTasks paths imageA imageB (.double config.threshold)) o.disk = (d, errors) := written
    have hdiffer : IsLine (tc.urlA ++ " != " ++ tc.urlB) :=
      isLine_framed (isLine_of_isClean htc.urlA) (by decide) (isLine_of_isClean htc.urlB)
    cases failure with
    | none => exact hdiffer
    | some e =>
      have hmem : some e ∈ errors := by
        cases first with
        | some before later => simp
      have hpaths := isLine_artifacts hout htc.name htc.urlA htc.urlB named
      have hartifact := isLine_of_performAll (taskLined_of_mem_writeTasks hpaths) e
        (by rw [hwritten]; exact hmem)
      exact isLine_append.mpr ⟨isLine_framed hdiffer (by decide) hartifact, by decide⟩

/-- **Reasons of one line.**  If the directory is of one line and the browser speaks in single
lines, the reason for an ending is of one line. -/
theorem isLine_of_ends {ended : Ended} (hs : SpeaksLines driver) (hout : IsLine outDir.text)
    (htc : CaseLined tc) (h : Ends driver config outDir tc o ended o') :
    IsLine (reasonFor ended) := by
  have hurlA := isLine_of_isClean htc.urlA
  have hurlB := isLine_of_isClean htc.urlB
  have hfault : ∀ {url o i o'}, pictureAt driver config url tc o = (.error i, o') →
      ∀ f, i = .fault f → IsLine f.message := by
    rintro url o i o' h f rfl
    exact (givesLined_tryPicture hs config url tc _).1 f (congrArg Prod.fst h)
  have hpicture : ∀ {url o shot o'}, pictureAt driver config url tc o = (.ok shot, o') →
      PictureLined shot :=
    fun h => (givesLined_tryPicture hs config _ tc _).2 _ (congrArg Prod.fst h)
  cases h with
  | addressA a => exact isLine_missing hurlA (isLine_of_refused htc.urlA a)
  | addressB a b => exact isLine_missing hurlB (isLine_of_refused htc.urlB b)
  | captureA accepted a told => exact isLine_of_captureTold hurlA (hfault a) told
  | captureB accepted a b told => exact isLine_of_captureTold hurlB (hfault b) told
  | same taken => decide
  | decodeA taken differ a told =>
    obtain ⟨between, hA, -⟩ := taken.pictures
    exact isLine_of_decodeTold hurlA (hpicture hA _ a) told
  | decodeB taken differ a b told =>
    obtain ⟨between, -, hB⟩ := taken.pictures
    exact isLine_of_decodeTold hurlB (hpicture hB _ b) told
  | mismatch taken differ a b named written first =>
    exact isLine_of_mismatch hout htc (.mismatch taken differ a b named written first)

end Reasons

end PageDiff.Run
