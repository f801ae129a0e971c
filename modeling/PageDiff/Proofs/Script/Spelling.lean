import PageDiff.Proofs.Script.Scope
import PageDiff.Proofs.Text.Letters

/-!
# Spellings of a line

A line may be spelled in several ways: with blank characters around it, with its directive and its
kind of capture in either case, and with any gaps behind these two words.  `Line.Respelled` lists
these ways.  Main result (`Line.Respelled.alike`): all of them are read as lines that say the same,
and lines that say the same do the same to every state (`Line.Alike.obey`).
-/

namespace PageDiff.Script

open PageDiff.Text

/-! ### Lines that say the same -/

/-- Two lines that say the same: they are read alike, but the kind of a capture may be written in
another way, and so may a line that nobody understands. -/
inductive Line.Alike : Line → Line → Prop
  | same (line : Line) : Alike line line
  | unknown (text text' : String) : Alike (.unknown text) (.unknown text')
  | capture {args args' : String} {kind kind' rest : List Char}
      (fields : splitField args.toList = (kind, rest))
      (fields' : splitField args'.toList = (kind', rest))
      (kinds : CaptureKind.ofField? kind = CaptureKind.ofField? kind') :
      Alike (.directive .capture args) (.directive .capture args')

namespace Line.Alike

variable {line line' line'' : Line}

theorem symm (h : Alike line line') : Alike line' line := by
  cases h with
  | same => exact .same line
  | unknown text text' => exact .unknown text' text
  | capture fields fields' kinds => exact .capture fields' fields kinds.symm

theorem trans (h : Alike line line') (h' : Alike line' line'') : Alike line line'' := by
  cases h with
  | same => exact h'
  | unknown text text' =>
    cases h' with
    | same => exact .unknown text text'
    | unknown _ text'' => exact .unknown text text''
  | capture fields fields' kinds =>
    cases h' with
    | same => exact .capture fields fields' kinds
    | capture fields₂ fields₂' kinds₂ =>
      obtain ⟨rfl, rfl⟩ := Prod.mk.inj (fields'.symm.trans fields₂)
      exact .capture fields fields₂' (kinds.trans kinds₂)

/-- Lines that say the same are both refused, or do the same. -/
theorem obey (h : Alike line line') (s : State) :
    (s.obey line).toOption = (s.obey line').toOption := by
  cases h with
  | same => rfl
  | unknown text text' => rfl
  | @capture args args' kind kind' rest fields fields' kinds =>
    show (s.capture args).toOption = (s.capture args').toOption
    unfold State.capture
    rw [fields, fields']
    simp only [kinds]
    cases CaptureKind.ofField? kind' with
    | none => split_ifs <;> rfl
    | some known => cases known <;> rfl

end Line.Alike

/-! ### First fields -/

variable {lead word word' gap gap' kind kind' rest : List Char}

/-- A run of spaces and tabs. -/
structure IsGapRun (gap : List Char) : Prop where
  nonempty : gap ≠ []
  gaps : ∀ c ∈ gap, isGap c = true

instance (gap : List Char) : Decidable (IsGapRun gap) :=
  decidable_of_iff (gap ≠ [] ∧ gap.all isGap = true)
    ⟨fun h => ⟨h.1, List.all_eq_true.mp h.2⟩, fun h => ⟨h.1, List.all_eq_true.mpr h.2⟩⟩

/-- A word without spaces and tabs. -/
structure IsWord (word : List Char) : Prop where
  nonempty : word ≠ []
  whole : ∀ c ∈ word, isGap c = false

instance (word : List Char) : Decidable (IsWord word) :=
  decidable_of_iff (word ≠ [] ∧ word.any isGap = false)
    ⟨fun h => ⟨h.1, by simpa using h.2⟩, fun h => ⟨h.1, by simpa using h.2⟩⟩

theorem not_isGap_of_isLetter (c : Char) (h : IsLetter c) : isGap c = false := by
  by_contra hgap
  have hblank := isBlank_of_isGap (by simpa using hgap)
  rw [not_isBlank_of_isLetter h] at hblank
  cases hblank

theorem IsWord.of_sameLetters (h : IsWord word) (hsame : SameLetters word word') :
    IsWord word' := by
  refine ⟨?_, hsame.forall_eq not_isGap_of_isLetter h.whole⟩
  rintro rfl
  exact h.nonempty (List.forall₂_nil_right_iff.mp hsame)

/-- A word at the front belongs to the first field. -/
theorem IsWord.splitField_append (h : IsWord word) (rest : List Char) :
    splitField (word ++ rest) = (word ++ (splitField rest).1, (splitField rest).2) := by
  have hw : ∀ c ∈ word, (!isGap c) = true := fun c hc => by simp [h.whole c hc]
  unfold splitField
  rw [List.takeWhile_append_of_pos hw, List.dropWhile_append_of_pos hw]

theorem IsGapRun.splitField_append (h : IsGapRun gap) (rest : List Char) :
    splitField (gap ++ rest) = ([], rest.dropWhile isGap) := by
  obtain ⟨c, cs, rfl⟩ := List.exists_cons_of_ne_nil h.nonempty
  have hc : isGap c = true := h.gaps c List.mem_cons_self
  unfold splitField
  rw [List.cons_append, List.takeWhile_cons_of_neg (by simp [hc]),
    List.dropWhile_cons_of_neg (by simp [hc]), ← List.cons_append,
    List.dropWhile_append_of_pos h.gaps]

theorem splitField_word_gap (hw : IsWord word) (hg : IsGapRun gap) (rest : List Char) :
    splitField (word ++ (gap ++ rest)) = (word, rest.dropWhile isGap) := by
  rw [hw.splitField_append, hg.splitField_append, List.append_nil]

theorem IsWord.dropWhile_isGap (h : IsWord word) (rest : List Char) :
    (word ++ rest).dropWhile isGap = word ++ rest := by
  obtain ⟨c, cs, rfl⟩ := List.exists_cons_of_ne_nil h.nonempty
  have hc : ¬ isGap c = true := by simp [h.whole c List.mem_cons_self]
  exact List.dropWhile_cons_of_neg hc

/-! ### Lines without blank ends -/

namespace Line

theorem head?_eq_hash_iff (h : SameLetters word word') (hw : word ≠ []) (rest : List Char) :
    (word ++ rest).head? = some '#' ↔ (word' ++ rest).head? = some '#' := by
  cases h with
  | nil => exact absurd rfl hw
  | @cons c d a b hc _ =>
    have hhash : (c == '#') = (d == '#') := by
      refine SameLetter.congr (p := (· == '#')) ?_ hc
      intro x hx
      rw [beq_eq_false_iff_ne]
      rintro rfl
      simp [IsLetter] at hx
    show some c = some '#' ↔ some d = some '#'
    rw [Option.some_inj, Option.some_inj, ← beq_iff_eq, hhash, beq_iff_eq]

/-- The letters of a directive may have either case. -/
theorem alike_of_letters (hw : IsWord word) (hsame : SameLetters word word') (rest : List Char) :
    Alike (.ofStripped (word ++ rest)) (.ofStripped (word' ++ rest)) := by
  have hw' := hw.of_sameLetters hsame
  unfold ofStripped
  rw [hw.splitField_append, hw'.splitField_append]
  by_cases hhash : (word ++ rest).head? = some '#'
  · rw [if_pos hhash, if_pos ((head?_eq_hash_iff hsame hw.nonempty rest).mp hhash)]
    exact .same _
  · rw [if_neg hhash, if_neg (mt (head?_eq_hash_iff hsame hw.nonempty rest).mpr hhash)]
    have hk : Keyword.ofField? (word' ++ (splitField rest).1) =
        Keyword.ofField? (word ++ (splitField rest).1) := by
      rw [Keyword.ofField?, Keyword.ofField?, capitals_append, capitals_append,
        hsame.capitals_eq]
    simp only [List.append_eq_nil_iff, hw.nonempty, hw'.nonempty, false_and, if_false, hk]
    cases Keyword.ofField? (word ++ (splitField rest).1) with
    | none => exact .unknown _ _
    | some keyword => exact .same _

/-- What is read of a line with a gap behind its first word. -/
theorem ofStripped_word_gap (hw : IsWord word) (hg : IsGapRun gap) (rest : List Char) :
    ofStripped (word ++ (gap ++ rest)) =
      if word.head? = some '#' then .comment
      else
        match Keyword.ofField? word with
        | some keyword => .directive keyword (String.ofList (rest.dropWhile isGap))
        | none => .unknown (String.ofList (word ++ (gap ++ rest))) := by
  have hhead : (word ++ (gap ++ rest)).head? = word.head? := by
    obtain ⟨c, cs, rfl⟩ := List.exists_cons_of_ne_nil hw.nonempty
    rfl
  unfold ofStripped
  rw [hhead, splitField_word_gap hw hg]
  refine if_congr Iff.rfl rfl ?_
  exact if_neg hw.nonempty

/-- The gap behind a directive may be any gap. -/
theorem alike_of_gap (hw : IsWord word) (hg : IsGapRun gap) (hg' : IsGapRun gap')
    (rest : List Char) :
    Alike (.ofStripped (word ++ (gap ++ rest))) (.ofStripped (word ++ (gap' ++ rest))) := by
  rw [ofStripped_word_gap hw hg, ofStripped_word_gap hw hg']
  by_cases hhash : word.head? = some '#'
  · rw [if_pos hhash, if_pos hhash]
    exact .same _
  · rw [if_neg hhash, if_neg hhash]
    cases Keyword.ofField? word with
    | none => exact .unknown _ _
    | some keyword => exact .same _

/-- What is read of a capture with a word behind it. -/
theorem ofStripped_capture (hw : IsWord word) (hcapture : Keyword.ofField? word = some .capture)
    (hg : IsGapRun gap) (hk : IsWord kind) (rest : List Char) :
    ofStripped (word ++ (gap ++ (kind ++ rest))) =
      .directive .capture (String.ofList (kind ++ rest)) := by
  have hhash : word.head? ≠ some '#' := by
    intro hhead
    obtain ⟨c, cs, rfl⟩ := List.exists_cons_of_ne_nil hw.nonempty
    obtain rfl : c = '#' := Option.some.inj hhead
    -- no keyword begins with that character
    have hfirst : ∀ e ∈ Keyword.table, e.1.head? ≠ some '#' := by decide
    obtain ⟨l₁, l₂, htable, -⟩ := List.lookup_eq_some_iff.mp hcapture
    refine hfirst (capitals ('#' :: cs), .capture) ?_ rfl
    rw [htable]
    simp
  rw [ofStripped_word_gap hw hg, if_neg hhash, hcapture, hk.dropWhile_isGap]

/-- The letters of a kind of capture may have either case. -/
theorem alike_of_kindLetters (hw : IsWord word)
    (hcapture : Keyword.ofField? word = some .capture) (hg : IsGapRun gap) (hk : IsWord kind)
    (hsame : SameLetters kind kind') (rest : List Char) :
    Alike (.ofStripped (word ++ (gap ++ (kind ++ rest))))
      (.ofStripped (word ++ (gap ++ (kind' ++ rest)))) := by
  have hk' := hk.of_sameLetters hsame
  have hfields : ∀ {field : List Char}, IsWord field →
      splitField (String.ofList (field ++ rest)).toList =
        (field ++ (splitField rest).1, (splitField rest).2) := by
    intro field hfield
    rw [String.toList_ofList, hfield.splitField_append]
  have hkinds : CaptureKind.ofField? (kind ++ (splitField rest).1) =
      CaptureKind.ofField? (kind' ++ (splitField rest).1) := by
    rw [CaptureKind.ofField?, CaptureKind.ofField?, capitals_append, capitals_append,
      hsame.capitals_eq]
  rw [ofStripped_capture hw hcapture hg hk, ofStripped_capture hw hcapture hg hk']
  exact .capture (hfields hk) (hfields hk') hkinds

/-- The gap behind a kind of capture may be any gap. -/
theorem alike_of_kindGap (hw : IsWord word) (hcapture : Keyword.ofField? word = some .capture)
    (hg : IsGapRun gap) (hk : IsWord kind) {between between' : List Char}
    (hb : IsGapRun between) (hb' : IsGapRun between') (rest : List Char) :
    Alike (.ofStripped (word ++ (gap ++ (kind ++ (between ++ rest)))))
      (.ofStripped (word ++ (gap ++ (kind ++ (between' ++ rest))))) := by
  have hfields : ∀ {run : List Char}, IsGapRun run →
      splitField (String.ofList (kind ++ (run ++ rest))).toList =
        (kind, rest.dropWhile isGap) := by
    intro run hrun
    rw [String.toList_ofList, splitField_word_gap hk hrun]
  rw [ofStripped_capture hw hcapture hg hk, ofStripped_capture hw hcapture hg hk]
  exact .capture (hfields hb) (hfields hb') rfl

/-! ### Spellings -/

/-- `word` is what a line begins with, apart from the blank characters `lead` in front of it. -/
structure Opens (lead word : List Char) : Prop where
  blanks : ∀ c ∈ lead, isBlank c = true
  visible : ∀ c ∈ word.head?, isBlank c = false
  isWord : IsWord word

instance (lead word : List Char) : Decidable (Opens lead word) :=
  decidable_of_iff (lead.all isBlank = true ∧ word.head?.all (!isBlank ·) = true ∧ IsWord word)
    ⟨fun h => ⟨List.all_eq_true.mp h.1, by simpa [Option.all_eq_true] using h.2.1, h.2.2⟩,
      fun h => ⟨List.all_eq_true.mpr h.1, by simpa [Option.all_eq_true] using h.2, h.3⟩⟩

/-- Ways to spell a line anew.  A directive is the word that the line begins with, or the front of
this word; what follows it is `rest`. -/
inductive Respelled : List Char → List Char → Prop
  /-- With blank characters around it. -/
  | padded {left right : List Char} (raw : List Char) (hleft : ∀ c ∈ left, isBlank c = true)
      (hright : ∀ c ∈ right, isBlank c = true) : Respelled raw (left ++ raw ++ right)
  /-- With a carriage return at its end. -/
  | returned (raw : List Char) : Respelled raw (raw ++ ['\r'])
  /-- With letters of its directive in the other case. -/
  | letters {lead word word' : List Char} (rest : List Char) (opens : Opens lead word)
      (same : SameLetters word word') :
      Respelled (lead ++ (word ++ rest)) (lead ++ (word' ++ rest))
  /-- With another gap behind its directive. -/
  | gap {lead word gap gap' : List Char} (rest : List Char) (opens : Opens lead word)
      (old : IsGapRun gap) (new : IsGapRun gap') :
      Respelled (lead ++ (word ++ (gap ++ rest))) (lead ++ (word ++ (gap' ++ rest)))
  /-- With letters of a kind of capture in the other case. -/
  | kindLetters {lead word gap kind kind' : List Char} (rest : List Char)
      (opens : Opens lead word) (capture : Keyword.ofField? word = some .capture)
      (between : IsGapRun gap) (named : IsWord kind) (same : SameLetters kind kind') :
      Respelled (lead ++ (word ++ (gap ++ (kind ++ rest))))
        (lead ++ (word ++ (gap ++ (kind' ++ rest))))
  /-- With another gap behind a kind of capture. -/
  | kindGap {lead word gap kind behind behind' : List Char} (rest : List Char)
      (opens : Opens lead word) (capture : Keyword.ofField? word = some .capture)
      (between : IsGapRun gap) (named : IsWord kind) (old : IsGapRun behind)
      (new : IsGapRun behind') :
      Respelled (lead ++ (word ++ (gap ++ (kind ++ (behind ++ rest)))))
        (lead ++ (word ++ (gap ++ (kind ++ (behind' ++ rest)))))

namespace Opens

theorem strip_eq (h : Opens lead word) (rest : List Char) :
    strip (lead ++ (word ++ rest)) = (word ++ rest).rdropWhile isBlank := by
  refine strip_eq_rdropWhile h.blanks ?_
  obtain ⟨c, cs, rfl⟩ := List.exists_cons_of_ne_nil h.isWord.nonempty
  exact h.visible

theorem of_sameLetters (h : Opens lead word) (hsame : SameLetters word word') :
    Opens lead word' := by
  refine ⟨h.blanks, ?_, h.isWord.of_sameLetters hsame⟩
  cases hsame with
  | nil => exact absurd rfl h.isWord.nonempty
  | @cons c d a b hc _ =>
    intro x hx
    obtain rfl : d = x := Option.some.inj hx
    rw [← hc.isBlank_eq]
    exact h.visible c rfl

theorem not_all_blank (h : Opens lead word) : ¬ ∀ c ∈ word, isBlank c = true := by
  intro hall
  obtain ⟨c, cs, rfl⟩ := List.exists_cons_of_ne_nil h.isWord.nonempty
  have hblank := hall c List.mem_cons_self
  rw [h.visible c rfl] at hblank
  cases hblank

end Opens

/-- A word that is not blank altogether stays a word when it loses its blank end. -/
theorem trimmed_isWord (h : IsWord word) (hvisible : ¬ ∀ c ∈ word, isBlank c = true) :
    IsWord (word.rdropWhile isBlank) := by
  refine ⟨fun hnil => hvisible (List.rdropWhile_eq_nil_iff.mp hnil), ?_⟩
  intro c hc
  exact h.whole c ((List.rdropWhile_prefix isBlank word).mem hc)

theorem blank_of_isGapRun (h : IsGapRun gap) (hrest : ∀ c ∈ rest, isBlank c = true) :
    ∀ c ∈ gap ++ rest, isBlank c = true :=
  List.forall_mem_append.mpr ⟨fun c hc => isBlank_of_isGap (h.gaps c hc), hrest⟩

/-- What is dropped at the end of a line is dropped at the end of its last part. -/
theorem rdropWhile_append₂ {back : List Char} (h : ¬ ∀ c ∈ rest, isBlank c = true) :
    (word ++ (back ++ rest)).rdropWhile isBlank = word ++ (back ++ rest.rdropWhile isBlank) := by
  have hback : ¬ ∀ c ∈ back ++ rest, isBlank c = true :=
    fun hall => h (List.forall_mem_append.mp hall).2
  rw [rdropWhile_append_of_not_all hback, rdropWhile_append_of_not_all h]

namespace Respelled

theorem alike_letters (rest : List Char) (opens : Opens lead word)
    (same : SameLetters word word') :
    Alike (.read (lead ++ (word ++ rest))) (.read (lead ++ (word' ++ rest))) := by
  rw [read, read, opens.strip_eq, (opens.of_sameLetters same).strip_eq]
  by_cases hrest : ∀ c ∈ rest, isBlank c = true
  · rw [rdropWhile_append_of_all hrest, rdropWhile_append_of_all hrest]
    have hsame := same.rdropWhile fun _ => not_isBlank_of_isLetter
    have halike := alike_of_letters (trimmed_isWord opens.isWord opens.not_all_blank) hsame []
    rwa [List.append_nil, List.append_nil] at halike
  · rw [rdropWhile_append_of_not_all hrest, rdropWhile_append_of_not_all hrest]
    exact alike_of_letters opens.isWord same _

theorem alike_gap (rest : List Char) (opens : Opens lead word) (old : IsGapRun gap)
    (new : IsGapRun gap') :
    Alike (.read (lead ++ (word ++ (gap ++ rest)))) (.read (lead ++ (word ++ (gap' ++ rest)))) := by
  rw [read, read, opens.strip_eq, opens.strip_eq]
  by_cases hrest : ∀ c ∈ rest, isBlank c = true
  · rw [rdropWhile_append_of_all (blank_of_isGapRun old hrest),
      rdropWhile_append_of_all (blank_of_isGapRun new hrest)]
    exact .same _
  · rw [rdropWhile_append₂ hrest, rdropWhile_append₂ hrest]
    exact alike_of_gap opens.isWord old new _

theorem alike_kindLetters (rest : List Char) (opens : Opens lead word)
    (capture : Keyword.ofField? word = some .capture) (between : IsGapRun gap)
    (named : IsWord kind) (same : SameLetters kind kind') :
    Alike (.read (lead ++ (word ++ (gap ++ (kind ++ rest)))))
      (.read (lead ++ (word ++ (gap ++ (kind' ++ rest))))) := by
  rw [read, read, opens.strip_eq, opens.strip_eq]
  by_cases hrest : ∀ c ∈ rest, isBlank c = true
  · by_cases hkind : ∀ c ∈ kind, isBlank c = true
    · -- there is no letter among blank characters
      have hkind' : ∀ c ∈ kind', isBlank c = true :=
        same.forall_eq (fun _ => not_isBlank_of_isLetter) hkind
      rw [rdropWhile_append_of_all
          (blank_of_isGapRun between (List.forall_mem_append.mpr ⟨hkind, hrest⟩)),
        rdropWhile_append_of_all
          (blank_of_isGapRun between (List.forall_mem_append.mpr ⟨hkind', hrest⟩))]
      exact .same _
    · have hsame := same.rdropWhile fun _ => not_isBlank_of_isLetter
      have hkind' : ¬ ∀ c ∈ kind', isBlank c = true := by
        intro hall
        refine hkind (SameLetters.forall_eq (fun _ => not_isBlank_of_isLetter) ?_ hall)
        exact same.symm
      have halike := alike_of_kindLetters opens.isWord capture between
        (trimmed_isWord named hkind) hsame []
      rw [List.append_nil, List.append_nil] at halike
      simp only [← List.append_assoc] at halike ⊢
      rw [rdropWhile_append_of_all hrest, rdropWhile_append_of_all hrest,
        rdropWhile_append_of_not_all hkind, rdropWhile_append_of_not_all hkind']
      exact halike
  · have hback : ∀ {field : List Char}, ¬ ∀ c ∈ field ++ rest, isBlank c = true :=
      fun hall => hrest (List.forall_mem_append.mp hall).2
    rw [rdropWhile_append₂ hback, rdropWhile_append₂ hback, rdropWhile_append_of_not_all hrest,
      rdropWhile_append_of_not_all hrest]
    exact alike_of_kindLetters opens.isWord capture between named same _

theorem alike_kindGap {behind behind' : List Char} (rest : List Char) (opens : Opens lead word)
    (capture : Keyword.ofField? word = some .capture) (between : IsGapRun gap)
    (named : IsWord kind) (old : IsGapRun behind) (new : IsGapRun behind') :
    Alike (.read (lead ++ (word ++ (gap ++ (kind ++ (behind ++ rest))))))
      (.read (lead ++ (word ++ (gap ++ (kind ++ (behind' ++ rest)))))) := by
  rw [read, read, opens.strip_eq, opens.strip_eq]
  by_cases hrest : ∀ c ∈ rest, isBlank c = true
  · simp only [← List.append_assoc]
    rw [List.append_assoc _ behind, List.append_assoc _ behind',
      rdropWhile_append_of_all (blank_of_isGapRun old hrest),
      rdropWhile_append_of_all (blank_of_isGapRun new hrest)]
    exact .same _
  · have hback : ∀ {run : List Char}, ¬ ∀ c ∈ kind ++ (run ++ rest), isBlank c = true :=
      fun hall => hrest (List.forall_mem_append.mp (List.forall_mem_append.mp hall).2).2
    rw [rdropWhile_append₂ hback, rdropWhile_append₂ hback, rdropWhile_append₂ hrest,
      rdropWhile_append₂ hrest]
    exact alike_of_kindGap opens.isWord capture between named old new _

/-- All spellings of a line say the same. -/
theorem alike {raw raw' : List Char} (h : Respelled raw raw') :
    Alike (.read raw) (.read raw') := by
  cases h with
  | padded raw hleft hright =>
    rw [read, read, strip_padded hleft hright]
    exact .same _
  | returned raw =>
    have hreturn : strip (raw ++ ['\r']) = strip raw := trimBy_concat (by decide) raw
    rw [read, read, hreturn]
    exact .same _
  | letters rest opens same => exact alike_letters rest opens same
  | gap rest opens old new => exact alike_gap rest opens old new
  | kindLetters rest opens capture between named same =>
    exact alike_kindLetters rest opens capture between named same
  | kindGap rest opens capture between named old new =>
    exact alike_kindGap rest opens capture between named old new

end Respelled

end Line

end PageDiff.Script
