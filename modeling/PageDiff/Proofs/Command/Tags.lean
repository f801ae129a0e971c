import Mathlib.Data.List.TakeWhile
import PageDiff.Command.Markup

/-!
# Live tags in printed text

What is printed is put together from texts of the program's own and from texts that come from
elsewhere, which are escaped.  `liveTags` reads the tags of a printed text: a tag is live unless an
odd number of backslashes stands in front of it.  An escaped text has no live tag, whatever the
program prints around it, but two escaped texts may make one together: a bracket that the first one
opens can be closed by the second.  Main statement (`liveTags_sublist`).
-/

namespace PageDiff.Command.Markup

variable {cs s t o : List Char} {odd : Bool}

/-! ### Brackets -/

/-- The brackets of a text in order. -/
def brackets (cs : List Char) : List Char := cs.filter fun c => c == '[' || c == ']'

@[simp] theorem brackets_nil : brackets [] = [] := rfl

@[simp] theorem brackets_append (cs ds : List Char) :
    brackets (cs ++ ds) = brackets cs ++ brackets ds := List.filter_append ..

theorem brackets_cons_of_not {c : Char} (h : c ≠ '[' ∧ c ≠ ']') :
    brackets (c :: cs) = brackets cs := by
  simp [brackets, h.1, h.2]

@[simp] theorem brackets_cons_opening : brackets ('[' :: cs) = '[' :: brackets cs := by
  simp [brackets]

@[simp] theorem brackets_cons_backslash : brackets ('\\' :: cs) = brackets cs :=
  brackets_cons_of_not (by decide)

/-- A tag starts with a bracket if the start of a name follows and the next bracket closes it. -/
theorem startsTag_opening (cs : List Char) : startsTag ('[' :: cs) =
    (cs.head?.any startsName && (brackets cs).head? == some ']') := by
  cases cs with
  | nil => rfl
  | cons c cs =>
    have hhead : (cs.dropWhile fun c => c != '[' && c != ']').head? = (brackets cs).head? := by
      rw [brackets, List.head?_filter, List.find?_eq_head?_dropWhile_not]
      congr 2
      funext c
      simp [bne]
    rw [startsTag, hhead]
    by_cases hname : startsName c = true
    · have hc : c ≠ '[' ∧ c ≠ ']' := by
        constructor
        · rintro rfl
          exact absurd hname (by decide)
        · rintro rfl
          exact absurd hname (by decide)
      rw [brackets_cons_of_not hc]
      rfl
    · simp [hname]

theorem startsTag_of_ne {c : Char} (h : c ≠ '[') : startsTag (c :: cs) = false := by
  cases cs <;> simp [startsTag, h]

/-- Escaping adds no bracket and takes none away. -/
theorem brackets_escapeTags (cs : List Char) : brackets (escapeTags cs) = brackets cs := by
  induction cs with
  | nil => rfl
  | cons c cs ih =>
    have hcons : ∀ ds, brackets (c :: ds) = brackets [c] ++ brackets ds :=
      fun ds => brackets_append [c] ds
    rw [escapeTags]
    split
    · rw [brackets_cons_backslash, hcons, ih, ← hcons]
    · rw [hcons, ih, ← hcons]

theorem brackets_escape (s : String) : brackets (escape s).toList = brackets s.toList := by
  unfold escape
  simp only [String.toList_ofList]
  split
  · simp [brackets_escapeTags]
  · exact brackets_escapeTags _

/-! ### Live tags -/

/-- The live tags of a text in order.  `odd` tells whether the number of backslashes in front of the
text is odd. -/
def liveTags (odd : Bool) : List Char → List (List Char)
  | [] => []
  | c :: cs =>
    if c = '\\' then liveTags (!odd) cs
    else if !odd && startsTag (c :: cs) then
      (c :: cs.takeWhile (· != ']') ++ [']']) :: liveTags false cs
    else liveTags false cs

@[simp] theorem liveTags_backslash : liveTags odd ('\\' :: cs) = liveTags (!odd) cs := by
  simp [liveTags]

theorem liveTags_of_not_starts {c : Char} (hc : c ≠ '\\') (h : startsTag (c :: cs) = false) :
    liveTags odd (c :: cs) = liveTags false cs := by
  rw [liveTags, if_neg hc, h]
  simp

/-- A tag behind an odd number of backslashes is dead. -/
theorem liveTags_true_cons {c : Char} (hc : c ≠ '\\') :
    liveTags true (c :: cs) = liveTags false cs := by
  rw [liveTags, if_neg hc]
  simp

/-! ### Escaped texts -/

/-- The second text does not close a bracket that the first one leaves open. -/
def NoTagAcross (s t : List Char) : Prop :=
  (brackets s).getLast? ≠ some '[' ∨ (brackets t).head? ≠ some ']'

theorem NoTagAcross.tail {c : Char} (h : NoTagAcross (c :: s) t) : NoTagAcross s t := by
  refine h.imp_left fun hlast hs => hlast ?_
  have hcons : brackets (c :: s) = brackets [c] ++ brackets s := brackets_append [c] s
  rw [hcons, List.getLast?_append, hs]
  rfl

theorem head?_escapeTags (c : Char) (cs : List Char) :
    (escapeTags (c :: cs)).head? = some '\\' ∨ (escapeTags (c :: cs)).head? = some c := by
  rw [escapeTags]
  split
  · exact .inl rfl
  · exact .inr rfl

/-- A bracket that starts no tag starts none when the text behind it has been escaped. -/
theorem not_startsTag_append (hs : startsTag ('[' :: s) = false) (h : NoTagAcross ('[' :: s) t) :
    startsTag ('[' :: (escapeTags s ++ t)) = false := by
  rw [startsTag_opening] at hs ⊢
  rw [brackets_append, brackets_escapeTags]
  by_contra hc
  simp only [Bool.not_eq_false, Bool.and_eq_true, beq_iff_eq] at hc
  obtain ⟨hname, hclose⟩ := hc
  cases hb : brackets s with
  | nil =>
    -- the text behind the escaped one would have to close the bracket
    rw [hb] at hclose
    rcases h with h | h
    · rw [brackets_cons_opening, hb] at h
      exact h rfl
    · exact h hclose
  | cons b bs =>
    rw [hb] at hclose hs
    cases s with
    | nil => cases hb
    | cons c cs =>
      have hhead : (escapeTags (c :: cs) ++ t).head? = (escapeTags (c :: cs)).head? := by
        rcases head?_escapeTags c cs with he | he <;> rw [List.head?_append, he] <;> rfl
      rw [hhead] at hname
      rcases head?_escapeTags c cs with he | he
      · rw [he] at hname
        exact absurd hname (by decide)
      · rw [he] at hname
        rw [List.cons_append, List.head?_cons] at hclose
        rw [List.head?_cons, List.head?_cons, hname, hclose] at hs
        cases hs

theorem guardsTag_opening (cs : List Char) : guardsTag ('[' :: cs) = startsTag ('[' :: cs) := by
  simp [guardsTag]

theorem guardsTag_backslash (cs : List Char) : guardsTag ('\\' :: cs) = guardsTag cs := by
  simp [guardsTag]

theorem escapeTags_of_guards {c : Char} (hc : c = '\\' ∨ c = '[') (h : guardsTag (c :: cs) = true) :
    escapeTags (c :: cs) = '\\' :: c :: escapeTags cs := by
  rw [escapeTags, h]
  rcases hc with rfl | rfl <;> rfl

theorem escapeTags_of_not_guards {c : Char} (h : guardsTag (c :: cs) = false) :
    escapeTags (c :: cs) = c :: escapeTags cs := by
  rw [escapeTags, h]
  simp

theorem escapeTags_of_ne {c : Char} (hc : c ≠ '\\') (hopen : c ≠ '[') :
    escapeTags (c :: cs) = c :: escapeTags cs := by
  simp [escapeTags, hc, hopen]

/-- **Escaped text is dead.**  An escaped text has no live tag, unless the text behind it closes a
bracket that it leaves open.  Backslashes in front of the escaped text may be counted wrong, but not
if it starts with a tag. -/
theorem liveTags_escapeTags_append (hodd : guardsTag s = true → odd = false) (h : NoTagAcross s t) :
    ∃ odd', liveTags odd (escapeTags s ++ t) = liveTags odd' t := by
  induction s generalizing odd with
  | nil => exact ⟨odd, rfl⟩
  | cons c s ih =>
    have hrest := h.tail
    by_cases hslash : c = '\\'
    · subst hslash
      rw [guardsTag_backslash] at hodd
      cases hg : guardsTag s with
      | true =>
        -- the backslash is doubled, so the number of them stays even
        rw [escapeTags_of_guards (.inl rfl) (by rw [guardsTag_backslash, hg])]
        rw [List.cons_append, List.cons_append, liveTags_backslash, liveTags_backslash,
          Bool.not_not]
        exact ih hodd hrest
      | false =>
        rw [escapeTags_of_not_guards (by rw [guardsTag_backslash, hg]), List.cons_append,
          liveTags_backslash]
        exact ih (fun hs => absurd hs (by simp [hg])) hrest
    · by_cases hopen : c = '['
      · subst hopen
        rw [guardsTag_opening] at hodd
        cases hg : startsTag ('[' :: s) with
        | true =>
          -- one backslash in front of the tag makes their number odd
          rw [escapeTags_of_guards (.inr rfl) (by rw [guardsTag_opening, hg]), hodd hg]
          rw [List.cons_append, List.cons_append, liveTags_backslash, Bool.not_false,
            liveTags_true_cons hslash]
          exact ih (fun _ => rfl) hrest
        | false =>
          rw [escapeTags_of_not_guards (by rw [guardsTag_opening, hg]), List.cons_append,
            liveTags_of_not_starts hslash (not_startsTag_append hg h)]
          exact ih (fun _ => rfl) hrest
      · rw [escapeTags_of_ne hslash hopen, List.cons_append,
          liveTags_of_not_starts hslash (startsTag_of_ne hopen)]
        exact ih (fun _ => rfl) hrest

theorem liveTags_escape_append {u : String} (hodd : odd = false) (h : NoTagAcross u.toList t) :
    ∃ odd', liveTags odd ((escape u).toList ++ t) = liveTags odd' t := by
  unfold escape
  simp only [String.toList_ofList]
  split
  · have hacross : NoTagAcross u.toList ('\\' :: t) := by simpa [NoTagAcross] using h
    obtain ⟨odd', hlive⟩ := liveTags_escapeTags_append (fun _ => hodd) hacross
    refine ⟨!odd', ?_⟩
    rw [List.append_assoc]
    exact hlive.trans liveTags_backslash
  · exact liveTags_escapeTags_append (fun _ => hodd) h

/-! ### Own texts -/

/-- A text of the program's own: it is not empty, has no backslash and leaves no bracket open. -/
def OwnText (o : List Char) : Prop :=
  o ≠ [] ∧ '\\' ∉ o ∧ (brackets o).getLast? ≠ some '['

instance : DecidablePred OwnText := fun o =>
  inferInstanceAs (Decidable (o ≠ [] ∧ '\\' ∉ o ∧ (brackets o).getLast? ≠ some '['))

theorem ne_backslash_of_not_mem {c : Char} (h : '\\' ∉ c :: cs) : c ≠ '\\' :=
  fun hc => h (by rw [hc]; exact List.mem_cons_self)

/-- Without an open bracket a text starts a tag by itself or not at all. -/
theorem startsTag_append {c : Char} (h : (brackets (c :: o)).getLast? ≠ some '[')
    (t : List Char) : startsTag (c :: (o ++ t)) = startsTag (c :: o) := by
  by_cases hopen : c = '['
  · subst hopen
    rw [brackets_cons_opening] at h
    rw [startsTag_opening, startsTag_opening, brackets_append]
    cases hb : brackets o with
    | nil =>
      rw [hb] at h
      exact absurd rfl h
    | cons b bs =>
      cases o with
      | nil => cases hb
      | cons d o => rfl
  · rw [startsTag_of_ne hopen, startsTag_of_ne hopen]

theorem takeWhile_append_of_mem {c : Char} (h : c ∈ o) (t : List Char) :
    (o ++ t).takeWhile (· != c) = o.takeWhile (· != c) := by
  rw [List.takeWhile_append, if_neg]
  intro hlength
  have hall := List.takeWhile_eq_self_iff.mp
    ((List.takeWhile_prefix (· != c) (l := o)).eq_of_length hlength)
  simpa using hall c h

theorem closing_mem_of_startsTag (h : startsTag ('[' :: o) = true) : ']' ∈ o := by
  rw [startsTag_opening, Bool.and_eq_true, beq_iff_eq] at h
  exact (List.mem_filter.mp (List.mem_of_mem_head? h.2)).1

/-- What stands behind an own text does not change its tags. -/
theorem liveTags_append (hslash : '\\' ∉ o) (hlast : (brackets o).getLast? ≠ some '[')
    (hodd : o = [] → odd = false) (t : List Char) :
    liveTags odd (o ++ t) = liveTags odd o ++ liveTags false t := by
  induction o generalizing odd with
  | nil =>
    rw [hodd rfl]
    rfl
  | cons c o ih =>
    have hc := ne_backslash_of_not_mem hslash
    have hrest := @ih false (fun hmem => hslash (List.mem_cons_of_mem _ hmem))
      (fun ho => hlast ?_) fun _ => rfl
    · rw [List.cons_append, liveTags, liveTags, if_neg hc, if_neg hc, startsTag_append hlast,
        hrest]
      split
      · next hstarts =>
        have hopen : c = '[' := by
          by_contra hne
          rw [startsTag_of_ne hne, Bool.and_false] at hstarts
          cases hstarts
        subst hopen
        have hclose := closing_mem_of_startsTag (Bool.and_eq_true_iff.mp hstarts).2
        rw [takeWhile_append_of_mem hclose]
        rfl
      · rfl
    · have hcons : brackets (c :: o) = brackets [c] ++ brackets o := brackets_append [c] o
      rw [hcons, List.getLast?_append, ho]
      rfl

theorem liveTags_own_append (h : OwnText o) (t : List Char) :
    liveTags odd (o ++ t) = liveTags odd o ++ liveTags false t :=
  liveTags_append h.2.1 h.2.2 (fun ho => absurd ho h.1) t

/-- Backslashes in front of an own text can only take its first tag away. -/
theorem liveTags_own_sublist (h : OwnText o) : (liveTags odd o).Sublist (liveTags false o) := by
  cases odd with
  | false => exact List.Sublist.refl _
  | true =>
    cases o with
    | nil => exact List.Sublist.refl _
    | cons c o =>
      have hc := ne_backslash_of_not_mem h.2.1
      rw [liveTags_true_cons hc, liveTags, if_neg hc]
      split
      · exact List.sublist_cons_self _ _
      · exact List.Sublist.refl _

/-! ### What is printed -/

/-- A piece of a printed text. -/
inductive Piece
  /-- The program's own. -/
  | own (text : String)
  /-- From elsewhere, and therefore escaped. -/
  | foreign (text : String)

def Piece.text : Piece → String
  | .own text => text
  | .foreign text => escape text

/-- The tags that the program has written itself. -/
def Piece.tags : Piece → List (List Char)
  | .own text => liveTags false text.toList
  | .foreign _ => []

/-- A text put together from pieces. -/
def markup : List Piece → String
  | [] => ""
  | p :: ps => p.text ++ markup ps

/-- Pieces in which no text from elsewhere is directly behind another one, or closes a bracket that
one before it has left open. -/
inductive Separate : List Piece → Prop
  | nil : Separate []
  | own {text : String} {ps : List Piece} (text_own : OwnText text.toList) (rest : Separate ps) :
      Separate (.own text :: ps)
  | foreign {text : String} {ps : List Piece} (across : NoTagAcross text.toList (markup ps).toList)
      (next : ∀ text' ps', ps ≠ .foreign text' :: ps') (rest : Separate ps) :
      Separate (.foreign text :: ps)

theorem noTagAcross_of_head (h : (brackets t).head? ≠ some ']') : NoTagAcross s t := .inr h

namespace Separate

theorem last {text : String} : Separate [.foreign text] :=
  .foreign (noTagAcross_of_head (by decide)) (fun _ _ h => List.cons_ne_nil _ _ h.symm) .nil

theorem before {text own : String} {ps : List Piece}
    (across : NoTagAcross text.toList (markup (.own own :: ps)).toList)
    (rest : Separate (.own own :: ps)) : Separate (.foreign text :: .own own :: ps) :=
  .foreign across (fun _ _ h => Piece.noConfusion (List.cons.inj h).1) rest

end Separate

/-- **Only own tags are live.**  The live tags of a text that is put together from separate pieces
are tags of the program's own, in their order. -/
theorem Separate.liveTags_sublist {ps : List Piece} (h : Separate ps)
    (hodd : ∀ text ps', ps = .foreign text :: ps' → odd = false) :
    (liveTags odd (markup ps).toList).Sublist (ps.flatMap Piece.tags) := by
  induction h generalizing odd with
  | nil => exact List.Sublist.refl _
  | own text_own _ ih =>
    rw [markup, String.toList_append, List.flatMap_cons]
    simp only [Piece.text, Piece.tags]
    rw [liveTags_own_append text_own]
    exact (liveTags_own_sublist text_own).append (ih fun _ _ _ => rfl)
  | @foreign text ps across next _ ih =>
    obtain ⟨odd', hlive⟩ := liveTags_escape_append (hodd _ _ rfl) across
    rw [markup, String.toList_append, List.flatMap_cons]
    simp only [Piece.text, Piece.tags, List.nil_append]
    rw [hlive]
    exact ih fun text' ps' hps => absurd hps (next text' ps')

end PageDiff.Command.Markup
