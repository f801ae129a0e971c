import PageDiff.Proofs.Json.Strings
import PageDiff.Proofs.Number.Readable

/-!
# Documents are read back

`parse` reads from what `render` writes the value that was written (`parse_render`), if no numeral
is too long, every double is one of the format, and arrays and objects do not stand too deep in each
other (`Value.Readable`).  The readers leave what stands behind a value, so the induction is over
the values of a document with anything behind them that closes a value: nothing, a comma or the end
of the line.  The fuel that is needed is counted in characters: every reader takes at least one
character of its own for the two calls that it makes.
-/

namespace PageDiff.Json

open PageDiff.Number PageDiff.Text

variable {cs rest left left' : List Char} {c : Char} {fuel room depth : Nat} {v : Value}
  {vs : List Value} {members : List (String × Value)}

/-! ### What stands around a value -/

/-- Whether a value is over: nothing follows, or a comma, or the end of the line. -/
def Closes : List Char → Prop := NextIs fun c => c = ',' ∨ c = '\n'

theorem Closes.ends (h : Closes rest) : Ends rest := by
  intro c hc
  rcases h c hc with rfl | rfl
  · decide
  · decide

theorem skipSpace_cons (h : isSpace c = false) (cs : List Char) :
    skipSpace (c :: cs) = c :: cs := by
  simp [skipSpace, h]

theorem skipSpace_newline (depth : Nat) (cs : List Char) :
    skipSpace (newline depth ++ cs) = skipSpace cs := by
  refine List.dropWhile_append_of_pos fun c hc => ?_
  rcases List.mem_cons.mp hc with rfl | hc
  · rfl
  · rw [List.eq_of_mem_replicate hc]
    rfl

/-- Whether a text starts like a value: with no blank, and not like the end of a container. -/
def StartsValue (cs : List Char) : Prop :=
  ∃ c ds, cs = c :: ds ∧ isSpace c = false ∧ c ≠ ']' ∧ c ≠ '\ufeff'

theorem startsValue_cons (h : isSpace c = false ∧ c ≠ ']' ∧ c ≠ '\ufeff') : StartsValue (c :: cs) :=
  ⟨c, cs, rfl, h⟩

theorem StartsValue.skipSpace (h : StartsValue cs) (rest : List Char) :
    skipSpace (cs ++ rest) = cs ++ rest := by
  obtain ⟨c, ds, rfl, hspace, -⟩ := h
  exact skipSpace_cons hspace _

/-- Whether a text starts like a value that has no parts. -/
def StartsScalar (cs : List Char) : Prop :=
  ∃ c ds, cs = c :: ds ∧ isSpace c = false ∧ c ∉ ['"', '[', '\x7b', ']', '\ufeff']

theorem startsScalar_cons (h : isSpace c = false ∧ c ∉ ['"', '[', '\x7b', ']', '\ufeff']) :
    StartsScalar (c :: cs) :=
  ⟨c, cs, rfl, h⟩

theorem StartsScalar.startsValue (h : StartsScalar cs) : StartsValue cs := by
  obtain ⟨c, ds, rfl, hspace, hc⟩ := h
  simp only [List.mem_cons, not_or] at hc
  exact startsValue_cons ⟨hspace, hc.2.2.2.1, hc.2.2.2.2.1⟩

theorem startsScalar_of_startsNumber (h : StartsNumber cs) : StartsScalar cs := by
  obtain ⟨negative, c, ds, rfl, hc⟩ := h
  cases negative with
  | true => exact startsScalar_cons (by decide)
  | false =>
    have hne {p : Char} (hp : p.isDigit = false) : c ≠ p := by
      rintro rfl
      rw [hc] at hp
      cases hp
    refine startsScalar_cons ⟨?_, ?_⟩
    · simp only [isSpace, Bool.or_eq_false_iff, beq_eq_false_iff_ne]
      exact ⟨⟨⟨hne (by decide), hne (by decide)⟩, hne (by decide)⟩, hne (by decide)⟩
    · simp only [List.mem_cons, List.not_mem_nil, or_false, not_or]
      exact ⟨hne (by decide), hne (by decide), hne (by decide), hne (by decide), hne (by decide)⟩

/-! ### Values of one part -/

/-- No constant starts like a number. -/
theorem readConstant_of_startsNumber (h : StartsNumber cs) (rest : List Char) :
    readConstant (cs ++ rest) = none := by
  obtain ⟨negative, c, ds, rfl, hc⟩ := h
  have hne {p : Char} (hp : p.isDigit = false) : p ≠ c := by
    rintro rfl
    rw [hc] at hp
    cases hp
  cases negative with
  | true =>
    have hI := hne (p := 'I') (by decide)
    simp [hyphened, readConstant, constants, stripPrefix?, hI]
  | false =>
    have hn := hne (p := 'n') (by decide)
    have ht := hne (p := 't') (by decide)
    have hf := hne (p := 'f') (by decide)
    have hN := hne (p := 'N') (by decide)
    have hI := hne (p := 'I') (by decide)
    have hminus := hne (p := '-') (by decide)
    simp [hyphened, readConstant, constants, stripPrefix?, hn, ht, hf, hN, hI, hminus]

theorem readScalar_of_scanNumber {n : Numeric} (h : StartsNumber cs)
    (hscan : scanNumber (cs ++ rest) = .ok (n, rest)) :
    readScalar (cs ++ rest) = .ok (.number n, rest) := by
  rw [readScalar, readConstant_of_startsNumber h rest]
  dsimp only
  rw [hscan]

/-- A number is read back. -/
theorem readScalar_number {n : Numeric} (h : n.Readable) (hrest : Closes rest) :
    readScalar (n.text.toList ++ rest) = .ok (.number n, rest) := by
  cases n with
  | int n =>
    exact readScalar_of_scanNumber (startsNumber_toString n) (scanNumber_toString h hrest.ends)
  | double x =>
    cases x with
    | nan => rfl
    | infinity negative => cases negative <;> rfl
    | finite s m e =>
      exact readScalar_of_scanNumber (startsNumber_text h) (scanNumber_text h hrest.ends)

theorem startsScalar_number {n : Numeric} (h : n.Readable) : StartsScalar n.text.toList := by
  cases n with
  | int n => exact startsScalar_of_startsNumber (startsNumber_toString n)
  | double x =>
    cases x with
    | nan => exact startsScalar_cons (by decide)
    | infinity negative =>
      cases negative with
      | true => exact startsScalar_cons (by decide)
      | false => exact startsScalar_cons (by decide)
    | finite s m e => exact startsScalar_of_startsNumber (startsNumber_text h)

theorem readValue_of_readScalar {r : Value × List Char} (h : StartsScalar cs)
    (hscalar : readScalar (cs ++ rest) = .ok r) :
    readValue (fuel + 1) room (cs ++ rest) = .ok r := by
  obtain ⟨c, ds, rfl, -, hc⟩ := h
  simp only [List.mem_cons, List.not_mem_nil, or_false, not_or] at hc
  obtain ⟨hquote, harray, hobject, -, -⟩ := hc
  rw [List.cons_append] at hscalar ⊢
  unfold readValue
  split
  · next heq => exact absurd (List.cons.inj heq).1 hquote
  · next heq => exact absurd (List.cons.inj heq).1 harray
  · next heq => exact absurd (List.cons.inj heq).1 hobject
  · exact hscalar

/-- Units are read back as the text they are. -/
theorem readValue_renderUnits (units : List UInt16) :
    readValue (fuel + 1) room (renderUnits units ++ rest) = .ok (.ofUnits units, rest) := by
  have hread := readUnits_escaped ('"' :: (units.flatMap escapeUnit ++ '"' :: rest)) units rest
  simp only [renderUnits, List.cons_append, List.append_assoc, List.nil_append, readValue, hread]

/-- A text is written by its units. -/
theorem renderAt_ofLoose (depth : Nat) (t : Loose) :
    renderAt depth (.ofLoose t) = renderUnits t.units := by
  unfold Value.ofLoose
  split
  · next s h => rw [← Loose.ofString_of_toString? h, renderAt, renderString, Loose.units_ofString]
  · rfl

/-- A list of texts is written by their units. -/
theorem renderItems_ofLoose (depth : Nat) (ts : List Loose) :
    renderItems depth (ts.map .ofLoose) =
      ts.flatMap fun t => ',' :: newline depth ++ renderUnits t.units := by
  induction ts with
  | nil => rfl
  | cons t ts ih => rw [List.map_cons, renderItems, ih, renderAt_ofLoose, List.flatMap_cons]

/-! ### Values of several parts -/

theorem readValue_array (hskip : skipSpace cs = left) (hne : left.head? ≠ some ']')
    (h : readItems fuel room left = .ok (vs, left')) :
    readValue (fuel + 1) (room + 1) ('[' :: cs) = .ok (.array vs, left') := by
  simp only [readValue, hskip]
  split
  · exact absurd rfl hne
  · simp only [h]

theorem readItems_last (hv : readValue fuel room cs = .ok (v, left))
    (hskip : skipSpace left = ']' :: left') :
    readItems (fuel + 1) room cs = .ok ([v], left') := by
  simp only [readItems, hv, hskip]

theorem readItems_more {after : List Char} (hv : readValue fuel room cs = .ok (v, left))
    (hskip : skipSpace left = ',' :: left')
    (h : readItems fuel room (skipSpace left') = .ok (vs, after)) :
    readItems (fuel + 1) room cs = .ok (v :: vs, after) := by
  simp only [readItems, hv, hskip, h]

theorem readValue_object (hskip : skipSpace cs = left) (hne : left.head? ≠ some '\x7d')
    (h : readMembers fuel room left = .ok (members, left')) :
    readValue (fuel + 1) (room + 1) ('\x7b' :: cs) = .ok (.object members, left') := by
  simp only [readValue, hskip]
  split
  · exact absurd rfl hne
  · simp only [h]

/-- A key is read back, with the colon behind it and the blank behind the colon. -/
theorem readUnits_key (key : String) (text : List Char) :
    ∃ cs start, renderString key ++ ':' :: ' ' :: text = '"' :: cs ∧ start = '"' :: cs ∧
      readUnits start cs = .ok (Utf16.encode key.toList, ':' :: ' ' :: text) := by
  refine ⟨(Utf16.encode key.toList).flatMap escapeUnit ++ '"' :: ':' :: ' ' :: text, _, ?_, rfl,
    readUnits_escaped _ _ _⟩
  simp [renderString, renderUnits]

theorem skipSpace_blank (h : skipSpace cs = cs) : skipSpace (' ' :: cs) = cs := h

theorem shown_encode (key : String) : (Loose.ofUnits (Utf16.encode key.toList)).shown = key := by
  rw [Loose.ofUnits_encode]
  exact Loose.shown_ofString key

theorem readMembers_last (key : String) (htext : skipSpace cs = cs)
    (hv : readValue fuel room cs = .ok (v, left)) (hskip : skipSpace left = '\x7d' :: left') :
    readMembers (fuel + 1) room (renderString key ++ ':' :: ' ' :: cs) =
      .ok ([(key, v)], left') := by
  obtain ⟨text, start, heq, rfl, hread⟩ := readUnits_key key cs
  have hcolon : skipSpace (':' :: ' ' :: cs) = ':' :: ' ' :: cs := rfl
  rw [heq]
  simp only [readMembers, hread, hcolon, skipSpace_blank htext, hv, shown_encode, hskip]

theorem readMembers_more {after : List Char} (key : String) (htext : skipSpace cs = cs)
    (hv : readValue fuel room cs = .ok (v, left)) (hskip : skipSpace left = ',' :: left')
    (h : readMembers fuel room (skipSpace left') = .ok (members, after)) :
    readMembers (fuel + 1) room (renderString key ++ ':' :: ' ' :: cs) =
      .ok ((key, v) :: members, after) := by
  obtain ⟨text, start, heq, rfl, hread⟩ := readUnits_key key cs
  have hcolon : skipSpace (':' :: ' ' :: cs) = ':' :: ' ' :: cs := rfl
  rw [heq]
  simp only [readMembers, hread, hcolon, skipSpace_blank htext, hv, shown_encode, hskip, h]

/-! ### All values -/

mutual

/-- Whether a value is read back where arrays and objects may stand in each other only as deep as
there is `room`: its numbers are, and its torn texts hold halves that stand alone, and split no
pair. -/
def Value.Readable (room : Nat) : Value → Prop
  | .null | .bool _ | .string _ => True
  | .number n => n.Readable
  | .torn t => t.toString? = none ∧ ¬ t.SplitsPair
  | .array vs => 0 < room ∧ ReadableItems (room - 1) vs
  | .object members => 0 < room ∧ ReadableMembers (room - 1) members

/-- Whether all items of an array are read back. -/
def ReadableItems (room : Nat) : List Value → Prop
  | [] => True
  | v :: vs => v.Readable room ∧ ReadableItems room vs

/-- Whether the values of all members of an object are read back. -/
def ReadableMembers (room : Nat) : List (String × Value) → Prop
  | [] => True
  | (_, v) :: members => v.Readable room ∧ ReadableMembers room members

end

theorem startsValue_renderAt (h : v.Readable room) (depth : Nat) :
    StartsValue (renderAt depth v) := by
  cases v with
  | null => exact startsValue_cons (by decide)
  | bool b =>
    cases b with
    | true => exact startsValue_cons (by decide)
    | false => exact startsValue_cons (by decide)
  | number n => exact (startsScalar_number h).startsValue
  | string s => exact startsValue_cons (by decide)
  | torn t => exact startsValue_cons (by decide)
  | array vs =>
    cases vs with
    | nil => exact startsValue_cons (by decide)
    | cons v vs =>
      simp only [renderAt, List.cons_append]
      exact startsValue_cons (by decide)
  | object members =>
    cases members with
    | nil => exact startsValue_cons (by decide)
    | cons m members =>
      obtain ⟨key, v⟩ := m
      simp only [renderAt, List.cons_append]
      exact startsValue_cons (by decide)

theorem closes_renderItems (depth : Nat) (vs : List Value) (outer : Nat) (rest : List Char) :
    Closes (renderItems depth vs ++ (newline outer ++ rest)) := by
  cases vs with
  | nil => exact nextIs_cons (.inr rfl)
  | cons v vs =>
    simp only [renderItems, List.cons_append]
    exact nextIs_cons (.inl rfl)

theorem closes_renderMembers (depth : Nat) (members : List (String × Value)) (outer : Nat)
    (rest : List Char) : Closes (renderMembers depth members ++ (newline outer ++ rest)) := by
  cases members with
  | nil => exact nextIs_cons (.inr rfl)
  | cons m members =>
    obtain ⟨key, v⟩ := m
    simp only [renderMembers, List.cons_append]
    exact nextIs_cons (.inl rfl)

mutual

/-- **A value is read back**, and what stands behind it is left. -/
theorem readValue_renderAt (depth : Nat) : ∀ (v : Value) {fuel room : Nat} {rest : List Char},
    v.Readable room → 2 * (renderAt depth v).length ≤ fuel → Closes rest →
      readValue fuel room (renderAt depth v ++ rest) = .ok (v, rest)
  | v, 0, room, rest, hv, hfuel, _ => by
    -- a value has a first character, for which there is fuel
    obtain ⟨c, cs, hstart, -⟩ := startsValue_renderAt hv depth
    rw [hstart, List.length_cons] at hfuel
    omega
  | .null, fuel + 1, _, rest, _, _, _ => rfl
  | .bool true, fuel + 1, _, rest, _, _, _ => rfl
  | .bool false, fuel + 1, _, rest, _, _, _ => rfl
  | .number n, fuel + 1, _, rest, hv, _, hrest =>
    readValue_of_readScalar (startsScalar_number hv) (readScalar_number hv hrest)
  | .string s, fuel + 1, _, rest, _, _, _ => by
    rw [renderAt, renderString, readValue_renderUnits, Value.ofUnits_encode]
  | .torn t, fuel + 1, _, rest, hv, _, _ => by
    obtain ⟨htorn, hpairs⟩ : t.toString? = none ∧ ¬ t.SplitsPair := hv
    have hread : Loose.ofUnits t.units = t := Loose.joined_eq_self_iff.mpr hpairs
    rw [renderAt, readValue_renderUnits, Value.ofUnits, hread, Value.ofLoose, htorn]
  | .array [], fuel + 1, room, rest, hv, _, _ => by
    obtain ⟨room, rfl⟩ := Nat.exists_eq_succ_of_ne_zero hv.1.ne'
    rfl
  | .array (v :: vs), fuel + 1, room, rest, hv, hfuel, _ => by
    obtain ⟨room, rfl⟩ := Nat.exists_eq_succ_of_ne_zero hv.1.ne'
    obtain ⟨hv, hvs⟩ : v.Readable room ∧ ReadableItems room vs := hv.2
    -- the two brackets pay for the call for the array and the one for its items
    simp only [renderAt, List.cons_append, List.length_cons, List.length_append, newline] at hfuel
    have hitems : readItems fuel room (renderAt (depth + 1) v ++ (renderItems (depth + 1) vs ++
        (newline depth ++ ']' :: rest))) = .ok (v :: vs, rest) :=
      readItems_renderItems (depth + 1) depth v vs hv hvs (by omega)
    have hstart := startsValue_renderAt hv (depth + 1)
    simp only [renderAt, List.cons_append, List.append_assoc, List.nil_append]
    refine readValue_array ?_ ?_ hitems
    · rw [skipSpace_newline, hstart.skipSpace]
    · obtain ⟨c, cs, heq, -, hc, -⟩ := hstart
      rw [heq]
      simpa using hc
  | .object [], fuel + 1, room, rest, hv, _, _ => by
    obtain ⟨room, rfl⟩ := Nat.exists_eq_succ_of_ne_zero hv.1.ne'
    rfl
  | .object ((key, v) :: members), fuel + 1, room, rest, hv, hfuel, _ => by
    obtain ⟨room, rfl⟩ := Nat.exists_eq_succ_of_ne_zero hv.1.ne'
    obtain ⟨hv, hmembers⟩ : v.Readable room ∧ ReadableMembers room members := hv.2
    simp only [renderAt, List.cons_append, List.length_cons, List.length_append, newline] at hfuel
    have hread : readMembers fuel room (renderString key ++ ':' :: ' ' ::
        (renderAt (depth + 1) v ++ (renderMembers (depth + 1) members ++
          (newline depth ++ '\x7d' :: rest)))) = .ok ((key, v) :: members, rest) :=
      readMembers_renderMembers (depth + 1) depth key v members hv hmembers (by omega)
    simp only [renderAt, List.cons_append, List.append_assoc, List.nil_append]
    refine readValue_object ?_ ?_ hread
    · rw [skipSpace_newline]
      rfl
    · simp [renderString, renderUnits]
  termination_by v => sizeOf v

/-- The items of an array are read back, up to its closing bracket. -/
theorem readItems_renderItems (depth outer : Nat) : ∀ (v : Value) (vs : List Value)
    {fuel room : Nat} {rest : List Char}, v.Readable room → ReadableItems room vs →
      2 * ((renderAt depth v).length + (renderItems depth vs).length) + 1 ≤ fuel →
      readItems fuel room
          (renderAt depth v ++ (renderItems depth vs ++ (newline outer ++ ']' :: rest))) =
        .ok (v :: vs, rest)
  | v, [], fuel + 1, room, rest, hv, _, hfuel => by
    have hread : readValue fuel room (renderAt depth v ++ (newline outer ++ ']' :: rest)) =
        .ok (v, newline outer ++ ']' :: rest) :=
      readValue_renderAt depth v hv (by omega) (closes_renderItems depth [] outer _)
    refine readItems_last hread ?_
    rw [skipSpace_newline]
    rfl
  | v, w :: vs, fuel + 1, room, rest, hv, hvs, hfuel => by
    obtain ⟨hw, hvs⟩ : w.Readable room ∧ ReadableItems room vs := hvs
    simp only [renderItems, List.cons_append, List.length_cons, List.length_append, newline]
      at hfuel
    have hread : readValue fuel room (renderAt depth v ++
        (renderItems depth (w :: vs) ++ (newline outer ++ ']' :: rest))) =
        .ok (v, renderItems depth (w :: vs) ++ (newline outer ++ ']' :: rest)) :=
      readValue_renderAt depth v hv (by omega) (closes_renderItems depth (w :: vs) outer _)
    have hmore : readItems fuel room (renderAt depth w ++
        (renderItems depth vs ++ (newline outer ++ ']' :: rest))) = .ok (w :: vs, rest) :=
      readItems_renderItems depth outer w vs hw hvs (by omega)
    have hcomma : skipSpace (renderItems depth (w :: vs) ++ (newline outer ++ ']' :: rest)) =
        ',' :: (newline depth ++ (renderAt depth w ++
          (renderItems depth vs ++ (newline outer ++ ']' :: rest)))) := by
      simp only [renderItems, List.cons_append, List.append_assoc]
      rfl
    refine readItems_more hread hcomma ?_
    rw [skipSpace_newline, (startsValue_renderAt hw depth).skipSpace, hmore]
  termination_by v vs => sizeOf (v :: vs)

/-- The members of an object are read back, up to its closing brace. -/
theorem readMembers_renderMembers (depth outer : Nat) : ∀ (key : String) (v : Value)
    (members : List (String × Value)) {fuel room : Nat} {rest : List Char}, v.Readable room →
      ReadableMembers room members →
      2 * ((renderAt depth v).length + (renderMembers depth members).length) + 1 ≤ fuel →
      readMembers fuel room
          (renderString key ++ ':' :: ' ' :: (renderAt depth v ++
            (renderMembers depth members ++ (newline outer ++ '\x7d' :: rest)))) =
        .ok ((key, v) :: members, rest)
  | key, v, [], fuel + 1, room, rest, hv, _, hfuel => by
    have hread : readValue fuel room (renderAt depth v ++ (newline outer ++ '\x7d' :: rest)) =
        .ok (v, newline outer ++ '\x7d' :: rest) :=
      readValue_renderAt depth v hv (by omega) (closes_renderMembers depth [] outer _)
    refine readMembers_last key ((startsValue_renderAt hv depth).skipSpace _) hread ?_
    rw [skipSpace_newline]
    rfl
  | key, v, (next, w) :: members, fuel + 1, room, rest, hv, hmembers, hfuel => by
    obtain ⟨hw, hmembers⟩ : w.Readable room ∧ ReadableMembers room members := hmembers
    simp only [renderMembers, List.cons_append, List.length_cons, List.length_append, newline]
      at hfuel
    have hread : readValue fuel room (renderAt depth v ++
        (renderMembers depth ((next, w) :: members) ++ (newline outer ++ '\x7d' :: rest))) =
        .ok (v, renderMembers depth ((next, w) :: members) ++ (newline outer ++ '\x7d' :: rest)) :=
      readValue_renderAt depth v hv (by omega)
        (closes_renderMembers depth ((next, w) :: members) outer _)
    have hmore : readMembers fuel room (renderString next ++ ':' :: ' ' :: (renderAt depth w ++
        (renderMembers depth members ++ (newline outer ++ '\x7d' :: rest)))) =
        .ok ((next, w) :: members, rest) :=
      readMembers_renderMembers depth outer next w members hw hmembers (by omega)
    have hcomma : skipSpace (renderMembers depth ((next, w) :: members) ++
        (newline outer ++ '\x7d' :: rest)) =
        ',' :: (newline depth ++ (renderString next ++ ':' :: ' ' :: (renderAt depth w ++
          (renderMembers depth members ++ (newline outer ++ '\x7d' :: rest))))) := by
      simp only [renderMembers, List.cons_append, List.append_assoc]
      rfl
    refine readMembers_more key ((startsValue_renderAt hv depth).skipSpace _) hread hcomma ?_
    rw [skipSpace_newline]
    exact hmore
  termination_by _ v members => sizeOf v + sizeOf members

end

/-! ### Ends of lines -/

theorem return_not_mem_hyphened {negative : Bool} (h : '\r' ∉ cs) :
    '\r' ∉ hyphened negative cs := by
  unfold hyphened
  split_ifs
  · simpa using h
  · exact h

theorem return_not_mem_number {n : Numeric} (h : n.Readable) : '\r' ∉ n.text.toList := by
  cases n with
  | int n =>
    rw [Numeric.text, toList_toString]
    exact return_not_mem_hyphened ((isDigits_toDigits _).not_mem (by decide))
  | double x =>
    cases x with
    | nan => decide
    | infinity negative => cases negative <;> decide
    | finite s m e =>
      obtain ⟨text, d, htext, hspells, -⟩ := exists_spells h
      rw [Numeric.text, htext]
      exact return_not_mem_hyphened (hspells.not_mem (by decide) (by decide))

theorem return_not_mem_escapeUnit (u : UInt16) : '\r' ∉ escapeUnit u := by
  unfold escapeUnit
  split_ifs with _ _ _ _ _ _ _ hprint
  all_goals try decide
  · have hlo : 0x20 ≤ u.toNat := UInt16.le_iff_toNat_le.mp hprint.1
    have hhi : u.toNat < 0x7F := UInt16.lt_iff_toNat_lt.mp hprint.2
    rw [List.mem_singleton]
    intro heq
    have hnat := toNat_charOfNat (n := u.toNat) (.inl (by omega))
    rw [← heq] at hnat
    have hreturn : ('\r' : Char).toNat = 13 := rfl
    omega
  · simp only [escapeCode, List.mem_cons, not_or]
    exact ⟨by decide, by decide, fun h => absurd (isHexDigit_of_mem_hexFixed h) (by decide)⟩

theorem return_not_mem_renderUnits (units : List UInt16) : '\r' ∉ renderUnits units := by
  simp [renderUnits, return_not_mem_escapeUnit]

theorem return_not_mem_newline (depth : Nat) : '\r' ∉ newline depth := by
  simp [newline]

mutual

/-- A document ends no line with a return. -/
theorem return_not_mem_renderAt (depth : Nat) : ∀ (v : Value) {room : Nat}, v.Readable room →
    '\r' ∉ renderAt depth v
  | .null, _, _ => by simp [renderAt]
  | .bool true, _, _ => by simp [renderAt]
  | .bool false, _, _ => by simp [renderAt]
  | .number _, _, h => return_not_mem_number h
  | .string _, _, _ => return_not_mem_renderUnits _
  | .torn _, _, _ => return_not_mem_renderUnits _
  | .array [], _, _ => by simp [renderAt]
  | .array (v :: vs), _, h => by
    have hv := return_not_mem_renderAt (depth + 1) v h.2.1
    have hvs := return_not_mem_renderItems (depth + 1) vs h.2.2
    simp [renderAt, return_not_mem_newline, hv, hvs]
  | .object [], _, _ => by simp [renderAt]
  | .object ((key, v) :: members), _, h => by
    have hv := return_not_mem_renderAt (depth + 1) v h.2.1
    have hmembers := return_not_mem_renderMembers (depth + 1) members h.2.2
    simp [renderAt, renderString, return_not_mem_renderUnits, return_not_mem_newline, hv, hmembers]
  termination_by v => sizeOf v

theorem return_not_mem_renderItems (depth : Nat) : ∀ (vs : List Value) {room : Nat},
    ReadableItems room vs → '\r' ∉ renderItems depth vs
  | [], _, _ => List.not_mem_nil
  | v :: vs, _, h => by
    have hv := return_not_mem_renderAt depth v h.1
    have hvs := return_not_mem_renderItems depth vs h.2
    simp [renderItems, return_not_mem_newline, hv, hvs]
  termination_by vs => sizeOf vs

theorem return_not_mem_renderMembers (depth : Nat) : ∀ (members : List (String × Value))
    {room : Nat}, ReadableMembers room members → '\r' ∉ renderMembers depth members
  | [], _, _ => List.not_mem_nil
  | (key, v) :: members, _, h => by
    have hv := return_not_mem_renderAt depth v h.1
    have hmembers := return_not_mem_renderMembers depth members h.2
    simp [renderMembers, renderString, return_not_mem_renderUnits, return_not_mem_newline, hv,
      hmembers]
  termination_by members => sizeOf members

end

/-! ### Documents -/

theorem return_not_mem_render (h : v.Readable room) : '\r' ∉ (render v).toList := by
  rw [render, String.toList_ofList]
  exact return_not_mem_renderAt 0 v h

/-- **A document is read back.** -/
theorem parse_render (h : v.Readable depthLimit) : parse (render v).toList = .ok v := by
  obtain ⟨c, cs, hstart, hspace, -, hbom⟩ := startsValue_renderAt h 0
  have hread : readValue (2 * (renderAt 0 v).length + 2) depthLimit (renderAt 0 v ++ []) =
      .ok (v, []) :=
    readValue_renderAt 0 v h (by omega) (nextIs_nil _)
  rw [List.append_nil] at hread
  have hskip : skipSpace (renderAt 0 v) = renderAt 0 v := by
    rw [hstart, skipSpace_cons hspace]
  have hfirst : (renderAt 0 v).head? ≠ some '\ufeff' := by
    rw [hstart]
    simpa using hbom
  have hend : skipSpace [] = [] := rfl
  rw [render, String.toList_ofList, parse]
  simp only [if_neg hfirst, hskip, hread, hend]

end PageDiff.Json
