import PageDiff.Text.Utf8

/-!
# Reading encoded texts

Every text is read back from its bytes (`decode_encode`).  A character has one to four bytes.  What
the first of them promises is a finite fact about small numbers, one for each length; the others
carry six bits each (`continued_cons`).
-/

namespace PageDiff.Text.Utf8

/-! ### Bytes behind the first one -/

/-- A byte with six bits of a code point. -/
def trail (k : Nat) : UInt8 := .ofNat (k % 0x40 + 0x80)

theorem toNat_trail (k : Nat) : (trail k).toNat = k % 0x40 + 0x80 := by
  rw [trail, UInt8.toNat_ofNat']
  omega

theorem continued_cons {lo hi : UInt8} {ranges : List (UInt8 × UInt8)} {n k : Nat}
    {bs : List UInt8} {r : Nat × List UInt8} (hlo : lo.toNat ≤ k % 0x40 + 0x80)
    (hhi : k % 0x40 + 0x80 ≤ hi.toNat) (h : continued ranges (n * 64 + k % 0x40) bs = .ok r) :
    continued ((lo, hi) :: ranges) n (trail k :: bs) = .ok r := by
  have hrange : lo ≤ trail k ∧ trail k ≤ hi := by
    rw [UInt8.le_iff_toNat_le, UInt8.le_iff_toNat_le, toNat_trail]
    exact ⟨hlo, hhi⟩
  have hbits : (trail k).toNat - 0x80 = k % 0x40 := by
    rw [toNat_trail]
    omega
  rw [continued, if_pos hrange, hbits, h]

/-- Most bytes behind the first one may be any that carry six bits. -/
theorem continued_cons_any {ranges : List (UInt8 × UInt8)} {n k : Nat} {bs : List UInt8}
    {r : Nat × List UInt8} (h : continued ranges (n * 64 + k % 0x40) bs = .ok r) :
    continued ((0x80, 0xBF) :: ranges) n (trail k :: bs) = .ok r := by
  refine continued_cons ?_ ?_ h
  · show 0x80 ≤ k % 0x40 + 0x80
    omega
  · show k % 0x40 + 0x80 ≤ 0xBF
    omega

/-! ### First bytes -/

theorem lead_one : ∀ v < 0x80, lead (.ofNat v) = some (v, []) := by decide +kernel

theorem lead_two : ∀ k < 0x20,
    k < 2 ∨ lead (.ofNat (k % 0x20 + 0xC0)) = some (k, [(0x80, 0xBF)]) := by
  decide +kernel

/-- The range of the second of three bytes: no overlong forms, and no surrogates. -/
def secondOfThree (k : Nat) : UInt8 × UInt8 :=
  if k = 0 then (0xA0, 0xBF) else if k = 0xD then (0x80, 0x9F) else (0x80, 0xBF)

theorem lead_three : ∀ k < 0x10,
    lead (.ofNat (k % 0x10 + 0xE0)) = some (k, [secondOfThree k, (0x80, 0xBF)]) := by
  decide +kernel

/-- The range of the second of four bytes: no overlong forms, and nothing above the last code
point. -/
def secondOfFour (k : Nat) : UInt8 × UInt8 :=
  if k = 0 then (0x90, 0xBF) else if k = 4 then (0x80, 0x8F) else (0x80, 0xBF)

theorem lead_four : ∀ k < 5,
    lead (.ofNat (k % 8 + 0xF0)) = some (k, [secondOfFour k, (0x80, 0xBF), (0x80, 0xBF)]) := by
  decide +kernel

/-! ### Characters -/

/-- A first byte that promises what follows it. -/
def Promises (b : UInt8) (bs : List UInt8) (point : Nat) (rest : List UInt8) : Prop :=
  ∃ n ranges, lead b = some (n, ranges) ∧ continued ranges n bs = .ok (point, rest)

theorem promises_two {v : Nat} (hlo : 0x80 ≤ v) (hhi : v ≤ 0x7FF) (rest : List UInt8) :
    Promises (.ofNat (v / 64 % 0x20 + 0xC0)) (trail v :: rest) v rest := by
  have hlead := (lead_two (v / 64) (by omega)).resolve_left (by omega)
  refine ⟨_, _, hlead, continued_cons_any ?_⟩
  rw [continued, show v / 64 * 64 + v % 0x40 = v by omega]

theorem promises_three {v : Nat} (hlo : 0x800 ≤ v) (hhi : v ≤ 0xFFFF)
    (hvalid : v < 0xD800 ∨ 0xDFFF < v) (rest : List UInt8) :
    Promises (.ofNat (v / 4096 % 0x10 + 0xE0)) (trail (v / 64) :: trail v :: rest) v rest := by
  refine ⟨_, _, lead_three (v / 4096) (by omega), ?_⟩
  have hlast : continued [(0x80, 0xBF)] (v / 4096 * 64 + v / 64 % 0x40) (trail v :: rest) =
      .ok (v, rest) := by
    refine continued_cons_any ?_
    rw [continued, show (v / 4096 * 64 + v / 64 % 0x40) * 64 + v % 0x40 = v by omega]
  unfold secondOfThree
  split
  · refine continued_cons ?_ ?_ hlast
    · show 0xA0 ≤ v / 64 % 0x40 + 0x80
      omega
    · show v / 64 % 0x40 + 0x80 ≤ 0xBF
      omega
  · split
    · refine continued_cons ?_ ?_ hlast
      · show 0x80 ≤ v / 64 % 0x40 + 0x80
        omega
      · show v / 64 % 0x40 + 0x80 ≤ 0x9F
        omega
    · exact continued_cons_any hlast

theorem promises_four {v : Nat} (hlo : 0x10000 ≤ v) (hhi : v ≤ 0x10FFFF) (rest : List UInt8) :
    Promises (.ofNat (v / 262144 % 8 + 0xF0))
      (trail (v / 4096) :: trail (v / 64) :: trail v :: rest) v rest := by
  refine ⟨_, _, lead_four (v / 262144) (by omega), ?_⟩
  have hlast : continued [(0x80, 0xBF), (0x80, 0xBF)] (v / 262144 * 64 + v / 4096 % 0x40)
      (trail (v / 64) :: trail v :: rest) = .ok (v, rest) := by
    refine continued_cons_any (continued_cons_any ?_)
    rw [continued, show ((v / 262144 * 64 + v / 4096 % 0x40) * 64 + v / 64 % 0x40) * 64 + v % 0x40 =
      v by omega]
  unfold secondOfFour
  split
  · refine continued_cons ?_ ?_ hlast
    · show 0x90 ≤ v / 4096 % 0x40 + 0x80
      omega
    · show v / 4096 % 0x40 + 0x80 ≤ 0xBF
      omega
  · split
    · refine continued_cons ?_ ?_ hlast
      · show 0x80 ≤ v / 4096 % 0x40 + 0x80
        omega
      · show v / 4096 % 0x40 + 0x80 ≤ 0x8F
        omega
    · exact continued_cons_any hlast

theorem exists_promises (c : Char) (rest : List UInt8) :
    ∃ b bs, encodeChar c ++ rest = b :: bs ∧ Promises b bs c.toNat rest := by
  have hvalid : c.toNat < 0xD800 ∨ 0xDFFF < c.toNat ∧ c.toNat < 0x110000 := c.valid
  unfold encodeChar
  fun_cases String.utf8EncodeChar c with
  | case1 v h =>
    exact ⟨_, _, rfl, v, [], lead_one v (Nat.lt_succ_of_le h), rfl⟩
  | case2 v h1 h2 =>
    exact ⟨_, _, rfl, promises_two (by omega) h2 rest⟩
  | case3 v h1 h2 h3 =>
    exact ⟨_, _, rfl, promises_three (by omega) h3 (hvalid.imp_right And.left) rest⟩
  | case4 v h1 h2 h3 =>
    have hhi : v < 0x110000 := by
      rcases hvalid with h | ⟨-, h⟩
      · exact Nat.lt_trans h (by decide)
      · exact h
    exact ⟨_, _, rfl, promises_four (by omega) (by omega) rest⟩

/-! ### Texts -/

theorem decodeFirst_of_promises {b : UInt8} {bs rest : List UInt8} {c : Char}
    (h : Promises b bs c.toNat rest) : ∃ hlen, decodeFirst b bs = .ok (c, ⟨rest, hlen⟩) := by
  obtain ⟨n, ranges, hlead, hcont⟩ := h
  refine ⟨length_of_continued hcont, ?_⟩
  unfold decodeFirst
  rw [hlead]
  simp only
  split
  · next point rest' heq =>
    rw [hcont] at heq
    cases heq
    rw [Char.ofNat_toNat]
  · next seen reason heq =>
    rw [hcont] at heq
    cases heq

theorem decodeFrom_encode (position : Nat) (cs : List Char) :
    decodeFrom position (encode cs) = .ok cs := by
  induction cs generalizing position with
  | nil => rw [encode, List.flatMap_nil, decodeFrom]
  | cons c cs ih =>
    obtain ⟨b, bs, hbytes, hp⟩ := exists_promises c (encode cs)
    obtain ⟨hlen, hfirst⟩ := decodeFirst_of_promises hp
    rw [encode, List.flatMap_cons, ← encode, hbytes, decodeFrom]
    simp only [hfirst, ih]

/-- Every text is read back from its bytes. -/
@[simp] theorem decode_encode (cs : List Char) : decode (encode cs) = .ok cs :=
  decodeFrom_encode 0 cs

end PageDiff.Text.Utf8
