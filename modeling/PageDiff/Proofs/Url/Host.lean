import Mathlib.Data.List.DropRight
import PageDiff.Proofs.Url.Extension

/-!
# Hosts of origins

An origin is accepted for its network location, and a network location need not name a host: a user
alone is one, and so is a port alone.  `Hostless` describes these network locations.  Main statement
(`host_eq_nil_iff`): of all network locations in order exactly the `Hostless` ones have no host, so
that brackets always enclose one.
-/

namespace PageDiff.Url

open PageDiff.Text

variable {netloc : List Char} {origin : String}

/-! ### Behind the user -/

/-- A text that is empty or ends in `c`. -/
def EndsIn (c : Char) (cs : List Char) : Prop := cs = [] ∨ cs.getLast? = some c

/-- A text comes apart at its last `c`. -/
theorem exists_afterLast (c : Char) (cs : List Char) :
    c ∉ afterLast c cs ∧ ∃ front, cs = front ++ afterLast c cs ∧ EndsIn c front := by
  refine ⟨?_, cs.rdropWhile (· != c), List.rdropWhile_append_rtakeWhile.symm, ?_⟩
  · intro hmem
    simpa using List.mem_rtakeWhile_imp (p := (· != c)) hmem
  · by_cases hnil : cs.rdropWhile (· != c) = []
    · exact .inl hnil
    · have hlast := List.rdropWhile_last_not (· != c) cs hnil
      refine .inr ?_
      rw [List.getLast?_eq_some_getLast hnil]
      simpa using hlast

theorem afterLast_append {c : Char} {front back : List Char} (hfront : EndsIn c front)
    (hback : c ∉ back) : afterLast c (front ++ back) = back := by
  have hall : ∀ d ∈ back.reverse, (d != c) = true := by
    intro d hd
    rw [bne_iff_ne]
    rintro rfl
    exact hback (List.mem_reverse.mp hd)
  have hstop : front.reverse.takeWhile (· != c) = [] := by
    rcases hfront with rfl | hlast
    · rfl
    · obtain ⟨cs, rfl⟩ := List.getLast?_eq_some_iff.mp hlast
      rw [List.reverse_concat, List.takeWhile_cons_of_neg (by simp)]
  rw [afterLast, List.reverse_append, List.takeWhile_append_of_pos hall, hstop, List.append_nil,
    List.reverse_reverse]

/-! ### Brackets -/

theorem before_eq_nil_iff {c : Char} {cs : List Char} :
    before c cs = [] ↔ cs = [] ∨ cs.head? = some c := by
  cases cs with
  | nil => simp [before]
  | cons d cs =>
    by_cases hd : d = c
    · simp [before, hd]
    · simp [before, hd]

/-- The host that is looked at between brackets is the host. -/
theorem eq_host_of_bracketedHost {found : List Char} (h : bracketedHost netloc = .ok found) :
    found = host netloc := by
  unfold bracketedHost at h
  unfold host
  by_cases hb : (afterLast '@' netloc).contains '['
  · simp only [hb, if_true] at h ⊢
    split at h
    · cases h
    · split at h
      · exact (Except.ok.inj h).symm
      · split at h
        · exact (Except.ok.inj h).symm
        · cases h
  · simp only [hb, if_false, Bool.false_eq_true] at h ⊢
    exact (Except.ok.inj h).symm

/-- Nothing between brackets is no address. -/
theorem checkBracketedHost_nil : checkBracketedHost [] = .error (.notAddress "") := by
  decide +kernel

/-- Brackets in order enclose a host. -/
theorem host_ne_nil_of_mem (hb : checkBrackets netloc = .ok ()) (hmem : '[' ∈ netloc) :
    host netloc ≠ [] := by
  unfold checkBrackets at hb
  rw [List.contains_iff_mem.mpr hmem] at hb
  split at hb
  · obtain ⟨found, hfound, hcheck⟩ := bind_eq_ok.mp hb
    rw [← eq_host_of_bracketedHost hfound]
    rintro rfl
    rw [checkBracketedHost_nil] at hcheck
    cases hcheck
  · next hopen _ => cases hopen
  · cases hb

/-! ### Network locations without a host -/

/-- The text of a port: nothing, or a colon and digits. -/
def IsPortText (cs : List Char) : Prop :=
  cs = [] ∨ ∃ digits, cs = ':' :: digits ∧ ∀ c ∈ digits, c.isDigit = true

/-- A network location without a host: perhaps a user with its sign behind it, perhaps a port. -/
def Hostless (netloc : List Char) : Prop :=
  ∃ user port, netloc = user ++ port ∧ EndsIn '@' user ∧ IsPortText port

theorem IsPortText.not_mem {cs : List Char} (h : IsPortText cs) {c : Char} (hcolon : c ≠ ':')
    (hdigit : c.isDigit = false) : c ∉ cs := by
  rcases h with rfl | ⟨digits, rfl, hdigits⟩
  · exact List.not_mem_nil
  · intro hmem
    rcases List.mem_cons.mp hmem with rfl | hmem
    · exact hcolon rfl
    · rw [hdigits c hmem] at hdigit
      cases hdigit

theorem Hostless.host_eq_nil (h : Hostless netloc) : host netloc = [] := by
  obtain ⟨user, port, rfl, huser, hport⟩ := h
  have hplace : afterLast '@' (user ++ port) = port :=
    afterLast_append huser (hport.not_mem (by decide) (by decide))
  have hopen : port.contains '[' = false := by
    simpa using hport.not_mem (c := '[') (by decide) (by decide)
  unfold host
  simp only [hplace, hopen, Bool.false_eq_true, if_false]
  rw [before_eq_nil_iff]
  rcases hport with rfl | ⟨digits, rfl, -⟩
  · exact .inl rfl
  · exact .inr rfl

/-- The port of a network location in order is written in digits. -/
theorem isDigit_of_mem_portText {n : Option Nat} (h : port? netloc = .ok n) :
    ∀ c ∈ portText netloc, c.isDigit = true := by
  unfold port? at h
  by_cases hnil : portText netloc = []
  · simp [hnil]
  · by_cases hall : (portText netloc).all Char.isDigit
    · exact List.all_eq_true.mp hall
    · simp [hnil, hall] at h

theorem hostless_of_host_eq_nil (hok : NetlocOk netloc) (h : host netloc = []) :
    Hostless netloc := by
  have hmem : '[' ∉ netloc := fun hmem => host_ne_nil_of_mem hok.brackets hmem h
  obtain ⟨-, front, hcut, hfront⟩ := exists_afterLast '@' netloc
  have hopen : (afterLast '@' netloc).contains '[' = false := by
    rw [hcut, List.mem_append, not_or] at hmem
    simpa using hmem.2
  obtain ⟨n, hport⟩ := hok.port
  have hdigits := isDigit_of_mem_portText hport
  unfold host at h
  unfold portText at hdigits
  simp only [hopen, Bool.false_eq_true, if_false, before_eq_nil_iff] at h hdigits
  refine ⟨front, afterLast '@' netloc, hcut, hfront, h.imp_right fun hcolon => ?_⟩
  obtain ⟨digits, hplace⟩ := List.head?_eq_some_iff.mp hcolon
  refine ⟨digits, hplace, fun c hc => hdigits c ?_⟩
  rw [hplace]
  simpa [after] using hc

/-- Of the network locations in order, exactly those without a host have an empty one. -/
theorem host_eq_nil_iff (hok : NetlocOk netloc) : host netloc = [] ↔ Hostless netloc :=
  ⟨hostless_of_host_eq_nil hok, Hostless.host_eq_nil⟩

/-! ### Origins -/

/-- A text with a scheme starts with a letter. -/
theorem exists_head?_of_scheme {cs : List Char} (h : (partsOf cs).scheme ≠ []) :
    ∃ c, cs.head? = some c ∧ c.isAlpha = true := by
  have hscheme : isScheme (before ':' cs) = true := by
    by_contra hno
    refine h ?_
    show (splitScheme cs).1 = []
    rw [splitScheme, if_neg (by simp [hno])]
  cases cs with
  | nil => cases hscheme
  | cons c cs =>
    by_cases hc : c = ':'
    · simp [before, hc, isScheme] at hscheme
    · rw [before, List.takeWhile_cons_of_pos (by simpa using hc), isScheme, Bool.and_eq_true]
        at hscheme
      exact ⟨c, rfl, hscheme.1⟩

/-- An accepted origin has a scheme and a network location.  It has a host unless its network
location is a user, a port, or both; brackets enclose a host. -/
structure Sited (origin : String) (parts : Parts) : Prop where
  split : split origin.toList = .ok parts
  scheme : parts.scheme ≠ []
  netloc : parts.netloc ≠ []
  host_iff : host parts.netloc ≠ [] ↔ ¬ Hostless parts.netloc
  host_of_mem : '[' ∈ parts.netloc → host parts.netloc ≠ []

theorem sited_of_checkOrigin (h : checkOrigin origin = .ok ()) : ∃ parts, Sited origin parts := by
  obtain ⟨hcheck, hs, hn⟩ := checkOrigin_eq_ok.mp h
  obtain ⟨hclean, -, hok⟩ := check_eq_ok.mp hcheck
  refine ⟨partsOf origin.toList, ?_, hs, hn, not_congr (host_eq_nil_iff hok),
    host_ne_nil_of_mem hok.brackets⟩
  rw [split_eq_ok, hclean.cleaned_eq]
  exact ⟨hok.brackets, hok.delimiters, rfl⟩

end PageDiff.Url
