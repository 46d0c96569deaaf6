import PlanetCharlu.Lib.Readers

/-!
# Numbers in JSON texts

The number of Python's `json` scanner: an integer, then a fraction and an exponent where
they are well formed. A number is taken as far as it goes, so what it is read as depends
on its characters and on the fact that none of a number follows.

Floats are a parameter: their texts are numbers with a fraction or an exponent, or one of
three names.
-/

namespace Json

open Readers

section Numbers

def isNumberChar (c : Char) : Bool :=
  c.isDigit || c == '.' || c == 'e' || c == 'E' || c == '+' || c == '-'

/-- What follows does not go on with a number. -/
def Stops (rest : List Char) : Prop := ∀ c ∈ rest.head?, isNumberChar c = false

/-- The parts of a number that `NUMBER_RE` finds. -/
structure NumberText where
  integer : List Char
  frac : List Char
  exp : List Char
deriving DecidableEq

def NumberText.chars (t : NumberText) : List Char := t.integer ++ t.frac ++ t.exp

def whole : Reader Char (List Char)
  | [] => none
  | c :: rest =>
      if c = '0' then some (['0'], rest)
      else if c.isDigit then some (c :: rest.takeWhile Char.isDigit, rest.dropWhile Char.isDigit)
      else none

def integer (text : List Char) : Option (List Char × List Char) :=
  match text with
  | '-' :: rest => (whole rest).map fun (ds, rest) => ('-' :: ds, rest)
  | text => whole text

def fraction (text : List Char) : List Char × List Char :=
  match text with
  | '.' :: rest =>
      if rest.takeWhile Char.isDigit = [] then ([], text)
      else ('.' :: rest.takeWhile Char.isDigit, rest.dropWhile Char.isDigit)
  | _ => ([], text)

def sign (text : List Char) : List Char × List Char :=
  match text with
  | '+' :: rest => (['+'], rest)
  | '-' :: rest => (['-'], rest)
  | _ => ([], text)

def exponent (text : List Char) : List Char × List Char :=
  match text with
  | [] => ([], [])
  | c :: rest =>
      if (c = 'e' ∨ c = 'E') ∧ (sign rest).2.takeWhile Char.isDigit ≠ [] then
        (c :: ((sign rest).1 ++ (sign rest).2.takeWhile Char.isDigit),
          (sign rest).2.dropWhile Char.isDigit)
      else ([], text)

def matchNumber : Reader Char NumberText := fun text =>
  match integer text with
  | none => none
  | some (integer, rest) =>
      some (⟨integer, (fraction rest).1, (exponent (fraction rest).2).1⟩,
        (exponent (fraction rest).2).2)

/-- What follows does not go on with digits. -/
def NoDigit (rest : List Char) : Prop := ∀ c ∈ rest.head?, c.isDigit = false

theorem Stops.noDigit {rest : List Char} (h : Stops rest) : NoDigit rest := by
  intro c hc
  have hstop := h c hc
  simp only [isNumberChar, Bool.or_eq_false_iff] at hstop
  exact hstop.1.1.1.1.1

theorem stops_cons {c : Char} (h : isNumberChar c = false) (rest : List Char) :
    Stops (c :: rest) := by
  intro d hd
  rw [List.head?_cons, Option.mem_some_iff] at hd
  rw [← hd]
  exact h

theorem stops_nil : Stops [] := by
  intro c hc
  cases hc

section Digits

variable {ds rest : List Char}

theorem takeWhile_digits (hds : ∀ c ∈ ds, c.isDigit = true) (hrest : NoDigit rest) :
    (ds ++ rest).takeWhile Char.isDigit = ds := by
  rw [List.takeWhile_append_of_pos hds]
  cases rest with
  | nil => simp
  | cons c rest =>
      have hc : c.isDigit = false := hrest c rfl
      simp [hc]

theorem dropWhile_digits (hds : ∀ c ∈ ds, c.isDigit = true) (hrest : NoDigit rest) :
    (ds ++ rest).dropWhile Char.isDigit = rest := by
  rw [List.dropWhile_append_of_pos hds]
  cases rest with
  | nil => rfl
  | cons c rest =>
      have hc : c.isDigit = false := hrest c rfl
      simp [hc]

theorem isDigit_of_mem_takeWhile {text : List Char} :
    ∀ c ∈ text.takeWhile Char.isDigit, c.isDigit = true := fun _ hc => List.mem_takeWhile_imp hc

end Digits

theorem whole_reads {text ds rest : List Char} (h : whole text = some (ds, rest)) :
    ds ≠ [] ∧ text = ds ++ rest ∧
      ∀ rest', NoDigit rest' → whole (ds ++ rest') = some (ds, rest') := by
  cases text with
  | nil => cases h
  | cons c tail =>
      rw [whole] at h
      split at h
      · rename_i hzero
        obtain ⟨rfl, rfl⟩ := Prod.mk.inj (Option.some_injective _ h)
        refine ⟨List.cons_ne_nil _ _, by rw [hzero]; rfl, ?_⟩
        intro rest' _
        rfl
      · rename_i hzero
        split at h
        · rename_i hdigit
          obtain ⟨rfl, rfl⟩ := Prod.mk.inj (Option.some_injective _ h)
          refine ⟨List.cons_ne_nil _ _, ?_, ?_⟩
          · rw [List.cons_append, List.takeWhile_append_dropWhile]
          · intro rest' hrest'
            rw [List.cons_append, whole, if_neg hzero, if_pos hdigit,
              takeWhile_digits isDigit_of_mem_takeWhile hrest',
              dropWhile_digits isDigit_of_mem_takeWhile hrest']
        · cases h

theorem integer_of_ne {c : Char} (hc : c ≠ '-') (rest : List Char) :
    integer (c :: rest) = whole (c :: rest) := by
  unfold integer
  split
  · rename_i heq
    exact absurd (List.cons.inj heq).1 hc
  · rfl

theorem whole_head {c : Char} {text ds rest : List Char}
    (h : whole (c :: text) = some (ds, rest)) : c.isDigit = true ∧ ∃ tail, ds = c :: tail := by
  rw [whole] at h
  split at h
  · rename_i hzero
    obtain ⟨rfl, -⟩ := Prod.mk.inj (Option.some_injective _ h)
    rw [hzero]
    exact ⟨rfl, _, rfl⟩
  · split at h
    · rename_i hdigit
      obtain ⟨rfl, -⟩ := Prod.mk.inj (Option.some_injective _ h)
      exact ⟨hdigit, _, rfl⟩
    · cases h

theorem integer_reads {text ds rest : List Char} (h : integer text = some (ds, rest)) :
    ds ≠ [] ∧ text = ds ++ rest ∧
      ∀ rest', NoDigit rest' → integer (ds ++ rest') = some (ds, rest') := by
  cases text with
  | nil => cases h
  | cons c tail =>
      by_cases hminus : c = '-'
      · subst hminus
        simp only [integer, Option.map_eq_some_iff] at h
        obtain ⟨⟨ds', rest''⟩, hwhole, heq⟩ := h
        obtain ⟨rfl, rfl⟩ := Prod.mk.inj heq
        obtain ⟨-, rfl, hreads⟩ := whole_reads hwhole
        refine ⟨List.cons_ne_nil _ _, rfl, ?_⟩
        intro rest' hrest'
        rw [List.cons_append, integer, hreads rest' hrest']
        rfl
      · rw [integer_of_ne hminus] at h
        obtain ⟨hne, htext, hreads⟩ := whole_reads h
        obtain ⟨-, ds', rfl⟩ := whole_head h
        refine ⟨hne, htext, ?_⟩
        intro rest' hrest'
        rw [List.cons_append, integer_of_ne hminus]
        exact hreads rest' hrest'

theorem fraction_of_ne {rest : List Char} (hrest : ∀ c ∈ rest.head?, c ≠ '.') :
    fraction rest = ([], rest) := by
  unfold fraction
  split
  · exact absurd rfl (hrest '.' rfl)
  · rfl

theorem fraction_reads (text : List Char) :
    text = (fraction text).1 ++ (fraction text).2 ∧
      ((fraction text).1 = [] ∨ ∃ ds, (fraction text).1 = '.' :: ds) ∧
      ∀ rest', NoDigit rest' → (∀ c ∈ rest'.head?, c ≠ '.') →
        fraction ((fraction text).1 ++ rest') = ((fraction text).1, rest') := by
  by_cases hpoint : ∃ rest, text = '.' :: rest ∧ rest.takeWhile Char.isDigit ≠ []
  · obtain ⟨rest, rfl, hne⟩ := hpoint
    have hfraction : fraction ('.' :: rest) =
        ('.' :: rest.takeWhile Char.isDigit, rest.dropWhile Char.isDigit) := by
      rw [fraction, if_neg hne]
    rw [hfraction]
    refine ⟨?_, Or.inr ⟨_, rfl⟩, ?_⟩
    · rw [List.cons_append, List.takeWhile_append_dropWhile]
    · intro rest' hrest' _
      rw [List.cons_append, fraction, takeWhile_digits isDigit_of_mem_takeWhile hrest',
        dropWhile_digits isDigit_of_mem_takeWhile hrest', if_neg hne]
  · have hfraction : fraction text = ([], text) := by
      unfold fraction
      split
      · rename_i rest
        by_cases hempty : rest.takeWhile Char.isDigit = []
        · rw [if_pos hempty]
        · exact absurd ⟨rest, rfl, hempty⟩ hpoint
      · rfl
    rw [hfraction]
    refine ⟨rfl, Or.inl rfl, ?_⟩
    intro rest' _ hrest'
    exact fraction_of_ne hrest'

theorem sign_reads (text : List Char) :
    text = (sign text).1 ++ (sign text).2 ∧
      ∀ d ds rest', d.isDigit = true →
        sign ((sign text).1 ++ (d :: ds ++ rest')) = ((sign text).1, d :: ds ++ rest') := by
  unfold sign
  split
  · exact ⟨rfl, fun _ _ _ _ => rfl⟩
  · exact ⟨rfl, fun _ _ _ _ => rfl⟩
  · refine ⟨rfl, ?_⟩
    intro d ds rest' hd
    split
    · rename_i heq
      obtain ⟨rfl, -⟩ := List.cons.inj heq
      cases hd
    · rename_i heq
      obtain ⟨rfl, -⟩ := List.cons.inj heq
      cases hd
    · rfl

theorem exponent_of_stops {rest : List Char} (h : Stops rest) : exponent rest = ([], rest) := by
  cases rest with
  | nil => rfl
  | cons c rest =>
      have hc := h c rfl
      simp only [isNumberChar, Bool.or_eq_false_iff, beq_eq_false_iff_ne] at hc
      rw [exponent, if_neg]
      rintro ⟨rfl | rfl, -⟩
      · exact hc.1.1.1.2 rfl
      · exact hc.1.1.2 rfl

theorem exponent_reads (text : List Char) :
    text = (exponent text).1 ++ (exponent text).2 ∧
      ((exponent text).1 = [] ∨ ∃ c ds, (c = 'e' ∨ c = 'E') ∧ (exponent text).1 = c :: ds) ∧
      ∀ rest', Stops rest' → exponent ((exponent text).1 ++ rest') = ((exponent text).1, rest') := by
  cases text with
  | nil => exact ⟨rfl, Or.inl rfl, fun rest' hrest' => exponent_of_stops hrest'⟩
  | cons c rest =>
      rw [exponent]
      split
      · rename_i hexp
        obtain ⟨hsplit, hsign⟩ := sign_reads rest
        obtain ⟨d, ds, hds⟩ := List.exists_cons_of_ne_nil hexp.2
        have hdigits : ∀ x ∈ d :: ds, x.isDigit = true := by
          rw [← hds]
          exact isDigit_of_mem_takeWhile
        refine ⟨?_, Or.inr ⟨c, _, hexp.1, rfl⟩, ?_⟩
        · rw [List.cons_append, List.append_assoc, List.takeWhile_append_dropWhile, ← hsplit]
        · intro rest' hrest'
          rw [hds, List.cons_append, List.append_assoc, exponent,
            hsign d ds rest' (hdigits d List.mem_cons_self),
            takeWhile_digits hdigits hrest'.noDigit, dropWhile_digits hdigits hrest'.noDigit,
            if_pos ⟨hexp.1, List.cons_ne_nil d ds⟩]
      · exact ⟨rfl, Or.inl rfl, fun rest' hrest' => exponent_of_stops hrest'⟩

/-- **A number is read by its own characters**, when no character of a number follows. -/
theorem matchNumber_reads {text rest : List Char} {t : NumberText}
    (h : matchNumber text = some (t, rest)) :
    t.integer ≠ [] ∧ text = t.chars ++ rest ∧ Reads Stops matchNumber t.chars t := by
  unfold matchNumber at h
  split at h
  · cases h
  · rename_i ds tail hinteger
    obtain ⟨rfl, rfl⟩ := Prod.mk.inj (Option.some_injective _ h)
    obtain ⟨hne, rfl, hreads⟩ := integer_reads hinteger
    obtain ⟨hfrac, hpoint, hfracReads⟩ := fraction_reads tail
    obtain ⟨hexp, hletter, hexpReads⟩ := exponent_reads (fraction tail).2
    refine ⟨hne, ?_, ?_⟩
    · change ds ++ tail = ds ++ (fraction tail).1 ++ (exponent (fraction tail).2).1 ++ _
      rw [List.append_assoc, List.append_assoc, ← hexp, ← hfrac]
    · intro rest' hrest'
      generalize hf : (fraction tail).1 = f at *
      generalize he : (exponent (fraction tail).2).1 = e at *
      -- what stands behind a part neither goes on with its digits nor looks like the next
      have hafter : NoDigit (e ++ rest') ∧ ∀ c ∈ (e ++ rest').head?, c ≠ '.' := by
        rcases hletter with rfl | ⟨c, ds', hc, rfl⟩
        · refine ⟨hrest'.noDigit, ?_⟩
          rintro c hc rfl
          cases hrest' '.' hc
        · rw [List.cons_append]
          constructor
          · rintro x hx
            obtain rfl := Option.some_injective _ hx
            rcases hc with rfl | rfl <;> rfl
          · rintro x hx rfl
            obtain rfl := Option.some_injective _ hx
            rcases hc with hc | hc <;> cases hc
      have hnext : NoDigit (f ++ (e ++ rest')) := by
        rcases hpoint with rfl | ⟨ds', rfl⟩
        · exact hafter.1
        · intro x hx
          obtain rfl := Option.some_injective _ hx
          rfl
      change matchNumber (ds ++ f ++ e ++ rest') = _
      rw [List.append_assoc, List.append_assoc, matchNumber, hreads _ hnext]
      dsimp only
      rw [hfracReads _ hafter.1 hafter.2]
      dsimp only
      rw [hexpReads rest' hrest']

/-! ### The characters of a number -/

theorem isNumberChar_of_isDigit {c : Char} (h : c.isDigit = true) : isNumberChar c = true := by
  simp [isNumberChar, h]

theorem isDigit_of_mem_whole {text ds rest : List Char} (h : whole text = some (ds, rest)) :
    ∀ c ∈ ds, c.isDigit = true := by
  cases text with
  | nil => cases h
  | cons c tail =>
      obtain ⟨hdigit, -⟩ := whole_head h
      rw [whole, if_pos hdigit] at h
      split at h
      · obtain ⟨rfl, -⟩ := Prod.mk.inj (Option.some_injective _ h)
        intro d hd
        rw [List.mem_singleton.mp hd]
        rfl
      · obtain ⟨rfl, -⟩ := Prod.mk.inj (Option.some_injective _ h)
        intro d hd
        rcases List.mem_cons.mp hd with rfl | hd
        · exact hdigit
        · exact isDigit_of_mem_takeWhile d hd

theorem isNumberChar_of_mem_integer {text ds rest : List Char}
    (h : integer text = some (ds, rest)) {c : Char} (hc : c ∈ ds) : isNumberChar c = true := by
  unfold integer at h
  split at h
  · simp only [Option.map_eq_some_iff] at h
    obtain ⟨⟨ds', rest'⟩, hds, heq⟩ := h
    obtain ⟨rfl, -⟩ := Prod.mk.inj heq
    rcases List.mem_cons.mp hc with rfl | hc
    · rfl
    · exact isNumberChar_of_isDigit (isDigit_of_mem_whole hds c hc)
  · exact isNumberChar_of_isDigit (isDigit_of_mem_whole h c hc)

theorem isNumberChar_of_mem_fraction {text : List Char} {c : Char} (hc : c ∈ (fraction text).1) :
    isNumberChar c = true := by
  unfold fraction at hc
  split at hc
  · split at hc
    · cases hc
    · rcases List.mem_cons.mp hc with rfl | hc
      · rfl
      · exact isNumberChar_of_isDigit (isDigit_of_mem_takeWhile c hc)
  · cases hc

theorem isNumberChar_of_mem_sign {text : List Char} {c : Char} (hc : c ∈ (sign text).1) :
    isNumberChar c = true := by
  unfold sign at hc
  split at hc
  · rw [List.mem_singleton.mp hc]
    rfl
  · rw [List.mem_singleton.mp hc]
    rfl
  · cases hc

theorem isNumberChar_of_mem_exponent {text : List Char} {c : Char} (hc : c ∈ (exponent text).1) :
    isNumberChar c = true := by
  cases text with
  | nil => cases hc
  | cons d rest =>
      rw [exponent] at hc
      split at hc
      · rename_i hletter
        rcases List.mem_cons.mp hc with rfl | hc
        · rcases hletter.1 with rfl | rfl <;> rfl
        · rcases List.mem_append.mp hc with hc | hc
          · exact isNumberChar_of_mem_sign hc
          · exact isNumberChar_of_isDigit (isDigit_of_mem_takeWhile c hc)
      · cases hc

theorem isNumberChar_of_mem {text rest : List Char} {t : NumberText}
    (h : matchNumber text = some (t, rest)) : ∀ c ∈ t.chars, isNumberChar c = true := by
  unfold matchNumber at h
  split at h
  · cases h
  · rename_i ds tail hinteger
    obtain ⟨rfl, -⟩ := Prod.mk.inj (Option.some_injective _ h)
    intro c hc
    simp only [NumberText.chars, List.mem_append] at hc
    rcases hc with (hc | hc) | hc
    · exact isNumberChar_of_mem_integer hinteger hc
    · exact isNumberChar_of_mem_fraction hc
    · exact isNumberChar_of_mem_exponent hc

/-! ### Integers -/

/-- `int.__repr__`. -/
def intText : Int → List Char
  | .ofNat n => Nat.toDigits 10 n
  | .negSucc n => '-' :: Nat.toDigits 10 (n + 1)

/-- `int` of the text of an integer. -/
def intOf (text : List Char) : Int :=
  match text with
  | '-' :: ds => -(Nat.ofDigitChars 10 ds 0 : Int)
  | ds => (Nat.ofDigitChars 10 ds 0 : Int)

theorem toDigits_isDigit (n : Nat) : ∀ c ∈ Nat.toDigits 10 n, c.isDigit = true := fun _ hc =>
  Nat.isDigit_of_mem_toDigits (by decide) (by decide) hc

/-- Only zero begins with a zero. -/
theorem toDigits_head {n : Nat} {ds : List Char} (h : Nat.toDigits 10 n = '0' :: ds) : ds = [] := by
  induction n using Nat.strongRecOn generalizing ds with
  | ind n ih =>
      by_cases hsmall : n < 10
      · rw [Nat.toDigits_of_lt_base hsmall] at h
        exact (List.cons.inj h).2.symm
      · rw [Nat.toDigits_of_base_le (by decide) (by omega)] at h
        obtain ⟨c, cs, hcs⟩ := List.exists_cons_of_ne_nil (@Nat.toDigits_ne_nil (n / 10) 10)
        rw [hcs, List.cons_append] at h
        obtain ⟨rfl, rfl⟩ := List.cons.inj h
        obtain rfl := ih (n / 10) (by omega) hcs
        have hvalue : Nat.ofDigitChars 10 (Nat.toDigits 10 (n / 10)) 0 = n / 10 :=
          Nat.ofDigitChars_ten_toDigits
        rw [hcs] at hvalue
        have hzero : Nat.ofDigitChars 10 ['0'] 0 = 0 := rfl
        omega

theorem whole_toDigits (n : Nat) {rest : List Char} (hrest : NoDigit rest) :
    whole (Nat.toDigits 10 n ++ rest) = some (Nat.toDigits 10 n, rest) := by
  obtain ⟨c, ds, hds⟩ := List.exists_cons_of_ne_nil (@Nat.toDigits_ne_nil n 10)
  have hdigits := toDigits_isDigit n
  rw [hds] at hdigits ⊢
  rw [List.cons_append, whole]
  split
  · rename_i hzero
    rw [hzero] at hds
    obtain rfl := toDigits_head hds
    rw [hzero]
    rfl
  · have htail : ∀ x ∈ ds, x.isDigit = true := fun x hx => hdigits x (List.mem_cons_of_mem c hx)
    rw [if_pos (hdigits c List.mem_cons_self), takeWhile_digits htail hrest,
      dropWhile_digits htail hrest]

theorem integer_intText (n : Int) {rest : List Char} (hrest : NoDigit rest) :
    integer (intText n ++ rest) = some (intText n, rest) := by
  cases n with
  | ofNat n =>
      obtain ⟨c, ds, hds⟩ := List.exists_cons_of_ne_nil (@Nat.toDigits_ne_nil n 10)
      have hdigit : c.isDigit = true := by
        apply toDigits_isDigit n
        rw [hds]
        exact List.mem_cons_self
      have hminus : c ≠ '-' := by
        rintro rfl
        cases hdigit
      have hwhole := whole_toDigits n hrest
      rw [intText]
      rw [hds, List.cons_append] at hwhole ⊢
      rw [integer_of_ne hminus]
      exact hwhole
  | negSucc n =>
      rw [intText, List.cons_append, integer, whole_toDigits (n + 1) hrest]
      rfl

theorem intOf_intText (n : Int) : intOf (intText n) = n := by
  cases n with
  | ofNat n =>
      obtain ⟨c, ds, hds⟩ := List.exists_cons_of_ne_nil (@Nat.toDigits_ne_nil n 10)
      have hdigit : c.isDigit = true := by
        apply toDigits_isDigit n
        rw [hds]
        exact List.mem_cons_self
      have hvalue : Nat.ofDigitChars 10 (Nat.toDigits 10 n) 0 = n := Nat.ofDigitChars_ten_toDigits
      rw [intText]
      rw [hds] at hvalue ⊢
      unfold intOf
      split
      · rename_i heq
        obtain ⟨rfl, -⟩ := List.cons.inj heq
        cases hdigit
      · rw [hvalue]
        rfl
  | negSucc n =>
      rw [intText, intOf, Nat.ofDigitChars_ten_toDigits]
      rfl

theorem matchNumber_intText (n : Int) :
    Reads Stops matchNumber (intText n) ⟨intText n, [], []⟩ := by
  intro rest hrest
  have hpoint : ∀ c ∈ rest.head?, c ≠ '.' := by
    rintro c hc rfl
    cases hrest '.' hc
  rw [matchNumber, integer_intText n hrest.noDigit]
  dsimp only
  rw [fraction_of_ne hpoint]
  dsimp only
  rw [exponent_of_stops hrest]

end Numbers

/-! ### Floats -/

/-- The three floats that are no numbers of the grammar. -/
def constants : List (List Char) := ["NaN".toList, "Infinity".toList, "-Infinity".toList]

/-- The texts that are read as floats. -/
def IsFloat (text : List Char) : Prop :=
  text ∈ constants ∨
    ∃ t, matchNumber text = some (t, []) ∧ ¬(t.frac = [] ∧ t.exp = [])

/-- Floats with their texts: `floatstr` writes one, `float` reads it back. -/
structure Floats (F : Type) where
  floatstr : F → List Char
  float : List Char → F
  isFloat_floatstr (x : F) : IsFloat (floatstr x)
  float_floatstr (x : F) : float (floatstr x) = x

end Json
