import PlanetCharlu.Lib.Readers

/-!
# Strings in JSON texts

The strings of Python's `json` module: written in ASCII, with short escapes, `\\u`
escapes and surrogate pairs, and read by `scanstring`. A lone surrogate is no character
and is an error here.
-/

namespace Json

open Readers

section Strings

/-- `ESCAPE_DCT`: what stands behind the backslash. -/
def shortEscape : Char → Option Char
  | '\x22' => some '\x22'
  | '\\' => some '\\'
  | '\n' => some 'n'
  | '\r' => some 'r'
  | '\t' => some 't'
  | '\x0c' => some 'f'
  | '\x08' => some 'b'
  | _ => none

/-- `BACKSLASH`: the character that an escape stands for. -/
def backslash : Char → Option Char
  | '\x22' => some '\x22'
  | '\\' => some '\\'
  | '/' => some '/'
  | 'b' => some '\x08'
  | 'f' => some '\x0c'
  | 'n' => some '\n'
  | 'r' => some '\r'
  | 't' => some '\t'
  | _ => none

def unicodeEscape (n : Nat) : List Char :=
  ['\\', 'u', Nat.digitChar (n / 4096 % 16), Nat.digitChar (n / 256 % 16),
    Nat.digitChar (n / 16 % 16), Nat.digitChar (n % 16)]

/-- The replacement of `py_encode_basestring_ascii`. -/
def escape (c : Char) : List Char :=
  match shortEscape c with
  | some e => ['\\', e]
  | none =>
      if 0x20 ≤ c.toNat ∧ c.toNat ≤ 0x7e then [c]
      else if c.toNat < 0x10000 then unicodeEscape c.toNat
      else
        -- a surrogate pair
        let n := c.toNat - 0x10000
        unicodeEscape (0xd800 ||| (n >>> 10 &&& 0x3ff)) ++ unicodeEscape (0xdc00 ||| (n &&& 0x3ff))

def encodeString (s : String) : List Char := '\x22' :: (s.toList.flatMap escape ++ ['\x22'])

def hexValue (c : Char) : Option Nat :=
  if '0' ≤ c ∧ c ≤ '9' then some (c.toNat - '0'.toNat)
  else if 'a' ≤ c ∧ c ≤ 'f' then some (c.toNat - 'a'.toNat + 10)
  else if 'A' ≤ c ∧ c ≤ 'F' then some (c.toNat - 'A'.toNat + 10)
  else none

/-- `_decode_uXXXX`, behind the backslash and the letter. -/
def decodeUXXXX (text : List Char) : Option (Nat × List Char) :=
  match text with
  | a :: b :: c :: d :: rest => do
      let a ← hexValue a
      let b ← hexValue b
      let c ← hexValue c
      let d ← hexValue d
      return (a * 4096 + b * 256 + c * 16 + d, rest)
  | _ => none

/-- `chr`, which has no character for a surrogate. -/
def chr (n : Nat) : Option Char := if n.isValidChar then some (Char.ofNat n) else none

/-- What stands for one character of a string. -/
def stringChar : Reader Char Char := fun text =>
  match text with
  | [] => none
  | '\\' :: 'u' :: rest => do
      let (uni, rest) ← decodeUXXXX rest
      if 0xd800 ≤ uni ∧ uni ≤ 0xdbff then
        match rest with
        | '\\' :: 'u' :: rest => do
            let (uni2, rest) ← decodeUXXXX rest
            if 0xdc00 ≤ uni2 ∧ uni2 ≤ 0xdfff then
              return (← chr (0x10000 + ((uni - 0xd800) <<< 10 ||| (uni2 - 0xdc00))), rest)
            else none
        | _ => none
      else
        return (← chr uni, rest)
  | '\\' :: esc :: rest => do return (← backslash esc, rest)
  | c :: rest => if c = '\x22' ∨ c = '\\' ∨ c.toNat < 0x20 then none else some (c, rest)

/-- The loop of `scanstring`, up to the closing quote. -/
def stringChars : Nat → Reader Char (List Char)
  | 0, _ => none
  | fuel + 1, text =>
      match text with
      | [] => none
      | c :: rest =>
          if c = '\x22' then some ([], rest)
          else do
            let (c, rest) ← stringChar text
            let (cs, rest) ← stringChars fuel rest
            return (c :: cs, rest)

/-- `scanstring`, behind the opening quote. -/
def scanstring : Reader Char String := fun text =>
  (stringChars text.length text).map fun (cs, rest) => (String.ofList cs, rest)

theorem hexValue_digitChar : ∀ d < 16, hexValue (Nat.digitChar d) = some d := by decide

theorem decodeUXXXX_unicodeEscape {n : Nat} (hn : n < 0x10000) (rest : List Char) :
    ∃ hex, unicodeEscape n = '\\' :: 'u' :: hex ∧ decodeUXXXX (hex ++ rest) = some (n, rest) := by
  refine ⟨_, rfl, ?_⟩
  have hdigit : ∀ m, hexValue (Nat.digitChar (m % 16)) = some (m % 16) := fun m =>
    hexValue_digitChar _ (Nat.mod_lt m (by decide))
  have hvalue : n / 4096 % 16 * 4096 + n / 256 % 16 * 256 + n / 16 % 16 * 16 + n % 16 = n := by
    omega
  simp only [List.cons_append, List.nil_append, decodeUXXXX, hdigit, Option.bind_eq_bind,
    Option.bind_some, hvalue, pure]

theorem decodeUXXXX_local : Local Anything decodeUXXXX := by
  intro text n rest h
  unfold decodeUXXXX at h
  split at h
  · rename_i a b c d tail
    simp only [Option.bind_eq_bind, Option.bind_eq_some_iff] at h
    obtain ⟨a', ha, b', hb, c', hc, d', hd, heq⟩ := h
    obtain ⟨rfl, rfl⟩ := Prod.mk.inj (Option.some_injective _ heq)
    refine ⟨[a, b, c, d], List.cons_ne_nil _ _, rfl, ?_⟩
    intro rest' _
    simp [decodeUXXXX, ha, hb, hc, hd]
  · cases h

theorem chr_toNat (c : Char) : chr c.toNat = some c := by
  have hvalid : c.toNat.isValidChar := c.valid
  rw [chr, if_pos hvalid, Char.ofNat_toNat]

theorem backslash_of_shortEscape {c e : Char} (h : shortEscape c = some e) :
    backslash e = some c ∧ e ≠ 'u' := by
  unfold shortEscape at h
  split at h
  all_goals first
    | cases h; exact ⟨rfl, by decide⟩
    | cases h

theorem plain_of_shortEscape {c : Char} (h : shortEscape c = none) : c ≠ '\x22' ∧ c ≠ '\\' := by
  constructor
  · rintro rfl
    cases h
  · rintro rfl
    cases h

/-- The two halves of a character beyond the first 65536. -/
theorem surrogates {n : Nat} (hn : n < 0x100000) :
    ∃ high low, 0xd800 ||| (n >>> 10 &&& 0x3ff) = high ∧ 0xdc00 ||| (n &&& 0x3ff) = low ∧
      0xd800 ≤ high ∧ high ≤ 0xdbff ∧ 0xdc00 ≤ low ∧ low ≤ 0xdfff ∧
      0x10000 + ((high - 0xd800) <<< 10 ||| (low - 0xdc00)) = n + 0x10000 := by
  have hor : ∀ a b, b < 2 ^ 10 → 2 ^ 10 * a ||| b = 2 ^ 10 * a + b := fun a b hb =>
    (Nat.two_pow_add_eq_or_of_lt hb a).symm
  have hmask : ∀ m, m &&& 0x3ff = m % 1024 := fun m => Nat.and_two_pow_sub_one_eq_mod m 10
  have hhigh : 0xd800 ||| (n >>> 10 &&& 0x3ff) = 0xd800 + n / 1024 := by
    rw [hmask, Nat.shiftRight_eq_div_pow]
    have hlt : n / 2 ^ 10 % 1024 < 2 ^ 10 := Nat.mod_lt _ (by decide)
    have hsum := hor 54 _ hlt
    norm_num at hsum ⊢
    omega
  have hlow : 0xdc00 ||| (n &&& 0x3ff) = 0xdc00 + n % 1024 := by
    rw [hmask]
    have hlt : n % 1024 < 2 ^ 10 := Nat.mod_lt _ (by decide)
    have hsum := hor 55 _ hlt
    norm_num at hsum ⊢
    omega
  refine ⟨_, _, hhigh, hlow, by omega, by omega, by omega, by omega, ?_⟩
  have hlt : n % 1024 < 2 ^ 10 := Nat.mod_lt _ (by decide)
  have hsum := hor (n / 1024) _ hlt
  rw [Nat.shiftLeft_eq, Nat.add_sub_cancel_left, Nat.add_sub_cancel_left, Nat.mul_comm, hsum]
  omega

theorem stringChar_unicodeEscape {n : Nat} (hn : n < 0x10000) {c : Char} (hc : chr n = some c) :
    Reads Anything stringChar (unicodeEscape n) c := by
  intro rest _
  obtain ⟨hex, hescape, hdecode⟩ := decodeUXXXX_unicodeEscape hn rest
  have hsurrogate : ¬(0xd800 ≤ n ∧ n ≤ 0xdbff) := by
    intro hrange
    rw [chr, if_neg] at hc
    · cases hc
    · rintro (h | h) <;> omega
  rw [hescape, List.cons_append, List.cons_append, stringChar]
  simp only [hdecode, Option.bind_eq_bind, Option.bind_some, if_neg hsurrogate, hc]
  rfl

theorem stringChar_surrogates {c : Char} (hc : 0x10000 ≤ c.toNat) :
    Reads Anything stringChar
      (unicodeEscape (0xd800 ||| ((c.toNat - 0x10000) >>> 10 &&& 0x3ff)) ++
        unicodeEscape (0xdc00 ||| ((c.toNat - 0x10000) &&& 0x3ff))) c := by
  intro rest _
  have hlt : c.toNat < 0x110000 := by
    have hvalid : c.toNat.isValidChar := c.valid
    rcases hvalid with h | h <;> omega
  obtain ⟨high, low, hhigh, hlow, h1, h2, h3, h4, hvalue⟩ :=
    @surrogates (c.toNat - 0x10000) (by omega)
  rw [hhigh, hlow, List.append_assoc]
  obtain ⟨hex, hescape, hdecode⟩ :=
    decodeUXXXX_unicodeEscape (by omega : high < 0x10000) (unicodeEscape low ++ rest)
  obtain ⟨hex', hescape', hdecode'⟩ := decodeUXXXX_unicodeEscape (by omega : low < 0x10000) rest
  have hback : chr (0x10000 + ((high - 0xd800) <<< 10 ||| (low - 0xdc00))) = some c := by
    rw [hvalue, Nat.sub_add_cancel hc]
    exact chr_toNat c
  rw [hescape, List.cons_append, List.cons_append, stringChar]
  simp only [hdecode, Option.bind_eq_bind, Option.bind_some, if_pos (And.intro h1 h2)]
  rw [hescape', List.cons_append, List.cons_append]
  simp only [hdecode', Option.bind_some, if_pos (And.intro h3 h4), hback]
  rfl

theorem stringChar_plain {c : Char} (hquote : c ≠ '\x22') (hslash : c ≠ '\\')
    (hcontrol : ¬c.toNat < 0x20) (rest : List Char) :
    stringChar (c :: rest) = some (c, rest) := by
  unfold stringChar
  split
  · rename_i heq
    cases heq
  · rename_i heq
    exact absurd (List.cons.inj heq).1 hslash
  · rename_i heq
    exact absurd (List.cons.inj heq).1 hslash
  · rename_i heq
    obtain ⟨rfl, rfl⟩ := List.cons.inj heq
    rw [if_neg]
    rintro (h | h | h)
    · exact hquote h
    · exact hslash h
    · exact hcontrol h

theorem stringChar_backslash {e c : Char} (he : e ≠ 'u') (hback : backslash e = some c)
    (rest : List Char) : stringChar ('\\' :: e :: rest) = some (c, rest) := by
  unfold stringChar
  split
  · rename_i heq
    cases heq
  · rename_i heq
    exact absurd (List.cons.inj (List.cons.inj heq).2).1 he
  · rename_i heq
    obtain ⟨rfl, rfl⟩ := List.cons.inj (List.cons.inj heq).2
    rw [hback]
    rfl
  · rename_i hne hne' heq
    obtain ⟨rfl, rfl⟩ := List.cons.inj heq
    exact absurd rfl (hne' e rest rfl)

/-- **An escaped character is read back.** -/
theorem stringChar_escape (c : Char) : Reads Anything stringChar (escape c) c := by
  unfold escape
  cases hshort : shortEscape c with
  | some e =>
      obtain ⟨hback, hne⟩ := backslash_of_shortEscape hshort
      intro rest _
      exact stringChar_backslash hne hback rest
  | none =>
      obtain ⟨hquote, hslash⟩ := plain_of_shortEscape hshort
      dsimp only
      split
      · rename_i hplain
        intro rest _
        exact stringChar_plain hquote hslash (by omega) rest
      · split
        · rename_i hsmall
          exact stringChar_unicodeEscape hsmall (chr_toNat c)
        · rename_i hlarge
          exact stringChar_surrogates (by omega)

theorem stringChar_local : Local Anything stringChar := by
  intro text c rest h
  unfold stringChar at h
  split at h
  · cases h
  · rename_i tail
    simp only [Option.bind_eq_bind, Option.bind_eq_some_iff] at h
    obtain ⟨⟨uni, tail'⟩, hdecode, h⟩ := h
    obtain ⟨u, -, rfl, hreads⟩ := decodeUXXXX_local _ _ _ hdecode
    dsimp only at h
    split at h
    · -- half of a pair: the escape behind it belongs to the character
      rename_i hhigh
      split at h
      · rename_i tail2
        simp only [Option.bind_eq_some_iff] at h
        obtain ⟨⟨uni2, tail2'⟩, hdecode2, h⟩ := h
        obtain ⟨u2, -, rfl, hreads2⟩ := decodeUXXXX_local _ _ _ hdecode2
        dsimp only at h
        split at h
        · rename_i hlow
          simp only [Option.bind_eq_some_iff] at h
          obtain ⟨c', hchr, heq⟩ := h
          obtain ⟨rfl, rfl⟩ := Prod.mk.inj (Option.some_injective _ heq)
          refine ⟨'\\' :: 'u' :: (u ++ '\\' :: 'u' :: u2), List.cons_ne_nil _ _, by simp, ?_⟩
          intro rest' _
          have htext : '\\' :: 'u' :: (u ++ '\\' :: 'u' :: u2) ++ rest' =
              '\\' :: 'u' :: (u ++ '\\' :: 'u' :: (u2 ++ rest')) := by simp
          rw [htext, stringChar]
          simp only [hreads _ trivial, hreads2 _ trivial, Option.bind_eq_bind, Option.bind_some,
            if_pos hhigh, if_pos hlow, hchr, pure]
        · cases h
      · cases h
    · rename_i hhigh
      simp only [Option.bind_eq_some_iff] at h
      obtain ⟨c', hchr, heq⟩ := h
      obtain ⟨rfl, rfl⟩ := Prod.mk.inj (Option.some_injective _ heq)
      refine ⟨'\\' :: 'u' :: u, List.cons_ne_nil _ _, rfl, ?_⟩
      intro rest' _
      rw [List.cons_append, List.cons_append, stringChar]
      simp only [hreads _ trivial, Option.bind_eq_bind, Option.bind_some, if_neg hhigh, hchr, pure]
  · rename_i e tail hne
    simp only [Option.bind_eq_bind, Option.bind_eq_some_iff] at h
    obtain ⟨c', hback, heq⟩ := h
    obtain ⟨rfl, rfl⟩ := Prod.mk.inj (Option.some_injective _ heq)
    refine ⟨['\\', e], List.cons_ne_nil _ _, rfl, ?_⟩
    intro rest' _
    exact stringChar_backslash hne hback rest'
  · split at h
    · cases h
    · rename_i hplain
      obtain ⟨rfl, rfl⟩ := Prod.mk.inj (Option.some_injective _ h)
      rw [not_or, not_or] at hplain
      refine ⟨[_], List.cons_ne_nil _ _, rfl, ?_⟩
      intro rest' _
      exact stringChar_plain hplain.1 hplain.2.1 hplain.2.2 rest'

theorem stringChar_quote (rest : List Char) : stringChar ('\x22' :: rest) = none := rfl

/-- What is read as a character does not begin with a quote. -/
theorem head_of_reads {u : List Char} {c : Char} (h : Reads Anything stringChar u c) :
    ∃ d tail, u = d :: tail ∧ d ≠ '\x22' := by
  cases u with
  | nil =>
      have no_ws := h [] trivial
      cases no_ws
  | cons d tail =>
      refine ⟨d, tail, rfl, ?_⟩
      rintro rfl
      have no_ws := h [] trivial
      rw [List.cons_append, stringChar_quote] at no_ws
      cases no_ws

theorem stringChars_nil : ReadsWithin Anything stringChars ['\x22'] [] := by
  intro n hn rest _
  cases n with
  | zero => cases hn
  | succ n => rfl

theorem stringChars_cons {u us : List Char} {c : Char} {cs : List Char}
    (hc : Reads Anything stringChar u c) (hcs : ReadsWithin Anything stringChars us cs) :
    ReadsWithin Anything stringChars (u ++ us) (c :: cs) := by
  intro n hn rest _
  obtain ⟨d, tail, rfl, hquote⟩ := head_of_reads hc
  cases n with
  | zero => cases hn
  | succ n =>
      have hlength : us.length ≤ n := by
        simp only [List.cons_append, List.length_cons, List.length_append] at hn
        omega
      have hfirst : stringChar (d :: (tail ++ (us ++ rest))) = some (c, us ++ rest) :=
        hc (us ++ rest) trivial
      rw [List.append_assoc, List.cons_append, stringChars, if_neg hquote, hfirst]
      simp only [Option.bind_eq_bind, Option.bind_some, hcs n hlength rest trivial, pure]

theorem stringChars_local {n : Nat} {text cs rest : List Char}
    (h : stringChars n text = some (cs, rest)) :
    ∃ u ≠ [], text = u ++ rest ∧ ReadsWithin Anything stringChars u cs := by
  induction n generalizing text cs with
  | zero => cases h
  | succ n ih =>
      cases text with
      | nil => cases h
      | cons c tail =>
          rw [stringChars] at h
          split at h
          · rename_i hquote
            obtain ⟨rfl, rfl⟩ := Prod.mk.inj (Option.some_injective _ h)
            rw [hquote]
            exact ⟨['\x22'], List.cons_ne_nil _ _, rfl, stringChars_nil⟩
          · simp only [Option.bind_eq_bind, Option.bind_eq_some_iff] at h
            obtain ⟨⟨d, tail'⟩, hchar, ⟨ds, tail''⟩, hchars, heq⟩ := h
            obtain ⟨rfl, rfl⟩ := Prod.mk.inj (Option.some_injective _ heq)
            obtain ⟨u, hne, htext, hreads⟩ := stringChar_local _ _ _ hchar
            obtain ⟨us, -, rfl, hwithin⟩ := ih hchars
            refine ⟨u ++ us, List.append_ne_nil_of_left_ne_nil hne us, ?_,
              stringChars_cons hreads hwithin⟩
            rw [htext, List.append_assoc]

theorem scanstring_of_within {u cs : List Char} (h : ReadsWithin Anything stringChars u cs) :
    Reads Anything scanstring u (String.ofList cs) := by
  intro rest hrest
  have hlength : u.length ≤ (u ++ rest).length := by simp
  rw [scanstring, h _ hlength rest hrest]
  rfl

/-- **A written string is read back.** -/
theorem scanstring_escape (s : String) :
    Reads Anything scanstring (s.toList.flatMap escape ++ ['\x22']) s := by
  have hchars : ∀ cs : List Char,
      ReadsWithin Anything stringChars (cs.flatMap escape ++ ['\x22']) cs := by
    intro cs
    induction cs with
    | nil => exact stringChars_nil
    | cons c cs ih =>
        rw [List.flatMap_cons, List.append_assoc]
        exact stringChars_cons (stringChar_escape c) ih
  have hstring := scanstring_of_within (hchars s.toList)
  rwa [String.ofList_toList] at hstring

theorem scanstring_local : Local Anything scanstring := by
  intro text s rest h
  simp only [scanstring, Option.map_eq_some_iff] at h
  obtain ⟨⟨cs, rest'⟩, hchars, heq⟩ := h
  obtain ⟨rfl, rfl⟩ := Prod.mk.inj heq
  obtain ⟨u, hne, htext, hwithin⟩ := stringChars_local hchars
  exact ⟨u, hne, htext, scanstring_of_within hwithin⟩

end Strings

end Json
