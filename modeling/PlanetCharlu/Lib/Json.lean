import PlanetCharlu.Lib.Json.Scanner
import PlanetCharlu.Lib.StableSort

/-!
# JSON texts

JSON as Python's `json` module writes it, with sorted keys and in ASCII, and reads it
back. Every text of a value is read as the value, and no text of a dictionary is a proper
beginning of another.
-/

namespace Json

open Readers StableSort

/-! ### Writing -/

section Writing

variable {F : Type} (floats : Floats F)

mutual

/-- The text of a value, dictionaries in the order they have. -/
def text : Json F → List Char
  | .null => "null".toList
  | .bool true => "true".toList
  | .bool false => "false".toList
  | .int n => intText n
  | .float x => floats.floatstr x
  | .str s => encodeString s
  | .arr items => '[' :: (textItems items ++ [']'])
  | .obj members => '\x7b' :: (textMembers members ++ ['\x7d'])

def textItems : List (Json F) → List Char
  | [] => []
  | [v] => text v
  | v :: w :: rest => text v ++ ',' :: ' ' :: textItems (w :: rest)

def textMembers : List (String × Json F) → List Char
  | [] => []
  | [(key, v)] => encodeString key ++ ':' :: ' ' :: text v
  | (key, v) :: m :: rest =>
      (encodeString key ++ ':' :: ' ' :: text v) ++ ',' :: ' ' :: textMembers (m :: rest)

end

def textMember (m : String × Json F) : List Char :=
  encodeString m.1 ++ ':' :: ' ' :: text floats m.2

theorem textItems_eq (items : List (Json F)) :
    textItems floats items = joined (text floats) items := by
  induction items with
  | nil => rw [textItems, joined]
  | cons v rest ih =>
      cases rest with
      | nil => rw [textItems, joined]
      | cons w rest => rw [textItems, joined, ih]

theorem textMembers_eq (members : List (String × Json F)) :
    textMembers floats members = joined (textMember floats) members := by
  induction members with
  | nil => rw [textMembers, joined]
  | cons m rest ih =>
      obtain ⟨key, v⟩ := m
      cases rest with
      | nil => rw [textMembers, joined, textMember]
      | cons m rest => rw [textMembers, joined, ih, textMember]

mutual

/-- `sort_keys`: every dictionary sorted by its keys. -/
def sortKeys : Json F → Json F
  | .obj members => .obj (sortedBy Prod.fst (sortMembers members))
  | .arr items => .arr (sortItems items)
  | v => v

def sortItems : List (Json F) → List (Json F)
  | [] => []
  | v :: rest => sortKeys v :: sortItems rest

def sortMembers : List (String × Json F) → List (String × Json F)
  | [] => []
  | (key, v) :: rest => (key, sortKeys v) :: sortMembers rest

end

/-- `json.dumps` with `sort_keys`. -/
def dumps (v : Json F) : List Char := text floats (sortKeys v)

theorem sortItems_eq (items : List (Json F)) : sortItems items = items.map sortKeys := by
  induction items with
  | nil => rw [sortItems, List.map_nil]
  | cons v rest ih => rw [sortItems, List.map_cons, ih]

theorem sortMembers_eq (members : List (String × Json F)) :
    sortMembers members = members.map fun m => (m.1, sortKeys m.2) := by
  induction members with
  | nil => rw [sortMembers, List.map_nil]
  | cons m rest ih =>
      obtain ⟨key, v⟩ := m
      rw [sortMembers, List.map_cons, ih]

/-! ### The round trip -/

variable {floats}

theorem number_char {c : Char} (h : c.isDigit = true ∨ c = '-') :
    isWs c = false ∧ c ≠ ']' ∧ c ≠ bom := by
  have hne : ∀ d : Char, d.isDigit = false → d ≠ '-' → c ≠ d := by
    rintro d hd hminus rfl
    rcases h with h | h
    · rw [h] at hd
      cases hd
    · exact hminus h
  constructor
  · rw [Bool.eq_false_iff]
    intro hws
    simp only [isWs, Bool.or_eq_true, beq_iff_eq] at hws
    rcases hws with ((hws | hws) | hws) | hws
    · exact hne ' ' rfl (by decide) hws
    · exact hne '\t' rfl (by decide) hws
    · exact hne '\n' rfl (by decide) hws
    · exact hne '\r' rfl (by decide) hws
  · exact ⟨hne ']' rfl (by decide), hne bom rfl (by decide)⟩

theorem integer_head {chars ds rest : List Char} (h : integer chars = some (ds, rest)) :
    ∃ c tail, chars = c :: tail ∧ (c.isDigit = true ∨ c = '-') := by
  cases chars with
  | nil => cases h
  | cons c tail =>
      refine ⟨c, tail, rfl, ?_⟩
      by_cases hminus : c = '-'
      · exact Or.inr hminus
      · rw [integer_of_ne hminus] at h
        exact Or.inl (whole_head h).1

/-- A float is written as a number with a fraction or an exponent, or as a word. -/
theorem floatstr_cases (floats : Floats F) (x : F) :
    floats.floatstr x ∈ constants ∨
      ∃ t, Reads Stops matchNumber (floats.floatstr x) t ∧ t.chars = floats.floatstr x ∧
        ¬(t.frac = [] ∧ t.exp = []) ∧
        ∃ c tail, floats.floatstr x = c :: tail ∧ (c.isDigit = true ∨ c = '-') := by
  rcases floats.isFloat_floatstr x with h | ⟨t, ht, hfloat⟩
  · exact Or.inl h
  · right
    obtain ⟨-, hchars, hreads⟩ := matchNumber_reads ht
    rw [List.append_nil] at hchars
    refine ⟨t, ?_, hchars.symm, hfloat, ?_⟩
    · rw [hchars]
      exact hreads
    · unfold matchNumber at ht
      split at ht
      · cases ht
      · rename_i hinteger
        exact integer_head hinteger

theorem text_head (v : Json F) :
    ∃ c rest, text floats v = c :: rest ∧ isWs c = false ∧ c ≠ ']' ∧ c ≠ bom := by
  cases v with
  | null => exact ⟨'n', _, rfl, rfl, by decide, by decide⟩
  | bool b =>
      cases b with
      | true => exact ⟨'t', _, rfl, rfl, by decide, by decide⟩
      | false => exact ⟨'f', _, rfl, rfl, by decide, by decide⟩
  | int n =>
      obtain ⟨c, tail, htext, hc⟩ := integer_head (integer_intText n stops_nil.noDigit)
      rw [List.append_nil] at htext
      exact ⟨c, tail, htext, number_char hc⟩
  | float x =>
      rcases floatstr_cases floats x with h | ⟨t, -, -, -, c, tail, htext, hc⟩
      · simp only [constants, List.mem_cons, List.not_mem_nil, or_false] at h
        rcases h with h | h | h
        · exact ⟨'N', _, h, rfl, by decide, by decide⟩
        · exact ⟨'I', _, h, rfl, by decide, by decide⟩
        · exact ⟨'-', _, h, rfl, by decide, by decide⟩
      · exact ⟨c, tail, htext, number_char hc⟩
  | str s => exact ⟨'\x22', _, rfl, rfl, by decide, by decide⟩
  | arr items => exact ⟨'[', _, rfl, rfl, by decide, by decide⟩
  | obj members => exact ⟨'\x7b', _, rfl, rfl, by decide, by decide⟩

theorem inked_text (v : Json F) : Inked (text floats v) := by
  obtain ⟨c, rest, htext, hc, -⟩ := text_head v
  exact ⟨c, rest, htext, hc⟩

/-- Behind a character that tells, it is enough to read the rest. -/
theorem within_of_behind {c : Char} {u : List Char} {v : Json F}
    (h : ∀ n, u.length ≤ n →
      ∃ q, behind floats (scanOnce floats n) c = some q ∧ Reads Anything q u v) :
    ReadsWithin Stops (scanOnce floats) (c :: u) v := by
  intro n hn
  cases n with
  | zero => cases hn
  | succ n =>
      obtain ⟨q, hq, hreads⟩ := h n (Nat.le_of_succ_le_succ hn)
      exact (scanOnce_behind hq hreads).of_anything

theorem within_of_number {c : Char} {u : List Char} {v : Json F}
    (hc : c.isDigit = true ∨ c = '-') (h : Reads Stops (number floats) (c :: u) v) :
    ReadsWithin Stops (scanOnce floats) (c :: u) v := by
  intro n hn
  cases n with
  | zero => cases hn
  | succ n => exact scanOnce_number hc h

theorem scanOnce_intText (n : Int) :
    ReadsWithin Stops (scanOnce floats) (intText n) (.int n) := by
  obtain ⟨c, tail, htext, hc⟩ := integer_head (integer_intText n stops_nil.noDigit)
  rw [List.append_nil] at htext
  have hnumber : Reads Stops (number floats) (intText n) (.int n) := by
    intro rest hrest
    rw [number, matchNumber_intText n rest hrest]
    simp only [and_self, if_true, intOf_intText]
  rw [htext] at hnumber ⊢
  exact within_of_number hc hnumber

theorem scanOnce_floatstr (x : F) :
    ReadsWithin Stops (scanOnce floats) (floats.floatstr x) (.float x) := by
  have hvalue := floats.float_floatstr x
  rcases floatstr_cases floats x with h | ⟨t, hreads, hchars, hfloat, c, tail, htext, hc⟩
  · simp only [constants, List.mem_cons, List.not_mem_nil, or_false] at h
    rcases h with h | h | h
    · have htext : "NaN".toList = 'N' :: "aN".toList := rfl
      have hread : Reads Anything (literal "aN".toList (.float (floats.float "NaN".toList)))
          "aN".toList (.float x) := by
        rw [← h, hvalue]
        exact literal_reads _ _
      rw [h, htext]
      exact within_of_behind fun n _ => ⟨_, rfl, hread⟩
    · have htext : "Infinity".toList = 'I' :: "nfinity".toList := rfl
      have hread : Reads Anything
          (literal "nfinity".toList (.float (floats.float "Infinity".toList)))
          "nfinity".toList (.float x) := by
        rw [← h, hvalue]
        exact literal_reads _ _
      rw [h, htext]
      exact within_of_behind fun n _ => ⟨_, rfl, hread⟩
    · have htext : "-Infinity".toList = '-' :: "Infinity".toList := rfl
      have hread : Reads Stops (number floats) "-Infinity".toList (.float x) := by
        intro rest _
        have hnone : matchNumber ("-Infinity".toList ++ rest) = none := rfl
        rw [number, hnone]
        dsimp only
        rw [← h, hvalue]
        exact literal_reads _ _ rest trivial
      rw [h]
      rw [htext] at hread ⊢
      exact within_of_number (Or.inr rfl) hread
  · have hnumber : Reads Stops (number floats) (floats.floatstr x) (.float x) := by
      intro rest hrest
      rw [number, hreads rest hrest]
      dsimp only
      rw [if_neg hfloat, hchars, hvalue]
    rw [htext] at hnumber ⊢
    exact within_of_number hc hnumber

theorem length_le_joined {α : Type} {write : α → List Char} {items : List α} {a : α}
    (ha : a ∈ items) : (write a).length ≤ (joined write items).length := by
  induction items with
  | nil => cases ha
  | cons b rest ih =>
      cases rest with
      | nil => rw [List.mem_singleton.mp ha, joined]
      | cons d rest =>
          rw [joined, List.length_append, List.length_cons, List.length_cons]
          rcases List.mem_cons.mp ha with rfl | ha
          · omega
          · have hle := ih ha
            omega

/-- **The text of a value is read as the value**, where no dictionary has a key twice. -/
theorem scanOnce_text {v : Json F} (hv : Distinct v) :
    ReadsWithin Stops (scanOnce floats) (text floats v) v := by
  induction v with
  | null => exact within_of_behind fun n _ => ⟨_, rfl, literal_reads "ull".toList .null⟩
  | bool b =>
      cases b with
      | true => exact within_of_behind fun n _ => ⟨_, rfl, literal_reads "rue".toList (.bool true)⟩
      | false =>
          exact within_of_behind fun n _ => ⟨_, rfl, literal_reads "alse".toList (.bool false)⟩
  | int n => exact scanOnce_intText n
  | float x => exact scanOnce_floatstr x
  | str s => exact within_of_behind fun n _ => ⟨_, rfl, (scanstring_escape s).mapped _⟩
  | arr items ih =>
      cases hv with
      | arr hitems =>
          refine within_of_behind fun n hn => ⟨_, rfl, Reads.mapped _ ?_⟩
          rw [textItems_eq] at hn ⊢
          rw [List.length_append] at hn
          apply bracketed_joined (by decide)
          · intro v _
            obtain ⟨c, rest, htext, hws, hne, -⟩ := @text_head F floats v
            exact ⟨c, rest, htext, hws, hne⟩
          -- an element is shorter than the list, so the fuel is enough for it
          intro v hmem
          have hle : (text floats v).length ≤ _ := length_le_joined hmem
          exact ih v hmem (hitems v hmem) n (by omega)
  | obj members ih =>
      cases hv with
      | obj hkeys hmembers =>
          refine within_of_behind fun n hn => ⟨_, rfl, ?_⟩
          rw [textMembers_eq] at hn ⊢
          rw [List.length_append] at hn
          have hread : Reads Anything (bracketed '\x7d' (member (scanOnce floats n)))
              (joined (textMember floats) members ++ ['\x7d']) members := by
            apply bracketed_joined (by decide)
            · intro m _
              exact ⟨'\x22', _, rfl, rfl, by decide⟩
            · intro m hmem
              have hle : (textMember floats m).length ≤ _ := length_le_joined hmem
              have hshort : (text floats m.2).length ≤ (textMember floats m).length := by
                rw [textMember, List.length_append, List.length_cons, List.length_cons]
                omega
              have hvalue := ih m hmem (hmembers m hmem) n (by omega)
              have hblank : ∀ c ∈ [' '], isWs c = true := by
                intro c hc
                rw [List.mem_singleton.mp hc]
                rfl
              have hmember := member_reads (scanstring_escape m.1) no_ws hblank (inked_text m.2)
                hvalue
              have htext : textMember floats m = '\x22' :: ((m.1.toList.flatMap escape ++ ['\x22']) ++
                  ([] ++ ':' :: ([' '] ++ text floats m.2))) := by
                simp [textMember, encodeString]
              rw [htext]
              exact hmember
          have hobject := hread.mapped fun members : List (String × Json F) => (.obj (dict members) : Json F)
          rwa [dict_of_nodup hkeys] at hobject

/-! ### Files of values -/

theorem nodup_sortMembers {members : List (String × Json F)}
    (hkeys : (members.map Prod.fst).Nodup) :
    ((sortedBy Prod.fst (sortMembers members)).map Prod.fst).Nodup := by
  have hperm := (List.perm_insertionSort (fun a b : String × Json F => a.1 ≤ b.1)
    (sortMembers members)).map Prod.fst
  have hsame : (sortMembers members).map Prod.fst = members.map Prod.fst := by
    rw [sortMembers_eq, List.map_map]
    rfl
  rw [hsame] at hperm
  exact hperm.nodup_iff.mpr hkeys

theorem Distinct.sortKeys {v : Json F} (hv : Distinct v) : Distinct (sortKeys v) := by
  induction v with
  | null => exact hv
  | bool b => exact hv
  | int n => exact hv
  | float x => exact hv
  | str s => exact hv
  | arr items ih =>
      cases hv with
      | arr hitems =>
          rw [Json.sortKeys, sortItems_eq]
          apply Distinct.arr
          intro v hmem
          obtain ⟨w, hw, rfl⟩ := List.mem_map.mp hmem
          exact ih w hw (hitems w hw)
  | obj members ih =>
      cases hv with
      | obj hkeys hmembers =>
          rw [Json.sortKeys]
          apply Distinct.obj (nodup_sortMembers hkeys)
          intro m hmem
          rw [mem_sortedBy, sortMembers_eq] at hmem
          obtain ⟨w, hw, rfl⟩ := List.mem_map.mp hmem
          exact ih w hw (hmembers w hw)

theorem loads_of_within {chars : List Char} {v : Json F} (hink : Inked chars)
    (hbom : chars.head? ≠ some bom) (h : ReadsWithin Stops (scanOnce floats) chars v) :
    loads floats chars = some v := by
  have hscan := h chars.length (le_refl _) [] stops_nil
  rw [List.append_nil] at hscan
  rw [loads, if_neg hbom, skipWs_inked hink, hscan]
  rfl

/-- **Reading undoes writing**, up to the order of the keys. -/
theorem loads_dumps {v : Json F} (hv : Distinct v) :
    loads floats (dumps floats v) = some (sortKeys v) := by
  obtain ⟨c, rest, htext, -, -, hbom⟩ := @text_head F floats (sortKeys v)
  have hhead : (text floats (sortKeys v)).head? ≠ some bom := by
    rw [htext]
    exact fun hc => hbom (Option.some_injective _ hc)
  exact loads_of_within (inked_text _) hhead (scanOnce_text hv.sortKeys)

theorem dumps_obj (members : List (String × Json F)) :
    ∃ rest, dumps floats (.obj members) = '\x7b' :: rest := by
  rw [dumps, sortKeys]
  exact ⟨_, rfl⟩

/-- **A dictionary cut short is not read**: no proper beginning of its text is JSON. -/
theorem loads_cut {members : List (String × Json F)} (hv : Distinct (.obj members))
    {cut : List Char} (hbegins : cut <+: dumps floats (.obj members))
    (hne : cut ≠ dumps floats (.obj members)) : loads floats cut = none := by
  obtain ⟨body, hbody⟩ := @dumps_obj F floats members
  have hwhole : scanOnce floats (dumps floats (.obj members)).length (dumps floats (.obj members)) =
      some (sortKeys (.obj members), []) := by
    have hscan := (@scanOnce_text F floats _ hv.sortKeys) _ (le_refl _) [] stops_nil
    rwa [List.append_nil] at hscan
  rcases cut with - | ⟨c, tail⟩
  · rfl
  · have hc : c = '\x7b' := by
      obtain ⟨more, hmore⟩ := hbegins
      rw [hbody] at hmore
      exact (List.cons.inj hmore).1
    subst hc
    have hink : Inked ('\x7b' :: tail) := ⟨'\x7b', tail, rfl, rfl⟩
    have hbom : ('\x7b' :: tail).head? ≠ some bom := by
      intro h
      cases h
    rw [loads, if_neg hbom, skipWs_inked hink]
    split
    · rename_i v rest hscan
      -- a value at the front of the cut text is at the front of the whole text too, but that
      -- is read to its end
      obtain ⟨u, -, htext, -, hlocal⟩ := scanOnce_local hscan
      have hwithin : ReadsWithin Anything (scanOnce floats) u v := by
        apply hlocal
        intro d hd
        obtain rfl := Option.some_injective _ hd
        decide
      obtain ⟨more, hmore⟩ := hbegins
      rw [htext] at hmore
      have hlength : u.length ≤ (dumps floats (.obj members)).length := by
        rw [← hmore]
        simp only [List.length_append]
        omega
      obtain ⟨rfl, rfl⟩ := (hwithin _ hlength).eq_of_append hwhole hmore.symm
      rw [List.append_nil] at hmore
      exact absurd (htext.trans hmore) hne
    · rfl

/-! ### The characters of a text -/

/-- The printing characters of ASCII. -/
def Printable (c : Char) : Prop := 0x20 ≤ c.toNat ∧ c.toNat ≤ 0x7e

instance (c : Char) : Decidable (Printable c) := inferInstanceAs (Decidable (_ ∧ _))

theorem printable_word {word : List Char}
    (h : word.all (fun c => decide (Printable c)) = true) : ∀ c ∈ word, Printable c := by
  intro c hc
  exact of_decide_eq_true (List.all_eq_true.mp h c hc)

theorem printable_isDigit {c : Char} (h : c.isDigit = true) : Printable c := by
  rw [Char.isDigit_iff_toNat] at h
  have hzero : '0'.toNat = 0x30 := rfl
  have hnine : '9'.toNat = 0x39 := rfl
  constructor <;> omega

theorem printable_isNumberChar {c : Char} (h : isNumberChar c = true) : Printable c := by
  simp only [isNumberChar, Bool.or_eq_true, beq_iff_eq] at h
  rcases h with ((((h | rfl) | rfl) | rfl) | rfl) | rfl
  · exact printable_isDigit h
  all_goals decide

theorem printable_unicodeEscape (n : Nat) : ∀ c ∈ unicodeEscape n, Printable c := by
  have hhex : ∀ d < 16, Printable (Nat.digitChar d) := by decide
  intro c hc
  simp only [unicodeEscape, List.mem_cons, List.not_mem_nil, or_false] at hc
  rcases hc with rfl | rfl | rfl | rfl | rfl | rfl
  · decide
  · decide
  all_goals exact hhex _ (Nat.mod_lt _ (by decide))

theorem printable_escape (d : Char) : ∀ c ∈ escape d, Printable c := by
  intro c hc
  unfold escape at hc
  split at hc
  · rename_i e hshort
    simp only [List.mem_cons, List.not_mem_nil, or_false] at hc
    rcases hc with rfl | rfl
    · decide
    · unfold shortEscape at hshort
      split at hshort
      all_goals first
        | cases hshort; decide
        | cases hshort
  · split at hc
    · rename_i hplain
      rw [List.mem_singleton.mp hc]
      exact hplain
    · split at hc
      · exact printable_unicodeEscape _ c hc
      · rcases List.mem_append.mp hc with hc | hc
        · exact printable_unicodeEscape _ c hc
        · exact printable_unicodeEscape _ c hc

theorem printable_encodeString (s : String) : ∀ c ∈ encodeString s, Printable c := by
  intro c hc
  simp only [encodeString, List.mem_cons, List.mem_append, List.mem_flatMap, List.not_mem_nil,
    or_false] at hc
  rcases hc with rfl | ⟨d, -, hc⟩ | rfl
  · decide
  · exact printable_escape d c hc
  · decide

theorem printable_joined {α : Type} {write : α → List Char} {items : List α}
    (h : ∀ a ∈ items, ∀ c ∈ write a, Printable c) : ∀ c ∈ joined write items, Printable c := by
  induction items with
  | nil =>
      intro c hc
      cases hc
  | cons a rest ih =>
      intro c hc
      cases rest with
      | nil => exact h a List.mem_cons_self c hc
      | cons b rest =>
          rw [joined, List.mem_append, List.mem_cons, List.mem_cons] at hc
          rcases hc with hc | rfl | rfl | hc
          · exact h a List.mem_cons_self c hc
          · decide
          · decide
          · exact ih (fun x hx => h x (List.mem_cons_of_mem a hx)) c hc

theorem printable_floatstr (x : F) : ∀ c ∈ floats.floatstr x, Printable c := by
  intro c hc
  rcases floats.isFloat_floatstr x with h | ⟨t, ht, -⟩
  · simp only [constants, List.mem_cons, List.not_mem_nil, or_false] at h
    rcases h with h | h | h
    · rw [h] at hc
      exact printable_word rfl c hc
    · rw [h] at hc
      exact printable_word rfl c hc
    · rw [h] at hc
      exact printable_word rfl c hc
  · obtain ⟨-, hchars, -⟩ := matchNumber_reads ht
    rw [hchars, List.append_nil] at hc
    exact printable_isNumberChar (isNumberChar_of_mem ht c hc)

/-- **A text is ASCII on one line**, whatever the strings in it. -/
theorem printable_text (v : Json F) : ∀ c ∈ text floats v, Printable c := by
  induction v with
  | null => exact printable_word rfl
  | bool b =>
      cases b with
      | true => exact printable_word rfl
      | false => exact printable_word rfl
  | int n =>
      intro c hc
      rw [text] at hc
      cases n with
      | ofNat n => exact printable_isDigit (toDigits_isDigit n c hc)
      | negSucc n =>
          rcases List.mem_cons.mp hc with rfl | hc
          · decide
          · exact printable_isDigit (toDigits_isDigit (n + 1) c hc)
  | float x => exact printable_floatstr x
  | str s => exact printable_encodeString s
  | arr items ih =>
      intro c hc
      rw [text, textItems_eq, List.mem_cons, List.mem_append, List.mem_singleton] at hc
      rcases hc with rfl | hc | rfl
      · decide
      · exact printable_joined ih c hc
      · decide
  | obj members ih =>
      intro c hc
      rw [text, textMembers_eq, List.mem_cons, List.mem_append, List.mem_singleton] at hc
      rcases hc with rfl | hc | rfl
      · decide
      · refine printable_joined ?_ c hc
        intro m hm d hd
        simp only [textMember, List.mem_append, List.mem_cons] at hd
        rcases hd with hd | rfl | rfl | hd
        · exact printable_encodeString m.1 d hd
        · decide
        · decide
        · exact ih m hm d hd
      · decide

/-! ### Looking up keys -/

theorem lookup_eq_some_iff {members : List (String × Json F)}
    (hkeys : (members.map Prod.fst).Nodup) {key : String} {v : Json F} :
    members.lookup key = some v ↔ (key, v) ∈ members := by
  induction members with
  | nil => simp
  | cons m rest ih =>
      obtain ⟨key', v'⟩ := m
      rw [List.map_cons, List.nodup_cons] at hkeys
      rw [List.lookup_cons, List.mem_cons]
      by_cases hkey : key = key'
      · subst hkey
        have hnone : (key, v) ∉ rest := fun hmem =>
          hkeys.1 (List.mem_map.mpr ⟨_, hmem, rfl⟩)
        simp [hnone, eq_comm]
      · have hbeq : (key == key') = false := beq_eq_false_iff_ne.mpr hkey
        rw [hbeq]
        simp [hkey, ih hkeys.2]

/-- The order of the keys does not matter to a look-up. -/
theorem get?_sortKeys {v : Json F} (hv : Distinct v) (key : String) :
    (sortKeys v).get? key = (v.get? key).map sortKeys := by
  cases v with
  | obj members =>
      cases hv with
      | obj hkeys _ =>
          have hnodup := nodup_sortMembers hkeys
          rw [sortMembers_eq] at hnodup
          rw [sortKeys, sortMembers_eq]
          apply Option.ext
          intro w
          simp only [get?, Option.map_eq_some_iff]
          rw [lookup_eq_some_iff hnodup, mem_sortedBy, List.mem_map]
          constructor
          · rintro ⟨m, hmem, heq⟩
            obtain ⟨rfl, rfl⟩ := Prod.mk.inj heq
            exact ⟨m.2, (lookup_eq_some_iff hkeys).mpr hmem, rfl⟩
          · rintro ⟨v, hlookup, rfl⟩
            exact ⟨(key, v), (lookup_eq_some_iff hkeys).mp hlookup, rfl⟩
  | null => rfl
  | bool b => rfl
  | int n => rfl
  | float x => rfl
  | str s => rfl
  | arr items => rfl

end Writing

end Json
