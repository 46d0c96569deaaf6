import PlanetCharlu.Lib.Json.Numbers
import PlanetCharlu.Lib.Json.Strings

/-!
# The scanner of JSON texts

`json.loads`: the scanner, which reads as far as one value goes, and the white space
around it. What the scanner takes it takes by its own characters, except that a number
must have ended.
-/

inductive Json (F : Type) where
  | null
  | bool (b : Bool)
  | int (n : Int)
  | float (x : F)
  | str (s : String)
  | arr (items : List (Json F))
  | obj (members : List (String × Json F))

namespace Json

open Readers

section Values

variable {F : Type}

/-- Induction over a value: the parts of a list and of an object come first. -/
@[induction_eliminator]
theorem induction {P : Json F → Prop} (null : P .null) (bool : ∀ b, P (.bool b))
    (int : ∀ n, P (.int n)) (float : ∀ x, P (.float x)) (str : ∀ s, P (.str s))
    (arr : ∀ items, (∀ v ∈ items, P v) → P (.arr items))
    (obj : ∀ members, (∀ m ∈ members, P m.2) → P (.obj members)) (v : Json F) : P v := by
  refine @Json.rec F P (fun items => ∀ v ∈ items, P v) (fun members => ∀ m ∈ members, P m.2)
    (fun m => P m.2) null bool int float str arr obj ?_ ?_ ?_ ?_ ?_ v
  · intro v hv
    cases hv
  · intro v rest hv hrest w hw
    rcases List.mem_cons.mp hw with rfl | hw
    · exact hv
    · exact hrest w hw
  · intro m hm
    cases hm
  · intro m rest hm hrest w hw
    rcases List.mem_cons.mp hw with rfl | hw
    · exact hm
    · exact hrest w hw
  · intro _ v hv
    exact hv

/-- Assignment to a key of a dictionary: the first place it had, the last value. -/
def assign (dict : List (String × Json F)) (m : String × Json F) : List (String × Json F) :=
  if m.1 ∈ dict.map Prod.fst then dict.map fun old => if old.1 = m.1 then m else old
  else dict ++ [m]

/-- `dict` of a list of pairs. -/
def dict (pairs : List (String × Json F)) : List (String × Json F) := pairs.foldl assign []

/-- `d[key]`, or `none` where the value is no dictionary or has no such key. -/
def get? (v : Json F) (key : String) : Option (Json F) :=
  match v with
  | .obj members => members.lookup key
  | _ => none

/-- No dictionary in the value has a key twice. -/
inductive Distinct : Json F → Prop
  | null : Distinct .null
  | bool (b : Bool) : Distinct (.bool b)
  | int (n : Int) : Distinct (.int n)
  | float (x : F) : Distinct (.float x)
  | str (s : String) : Distinct (.str s)
  | arr {items : List (Json F)} (h : ∀ v ∈ items, Distinct v) : Distinct (.arr items)
  | obj {members : List (String × Json F)} (hkeys : (members.map Prod.fst).Nodup)
      (h : ∀ m ∈ members, Distinct m.2) : Distinct (.obj members)

theorem foldl_assign {pairs before : List (String × Json F)}
    (hkeys : ((before ++ pairs).map Prod.fst).Nodup) :
    pairs.foldl assign before = before ++ pairs := by
  induction pairs generalizing before with
  | nil => exact (List.append_nil before).symm
  | cons m rest ih =>
      have hnew : m.1 ∉ before.map Prod.fst := by
        rw [List.map_append, List.nodup_append] at hkeys
        intro hold
        exact hkeys.2.2 m.1 hold m.1 (by simp) rfl
      have happend : before ++ m :: rest = (before ++ [m]) ++ rest := by simp
      rw [happend] at hkeys ⊢
      rw [List.foldl_cons, assign, if_neg hnew]
      exact ih hkeys

theorem dict_of_nodup {pairs : List (String × Json F)} (hkeys : (pairs.map Prod.fst).Nodup) :
    dict pairs = pairs := foldl_assign hkeys

end Values

/-! ### Lists between brackets -/

section Brackets

/-- `WHITESPACE_STR`. -/
def isWs (c : Char) : Bool := c == ' ' || c == '\t' || c == '\n' || c == '\r'

def skipWs (text : List Char) : List Char := text.dropWhile isWs

/-- The text begins with a character other than white space. -/
def Inked (text : List Char) : Prop := ∃ c rest, text = c :: rest ∧ isWs c = false

theorem skipWs_append {ws text : List Char} (hws : ∀ c ∈ ws, isWs c = true) (htext : Inked text) :
    skipWs (ws ++ text) = text := by
  obtain ⟨c, rest, rfl, hc⟩ := htext
  rw [skipWs, List.dropWhile_append_of_pos hws, List.dropWhile_cons_of_neg (by simp [hc])]

theorem no_ws : ∀ c ∈ ([] : List Char), isWs c = true := by
  intro c hc
  cases hc

theorem skipWs_inked {text : List Char} (h : Inked text) : skipWs text = text :=
  skipWs_append no_ws h

theorem skipWs_split (text : List Char) :
    ∃ ws, (∀ c ∈ ws, isWs c = true) ∧ text = ws ++ skipWs text :=
  ⟨text.takeWhile isWs, fun _ hc => List.mem_takeWhile_imp hc,
    List.takeWhile_append_dropWhile.symm⟩

theorem inked_skipWs {text : List Char} {c : Char} {rest : List Char}
    (h : skipWs text = c :: rest) : isWs c = false := by
  have hhead := List.head?_dropWhile_not isWs text
  rw [← skipWs, h] at hhead
  simpa using hhead

theorem inked_append {text : List Char} (h : Inked text) (more : List Char) :
    Inked (text ++ more) := by
  obtain ⟨c, rest, rfl, hc⟩ := h
  exact ⟨c, rest ++ more, rfl, hc⟩

/-- White space, then what ends an element: nothing goes on with a number. -/
theorem stops_ws {ws rest : List Char} {c : Char} (hws : ∀ c ∈ ws, isWs c = true)
    (hc : isNumberChar c = false) : Stops (ws ++ c :: rest) := by
  cases ws with
  | nil => exact stops_cons hc rest
  | cons d tail =>
      refine stops_cons ?_ _
      have hd := hws d List.mem_cons_self
      simp only [isWs, Bool.or_eq_true, beq_iff_eq] at hd
      rcases hd with ((rfl | rfl) | rfl) | rfl <;> rfl

variable {α : Type}

/-- Elements with commas between them, up to the closing bracket: the loops of
`JSONArray` and of `JSONObject`. -/
def separated (close : Char) (p : Reader Char α) : Nat → Reader Char (List α)
  | 0, _ => none
  | fuel + 1, text => do
      let (a, rest) ← p text
      match skipWs rest with
      | [] => none
      | c :: rest =>
          if c = close then return ([a], rest)
          else if c = ',' then do
            let (as, rest) ← separated close p fuel (skipWs rest)
            return (a :: as, rest)
          else none

/-- What stands behind an opening bracket. -/
def bracketed (close : Char) (p : Reader Char α) : Reader Char (List α) := fun text =>
  match skipWs text with
  | [] => none
  | c :: rest =>
      if c = close then some ([], rest) else separated close p text.length (c :: rest)

variable {close : Char} {p : Reader Char α}

theorem separated_one {u ws : List Char} {a : α} (hws : ∀ c ∈ ws, isWs c = true)
    (hclose : isNumberChar close = false ∧ isWs close = false) (ha : Reads Stops p u a) {n : Nat}
    (hn : 0 < n) : Reads Anything (separated close p n) (u ++ (ws ++ [close])) [a] := by
  intro rest _
  obtain ⟨m, rfl⟩ := Nat.exists_eq_succ_of_ne_zero (Nat.pos_iff_ne_zero.mp hn)
  have htext : u ++ (ws ++ [close]) ++ rest = u ++ (ws ++ close :: rest) := by simp
  rw [htext, separated, ha _ (stops_ws hws hclose.1)]
  simp only [Option.bind_eq_bind, Option.bind_some,
    skipWs_append hws ⟨close, rest, rfl, hclose.2⟩, if_pos, pure]

theorem separated_cons {u us ws ws' : List Char} {a : α} {as : List α} {n : Nat}
    (hws : ∀ c ∈ ws, isWs c = true) (hws' : ∀ c ∈ ws', isWs c = true) (hus : Inked us)
    (hclose : close ≠ ',') (ha : Reads Stops p u a)
    (has : Reads Anything (separated close p n) us as) :
    Reads Anything (separated close p (n + 1)) (u ++ (ws ++ ',' :: (ws' ++ us))) (a :: as) := by
  intro rest _
  have htext : u ++ (ws ++ ',' :: (ws' ++ us)) ++ rest =
      u ++ (ws ++ ',' :: (ws' ++ (us ++ rest))) := by simp
  have hcomma : skipWs (ws ++ ',' :: (ws' ++ (us ++ rest))) = ',' :: (ws' ++ (us ++ rest)) :=
    skipWs_append hws ⟨',', _, rfl, rfl⟩
  rw [htext, separated, ha _ (stops_ws hws rfl)]
  simp only [Option.bind_eq_bind, Option.bind_some, hcomma, if_neg (Ne.symm hclose),
    skipWs_append hws' (inked_append hus rest), has rest trivial, if_true, pure]

theorem bracketed_nil {ws : List Char} (hws : ∀ c ∈ ws, isWs c = true)
    (hclose : isWs close = false) : Reads Anything (bracketed close p) (ws ++ [close]) [] := by
  intro rest _
  have htext : ws ++ [close] ++ rest = ws ++ close :: rest := by simp
  rw [htext, bracketed, skipWs_append hws ⟨close, rest, rfl, hclose⟩]
  exact if_pos rfl

theorem bracketed_separated {u ws : List Char} {c : Char} {as : List α}
    (hws : ∀ c ∈ ws, isWs c = true) (hink : isWs c = false) (hne : c ≠ close)
    (has : ReadsWithin Anything (separated close p) (c :: u) as) :
    Reads Anything (bracketed close p) (ws ++ c :: u) as := by
  intro rest _
  have htext : ws ++ c :: u ++ rest = ws ++ c :: (u ++ rest) := by simp
  have hlength : (c :: u).length ≤ (ws ++ c :: (u ++ rest)).length := by
    simp only [List.length_cons, List.length_append]
    omega
  rw [htext, bracketed, skipWs_append hws ⟨c, u ++ rest, rfl, hink⟩]
  dsimp only
  rw [if_neg hne]
  exact has _ hlength rest trivial

/-- The elements and what is written between them. -/
def joined (write : α → List Char) : List α → List Char
  | [] => []
  | [a] => write a
  | a :: b :: rest => write a ++ ',' :: ' ' :: joined write (b :: rest)

/-- **Written elements are read back.** -/
theorem bracketed_joined {write : α → List Char} {items : List α}
    (hclose : isNumberChar close = false ∧ isWs close = false ∧ close ≠ ',')
    (hhead : ∀ a ∈ items, ∃ c rest, write a = c :: rest ∧ isWs c = false ∧ c ≠ close)
    (hitems : ∀ a ∈ items, Reads Stops p (write a) a) :
    Reads Anything (bracketed close p) (joined write items ++ [close]) items := by
  have hblank : ∀ c ∈ [' '], isWs c = true := by
    intro c hc
    rw [List.mem_singleton.mp hc]
    rfl
  have hloop : ∀ items : List α, items ≠ [] → (∀ a ∈ items, Inked (write a)) →
      (∀ a ∈ items, Reads Stops p (write a) a) →
      ReadsWithin Anything (separated close p) (joined write items ++ [close]) items := by
    intro items hne hink hitems
    -- each element takes one iteration, and the text behind it is shorter
    induction items with
    | nil => exact absurd rfl hne
    | cons a rest ih =>
        have ha := hitems a List.mem_cons_self
        intro n hn
        cases rest with
        | nil =>
            have hpos : 0 < n := by
              simp only [List.length_append, List.length_singleton] at hn
              omega
            exact separated_one no_ws ⟨hclose.1, hclose.2.1⟩ ha hpos
        | cons b rest =>
            have htext : joined write (a :: b :: rest) ++ [close] =
                write a ++ ([] ++ ',' :: ([' '] ++ (joined write (b :: rest) ++ [close]))) := by
              simp [joined]
            have hinked : Inked (joined write (b :: rest) ++ [close]) := by
              have hb : Inked (write b) := hink b (by simp)
              cases rest with
              | nil => exact inked_append hb _
              | cons d rest =>
                  rw [joined, List.append_assoc]
                  exact inked_append hb _
            obtain ⟨m, rfl⟩ : ∃ m, n = m + 1 := by
              refine ⟨n - 1, ?_⟩
              simp only [List.length_append, List.length_singleton] at hn
              omega
            have hm : (joined write (b :: rest) ++ [close]).length ≤ m := by
              rw [htext] at hn
              simp only [List.length_append, List.length_cons, List.length_nil] at hn ⊢
              omega
            rw [htext]
            refine separated_cons no_ws hblank hinked hclose.2.2 ha ?_
            exact ih (List.cons_ne_nil b rest) (fun x hx => hink x (List.mem_cons_of_mem a hx))
              (fun x hx => hitems x (List.mem_cons_of_mem a hx)) m hm
  cases items with
  | nil => exact bracketed_nil no_ws hclose.2.1
  | cons a rest =>
      have hwithin := hloop (a :: rest) (List.cons_ne_nil a rest)
        (fun x hx => by
          obtain ⟨c, tail, heq, hc, -⟩ := hhead x hx
          exact ⟨c, tail, heq, hc⟩) hitems
      obtain ⟨c, tail, heq, hink, hne⟩ := hhead a List.mem_cons_self
      obtain ⟨more, hmore⟩ : ∃ more, joined write (a :: rest) ++ [close] = c :: more := by
        cases rest with
        | nil => exact ⟨tail ++ [close], by rw [joined, heq]; rfl⟩
        | cons b rest => exact ⟨_, by rw [joined, heq]; rfl⟩
      rw [hmore] at hwithin ⊢
      exact bracketed_separated no_ws hink hne hwithin

/-- The loop decides by what it takes, when the reader of its elements does. -/
theorem separated_local {ps : Nat → Reader Char α} {k : Nat}
    (hclose : isNumberChar close = false ∧ isWs close = false ∧ close ≠ ',')
    (hp : ∀ text a rest, ps k text = some (a, rest) →
      ∃ u ≠ [], text = u ++ rest ∧ ReadsWithin Stops ps u a)
    {n : Nat} {text rest : List Char} {as : List α}
    (h : separated close (ps k) n text = some (as, rest)) :
    ∃ u ≠ [], text = u ++ rest ∧
      ∀ m, u.length ≤ m → ReadsWithin Anything (separated close (ps m)) u as := by
  induction n generalizing text as with
  | zero => cases h
  | succ n ih =>
      simp only [separated, Option.bind_eq_bind, Option.bind_eq_some_iff] at h
      obtain ⟨⟨a, tail⟩, ha, h⟩ := h
      obtain ⟨u, hne, rfl, hreads⟩ := hp _ _ _ ha
      obtain ⟨ws, hws, htail⟩ := skipWs_split tail
      dsimp only at h
      split at h
      · cases h
      · rename_i c after hafter
        rw [hafter] at htail
        split at h
        · rename_i hc
          obtain ⟨rfl, rfl⟩ := Prod.mk.inj (Option.some_injective _ h)
          refine ⟨u ++ (ws ++ [close]), List.append_ne_nil_of_left_ne_nil hne _, ?_, ?_⟩
          · rw [htail, hc]
            simp
          · intro m hm j hj
            simp only [List.length_append, List.length_singleton] at hm hj
            exact separated_one hws ⟨hclose.1, hclose.2.1⟩ (hreads m (by omega)) (by omega)
        · split at h
          · rename_i hc
            simp only [Option.bind_eq_some_iff] at h
            obtain ⟨⟨as', rest'⟩, hrest, heq⟩ := h
            obtain ⟨rfl, rfl⟩ := Prod.mk.inj (Option.some_injective _ heq)
            obtain ⟨us, husne, hus, hwithin⟩ := ih hrest
            obtain ⟨ws', hws', hsplit⟩ := skipWs_split after
            have hink : Inked us := by
              obtain ⟨d, tail', rfl⟩ := List.exists_cons_of_ne_nil husne
              rw [List.cons_append] at hus
              exact ⟨d, tail', rfl, inked_skipWs hus⟩
            refine ⟨u ++ (ws ++ ',' :: (ws' ++ us)), List.append_ne_nil_of_left_ne_nil hne _, ?_, ?_⟩
            · rw [htail, hsplit, hus, hc]
              simp
            · intro m hm j hj
              simp only [List.length_append, List.length_cons] at hm hj
              obtain ⟨i, rfl⟩ : ∃ i, j = i + 1 := ⟨j - 1, by omega⟩
              exact separated_cons hws hws' hink hclose.2.2 (hreads m (by omega))
                (hwithin m (by omega) i (by omega))
          · cases h

theorem bracketed_local {ps : Nat → Reader Char α} {k : Nat}
    (hclose : isNumberChar close = false ∧ isWs close = false ∧ close ≠ ',')
    (hp : ∀ text a rest, ps k text = some (a, rest) →
      ∃ u ≠ [], text = u ++ rest ∧ ReadsWithin Stops ps u a)
    {text rest : List Char} {as : List α} (h : bracketed close (ps k) text = some (as, rest)) :
    ∃ u ≠ [], text = u ++ rest ∧
      ReadsWithin Anything (fun m => bracketed close (ps m)) u as := by
  obtain ⟨ws, hws, htext⟩ := skipWs_split text
  unfold bracketed at h
  split at h
  · cases h
  · rename_i c tail htail
    rw [htail] at htext
    split at h
    · rename_i hc
      obtain ⟨rfl, rfl⟩ := Prod.mk.inj (Option.some_injective _ h)
      refine ⟨ws ++ [close], by simp, ?_, ?_⟩
      · rw [htext, hc]
        simp
      · intro m _
        exact bracketed_nil hws hclose.2.1
    · rename_i hc
      obtain ⟨u, hne, hu, hwithin⟩ := separated_local hclose hp h
      obtain ⟨d, more, rfl⟩ := List.exists_cons_of_ne_nil hne
      rw [List.cons_append] at hu
      obtain ⟨rfl, rfl⟩ := List.cons.inj hu
      refine ⟨ws ++ c :: more, by simp, by rw [htext]; simp, ?_⟩
      intro m hm
      rw [List.length_append] at hm
      exact bracketed_separated hws (inked_skipWs htail) hc (hwithin m (by omega))

end Brackets

/-! ### The scanner -/

section Scanner

variable {F : Type}

/-- A fixed word. -/
def literal (word : List Char) (v : Json F) : Reader Char (Json F) := fun text =>
  if word <+: text then some (v, text.drop word.length) else none

theorem literal_reads (word : List Char) (v : Json F) :
    Reads Anything (literal word v) word v := by
  intro rest _
  rw [literal, if_pos (List.prefix_append word rest), List.drop_left]

theorem literal_local {word : List Char} (hword : word ≠ []) (v : Json F) :
    Local Anything (literal word v) := by
  intro text a rest h
  unfold literal at h
  split at h
  · rename_i hbegins
    obtain ⟨more, rfl⟩ := hbegins
    rw [List.drop_left] at h
    obtain ⟨rfl, rfl⟩ := Prod.mk.inj (Option.some_injective _ h)
    exact ⟨word, hword, rfl, literal_reads word v⟩
  · cases h

/-- A key, a colon and a value. -/
def member (value : Reader Char (Json F)) : Reader Char (String × Json F) := fun text =>
  match text with
  | [] => none
  | c :: rest =>
      if c = '\x22' then do
        let (key, rest) ← scanstring rest
        match skipWs rest with
        | [] => none
        | c :: rest =>
            if c = ':' then do
              let (v, rest) ← value (skipWs rest)
              return ((key, v), rest)
            else none
      else none

theorem member_reads {value : Reader Char (Json F)} {ku vu ws ws' : List Char} {key : String}
    {v : Json F} (hkey : Reads Anything scanstring ku key) (hws : ∀ c ∈ ws, isWs c = true)
    (hws' : ∀ c ∈ ws', isWs c = true) (hink : Inked vu) (hv : Reads Stops value vu v) :
    Reads Stops (member value) ('\x22' :: (ku ++ (ws ++ ':' :: (ws' ++ vu)))) (key, v) := by
  intro rest hrest
  have htext : '\x22' :: (ku ++ (ws ++ ':' :: (ws' ++ vu))) ++ rest =
      '\x22' :: (ku ++ (ws ++ ':' :: (ws' ++ (vu ++ rest)))) := by simp
  have hcolon : skipWs (ws ++ ':' :: (ws' ++ (vu ++ rest))) = ':' :: (ws' ++ (vu ++ rest)) :=
    skipWs_append hws ⟨':', _, rfl, rfl⟩
  rw [htext, member]
  simp only [hkey _ trivial, hcolon, skipWs_append hws' (inked_append hink rest), hv rest hrest,
    Option.bind_eq_bind, Option.bind_some, if_true, pure]

theorem member_local {values : Nat → Reader Char (Json F)} {k : Nat}
    (hvalue : ∀ text v rest, values k text = some (v, rest) →
      ∃ u ≠ [], text = u ++ rest ∧ ReadsWithin Stops values u v)
    {text rest : List Char} {m : String × Json F} (h : member (values k) text = some (m, rest)) :
    ∃ u ≠ [], text = u ++ rest ∧ ReadsWithin Stops (fun n => member (values n)) u m := by
  unfold member at h
  split at h
  · cases h
  · rename_i c tail
    split at h
    · rename_i hquote
      simp only [Option.bind_eq_bind, Option.bind_eq_some_iff] at h
      obtain ⟨⟨key, tail'⟩, hkey, h⟩ := h
      obtain ⟨ku, -, rfl, hreads⟩ := scanstring_local _ _ _ hkey
      obtain ⟨ws, hws, hsplit⟩ := skipWs_split tail'
      dsimp only at h
      split at h
      · cases h
      · rename_i d after hafter
        rw [hafter] at hsplit
        split at h
        · rename_i hcolon
          simp only [Option.bind_eq_some_iff] at h
          obtain ⟨⟨v, rest'⟩, hv, heq⟩ := h
          obtain ⟨rfl, rfl⟩ := Prod.mk.inj (Option.some_injective _ heq)
          obtain ⟨vu, hne, hvu, hwithin⟩ := hvalue _ _ _ hv
          obtain ⟨ws', hws', hsplit'⟩ := skipWs_split after
          have hink : Inked vu := by
            obtain ⟨x, more, rfl⟩ := List.exists_cons_of_ne_nil hne
            rw [List.cons_append] at hvu
            exact ⟨x, more, rfl, inked_skipWs hvu⟩
          refine ⟨'\x22' :: (ku ++ (ws ++ ':' :: (ws' ++ vu))), List.cons_ne_nil _ _, ?_, ?_⟩
          · rw [hquote, hsplit, hcolon, hsplit', hvu]
            simp
          · intro n hn
            simp only [List.length_cons, List.length_append] at hn
            exact member_reads hreads hws hws' hink (hwithin n (by omega))
        · cases h
    · cases h

variable (floats : Floats F)

/-- A number, an integer where it has no fraction and no exponent. -/
def number : Reader Char (Json F) := fun text =>
  match matchNumber text with
  | some (t, rest) =>
      some (if t.frac = [] ∧ t.exp = [] then .int (intOf t.integer)
        else .float (floats.float t.chars), rest)
  | none => literal "-Infinity".toList (.float (floats.float "-Infinity".toList)) text

/-- The readers for what stands behind a first character, where the character tells. -/
def behind (value : Reader Char (Json F)) (c : Char) : Option (Reader Char (Json F)) :=
  if c = '\x22' then
    some (mapped .str scanstring)
  else if c = '\x7b' then
    some (mapped (fun members => .obj (dict members)) (bracketed '\x7d' (member value)))
  else if c = '[' then
    some (mapped .arr (bracketed ']' value))
  else if c = 'n' then some (literal "ull".toList .null)
  else if c = 't' then some (literal "rue".toList (.bool true))
  else if c = 'f' then some (literal "alse".toList (.bool false))
  else if c = 'N' then some (literal "aN".toList (.float (floats.float "NaN".toList)))
  else if c = 'I' then some (literal "nfinity".toList (.float (floats.float "Infinity".toList)))
  else none

/-- `scan_once`, with a bound on the nesting. -/
def scanOnce : Nat → Reader Char (Json F)
  | 0, _ => none
  | fuel + 1, text =>
      match text with
      | [] => none
      | c :: rest =>
          match behind floats (scanOnce fuel) c with
          | some p => p rest
          | none => number floats text

/-- The byte order mark, which `loads` refuses at the beginning. -/
def bom : Char := Char.ofNat 0xfeff

/-- `json.loads`. -/
def loads (text : List Char) : Option (Json F) :=
  if text.head? = some bom then none
  else
    match scanOnce floats text.length (skipWs text) with
    | some (v, rest) => if skipWs rest = [] then some v else none
    | none => none

variable {floats}

theorem number_reads {text rest : List Char} {v : Json F}
    (h : number floats text = some (v, rest)) :
    (∃ c tail, text = c :: tail ∧ (c.isDigit = true ∨ c = '-')) ∧
      ∃ u ≠ [], text = u ++ rest ∧ Reads Stops (number floats) u v := by
  unfold number at h
  split at h
  · rename_i t tail hmatch
    obtain ⟨rfl, rfl⟩ := Prod.mk.inj (Option.some_injective _ h)
    obtain ⟨hne, htext, hreads⟩ := matchNumber_reads hmatch
    constructor
    · cases text with
      | nil => cases hmatch
      | cons c tail' =>
          refine ⟨c, tail', rfl, ?_⟩
          by_cases hminus : c = '-'
          · exact Or.inr hminus
          · left
            rw [matchNumber, integer_of_ne hminus] at hmatch
            split at hmatch
            · cases hmatch
            · rename_i hwhole
              exact (whole_head hwhole).1
    · refine ⟨t.chars, ?_, htext, ?_⟩
      · rw [NumberText.chars, List.append_assoc]
        exact List.append_ne_nil_of_left_ne_nil hne _
      · intro rest' hrest'
        rw [number, hreads rest' hrest']
  · rename_i hmatch
    -- a word that begins like a number
    obtain ⟨u, hne, rfl, hreads⟩ := literal_local (by decide) _ _ _ _ h
    have hword : u = "-Infinity".toList := by
      unfold literal at h
      split at h
      · rename_i hbegins
        obtain ⟨more, hmore⟩ := hbegins
        rw [← hmore, List.drop_left] at h
        obtain ⟨-, rfl⟩ := Prod.mk.inj (Option.some_injective _ h)
        exact (List.append_cancel_right hmore).symm
      · cases h
    constructor
    · rw [hword]
      exact ⟨'-', _, rfl, Or.inr rfl⟩
    · refine ⟨u, hne, rfl, ?_⟩
      intro rest' _
      have hnone : matchNumber (u ++ rest') = none := by
        rw [hword]
        rfl
      rw [number, hnone]
      exact hreads rest' trivial

/-- What stands behind a character that tells is taken whatever follows. -/
theorem behind_local {k : Nat} {c : Char} {p : Reader Char (Json F)}
    (hscan : ∀ text v rest, scanOnce floats k text = some (v, rest) →
      ∃ u ≠ [], text = u ++ rest ∧ ReadsWithin Stops (scanOnce floats) u v)
    (hbehind : behind floats (scanOnce floats k) c = some p) {text rest : List Char} {v : Json F}
    (h : p text = some (v, rest)) :
    ∃ u, text = u ++ rest ∧ ∀ m, u.length ≤ m →
      ∃ q, behind floats (scanOnce floats m) c = some q ∧ Reads Anything q u v := by
  have hword : ∀ (word : List Char) (w : Json F), word ≠ [] → p = literal word w →
      (∀ m, behind floats (scanOnce floats m) c = some (literal word w)) →
      ∃ u, text = u ++ rest ∧ ∀ m, u.length ≤ m →
        ∃ q, behind floats (scanOnce floats m) c = some q ∧ Reads Anything q u v := by
    rintro word w hne rfl hm
    obtain ⟨u, -, htext, hreads⟩ := literal_local hne _ _ _ _ h
    exact ⟨u, htext, fun m _ => ⟨_, hm m, hreads⟩⟩
  unfold behind at hbehind
  split_ifs at hbehind with h1 h2 h3 h4 h5 h6 h7 h8
  · obtain rfl := Option.some_injective _ hbehind
    obtain ⟨s, hs, rfl⟩ := mapped_eq_some h
    obtain ⟨u, -, htext, hreads⟩ := scanstring_local _ _ _ hs
    refine ⟨u, htext, ?_⟩
    intro m _
    exact ⟨_, if_pos h1, hreads.mapped _⟩
  · obtain rfl := Option.some_injective _ hbehind
    obtain ⟨members, hmembers, rfl⟩ := mapped_eq_some h
    obtain ⟨u, -, htext, hwithin⟩ := @bracketed_local _ '\x7d'
      (fun n => member (scanOnce floats n)) k (by decide) (fun _ _ _ => member_local hscan) _ _ _
      hmembers
    refine ⟨u, htext, ?_⟩
    intro m hm
    have hreads : Reads Anything (bracketed '\x7d' (member (scanOnce floats m))) u members :=
      hwithin m hm
    exact ⟨_, by rw [behind, if_neg h1, if_pos h2], hreads.mapped _⟩
  · obtain rfl := Option.some_injective _ hbehind
    obtain ⟨items, hitems, rfl⟩ := mapped_eq_some h
    obtain ⟨u, -, htext, hwithin⟩ := bracketed_local (by decide) hscan hitems
    refine ⟨u, htext, ?_⟩
    intro m hm
    have hreads : Reads Anything (bracketed ']' (scanOnce floats m)) u items := hwithin m hm
    exact ⟨_, by rw [behind, if_neg h1, if_neg h2, if_pos h3], hreads.mapped _⟩
  · refine hword _ _ (by decide) (Option.some_injective _ hbehind).symm ?_
    intro m
    rw [behind, if_neg h1, if_neg h2, if_neg h3, if_pos h4]
  · refine hword _ _ (by decide) (Option.some_injective _ hbehind).symm ?_
    intro m
    rw [behind, if_neg h1, if_neg h2, if_neg h3, if_neg h4, if_pos h5]
  · refine hword _ _ (by decide) (Option.some_injective _ hbehind).symm ?_
    intro m
    rw [behind, if_neg h1, if_neg h2, if_neg h3, if_neg h4, if_neg h5, if_pos h6]
  · refine hword _ _ (by decide) (Option.some_injective _ hbehind).symm ?_
    intro m
    rw [behind, if_neg h1, if_neg h2, if_neg h3, if_neg h4, if_neg h5, if_neg h6, if_pos h7]
  · refine hword _ _ (by decide) (Option.some_injective _ hbehind).symm ?_
    intro m
    rw [behind, if_neg h1, if_neg h2, if_neg h3, if_neg h4, if_neg h5, if_neg h6, if_neg h7,
      if_pos h8]

theorem behind_eq_none {value : Reader Char (Json F)} {c : Char}
    (h : c.isDigit = true ∨ c = '-') : behind floats value c = none := by
  have hne : ∀ d : Char, d.isDigit = false → d ≠ '-' → c ≠ d := by
    rintro d hd hminus rfl
    rcases h with h | h
    · rw [h] at hd
      cases hd
    · exact hminus h
  rw [behind, if_neg (hne _ rfl (by decide)), if_neg (hne _ rfl (by decide)),
    if_neg (hne _ rfl (by decide)), if_neg (hne _ rfl (by decide)), if_neg (hne _ rfl (by decide)),
    if_neg (hne _ rfl (by decide)), if_neg (hne _ rfl (by decide)), if_neg (hne _ rfl (by decide))]

theorem scanOnce_behind {n : Nat} {c : Char} {p : Reader Char (Json F)} {u : List Char} {v : Json F}
    (hbehind : behind floats (scanOnce floats n) c = some p) (h : Reads Anything p u v) :
    Reads Anything (scanOnce floats (n + 1)) (c :: u) v := by
  intro rest hrest
  rw [List.cons_append, scanOnce, hbehind]
  exact h rest hrest

theorem scanOnce_number {n : Nat} {c : Char} {u : List Char} {v : Json F}
    (hc : c.isDigit = true ∨ c = '-') (h : Reads Stops (number floats) (c :: u) v) :
    Reads Stops (scanOnce floats (n + 1)) (c :: u) v := by
  intro rest hrest
  rw [List.cons_append, scanOnce, behind_eq_none hc]
  exact h rest hrest

/-- **The scanner decides by what it takes**: a number by its characters and by the fact
that it ends there, everything else by its characters alone. -/
theorem scanOnce_local {n : Nat} {text rest : List Char} {v : Json F}
    (h : scanOnce floats n text = some (v, rest)) :
    ∃ u ≠ [], text = u ++ rest ∧ ReadsWithin Stops (scanOnce floats) u v ∧
      ((∀ c ∈ text.head?, ¬(c.isDigit = true ∨ c = '-')) →
        ReadsWithin Anything (scanOnce floats) u v) := by
  induction n generalizing text rest v with
  | zero => cases h
  | succ n ih =>
      have hscan : ∀ text v rest, scanOnce floats n text = some (v, rest) →
          ∃ u ≠ [], text = u ++ rest ∧ ReadsWithin Stops (scanOnce floats) u v := by
        intro text v rest hn
        obtain ⟨u, hne, htext, hreads, -⟩ := ih hn
        exact ⟨u, hne, htext, hreads⟩
      cases text with
      | nil => cases h
      | cons c tail =>
          rw [scanOnce] at h
          split at h
          · rename_i p hbehind
            obtain ⟨u, rfl, hm⟩ := behind_local hscan hbehind h
            have hwithin : ReadsWithin Anything (scanOnce floats) (c :: u) v := by
              intro m hlength
              cases m with
              | zero => cases hlength
              | succ m =>
                  obtain ⟨q, hq, hreads⟩ := hm m (Nat.le_of_succ_le_succ hlength)
                  exact scanOnce_behind hq hreads
            exact ⟨c :: u, List.cons_ne_nil c u, rfl, fun m hlength => (hwithin m hlength).of_anything,
              fun _ => hwithin⟩
          · -- digits could go on behind what was read, so the end of the number matters
            obtain ⟨⟨d, tail', heq, hd⟩, u, hne, htext, hreads⟩ := number_reads h
            obtain ⟨rfl, rfl⟩ := List.cons.inj heq
            obtain ⟨x, more, rfl⟩ := List.exists_cons_of_ne_nil hne
            obtain rfl : c = x := (List.cons.inj htext).1
            refine ⟨c :: more, hne, htext, ?_, ?_⟩
            · intro m hlength
              cases m with
              | zero => cases hlength
              | succ m => exact scanOnce_number hd hreads
            · intro hnot
              exact absurd hd (hnot c rfl)

end Scanner

end Json
