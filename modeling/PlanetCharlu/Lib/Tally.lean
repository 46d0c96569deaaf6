import PlanetCharlu.Lib.StableSort

/-!
# Tallies

A counter from keys to integers as a list of pairs in the order in which the keys came,
as Python's `Counter` keeps one. Adding to it is counting: every key has the sum of what
was added for it, the total is the total of what was added, and `mostCommon` only puts the
pairs in another order.
-/

namespace Tally

open StableSort

variable {κ : Type*} [DecidableEq κ]

/-- `tally[k] += n`. -/
def bump (tally : List (κ × Int)) (x : κ × Int) : List (κ × Int) :=
  if x.1 ∈ tally.map Prod.fst then
    tally.map fun y => if y.1 = x.1 then (y.1, y.2 + x.2) else y
  else tally ++ [x]

def tally (xs : List (κ × Int)) : List (κ × Int) := xs.foldl bump []

/-- What was added for a key. -/
def amount (xs : List (κ × Int)) (k : κ) : Int := ((xs.filter fun x => x.1 = k).map Prod.snd).sum

def total (xs : List (κ × Int)) : Int := (xs.map Prod.snd).sum

/-- `most_common`: the largest first, equal ones in the order they have. -/
def mostCommon (tally : List (κ × Int)) : List (κ × Int) := sortedBy (fun x => -x.2) tally

theorem amount_append (xs ys : List (κ × Int)) (k : κ) :
    amount (xs ++ ys) k = amount xs k + amount ys k := by
  simp [amount, List.filter_append]

/-- The counter has every key once, with the amount of the key. -/
structure Counts (xs tally : List (κ × Int)) : Prop where
  nodup : (tally.map Prod.fst).Nodup
  mem : ∀ k n, (k, n) ∈ tally ↔ k ∈ xs.map Prod.fst ∧ n = amount xs k
  sum_eq : total tally = total xs

theorem map_fst_bump_of_mem {t : List (κ × Int)} {x : κ × Int} :
    (t.map fun y => if y.1 = x.1 then (y.1, y.2 + x.2) else y).map Prod.fst = t.map Prod.fst := by
  rw [List.map_map]
  apply List.map_congr_left
  intro y _
  rw [Function.comp_apply]
  split
  · rfl
  · rfl

/-- Adding to the one pair with a key adds to the total. -/
theorem total_bump_of_mem {t : List (κ × Int)} {x : κ × Int} (hnodup : (t.map Prod.fst).Nodup)
    (hmem : x.1 ∈ t.map Prod.fst) :
    total (t.map fun y => if y.1 = x.1 then (y.1, y.2 + x.2) else y) = total t + x.2 := by
  induction t with
  | nil => cases hmem
  | cons y rest ih =>
      rw [List.map_cons, List.nodup_cons] at hnodup
      by_cases hkey : y.1 = x.1
      · have hrest : (rest.map fun y => if y.1 = x.1 then (y.1, y.2 + x.2) else y) = rest := by
          rw [List.map_congr_left (g := id), List.map_id]
          intro z hz
          have hne : z.1 ≠ x.1 := fun heq =>
            hnodup.1 (hkey ▸ heq ▸ List.mem_map.mpr ⟨z, hz, rfl⟩)
          rw [if_neg hne, id_eq]
        rw [List.map_cons, hrest, if_pos hkey]
        simp only [total, List.map_cons, List.sum_cons]
        ring
      · have hmemRest : x.1 ∈ rest.map Prod.fst := by
          rcases List.mem_cons.mp hmem with heq | hrest
          · exact absurd heq.symm hkey
          · exact hrest
        have hrest := ih hnodup.2 hmemRest
        rw [List.map_cons, if_neg hkey]
        simp only [total, List.map_cons, List.sum_cons] at hrest ⊢
        rw [hrest]
        ring

theorem amount_snoc (xs : List (κ × Int)) (x : κ × Int) (k : κ) :
    amount (xs ++ [x]) k = amount xs k + if x.1 = k then x.2 else 0 := by
  rw [amount_append]
  by_cases hk : x.1 = k
  · simp [amount, hk]
  · simp [amount, hk]

omit [DecidableEq κ] in
theorem total_snoc (xs : List (κ × Int)) (x : κ × Int) : total (xs ++ [x]) = total xs + x.2 := by
  simp [total]

theorem amount_of_not_mem {xs : List (κ × Int)} {k : κ} (h : k ∉ xs.map Prod.fst) :
    amount xs k = 0 := by
  have hempty : (xs.filter fun y => y.1 = k) = [] := by
    rw [List.filter_eq_nil_iff]
    intro y hy heq
    exact h (List.mem_map.mpr ⟨y, hy, of_decide_eq_true heq⟩)
  rw [amount, hempty]
  rfl

namespace Counts

variable {xs t : List (κ × Int)} {x : κ × Int}

theorem mem_keys (h : Counts xs t) (k : κ) : k ∈ t.map Prod.fst ↔ k ∈ xs.map Prod.fst := by
  constructor
  · intro hk
    obtain ⟨⟨k', n⟩, hmem, rfl⟩ := List.mem_map.mp hk
    exact ((h.mem k' n).mp hmem).1
  · intro hk
    exact List.mem_map.mpr ⟨(k, amount xs k), (h.mem k _).mpr ⟨hk, rfl⟩, rfl⟩

/-- The key has a pair, which gets more. -/
theorem bump_of_mem (h : Counts xs t) (hold : x.1 ∈ t.map Prod.fst) :
    Counts (xs ++ [x]) (t.map fun y => if y.1 = x.1 then (y.1, y.2 + x.2) else y) := by
  refine ⟨?_, ?_, ?_⟩
  · rw [map_fst_bump_of_mem]
    exact h.nodup
  · intro k n
    rw [List.mem_map, amount_snoc, List.map_append, List.mem_append]
    constructor
    · rintro ⟨⟨k', n'⟩, hmem, heq⟩
      obtain ⟨hk', rfl⟩ := (h.mem k' n').mp hmem
      dsimp only at heq
      split at heq
      · rename_i hkx
        obtain ⟨rfl, rfl⟩ := Prod.mk.inj heq
        exact ⟨Or.inl hk', by rw [if_pos hkx.symm]⟩
      · rename_i hkx
        obtain ⟨rfl, rfl⟩ := Prod.mk.inj heq
        exact ⟨Or.inl hk', by rw [if_neg (Ne.symm hkx), add_zero]⟩
    · rintro ⟨hk, rfl⟩
      have hkxs : k ∈ xs.map Prod.fst := by
        rcases hk with hk | hk
        · exact hk
        · rw [List.map_singleton, List.mem_singleton] at hk
          rw [hk]
          exact (h.mem_keys x.1).mp hold
      refine ⟨(k, amount xs k), (h.mem k _).mpr ⟨hkxs, rfl⟩, ?_⟩
      by_cases hkx : k = x.1
      · rw [if_pos hkx, if_pos hkx.symm]
      · rw [if_neg hkx, if_neg (Ne.symm hkx), add_zero]
  · rw [total_bump_of_mem h.nodup hold, total_snoc, h.sum_eq]

/-- A new key goes to the end. -/
theorem bump_of_not_mem (h : Counts xs t) (hnew : x.1 ∉ t.map Prod.fst) :
    Counts (xs ++ [x]) (t ++ [x]) := by
  have hnone : amount xs x.1 = 0 := amount_of_not_mem (mt (h.mem_keys x.1).mpr hnew)
  have hne : ∀ k ∈ xs.map Prod.fst, x.1 ≠ k := by
    rintro k hk rfl
    exact hnew ((h.mem_keys x.1).mpr hk)
  refine ⟨?_, ?_, ?_⟩
  · rw [List.map_append, List.map_singleton]
    refine h.nodup.append (List.nodup_singleton _) ?_
    intro k hk hkx
    rw [List.mem_singleton.mp hkx] at hk
    exact hnew hk
  · intro k n
    rw [List.mem_append, List.mem_singleton, h.mem, amount_snoc, List.map_append, List.mem_append,
      List.map_singleton, List.mem_singleton]
    constructor
    · rintro (⟨hk, rfl⟩ | heq)
      · exact ⟨Or.inl hk, by rw [if_neg (hne k hk), add_zero]⟩
      · obtain ⟨rfl, rfl⟩ := Prod.mk.inj heq
        exact ⟨Or.inr rfl, by rw [hnone, if_pos rfl, zero_add]⟩
    · rintro ⟨hk | rfl, rfl⟩
      · exact Or.inl ⟨hk, by rw [if_neg (hne k hk), add_zero]⟩
      · right
        rw [hnone, if_pos rfl, zero_add]
  · rw [total_snoc, total_snoc, h.sum_eq]

theorem bump (h : Counts xs t) (x : κ × Int) : Counts (xs ++ [x]) (Tally.bump t x) := by
  unfold Tally.bump
  split
  · rename_i hold
    exact h.bump_of_mem hold
  · rename_i hnew
    exact h.bump_of_not_mem hnew

end Counts

/-- **A counter counts.** -/
theorem counts_tally (xs : List (κ × Int)) : Counts xs (tally xs) := by
  induction xs using List.reverseRecOn with
  | nil => exact ⟨List.nodup_nil, by simp [tally], rfl⟩
  | append_singleton xs x ih =>
      rw [tally, List.foldl_append]
      exact ih.bump x

theorem Counts.mostCommon {xs t : List (κ × Int)} (h : Counts xs t) : Counts xs (mostCommon t) := by
  have hperm : (Tally.mostCommon t).Perm t := List.perm_insertionSort _ t
  refine ⟨(hperm.map Prod.fst).nodup_iff.mpr h.nodup, ?_, ?_⟩
  · intro k n
    rw [hperm.mem_iff]
    exact h.mem k n
  · rw [← h.sum_eq]
    exact (hperm.map Prod.snd).sum_eq

end Tally
