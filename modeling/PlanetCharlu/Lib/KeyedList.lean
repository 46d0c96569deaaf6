import Mathlib

/-!
# Lists whose elements have keys

A table kept as a list: elements are found by a key, an update rewrites the
elements with one key and leaves the others, and a view of the table is a filter.
The rules say what an update does to a view.
-/

namespace KeyedList

variable {α κ : Type*}

/-- The view of a rewritten list, when the rewriting leaves alone what the view
keeps and hides the rest. -/
theorem filter_map_eq {f : α → α} {p q : α → Bool} {l : List α}
    (hkeep : ∀ x ∈ l, q x = true → f x = x ∧ p x = true)
    (hhide : ∀ x ∈ l, q x = false → p (f x) = false) :
    (l.map f).filter p = l.filter q := by
  induction l with
  | nil => rfl
  | cons x rest ih =>
      have hrest := ih (fun y hy => hkeep y (List.mem_cons_of_mem x hy))
        (fun y hy => hhide y (List.mem_cons_of_mem x hy))
      rw [List.map_cons, List.filter_cons, List.filter_cons, hrest]
      cases hq : q x with
      | true =>
          obtain ⟨hfix, hp⟩ := hkeep x List.mem_cons_self hq
          rw [hfix, hp]
      | false =>
          rw [hhide x List.mem_cons_self hq, if_neg Bool.false_ne_true, if_neg Bool.false_ne_true]

/-- Where the keys that elements have are distinct, a key names one element. -/
theorem eq_of_nodup_filterMap {key? : α → Option κ} {k : κ} {l : List α} {x y : α}
    (hnodup : (l.filterMap key?).Nodup) (hx : x ∈ l) (hy : y ∈ l) (hkx : key? x = some k)
    (hky : key? y = some k) : x = y := by
  induction l with
  | nil => cases hx
  | cons z rest ih =>
      have hkey : ∀ u ∈ rest, key? u = some k → key? z = some k → False := by
        intro u hu hku hkz
        rw [List.filterMap_cons_some hkz, List.nodup_cons] at hnodup
        exact hnodup.1 (List.mem_filterMap.mpr ⟨u, hu, hku⟩)
      rcases List.mem_cons.mp hx with rfl | hxrest
      · rcases List.mem_cons.mp hy with rfl | hyrest
        · rfl
        · exact (hkey y hyrest hky hkx).elim
      · rcases List.mem_cons.mp hy with rfl | hyrest
        · exact (hkey x hxrest hkx hky).elim
        · exact ih (hnodup.sublist ((List.sublist_cons_self z rest).filterMap key?)) hxrest hyrest

variable [DecidableEq κ] (key : α → κ)

/-- Rewrite the elements with key `k`. -/
def updateAt (k : κ) (f : α → α) (l : List α) : List α :=
  l.map fun x => if key x = k then f x else x

variable {key} {k : κ} {f : α → α} {l : List α} {x : α}

theorem map_key_updateAt (hf : ∀ x, key (f x) = key x) :
    (updateAt key k f l).map key = l.map key := by
  rw [updateAt, List.map_map]
  apply List.map_congr_left
  intro x _
  rw [Function.comp_apply]
  split
  · exact hf x
  · rfl

/-- An update that hides what it rewrites takes it out of the view. -/
theorem filter_updateAt {p : α → Bool} (hhide : ∀ x, p (f x) = false) :
    (updateAt key k f l).filter p = (l.filter p).filter fun x => key x ≠ k := by
  rw [List.filter_filter]
  apply filter_map_eq
  · intro x _ hx
    rw [Bool.and_eq_true, decide_eq_true_eq] at hx
    exact ⟨if_neg hx.1, hx.2⟩
  · intro x _ hx
    by_cases hkey : key x = k
    · rw [if_pos hkey]
      exact hhide x
    · rw [if_neg hkey]
      rw [Bool.and_eq_false_iff, decide_eq_false_iff_not] at hx
      exact hx.resolve_left (fun h => h hkey)

/-- Where keys are distinct, one element and the elements with other keys are all. -/
theorem perm_cons_filter_ne (hnodup : (l.map key).Nodup) (hx : x ∈ l) :
    l.Perm (x :: l.filter fun y => key y ≠ key x) := by
  induction l with
  | nil => cases hx
  | cons y rest ih =>
      rw [List.map_cons, List.nodup_cons] at hnodup
      obtain ⟨hnew, hnodup⟩ := hnodup
      rcases List.mem_cons.mp hx with rfl | hrest
      · have hself : (rest.filter fun y => key y ≠ key x) = rest := by
          rw [List.filter_eq_self]
          intro z hz
          rw [decide_eq_true_eq]
          intro hsame
          exact hnew (hsame ▸ List.mem_map_of_mem hz)
        rw [List.filter_cons, hself]
        simp
      · have hne : key y ≠ key x := by
          intro hsame
          exact hnew (hsame ▸ List.mem_map_of_mem hrest)
        rw [List.filter_cons, if_pos (by simpa using hne)]
        exact ((ih hnodup hrest).cons y).trans (List.Perm.swap x y _)

end KeyedList
