import Mathlib

/-!
# Stable sorting by a key, and loops that stop at the first hit

Two shapes every decision loop has: sort a finite collection by a key whose ties
keep their order, and walk a list until one element produces a result. Both are
stated over arbitrary types. The sort is Mathlib's `List.insertionSort`, which is
stable; the rules below say what a caller may rely on without knowing that.
-/

namespace StableSort

variable {α : Type*} {κ : Type*} [LinearOrder κ]

/-- Sort by a key; elements with equal keys keep their relative order. -/
def sortedBy (key : α → κ) (xs : List α) : List α :=
  xs.insertionSort fun a b => key a ≤ key b

@[simp] theorem mem_sortedBy {key : α → κ} {xs : List α} {x : α} :
    x ∈ sortedBy key xs ↔ x ∈ xs :=
  List.mem_insertionSort _

/-- What stands before an element of a sorted list has no larger key. -/
theorem pairwise_sortedBy (key : α → κ) (xs : List α) :
    (sortedBy key xs).Pairwise fun a b => key a ≤ key b :=
  List.pairwise_insertionSort _ xs

/-- In a sorted list that splits around `x`, whatever is not before `x` has at least
its key. -/
theorem key_le_of_split {key : α → κ} {xs before after : List α} {x z : α}
    (hsorted : xs.Pairwise fun a b => key a ≤ key b) (hsplit : xs = before ++ x :: after)
    (hz : z ∈ xs) (hnot : z ∉ before) : key x ≤ key z := by
  subst hsplit
  have htail := (List.pairwise_append.mp hsorted).2.1
  rcases List.mem_append.mp hz with hbefore | hrest
  · exact absurd hbefore hnot
  · rcases List.mem_cons.mp hrest with rfl | hafter
    · exact le_refl _
    · exact List.rel_of_pairwise_cons htail hafter

/-! ### Keys that may fail -/

section Fallible

universe u

variable {ε : Type*} {α κ : Type u} [LinearOrder κ]

/-- Sort by a key that may fail: every key is computed once, before the comparisons. -/
def sortedByM (key : α → Except ε κ) (xs : List α) : Except ε (List α) := do
  let keyed ← xs.mapM fun x => do return (← key x, x)
  return (sortedBy Prod.fst keyed).map Prod.snd

/-- Where no key fails, it is a sort by the keys. -/
theorem sortedByM_pure (key : α → κ) (xs : List α) :
    sortedByM (fun x => (pure (key x) : Except ε κ)) xs = pure (sortedBy key xs) := by
  have hkeyed : sortedBy Prod.fst (xs.map fun x => (key x, x)) =
      (sortedBy key xs).map fun x => (key x, x) := by
    symm
    apply List.map_insertionSort
    exact fun a _ b _ => Iff.rfl
  have hsnd : (Prod.snd ∘ fun x : α => (key x, x)) = id := rfl
  simp only [sortedByM, pure_bind, List.mapM_pure, hkeyed, List.map_map, hsnd, List.map_id]

end Fallible

end StableSort

namespace FirstHit

variable {α β ε ν : Type*}

/-- Walk a list with a step that may fail, that notes something about each
element, and that stops at the first element producing a result. -/
def scan (review : α → Except ε (Option β × ν)) :
    List α → Except ε (Option β × List (α × ν))
  | [] => .ok (none, [])
  | x :: rest =>
      match review x with
      | .error e => .error e
      | .ok (some found, note) => .ok (some found, [(x, note)])
      | .ok (none, note) =>
          match scan review rest with
          | .error e => .error e
          | .ok (found, notes) => .ok (found, (x, note) :: notes)

/-- A walk that returns something stopped at the first element that produces it, and noted
that element last. -/
theorem exists_last_of_scan {review : α → Except ε (Option β × ν)} {xs : List α} {found : β}
    {notes : List (α × ν)} (h : scan review xs = .ok (some found, notes)) :
    ∃ before x after note, xs = before ++ x :: after ∧ review x = .ok (some found, note) ∧
      (∀ z ∈ before, ∃ note, review z = .ok (none, note)) ∧
      notes.getLast? = some (x, note) := by
  induction xs generalizing notes with
  | nil => simp [scan] at h
  | cons x rest ih =>
      unfold scan at h
      split at h
      · cases h
      · rename_i found' note hx
        simp only [Except.ok.injEq, Prod.mk.injEq, Option.some.injEq] at h
        obtain ⟨rfl, rfl⟩ := h
        exact ⟨[], x, rest, note, rfl, hx, by simp, rfl⟩
      · rename_i note hx
        split at h
        · cases h
        · rename_i found' notes' hrest
          simp only [Except.ok.injEq, Prod.mk.injEq] at h
          obtain ⟨rfl, rfl⟩ := h
          obtain ⟨before, y, after, note', rfl, hy, hbefore, hlast⟩ := ih hrest
          refine ⟨x :: before, y, after, note', rfl, hy, ?_, ?_⟩
          · intro z hz
            rcases List.mem_cons.mp hz with rfl | hz
            · exact ⟨note, hx⟩
            · exact hbefore z hz
          · rw [List.getLast?_cons, hlast]
            rfl

theorem exists_split_of_scan {review : α → Except ε (Option β × ν)} {xs : List α} {found : β}
    {notes : List (α × ν)} (h : scan review xs = .ok (some found, notes)) :
    ∃ before x after note, xs = before ++ x :: after ∧ review x = .ok (some found, note) ∧
      ∀ z ∈ before, ∃ note, review z = .ok (none, note) := by
  obtain ⟨before, x, after, note, hsplit, hx, hbefore, -⟩ := exists_last_of_scan h
  exact ⟨before, x, after, note, hsplit, hx, hbefore⟩

/-- A walk passes the elements that produce nothing and stops at the first that does. -/
theorem scan_of_split {review : α → Except ε (Option β × ν)} {before : List α} {x : α}
    {found : β} {note : ν} (after : List α)
    (hbefore : ∀ z ∈ before, ∃ note, review z = .ok (none, note))
    (hx : review x = .ok (some found, note)) :
    ∃ notes, scan review (before ++ x :: after) = .ok (some found, notes) ∧
      notes.getLast? = some (x, note) := by
  induction before with
  | nil => exact ⟨[(x, note)], by simp only [List.nil_append, scan, hx], rfl⟩
  | cons y before ih =>
      obtain ⟨notes, hrest, hlast⟩ := ih fun z hz => hbefore z (List.mem_cons_of_mem y hz)
      obtain ⟨note', hy⟩ := hbefore y List.mem_cons_self
      refine ⟨(y, note') :: notes, by simp only [List.cons_append, scan, hy, hrest], ?_⟩
      rw [List.getLast?_cons, hlast]
      rfl

/-- Where the reviews never fail, a walk stops at the first element whose review produces
something. -/
theorem stops_at_iff {review : α → Except ε (Option β × ν)} {E : α → Prop} {xs : List α} {x : α}
    (htotal : ∀ y, ∃ out, review y = .ok out)
    (hhit : ∀ y ∈ xs, E y ↔ ∃ found note, review y = .ok (some found, note)) :
    (∃ found notes, scan review xs = .ok (some found, notes) ∧
        notes.getLast?.map Prod.fst = some x) ↔
      ∃ before after, xs = before ++ x :: after ∧ E x ∧ ∀ y ∈ before, ¬ E y := by
  constructor
  · rintro ⟨found, notes, hscan, hlast⟩
    obtain ⟨before, y, after, note, hsplit, hy, hbefore, hnoted⟩ := exists_last_of_scan hscan
    rw [hnoted, Option.map_some, Option.some.injEq] at hlast
    subst hlast
    refine ⟨before, after, hsplit, (hhit y (by simp [hsplit])).mpr ⟨found, note, hy⟩, ?_⟩
    intro z hz heligible
    obtain ⟨found', note', hsome⟩ := (hhit z (by simp [hsplit, hz])).mp heligible
    obtain ⟨note'', hnone⟩ := hbefore z hz
    rw [hsome] at hnone
    cases hnone
  · rintro ⟨before, after, rfl, hx, hbefore⟩
    obtain ⟨found, note, hfound⟩ := (hhit x (by simp)).mp hx
    have hpassed : ∀ z ∈ before, ∃ note, review z = .ok (none, note) := by
      intro z hz
      obtain ⟨⟨found', note'⟩, hout⟩ := htotal z
      rcases found' with _ | found'
      · exact ⟨note', hout⟩
      · exact absurd ((hhit z (by simp [hz])).mpr ⟨found', note', hout⟩) (hbefore z hz)
    obtain ⟨notes, hscan, hlast⟩ := scan_of_split after hpassed hfound
    exact ⟨found, notes, hscan, by rw [hlast, Option.map_some]⟩

/-- What a walk returns, the review of some element returned. -/
theorem exists_of_scan {review : α → Except ε (Option β × ν)} {xs : List α} {found : β}
    {notes : List (α × ν)} (h : scan review xs = .ok (some found, notes)) :
    ∃ x ∈ xs, ∃ note, review x = .ok (some found, note) := by
  obtain ⟨before, x, after, note, rfl, hx, -⟩ := exists_split_of_scan h
  exact ⟨x, by simp, note, hx⟩

/-- A walk that returns nothing saw every element produce nothing. -/
theorem review_of_scan_none {review : α → Except ε (Option β × ν)} {xs : List α}
    {notes : List (α × ν)} (h : scan review xs = .ok (none, notes)) :
    ∀ x ∈ xs, ∃ note, review x = .ok (none, note) := by
  induction xs generalizing notes with
  | nil => simp
  | cons x rest ih =>
      unfold scan at h
      split at h
      · cases h
      · cases h
      · rename_i note hx
        split at h
        · cases h
        · rename_i found' notes' hrest
          simp only [Except.ok.injEq, Prod.mk.injEq] at h
          obtain ⟨rfl, -⟩ := h
          intro z hz
          rcases List.mem_cons.mp hz with rfl | hz
          · exact ⟨note, hx⟩
          · exact ih hrest z hz

/-- The first hit of a list sorted by a key has the least key of all hits. -/
theorem exists_least_of_findSome? {κ : Type*} [LinearOrder κ] {key : α → κ} {f : α → Option β}
    {xs : List α} {y : β} (hsorted : xs.Pairwise fun a b => key a ≤ key b)
    (h : xs.findSome? f = some y) :
    ∃ x ∈ xs, f x = some y ∧ ∀ z ∈ xs, f z ≠ none → key x ≤ key z := by
  obtain ⟨before, x, after, hsplit, hx, hbefore⟩ := List.findSome?_eq_some_iff.mp h
  refine ⟨x, by simp [hsplit], hx, ?_⟩
  intro z hz hhit
  exact StableSort.key_le_of_split hsorted hsplit hz fun hmem => hhit (hbefore z hmem)

open Classical in
/-- The first eligible element is marked exactly when every eligible element is marked
or comes after one that is eligible and marked. -/
theorem first_marked_iff {E R : α → Prop} {xs : List α} :
    (∀ before x after, xs = before ++ x :: after → (∀ y ∈ before, ¬ E y) → E x → R x) ↔
      ∀ before x after, xs = before ++ x :: after → E x → R x ∨ ∃ y ∈ before, E y ∧ R y := by
  constructor
  · intro hfirst before x after hsplit hx
    rcases hfound : before.find? fun y => decide (E y) with _ | y
    · left
      apply hfirst before x after hsplit ?_ hx
      intro y hy
      simpa using List.find?_eq_none.mp hfound y hy
    · right
      obtain ⟨hy, b₁, b₂, rfl, hb₁⟩ := List.find?_eq_some_iff_append.mp hfound
      rw [decide_eq_true_eq] at hy
      refine ⟨y, by simp, hy, ?_⟩
      apply hfirst b₁ y (b₂ ++ x :: after) (by simp [hsplit]) ?_ hy
      intro z hz
      simpa using hb₁ z hz
  · intro horder before x after hsplit hnone hx
    rcases horder before x after hsplit hx with hmarked | ⟨y, hy, heligible, -⟩
    · exact hmarked
    · exact absurd heligible (hnone y hy)

/-- A list splits around its first eligible element in one way only. -/
theorem first_eligible_unique {E : α → Prop} {xs before after before' after' : List α} {x x' : α}
    (hsplit : xs = before ++ x :: after) (hx : E x) (hbefore : ∀ y ∈ before, ¬ E y)
    (hsplit' : xs = before' ++ x' :: after') (hx' : E x') (hbefore' : ∀ y ∈ before', ¬ E y) :
    x = x' := by
  classical
  have hfound : xs.find? (fun y => decide (E y)) = some x := by
    rw [List.find?_eq_some_iff_append]
    refine ⟨by simpa using hx, before, after, hsplit, ?_⟩
    intro y hy
    simpa using hbefore y hy
  have hfound' : xs.find? (fun y => decide (E y)) = some x' := by
    rw [List.find?_eq_some_iff_append]
    refine ⟨by simpa using hx', before', after', hsplit', ?_⟩
    intro y hy
    simpa using hbefore' y hy
  rw [hfound, Option.some.injEq] at hfound'
  exact hfound'

/-- A walk whose reviews never fail does not fail. -/
theorem scan_isOk {review : α → Except ε (Option β × ν)} {xs : List α}
    (h : ∀ x ∈ xs, ∃ out, review x = .ok out) : ∃ out, scan review xs = .ok out := by
  induction xs with
  | nil => exact ⟨_, rfl⟩
  | cons x rest ih =>
      obtain ⟨⟨found, note⟩, hx⟩ := h x List.mem_cons_self
      obtain ⟨⟨found', notes⟩, hrest⟩ := ih fun y hy => h y (List.mem_cons_of_mem _ hy)
      cases found with
      | some found => exact ⟨(some found, [(x, note)]), by simp [scan, hx]⟩
      | none => exact ⟨(found', (x, note) :: notes), by simp [scan, hx, hrest]⟩

/-- Two computations go through, and to the same. Their failures may be of different kinds. -/
def Agree {δ : Type*} (x : Except ε α) (y : Except δ α) : Prop := ∃ a, x = .ok a ∧ y = .ok a

/-- Walks whose reviews agree do. -/
theorem scan_agree {δ : Type*} {review : α → Except ε (Option β × ν)}
    {review' : α → Except δ (Option β × ν)} {xs : List α}
    (h : ∀ x ∈ xs, Agree (review x) (review' x)) : Agree (scan review xs) (scan review' xs) := by
  induction xs with
  | nil => exact ⟨_, rfl, rfl⟩
  | cons x rest ih =>
      obtain ⟨⟨found, note⟩, hx, hx'⟩ := h x List.mem_cons_self
      obtain ⟨⟨found', notes⟩, hrest, hrest'⟩ := ih fun y hy => h y (List.mem_cons_of_mem _ hy)
      cases found with
      | some found => exact ⟨(some found, [(x, note)]), by simp [scan, hx], by simp [scan, hx']⟩
      | none =>
          exact ⟨(found', (x, note) :: notes), by simp [scan, hx, hrest],
            by simp [scan, hx', hrest']⟩

end FirstHit
