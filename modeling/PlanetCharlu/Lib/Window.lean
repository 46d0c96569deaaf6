import Mathlib

/-!
# Fixed windows

At most `limit` attempts in each window, and no key twice in one window. Attempts
are made in the order of the windows they fall into, so it is enough to keep books
of the current window: how many attempts it has seen, and with which keys. `Kept`
relates these books to the log of all attempts.
-/

namespace Window

variable {τ κ : Type*} [LinearOrder τ]

/-- The books `count` and `keys` of the window `current` agree with the `log`, and the
log obeys the rules in every window. -/
structure Kept (limit : ℕ) (log : List (τ × κ)) (current : τ) (count : ℕ) (keys : Finset κ) :
    Prop where
  past : ∀ a ∈ log, a.1 ≤ current
  counted : log.countP (fun a => a.1 = current) = count
  listed : ∀ a ∈ log, a.1 = current → a.2 ∈ keys
  limited : ∀ t, log.countP (fun a => a.1 = t) ≤ limit
  distinct : log.Pairwise fun a b => a.1 = b.1 → a.2 ≠ b.2

namespace Kept

variable {limit count : ℕ} {log : List (τ × κ)} {current next : τ} {keys : Finset κ} {key : κ}

theorem nil (limit : ℕ) (current : τ) (keys : Finset κ) :
    Kept limit ([] : List (τ × κ)) current 0 keys := by
  constructor
  · intro a ha
    cases ha
  · rfl
  · intro a ha
    cases ha
  · intro t
    exact Nat.zero_le limit
  · exact List.Pairwise.nil

/-- A new window starts with empty books. -/
theorem advance (h : Kept limit log current count keys) (hnext : current < next) :
    Kept limit log next 0 ∅ := by
  have hbefore : ∀ a ∈ log, a.1 ≠ next := fun a ha => ((h.past a ha).trans_lt hnext).ne
  constructor
  · intro a ha
    exact (h.past a ha).trans hnext.le
  · rw [List.countP_eq_zero]
    intro a ha
    simpa using hbefore a ha
  · intro a ha hwindow
    exact absurd hwindow (hbefore a ha)
  · exact h.limited
  · exact h.distinct

/-- An attempt that the books allow. -/
theorem attempt [DecidableEq κ] (h : Kept limit log current count keys) (hroom : count < limit)
    (hnew : key ∉ keys) :
    Kept limit (log ++ [(current, key)]) current (count + 1) (insert key keys) := by
  constructor
  · intro a ha
    rcases List.mem_append.mp ha with ha | ha
    · exact h.past a ha
    · rw [List.mem_singleton.mp ha]
  · rw [List.countP_append, h.counted]
    simp
  · intro a ha hwindow
    rcases List.mem_append.mp ha with ha | ha
    · exact Finset.mem_insert_of_mem (h.listed a ha hwindow)
    · rw [List.mem_singleton.mp ha]
      exact Finset.mem_insert_self key keys
  · intro t
    rw [List.countP_append]
    by_cases ht : current = t
    · subst ht
      rw [h.counted]
      simpa using hroom
    · simpa [ht] using h.limited t
  · rw [List.pairwise_append]
    refine ⟨h.distinct, List.pairwise_singleton _ _, ?_⟩
    intro a ha b hb hwindow hkey
    rw [List.mem_singleton.mp hb] at hwindow hkey
    have hold := h.listed a ha hwindow
    rw [hkey] at hold
    exact hnew hold

end Kept

end Window
