import Mathlib

/-!
# A reserve that shrinks toward a deadline

A stock is consumed at most at a fixed rate per tick until a finish. Promises are
amounts somebody may still collect until a deadline. A stock protects its
promises when, with all of them paid, every one of them leaves the consumption of
its own remaining life and of a grace period after it.

`Protected` survives what can happen to such a stock: income, the payment of a
promise, the loss of promises, a tick that consumes at most the rate, and a new
promise that was checked against the longest deadline. The stock is an integer, so
that a change of the stock that is only planned can be stated without asking
whether it could be paid.
-/

namespace Reserve

structure Promise where
  amount : ℕ
  deadline : ℕ

/-- Consumption until `grace` ticks after the deadline, or until the finish. -/
def floor (rate grace finish now deadline : ℕ) : ℕ :=
  rate * min (grace + (deadline - now)) (finish - now)

def total (ps : List Promise) : ℕ := (ps.map Promise.amount).sum

@[simp] theorem total_cons (p : Promise) (ps : List Promise) :
    total (p :: ps) = p.amount + total ps := by
  simp [total]

theorem total_perm {ps qs : List Promise} (h : ps.Perm qs) : total ps = total qs :=
  (h.map _).sum_eq

theorem total_sublist {ps qs : List Promise} (h : ps.Sublist qs) : total ps ≤ total qs :=
  (h.map _).sum_le_sum fun _ _ => Nat.zero_le _

section Floor

variable {rate grace finish now deadline later : ℕ}

/-- A tick takes the rate off the floor. -/
theorem floor_tick (hdeadline : now < deadline) (hfinish : now < finish) :
    floor rate grace finish (now + 1) deadline + rate = floor rate grace finish now deadline := by
  have hlife : min (grace + (deadline - now)) (finish - now) =
      min (grace + (deadline - (now + 1))) (finish - (now + 1)) + 1 := by omega
  unfold floor
  rw [hlife, Nat.mul_succ]

end Floor

variable {rate grace finish now : ℕ} {stock stock' : ℤ} {ps qs : List Promise} {p : Promise}

variable (rate grace finish now) in
def Protected (stock : ℤ) (ps : List Promise) : Prop :=
  ∀ p ∈ ps, 0 < p.amount → (floor rate grace finish now p.deadline + total ps : ℤ) ≤ stock

theorem protected_nil : Protected rate grace finish now stock [] := by
  intro p hp
  cases hp

theorem Protected.income (h : Protected rate grace finish now stock ps) (hstock : stock ≤ stock') :
    Protected rate grace finish now stock' ps := by
  intro p hp hpos
  exact le_trans (h p hp hpos) hstock

theorem Protected.perm (h : Protected rate grace finish now stock ps) (hperm : ps.Perm qs) :
    Protected rate grace finish now stock qs := by
  intro p hp hpos
  rw [← total_perm hperm]
  exact h p (hperm.mem_iff.mpr hp) hpos

/-- Promises may lapse. -/
theorem Protected.sublist (h : Protected rate grace finish now stock ps) (hsub : qs.Sublist ps) :
    Protected rate grace finish now stock qs := by
  intro p hp hpos
  have htotal := total_sublist hsub
  have hps := h p (hsub.subset hp) hpos
  omega

/-- A promise may be collected. -/
theorem Protected.pay (h : Protected rate grace finish now stock (p :: ps)) :
    Protected rate grace finish now (stock - p.amount) ps := by
  intro q hq hpos
  have hps := h q (List.mem_cons_of_mem p hq) hpos
  rw [total_cons] at hps
  push_cast at hps
  omega

/-- A promise may be added when all of them leave their floors with it. -/
theorem Protected.promise
    (hnew : 0 < p.amount → ∀ q ∈ p :: ps, 0 < q.amount →
      (floor rate grace finish now q.deadline + total ps + p.amount : ℤ) ≤ stock)
    (h : Protected rate grace finish now stock ps) :
    Protected rate grace finish now stock (p :: ps) := by
  intro q hq hpos
  rw [total_cons]
  push_cast
  rcases Nat.eq_zero_or_pos p.amount with hzero | hpaid
  · rcases List.mem_cons.mp hq with rfl | hq
    · omega
    · have hps := h q hq hpos
      rw [hzero]
      push_cast
      omega
  · have hps := hnew hpaid q hq hpos
    omega

/-- A tick consumes at most the rate, and ends the promises whose deadline comes. -/
theorem Protected.tick (h : Protected rate grace finish now stock ps)
    (hfinish : now < finish) (hstock : stock ≤ stock' + rate)
    (hsub : qs.Sublist ps) (hlive : ∀ p ∈ qs, now + 1 < p.deadline) :
    Protected rate grace finish (now + 1) stock' qs := by
  intro p hp hpos
  have hafter := h.sublist hsub p hp hpos
  have hdeadline : now < p.deadline := Nat.lt_of_succ_lt (hlive p hp)
  have hfloor : floor rate grace finish (now + 1) p.deadline + rate =
      floor rate grace finish now p.deadline := floor_tick hdeadline hfinish
  omega

end Reserve
