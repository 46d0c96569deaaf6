import PlanetCharlu.Waiters

/-!
# Every waiter is woken

In every state that any waiters and any pump can reach, who is satisfied returns and who is
not raises once the pump has ended, by steps of its own tasks alone. What a waiter returns
satisfies its predicate unless a newer snapshot has come between `_wait` and its caller.
-/

namespace PlanetCharlu

open Runs

/-- The call has not ended. -/
def Waiter.isOpen (w : Waiter) : Bool :=
  match w.stage with
  | .returned _ | .raised _ | .aborted => false
  | _ => true

/-- The predicate holds for the world, or held for the one that `_wait` last looked at. -/
def Waiter.Satisfied (w : Waiter) (world : WorldView) : Prop :=
  w.predicate world = true ∨ ∃ v, w.checked = some v ∧ w.predicate v = true

namespace Waiter.Placed

variable {w : Waiter} {s : Session}

/-- Who is satisfied and has not ended can go on at once. -/
theorem satisfied (h : w.Placed s) (hopen : w.isOpen = true) (hsatisfied : w.Satisfied s.world) :
    w.stage = .seen ∨
      (w.stage = .created ∨ w.stage = .woken) ∧ w.predicate s.world = true := by
  have hfalse : (∀ v ∈ w.checked, w.predicate v = false) → w.predicate s.world = true := by
    intro hchecked
    rcases hsatisfied with hholds | ⟨v, hv, hholds⟩
    · exact hholds
    · rw [hchecked v hv] at hholds
      cases hholds
  have hsame : w.checked = some s.world → w.predicate s.world = false → False := by
    intro hchecked hlast
    rw [hfalse] at hlast
    · cases hlast
    · intro v hv
      rw [hchecked, Option.mem_def, Option.some.injEq] at hv
      rw [← hv]
      exact hlast
  rcases hstage : w.stage with _ | _ | _ | _ | error | world | error | _
  case created =>
      simp only [Placed, hstage] at h
      refine Or.inr ⟨Or.inl rfl, hfalse ?_⟩
      simp [h.1]
  case asleep =>
      simp only [Placed, hstage] at h
      exact (hsame h.1 h.2.1).elim
  case woken =>
      simp only [Placed, hstage] at h
      exact Or.inr ⟨Or.inr rfl, hfalse h.1⟩
  case seen => exact Or.inl rfl
  case failed =>
      simp only [Placed, hstage] at h
      exact (hsame h.1 h.2.1).elim
  all_goals simp [isOpen, hstage] at hopen

/-- Who is not satisfied is scheduled, asleep while the pump runs, or has the pump's error. -/
theorem unsatisfied (h : w.Placed s) (hopen : w.isOpen = true) (hnot : ¬w.Satisfied s.world) :
    (w.stage = .created ∨ w.stage = .woken) ∨ (w.stage = .asleep ∧ s.pumpError = none) ∨
      ∃ error, w.stage = .failed error ∧ s.pumpError = some error := by
  rcases hstage : w.stage with _ | _ | _ | _ | error | world | error | _
  case created => exact Or.inl (Or.inl rfl)
  case asleep =>
      simp only [Placed, hstage] at h
      exact Or.inr (Or.inl ⟨rfl, h.2.2.1⟩)
  case woken => exact Or.inl (Or.inr rfl)
  case seen =>
      simp only [Placed, hstage] at h
      obtain ⟨-, v, hchecked, hholds, -⟩ := h
      exact (hnot (Or.inr ⟨v, hchecked, hholds⟩)).elim
  case failed =>
      simp only [Placed, hstage] at h
      exact Or.inr (Or.inr ⟨error, rfl, h.2.2⟩)
  all_goals simp [isOpen, hstage] at hopen

end Waiter.Placed

/-- A step of a waiter's own task, or of its caller's. -/
def WaiterEvent.isTask : WaiterEvent → Bool
  | .runs _ => true
  | .resumes _ => true
  | _ => false

/-- How many steps of its tasks a waiter has before it, until the pump acts. -/
def Waiter.rank (w : Waiter) : Nat :=
  match w.stage with
  | .created | .woken => 2
  | .seen | .failed _ => 1
  | _ => 0

namespace WaitingSession

/-- Steps of its own tasks take waiter `i` to `stage`. -/
def Reaches (s : WaitingSession) (i : Nat) (stage : WaiterStage) : Prop :=
  ∃ trace t w, Run Step s trace t ∧ (∀ e ∈ trace, e = .runs i ∨ e = .resumes i) ∧
    t.waiters[i]? = some w ∧ w.stage = stage

/-- No task of a waiter can run. -/
def Resting (s : WaitingSession) : Prop := ∀ e, e.isTask = true → s.step e = none

/-- No wake-up is lost in `s`. -/
structure WakesWaiters (s : WaitingSession) : Prop where
  /-- Who is asleep without a wake-up has looked at this world, and the pump runs. -/
  asleep : ∀ w ∈ s.waiters, w.stage = .asleep →
    w.checked = some s.session.world ∧ s.session.pumpError = none
  /-- Who is satisfied returns, whatever the other waiters and the pump have done. -/
  returns : ∀ i w, s.waiters[i]? = some w → w.isOpen = true → w.Satisfied s.session.world →
    s.Reaches i (.returned s.session.world)
  /-- Every other waiter raises the pump's error once the pump has ended. -/
  raises : ∀ i w error, s.waiters[i]? = some w → w.isOpen = true →
    ¬w.Satisfied s.session.world → s.session.pumpError = some error → s.Reaches i (.raised error)
  /-- Between two steps of the pump the tasks come to rest, in whatever order they run. -/
  settles : ∀ trace t, Run Step s trace t → (∀ e ∈ trace, e.isTask = true) →
    trace.length ≤ 2 * s.waiters.length
  /-- Then nobody is left who should return or raise. -/
  rests : s.Resting → ∀ w ∈ s.waiters, w.isOpen = true →
    w.stage = .asleep ∧ ¬w.Satisfied s.session.world ∧ s.session.pumpError = none

section Law

variable {s t : WaitingSession} {e : WaiterEvent} {trace : List WaiterEvent} {w₀ : WorldView}
  {i : Nat} {w : Waiter}

theorem reaches_self {stage : WaiterStage} (hw : s.waiters[i]? = some w)
    (hstage : w.stage = stage) : s.Reaches i stage :=
  ⟨[], s, w, .start, by simp, hw, hstage⟩

theorem Reaches.head {stage : WaiterStage} (hstep : s.step e = some t)
    (he : e = .runs i ∨ e = .resumes i) (h : t.Reaches i stage) : s.Reaches i stage := by
  obtain ⟨trace, u, w, hrun, hown, hw, hstage⟩ := h
  refine ⟨[e] ++ trace, u, w, (Run.next .start hstep).append hrun, ?_, hw, hstage⟩
  intro e' he'
  rcases List.mem_append.mp he' with hfirst | hrest
  · rw [List.mem_singleton.mp hfirst]
    exact he
  · exact hown e' hrest

theorem step_resumes_seen (hw : s.waiters[i]? = some w) (hstage : w.stage = .seen) :
    s.step (.resumes i) = some
      { s with waiters := s.waiters.set i { w with stage := .returned s.session.world } } := by
  simp only [step, hw, Option.bind_some, hstage]

theorem step_resumes_failed {error : SessionError} (hw : s.waiters[i]? = some w)
    (hstage : w.stage = .failed error) :
    s.step (.resumes i) = some
      { s with waiters := s.waiters.set i { w with stage := .raised error } } := by
  simp only [step, hw, Option.bind_some, hstage]

theorem step_runs (hw : s.waiters[i]? = some w) (hstage : w.stage = .created ∨ w.stage = .woken) :
    s.step (.runs i) = some
      { s with
        updated := (w.look s.session s.updated).2
        waiters := s.waiters.set i (w.look s.session s.updated).1 } := by
  simp only [step, hw, Option.bind_some, if_pos hstage]

/-- The caller goes on after its `_wait`. -/
theorem reaches_of_seen (hw : s.waiters[i]? = some w) (hstage : w.stage = .seen) :
    s.Reaches i (.returned s.session.world) := by
  refine Reaches.head (step_resumes_seen hw hstage) (Or.inr rfl) ?_
  exact reaches_self (List.getElem?_set_self (List.getElem?_eq_some_iff.mp hw).1) rfl

theorem reaches_of_failed {error : SessionError} (hw : s.waiters[i]? = some w)
    (hstage : w.stage = .failed error) : s.Reaches i (.raised error) := by
  refine Reaches.head (step_resumes_failed hw hstage) (Or.inr rfl) ?_
  exact reaches_self (List.getElem?_set_self (List.getElem?_eq_some_iff.mp hw).1) rfl

/-- A scheduled waiter finds that its predicate holds. -/
theorem reaches_returned (hw : s.waiters[i]? = some w)
    (hstage : w.stage = .created ∨ w.stage = .woken)
    (hholds : w.predicate s.session.world = true) : s.Reaches i (.returned s.session.world) := by
  have hi := (List.getElem?_eq_some_iff.mp hw).1
  refine Reaches.head (step_runs hw hstage) (Or.inl rfl) ?_
  have hcases := Waiter.look_cases w s.session s.updated
  generalize w.look s.session s.updated = looked at hcases ⊢
  cases hcases with
  | found _ =>
      rcases Waiter.finds_cases { w with checked := some s.session.world } s.session.world with
        ⟨-, hfinds⟩ | ⟨-, hfinds⟩
      · rw [hfinds]
        exact reaches_of_seen (List.getElem?_set_self hi) rfl
      · rw [hfinds]
        exact reaches_self (List.getElem?_set_self hi) rfl
  | ended hfalse _ =>
      rw [hholds] at hfalse
      cases hfalse
  | sleeps hfalse _ =>
      rw [hholds] at hfalse
      cases hfalse

/-- A scheduled waiter finds that the pump has ended. -/
theorem reaches_raised {error : SessionError} (hw : s.waiters[i]? = some w)
    (hstage : w.stage = .created ∨ w.stage = .woken)
    (hfalse : w.predicate s.session.world = false) (hpump : s.session.pumpError = some error) :
    s.Reaches i (.raised error) := by
  have hi := (List.getElem?_eq_some_iff.mp hw).1
  refine Reaches.head (step_runs hw hstage) (Or.inl rfl) ?_
  have hcases := Waiter.look_cases w s.session s.updated
  generalize w.look s.session s.updated = looked at hcases ⊢
  cases hcases with
  | found hholds =>
      rw [hholds] at hfalse
      cases hfalse
  | @ended error' _ hpump' =>
      rw [hpump, Option.some.injEq] at hpump'
      subst hpump'
      rcases Waiter.fails_cases { w with checked := some s.session.world } error with
        ⟨-, hfails⟩ | ⟨-, hfails⟩
      · rw [hfails]
        exact reaches_of_failed (List.getElem?_set_self hi) rfl
      · rw [hfails]
        exact reaches_self (List.getElem?_set_self hi) rfl
  | sleeps _ hrunning =>
      rw [hpump] at hrunning
      cases hrunning

/-- A step of a task brings its waiter closer to rest. -/
theorem rank_step (htask : e.isTask = true) (hstep : s.step e = some t) :
    (t.waiters.map Waiter.rank).sum < (s.waiters.map Waiter.rank).sum := by
  cases e with
  | runs i =>
      simp only [step, Option.bind_eq_some_iff, Option.ite_none_right_eq_some,
        Option.some.injEq] at hstep
      obtain ⟨w, hw, hstage, rfl⟩ := hstep
      apply sum_map_set_lt hw
      have hbefore : w.rank = 2 := by
        rcases hstage with hstage | hstage
        · simp [Waiter.rank, hstage]
        · simp [Waiter.rank, hstage]
      rw [hbefore]
      have hcases := Waiter.look_cases w s.session s.updated
      generalize w.look s.session s.updated = looked at hcases ⊢
      cases hcases with
      | found _ =>
          rcases Waiter.finds_cases { w with checked := some s.session.world } s.session.world with
            ⟨-, hfinds⟩ | ⟨-, hfinds⟩
          · simp [hfinds, Waiter.rank]
          · simp [hfinds, Waiter.rank]
      | @ended error _ _ =>
          rcases Waiter.fails_cases { w with checked := some s.session.world } error with
            ⟨-, hfails⟩ | ⟨-, hfails⟩
          · simp [hfails, Waiter.rank]
          · simp [hfails, Waiter.rank]
      | sleeps _ _ => simp [Waiter.rank]
  | resumes i =>
      simp only [step, Option.bind_eq_some_iff] at hstep
      obtain ⟨w, hw, hstep⟩ := hstep
      split at hstep
      · rename_i hstage
        cases hstep
        exact sum_map_set_lt hw (by simp [Waiter.rank, hstage])
      · rename_i hstage
        cases hstep
        exact sum_map_set_lt hw (by simp [Waiter.rank, hstage])
      · cases hstep
  | session _ => cases htask
  | waits _ _ => cases htask
  | aborts _ => cases htask

theorem sum_rank_le (s : WaitingSession) :
    (s.waiters.map Waiter.rank).sum ≤ 2 * s.waiters.length := by
  have hle := List.sum_le_card_nsmul (s.waiters.map Waiter.rank) 2 ?_
  · rw [List.length_map, smul_eq_mul, mul_comm] at hle
    exact hle
  · intro n hn
    obtain ⟨w, -, rfl⟩ := List.mem_map.mp hn
    rw [Waiter.rank]
    split <;> omega

/-- **No wake-up is lost**, in any state that any waiters and any pump can reach. -/
theorem no_lost_wakeup (hrun : Run Step (start w₀) trace s) : s.WakesWaiters := by
  have hsound := run_sound hrun
  have hplaced : ∀ {i : Nat} {w : Waiter}, s.waiters[i]? = some w → w.Placed s.session :=
    fun hw => hsound.placed _ (List.mem_of_getElem? hw)
  have hunsatisfied : ∀ {w : Waiter}, ¬w.Satisfied s.session.world →
      w.predicate s.session.world = false := by
    intro w hnot
    exact Bool.eq_false_of_not_eq_true fun hholds => hnot (Or.inl hholds)
  refine ⟨?_, ?_, ?_, ?_, ?_⟩
  · intro w hw hasleep
    have hsleeping := hsound.placed w hw
    simp only [Waiter.Placed, hasleep] at hsleeping
    exact ⟨hsleeping.1, hsleeping.2.2.1⟩
  · intro i w hw hopen hsatisfied
    rcases (hplaced hw).satisfied hopen hsatisfied with hseen | ⟨hscheduled, hholds⟩
    · exact reaches_of_seen hw hseen
    · exact reaches_returned hw hscheduled hholds
  · intro i w error hw hopen hnot hpump
    rcases (hplaced hw).unsatisfied hopen hnot with hscheduled | ⟨-, hrunning⟩ |
      ⟨error', hfailed, hpump'⟩
    · exact reaches_raised hw hscheduled (hunsatisfied hnot) hpump
    · rw [hpump] at hrunning
      cases hrunning
    · rw [hpump, Option.some.injEq] at hpump'
      rw [hpump']
      exact reaches_of_failed hw hfailed
  · intro trace t hrun htasks
    have hle := hrun.countP_add_measure_le (P := fun _ => True)
      (fun s => (s.waiters.map Waiter.rank).sum) htasks trivial (fun _ _ _ _ _ _ => trivial)
      (fun s e t _ htask hstep => rank_step htask hstep)
      (fun s e t _ htask hother _ => by rw [htask] at hother; cases hother)
    have hmost := sum_rank_le s
    rw [List.countP_eq_length.mpr htasks] at hle
    omega
  · intro hresting w hmem hopen
    obtain ⟨i, hw⟩ := List.mem_iff_getElem?.mp hmem
    have hnotScheduled : ¬(w.stage = .created ∨ w.stage = .woken) := by
      intro hscheduled
      have hruns := hresting (.runs i) rfl
      rw [step_runs hw hscheduled] at hruns
      cases hruns
    have hnotSeen : w.stage ≠ .seen := by
      intro hseen
      have hresumes := hresting (.resumes i) rfl
      rw [step_resumes_seen hw hseen] at hresumes
      cases hresumes
    have hnot : ¬w.Satisfied s.session.world := by
      intro hsatisfied
      rcases (hplaced hw).satisfied hopen hsatisfied with hseen | ⟨hscheduled, -⟩
      · exact hnotSeen hseen
      · exact hnotScheduled hscheduled
    rcases (hplaced hw).unsatisfied hopen hnot with hscheduled | ⟨hasleep, hrunning⟩ |
      ⟨error, hfailed, -⟩
    · exact absurd hscheduled hnotScheduled
    · exact ⟨hasleep, hnot, hrunning⟩
    · have hresumes := hresting (.resumes i) rfl
      rw [step_resumes_failed hw hfailed] at hresumes
      cases hresumes

/-- One waiter gets its snapshot while another, with no deadline, waits for what never
comes; then the connection closes. -/
def sampleTrace : List WaiterEvent :=
  [.waits (fun w => decide (1 < w.snapshotSequence)) true, .waits (fun _ => false) false,
    .runs 0, .runs 1, .session (.arrives (.state (Wire.State.sample 2))), .runs 1, .runs 0,
    .resumes 0, .session (.ends none), .runs 1]

theorem no_lost_wakeup_sample :
    ∃ s, Run Step (start .sample) sampleTrace s ∧
      s.waiters.map Waiter.isOpen = [false, false] ∧ s.WakesWaiters := by
  have hreplay : (replay step (start .sample) sampleTrace).map
      (fun s => s.waiters.map Waiter.isOpen) = some [false, false] := by decide +kernel
  obtain ⟨s, hs, hended⟩ := Option.map_eq_some_iff.mp hreplay
  have hrun : Run Step (start .sample) sampleTrace s := run_of_replay (fun _ _ _ h => h) hs
  exact ⟨s, hrun, hended, no_lost_wakeup hrun⟩

/-! ### What is returned -/

/-- Every world returned so far satisfies the predicate of its call. -/
def ReturnsSatisfying (s : WaitingSession) : Prop :=
  ∀ w ∈ s.waiters, ∀ world, w.stage = .returned world → w.predicate world = true

/-- **The returned world satisfies the predicate exactly if the last snapshot that came
between the end of `_wait` and the caller's next step does.** Without a timeout there is no
such snapshot. -/
theorem returned_satisfies_iff (hrun : Run Step (start w₀) trace s) :
    s.ReturnsSatisfying ↔
      ∀ w ∈ s.waiters, ∀ world, w.stage = .returned world →
        w.timed = true → ∀ v ∈ w.missed.getLast?, w.predicate v = true := by
  have hsound := run_sound hrun
  refine forall_congr' fun w => forall_congr' fun hw => forall_congr' fun world =>
    forall_congr' fun hstage => ?_
  have hplaced := hsound.placed w hw
  simp only [Waiter.Placed, hstage] at hplaced
  obtain ⟨v, -, hholds, rfl, huntimed⟩ := hplaced
  constructor
  · intro hsatisfies _ u hu
    rw [Option.mem_def] at hu
    rwa [hu, Option.getD_some] at hsatisfies
  · intro hlast
    rcases hmissed : w.missed.getLast? with _ | u
    · exact hholds
    · cases htimed : w.timed with
      | true => exact hlast htimed u hmissed
      | false =>
          rw [huntimed htimed] at hmissed
          cases hmissed

/-- A snapshot with a gift to us. -/
def giftState (snapshotSequence : Nat) : Wire.State :=
  { Wire.State.sample snapshotSequence with
    offers :=
      [{ offerId := "offer-1", proposerId := "P02", recipientId := "P01", give := { water := 3 },
         receive := {}, createdTick := 0, expiresTick := 3, status := 1, transactionId := ⟨true, ""⟩ }] }

/-- The gift is seen, and still there in the snapshot before the caller goes on. -/
def keptTrace : List WaiterEvent :=
  [.waits (fun w => w.openOffersToMe.any Offer.isGift) true, .runs 0,
    .session (.arrives (.state (giftState 2))), .runs 0,
    .session (.arrives (.state (giftState 3))), .resumes 0]

theorem returned_satisfies_iff_sample :
    ∃ s, Run Step (start .sample) keptTrace s ∧
      s.waiters.map (fun w => w.missed.map w.predicate) = [[true]] ∧ s.ReturnsSatisfying := by
  have hreplay : (replay step (start .sample) keptTrace).map
      (fun s => s.waiters.map fun w => w.missed.map w.predicate) = some [[true]] := by
    decide +kernel
  obtain ⟨s, hs, hmissed⟩ := Option.map_eq_some_iff.mp hreplay
  have hrun : Run Step (start .sample) keptTrace s := run_of_replay (fun _ _ _ h => h) hs
  refine ⟨s, hrun, hmissed, (returned_satisfies_iff hrun).mpr ?_⟩
  intro w hw world _ _ v hv
  have hone : w.missed.map w.predicate ∈ [[true]] := by
    rw [← hmissed]
    exact List.mem_map_of_mem (f := fun w : Waiter => w.missed.map w.predicate) hw
  have hmem : w.predicate v ∈ w.missed.map w.predicate :=
    List.mem_map_of_mem (List.mem_of_getLast? hv)
  rw [List.mem_singleton.mp hone] at hmem
  exact List.mem_singleton.mp hmem

/-- The gift is seen, and gone before the caller goes on. -/
def goneTrace : List WaiterEvent :=
  [.waits (fun w => w.openOffersToMe.any Offer.isGift) true, .runs 0,
    .session (.arrives (.state (giftState 2))), .runs 0,
    .session (.arrives (.state (Wire.State.sample 3))), .resumes 0]

theorem returned_gift_is_gone :
    ∃ s, Run Step (start .sample) goneTrace s ∧ ¬s.ReturnsSatisfying := by
  have hreplay : (replay step (start .sample) goneTrace).map (fun s =>
      s.waiters.map fun w => match w.stage with
        | .returned world => w.predicate world
        | _ => true) = some [false] := by decide +kernel
  obtain ⟨s, hs, hanswers⟩ := Option.map_eq_some_iff.mp hreplay
  refine ⟨s, run_of_replay (fun _ _ _ h => h) hs, fun hreturns => ?_⟩
  obtain ⟨w, hw, hfalse⟩ := List.mem_map.mp (hanswers ▸ List.mem_singleton_self false)
  split at hfalse
  · rename_i world hstage
    rw [hreturns w hw world hstage] at hfalse
    cases hfalse
  · cases hfalse

end Law

end WaitingSession

end PlanetCharlu
