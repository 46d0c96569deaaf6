import PlanetCharlu.RunnerEffects

/-!
# The trading loop decides on fresh stock

A decision that follows the answer to a command is made on a snapshot that shows the
command's result. The loop reads the session's snapshot anew for every decision,
after the reconciliation has looked at an earlier one, so this rests on the server:
a newer snapshot shows what an older one showed.

Where the result does not arrive, the deadline of the reconciliation is to raise. It
does, unless it passes in the gap between the end of the wait in `sync` and the
statement after it: there the cancellation is lost, and the loop waits on without a
deadline.
-/

namespace PlanetCharlu

open Runs

/-- The snapshot has reached the version in which the request was processed, or it
stores a result of the request. -/
def WorldView.Shows (w : WorldView) (requestId : String) (processedVersion : Nat) : Prop :=
  (0 < processedVersion ∧ processedVersion ≤ w.worldVersion) ∨
    ∃ result ∈ w.requestResults, result.requestId = requestId

theorem CommandOutcome.includesResult_iff {o : CommandOutcome} {w : WorldView} :
    o.includesResult w = true ↔ w.Shows o.requestId o.processedVersion := by
  simp [CommandOutcome.includesResult, WorldView.Shows]

/-- What the server guarantees for the snapshots of one connection: the version does
not decrease and stored results only accumulate. -/
structure Grows (S : List WorldView) : Prop where
  version : ∀ a ∈ S, ∀ b ∈ S, a.snapshotSequence < b.snapshotSequence →
    a.worldVersion ≤ b.worldVersion
  results : ∀ a ∈ S, ∀ b ∈ S, a.snapshotSequence < b.snapshotSequence →
    a.requestResults ⊆ b.requestResults

/-- A newer snapshot shows what an older one showed. -/
theorem Grows.shows {S : List WorldView} (h : Grows S) {a b : WorldView} (ha : a ∈ S)
    (hb : b ∈ S) (hnewer : a.snapshotSequence < b.snapshotSequence) {requestId : String}
    {version : Nat} (hshows : a.Shows requestId version) : b.Shows requestId version := by
  rcases hshows with ⟨hpos, hle⟩ | ⟨result, hresult, hid⟩
  · exact Or.inl ⟨hpos, hle.trans (h.version a ha b hb hnewer)⟩
  · exact Or.inr ⟨result, h.results a ha b hb hnewer hresult, hid⟩

/-- If `earlier` is the answer to a command and `later` a call of `choose`, then the
snapshot of the call shows the result. -/
def Observation.Fresh (earlier later : Observation) : Prop :=
  ∀ w d o st w' action, earlier = .answered w d o → later = .chose st w' action →
    w'.Shows d.requestId o.processedVersion

namespace Runner

/-- `o` is still being reconciled, or the runner has raised. -/
def Unsettled (o : CommandOutcome) : RunnerPc → Prop
  | .reconciling o' _ stage => o' = o ∧ stage ≠ .confirmed
  | .raised _ => True
  | _ => False

/-- What makes every decision fresh: the current snapshot shows the results of all
answered commands but the one that is being reconciled. -/
structure Settled (S : List WorldView) (r : Runner) : Prop where
  seen : r.session.world ∈ S
  shown : ∀ w d o, .answered w d o ∈ r.history →
    r.session.world.Shows d.requestId o.processedVersion ∨
      o.requestId = d.requestId ∧ Unsettled o r.pc
  confirmed : ∀ o started, r.pc = .reconciling o started .confirmed →
    r.session.world.Shows o.requestId o.processedVersion
  fresh : r.history.Pairwise Observation.Fresh

namespace Settled

variable {S : List WorldView} {policy : Strategy} {e : RunnerEvent} {r t : Runner}

/-- At a place where nothing is being reconciled, every answer is shown. -/
theorem all_shown (h : Settled S r) (hpc : ∀ o, ¬ Unsettled o r.pc) {w : WorldView}
    {d : Decision} {o : CommandOutcome} (hanswered : .answered w d o ∈ r.history) :
    r.session.world.Shows d.requestId o.processedVersion := by
  rcases h.shown w d o hanswered with hshows | ⟨-, hunsettled⟩
  · exact hshows
  · exact absurd hunsettled (hpc o)

/-- The runner moves on while the snapshot and the history stay. -/
theorem move (h : Settled S r) (hworld : t.session.world = r.session.world)
    (hhistory : t.history = r.history)
    (hunsettled : ∀ w d o, .answered w d o ∈ r.history → o.requestId = d.requestId →
      Unsettled o r.pc → Unsettled o t.pc ∨ r.session.world.Shows d.requestId o.processedVersion)
    (hconfirmed : ∀ o started, t.pc = .reconciling o started .confirmed →
      r.session.world.Shows o.requestId o.processedVersion) : Settled S t := by
  refine ⟨by rw [hworld]; exact h.seen, ?_, ?_, by rw [hhistory]; exact h.fresh⟩
  · intro w d o hanswered
    rw [hhistory] at hanswered
    rw [hworld]
    rcases h.shown w d o hanswered with hshows | ⟨hid, hbefore⟩
    · exact Or.inl hshows
    · rcases hunsettled w d o hanswered hid hbefore with hafter | hshows
      · exact Or.inr ⟨hid, hafter⟩
      · exact Or.inl hshows
  · rw [hworld]
    exact hconfirmed

/-- A call of `choose` where nothing is being reconciled. -/
theorem choose (h : Settled S r) (hpc : ∀ o, ¬ Unsettled o r.pc) {st : StrategyState}
    {action : Option Decision} (hworld : t.session.world = r.session.world)
    (hhistory : t.history = r.history ++ [.chose st r.session.world action])
    (hconfirmed : ∀ o started, t.pc ≠ .reconciling o started .confirmed) : Settled S t := by
  refine ⟨by rw [hworld]; exact h.seen, ?_, fun o started hpc => absurd hpc (hconfirmed o started), ?_⟩
  · intro w d o hanswered
    rw [hhistory, List.mem_append, List.mem_singleton] at hanswered
    rcases hanswered with hanswered | hchose
    · rw [hworld]
      exact Or.inl (h.all_shown hpc hanswered)
    · cases hchose
  · rw [hhistory, List.pairwise_append]
    refine ⟨h.fresh, List.pairwise_singleton _ _, ?_⟩
    intro earlier hearlier later hlater w d o st' w' action' hanswered hchose
    rw [List.mem_singleton, hchose] at hlater
    cases hlater
    subst hanswered
    exact h.all_shown hpc hearlier

/-- **Every effect keeps the invariant.** -/
theorem effect (hgrows : Grows S) (h : Settled S r)
    (hseen : ∀ w, e.snapshot? = some w → w ∈ S) (heff : Effect policy e r t) : Settled S t := by
  cases heff with
  | @session s hworld hsent =>
      rcases hworld with hworld | ⟨hdelivered, hnewer, -⟩
      · exact h.move hworld rfl (fun _ _ _ _ _ hbefore => Or.inl hbefore) h.confirmed
      · have hs : s.world ∈ S := hseen s.world hdelivered
        refine ⟨hs, ?_, ?_, h.fresh⟩
        · intro w d o hanswered
          rcases h.shown w d o hanswered with hshows | hunsettled
          · exact Or.inl (hgrows.shows h.seen hs hnewer hshows)
          · exact Or.inr hunsettled
        · intro o started hpc
          exact hgrows.shows h.seen hs hnewer (h.confirmed o started hpc)
  | begin hpc hworld hsent =>
      refine h.move hworld rfl ?_ ?_
      · intro w d o _ _ hbefore
        rw [hpc] at hbefore
        exact hbefore.elim
      · intro o started hconfirmed
        cases hconfirmed
  | sync hpc =>
      refine h.move rfl rfl ?_ ?_
      · intro w d o _ _ hbefore
        rw [hpc] at hbefore
        exact Or.inl ⟨hbefore.1, by simp⟩
      · intro o started hconfirmed
        cases hconfirmed
  | @reconcile o' started stage stage' hpc hincludes =>
      refine h.move rfl rfl ?_ ?_
      · intro w d o _ hid hbefore
        rw [hpc] at hbefore
        by_cases hstage : stage' = .confirmed
        · -- The reconciliation is over: the snapshot shows this very result.
          right
          rw [← hid, ← hbefore.1]
          exact CommandOutcome.includesResult_iff.mp (hincludes hstage)
        · exact Or.inl ⟨hbefore.1, hstage⟩
      · intro o started' hconfirmed
        cases hconfirmed
        exact CommandOutcome.includesResult_iff.mp (hincludes rfl)
  | raise error =>
      refine h.move rfl rfl ?_ ?_
      · intro _ _ _ _ _ _
        exact Or.inl trivial
      · intro o started hconfirmed
        cases hconfirmed
  | wake hpc hnewer =>
      refine h.move rfl rfl ?_ ?_
      · intro w d o _ _ hbefore
        rw [hpc] at hbefore
        exact hbefore.elim
      · intro o started hconfirmed
        cases hconfirmed
  | @note w d started c o hpc hid =>
      refine ⟨h.seen, ?_, by simp, ?_⟩
      · intro w' d' o' hanswered
        rw [List.mem_append, List.mem_singleton] at hanswered
        rcases hanswered with hanswered | hnew
        · exact Or.inl (h.all_shown (by simp [hpc, Unsettled]) hanswered)
        · cases hnew
          exact Or.inr ⟨hid, rfl, by simp⟩
      · rw [List.pairwise_append]
        refine ⟨h.fresh, List.pairwise_singleton _ _, ?_⟩
        intro earlier _ later hlater w' d' o' st w'' action _ hchose
        rw [List.mem_singleton, hchose] at hlater
        cases hlater
  | complete elapsed hpc =>
      refine h.move rfl rfl ?_ ?_
      · intro w d o _ _ hbefore
        rw [hpc] at hbefore
        exact absurd rfl hbefore.2
      · intro o started hconfirmed
        cases hconfirmed
  | finish hpc hfinal =>
      refine h.move rfl rfl ?_ ?_
      · intro w d o _ _ hbefore
        rw [hpc] at hbefore
        exact hbefore.elim
      · intro o started hconfirmed
        cases hconfirmed
  | wait _ hpc hchoose => exact h.choose (by simp [hpc, Unsettled]) rfl rfl (by simp)
  | decide _ hpc hchoose => exact h.choose (by simp [hpc, Unsettled]) rfl rfl (by simp)

end Settled

/-! ### No snapshot, no decision -/

/-- The runner still reconciles `o`, or has raised, and has done nothing else. -/
structure Stuck (o : CommandOutcome) (started : ℚ) (history : List Observation) (r : Runner) :
    Prop where
  kept : r.history = history
  place : (∃ e, r.pc = .raised e) ∨
    o.includesResult r.session.world = false ∧
      ∃ stage, r.pc = .reconciling o started stage ∧ stage ≠ .confirmed

theorem Stuck.effect {o : CommandOutcome} {started : ℚ} {history : List Observation}
    {policy : Strategy} {e : RunnerEvent} {r t : Runner} (h : Stuck o started history r)
    (hmissing : ∀ w, e.snapshot? = some w → o.includesResult w = false)
    (heff : Effect policy e r t) : Stuck o started history t := by
  obtain ⟨hkept, hplace⟩ := h
  -- No effect of another place can happen.
  have helsewhere : ∀ pc, r.pc = pc → (∀ e, pc ≠ .raised e) →
      (∀ stage, stage ≠ .confirmed → pc ≠ .reconciling o started stage) → Stuck o started history t := by
    rintro pc rfl hraised hreconciling
    rcases hplace with ⟨e, hpc⟩ | ⟨-, stage, hpc, hstage⟩
    · exact absurd hpc (hraised e)
    · exact absurd hpc (hreconciling stage hstage)
  cases heff with
  | @session s hworld hsent =>
      refine ⟨hkept, ?_⟩
      rcases hplace with hraised | ⟨hnot, hreconciling⟩
      · exact Or.inl hraised
      · refine Or.inr ⟨?_, hreconciling⟩
        rcases hworld with hworld | ⟨hdelivered, -⟩
        · rw [hworld]
          exact hnot
        · exact hmissing s.world hdelivered
  | begin hpc hworld hsent => exact helsewhere _ hpc (by simp) (by simp)
  | sync hpc =>
      refine ⟨hkept, ?_⟩
      rcases hplace with ⟨e, hraised⟩ | ⟨hnot, stage, hreconciling, -⟩
      · rw [hpc] at hraised
        cases hraised
      · rw [hpc] at hreconciling
        cases hreconciling
        exact Or.inr ⟨hnot, _, rfl, by simp⟩
  | reconcile hpc hincludes =>
      refine ⟨hkept, ?_⟩
      rcases hplace with ⟨e, hraised⟩ | ⟨hnot, stage, hreconciling, -⟩
      · rw [hpc] at hraised
        cases hraised
      · rw [hpc] at hreconciling
        cases hreconciling
        refine Or.inr ⟨hnot, _, rfl, ?_⟩
        intro hstage
        rw [hincludes hstage] at hnot
        cases hnot
  | raise error => exact ⟨hkept, Or.inl ⟨error, rfl⟩⟩
  | wake hpc hnewer => exact helsewhere _ hpc (by simp) (by simp)
  | note hpc hid => exact helsewhere _ hpc (by simp) (by simp)
  | complete elapsed hpc =>
      refine helsewhere _ hpc (by simp) ?_
      rintro stage hstage heq
      cases heq
      exact hstage rfl
  | finish hpc hfinal => exact helsewhere _ hpc (by simp) (by simp)
  | wait _ hpc hchoose => exact helsewhere _ hpc (by simp) (by simp)
  | decide _ hpc hchoose => exact helsewhere _ hpc (by simp) (by simp)

/-! ### The deadline -/

/-- `o` is being reconciled, and the newest snapshot does not show it. -/
def Misses (o : CommandOutcome) (started : ℚ) (r : Runner) : Prop :=
  o.includesResult r.session.world = false ∧ ∃ stage, r.pc = .reconciling o started stage

/-- The wait in `sync` has its snapshot, the task of `reconcile_after_sync` has not run
since, and the result is still missing. -/
def InGap (r : Runner) : Prop :=
  ∃ o started, r.pc = .reconciling o started (.arrived false) ∧
    o.includesResult r.session.world = false

/-- A step, but not the deadline in the gap. -/
def Punctual (policy : Strategy) (r : Runner) (e : RunnerEvent) (t : Runner) : Prop :=
  Step policy r e t ∧ ¬(e = .expires ∧ r.InGap)

/-- The result is missing, and no deadline is left to pass. -/
def Overdue (policy : Strategy) (r : Runner) : Prop :=
  ∃ o started, Misses o started r ∧ r.step policy .expires = none

/-- The deadline for `o` has been swallowed. -/
def Late (o : CommandOutcome) (started : ℚ) (r : Runner) : Prop :=
  r.pc = .reconciling o started (.arrived true) ∨ r.pc = .reconciling o started (.confirming true)

/-- Nothing comes from the connection any more. -/
def Silent (later : List RunnerEvent) : Prop :=
  ∀ e ∈ later, (∀ m, e ≠ .session (.arrives m)) ∧ ∀ cause, e ≠ .session (.ends cause)

section Deadline

variable {policy : Strategy} {r t : Runner} {e : RunnerEvent} {o : CommandOutcome} {started : ℚ}

theorem Late.expires (h : Late o started r) : r.step policy .expires = none := by
  rcases h with hpc | hpc
  · simp only [step, hpc]
  · simp only [step, hpc]

/-- Outside the gap, the deadline raises. -/
theorem expires_of_reconciling {stage : Reconciling} (hpc : r.pc = .reconciling o started stage)
    (hstage : stage ≠ .confirmed) (hlate : ¬Late o started r) (hgap : stage ≠ .arrived false) :
    r.step policy .expires = some (r.raise .timeout) := by
  cases stage with
  | arrived expired =>
      cases expired with
      | false => exact absurd rfl hgap
      | true => exact absurd (Or.inl hpc) hlate
  | confirming expired =>
      cases expired with
      | false => simp only [step, hpc]
      | true => exact absurd (Or.inr hpc) hlate
  | confirmed => exact absurd rfl hstage
  | _ => simp only [step, hpc]

/-- Only a deadline that was swallowed is gone. -/
theorem late_of_expires {stage : Reconciling} (hpc : r.pc = .reconciling o started stage)
    (hstage : stage ≠ .confirmed) (hgone : r.step policy .expires = none) : Late o started r := by
  by_contra hlate
  by_cases hgap : stage = .arrived false
  · subst hgap
    simp only [step, hpc, reduceCtorEq] at hgone
  · rw [expires_of_reconciling hpc hstage hlate hgap] at hgone
    cases hgone

theorem iterate_not_late (policy : Strategy) (reads : Reads) (r : Runner) :
    ¬Late o started (r.iterate policy reads) := by
  intro h
  unfold Late iterate at h
  dsimp only at h
  split at h
  · simp at h
  · split at h
    · simp [raise] at h
    · split at h
      · split at h
        · simp [raise] at h
        · simp at h
      · simp at h

theorem raise_not_late (error : RunnerError) : ¬Late o started (r.raise error) := by
  simp [Late, raise]

/-- **Only the deadline in the gap is swallowed.** -/
theorem late_of_step (hstep : Step policy r e t) (hlate : Late o started t) :
    Late o started r ∨ e = .expires ∧ r.pc = .reconciling o started (.arrived false) := by
  cases step_cases hstep with
  | session hforeign hs => exact Or.inl hlate
  | iterate hpc reads => exact absurd hlate (iterate_not_late policy reads _)
  | wake hpc hnewer reads => exact absurd hlate (iterate_not_late policy reads _)
  | answered hpc hcall hreturned reads =>
      unfold answer at hlate
      dsimp only at hlate
      split at hlate
      · exact absurd hlate (iterate_not_late policy reads _)
      · simp [Late] at hlate
  | complete hpc reads => exact absurd hlate (iterate_not_late policy reads _)
  | goOn hpc hmissing hup =>
      simp only [Late, RunnerPc.reconciling.injEq, Reconciling.confirming.injEq, reduceCtorEq,
        and_false, false_or] at hlate
      obtain ⟨rfl, rfl, rfl⟩ := hlate
      exact Or.inl (Or.inl hpc)
  | swallow hpc =>
      simp only [Late, RunnerPc.reconciling.injEq, reduceCtorEq, and_false, or_false] at hlate
      obtain ⟨rfl, rfl, -⟩ := hlate
      exact Or.inr ⟨rfl, hpc⟩
  | cancel hpc hs => exact Or.inl hlate
  | timedOut _ _ _ _ => exact absurd hlate (raise_not_late _)
  | failed _ _ _ _ => exact absurd hlate (raise_not_late _)
  | syncFails _ _ => exact absurd hlate (raise_not_late _)
  | disconnected _ => exact absurd hlate (raise_not_late _)
  | expires => exact absurd hlate (raise_not_late _)
  | _ => simp [Late, sync] at hlate

/-- The snapshot is one of those delivered, and what one shows stays shown. -/
theorem world_of_run {S : List WorldView} {later : List RunnerEvent} (howns : r.Owns)
    (hrun : Run (Step policy) r later t) (hseen : r.session.world ∈ S)
    (hlater : snapshots later ⊆ S) :
    t.session.world ∈ S ∧ ∀ requestId version, Grows S →
      r.session.world.Shows requestId version → t.session.world.Shows requestId version := by
  apply run_invariant howns hrun ⟨hseen, fun _ _ _ h => h⟩
  rintro e r' t he ⟨hseen', hshown⟩ heff
  cases heff with
  | @session s hworld hsent =>
      rcases hworld with hworld | ⟨hsnapshot, hnewer, -⟩
      · rw [hworld]
        exact ⟨hseen', hshown⟩
      · have hs := hlater (mem_snapshots he hsnapshot)
        refine ⟨hs, ?_⟩
        intro requestId version hgrows hshows
        exact hgrows.shows hseen' hs hnewer (hshown requestId version hgrows hshows)
  | begin hpc hworld hsent =>
      rw [hworld]
      exact ⟨hseen', hshown⟩
  | _ => exact ⟨hseen', hshown⟩

/-- While the connection is silent, an overdue runner does nothing. -/
theorem Late.silent {later : List RunnerEvent} (hrun : Run (Step policy) r later t)
    (hsilent : Silent later) (hlate : Late o started r) (hup : r.session.pumpError = none)
    (hmissing : o.includesResult r.session.world = false) :
    Late o started t ∧ t.session.pumpError = none ∧ t.session.world = r.session.world ∧
      t.history = r.history := by
  apply hrun.invariant hsilent (P := fun t => Late o started t ∧ t.session.pumpError = none ∧
    t.session.world = r.session.world ∧ t.history = r.history) ⟨hlate, hup, rfl, rfl⟩
  rintro r' e t ⟨hpc, hup', hworld, hhistory⟩ ⟨harrives, hends⟩ hstep
  have hmissing' : ¬o.includesResult r'.session.world = true := by simp [hworld, hmissing]
  cases e with
  | session e' =>
      simp only [Step, step, Option.ite_none_right_eq_some, Option.map_eq_some_iff] at hstep
      obtain ⟨hforeign, s, hs, rfl⟩ := hstep
      cases Session.step_cases hs with
      | arrives hrunning m => exact absurd rfl (harrives m)
      | ends hrunning cause => exact absurd rfl (hends cause)
      | begins hnew id m => cases hforeign
      | _ => exact ⟨hpc, hup', hworld, hhistory⟩
  | checks =>
      rcases hpc with hpc | hpc
      · simp only [Step, step, hpc, if_neg hmissing', hup'] at hstep
        cases hstep
        exact ⟨Or.inr rfl, hup', hworld, hhistory⟩
      · simp only [Step, step, hpc, if_neg hmissing', hup', Option.map_none, reduceCtorEq] at hstep
  | _ => rcases hpc with hpc | hpc <;> simp only [Step, step, hpc, reduceCtorEq] at hstep

end Deadline

/-! ### The law -/

section Law

variable {policy : Strategy} {w₀ : WorldView} {trace later : List RunnerEvent}
  {r r' t : Runner} {e : RunnerEvent} {o : CommandOutcome} {started : ℚ}

theorem run_settled (hrun : Run (Step policy) (start w₀) trace r)
    (hgrows : Grows (w₀ :: snapshots trace)) : Settled (w₀ :: snapshots trace) r := by
  apply run_invariant (owns_start w₀) hrun
  · refine ⟨List.mem_cons_self, ?_, ?_, List.Pairwise.nil⟩
    · intro w d o hanswered
      cases hanswered
    · intro o started hpc
      cases hpc
  · intro e r t he h heff
    exact h.effect hgrows (fun w hw => List.mem_cons_of_mem w₀ (mem_snapshots he hw)) heff

theorem run_of_punctual (hrun : Run (Punctual policy) r trace t) : Run (Step policy) r trace t :=
  hrun.mono fun _ _ _ h => h.1

/-- What has been raised stays raised. -/
theorem raised_step {error : RunnerError} (hraised : r.pc = .raised error)
    (hstep : Step policy r e t) : t.pc = .raised error := by
  cases e with
  | session e' =>
      simp only [Step, step, Option.ite_none_right_eq_some, Option.map_eq_some_iff] at hstep
      obtain ⟨-, s, -, rfl⟩ := hstep
      exact hraised
  | _ => simp only [Step, step, hraised, reduceCtorEq] at hstep

/-- What is missing is not confirmed. -/
theorem Settled.stage {S : List WorldView} {stage : Reconciling} (h : Settled S r)
    (hpc : r.pc = .reconciling o started stage)
    (hmissing : o.includesResult r.session.world = false) : stage ≠ .confirmed := by
  rintro rfl
  rw [CommandOutcome.includesResult_iff.mpr (h.confirmed o started hpc)] at hmissing
  cases hmissing

theorem stuck_of_run (hrun : Run (Step policy) (start w₀) trace r)
    (hgrows : Grows (w₀ :: snapshots trace)) (hmisses : Misses o started r)
    (hlater : Run (Step policy) r later r')
    (hnever : ∀ w ∈ snapshots later, o.includesResult w = false) :
    Stuck o started r.history r' := by
  obtain ⟨hmissing, stage, hpc⟩ := hmisses
  apply run_invariant (run_owns hrun) hlater
  · exact ⟨rfl, Or.inr ⟨hmissing, stage, hpc, (run_settled hrun hgrows).stage hpc hmissing⟩⟩
  · intro e r t he h heff
    exact h.effect (fun w hw => hnever w (mem_snapshots he hw)) heff

/-- In a punctual run, a deadline is swallowed only when the result is there. -/
theorem shows_of_late (hrun : Run (Punctual policy) (start w₀) trace r)
    (hgrows : Grows (w₀ :: snapshots trace)) (hlate : Late o started r) :
    r.session.world.Shows o.requestId o.processedVersion := by
  have hinv : r.Owns ∧ r.session.world ∈ w₀ :: snapshots trace ∧
      ∀ o started, Late o started r → r.session.world.Shows o.requestId o.processedVersion := by
    refine hrun.invariant (A := fun e => snapshots [e] ⊆ w₀ :: snapshots trace)
      (P := fun r => r.Owns ∧ r.session.world ∈ w₀ :: snapshots trace ∧
        ∀ o started, Late o started r → r.session.world.Shows o.requestId o.processedVersion) ?_ ?_ ?_
    · intro e he w hw
      have hone : snapshots [e] ⊆ snapshots trace :=
        List.filterMap_subset _ (List.cons_subset.mpr ⟨he, List.nil_subset _⟩)
      exact List.mem_cons_of_mem w₀ (hone hw)
    · refine ⟨owns_start w₀, List.mem_cons_self, ?_⟩
      rintro o started (hpc | hpc)
      · cases hpc
      · cases hpc
    · rintro r e t ⟨howns, hseen, hshows⟩ hdelivered ⟨hstep, hpunctual⟩
      have hone : Run (Step policy) r [e] t := .next .start hstep
      obtain ⟨hseen', hshown⟩ := world_of_run howns hone hseen hdelivered
      refine ⟨owns_step howns hstep, hseen', ?_⟩
      intro o started hlate
      apply hshown _ _ hgrows
      rcases late_of_step hstep hlate with hbefore | ⟨rfl, hpc⟩
      · exact hshows o started hbefore
      · rw [← CommandOutcome.includesResult_iff]
        by_contra hmissing
        exact hpunctual ⟨rfl, o, started, hpc, (Bool.not_eq_true _).mp hmissing⟩
  exact hinv.2.2 o started hlate

/-- While the result stays away, no deadline is swallowed, and one that passes raises. -/
theorem raises_of_punctual {history : List Observation} (hlate : ¬Late o started r)
    (hstuck : ∀ later r', Run (Step policy) r later r' →
      (∀ w ∈ snapshots later, o.includesResult w = false) → Stuck o started history r')
    (hlater : Run (Punctual policy) r later r')
    (hnever : ∀ w ∈ snapshots later, o.includesResult w = false) :
    ¬Late o started r' ∧ (.expires ∈ later → ∃ error, r'.pc = .raised error) := by
  induction hlater with
  | start => exact ⟨hlate, by simp⟩
  | @next later s t e hlater hstep ih =>
      obtain ⟨hstep, hpunctual⟩ := hstep
      have hbefore : ∀ w ∈ snapshots later, o.includesResult w = false := by
        intro w hw
        exact hnever w (List.filterMap_subset _ (List.subset_append_left later [e]) hw)
      obtain ⟨hlate, hraised⟩ := ih hbefore
      have hplace := (hstuck later s (run_of_punctual hlater) hbefore).place
      constructor
      · intro hlate'
        rcases late_of_step hstep hlate' with hlate' | ⟨rfl, hpc⟩
        · exact hlate hlate'
        · rcases hplace with ⟨error, hpc'⟩ | ⟨hmissing, -⟩
          · rw [hpc] at hpc'
            cases hpc'
          · exact hpunctual ⟨rfl, o, started, hpc, hmissing⟩
      · intro hexpires
        rcases hplace with ⟨error, hpc⟩ | ⟨hmissing, stage, hpc, hstage⟩
        · exact ⟨error, raised_step hpc hstep⟩
        · rcases List.mem_append.mp hexpires with hearlier | hlast
          · obtain ⟨error, hpc'⟩ := hraised hearlier
            exact ⟨error, raised_step hpc' hstep⟩
          · obtain rfl := List.mem_singleton.mp hlast
            have hgap : stage ≠ .arrived false := by
              rintro rfl
              exact hpunctual ⟨rfl, o, started, hpc, hmissing⟩
            rw [Step, expires_of_reconciling hpc hstage hlate hgap] at hstep
            cases hstep
            exact ⟨_, rfl⟩

/-- In a punctual run the deadline of a result that is missing is still to come. -/
theorem not_late_of_misses (hrun : Run (Punctual policy) (start w₀) trace r)
    (hgrows : Grows (w₀ :: snapshots trace))
    (hmissing : o.includesResult r.session.world = false) : ¬Late o started r := by
  intro hlate
  rw [CommandOutcome.includesResult_iff.mpr (shows_of_late hrun hgrows hlate)] at hmissing
  cases hmissing

/-- After a punctual run, the deadline in the gap alone makes the runner overdue. -/
theorem overdue_step_iff (hrun : Run (Punctual policy) (start w₀) trace r)
    (hgrows : Grows (w₀ :: snapshots (trace ++ [e]))) (hstep : Step policy r e t) :
    t.Overdue policy ↔ e = .expires ∧ r.InGap := by
  constructor
  · rintro ⟨o, started, ⟨hmissing, stage, hpc⟩, hgone⟩
    by_contra hgap
    have hafter : Run (Punctual policy) (start w₀) (trace ++ [e]) t := hrun.next ⟨hstep, hgap⟩
    have hstage := (run_settled (run_of_punctual hafter) hgrows).stage hpc hmissing
    exact not_late_of_misses hafter hgrows hmissing (late_of_expires hpc hstage hgone)
  · rintro ⟨rfl, o, started, hpc, hmissing⟩
    have hswallowed : r.step policy .expires =
        some { r with pc := .reconciling o started (.arrived true) } := by simp only [step, hpc]
    rw [Step, hswallowed] at hstep
    cases hstep
    have hlate : Late o started { r with pc := .reconciling o started (.arrived true) } :=
      Or.inl rfl
    exact ⟨o, started, ⟨hmissing, _, rfl⟩, hlate.expires⟩

/-- **The trading loop never decides on stale stock**, and it raises instead exactly when
no deadline passes in the gap. With a server whose snapshots grow:
* every call of `choose` after the answer to a command uses a snapshot that shows its
  result;
* while no snapshot shows the result of the command being reconciled, the runner calls
  `choose` no more: it goes on reconciling until it raises;
* where no deadline passes in the gap, it has raised once a deadline has passed, and
  until then the deadline is still to come;
* the deadline in the gap is the one step after which none is left. -/
theorem choose_is_fresh (hrun : Run (Step policy) (start w₀) trace r)
    (hgrows : Grows (w₀ :: snapshots trace)) :
    r.history.Pairwise Observation.Fresh ∧
    (∀ o started, Misses o started r → ∀ later r', Run (Step policy) r later r' →
      (∀ w ∈ snapshots later, o.includesResult w = false) →
        r'.history = r.history ∧ ((∃ error, r'.pc = .raised error) ∨ Misses o started r')) ∧
    (Run (Punctual policy) (start w₀) trace r →
      (∀ o started, Misses o started r → ∀ later r', Run (Punctual policy) r later r' →
        (∀ w ∈ snapshots later, o.includesResult w = false) →
          ¬r'.Overdue policy ∧
            (RunnerEvent.expires ∈ later → ∃ error, r'.pc = .raised error)) ∧
      ∀ e t, Step policy r e t → Grows (w₀ :: snapshots (trace ++ [e])) →
        (t.Overdue policy ↔ e = .expires ∧ r.InGap)) := by
  refine ⟨(run_settled hrun hgrows).fresh, ?_, ?_⟩
  · intro o started hmisses later r' hlater hnever
    obtain ⟨hkept, hplace⟩ := stuck_of_run hrun hgrows hmisses hlater hnever
    refine ⟨hkept, ?_⟩
    rcases hplace with hraised | ⟨hmissing, stage, hpc, -⟩
    · exact Or.inl hraised
    · exact Or.inr ⟨hmissing, stage, hpc⟩
  · intro hpunctual
    refine ⟨?_, fun e t hstep hgrows' => overdue_step_iff hpunctual hgrows' hstep⟩
    intro o started hmisses later r' hlater hnever
    have hlate : ¬Late o started r := not_late_of_misses hpunctual hgrows hmisses.1
    have hstuck : ∀ later r', Run (Step policy) r later r' →
        (∀ w ∈ snapshots later, o.includesResult w = false) → Stuck o started r.history r' :=
      fun _ _ hlater hnever => stuck_of_run hrun hgrows hmisses hlater hnever
    obtain ⟨hlate', hraises⟩ := raises_of_punctual hlate hstuck hlater hnever
    refine ⟨?_, hraises⟩
    rintro ⟨o', started', ⟨hmissing', stage', hpc'⟩, hgone⟩
    rcases (hstuck later r' (run_of_punctual hlater) hnever).place with
      ⟨error, hpc⟩ | ⟨-, stage, hpc, hstage⟩
    · rw [hpc'] at hpc
      cases hpc
    · rw [hpc'] at hpc
      cases hpc
      exact hlate' (late_of_expires hpc' hstage hgone)

end Law

/-! ### Two runs -/

/-- A run in which no deadline passes is punctual. -/
theorem punctual_of_run {policy : Strategy} {r t : Runner} {trace : List RunnerEvent}
    (hrun : Run (Step policy) r trace t) (hnone : .expires ∉ trace) :
    Run (Punctual policy) r trace t := by
  induction hrun with
  | start => exact .start
  | next hrun hstep ih =>
      rw [List.mem_append, List.mem_singleton, not_or] at hnone
      exact .next (ih hnone.1) ⟨hstep, fun h => hnone.2 h.1.symm⟩

/-- The sample purchase is answered, and the sync has been sent. -/
def unconfirmed : List RunnerEvent := sampleTrace.take 8

def sampleOutcome : CommandOutcome where
  requestId := "request-1"
  ok := true
  code := .OK
  objectId := some "offer-1"
  transactionId := none
  retryAfterTick := none
  processedVersion := 2

theorem choose_is_fresh_sample :
    (∃ r, Run (Step .base) (start .sample) sampleTrace r ∧ r.history.length = 3 ∧
      r.history.Pairwise Observation.Fresh) ∧
    ∃ r o t, Run (Punctual .base) (start .sample) unconfirmed r ∧ Misses o 0 r ∧
      Step .base r .expires t ∧ ∃ error, t.pc = .raised error := by
  constructor
  · obtain ⟨r, hrun, hlength⟩ := run_sampleTrace
    have hgrows : Grows (.sample :: snapshots sampleTrace) := ⟨by decide, by decide⟩
    exact ⟨r, hrun, hlength, (choose_is_fresh hrun hgrows).1⟩
  · have hreplay : (replay (step .base) (start .sample) unconfirmed).map
        (fun r => (r.pc, sampleOutcome.includesResult r.session.world)) =
          some (.reconciling sampleOutcome 0 (.waiting 1), false) := by decide +kernel
    obtain ⟨r, hr, hends⟩ := Option.map_eq_some_iff.mp hreplay
    obtain ⟨hpc, hmissing⟩ := Prod.mk.inj hends
    have hrun : Run (Step .base) (start .sample) unconfirmed r :=
      run_of_replay (fun _ _ _ h => h) hr
    have hnone : RunnerEvent.expires ∉ unconfirmed := by
      simp [unconfirmed, sampleTrace]
    have hgrows : Grows (.sample :: snapshots unconfirmed) := ⟨by decide, by decide⟩
    have hpunctual := punctual_of_run hrun hnone
    have hstep : Step .base r .expires (r.raise .timeout) := by simp only [Step, step, hpc]
    have hlater : Run (Punctual .base) r [.expires] (r.raise .timeout) := by
      refine .next .start ⟨hstep, ?_⟩
      rintro ⟨-, o, started, hgap, -⟩
      rw [hpc] at hgap
      cases hgap
    have hmisses : Misses sampleOutcome 0 r := ⟨hmissing, _, hpc⟩
    have hraises := ((choose_is_fresh hrun hgrows).2.2 hpunctual).1 sampleOutcome 0 hmisses
      [.expires] _ hlater (by simp [snapshots, RunnerEvent.snapshot?])
    exact ⟨r, sampleOutcome, _, hpunctual, hmisses, hstep, hraises.2 (by simp)⟩

/-- A snapshot of the tick before the purchase arrives, and the deadline passes before the
task of `reconcile_after_sync` looks at it. -/
def swallowed : List RunnerEvent :=
  unconfirmed ++
    [.session (.arrives (.state { Wire.State.sample 2 with tick := 1 })), .checks, .expires,
      .checks]

/-- The deadline has passed without the result, and on a silent connection the runner
waits for ever. -/
theorem deadline_swallowed :
    ∃ r o, Run (Step .base) (start .sample) swallowed r ∧
      Grows (.sample :: snapshots swallowed) ∧ .expires ∈ swallowed ∧ Misses o 0 r ∧
      ∀ later r', Run (Step .base) r later r' → Silent later →
        Misses o 0 r' ∧ ∀ error, r'.pc ≠ .raised error := by
  have hreplay : (replay (step .base) (start .sample) swallowed).map
      (fun r => (r.pc, sampleOutcome.includesResult r.session.world, r.session.pumpError)) =
        some (.reconciling sampleOutcome 0 (.confirming true), false, none) := by decide +kernel
  obtain ⟨r, hr, hends⟩ := Option.map_eq_some_iff.mp hreplay
  simp only [Prod.mk.injEq] at hends
  obtain ⟨hpc, hmissing, hup⟩ := hends
  refine ⟨r, sampleOutcome, run_of_replay (fun _ _ _ h => h) hr, ⟨by decide, by decide⟩, ?_,
    ⟨hmissing, _, hpc⟩, ?_⟩
  · simp [swallowed]
  · intro later r' hlater hsilent
    have hlate : Late sampleOutcome 0 r := Or.inr hpc
    obtain ⟨hlate', -, hworld, -⟩ := Late.silent hlater hsilent hlate hup hmissing
    refine ⟨⟨by rw [hworld]; exact hmissing, ?_⟩, ?_⟩
    · rcases hlate' with hpc' | hpc'
      · exact ⟨_, hpc'⟩
      · exact ⟨_, hpc'⟩
    · intro error hraised
      rcases hlate' with hpc' | hpc'
      · rw [hpc'] at hraised
        cases hraised
      · rw [hpc'] at hraised
        cases hraised

end Runner

end PlanetCharlu
