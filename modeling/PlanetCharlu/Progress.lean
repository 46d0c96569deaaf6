import PlanetCharlu.LoggedRunner
import PlanetCharlu.ServerLimits

/-!
# The trading loop makes progress

Between two calls of `choose` the loop waits for a newer snapshot or records a command.
A wait moves the sequence number on, and a record uses up one of the request records that
the rules allow. So the calls are counted by the snapshots that the loop reads and by the
records, whatever becomes of the commands, and a run that is delivered finitely many
snapshots has finitely many iterations.
-/

namespace PlanetCharlu

open Runs

/-- A call of `choose`: the snapshot it was for, its action, and the strategy it left. -/
structure ChooseCall where
  strategy : StrategyState
  world : WorldView
  action : Option Decision

namespace ChooseCall

def sequence (c : ChooseCall) : Nat := c.world.snapshotSequence

/-- The next call: after a wait the snapshot is newer, and after a decision there is exactly
one more recorded command. -/
def Advances (x y : ChooseCall) : Prop :=
  (x.action = none ∧ x.sequence < y.sequence ∧ y.strategy.sentTotal = x.strategy.sentTotal) ∨
    (∃ d, x.action = some d ∧ x.sequence ≤ y.sequence ∧
      y.strategy.sentTotal = x.strategy.sentTotal + 1)

/-- Any later call. -/
def Before (x y : ChooseCall) : Prop :=
  x.sequence ≤ y.sequence ∧ (x.action = none → x.sequence < y.sequence)

theorem Advances.before {x y : ChooseCall} (h : Advances x y) : Before x y := by
  rcases h with ⟨-, hnewer, -⟩ | ⟨d, hdecided, hlater, -⟩
  · exact ⟨hnewer.le, fun _ => hnewer⟩
  · refine ⟨hlater, fun hnone => ?_⟩
    rw [hdecided] at hnone
    cases hnone

instance : Trans Before Before Before where
  trans hxy hyz := ⟨hxy.1.trans hyz.1, fun hnone => (hxy.2 hnone).trans_le hyz.1⟩

/-- Calls that wait are for different snapshots. -/
theorem length_waits_le {calls : List ChooseCall} (h : calls.IsChain Advances) :
    (calls.filter fun c => c.action.isNone).length ≤ (calls.map sequence).toFinset.card := by
  have hbefore : calls.Pairwise Before :=
    List.isChain_iff_pairwise.mp (h.imp fun _ _ hadvances => hadvances.before)
  have hnodup : ((calls.filter fun c => c.action.isNone).map sequence).Nodup := by
    rw [List.Nodup, List.pairwise_map, List.pairwise_filter]
    refine hbefore.imp fun hxy hx _ => ?_
    exact (hxy.2 (Option.isNone_iff_eq_none.mp hx)).ne
  calc (calls.filter fun c => c.action.isNone).length
      = ((calls.filter fun c => c.action.isNone).map sequence).toFinset.card := by
        rw [List.toFinset_card_of_nodup hnodup, List.length_map]
    _ ≤ (calls.map sequence).toFinset.card := by
        apply Finset.card_le_card
        intro sequence hmem
        rw [List.mem_toFinset] at hmem ⊢
        exact (List.filter_sublist.map ChooseCall.sequence).subset hmem

end ChooseCall

/-- The call of `choose` that an observation is about. -/
def Observation.call? : Observation → Option ChooseCall
  | .chose strategy world action => some ⟨strategy, world, action⟩
  | .answered _ _ _ => none

def RunnerPc.returned? : RunnerPc → Option WorldView
  | .returned world => some world
  | _ => none

namespace Runner

/-- The calls of `choose`, in their order. -/
def chooseCalls (r : Runner) : List ChooseCall := r.history.filterMap Observation.call?

section

variable {policy : Strategy} {w₀ : WorldView} {trace : List RunnerEvent} {e : RunnerEvent}
  {r t : Runner}

/-- Every decision was made in a call, and every other call waits. -/
theorem length_chooseCalls (r : Runner) :
    r.chooseCalls.length =
      (r.chooseCalls.filter fun c => c.action.isNone).length + r.commands.length := by
  rw [chooseCalls, commands]
  induction r.history with
  | nil => rfl
  | cons observation history ih =>
      rcases observation with ⟨st, w, _ | d⟩ | ⟨w, d, o⟩
      · simp only [commandsOf, Observation.call?, Observation.command?, List.filterMap_cons] at ih ⊢
        simp only [Option.isNone_none, List.filter_cons_of_pos, List.length_cons]
        omega
      · simp only [commandsOf, Observation.call?, Observation.command?, List.filterMap_cons] at ih ⊢
        simp only [Option.isNone_some, List.filter_cons, Bool.false_eq_true, if_false,
          List.length_cons]
        omega
      · simpa only [commandsOf, Observation.call?, Observation.command?, List.filterMap_cons]
          using ih

/-! ### From one call to the next -/

/-- What is left to do before `choose` is called again: a call that decided has been
recorded, and one that waits is followed by a newer snapshot. -/
inductive Follows (c : ChooseCall) (r : Runner) : Prop where
  | decided (hdecided : c.action.isSome) (htotal : r.strategy.sentTotal = c.strategy.sentTotal + 1)
  | waits (hnone : c.action = none) (htotal : r.strategy.sentTotal = c.strategy.sentTotal)
      (hpc : r.pc = .idle c.sequence)
  | wakes (hnone : c.action = none) (htotal : r.strategy.sentTotal = c.strategy.sentTotal)
      (hpc : r.pc = .ready) (hnewer : c.sequence < r.session.world.snapshotSequence)
  | ended (hpc : r.pc.isEnded = true)

/-- The calls so far advance, and the loop is on its way from the last of them. -/
structure Advancing (r : Runner) : Prop where
  chain : r.chooseCalls.IsChain ChooseCall.Advances
  last : ∀ c ∈ r.chooseCalls.getLast?,
    c.sequence ≤ r.session.world.snapshotSequence ∧ Follows c r

namespace Advancing

/-- `choose` is not called. -/
theorem move (h : r.Advancing)
    (hnewer : r.session.world.snapshotSequence ≤ t.session.world.snapshotSequence)
    (hcalls : t.chooseCalls = r.chooseCalls) (hfollows : ∀ c, Follows c r → Follows c t) :
    t.Advancing := by
  refine ⟨?_, ?_⟩
  · rw [hcalls]
    exact h.chain
  · intro c hc
    rw [hcalls] at hc
    obtain ⟨hlater, hlast⟩ := h.last c hc
    exact ⟨hlater.trans hnewer, hfollows c hlast⟩

/-- `choose` is called, at the head of the loop. -/
theorem call (h : r.Advancing) {env : ChooseEnv} {st : StrategyState} {action : Option Decision}
    (hpc : r.pc = .ready)
    (hchoose : policy.choose env r.strategy r.session.world = .ok (st, action))
    (hworld : t.session.world = r.session.world)
    (hcalls : t.chooseCalls = r.chooseCalls ++ [⟨st, r.session.world, action⟩])
    (hfollows : Follows ⟨st, r.session.world, action⟩ t) : t.Advancing := by
  have htotal := Strategy.choose_sentTotal hchoose
  refine ⟨?_, ?_⟩
  · rw [hcalls]
    apply h.chain.append (List.isChain_singleton _)
    intro c hc y hy
    simp only [List.head?_cons, Option.mem_def, Option.some.injEq] at hy
    subst hy
    obtain ⟨hlater, hlast⟩ := h.last c hc
    cases hlast with
    | decided hdecided hnumber =>
        obtain ⟨d, hd⟩ := Option.isSome_iff_exists.mp hdecided
        exact Or.inr ⟨d, hd, hlater, htotal.trans hnumber⟩
    | waits hnone hnumber hidle =>
        rw [hpc] at hidle
        cases hidle
    | wakes hnone hnumber _ hnewer => exact Or.inl ⟨hnone, hnewer, htotal.trans hnumber⟩
    | ended hended =>
        rw [hpc] at hended
        cases hended
  · intro c hc
    rw [hcalls, List.getLast?_concat, Option.mem_def, Option.some.injEq] at hc
    subst hc
    rw [hworld]
    exact ⟨le_rfl, hfollows⟩

end Advancing

/-- While a command is under way, the last call has decided. -/
theorem Follows.busy {c : ChooseCall} (h : Follows c r) (hended : r.pc.isEnded = false)
    (hidle : ∀ sequence, r.pc ≠ .idle sequence) (hready : r.pc ≠ .ready)
    (htotal : t.strategy.sentTotal = r.strategy.sentTotal) : Follows c t := by
  cases h with
  | decided hdecided hnumber => exact .decided hdecided (htotal.trans hnumber)
  | waits _ _ hpc => exact absurd hpc (hidle _)
  | wakes _ _ hpc _ => exact absurd hpc hready
  | ended hpc =>
      rw [hended] at hpc
      cases hpc

theorem Advancing.effect (h : r.Advancing) (heff : Effect policy e r t) : t.Advancing := by
  cases heff with
  | @session s hworld hsent =>
      have hnewer : r.session.world.snapshotSequence ≤ s.world.snapshotSequence := by
        rcases hworld with hworld | ⟨-, hnewer, -⟩
        · rw [hworld]
        · exact hnewer.le
      refine h.move hnewer rfl fun c hfollows => ?_
      cases hfollows with
      | decided hdecided hnumber => exact .decided hdecided hnumber
      | waits hnone hnumber hpc => exact .waits hnone hnumber hpc
      | wakes hnone hnumber hpc hbefore => exact .wakes hnone hnumber hpc (hbefore.trans_le hnewer)
      | ended hpc => exact .ended hpc
  | begin hpc hworld hsent =>
      refine h.move (by rw [hworld]) rfl fun c hfollows => ?_
      exact hfollows.busy (by rw [hpc]; rfl) (by simp [hpc]) (by simp [hpc]) rfl
  | sync hpc =>
      refine h.move le_rfl rfl fun c hfollows => ?_
      exact hfollows.busy (by rw [hpc]; rfl) (by simp [hpc]) (by simp [hpc]) rfl
  | reconcile hpc hincludes =>
      refine h.move le_rfl rfl fun c hfollows => ?_
      exact hfollows.busy (by rw [hpc]; rfl) (by simp [hpc]) (by simp [hpc]) rfl
  | raise error => exact h.move le_rfl rfl fun c _ => .ended rfl
  | @wake sequence hpc hnewer =>
      refine h.move le_rfl rfl fun c hfollows => ?_
      cases hfollows with
      | decided hdecided hnumber => exact .decided hdecided hnumber
      | waits hnone hnumber hidle =>
          rw [hpc, RunnerPc.idle.injEq] at hidle
          rw [hidle] at hnewer
          exact .wakes hnone hnumber rfl hnewer
      | wakes hnone hnumber hready _ =>
          rw [hpc] at hready
          cases hready
      | ended hended =>
          rw [hpc] at hended
          cases hended
  | @note w d started c o hpc hid =>
      have htotal := (Strategy.noteOutcome_attempts policy r.strategy w d o started).2.2.2.1
      refine h.move le_rfl (by simp [chooseCalls, Observation.call?]) fun c hfollows => ?_
      exact hfollows.busy (by rw [hpc]; rfl) (by simp [hpc]) (by simp [hpc]) htotal
  | complete elapsed hpc =>
      refine h.move le_rfl rfl fun c hfollows => ?_
      apply hfollows.busy (by rw [hpc]; rfl) (by simp [hpc]) (by simp [hpc])
      exact (BaseStrategy.sameAttempts_observeLatency r.strategy elapsed).sentTotal
  | finish hpc hfinal => exact h.move le_rfl rfl fun c _ => .ended rfl
  | wait _ hpc hchoose =>
      refine h.call hpc hchoose rfl ?_ (.waits rfl rfl rfl)
      simp [chooseCalls, Observation.call?]
  | decide _ hpc hchoose =>
      refine h.call hpc hchoose rfl ?_ (.decided rfl (StrategyState.record_sentTotal _ _))
      simp [chooseCalls, Observation.call?]

theorem run_advancing (hrun : Run (Step policy) (start w₀) trace r) :
    r.Advancing := by
  apply run_invariant (owns_start w₀) hrun
  · refine ⟨List.isChain_nil, ?_⟩
    intro c hc
    cases hc
  · intro e r t _ h heff
    exact h.effect heff

end

end Runner

/-! ### The iterations of the loop -/

namespace LoggedRunner

section

variable {policy : Strategy} {w₀ : WorldView} {trace : List RunnerEvent} {e : RunnerEvent}
  {l t : LoggedRunner} {reads : Reads}

/-- An iteration reads a snapshot, and calls `choose` for it or returns it. -/
def Tallied (l : LoggedRunner) : Prop :=
  l.heads = l.runner.chooseCalls.map ChooseCall.world ++ l.runner.pc.returned?.toList

/-- Neither a snapshot is read nor `choose` called. -/
theorem Tallied.move (h : l.Tallied) (hheads : t.heads = l.heads)
    (hcalls : t.runner.chooseCalls = l.runner.chooseCalls)
    (hreturned : t.runner.pc.returned? = l.runner.pc.returned?) : t.Tallied := by
  rw [Tallied, hheads, hcalls, hreturned]
  exact h

theorem heads_iterate (policy : Strategy) (reads : Reads) (l : LoggedRunner) :
    (l.iterate policy reads).heads = l.heads ++ [l.runner.session.world] := by
  rw [← heads_look]
  simp only [iterate]
  split
  · rfl
  · split
    · rfl
    · split <;> rfl

theorem Tallied.iterate (h : l.Tallied) (hfrom : l.runner.pc.returned? = none) :
    (l.iterate policy reads).Tallied := by
  rw [Tallied, hfrom, Option.toList_none, List.append_nil] at h
  rw [Tallied, heads_iterate, iterate_runner, h, Runner.iterate]
  dsimp only
  split
  · rfl
  · obtain ⟨⟨strategy, action⟩, hchoose⟩ :=
      policy.choose_isOk reads.env l.runner.strategy l.runner.session.world
    rw [hchoose]
    cases action with
    | none =>
        cases l.runner.session.pumpError <;>
          simp [Runner.raise, Runner.chooseCalls, Observation.call?, RunnerPc.returned?]
    | some d => simp [Runner.chooseCalls, Observation.call?, RunnerPc.returned?]

theorem Tallied.complete (h : l.Tallied) (hfrom : l.runner.pc.returned? = none) (started : ℚ) :
    (l.complete policy reads started).Tallied := by
  simp only [LoggedRunner.complete]
  split
  all_goals
    refine Tallied.iterate ?_ rfl
    exact h.move rfl rfl hfrom.symm

theorem Tallied.answer (h : l.Tallied) (hfrom : l.runner.pc.returned? = none) (world : WorldView)
    (action : Decision) (started : ℚ) (outcome : CommandOutcome) :
    (l.answer policy reads world action started outcome).Tallied := by
  have hcalls : (l.runner.history ++ [Observation.answered world action outcome]).filterMap
      Observation.call? = l.runner.chooseCalls := by
    simp [Runner.chooseCalls, Observation.call?]
  simp only [LoggedRunner.answer]
  split
  · refine Tallied.complete ?_ rfl started
    exact h.move rfl hcalls hfrom.symm
  · exact h.move rfl hcalls hfrom.symm

theorem Tallied.resume (h : l.Tallied) (hfrom : l.runner.pc.returned? = none) {world : WorldView}
    {action : Decision} {started : ℚ} {call : Call}
    (hresume : l.resume policy reads world action started call = some t) : t.Tallied := by
  simp only [LoggedRunner.resume] at hresume
  split at hresume
  · cases hresume
    exact h.answer hfrom _ _ _ _
  · cases hresume
    exact h.move rfl rfl hfrom.symm
  · cases hresume
    exact h.move rfl rfl hfrom.symm
  · cases hresume
    exact h.move rfl rfl hfrom.symm
  · cases hresume

theorem Tallied.runs (h : l.Tallied) (hfrom : l.runner.pc.returned? = none)
    (hstep : l.step policy (.runs reads) = some t) : t.Tallied := by
  have hpump : l.runner.session.pumpError.map l.raise = some t → t.Tallied := by
    intro hraise
    obtain ⟨error, -, rfl⟩ := Option.map_eq_some_iff.mp hraise
    exact h.move rfl rfl hfrom.symm
  simp only [step] at hstep
  split at hstep
  · cases hstep
    exact h.iterate hfrom
  · split at hstep
    · cases hstep
      refine Tallied.iterate ?_ rfl
      exact h.move rfl rfl hfrom.symm
    · exact hpump hstep
  · obtain ⟨call, -, hresume⟩ := Option.bind_eq_some_iff.mp hstep
    exact h.resume hfrom hresume
  · cases hstep
    exact h.complete hfrom _
  · cases hstep

theorem Tallied.expires (h : l.Tallied) (hfrom : l.runner.pc.returned? = none)
    (hstep : l.step policy .expires = some t) : t.Tallied := by
  simp only [step] at hstep
  split at hstep
  · cases hstep
    exact h.move rfl rfl hfrom.symm
  · obtain ⟨s, -, rfl⟩ := Option.map_eq_some_iff.mp hstep
    exact h.move rfl rfl rfl
  · cases hstep
    exact h.move rfl rfl hfrom.symm
  · cases hstep
  · cases hstep
  · cases hstep
  · cases hstep
    exact h.move rfl rfl hfrom.symm
  · cases hstep

/-- The tasks of a command do not iterate the loop. -/
theorem Tallied.task (h : l.Tallied) {r : Runner} (hfrom : l.runner.pc.returned? = none)
    (hsession : ∀ e', e ≠ .session e') (hruns : ∀ reads, e ≠ .runs reads) (hexpires : e ≠ .expires)
    (hstep : Runner.Step policy l.runner e r) : { l with runner := r }.Tallied := by
  cases Runner.step_cases hstep with
  | session _ _ => exact absurd rfl (hsession _)
  | iterate _ reads => exact absurd rfl (hruns reads)
  | wake _ _ reads => exact absurd rfl (hruns reads)
  | answered _ _ _ reads => exact absurd rfl (hruns reads)
  | timedOut _ _ _ reads => exact absurd rfl (hruns reads)
  | failed _ _ _ reads => exact absurd rfl (hruns reads)
  | complete _ reads => exact absurd rfl (hruns reads)
  | swallow _ => exact absurd rfl hexpires
  | expires => exact absurd rfl hexpires
  | cancel _ _ => exact absurd rfl hexpires
  | _ => exact h.move rfl rfl hfrom.symm

theorem Tallied.step (h : l.Tallied) (hstep : Step policy l e t) : t.Tallied := by
  have hfrom : (∀ e', e ≠ .session e') → l.runner.pc.returned? = none := by
    intro hother
    rcases hpc : l.runner.pc with _ | _ | _ | _ | w | error
    case returned =>
      obtain ⟨e', he⟩ := Runner.session_of_ended (by rw [hpc]; rfl) (step_runner hstep)
      exact absurd he (hother e')
    all_goals rfl
  cases e with
  | runs reads => exact h.runs (hfrom (by simp)) hstep
  | expires => exact h.expires (hfrom (by simp)) hstep
  | session e' =>
      obtain ⟨r, hr, rfl⟩ := Option.map_eq_some_iff.mp hstep
      simp only [Runner.step, Option.ite_none_right_eq_some, Option.map_eq_some_iff] at hr
      obtain ⟨-, s, -, rfl⟩ := hr
      exact h.move rfl rfl rfl
  | _ =>
      obtain ⟨r, hr, rfl⟩ := Option.map_eq_some_iff.mp hstep
      exact h.task (hfrom (by simp)) (by simp) (by simp) (by simp) hr

theorem run_tallied (hrun : Run (Step policy) (start w₀) trace l) : l.Tallied := by
  refine hrun.invariant (A := fun _ => True) (fun _ _ => trivial) rfl ?_
  intro l e t h _ hstep
  exact h.step hstep

/-- The loop reads only what the session has had. -/
theorem run_reads (hrun : Run (Step policy) (start w₀) trace l) :
    ∀ w ∈ l.heads ++ [l.runner.session.world], w ∈ w₀ :: Runner.snapshots trace := by
  apply run_invariant hrun
  · exact fun w hw => List.mem_cons.mpr (Or.inl (List.mem_singleton.mp hw))
  · intro e l t he h heff
    cases heff with
    | session hworld =>
        intro w hw
        rcases List.mem_append.mp hw with hw | hw
        · exact h w (List.mem_append_left _ hw)
        · rcases hworld with hworld | ⟨hsnapshot, -⟩
          · rw [List.mem_singleton.mp hw, hworld]
            exact h _ (List.mem_append_right _ (List.mem_singleton_self _))
          · rw [List.mem_singleton.mp hw]
            exact List.mem_cons_of_mem w₀ (Runner.mem_snapshots he hsnapshot)
    | look hpc =>
        intro w hw
        rw [heads_look, look_runner, List.mem_append] at hw
        rcases hw with hw | hw
        · exact h w hw
        · exact h w (List.mem_append_right _ hw)
    | move hfrom hto hworld hnotes =>
        rw [hworld]
        exact h
    | fail hfrom hto hworld hnotes =>
        rw [hworld]
        exact h
    | finish hpc hlooked => exact h
    | timeout hfrom => exact h

/-! ### The law -/

/-- How many different snapshots there are among these. -/
def distinctSnapshots (worlds : List WorldView) : Nat :=
  (worlds.map WorldView.snapshotSequence).toFinset.card

/-- What a run that was delivered the snapshots `S` has done under `rules`. -/
structure MakesProgress (rules : TradingRules) (S : List WorldView) (l : LoggedRunner) : Prop where
  /-- From one call of `choose` to the next: a newer snapshot or one recorded command. -/
  advances : l.runner.chooseCalls.IsChain ChooseCall.Advances
  /-- The calls are for snapshots that the loop reads, which the session has had. -/
  reads : l.heads ⊆ S
  calls : l.runner.chooseCalls.length ≤
    distinctSnapshots l.heads + rules.maxRequestRecordsPerStation
  /-- The last iteration may return. -/
  iterations : l.heads.length ≤ distinctSnapshots S + rules.maxRequestRecordsPerStation + 1

variable {rules : TradingRules} {S : List WorldView}

theorem distinctSnapshots_mono {S T : List WorldView} (h : S ⊆ T) :
    distinctSnapshots S ≤ distinctSnapshots T := by
  apply Finset.card_le_card
  intro sequence hmem
  rw [List.mem_toFinset] at hmem ⊢
  exact List.map_subset _ h hmem

/-- **The loop makes progress**, for each strategy and whatever becomes of its commands:
each call of `choose` needs a newer snapshot or one more record, so both the calls and the
iterations are bounded by the snapshots and the request records. -/
theorem makes_progress (hrun : Run (Step policy) (start w₀) trace l)
    (hrules : ∀ w ∈ w₀ :: Runner.snapshots trace, w.rules = rules) :
    MakesProgress rules (w₀ :: Runner.snapshots trace) l := by
  have hrunner := run_erase hrun
  have hadvancing := Runner.run_advancing hrunner
  have htallied := run_tallied hrun
  have hcommands : l.runner.commands.length ≤ rules.maxRequestRecordsPerStation := by
    by_cases hsome : l.runner.commands = []
    · rw [hsome]
      exact Nat.zero_le _
    · have hlifetime := (Runner.run_recorded hrunner).lifetime hrules hsome
      omega
  have hcalled : l.runner.chooseCalls.map ChooseCall.world ⊆ l.heads := by
    rw [htallied]
    exact List.subset_append_left _ _
  have hcalls : l.runner.chooseCalls.length ≤
      distinctSnapshots l.heads + rules.maxRequestRecordsPerStation := by
    have hwaits := ChooseCall.length_waits_le hadvancing.chain
    have hread := distinctSnapshots_mono hcalled
    rw [distinctSnapshots, List.map_map] at hread
    rw [Runner.length_chooseCalls]
    exact Nat.add_le_add (hwaits.trans hread) hcommands
  refine ⟨hadvancing.chain, ?_, hcalls, ?_⟩
  · exact fun w hw => run_reads hrun w (List.mem_append_left _ hw)
  · have hread : distinctSnapshots l.heads ≤ distinctSnapshots (w₀ :: Runner.snapshots trace) :=
      distinctSnapshots_mono fun w hw => run_reads hrun w (List.mem_append_left _ hw)
    have hreturned : l.runner.pc.returned?.toList.length ≤ 1 := by
      cases l.runner.pc.returned? <;> simp
    rw [htallied, List.length_append, List.length_map]
    omega

theorem makes_progress_sample :
    ∃ l, Run (Step .base) (start .sample) Runner.sampleTrace l ∧
      l.runner.chooseCalls.length = 2 ∧
        MakesProgress {} (.sample :: Runner.snapshots Runner.sampleTrace) l := by
  have hreplay : (replay (step .base) (start .sample) Runner.sampleTrace).map
      (fun l => l.runner.chooseCalls.length) = some 2 := by decide +kernel
  obtain ⟨l, hl, hlength⟩ := Option.map_eq_some_iff.mp hreplay
  have hrun : Run (Step .base) (start .sample) Runner.sampleTrace l :=
    run_of_replay (fun _ _ _ h => h) hl
  exact ⟨l, hrun, hlength, makes_progress hrun (by decide)⟩

end

end LoggedRunner

end PlanetCharlu
