import PlanetCharlu.Commands
import PlanetCharlu.Lib.Window

/-!
# Server limits over whole runs

The three counters behind the limits live in different places: `choose` resets the
count of a tick, `record` advances it, and the runner sets the backoff. Every
decision counts, also when its command is rejected or never sent. With the rules
fixed and ticks that follow the snapshots, a run stays within the commands per tick,
the stored request records, the backoff and the size of a message, and repeats no
key within a tick.
-/

namespace PlanetCharlu

open Runs Window

/-- Rules are fixed, and a newer snapshot shows no earlier tick. -/
structure Steady (rules : TradingRules) (S : List WorldView) : Prop where
  rules : ∀ w ∈ S, w.rules = rules
  ticks : ∀ a ∈ S, ∀ b ∈ S, a.snapshotSequence < b.snapshotSequence → a.tick ≤ b.tick

/-- `max(world.tick + 1, outcome.retry_after_tick or 0)`. -/
def CommandOutcome.resumeTick (o : CommandOutcome) (w : WorldView) : Nat :=
  max (w.tick + 1) (o.retryAfterTick.getD 0)

/-- If `earlier` is a rate-limited outcome and `later` a decision, the decision was made
after the backoff. -/
def Observation.BacksOff (earlier later : Observation) : Prop :=
  ∀ w d o st w' d', earlier = .answered w d o → o.code = .RATE_LIMITED →
    later = .chose st w' (some d') → o.resumeTick w ≤ w'.tick

/-! ### The strategy's books -/

namespace StrategyState

/-- Entering a tick turns to a new window exactly if the tick is new. -/
theorem kept_enterTick {st : StrategyState} {w : WorldView} {limit : Nat} {log : List (ℤ × Key)}
    (h : Kept limit log st.tick st.sentThisTick st.attempted) (hentered : st.tick ≤ w.tick) :
    (st.enterTick w).tick = w.tick ∧
      Kept limit log (st.enterTick w).tick (st.enterTick w).sentThisTick
        (st.enterTick w).attempted := by
  unfold enterTick
  split
  · rename_i hnew
    exact ⟨rfl, h.advance (lt_of_le_of_ne hentered hnew)⟩
  · rename_i hsame
    rw [not_not] at hsame
    exact ⟨hsame, h⟩

theorem enterTick_retryTick (st : StrategyState) (w : WorldView) :
    (st.enterTick w).retryTick = st.retryTick := by
  unfold enterTick
  split <;> rfl

end StrategyState

/-- The commands of a strategy are for the run of the snapshot. -/
theorem Strategy.Decided.runId {policy : Strategy} {st : StrategyState} {w : WorldView}
    {d : Decision} (h : policy.Decided st w d) : d.message.runId = w.runId := by
  have hmove := h.move
  generalize d.key = key at hmove
  generalize d.message = m at hmove
  cases policy <;> cases hmove <;> rfl

namespace Runner

/-- The attempts as the window rules see them. -/
def attempts (r : Runner) : List (ℤ × Key) := r.commands.map fun c => ((c.1.tick : ℤ), c.2.key)

section Invariants

variable {policy : Strategy} {w₀ : WorldView} {S : List WorldView} {e : RunnerEvent} {r t : Runner}

/-! ### Commands per tick -/

/-- The strategy's tick is a window of the attempts, and no later than the snapshot. -/
structure Paced (limit : Nat) (S : List WorldView) (r : Runner) : Prop where
  seen : r.session.world ∈ S
  entered : r.strategy.tick ≤ r.session.world.tick
  kept : Kept limit r.attempts r.strategy.tick r.strategy.sentThisTick r.strategy.attempted

namespace Paced

variable {limit : Nat}

/-- Nothing is decided and the snapshot stays. -/
theorem move (h : Paced limit S r) (hworld : t.session.world = r.session.world)
    (hcommands : t.commands = r.commands)
    (hbooks : BaseStrategy.SameAttempts t.strategy r.strategy) : Paced limit S t := by
  refine ⟨?_, ?_, ?_⟩
  · rw [hworld]
    exact h.seen
  · rw [hworld, hbooks.tick]
    exact h.entered
  · rw [attempts, hcommands, hbooks.tick, hbooks.sentThisTick, hbooks.attempted]
    exact h.kept

/-- What a call of `choose` does to the books. -/
theorem choose (h : Paced limit S r) {env : ChooseEnv} {st : StrategyState}
    {action : Option Decision}
    (hchoose : policy.choose env r.strategy r.session.world = .ok (st, action)) :
    st.tick = r.session.world.tick ∧ Kept limit r.attempts st.tick st.sentThisTick st.attempted := by
  have hbooks := Strategy.choose_attempts hchoose
  rw [hbooks.tick, hbooks.sentThisTick, hbooks.attempted]
  exact StrategyState.kept_enterTick h.kept h.entered

theorem effect {rules : TradingRules} (hsteady : Steady rules S)
    (h : Paced rules.newCommandsPerStationPerTick S r)
    (hseen : ∀ w, e.snapshot? = some w → w ∈ S) (heff : Effect policy e r t) :
    Paced rules.newCommandsPerStationPerTick S t := by
  have hsame : BaseStrategy.SameAttempts r.strategy r.strategy := ⟨rfl, rfl, rfl, rfl, rfl⟩
  cases heff with
  | @session s hworld hsent =>
      rcases hworld with hworld | ⟨hdelivered, hnewer, -⟩
      · exact h.move hworld rfl hsame
      · have hs := hseen s.world hdelivered
        refine ⟨hs, ?_, h.kept⟩
        exact h.entered.trans (Int.ofNat_le.mpr (hsteady.ticks _ h.seen _ hs hnewer))
  | begin hpc hworld hsent => exact h.move hworld rfl hsame
  | sync hpc => exact h.move rfl rfl hsame
  | reconcile hpc hincludes => exact h.move rfl rfl hsame
  | raise error => exact h.move rfl rfl hsame
  | wake hpc hnewer => exact h.move rfl rfl hsame
  | @note w d started c o hpc hid =>
      obtain ⟨htick, hattempted, hcount, -, -⟩ := Strategy.noteOutcome_attempts policy r.strategy w
        d o started
      refine ⟨h.seen, ?_, ?_⟩
      · rw [htick]
        exact h.entered
      · rw [htick, hattempted, hcount]
        simpa [attempts, commands] using h.kept
  | complete elapsed hpc =>
      exact h.move rfl rfl (BaseStrategy.sameAttempts_observeLatency r.strategy elapsed)
  | finish hpc hfinal => exact h.move rfl rfl hsame
  | wait _ hpc hchoose =>
      obtain ⟨htick, hkept⟩ := h.choose hchoose
      refine ⟨h.seen, htick.le, ?_⟩
      simpa [attempts, commands] using hkept
  | @decide reads st d _ hpc hchoose =>
      obtain ⟨htick, hkept⟩ := h.choose hchoose
      have hdecided := Strategy.choose_decided hchoose
      have hroom := hdecided.gate.perTick
      rw [hsteady.rules _ h.seen] at hroom
      have hattempt := hkept.attempt hroom hdecided.fresh
      refine ⟨h.seen, ?_, ?_⟩
      · rw [StrategyState.record_tick]
        exact htick.le
      · rw [StrategyState.record_tick, StrategyState.record_sentThisTick,
          StrategyState.record_attempted]
        rw [htick] at hattempt ⊢
        simpa [attempts, commands] using hattempt

end Paced

/-! ### Backoff -/

/-- `retry_tick` is past every backoff there was, and never past a decision. -/
structure BackedOff (r : Runner) : Prop where
  noted : ∀ w d o, .answered w d o ∈ r.history → o.code = .RATE_LIMITED →
    o.resumeTick w ≤ r.strategy.retryTick
  sending : ∀ w d started c, r.pc = .sending w d started c → r.strategy.retryTick ≤ w.tick
  obeyed : r.history.Pairwise Observation.BacksOff

namespace BackedOff

theorem move (h : BackedOff r) (hhistory : t.history = r.history)
    (hretry : t.strategy.retryTick = r.strategy.retryTick)
    (hpc : ∀ w d started c, t.pc = .sending w d started c →
      ∃ c', r.pc = .sending w d started c') : BackedOff t := by
  refine ⟨?_, ?_, ?_⟩
  · rw [hhistory, hretry]
    exact h.noted
  · intro w d started c hsending
    obtain ⟨c', hbefore⟩ := hpc w d started c hsending
    rw [hretry]
    exact h.sending w d started c' hbefore
  · rw [hhistory]
    exact h.obeyed

/-- A call of `choose` that decides has waited for every backoff. -/
theorem choose (h : BackedOff r) {st : StrategyState} {w : WorldView} {action : Option Decision}
    (hretry : st.retryTick = r.strategy.retryTick)
    (hgate : ∀ d, action = some d → st.retryTick ≤ w.tick) :
    (r.history ++ [Observation.chose st w action]).Pairwise Observation.BacksOff := by
  rw [List.pairwise_append]
  refine ⟨h.obeyed, List.pairwise_singleton _ _, ?_⟩
  intro earlier hearlier later hlater w₁ d₁ o₁ st' w' d' hanswered hlimited hchose
  rw [List.mem_singleton, hchose] at hlater
  cases hlater
  subst hanswered
  have hresume := h.noted w₁ d₁ o₁ hearlier hlimited
  rw [← hretry] at hresume
  exact hresume.trans (hgate d' rfl)

theorem effect (h : BackedOff r) (heff : Effect policy e r t) : BackedOff t := by
  cases heff with
  | session hworld hsent => exact h.move rfl rfl fun _ _ _ c hpc => ⟨c, hpc⟩
  | @begin s w d started c hpc hworld hsent =>
      refine h.move rfl rfl ?_
      intro w' d' started' c' hsending
      cases hsending
      exact ⟨none, hpc⟩
  | sync hpc => exact h.move rfl rfl (by simp [Runner.sync])
  | reconcile hpc hincludes => exact h.move rfl rfl (by simp)
  | raise error => exact h.move rfl rfl (by simp [Runner.raise])
  | wake hpc hnewer => exact h.move rfl rfl (by simp)
  | @note w d started c o hpc hid =>
      have hlast := h.sending w d started (some c) hpc
      obtain ⟨-, -, -, -, hretry⟩ := Strategy.noteOutcome_attempts policy r.strategy w
        d o started
      -- A new backoff ends after the tick of the decision, so after every earlier one.
      have hlater : r.strategy.retryTick ≤
          (policy.noteOutcome r.strategy w d o started).retryTick := by
        rw [hretry]
        split
        · omega
        · exact le_rfl
      refine ⟨?_, by simp, ?_⟩
      · intro w' d' o' hanswered hlimited
        rw [List.mem_append, List.mem_singleton] at hanswered
        rcases hanswered with hanswered | hnew
        · exact (h.noted w' d' o' hanswered hlimited).trans hlater
        · cases hnew
          rw [hretry, if_pos hlimited]
          exact le_rfl
      · rw [List.pairwise_append]
        refine ⟨h.obeyed, List.pairwise_singleton _ _, ?_⟩
        intro earlier _ later hlast w₁ d₁ o₁ st w' d' _ _ hchose
        rw [List.mem_singleton, hchose] at hlast
        cases hlast
  | complete elapsed hpc =>
      exact h.move rfl (BaseStrategy.sameAttempts_observeLatency r.strategy elapsed).retryTick
        (by simp)
  | finish hpc hfinal => exact h.move rfl rfl (by simp)
  | @wait reads st _ hpc hchoose =>
      have hretry : st.retryTick = r.strategy.retryTick := by
        rw [(Strategy.choose_attempts hchoose).retryTick, StrategyState.enterTick_retryTick]
      refine ⟨?_, by simp, h.choose hretry fun d hd => by cases hd⟩
      intro w d o hanswered hlimited
      rw [List.mem_append, List.mem_singleton] at hanswered
      rcases hanswered with hanswered | hnew
      · rw [hretry]
        exact h.noted w d o hanswered hlimited
      · cases hnew
  | @decide reads st d _ hpc hchoose =>
      have hretry : st.retryTick = r.strategy.retryTick := by
        rw [(Strategy.choose_attempts hchoose).retryTick, StrategyState.enterTick_retryTick]
      have hgate := (Strategy.choose_decided hchoose).gate.backoff
      refine ⟨?_, ?_, h.choose hretry fun _ _ => hgate⟩
      · intro w d' o hanswered hlimited
        rw [List.mem_append, List.mem_singleton] at hanswered
        rcases hanswered with hanswered | hnew
        · rw [StrategyState.record_retryTick, hretry]
          exact h.noted w d' o hanswered hlimited
        · cases hnew
      · intro w' d' started' c hsending
        cases hsending
        rw [StrategyState.record_retryTick]
        exact hgate

end BackedOff

/-! ### The runs that messages are for -/

/-- A `sync` follows a command for the same run. -/
structure SyncsFollow (r : Runner) : Prop where
  sending : ∀ w d started c, r.pc = .sending w d started c → (w, d) ∈ r.commands
  reconciling : ∀ o started stage, r.pc = .reconciling o started stage → r.commands ≠ []
  sameRun : ∀ c ∈ r.commands, c.2.message.runId = r.session.world.runId
  syncs : ∀ runId, .sync runId ∈ r.session.sent → ∃ c ∈ r.commands, c.2.message.runId = runId

namespace SyncsFollow

/-- Neither a message nor a decision. -/
theorem move (h : SyncsFollow r) (hrun : t.session.world.runId = r.session.world.runId)
    (hsent : t.session.sent = r.session.sent) (hcommands : t.commands = r.commands)
    (hsending : ∀ w d started c, t.pc = .sending w d started c →
      ∃ c', r.pc = .sending w d started c')
    (hreconciling : ∀ o started stage, t.pc = .reconciling o started stage → r.commands ≠ []) :
    SyncsFollow t := by
  refine ⟨?_, ?_, ?_, ?_⟩
  · intro w d started c hpc
    obtain ⟨c', hbefore⟩ := hsending w d started c hpc
    rw [hcommands]
    exact h.sending w d started c' hbefore
  · rw [hcommands]
    exact hreconciling
  · rw [hcommands, hrun]
    exact h.sameRun
  · rw [hcommands, hsent]
    exact h.syncs

theorem effect (h : SyncsFollow r) (heff : Effect policy e r t) : SyncsFollow t := by
  cases heff with
  | @session s hworld hsent =>
      refine h.move ?_ hsent rfl (fun _ _ _ c hpc => ⟨c, hpc⟩) h.reconciling
      rcases hworld with hworld | ⟨-, -, hrun⟩
      · rw [hworld]
      · exact hrun
  | @begin s w d started c hpc hworld hsent =>
      have hmem := h.sending w d started none hpc
      refine ⟨?_, by simp, ?_, ?_⟩
      · intro w' d' started' c' hsending
        cases hsending
        exact hmem
      · intro c' hc'
        simp only [hworld]
        exact h.sameRun c' hc'
      · intro runId hsync
        rcases hsent with hsent | hsent
        · simp only [hsent] at hsync
          exact h.syncs runId hsync
        · simp only [hsent, List.mem_append, List.mem_singleton] at hsync
          rcases hsync with hsync | hnew
          · exact h.syncs runId hsync
          · exact ⟨(w, d), hmem, by rw [← hnew]; rfl⟩
  | @sync o started hpc =>
      have hsome := h.reconciling o started _ hpc
      refine ⟨by simp [Runner.sync], fun _ _ _ _ => hsome, h.sameRun, ?_⟩
      intro runId hsync
      simp only [Runner.sync, List.mem_append, List.mem_singleton] at hsync
      rcases hsync with hsync | hnew
      · exact h.syncs runId hsync
      · -- Some command has been decided on, and the run has not changed.
        cases hnew
        obtain ⟨c, hc⟩ := List.exists_mem_of_ne_nil r.commands hsome
        exact ⟨c, hc, h.sameRun c hc⟩
  | reconcile hpc hincludes =>
      refine h.move rfl rfl rfl (by simp) ?_
      intro o started stage _
      exact h.reconciling _ _ _ hpc
  | raise error => exact h.move rfl rfl rfl (by simp [Runner.raise]) (by simp [Runner.raise])
  | wake hpc hnewer => exact h.move rfl rfl rfl (by simp) (by simp)
  | @note w d started c o hpc hid =>
      refine h.move rfl rfl (by simp [commands]) (by simp) ?_
      intro _ _ _ _
      exact List.ne_nil_of_mem (h.sending w d started (some c) hpc)
  | complete elapsed hpc => exact h.move rfl rfl rfl (by simp) (by simp)
  | finish hpc hfinal => exact h.move rfl rfl rfl (by simp) (by simp)
  | wait _ hpc hchoose => exact h.move rfl rfl (by simp [commands]) (by simp) (by simp)
  | @decide reads st d _ hpc hchoose =>
      have hcommands : commandsOf (r.history ++ [.chose st r.session.world (some d)]) =
          r.commands ++ [(r.session.world, d)] := commandsOf_decided _ _ _ _
      refine ⟨?_, by simp, ?_, ?_⟩
      · intro w' d' started' c hsending
        cases hsending
        rw [commands, hcommands]
        simp
      · intro c hc
        rw [commands, hcommands, List.mem_append, List.mem_singleton] at hc
        rcases hc with hc | rfl
        · exact h.sameRun c hc
        · exact (Strategy.choose_decided hchoose).runId
      · intro runId hsync
        obtain ⟨c, hc, hrun⟩ := h.syncs runId hsync
        rw [commands, hcommands]
        exact ⟨c, List.mem_append_left _ hc, hrun⟩

end SyncsFollow

theorem run_syncsFollow {w₀ : WorldView} {trace : List RunnerEvent}
    (hrun : Run (Step policy) (start w₀) trace r) : SyncsFollow r := by
  apply run_invariant (owns_start w₀) hrun
  · refine ⟨by simp [start], by simp [start], ?_, ?_⟩
    · intro c hc
      cases hc
    · intro runId hsync
      cases hsync
  · intro e r t _ h heff
    exact h.effect heff

/-! ### The size of the messages -/

/-- Every command was small enough for the snapshot it was decided on. -/
def Fitted (size : ClientMessage → Nat) (r : Runner) : Prop :=
  ∀ c ∈ r.commands, size c.2.message ≤ c.1.rules.maxCommandBytes

theorem Fitted.effect {size : ClientMessage → Nat} (h : Fitted size r)
    (hencoded : ∀ reads, e = .runs reads → reads.env.encodedLength = size)
    (heff : Effect policy e r t) : Fitted size t := by
  cases heff with
  | @decide reads st d he hpc hchoose =>
      intro c hc
      rw [commands, commandsOf_decided, List.mem_append, List.mem_singleton] at hc
      rcases hc with hc | rfl
      · exact h c hc
      · rw [← hencoded reads he]
        exact Strategy.choose_fits hchoose
  | note hpc hid =>
      intro c hc
      exact h c (by simpa [commands] using hc)
  | wait he hpc hchoose =>
      intro c hc
      exact h c (by simpa [commands] using hc)
  | _ => exact h

theorem run_fitted {size : ClientMessage → Nat} {w₀ : WorldView} {trace : List RunnerEvent}
    (hrun : Run (Step policy) (start w₀) trace r)
    (hencoded : ∀ reads, .runs reads ∈ trace → reads.env.encodedLength = size) :
    Fitted size r := by
  apply run_invariant (owns_start w₀) hrun
  · intro c hc
    cases hc
  · rintro e r t he h heff
    exact h.effect (fun reads hreads => hencoded reads (hreads ▸ he)) heff

end Invariants

/-! ### The law -/

/-- The limits of `rules`, on everything the runner decided and sent. A message of the
run is encoded to `size` bytes. -/
structure WithinLimits (size : ClientMessage → Nat) (w₀ : WorldView) (rules : TradingRules)
    (r : Runner) : Prop where
  /-- What went out was decided, in order and once each. -/
  decided : r.sentCommands.Sublist (r.commands.map fun c => c.2.message)
  perTick : ∀ tick, r.commands.countP (fun c => c.1.tick = tick) ≤
    rules.newCommandsPerStationPerTick
  lifetime : r.commands ≠ [] →
    w₀.requestResults.length + r.commands.length ≤ rules.maxRequestRecordsPerStation
  stored : ∀ c ∈ r.commands, c.1.requestResults.length < rules.maxRequestRecordsPerStation
  backoff : r.history.Pairwise Observation.BacksOff
  distinct : r.commands.Pairwise fun c c' => c.1.tick = c'.1.tick → c.2.key ≠ c'.2.key
  fits : ∀ m ∈ r.session.sent, size m ≤ rules.maxCommandBytes

section Law

variable {policy : Strategy} {size : ClientMessage → Nat} {w₀ : WorldView} {rules : TradingRules}
  {S : List WorldView} {trace : List RunnerEvent} {r : Runner}

/-- Every command passed the gate and the filter of `choose`. -/
theorem Recorded.command (h : Recorded policy w₀ S r) {c : WorldView × Decision}
    (hc : c ∈ r.commands) : c.1 ∈ S ∧ ∃ st, policy.Decided st c.1 c.2 := by
  obtain ⟨st, hmem⟩ := mem_commandsOf.mp hc
  obtain ⟨hseen, hdecided⟩ := h.decided st c.1 c.2 hmem
  exact ⟨hseen, st, hdecided⟩

/-- The last decision saw a free record, and `sent_total` counted all before it. -/
theorem Recorded.lifetime (h : Recorded policy w₀ S r) (hrules : ∀ w ∈ S, w.rules = rules)
    (hsome : r.commands ≠ []) :
    w₀.requestResults.length + r.commands.length ≤ rules.maxRequestRecordsPerStation := by
  obtain ⟨pre, st, w, d, post, hsplit, hlength⟩ := exists_last_command hsome
  have hmem : .chose st w (some d) ∈ r.history := by simp [hsplit]
  obtain ⟨hseen, hdecided⟩ := h.decided st w d hmem
  have hfree := hdecided.gate.lifetime
  have hnumber := h.numbered pre st w (some d) post hsplit
  have hused : st.sentTotal ≤ st.usedRecords w := le_max_left _ _
  rw [hrules w hseen] at hfree
  simp only [commands]
  omega

theorem Paced.perTick {limit : Nat} (h : Paced limit S r) (tick : Nat) :
    r.commands.countP (fun c => c.1.tick = tick) ≤ limit := by
  have hlimited := h.kept.limited tick
  rw [attempts, List.countP_map] at hlimited
  simpa [Function.comp_def] using hlimited

theorem Paced.distinct {limit : Nat} (h : Paced limit S r) :
    r.commands.Pairwise fun c c' => c.1.tick = c'.1.tick → c.2.key ≠ c'.2.key := by
  have hdistinct := h.kept.distinct
  rw [attempts, List.pairwise_map] at hdistinct
  refine hdistinct.imp ?_
  intro c c' hkeys htick
  exact hkeys (congrArg Nat.cast htick)

/-- A command was filtered by its size, and a `sync` is no longer than the command that it
follows. -/
theorem fits_of_decided (hrecorded : Recorded policy w₀ S r) (hinOrder : InOrder r)
    (hsyncs : SyncsFollow r) (hfitted : Fitted size r) (hsteady : Steady rules S)
    (hshorter : ∀ m : ClientMessage, size (.sync m.runId) ≤ size m) {m : ClientMessage}
    (hm : m ∈ r.session.sent) : size m ≤ rules.maxCommandBytes := by
  have hcommand : ∀ c ∈ r.commands, size c.2.message ≤ rules.maxCommandBytes := by
    intro c hc
    obtain ⟨hseen, -, -⟩ := hrecorded.command hc
    have hfits := hfitted c hc
    rwa [hsteady.rules c.1 hseen] at hfits
  rcases hkind : m.isCommand with _ | _
  · rcases m with _ | _ | _ | _ | runId
    case sync =>
      obtain ⟨c, hc, hrun⟩ := hsyncs.syncs runId hm
      calc size (.sync runId) = size (.sync c.2.message.runId) := by rw [hrun]
        _ ≤ size c.2.message := hshorter _
        _ ≤ rules.maxCommandBytes := hcommand c hc
    all_goals cases hkind
  · have hsent : m ∈ r.sentCommands := List.mem_filter.mpr ⟨hm, hkind⟩
    obtain ⟨c, hc, rfl⟩ := List.mem_map.mp (hinOrder.sent.subset hsent)
    exact hcommand c hc

/-- **Server limits hold over whole runs**, for each strategy: commands per tick,
stored request records, backoff, keys within a tick, and the size of every message. -/
theorem limits_respected (hrun : Run (Step policy) (start w₀) trace r)
    (hsteady : Steady rules (w₀ :: snapshots trace))
    (hencoded : ∀ reads, .runs reads ∈ trace → reads.env.encodedLength = size)
    (hshorter : ∀ m : ClientMessage, size (.sync m.runId) ≤ size m) :
    WithinLimits size w₀ rules r := by
  have hrecorded := run_recorded hrun
  have hinOrder := run_inOrder hrun
  have hpaced : Paced rules.newCommandsPerStationPerTick (w₀ :: snapshots trace) r := by
    apply run_invariant (owns_start w₀) hrun
    · refine ⟨List.mem_cons_self, ?_, Kept.nil _ _ _⟩
      simp only [start, Session.start]
      omega
    · intro e r t he h heff
      exact h.effect hsteady (fun w hw => List.mem_cons_of_mem w₀ (mem_snapshots he hw)) heff
  have hbacked : BackedOff r := by
    apply run_invariant (owns_start w₀) hrun
    · refine ⟨?_, by simp [start], List.Pairwise.nil⟩
      intro w d o hanswered
      cases hanswered
    · intro e r t _ h heff
      exact h.effect heff
  have hsyncs := run_syncsFollow hrun
  refine ⟨hinOrder.sent, hpaced.perTick, hrecorded.lifetime hsteady.rules, ?_, hbacked.obeyed,
    hpaced.distinct, fun m hm => fits_of_decided hrecorded hinOrder hsyncs
      (run_fitted hrun hencoded) hsteady hshorter hm⟩
  intro c hc
  obtain ⟨hseen, st, hdecided⟩ := hrecorded.command hc
  have hfree := hdecided.gate.lifetime
  rw [hsteady.rules c.1 hseen] at hfree
  exact (le_max_right _ _).trans_lt hfree

theorem limits_respected_sample :
    ∃ r, Run (Step .base) (start .sample) sampleTrace r ∧ r.history.length = 3 ∧
      WithinLimits ChooseEnv.sample.encodedLength .sample {} r := by
  obtain ⟨r, hrun, hlength⟩ := run_sampleTrace
  have hsteady : Steady {} (.sample :: snapshots sampleTrace) := ⟨by decide, by decide⟩
  have hencoded : ∀ reads, .runs reads ∈ sampleTrace →
      reads.env.encodedLength = ChooseEnv.sample.encodedLength := by
    intro reads hreads
    have heq : reads = sampleReads := by simpa [sampleTrace] using hreads
    rw [heq, sampleReads]
  exact ⟨r, hrun, hlength, limits_respected hrun hsteady hencoded Codec.length_sync_le⟩

/-- A snapshot that stores more results than the rules allow. -/
def crowded : WorldView :=
  { WorldView.sample with
    rules := { maxRequestRecordsPerStation := 1 }
    requestResults :=
      [{ requestId := "request-1", ok := true, code := .OK, objectId := none,
         transactionId := none, retryAfterTick := none },
       { requestId := "request-2", ok := true, code := .OK, objectId := none,
         transactionId := none, retryAfterTick := none }] }

/-- Only a run that sends something stays within the stored records: what the first
snapshot stores is out of the client's hands. -/
theorem crowded_start_exceeds_records :
    ∃ r, Run (Step .base) (start crowded) [.runs sampleReads] r ∧
      Steady crowded.rules (crowded :: snapshots [.runs sampleReads]) ∧
      ¬ crowded.requestResults.length + r.commands.length ≤
        crowded.rules.maxRequestRecordsPerStation := by
  obtain ⟨r, hreplay⟩ : ∃ r, replay (step .base) (start crowded) [.runs sampleReads] = some r :=
    Option.isSome_iff_exists.mp rfl
  refine ⟨r, run_of_replay (fun _ _ _ h => h) hreplay, ⟨by decide, by decide⟩, ?_⟩
  have hstored : crowded.requestResults.length = 2 := rfl
  have hmost : crowded.rules.maxRequestRecordsPerStation = 1 := rfl
  omega

end Law

end Runner

end PlanetCharlu
