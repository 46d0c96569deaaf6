import PlanetCharlu.DecisionLog
import PlanetCharlu.EndOfRun
import PlanetCharlu.SettledTrades
import PlanetCharlu.Commands

/-!
# The log tells what the loop did

The run log has a snapshot for every tick the loop has entered, and a record for every
command it has decided on and for every outcome it has got, in the order in which these
came. So what the page makes of these records can be said of the run itself.
-/

namespace PlanetCharlu

open Runs

/-! ### What a record has to say -/

/-- A command is decided, or its outcome is there. -/
inductive CommandRecord where
  | asked (d : DecisionRecord)
  | answered (a : ResultRecord)
deriving DecidableEq

def LogRecord.exchange? (x : LogRecord) : Option CommandRecord :=
  match x.decisionRecord? with
  | some d => some (.asked d)
  | none => x.resultRecord?.map .answered

def exchanges (records : List LogRecord) : List CommandRecord :=
  records.filterMap LogRecord.exchange?

def WorldView.decisionRecord (world : WorldView) (action : Decision) : DecisionRecord :=
  ⟨world.tick, RunLog.kindOf action.key action.reason, action.reason, action.requestId,
    action.message.fields⟩

def CommandOutcome.resultRecord (o : CommandOutcome) : ResultRecord :=
  ⟨o.requestId, o.ok, o.code, o.objectId, o.transactionId, o.retryAfterTick⟩

/-- What the log has of an observation. -/
def Observation.exchange? : Observation → Option CommandRecord
  | .chose _ world (some action) => some (.asked (world.decisionRecord action))
  | .chose _ _ none => none
  | .answered _ _ outcome => some (.answered outcome.resultRecord)

/-- What the log has of the snapshot with which a tick was entered. -/
def WorldView.shortagePoint (w : WorldView) : Int × Option ShortTick :=
  (w.tick, shortageOf w.self.lastUnmetUpkeep w.self.currentShortageStreak)

namespace RunLog

/-! ### What the methods add -/

/-- Records of one event are added. -/
def Adds (name : String) (log later : RunLog) : Prop :=
  ∃ more, later.records = log.records ++ more ∧ ∀ x ∈ more, x.event.name = name

section Adds

variable {name : String} {log later last : RunLog} (world : WorldView)

theorem Adds.refl (name : String) (log : RunLog) : Adds name log log := ⟨[], by simp, by simp⟩

theorem Adds.trans (h : Adds name log later) (h' : Adds name later last) : Adds name log last := by
  obtain ⟨more, hmore, hname⟩ := h
  obtain ⟨more', hmore', hname'⟩ := h'
  refine ⟨more ++ more', by rw [hmore', hmore, List.append_assoc], ?_⟩
  intro x hx
  rcases List.mem_append.mp hx with hx | hx
  · exact hname x hx
  · exact hname' x hx

theorem adds_write (log : RunLog) (tick : Nat) (event : LogEvent) :
    Adds event.name log (log.write tick event) := by
  refine ⟨[⟨tick, event⟩], rfl, ?_⟩
  intro x hx
  rw [List.mem_singleton.mp hx]

theorem adds_offersSnapshot (log : RunLog) :
    Adds "offers_open" log (log.offersSnapshot world) := by
  unfold offersSnapshot
  dsimp only
  split
  · exact .refl _ log
  · exact adds_write log _ _

theorem adds_offersPassed (log : RunLog) (review : List (Offer × String)) :
    Adds "offer_passed" log (log.offersPassed world review) := by
  induction review generalizing log with
  | nil => exact .refl _ log
  | cons entry rest ih =>
      refine Adds.trans ?_ (ih _)
      dsimp only
      split
      · exact adds_write log _ _
      · exact .refl _ log

theorem adds_transactionsSettled (log : RunLog) :
    Adds "transaction_settled" log (log.transactionsSettled world) := by
  unfold transactionsSettled
  generalize world.transactions = transactions
  induction transactions generalizing log with
  | nil => exact .refl _ log
  | cons tx rest ih =>
      refine Adds.trans ?_ (ih _)
      unfold settleTransaction
      split
      · exact .refl _ log
      · refine ⟨[settledRecord world.selfStationId tx], rfl, ?_⟩
        intro x hx
        rw [List.mem_singleton.mp hx]
        rfl

theorem adds_tradeTiming (log : RunLog) (requestId : String) (elapsed : ℚ)
    (reserveTicks targetTicks : Nat) :
    Adds "trade_timing" log (log.tradeTiming world requestId elapsed reserveTicks targetTicks) :=
  adds_write log _ _

/-- A projection that does not see the event does not see the records. -/
theorem Adds.filterMap {β : Type} {f : LogRecord → Option β} (h : Adds name log later)
    (hf : ∀ x : LogRecord, x.event.name = name → f x = none) :
    later.records.filterMap f = log.records.filterMap f := by
  obtain ⟨more, hmore, hname⟩ := h
  have hnone : more.filterMap f = [] :=
    List.filterMap_eq_nil_iff.mpr fun x hx => hf x (hname x hx)
  rw [hmore, List.filterMap_append, hnone, List.append_nil]

theorem Adds.points (h : Adds name log later) (hname : name ≠ "tick_snapshot") :
    shortagePoints later.records = shortagePoints log.records :=
  h.filterMap fun _ hx => shortagePoint?_of_ne (hx ▸ hname)

theorem exchange?_of_ne {x : LogRecord} (hdecision : x.event.name ≠ "decision")
    (hresult : x.event.name ≠ "command_result") : x.exchange? = none := by
  rw [LogRecord.exchange?, decisionRecord?_of_ne hdecision, resultRecord?_of_ne hresult]
  rfl

theorem Adds.exchanges (h : Adds name log later) (hdecision : name ≠ "decision")
    (hresult : name ≠ "command_result") :
    PlanetCharlu.exchanges later.records = PlanetCharlu.exchanges log.records :=
  h.filterMap fun _ hx => exchange?_of_ne (hx ▸ hdecision) (hx ▸ hresult)

end Adds

theorem points_tickSnapshot (log : RunLog) (world : WorldView) (sentTotal : Nat) :
    shortagePoints (log.tickSnapshot world sentTotal).records =
      shortagePoints log.records ++ [world.shortagePoint] := by
  rw [tickSnapshot, write, shortagePoints, List.filterMap_append]
  rfl

theorem exchanges_decision (log : RunLog) (world : WorldView) (action : Decision) :
    exchanges (log.decision world action).records =
      exchanges log.records ++ [.asked (world.decisionRecord action)] := by
  rw [decision, write, exchanges, List.filterMap_append]
  rfl

theorem exchanges_commandResult (log : RunLog) (world : WorldView) (key : Key)
    (outcome : CommandOutcome) :
    exchanges (log.commandResult world key outcome).records =
      exchanges log.records ++ [.answered outcome.resultRecord] := by
  rw [commandResult, write, exchanges, List.filterMap_append]
  rfl

end RunLog

namespace LoggedRunner

/-! ### The log and the history -/

/-- The log has the ticks that were entered and what the history says of commands. -/
structure Mirrors (l : LoggedRunner) : Prop where
  tick : l.loggedTick = (tickHeads l.heads).getLast?.map WorldView.tick
  points : shortagePoints l.log.records = (tickHeads l.heads).map WorldView.shortagePoint
  exchanges : exchanges l.log.records = l.runner.history.filterMap Observation.exchange?

namespace Mirrors

variable {policy : Strategy} {l t : LoggedRunner}

/-- Records of other events change nothing. -/
theorem adds (h : l.Mirrors) {log : RunLog} {name : String} (hadds : l.log.Adds name log)
    (hsnapshot : name ≠ "tick_snapshot") (hdecision : name ≠ "decision")
    (hresult : name ≠ "command_result") : { l with log }.Mirrors := by
  refine ⟨h.tick, ?_, ?_⟩
  · rw [hadds.points hsnapshot]
    exact h.points
  · rw [hadds.exchanges hdecision hresult]
    exact h.exchanges

/-- The runner moves on without an observation. -/
theorem runner (h : l.Mirrors) {r : Runner} (hhistory : r.history = l.runner.history) :
    { l with runner := r }.Mirrors := by
  refine ⟨h.tick, h.points, ?_⟩
  dsimp only
  rw [hhistory]
  exact h.exchanges

theorem look (h : l.Mirrors) : l.look.Mirrors := by
  unfold LoggedRunner.look
  dsimp only
  by_cases htick : some l.runner.session.world.tick = l.loggedTick
  · have hheads : tickHeads (l.heads ++ [l.runner.session.world]) = tickHeads l.heads := by
      rw [tickHeads_snoc, enterTick, ← h.tick, if_pos htick]
    rw [if_neg (not_not.mpr htick)]
    refine ⟨?_, ?_, h.exchanges⟩
    · rw [hheads]
      exact h.tick
    · rw [hheads]
      exact h.points
  · have hheads : tickHeads (l.heads ++ [l.runner.session.world]) =
        tickHeads l.heads ++ [l.runner.session.world] := by
      rw [tickHeads_snoc, enterTick, ← h.tick, if_neg htick]
    have hsettled := RunLog.adds_transactionsSettled l.runner.session.world
      (l.log.tickSnapshot l.runner.session.world l.runner.strategy.sentTotal)
    have hoffers := RunLog.adds_offersSnapshot l.runner.session.world
      ((l.log.tickSnapshot l.runner.session.world l.runner.strategy.sentTotal).transactionsSettled
        l.runner.session.world)
    have hsnapshot : l.log.Adds "tick_snapshot"
        (l.log.tickSnapshot l.runner.session.world l.runner.strategy.sentTotal) :=
      RunLog.adds_write _ _ _
    rw [if_pos htick]
    refine ⟨?_, ?_, ?_⟩
    · rw [hheads, List.getLast?_concat]
      rfl
    · rw [hoffers.points (by decide), hsettled.points (by decide), RunLog.points_tickSnapshot,
        h.points, hheads, List.map_append]
      rfl
    · rw [hoffers.exchanges (by decide) (by decide), hsettled.exchanges (by decide) (by decide),
        hsnapshot.exchanges (by decide) (by decide)]
      exact h.exchanges

/-- An iteration that decides something, or nothing. -/
theorem observes (h : l.Mirrors) {r : Runner} {st : StrategyState} {action : Option Decision}
    (hhistory : r.history = l.runner.history ++ [.chose st l.runner.session.world action])
    (review : List (Offer × String)) :
    (match action with
      | none => { l with
          runner := r, log := l.log.offersPassed l.runner.session.world review }
      | some action => { l with
          runner := r
          log := (l.log.offersPassed l.runner.session.world review).decision
            l.runner.session.world action
          action := some action }).Mirrors := by
  have hpassed := RunLog.adds_offersPassed l.runner.session.world l.log review
  cases action with
  | none =>
      have hrunner := (h.adds hpassed (by decide) (by decide) (by decide))
      refine ⟨h.tick, hrunner.points, ?_⟩
      dsimp only
      rw [hpassed.exchanges (by decide) (by decide), h.exchanges, hhistory, List.filterMap_append]
      exact (List.append_nil _).symm
  | some action =>
      have hdecided : (l.log.offersPassed l.runner.session.world review).Adds "decision"
          ((l.log.offersPassed l.runner.session.world review).decision
            l.runner.session.world action) := RunLog.adds_write _ _ _
      refine ⟨h.tick, ?_, ?_⟩
      · dsimp only
        rw [hdecided.points (by decide), hpassed.points (by decide)]
        exact h.points
      · dsimp only
        rw [RunLog.exchanges_decision, hpassed.exchanges (by decide) (by decide), h.exchanges,
          hhistory, List.filterMap_append]
        rfl

theorem iterate (h : l.Mirrors) (policy : Strategy) (reads : Reads) :
    (l.iterate policy reads).Mirrors := by
  have hlook := h.look
  unfold LoggedRunner.iterate
  generalize l.look = l at hlook ⊢
  dsimp only
  obtain ⟨⟨st, action⟩, hchoose⟩ :=
    policy.choose_isOk reads.env l.runner.strategy l.runner.session.world
  by_cases hfinal : l.runner.session.world.isFinal = true
  · have hreturns : l.runner.iterate policy reads =
        { l.runner with pc := .returned l.runner.session.world } := if_pos hfinal
    have hended : l.log.Adds "run_ended" (l.log.runEnded l.runner.session.world
        "phase finished or station failed") := RunLog.adds_write _ _ _
    rw [if_pos hfinal, hreturns]
    exact (hlook.adds hended (by decide) (by decide) (by decide)).runner rfl
  · rw [if_neg hfinal, hchoose]
    have hhistory : (l.runner.iterate policy reads).history =
        l.runner.history ++ [.chose st l.runner.session.world action] := by
      unfold Runner.iterate
      dsimp only
      rw [if_neg hfinal, hchoose]
      cases action with
      | none =>
          cases l.runner.session.pumpError with
          | none => rfl
          | some error => rfl
      | some action => rfl
    exact hlook.observes hhistory st.lastOfferReview

theorem complete (h : l.Mirrors) (policy : Strategy) (reads : Reads) (started : ℚ) :
    (l.complete policy reads started).Mirrors := by
  unfold LoggedRunner.complete
  dsimp only
  cases l.action with
  | none =>
      refine Mirrors.iterate ?_ policy reads
      exact ⟨h.tick, h.points, h.exchanges⟩
  | some action =>
      refine Mirrors.iterate ?_ policy reads
      have htiming := RunLog.adds_tradeTiming l.runner.session.world l.log action.requestId
      refine ⟨h.tick, ?_, ?_⟩
      · dsimp only
        rw [(htiming _ _ _).points (by decide)]
        exact h.points
      · dsimp only
        rw [(htiming _ _ _).exchanges (by decide) (by decide)]
        exact h.exchanges

theorem answer (h : l.Mirrors) (policy : Strategy) (reads : Reads) (world : WorldView)
    (action : Decision) (started : ℚ) (outcome : CommandOutcome) :
    (l.answer policy reads world action started outcome).Mirrors := by
  have hresult : l.log.Adds "command_result" (l.log.commandResult world action.key outcome) :=
    RunLog.adds_write _ _ _
  have hanswered : { l with
      runner := { l.runner with
        strategy := policy.noteOutcome l.runner.strategy world action outcome started
        history := l.runner.history ++ [Observation.answered world action outcome]
        pc := .reconciling outcome started .created }
      log := l.log.commandResult world action.key outcome }.Mirrors := by
    refine ⟨h.tick, ?_, ?_⟩
    · dsimp only
      rw [hresult.points (by decide)]
      exact h.points
    · dsimp only
      rw [RunLog.exchanges_commandResult, h.exchanges, List.filterMap_append]
      rfl
  unfold LoggedRunner.answer
  dsimp only
  split
  · exact hanswered.complete policy reads started
  · exact hanswered

theorem timeout (h : l.Mirrors) : l.timeout.Mirrors := by
  have hended : l.log.Adds "run_ended" (l.log.runEnded l.runner.session.world
      "command or sync timeout") := RunLog.adds_write _ _ _
  exact (h.adds hended (by decide) (by decide) (by decide)).runner rfl

theorem resume (h : l.Mirrors) {reads : Reads} {world : WorldView} {action : Decision}
    {started : ℚ} {call : Call} (hstep : l.resume policy reads world action started call = some t) :
    t.Mirrors := by
  unfold LoggedRunner.resume at hstep
  split at hstep
  · cases hstep
    exact h.answer policy reads world action started _
  · cases hstep
    exact h.timeout
  · cases hstep
    exact h.runner rfl
  · cases hstep
    exact h.runner rfl
  · cases hstep

theorem step (h : l.Mirrors) {e : RunnerEvent} (hstep : Step policy l e t) : t.Mirrors := by
  have hpump : l.runner.session.pumpError.map l.raise = some t → t.Mirrors := by
    intro hraise
    obtain ⟨error, -, rfl⟩ := Option.map_eq_some_iff.mp hraise
    exact h.runner rfl
  -- the tasks of a command leave the history to the loop
  have htask : ∀ {r : Runner}, Runner.Step policy l.runner e r →
      (∀ reads, e ≠ .runs reads) → { l with runner := r }.Mirrors := by
    intro r hr hruns
    apply h.runner
    cases Runner.step_cases hr with
    | iterate _ reads => exact absurd rfl (hruns reads)
    | wake _ _ reads => exact absurd rfl (hruns reads)
    | answered _ _ _ reads => exact absurd rfl (hruns reads)
    | complete _ reads => exact absurd rfl (hruns reads)
    | _ => rfl
  cases e with
  | runs reads =>
      simp only [Step, LoggedRunner.step] at hstep
      split at hstep
      · cases hstep
        exact h.iterate policy reads
      · split at hstep
        · cases hstep
          refine Mirrors.iterate ?_ policy reads
          exact ⟨h.tick, h.points, h.exchanges⟩
        · exact hpump hstep
      · obtain ⟨call, -, hresume⟩ := Option.bind_eq_some_iff.mp hstep
        exact h.resume hresume
      · cases hstep
        exact h.complete policy reads _
      · cases hstep
  | expires =>
      simp only [Step, LoggedRunner.step] at hstep
      split at hstep
      · cases hstep
        exact h.timeout
      · obtain ⟨s, -, rfl⟩ := Option.map_eq_some_iff.mp hstep
        exact h.runner rfl
      · cases hstep
        exact h.runner rfl
      · cases hstep
      · cases hstep
      · cases hstep
      · cases hstep
        exact h.timeout
      · cases hstep
  | _ =>
      obtain ⟨r, hr, rfl⟩ := Option.map_eq_some_iff.mp hstep
      exact htask hr (by simp)

end Mirrors

/-- **The log mirrors the run.** -/
theorem run_mirrors {policy : Strategy} {w₀ : WorldView} {trace : List RunnerEvent}
    {l : LoggedRunner} (hrun : Run (Step policy) (start w₀) trace l) : l.Mirrors := by
  refine hrun.invariant (A := fun _ => True) (fun _ _ => trivial) ⟨rfl, rfl, rfl⟩ ?_
  intro l e t h _ hstep
  exact h.step hstep

end LoggedRunner

end PlanetCharlu
