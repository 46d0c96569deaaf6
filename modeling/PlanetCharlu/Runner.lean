import PlanetCharlu.Snapshots
import PlanetCharlu.Strategies

/-!
# The trading loop (`_run_trading`, `ClientSession.sync`, `wait_for`, `reconcile`)

The runner's task, the task that `asyncio.wait_for` makes of a send or of a
reconciliation, and the session, as one system. A step is the code of one task from
one await to the next, so the pump can act between a decision and the first
statement of `send`, and between the end of a reconciliation and the next decision.

A deadline cancels the task it guards. The `wait_for` of Python 3.11 that is cancelled
while its own task has ended returns what that task returned, and the cancellation is
gone: the guarded task goes on, and `wait_for` outside waits for it without a limit.

The runner alone uses the session, and its own task is not cancelled. The messages
to the logger, the run log and the renderer are left out; `history` keeps what the
runner did: the calls of `choose` and the outcomes of commands.
-/

namespace PlanetCharlu

/-- What the runner can raise. -/
inductive RunnerError where
  | strategy (e : PyError)
  | session (e : SessionError)
  | runtimeError (text : String)
deriving DecidableEq, Repr

def RunnerError.timeout : RunnerError :=
  .runtimeError "server did not acknowledge a command or synchronize within 15 seconds; stopped to avoid trading on stale inventory"

/-- Where the task of `reconcile_after_sync` is: not begun, in `connection.send`, in the
`wait_for` of `sync`, whose own task waits for a newer snapshot or has found one,
waiting for a snapshot that includes the result, done. `expired` says that the deadline
has passed and the task goes on without one. -/
inductive Reconciling where
  | created
  | syncing (previousSequence : Nat)
  | waiting (previousSequence : Nat)
  | arrived (expired : Bool)
  | confirming (expired : Bool)
  | confirmed
deriving DecidableEq, Repr

/-- Where the runner is. A command's task has no call before it runs first. -/
inductive RunnerPc where
  | ready
  | idle (sequence : Nat)
  | sending (world : WorldView) (action : Decision) (started : ℚ) (call : Option CallId)
  | reconciling (outcome : CommandOutcome) (started : ℚ) (stage : Reconciling)
  | returned (world : WorldView)
  | raised (e : RunnerError)
deriving DecidableEq

/-- What the runner did: `choose` was called and left the strategy in this state, or
the command decided on a snapshot got its outcome. -/
inductive Observation where
  | chose (strategy : StrategyState) (world : WorldView) (action : Option Decision)
  | answered (world : WorldView) (action : Decision) (outcome : CommandOutcome)

structure Runner where
  session : Session
  strategy : StrategyState
  pc : RunnerPc := .ready
  history : List Observation := []

/-- What a part of the runner reads off its surroundings: what `choose` needs, and
the clock when the last command was reconciled and when the next one is sent. -/
structure Reads where
  env : ChooseEnv
  finished : ℚ
  started : ℚ

inductive RunnerEvent where
  /-- The pump, the connection, or the task of a call that has begun. -/
  | session (e : SessionEvent)
  /-- The runner's own task runs to its next await. -/
  | runs (reads : Reads)
  /-- The task of `session.send` runs first, as call `c`. -/
  | begins (c : CallId)
  /-- The task of `reconcile_after_sync` runs first; its `connection.send` returns, or
  raises; and it, or the task of the `wait_for` in `sync`, looks at the snapshot. -/
  | syncs
  | synced
  | syncFails (e : SessionError)
  | checks
  /-- The deadline of the task passes. -/
  | expires

/-- The readable snapshot that an event delivers. -/
def RunnerEvent.snapshot? : RunnerEvent → Option WorldView
  | .session (.arrives m) => (Delivery.message m).snapshot?
  | _ => none

/-- The session events that are not the runner's own doing. -/
def SessionEvent.isForeign : SessionEvent → Bool
  | .begins _ _ _ => false
  | .cancels _ => false
  | _ => true

/-- The inner function `includes_result` of `reconcile`. -/
def CommandOutcome.includesResult (outcome : CommandOutcome) (world : WorldView) : Bool :=
  (decide (outcome.processedVersion > 0) && decide (world.worldVersion ≥ outcome.processedVersion)) ||
    world.requestResults.any fun r => r.requestId == outcome.requestId

/-- The runner stops at the end of the run and when our station has failed. -/
def WorldView.isFinal (w : WorldView) : Bool :=
  w.phase == .FINISHED || w.phase == .ABORTED || w.self.health == 0 || w.self.failedOnce

/-- What the runner notes on its strategy about an outcome. -/
def Strategy.noteOutcome (policy : Strategy) (st : StrategyState) (world : WorldView)
    (action : Decision) (outcome : CommandOutcome) (started : ℚ) : StrategyState :=
  let st :=
    if outcome.code = .RATE_LIMITED then
      { st with retryTick := max (world.tick + 1) (outcome.retryAfterTick.getD 0) }
    else st
  if policy ≠ .simplified ∧ outcome.ok = true then
    match outcome.objectId, action.message with
    | some objectId, .offer _ _ body =>
        if objectId ≠ "" ∧ body.receive.isZero = false then
          { st with
            pendingTradeTimes := Function.update st.pendingTradeTimes objectId (some started) }
        else st
    | _, _ => st
  else st

namespace Runner

/-- `strategy.sent_total = len(session.world.request_results)`. -/
def start (world : WorldView) : Runner where
  session := .start world
  strategy := { sentTotal := world.requestResults.length }

def raise (r : Runner) (e : RunnerError) : Runner := { r with pc := .raised e }

/-- One iteration, from the head of the loop to the next await. -/
def iterate (policy : Strategy) (reads : Reads) (r : Runner) : Runner :=
  let world := r.session.world
  if world.isFinal then { r with pc := .returned world }
  else
    match policy.choose reads.env r.strategy world with
    | .error e => r.raise (.strategy e)
    | .ok (strategy, action) =>
        let r := { r with strategy, history := r.history ++ [Observation.chose strategy world action] }
        match action with
        | none =>
            -- The predicate of `wait_for` is false here, and it looks for an error next.
            match r.session.pumpError with
            | some e => r.raise (.session e)
            | none => { r with pc := .idle world.snapshotSequence }
        | some action =>
            { r with
              strategy := strategy.record action
              pc := .sending world action reads.started none }

/-- A command is reconciled: back to the head of the loop. -/
def complete (policy : Strategy) (reads : Reads) (started : ℚ) (r : Runner) : Runner :=
  { r with
    strategy := r.strategy.observeLatency (reads.finished - started)
    pc := .ready }.iterate policy reads

/-- The outcome of a command: note it, and go on at once if the snapshot includes it. -/
def answer (policy : Strategy) (reads : Reads) (world : WorldView) (action : Decision)
    (started : ℚ) (outcome : CommandOutcome) (r : Runner) : Runner :=
  let r := { r with
    strategy := policy.noteOutcome r.strategy world action outcome started
    history := r.history ++ [.answered world action outcome]
    pc := .reconciling outcome started .created }
  if outcome.includesResult r.session.world then r.complete policy reads started else r

/-- How `asyncio.wait_for(session.send(…))` ends, once the call has. -/
def resume (policy : Strategy) (reads : Reads) (world : WorldView) (action : Decision)
    (started : ℚ) (call : Call) (r : Runner) : Option Runner :=
  match call.stage with
  | .returned outcome => some (r.answer policy reads world action started outcome)
  | .raised .cancelled => some (r.raise .timeout)
  | .raised e => some (r.raise (.session e))
  | .refused e => some (r.raise (.session e))
  | _ => none

/-- `sync` reads the sequence number and hands its message to the connection. -/
def sync (outcome : CommandOutcome) (started : ℚ) (r : Runner) : Runner :=
  let world := r.session.world
  { r with
    session := { r.session with sent := r.session.sent ++ [Codec.buildSync world.runId] }
    pc := .reconciling outcome started (.syncing world.snapshotSequence) }

def step (policy : Strategy) (r : Runner) (event : RunnerEvent) : Option Runner :=
  match event with
  | .session e =>
      if e.isForeign then (r.session.step e).map fun session => { r with session } else none
  | .runs reads =>
      match r.pc with
      | .ready => some (r.iterate policy reads)
      | .idle sequence =>
          if sequence < r.session.world.snapshotSequence then
            some ({ r with pc := .ready }.iterate policy reads)
          else r.session.pumpError.map fun e => r.raise (.session e)
      | .sending world action started (some c) =>
          (r.session.calls c).bind fun call => r.resume policy reads world action started call
      | .reconciling _ started .confirmed => some (r.complete policy reads started)
      | _ => none
  | .begins c =>
      match r.pc with
      | .sending world action started none =>
          (r.session.step (.begins c action.requestId action.message)).map fun session =>
            { r with session, pc := .sending world action started (some c) }
      | _ => none
  | .syncs =>
      match r.pc with
      | .reconciling outcome started .created => some (r.sync outcome started)
      | _ => none
  | .synced =>
      match r.pc with
      | .reconciling outcome started (.syncing previous) =>
          some { r with pc := .reconciling outcome started (.waiting previous) }
      | _ => none
  | .syncFails e =>
      match r.pc with
      | .reconciling _ _ (.syncing _) => some (r.raise (.session e))
      | _ => none
  | .checks =>
      match r.pc with
      | .reconciling outcome started (.waiting previous) =>
          if previous < r.session.world.snapshotSequence then
            some { r with pc := .reconciling outcome started (.arrived false) }
          else r.session.pumpError.map fun e => r.raise (.session e)
      | .reconciling outcome started (.arrived expired) =>
          if outcome.includesResult r.session.world then
            some { r with pc := .reconciling outcome started .confirmed }
          else
            match r.session.pumpError with
            | some e => some (r.raise (.session e))
            | none => some { r with pc := .reconciling outcome started (.confirming expired) }
      | .reconciling outcome started (.confirming _) =>
          if outcome.includesResult r.session.world then
            some { r with pc := .reconciling outcome started .confirmed }
          else r.session.pumpError.map fun e => r.raise (.session e)
      | _ => none
  | .expires =>
      match r.pc with
      | .sending _ _ _ none => some (r.raise .timeout)
      | .sending _ _ _ (some c) =>
          (r.session.step (.cancels c)).map fun session => { r with session }
      -- The `wait_for` of `sync` has its result, and swallows the cancellation.
      | .reconciling outcome started (.arrived false) =>
          some { r with pc := .reconciling outcome started (.arrived true) }
      | .reconciling _ _ (.arrived true) => none
      | .reconciling _ _ (.confirming true) => none
      | .reconciling _ _ .confirmed => none
      | .reconciling _ _ _ => some (r.raise .timeout)
      | _ => none

def Step (policy : Strategy) (r : Runner) (event : RunnerEvent) (t : Runner) : Prop :=
  r.step policy event = some t

/-! ### A run of the default policy -/

def sampleReads : Reads where
  env := .sample
  finished := 1
  started := 0

/-- The runner sends the sample purchase, gets its result before a snapshot that shows
it, synchronizes, and decides again one tick later. -/
def sampleTrace : List RunnerEvent :=
  [.runs sampleReads, .begins 0, .session (.sends 0),
    .session (.arrives (.result
      { requestId := "request-1", ok := true, code := .OK, processedTick := 0,
        processedVersion := 2, objectId := ⟨false, "offer-1"⟩, transactionId := ⟨true, ""⟩,
        retryAfterTick := ⟨true, 0⟩ })),
    .session (.resumes 0), .runs sampleReads, .syncs, .synced,
    .session (.arrives (.state { Wire.State.sample 2 with worldVersion := 2, tick := 1 })),
    .checks, .checks, .runs sampleReads]

theorem run_sampleTrace :
    ∃ r, Runs.Run (Step .base) (start .sample) sampleTrace r ∧ r.history.length = 3 := by
  have hreplay : (Runs.replay (step .base) (start .sample) sampleTrace).map
      (fun r => r.history.length) = some 3 := by decide +kernel
  obtain ⟨r, hr, hlength⟩ := Option.map_eq_some_iff.mp hreplay
  exact ⟨r, Runs.run_of_replay (fun _ _ _ h => h) hr, hlength⟩

end Runner

end PlanetCharlu
