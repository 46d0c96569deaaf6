import PlanetCharlu.RunnerEffects
import PlanetCharlu.RunLog
import PlanetCharlu.Bazaar

/-!
# The guided exercise (`scenario.py`)

`run_sample_scenario` as one task over the session: six commands, the waits between them,
a `sync`, and what goes to the run log. A step is the code from one await to the next.
`send` is awaited in the task itself, so its end and what follows are one step;
`wait_for` has a deadline and runs its loop as a task of its own, and the pump may act
between the end of that loop and the next line of the scenario.

The messages to the logger and the rendered page are left out. `asked` and `results` keep
the steps decided and the outcomes logged, for the statements.
-/

namespace PlanetCharlu

/-- `bazaar_pb2.ControlCode.Name`. -/
def ControlCode.name : ControlCode → String
  | .BAD_MESSAGE => "CONTROL_CODE_BAD_MESSAGE"
  | .REQUEST_CAPACITY_EXCEEDED => "CONTROL_CODE_REQUEST_CAPACITY_EXCEEDED"
  | .UNSUPPORTED_VERSION => "CONTROL_CODE_UNSUPPORTED_VERSION"
  | .RUN_MISMATCH => "CONTROL_CODE_RUN_MISMATCH"
  | .INVALID_AUTHENTICATION => "CONTROL_CODE_INVALID_AUTHENTICATION"
  | .SESSION_FENCED => "CONTROL_CODE_SESSION_FENCED"

/-- `str(exc)`. A phase is shown as its number. -/
def SessionError.text : SessionError → String
  | .connectionError text => text
  | .protocolErrorReceived code closeSession =>
      "protocol_error code=" ++ code.name ++ " close_session=" ++
        (if closeSession then "True" else "False")
  | .conversion (.valueError text) => text
  | .conversion (.keyError key) => toString key
  | .transport text => text
  | .notRunning phase => "cannot send while phase=" ++ toString phase.number
  | .duplicateRequestId requestId => requestId
  | .cancelled => ""

/-- What `run_sample_scenario` can raise. -/
inductive ScenarioError where
  | scenario (text : String)
  | session (e : SessionError)
  | timeout
deriving DecidableEq, Repr

namespace ScenarioError

def text : ScenarioError → String
  | .scenario text => text
  | .session e => e.text
  | .timeout => ""

/-- `CancelledError` is not an `Exception`. -/
def isException : ScenarioError → Bool
  | .session .cancelled => false
  | _ => true

end ScenarioError

/-! ### The commands -/

/-- The commands of the exercise, with the ids that the script has learned by then. -/
inductive ScenarioStep where
  | step2
  | step3
  | step4 (advertisementId : String)
  | step7 (advertisementId giftId : String)
  | step8 (advertisementId : String)
  | step9
deriving DecidableEq, Repr

namespace ScenarioStep

def requestId : ScenarioStep → String
  | .step2 => "student-advertise-1"
  | .step3 => "student-advertise-seeking-1"
  | .step4 _ => "student-offer-1"
  | .step7 _ _ => "student-accept-1"
  | .step8 _ => "student-withdraw-1"
  | .step9 => "student-advertise-2"

def message (runId : String) (x : ScenarioStep) : ClientMessage :=
  match x with
  | .step2 => Codec.buildAdvertise runId x.requestId [.water] [.food] 6
  | .step3 => Codec.buildAdvertise runId x.requestId [] [.components] 6
  | .step4 _ => Codec.buildOffer runId x.requestId "P02" ⟨2, 0, 0⟩ ⟨0, 1, 0⟩ 6
  | .step7 _ giftId => Codec.buildAccept runId x.requestId giftId
  | .step8 advertisementId => Codec.buildWithdraw runId x.requestId advertisementId
  | .step9 => Codec.buildAdvertise runId x.requestId [.water] [.food] 6

def key : ScenarioStep → String
  | .step2 => "step2"
  | .step3 => "step3"
  | .step4 _ => "step4"
  | .step7 _ _ => "step7"
  | .step8 _ => "step8"
  | .step9 => "step9"

def reason : ScenarioStep → String
  | .step2 => "advertise water for food"
  | .step3 => "advertise seeking components"
  | .step4 _ => "offer 2 water for 1 food to P02"
  | .step7 _ giftId => "accept gift " ++ giftId ++ " from P02"
  | .step8 advertisementId => "withdraw advertisement " ++ advertisementId
  | .step9 => "advertise beyond the stored-result limit"

/-- The `ScenarioError` for an outcome that is not ok; step 9 wants no outcome at all. -/
def rejected : ScenarioStep → String
  | .step2 => "step 2: advertise water for food was rejected"
  | .step3 => "step 3: advertise seeking components was rejected"
  | .step4 _ => "step 4: offer was rejected"
  | .step7 _ _ => "step 7: accepting the gift was rejected"
  | .step8 _ => "step 8: withdrawing the advertisement was rejected"
  | .step9 => "step 9: expected a protocol_error, command succeeded instead"

end ScenarioStep

/-! ### The waits -/

inductive ScenarioWait where
  | advertised
  | sought (advertisementId : String)
  | gifted (advertisementId offerId : String)
  | accepted (advertisementId : String)
  | withdrawn
  | synced (previousSequence : Nat)
deriving DecidableEq, Repr

/-- The predicate given to `wait_for`. -/
def ScenarioWait.predicate (wait : ScenarioWait) (world : WorldView) : Bool :=
  match wait with
  | .advertised => decide (world.worldVersion ≥ 3)
  | .sought _ => decide (world.worldVersion ≥ 4)
  | .gifted _ offerId =>
      (world.offers.any fun o => o.offerId == offerId && o.status == .ACCEPTED) &&
        world.openOffersToMe.any Offer.isGift
  | .accepted _ => decide (world.worldVersion ≥ 8)
  | .withdrawn => decide (world.worldVersion ≥ 9)
  | .synced previousSequence => decide (world.snapshotSequence > previousSequence)

/-- Where the scenario is. -/
inductive ScenarioPc where
  | ready
  | sending (x : ScenarioStep) (call : CallId)
  | waiting (wait : ScenarioWait)
  /-- The loop of `wait_for` has ended, and the scenario has not run since. -/
  | seen (wait : ScenarioWait)
  /-- In the `connection.send` of `sync`. -/
  | syncing (previousSequence : Nat)
  | returned (world : WorldView)
  | raised (e : ScenarioError)
deriving DecidableEq

structure Scenario where
  session : Session
  runId : String
  pc : ScenarioPc := .ready
  log : RunLog := {}
  asked : List ScenarioStep := []
  results : List CommandOutcome := []

inductive ScenarioEvent where
  /-- The pump, or the connection. -/
  | session (e : SessionEvent)
  /-- The scenario's own task runs to its next await; a call that begins is call `c`. -/
  | runs (c : CallId)
  /-- The loop of `wait_for` looks at the snapshot. -/
  | checks
  /-- The `connection.send` of `sync` returns. -/
  | synced
  /-- A `connection.send` raises. -/
  | sendFails (e : SessionError)
  /-- The deadline of `wait_for` passes. -/
  | expires
  /-- The scenario's task is cancelled. -/
  | cancels

/-- The session events that are not the scenario's own doing. -/
def SessionEvent.isOutside : SessionEvent → Bool
  | .arrives _ => true
  | .ends _ => true
  | .sends _ => true
  | _ => false

namespace Scenario

/-- `run_id = session.world.run_id`. -/
def start (world : WorldView) : Scenario where
  session := .start world
  runId := world.runId

/-- An exception leaves the `try` block. -/
def raise (e : ScenarioError) (s : Scenario) : Scenario :=
  { s with
    pc := .raised e
    log := if e.isException then s.log.runEnded s.session.world ("error: " ++ e.text) else s.log }

/-- The inner function `snapshot`. -/
def snapshot (s : Scenario) : Scenario :=
  let world := s.session.world
  { s with
    log := ((s.log.tickSnapshot world world.requestResults.length).transactionsSettled
      world).offersSnapshot world }

/-- `sync` up to its first await. -/
def sync (s : Scenario) : Scenario :=
  let world := s.session.world
  { s with
    session := { s.session with sent := s.session.sent ++ [Codec.buildSync world.runId] }
    pc := .syncing world.snapshotSequence }

/-- `session.send` has raised. -/
def sendRaises (x : ScenarioStep) (e : SessionError) (s : Scenario) : Scenario :=
  match x, e with
  | .step9, .protocolErrorReceived code _ =>
      if code = .REQUEST_CAPACITY_EXCEEDED then s.sync
      else
        s.raise (.scenario ("step 9: expected CONTROL_CODE_REQUEST_CAPACITY_EXCEEDED, got " ++
          code.name))
  | _, e => s.raise (.session e)

/-- The decision is logged, and `session.send` runs to its first await. -/
def ask (x : ScenarioStep) (c : CallId) (s : Scenario) : Scenario :=
  let message := x.message s.runId
  { s with
    session := s.session.begin c x.requestId message
    pc := .sending x c
    log := s.log.write s.session.world.tick
      (.decision x.key x.key x.reason x.requestId message.fields)
    asked := s.asked ++ [x] }

/-- A call that is refused raises at once. -/
def send (x : ScenarioStep) (c : CallId) (s : Scenario) : Scenario :=
  let s := s.ask x c
  match (s.session.calls c).map Call.stage with
  | some (.refused e) => s.sendRaises x e
  | _ => s

def note (x : ScenarioStep) (outcome : CommandOutcome) (s : Scenario) : Scenario :=
  { s with
    log := s.log.write s.session.world.tick
      (.commandResult x.key outcome.requestId outcome.ok outcome.code outcome.objectId
        outcome.transactionId outcome.retryAfterTick)
    results := s.results ++ [outcome] }

/-- `session.send` has returned. -/
def answer (x : ScenarioStep) (outcome : CommandOutcome) (s : Scenario) : Scenario :=
  if x = .step9 then s.raise (.scenario x.rejected)
  else
    let s := s.note x outcome
    if outcome.ok = false then s.raise (.scenario x.rejected)
    else
      match x, outcome.objectId with
      | .step2, _ => { s with pc := .waiting .advertised }
      | .step3, none => s.raise (.scenario "step 3: result had no object_id")
      | .step3, some advertisementId => { s with pc := .waiting (.sought advertisementId) }
      | .step4 _, none => s.raise (.scenario "step 4: result had no object_id")
      | .step4 advertisementId, some offerId =>
          { s.snapshot with pc := .waiting (.gifted advertisementId offerId) }
      | .step7 advertisementId _, _ => { s with pc := .waiting (.accepted advertisementId) }
      | .step8 _, _ => { s with pc := .waiting .withdrawn }
      | .step9, _ => s

/-- `session.send` ends, in the task of the scenario. -/
def leave (x : ScenarioStep) (stage : Stage) (s : Scenario) : Scenario :=
  match stage with
  | .returned outcome => s.answer x outcome
  | .raised e => s.sendRaises x e
  | _ => s

/-- `wait_for` has returned. -/
def proceed (wait : ScenarioWait) (c : CallId) (s : Scenario) : Scenario :=
  match wait with
  | .advertised => s.snapshot.send .step3 c
  | .sought advertisementId => s.snapshot.send (.step4 advertisementId) c
  | .gifted advertisementId _ =>
      match s.session.world.openOffersToMe.find? Offer.isGift with
      | none =>
          s.raise (.scenario "steps 5-6: no gift offer from P02 after our offer was accepted")
      | some gift => s.snapshot.send (.step7 advertisementId gift.offerId) c
  | .accepted advertisementId => s.snapshot.send (.step8 advertisementId) c
  | .withdrawn => s.snapshot.send .step9 c
  | .synced _ =>
      let world := s.session.world
      let s := s.snapshot
      { s with log := s.log.runEnded world "all ten steps completed", pc := .returned world }

def step (s : Scenario) (event : ScenarioEvent) : Option Scenario :=
  match event with
  | .session e =>
      if e.isOutside then (s.session.step e).map fun session => { s with session } else none
  | .runs c =>
      match s.pc with
      | .ready =>
          if s.session.calls c = none then
            some ({ s with log := s.log.runStarted s.session.world "validation" }.send .step2 c)
          else none
      | .sending x call =>
          (s.session.calls call).bind fun task => (Session.exit task).map fun stage =>
            { s with session := s.session.finish call task stage }.leave x stage
      | .seen wait => if s.session.calls c = none then some (s.proceed wait c) else none
      | _ => none
  | .checks =>
      match s.pc with
      | .waiting wait =>
          if wait.predicate s.session.world then some { s with pc := .seen wait }
          else s.session.pumpError.map fun e => s.raise (.session e)
      | _ => none
  | .synced =>
      match s.pc with
      | .syncing previousSequence => some { s with pc := .waiting (.synced previousSequence) }
      | _ => none
  | .sendFails e =>
      match s.pc with
      | .sending x call =>
          (s.session.step (.sendFails call e)).map fun session =>
            { s with session }.sendRaises x e
      | .syncing _ => some (s.raise (.session e))
      | _ => none
  | .expires =>
      match s.pc with
      | .waiting _ => some (s.raise .timeout)
      | _ => none
  | .cancels =>
      match s.pc with
      | .sending _ call =>
          (s.session.step (.cancels call)).map fun session => { s with session }
      | .waiting _ => some (s.raise (.session .cancelled))
      | .syncing _ => some (s.raise (.session .cancelled))
      -- `wait_for` gives the result of its finished task instead.
      | _ => none

def Step (s : Scenario) (event : ScenarioEvent) (t : Scenario) : Prop := s.step event = some t

/-! ### The exercise of the tests -/

/-- The push number `sequence` of the server in `test_scenario.py`. -/
def samplePush (sequence worldVersion : Nat) (offers : List Wire.Offer) : Wire.State :=
  { Wire.State.sample sequence with
    runId := "run-1", worldVersion, offers, advertisements := []
    self :=
      { (Wire.State.sample sequence).self with
        inventory := { water := 30, food := 30, components := 30 } } }

def sampleOffer (status : Nat) : Wire.Offer where
  offerId := "offer-1"
  proposerId := "P01"
  recipientId := "P02"
  give := { water := 2 }
  receive := { food := 1 }
  createdTick := 0
  expiresTick := 6
  status := status
  transactionId := ⟨true, ""⟩

def sampleGift (status : Nat) : Wire.Offer :=
  { sampleOffer status with
    offerId := "offer-2", proposerId := "P02", recipientId := "P01"
    give := { components := 1 }, receive := {} }

def sampleWorld : WorldView :=
  { WorldView.sample with
    runId := "run-1", worldVersion := 2, snapshotSequence := 1, advertisements := []
    self :=
      { WorldView.sample.self with
        inventory := { water := 30, food := 30, components := 30 } } }

def sampleResult (requestId : String) (objectId : Wire.Nullable String) : ServerMessage :=
  .result
    { requestId, ok := true, code := .OK, processedTick := 0, processedVersion := 0, objectId,
      transactionId := ⟨true, ""⟩, retryAfterTick := ⟨true, 0⟩ }

/-- The ten steps, with every message as it comes. -/
def sampleTrace : List ScenarioEvent :=
  let arrives m := ScenarioEvent.session (.arrives m)
  let command c answer states : List ScenarioEvent :=
    [.runs c, .session (.sends c), arrives answer] ++ states.map (fun m => arrives (.state m)) ++
      [.runs c, .checks]
  command 0 (sampleResult "student-advertise-1" ⟨true, ""⟩) [samplePush 2 3 []] ++
    command 1 (sampleResult "student-advertise-seeking-1" ⟨false, "ad-1"⟩) [samplePush 3 4 []] ++
    command 2 (sampleResult "student-offer-1" ⟨false, "offer-1"⟩)
      [samplePush 4 5 [sampleOffer 1], samplePush 5 6 [sampleOffer 2],
        samplePush 6 7 [sampleOffer 2, sampleGift 1]] ++
    command 3 (sampleResult "student-accept-1" ⟨true, ""⟩)
      [samplePush 7 8 [sampleOffer 2, sampleGift 2]] ++
    command 4 (sampleResult "student-withdraw-1" ⟨true, ""⟩) [samplePush 8 9 []] ++
    [.runs 5, .session (.sends 5),
      arrives (.protocolError
        { requestId := ⟨false, "student-advertise-2"⟩, code := .REQUEST_CAPACITY_EXCEEDED,
          closeSession := false }),
      .runs 5, .synced, arrives (.state (samplePush 9 9 [])), .checks, .runs 6]

theorem run_sampleTrace :
    ∃ s w, Runs.Run Step (start sampleWorld) sampleTrace s ∧ s.pc = .returned w ∧
      w.worldVersion = 9 ∧ s.log.records.length = 22 := by
  have hreplay : (Runs.replay step (start sampleWorld) sampleTrace).map
      (fun s => ((match s.pc with
        | .returned w => some w.worldVersion
        | _ => none), s.log.records.length)) = some (some 9, 22) := by decide +kernel
  obtain ⟨s, hs, hend⟩ := Option.map_eq_some_iff.mp hreplay
  rw [Prod.mk.injEq] at hend
  obtain ⟨hpc, hlength⟩ := hend
  have hrun : Runs.Run Step (start sampleWorld) sampleTrace s :=
    Runs.run_of_replay (fun _ _ _ h => h) hs
  split at hpc
  · rename_i w hw
    exact ⟨s, w, hrun, hw, Option.some.inj hpc, hlength⟩
  · cases hpc

end Scenario

end PlanetCharlu
