import PlanetCharlu.Lib.Computations
import PlanetCharlu.Frames
import PlanetCharlu.ScenarioOrder

/-!
# The client from start to end (`main.py`, `connection.py`, `session.py`)

`_run_client` as a computation over what it acts on: the run log, the socket, the pump and
the summary page. Each function is written as the source has it, with its handlers and
`finally` clauses, and every await may raise and may be cancelled. `Protocol` says what the
other side may rely on, and what the client owes to its own resources.

The body of a session is a run of the trading loop or of the guided exercise, off a socket.
The Protobuf runtime that reads the frames is a parameter.
The address and the token, the messages to the logger and the writes inside the run log are
left out.
-/

namespace PlanetCharlu

open Runs Computations

/-! ### Configuration -/

inductive Mode where
  | trade
  | validation
deriving DecidableEq, Repr

structure ClientConfig where
  mode : Mode := .trade
  runLogPath : Option String := none
  conservativeTrading : Bool := false
  simplifiedTrading : Bool := false
deriving DecidableEq, Repr

/-- The strategy that `_run_trading` makes. -/
def ClientConfig.policy (config : ClientConfig) : Strategy :=
  if config.simplifiedTrading then .simplified
  else if config.conservativeTrading then .restrained
  else .base

/-! ### Errors -/

/-- `WhichOneof("message")`. -/
def Wire.ServerMessage.whichOneof : Wire.ServerMessage → Option String
  | .state _ => some "state"
  | .result _ => some "result"
  | .protocolError _ => some "protocol_error"
  | .readiness _ => some "readiness"
  | .unset => none

inductive HandshakeError where
  | expectedState (got : Option String)
  | expectedReadiness (got : Option String)
  | mismatch (readiness : Wire.Readiness)
deriving DecidableEq, Repr

inductive ClientError where
  | session (e : SessionError)
  | strategy (e : PyError)
  | runtimeError (text : String)
  | scenario (text : String)
  | timeout
  | handshake (e : HandshakeError)
  | subprotocolMismatch (negotiated : Option String)
  | stopAsyncIteration
  | osError (text : String)
deriving DecidableEq, Repr

def RunnerError.toClient : RunnerError → ClientError
  | .strategy e => .strategy e
  | .session e => .session e
  | .runtimeError text => .runtimeError text

def ScenarioError.toClient : ScenarioError → ClientError
  | .scenario text => .scenario text
  | .session e => .session e
  | .timeout => .timeout

/-- The error of a decision or of a conversion. -/
def ClientError.isOwn : ClientError → Bool
  | .strategy _ => true
  | .session e => e.isConversion
  | _ => false

/-! ### What the client does -/

inductive Action where
  | opensLog
  | connects (subprotocol : Option String)
  | receives (m : Wire.ServerMessage)
  | sends (m : Wire.ClientMessage)
  | startsPump
  | stopsPump
  | closesSocket
  | closesLog
  | writesSummary
deriving DecidableEq, Repr

abbrev Client (α : Type) : Type := Computation Action ClientError α

namespace Client

open Computation

variable (runtime : Protobuf)

def REQUIRED_SUBPROTOCOL : String := "bazaar.protobuf.v2"

/-- The hint for the status of a rejected WebSocket handshake. -/
def hint (status : Nat) : String :=
  if status = 401 then
    "Authentication failed. Supply the token issued for this server via " ++
      "BAZAAR_TOKEN or --token. Local validation-credentials.json tokens " ++
      "are for the local validator, not the live server. In Docker, set " ++
      "BAZAAR_TOKEN inside the container or pass it with docker compose exec -e BAZAAR_TOKEN."
  else if status = 403 then
    "Access denied. Check that your credentials are authorized for this server."
  else if status = 400 then
    "Check the assigned station and the required bazaar.protobuf.v2 subprotocol."
  else "Check the WebSocket endpoint and server availability."

/-- What an await on the socket raises of its own, and on cancellation. -/
inductive AwaitFails : ClientError → Prop where
  | transport (text : String) : AwaitFails (.session (.transport text))
  | cancelled : AwaitFails (.session .cancelled)

inductive ConnectFails : ClientError → Prop where
  | rejected (status : Nat) : ConnectFails (.session (.connectionError
      ("WebSocket handshake rejected (HTTP " ++ toString status ++ "). " ++ hint status)))
  | refused (text : String) : ConnectFails (.session (.connectionError text))
  | os (text : String) : ConnectFails (.osError text)
  | await {e : ClientError} (he : AwaitFails e) : ConnectFails e

/-- `anext(messages)`: a frame may be unreadable, and the stream may be at its end. -/
inductive NextFails : ClientError → Prop where
  | unreadable {frame : Frame runtime} {e : SessionError} (h : frame.read = .error e) :
      NextFails (.session e)
  | exhausted : NextFails .stopAsyncIteration
  | await {e : ClientError} (he : AwaitFails e) : NextFails e

def close : Client Unit := performs .closesSocket AwaitFails

def connect : Client Unit := do
  let subprotocol ← attempts .connects (fun _ => True) ConnectFails
  if subprotocol = some REQUIRED_SUBPROTOCOL then pure ()
  else
    close
    raises (.subprotocolMismatch subprotocol)

def anext : Client Wire.ServerMessage :=
  attempts .receives (fun m => ∃ frame : Frame runtime, frame.read = .ok m) (NextFails runtime)

def send (m : Wire.ClientMessage) : Client Unit := performs (.sends m) AwaitFails

def performReadinessHandshake : Client Wire.State := do
  let first ← anext runtime
  match first with
  | .state state =>
      send (Codec.buildReady state.runId true state.snapshotSequence)
      let confirmation ← anext runtime
      match confirmation with
      | .readiness readiness =>
          if readiness.ready = false ∨ readiness.runId ≠ state.runId ∨
              readiness.snapshotSequence ≠ state.snapshotSequence then
            raises (.handshake (.mismatch readiness))
          else pure state
      | other => raises (.handshake (.expectedReadiness other.whichOneof))
  | other => raises (.handshake (.expectedState other.whichOneof))

def startPump : Client Unit := performs .startsPump fun _ => False

def openSession : Client WorldView := do
  let state ← performReadinessHandshake runtime
  match WorldView.fromState state with
  | .error e => raises (.session (.conversion e))
  | .ok world => do
      startPump
      pure world

/-- It awaits the cancelled pump under `suppress(CancelledError)`. -/
def stopPump : Client Unit := performs .stopsPump fun _ => False

end Client

/-! ### The body of a session -/

def RunnerPc.outcome : RunnerPc → Outcome ClientError WorldView
  | .returned world => .returned world
  | .raised e => .raised e.toClient
  | _ => .running

def ScenarioPc.outcome : ScenarioPc → Outcome ClientError WorldView
  | .returned world => .returned world
  | .raised e => .raised e.toClient
  | _ => .running

def ScenarioEvent.OffSocket (runtime : Protobuf) : ScenarioEvent → Prop
  | .session e => e.OffSocket runtime
  | .sendFails e => e.isConversion = false
  | _ => True

def Session.sends (s : Session) : List Action := s.sent.map fun m => .sends m.toWire

namespace Client

open Computation

variable (runtime : Protobuf)

/-- A run of the loop, as far as it has come. -/
inductive Trading (policy : Strategy) (world : WorldView) :
    List Action → Outcome ClientError WorldView → Prop where
  | run {trace : List RunnerEvent} {r : Runner}
      (hrun : Run (Runner.Step policy) (Runner.start world) trace r)
      (hsocket : ∀ e ∈ trace, e.OffSocket runtime) : Trading policy world r.session.sends r.pc.outcome

inductive Exercising (world : WorldView) : List Action → Outcome ClientError WorldView → Prop where
  | run {trace : List ScenarioEvent} {s : Scenario}
      (hrun : Run Scenario.Step (Scenario.start world) trace s)
      (hsocket : ∀ e ∈ trace, e.OffSocket runtime) : Exercising world s.session.sends s.pc.outcome

/-- A run of `Runner` has no cancellation of its own. -/
def runTrading (policy : Strategy) (world : WorldView) : Client WorldView :=
  interruptible (Trading runtime policy world) (.session .cancelled)

def runSampleScenario (world : WorldView) : Client WorldView := Exercising runtime world

def body (config : ClientConfig) (world : WorldView) : Client WorldView :=
  match config.mode with
  | .validation => runSampleScenario runtime world
  | .trade => runTrading runtime config.policy world

/-! ### `_run_client` -/

/-- The block of `async with BazaarConnection(config)`. -/
def connected (config : ClientConfig) : Client WorldView := do
  connect
  tryFinally
    (do
      let world ← openSession runtime
      tryFinally (body runtime config world) stopPump)
    close

def openLog : Client Unit :=
  attempts (fun _ => .opensLog) (fun _ => True) fun e => ∃ text, e = .osError text

def closeLog : Client Unit := performs .closesLog fun e => ∃ text, e = .osError text

/-- Every `Exception` is logged, and a cancellation is none. -/
def writeSummary : Client Unit := performs .writesSummary (· = .session .cancelled)

/-- The log is opened before the `try`. -/
def runClient (config : ClientConfig) : Client WorldView :=
  match config.runLogPath with
  | none => connected runtime config
  | some _ => do
      openLog
      tryFinally (tryFinally (connected runtime config) closeLog) writeSummary

/-! ### `main` -/

/-- `except (RuntimeError, ConnectionError)`. An exception of the network libraries is
neither. -/
def isReported : ClientError → Bool
  | .session (.connectionError _) => true
  | .session (.protocolErrorReceived _ _) => true
  | .session (.notRunning _) => true
  | .session (.duplicateRequestId _) => true
  | .runtimeError _ => true
  | .scenario _ => true
  | .handshake _ => true
  | .subprotocolMismatch _ => true
  | _ => false

/-- How the process ends: with status 0 also when it was interrupted, with status 1, or
with a traceback. -/
inductive Exit where
  | completed
  | interrupted
  | stopped (e : ClientError)
  | traceback (e : ClientError)
deriving DecidableEq, Repr

def main : Outcome ClientError WorldView → Option Exit
  | .running => none
  | .returned _ => some .completed
  | .raised e =>
      if e = .session .cancelled then some .interrupted
      else if isReported e then some (.stopped e)
      else some (.traceback e)

/-! ### A session that is interrupted -/

def sampleConfig : ClientConfig where
  runLogPath := some "runs/run.jsonl"

def sampleReadiness : Wire.Readiness where
  runId := (Wire.State.sample 1).runId
  ready := true
  snapshotSequence := 1

/-- What happens up to the start of the pump. -/
def sampleOpening : List Action :=
  [.receives (.state (Wire.State.sample 1)),
    .sends (Codec.buildReady (Wire.State.sample 1).runId true 1),
    .receives (.readiness sampleReadiness), .startsPump]

theorem openSession_sample :
    openSession Runner.sampleRuntime sampleOpening (.returned .sample) := by
  have hfirst : ∃ frame : Frame Runner.sampleRuntime,
      frame.read = .ok (.state (Wire.State.sample 1)) := by
    refine ⟨.binary (Runner.sampleState 1 1 0)
      (by simp [Runner.sampleRuntime, Runner.sampleFrames]), ?_⟩
    rw [Frame.read, Runner.sampleRuntime_decodes]
  have hsecond : ∃ frame : Frame Runner.sampleRuntime,
      frame.read = .ok (.readiness sampleReadiness) := by
    have hreadiness : Codec.decodeServerMessage Runner.sampleRuntime Runner.sampleConfirmation =
        some (.readiness sampleReadiness) := by decide +kernel
    refine ⟨.binary Runner.sampleConfirmation
      (by simp [Runner.sampleRuntime, Runner.sampleFrames]), ?_⟩
    rw [Frame.read, hreadiness]
  have hconfirmed : performReadinessHandshake Runner.sampleRuntime (sampleOpening.take 3)
      (.returned (Wire.State.sample 1)) := by
    refine .next (t := [_]) (.returned hfirst) (.next (t := [_]) .returned ?_)
    exact .next (t := [_]) (.returned hsecond) .returned
  exact .next hconfirmed (.next (t := [_]) .returned .returned)

theorem connect_sample : connect [.connects (some REQUIRED_SUBPROTOCOL)] (.returned ()) := by
  have hconnected : (if some REQUIRED_SUBPROTOCOL = some REQUIRED_SUBPROTOCOL then pure ()
      else do
        close
        raises (.subprotocolMismatch (some REQUIRED_SUBPROTOCOL)) : Client Unit) []
      (.returned ()) := .returned
  exact .next (t := [_]) (.returned trivial) hconnected

/-- The user interrupts the loop. -/
theorem runClient_sample : ∃ sent : List Wire.ClientMessage, sent.length = 2 ∧
    runClient Runner.sampleRuntime sampleConfig
      ([.opensLog, .connects (some REQUIRED_SUBPROTOCOL)] ++ sampleOpening ++
        sent.map Action.sends ++ [.stopsPump, .closesSocket, .closesLog, .writesSummary])
      (.raised (.session .cancelled)) := by
  have hreplay : (replay (Runner.step .base) (Runner.start .sample) Runner.sampleTrace).map
      (fun r => ((match r.pc with
        | .returned _ => false
        | .raised _ => false
        | _ => true), r.session.sent.length)) = some (true, 2) := by decide +kernel
  obtain ⟨r, hr, hend⟩ := Option.map_eq_some_iff.mp hreplay
  rw [Prod.mk.injEq] at hend
  obtain ⟨hpc, hlength⟩ := hend
  have hrun : Run (Runner.Step .base) (Runner.start .sample) Runner.sampleTrace r :=
    run_of_replay (fun _ _ _ h => h) hr
  have hrunning : r.pc.outcome = .running := by
    unfold RunnerPc.outcome
    split
    · rename_i heq
      rw [heq] at hpc
      cases hpc
    · rename_i heq
      rw [heq] at hpc
      cases hpc
    · rfl
  refine ⟨r.session.sent.map ClientMessage.toWire, by simpa using hlength, ?_⟩
  have htrading : Trading Runner.sampleRuntime .base .sample r.session.sends .running := by
    have hbehaves := Trading.run hrun Runner.sampleTrace_offSocket
    rwa [hrunning] at hbehaves
  have hbody : body Runner.sampleRuntime sampleConfig .sample r.session.sends
      (.raised (.session .cancelled)) :=
    .interrupted htrading
  have hsession : Finishing (body Runner.sampleRuntime sampleConfig .sample) stopPump
      (r.session.sends ++ [.stopsPump])
      (.raised (.session .cancelled)) := .raised (o := .returned ()) hbody .returned
  have hconnected : connected Runner.sampleRuntime sampleConfig
      ([.connects (some REQUIRED_SUBPROTOCOL)] ++
        (sampleOpening ++ (r.session.sends ++ [.stopsPump]) ++ [.closesSocket]))
      (.raised (.session .cancelled)) :=
    .next connect_sample (.raised (o := .returned ()) (.next openSession_sample hsession) .returned)
  have hlogged := Finishing.raised (o := .returned ()) hconnected
    (Performing.returned : closeLog [.closesLog] (.returned ()))
  have hsummarized := Finishing.raised (o := .returned ()) hlogged
    (Performing.returned : writeSummary [.writesSummary] (.returned ()))
  have hopened : openLog [.opensLog] (.returned ()) := by
    unfold openLog attempts
    exact .returned trivial
  have hclient : runClient Runner.sampleRuntime sampleConfig _ _ := .next hopened hsummarized
  simpa [Session.sends, Function.comp_def] using hclient

/-- The server closes the connection before it has said anything. -/
theorem runClient_exhausted :
    runClient Runner.sampleRuntime {} [.connects (some REQUIRED_SUBPROTOCOL), .closesSocket]
      (.raised .stopAsyncIteration) := by
  have hsession : (do
      let world ← openSession Runner.sampleRuntime
      tryFinally (body Runner.sampleRuntime {} world) stopPump) [] (.raised .stopAsyncIteration) :=
    .raised (.raised (.raised (.raised .exhausted)))
  exact .next connect_sample (.raised (o := .returned ()) hsession .returned)

end Client

end PlanetCharlu
