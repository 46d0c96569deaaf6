import PlanetCharlu.Wire
import PlanetCharlu.Codec
import PlanetCharlu.Lib.Runs

/-!
# The client session (`session.py`, `commands.py`)

The receive pump and the calls of `ClientSession.send` as one system. The pump
consumes one server message at a time. A call runs in its own task and can be
interrupted wherever the source awaits: while `connection.send` runs, and while its
future is pending. What the tasks share is the snapshot, the pump's error and the
table of pending requests.

`Session.step` is the step function: what one event makes of the session, or `none`
where the event cannot happen. Between two events nothing else runs, so an event is
the code from one await to the next.
-/

namespace PlanetCharlu

/-- The exceptions the tasks of a session can raise. -/
inductive SessionError where
  | connectionError (text : String)
  | protocolErrorReceived (code : ControlCode) (closeSession : Bool)
  | conversion (e : PyError)
  | transport (text : String)
  | notRunning (phase : Phase)
  | duplicateRequestId (requestId : String)
  | cancelled
deriving DecidableEq, Repr

/-- The state of an `asyncio.Future`. -/
inductive Future where
  | waiting
  | result (outcome : CommandOutcome)
  | exception (e : SessionError)
  | cancelled
deriving DecidableEq, Repr

/-- Where a call of `ClientSession.send` is. -/
inductive Stage where
  | sending
  | awaiting
  | returned (outcome : CommandOutcome)
  | raised (e : SessionError)
  | refused (e : SessionError)
deriving DecidableEq, Repr

/-- The call has registered and not finished. -/
def Stage.isOpen : Stage → Bool
  | .sending => true
  | .awaiting => true
  | _ => false

structure Call where
  requestId : String
  message : ClientMessage
  stage : Stage
  future : Future := .waiting
  cancelling : Bool := false
deriving DecidableEq, Repr

/-- `if not future.done(): future.set_…`. -/
def Call.settle (call : Call) (future : Future) : Call :=
  if call.future = .waiting then { call with future } else call

/-- A call is named by a number; the request id is data. -/
abbrev CallId := Nat

structure Session where
  world : WorldView
  pumpError : Option SessionError := none
  pending : String → Option CallId := fun _ => none
  calls : CallId → Option Call := fun _ => none
  sent : List ClientMessage := []

namespace Session

/-- A session right after `start_pump`. -/
def start (world : WorldView) : Session := { world }

/-! ### `PendingRequests` -/

/-- Pop a pending request and complete its future. An id that is not pending is
only logged. -/
def settle (s : Session) (requestId : String) (future : Future) : Session :=
  match s.pending requestId with
  | none => s
  | some c =>
      { s with
        pending := Function.update s.pending requestId none
        calls := Function.update s.calls c ((s.calls c).map fun call => call.settle future) }

def resolve (s : Session) (outcome : CommandOutcome) : Session :=
  s.settle outcome.requestId (.result outcome)

def reject (s : Session) (requestId : String) (e : SessionError) : Session :=
  s.settle requestId (.exception e)

def failAll (s : Session) (e : SessionError) : Session :=
  { s with
    pending := fun _ => none
    calls := fun c => (s.calls c).map fun call =>
      if s.pending call.requestId = some c then call.settle (.exception e) else call }

def discard (s : Session) (requestId : String) : Session :=
  { s with pending := Function.update s.pending requestId none }

/-! ### The pump -/

/-- The `except` and `finally` blocks of `_pump`. -/
def endPump (s : Session) (e : SessionError) : Session :=
  { s with pumpError := some e }.failAll e

/-- The body of the pump's loop, for one message. -/
def receive (s : Session) (message : ServerMessage) : Session :=
  match message with
  | .state state =>
      if state.runId ≠ s.world.runId then
        s.endPump (.connectionError "server changed run; restart the client for the new run")
      else if state.snapshotSequence ≤ s.world.snapshotSequence then s
      else
        match WorldView.fromState state with
        | .error e => s.endPump (.conversion e)
        | .ok world => { s with world }
  | .result result => s.resolve (CommandOutcome.fromWire result)
  | .protocolError error =>
      let raised := SessionError.protocolErrorReceived error.code error.closeSession
      let s := if error.requestId.null then s else s.reject error.requestId.value raised
      if error.closeSession || error.requestId.null then s.endPump raised else s
  | .readiness => s
  | .unset => s

/-! ### `send` -/

/-- `ClientSession.send` up to its first await: refuse, or register the request and
hand the message to the connection. -/
def begin (s : Session) (c : CallId) (requestId : String) (message : ClientMessage) : Session :=
  let refuse (e : SessionError) : Session :=
    { s with calls := Function.update s.calls c (some { requestId, message, stage := .refused e }) }
  match s.pumpError with
  | some e => refuse e
  | none =>
      if s.world.isRunning = false then refuse (.notRunning s.world.phase)
      else
        match s.pending requestId with
        | some _ => refuse (.duplicateRequestId requestId)
        | none =>
            { s with
              pending := Function.update s.pending requestId (some c)
              calls := Function.update s.calls c (some { requestId, message, stage := .sending })
              sent := s.sent ++ [message] }

/-- A call leaves: its `finally` block discards the registration. -/
def finish (s : Session) (c : CallId) (call : Call) (stage : Stage) : Session :=
  { s with calls := Function.update s.calls c (some { call with stage }) }.discard call.requestId

/-! ### Steps -/

end Session

inductive SessionEvent where
  /-- The pump takes a message. -/
  | arrives (message : ServerMessage)
  /-- The stream ends or raises, or the pump is stopped. -/
  | ends (cause : Option SessionError)
  | begins (c : CallId) (requestId : String) (message : ClientMessage)
  /-- `connection.send` returns, or raises. -/
  | sends (c : CallId)
  | sendFails (c : CallId) (e : SessionError)
  /-- The call's task is cancelled. -/
  | cancels (c : CallId)
  /-- The call's task wakes up and leaves. -/
  | resumes (c : CallId)
deriving DecidableEq, Repr

namespace Session

/-- Cancelling a task cancels the future it awaits, if that is still pending. -/
def cancelCall (call : Call) : Call :=
  { call with
    cancelling := true
    future := if call.stage = .awaiting ∧ call.future = .waiting then .cancelled else call.future }

/-- How an open call leaves when its task runs again, if it can. A cancellation is
raised at the next await, also when the future has been completed meanwhile. -/
def exit (call : Call) : Option Stage :=
  match call.stage with
  | .sending => if call.cancelling then some (.raised .cancelled) else none
  | .awaiting =>
      if call.cancelling then some (.raised .cancelled)
      else
        match call.future with
        | .waiting => none
        | .result outcome => some (.returned outcome)
        | .exception e => some (.raised e)
        | .cancelled => some (.raised .cancelled)
  | _ => none

def step (s : Session) (event : SessionEvent) : Option Session :=
  match event with
  | .arrives message => if s.pumpError = none then some (s.receive message) else none
  | .ends cause =>
      if s.pumpError = none then
        some (s.endPump (cause.getD (.connectionError "server connection closed")))
      else none
  | .begins c requestId message =>
      if s.calls c = none then some (s.begin c requestId message) else none
  | .sends c =>
      (s.calls c).bind fun call =>
        if call.stage = .sending ∧ call.cancelling = false then
          some { s with calls := Function.update s.calls c (some { call with stage := .awaiting }) }
        else none
  | .sendFails c e =>
      (s.calls c).bind fun call =>
        if call.stage = .sending then some (s.finish c call (.raised e)) else none
  | .cancels c =>
      (s.calls c).bind fun call =>
        if call.stage.isOpen then
          some { s with calls := Function.update s.calls c (some (cancelCall call)) }
        else none
  | .resumes c =>
      (s.calls c).bind fun call => (exit call).map fun stage => s.finish c call stage

def Step (s : Session) (event : SessionEvent) (t : Session) : Prop := s.step event = some t

/-- What each event has checked, and what it makes of the session. -/
inductive Stepped (s : Session) : SessionEvent → Session → Prop where
  | arrives (hrunning : s.pumpError = none) (m : ServerMessage) :
      Stepped s (.arrives m) (s.receive m)
  | ends (hrunning : s.pumpError = none) (cause : Option SessionError) :
      Stepped s (.ends cause)
        (s.endPump (cause.getD (.connectionError "server connection closed")))
  | begins {c : CallId} (hnew : s.calls c = none) (id : String) (m : ClientMessage) :
      Stepped s (.begins c id m) (s.begin c id m)
  | sends {c : CallId} {call : Call} (hcall : s.calls c = some call)
      (hsending : call.stage = .sending) (hwanted : call.cancelling = false) :
      Stepped s (.sends c)
        { s with calls := Function.update s.calls c (some { call with stage := .awaiting }) }
  | sendFails {c : CallId} {call : Call} (hcall : s.calls c = some call)
      (hsending : call.stage = .sending) (e : SessionError) :
      Stepped s (.sendFails c e) (s.finish c call (.raised e))
  | cancels {c : CallId} {call : Call} (hcall : s.calls c = some call)
      (hopen : call.stage.isOpen = true) :
      Stepped s (.cancels c)
        { s with calls := Function.update s.calls c (some (cancelCall call)) }
  | resumes {c : CallId} {call : Call} {stage : Stage} (hcall : s.calls c = some call)
      (hexit : exit call = some stage) : Stepped s (.resumes c) (s.finish c call stage)

theorem step_cases {s t : Session} {e : SessionEvent} (h : s.step e = some t) :
    Stepped s e t := by
  rcases e with m | cause | ⟨c, id, m⟩ | c | ⟨c, e⟩ | c | c
  · simp only [step, Option.ite_none_right_eq_some, Option.some.injEq] at h
    obtain ⟨hrunning, rfl⟩ := h
    exact .arrives hrunning m
  · simp only [step, Option.ite_none_right_eq_some, Option.some.injEq] at h
    obtain ⟨hrunning, rfl⟩ := h
    exact .ends hrunning cause
  · simp only [step, Option.ite_none_right_eq_some, Option.some.injEq] at h
    obtain ⟨hnew, rfl⟩ := h
    exact .begins hnew id m
  all_goals
    simp only [step, Option.bind_eq_some_iff, Option.ite_none_right_eq_some, Option.some.injEq,
      Option.map_eq_some_iff] at h
  · obtain ⟨call, hcall, ⟨hsending, hwanted⟩, rfl⟩ := h
    exact .sends hcall hsending hwanted
  · obtain ⟨call, hcall, hsending, rfl⟩ := h
    exact .sendFails hcall hsending e
  · obtain ⟨call, hcall, hopen, rfl⟩ := h
    exact .cancels hcall hopen
  · obtain ⟨call, hcall, stage, hexit, rfl⟩ := h
    exact .resumes hcall hexit

/-! ### What the operations leave alone -/

section Frames

variable (s : Session) (requestId : String) (future : Future) (e : SessionError) (c : CallId)

@[simp] theorem settle_world : (s.settle requestId future).world = s.world := by
  unfold settle
  split <;> rfl

@[simp] theorem settle_pumpError : (s.settle requestId future).pumpError = s.pumpError := by
  unfold settle
  split <;> rfl

@[simp] theorem settle_sent : (s.settle requestId future).sent = s.sent := by
  unfold settle
  split <;> rfl

@[simp] theorem endPump_world : (s.endPump e).world = s.world := rfl

@[simp] theorem endPump_pumpError : (s.endPump e).pumpError = some e := rfl

@[simp] theorem endPump_pending : (s.endPump e).pending requestId = none := rfl

@[simp] theorem endPump_sent : (s.endPump e).sent = s.sent := rfl

@[simp] theorem begin_world (message : ClientMessage) :
    (s.begin c requestId message).world = s.world := by
  unfold begin
  dsimp only
  split
  · rfl
  · split_ifs
    · rfl
    · split <;> rfl

end Frames

end Session

end PlanetCharlu
