import PlanetCharlu.NeverRaises
import PlanetCharlu.Wire

/-!
# The messages of `protos/bazaar.proto`

`ClientMessage` with all its fields, `ServerMessage` as the client reads it, and the
runtime that parses the one and writes the other. The runtime is no part of the client:
`Protobuf` is what the client relies on.
-/

namespace PlanetCharlu

def Phase.number : Phase → Nat
  | .READY => 1
  | .RUNNING => 2
  | .PAUSED => 3
  | .FINISHED => 4
  | .ABORTED => 5

namespace Wire

/-! ### Client messages -/

structure AdvertiseBody where
  selling : List Nat
  seeking : List Nat
  expiresTick : Nat
deriving DecidableEq, Repr

structure OfferBody where
  recipientId : String
  give : Bundle
  receive : Bundle
  expiresTick : Nat
deriving DecidableEq, Repr

/-- `Advertise`, `OfferCommand`, `Accept` and `Withdraw` differ in their body. -/
structure Command (β : Type) where
  type : Nat
  protocolVersion : String
  runId : String
  requestId : String
  body : β
deriving DecidableEq, Repr

structure Sync where
  type : Nat
  protocolVersion : String
  runId : String
deriving DecidableEq, Repr

structure Ready where
  type : Nat
  protocolVersion : String
  runId : String
  ready : Bool
  snapshotSequence : Nat
deriving DecidableEq, Repr

/-- The body of an `Accept` is an offer id, that of a `Withdraw` an object id. -/
inductive ClientMessage where
  | advertise (m : Command AdvertiseBody)
  | offer (m : Command OfferBody)
  | accept (m : Command String)
  | withdraw (m : Command String)
  | sync (m : Sync)
  | ready (m : Ready)
  | unset
deriving DecidableEq, Repr

/-- What a message object can hold: known enum values and numbers of 64 bits. -/
def ClientMessage.InRange : ClientMessage → Prop
  | .advertise m => m.type = 1 ∧ (∀ n ∈ m.body.selling, n ∈ [1, 2, 3]) ∧
      (∀ n ∈ m.body.seeking, n ∈ [1, 2, 3]) ∧ m.body.expiresTick < 2 ^ 64
  | .offer m => m.type = 1 ∧ Raising.Fits m.body.give ∧ Raising.Fits m.body.receive ∧
      m.body.expiresTick < 2 ^ 64
  | .accept m => m.type = 1
  | .withdraw m => m.type = 1
  | .sync m => m.type = 1
  | .ready m => m.type = 1 ∧ m.snapshotSequence < 2 ^ 64
  | .unset => True

/-- The run that a message is for. -/
def ClientMessage.runId? : ClientMessage → Option String
  | .advertise m => some m.runId
  | .offer m => some m.runId
  | .accept m => some m.runId
  | .withdraw m => some m.runId
  | .sync m => some m.runId
  | .ready m => some m.runId
  | .unset => none

/-! ### Server messages -/

structure Readiness where
  runId : String
  ready : Bool
  snapshotSequence : Nat
deriving DecidableEq, Repr

/-- `ServerMessage` as it is decoded. -/
inductive ServerMessage where
  | state (m : State)
  | result (m : Result)
  | protocolError (m : ProtocolError)
  | readiness (m : Readiness)
  | unset
deriving DecidableEq, Repr

/-- What the pump looks at. -/
def ServerMessage.seen : ServerMessage → PlanetCharlu.ServerMessage
  | .state m => .state m
  | .result m => .result m
  | .protocolError m => .protocolError m
  | .readiness _ => .readiness
  | .unset => .unset

/-- The enum values that the conversions look up are known, and the stock and the length
of the run have 64 bits. -/
structure State.Received (m : State) : Prop where
  specialty : m.self.specialty ∈ [1, 2, 3]
  offers : ∀ o ∈ m.offers, o.status ∈ [1, 2, 3, 4, 5]
  advertisements : ∀ a ∈ m.advertisements, a.status ∈ [1, 2, 3, 4, 5]
  claims : ∀ a ∈ m.advertisements, ∀ n ∈ a.selling ++ a.seeking, n ∈ [1, 2, 3]
  inventory : Raising.Fits m.self.inventory
  duration : m.rules.durationTicks < 2 ^ 64

end Wire

/-- `ServerMessage.FromString`, which raises `DecodeError` or gives a message. A payload is
`Textual` where all its strings are UTF-8; of another string the runtime makes `bytes`,
which no message here has a place for. What a textual payload gives holds only known enum
values and numbers of 64 bits. -/
structure Protobuf where
  Textual : List UInt8 → Prop
  fromString : List UInt8 → Option Wire.ServerMessage
  received : ∀ {data : List UInt8} {m : Wire.State}, Textual data →
    fromString data = some (.state m) → m.Received

def Codec.decodeServerMessage (runtime : Protobuf) (data : List UInt8) :
    Option Wire.ServerMessage :=
  runtime.fromString data

/-! ### The builders -/

section Builders

variable {β : Type} (runId requestId : String) (body : β)

def Wire.command : Wire.Command β :=
  { type := 1, protocolVersion := Codec.PROTOCOL_VERSION, runId, requestId, body }

end Builders

/-- The message that a builder of `codec.py` makes. -/
def ClientMessage.toWire : ClientMessage → Wire.ClientMessage
  | .advertise runId requestId body =>
      .advertise (Wire.command runId requestId
        { selling := body.selling.map Codec.resourceToWire
          seeking := body.seeking.map Codec.resourceToWire
          expiresTick := body.expiresTick })
  | .offer runId requestId body =>
      .offer (Wire.command runId requestId
        { recipientId := body.recipientId
          give := body.give
          receive := body.receive
          expiresTick := body.expiresTick })
  | .accept runId requestId offerId => .accept (Wire.command runId requestId offerId)
  | .withdraw runId requestId objectId => .withdraw (Wire.command runId requestId objectId)
  | .sync runId => .sync { type := 1, protocolVersion := Codec.PROTOCOL_VERSION, runId }

@[simp] theorem ClientMessage.runId?_toWire (m : ClientMessage) :
    m.toWire.runId? = some m.runId := by
  cases m <;> rfl

namespace Codec

def buildReady (runId : String) (ready : Bool) (snapshotSequence : Nat) : Wire.ClientMessage :=
  .ready { type := 1, protocolVersion := PROTOCOL_VERSION, runId, ready, snapshotSequence }

theorem resourceToWire_mem (r : Resource) : resourceToWire r ∈ [1, 2, 3] := by
  cases r <;> decide

/-- What a builder makes is in range where its integers fit into their fields. -/
theorem inRange_toWire {m : ClientMessage} (h : m.Encodable) : m.toWire.InRange := by
  have hlist : ∀ items : List Resource, ∀ n ∈ items.map resourceToWire, n ∈ [1, 2, 3] := by
    intro items n hn
    obtain ⟨r, -, rfl⟩ := List.mem_map.mp hn
    exact resourceToWire_mem r
  cases m with
  | advertise runId requestId body => exact ⟨rfl, hlist _, hlist _, h⟩
  | offer runId requestId body => exact ⟨rfl, h.1, h.2.1, h.2.2⟩
  | accept runId requestId offerId => exact rfl
  | withdraw runId requestId objectId => exact rfl
  | sync runId => exact rfl

end Codec

end PlanetCharlu
