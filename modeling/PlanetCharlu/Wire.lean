import PlanetCharlu.World

/-!
# Server messages and their conversion (`from_wire`, `WorldView.from_state`)

The messages of `bazaar.proto` as the client reads them, and the conversions into
domain values. Wire enum values that the source looks up in a dictionary are
numbers here, and an unknown one makes the conversion fail as the lookup does
(`KeyError`). The phase and the codes are only compared, and the parser delivers
known values of them. Wire fields that the client never reads are left out. A wire
bundle has the three quantities of a `Bundle` and nothing else.
-/

namespace PlanetCharlu

inductive ControlCode where
  | BAD_MESSAGE
  | REQUEST_CAPACITY_EXCEEDED
  | UNSUPPORTED_VERSION
  | RUN_MISMATCH
  | INVALID_AUTHENTICATION
  | SESSION_FENCED
deriving DecidableEq, Repr

namespace Wire

/-- `NullableString` and `NullableUint`. -/
structure Nullable (α : Type) where
  null : Bool
  value : α
deriving DecidableEq, Repr

/-- `None if wire.null else wire.value`. -/
def Nullable.toOption {α : Type} (wire : Nullable α) : Option α :=
  if wire.null then none else some wire.value

structure Offer where
  offerId : String
  proposerId : String
  recipientId : String
  give : Bundle
  receive : Bundle
  createdTick : Nat
  expiresTick : Nat
  status : Nat
  transactionId : Nullable String
deriving DecidableEq, Repr

structure Advertisement where
  advertisementId : String
  stationId : String
  selling : List Nat
  seeking : List Nat
  createdTick : Nat
  expiresTick : Nat
  status : Nat
deriving DecidableEq, Repr

structure Result where
  requestId : String
  ok : Bool
  code : ResultCode
  processedTick : Nat
  processedVersion : Nat
  objectId : Nullable String
  transactionId : Nullable String
  retryAfterTick : Nullable Nat
deriving DecidableEq, Repr

structure ProtocolError where
  requestId : Nullable String
  code : ControlCode
  closeSession : Bool
deriving DecidableEq, Repr

structure StationObservation where
  stationId : String
  inventory : Bundle
  health : Nat
  failedOnce : Bool
  lastProduction : Bundle
  lastUnmetUpkeep : Bundle
  shortageTicks : Nat
  currentShortageStreak : Nat
  upkeepPerTick : Bundle
  specialty : Nat
deriving DecidableEq, Repr

structure State where
  runId : String
  snapshotSequence : Nat
  worldVersion : Nat
  tick : Nat
  phase : Phase
  selfStationId : String
  rules : TradingRules
  directory : List String
  self : StationObservation
  offers : List Offer
  advertisements : List Advertisement
  transactions : List Transaction
  requestResults : List Result
deriving DecidableEq, Repr

end Wire

/-- `ServerMessage`; the last arm is a message with no arm set. -/
inductive ServerMessage where
  | state (state : Wire.State)
  | result (result : Wire.Result)
  | protocolError (error : Wire.ProtocolError)
  | readiness
  | unset
deriving DecidableEq, Repr

/-! ### Conversions -/

def resourceFromWire (value : Nat) : Except PyError Resource :=
  match value with
  | 1 => .ok .water
  | 2 => .ok .food
  | 3 => .ok .components
  | _ => .error (.keyError value)

def OfferStatus.fromWire (value : Nat) : Except PyError OfferStatus :=
  match value with
  | 1 => .ok .OPEN
  | 2 => .ok .ACCEPTED
  | 3 => .ok .WITHDRAWN
  | 4 => .ok .EXPIRED
  | 5 => .ok .RUN_ENDED
  | _ => .error (.keyError value)

def PublicationStatus.fromWire (value : Nat) : Except PyError PublicationStatus :=
  match value with
  | 1 => .ok .ACTIVE
  | 2 => .ok .REPLACED
  | 3 => .ok .WITHDRAWN
  | 4 => .ok .EXPIRED
  | 5 => .ok .RUN_ENDED
  | _ => .error (.keyError value)

def Offer.fromWire (wire : Wire.Offer) : Except PyError Offer := do
  let status ← OfferStatus.fromWire wire.status
  return {
    offerId := wire.offerId
    proposerId := wire.proposerId
    recipientId := wire.recipientId
    give := wire.give
    receive := wire.receive
    createdTick := wire.createdTick
    expiresTick := wire.expiresTick
    status
    transactionId := wire.transactionId.toOption }

def Advertisement.fromWire (wire : Wire.Advertisement) : Except PyError Advertisement := do
  let selling ← wire.selling.mapM resourceFromWire
  let seeking ← wire.seeking.mapM resourceFromWire
  let status ← PublicationStatus.fromWire wire.status
  return {
    advertisementId := wire.advertisementId
    stationId := wire.stationId
    selling := selling.toFinset
    seeking := seeking.toFinset
    createdTick := wire.createdTick
    expiresTick := wire.expiresTick
    status }

def CommandOutcome.fromWire (wire : Wire.Result) : CommandOutcome where
  requestId := wire.requestId
  ok := wire.ok
  code := wire.code
  processedVersion := wire.processedVersion
  processedTick := wire.processedTick
  objectId := wire.objectId.toOption
  transactionId := wire.transactionId.toOption
  retryAfterTick := wire.retryAfterTick.toOption

def StationSelf.fromWire (wire : Wire.StationObservation) : Except PyError StationSelf := do
  let specialty ← resourceFromWire wire.specialty
  return {
    stationId := wire.stationId
    inventory := wire.inventory
    health := wire.health
    specialty
    upkeepPerTick := wire.upkeepPerTick
    lastProduction := wire.lastProduction
    lastUnmetUpkeep := wire.lastUnmetUpkeep
    shortageTicks := wire.shortageTicks
    currentShortageStreak := wire.currentShortageStreak
    failedOnce := wire.failedOnce }

def WorldView.fromState (state : Wire.State) : Except PyError WorldView := do
  let station ← StationSelf.fromWire state.self
  let offers ← state.offers.mapM Offer.fromWire
  let advertisements ← state.advertisements.mapM Advertisement.fromWire
  return {
    rules := state.rules
    directory := state.directory
    runId := state.runId
    tick := state.tick
    phase := state.phase
    worldVersion := state.worldVersion
    snapshotSequence := state.snapshotSequence
    selfStationId := state.selfStationId
    self := station
    offers
    advertisements
    transactions := state.transactions
    requestResults := state.requestResults.map CommandOutcome.fromWire }

/-- A conversion that succeeds copies what needs no conversion. -/
theorem WorldView.fromState_eq_ok {state : Wire.State} {w : WorldView}
    (h : WorldView.fromState state = .ok w) :
    w.runId = state.runId ∧ w.snapshotSequence = state.snapshotSequence := by
  unfold WorldView.fromState at h
  rcases hself : StationSelf.fromWire state.self with e | station
  · simp [hself, bind, Except.bind] at h
  · rcases hoffers : state.offers.mapM Offer.fromWire with e | offers
    · simp [hself, hoffers, bind, Except.bind] at h
    · rcases hads : state.advertisements.mapM Advertisement.fromWire with e | advertisements
      · simp [hself, hoffers, hads, bind, Except.bind] at h
      · simp only [hself, hoffers, hads, bind, Except.bind, pure, Except.pure,
          Except.ok.injEq] at h
        subst h
        exact ⟨rfl, rfl⟩

/-- The push that `WorldView.sample` was read from, with another sequence number. -/
def Wire.State.sample (snapshotSequence : Nat) : Wire.State where
  runId := "run"
  snapshotSequence := snapshotSequence
  worldVersion := 1
  tick := 0
  phase := .RUNNING
  selfStationId := "P01"
  rules := {}
  directory := []
  self :=
    { stationId := "P01"
      inventory := { water := 50, food := 2, components := 30 }
      health := 100
      failedOnce := false
      lastProduction := {}
      lastUnmetUpkeep := {}
      shortageTicks := 0
      currentShortageStreak := 0
      upkeepPerTick := { water := 1, food := 1, components := 1 }
      specialty := 1 }
  offers := []
  advertisements :=
    [{ advertisementId := "ad-1", stationId := "P02", selling := [2], seeking := [1]
       createdTick := 0, expiresTick := 100, status := 1 }]
  transactions := []
  requestResults := []

end PlanetCharlu
