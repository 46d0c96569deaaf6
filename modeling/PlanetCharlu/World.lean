import PlanetCharlu.Resources

/-!
# The client's view of the world (`domain/*.py`)

Offers, advertisements, transactions, command outcomes, our own station, the
trading rules, and the snapshot (`WorldView`) that holds them. Wire integers are
naturals. The protobuf enumerations are closed, so they are inductive types.
-/

namespace PlanetCharlu

/-! ### Offers (`domain/offers.py`) -/

inductive OfferStatus where
  | OPEN
  | ACCEPTED
  | WITHDRAWN
  | EXPIRED
  | RUN_ENDED
deriving DecidableEq, Repr

/-- A proposed exchange; `give` and `receive` are from the proposer's side. -/
structure Offer where
  offerId : String
  proposerId : String
  recipientId : String
  give : Bundle
  receive : Bundle
  createdTick : Nat
  expiresTick : Nat
  status : OfferStatus
  transactionId : Option String
deriving DecidableEq, Repr

namespace Offer

def isOpen (o : Offer) : Bool := o.status == .OPEN

/-- The deadline is exclusive: the expiry tick itself is already too late. -/
def isExpiredBy (o : Offer) (tick : Nat) : Bool := decide (tick ≥ o.expiresTick)

def isGift (o : Offer) : Bool := o.receive.isZero

def proposedBy (o : Offer) (stationId : String) : Bool := o.proposerId == stationId

def directedTo (o : Offer) (stationId : String) : Bool := o.recipientId == stationId

/-- `(other_party_id, we_would_give, we_would_receive)`. -/
def relativeTo (o : Offer) (stationId : String) : String × Bundle × Bundle :=
  if o.proposerId = stationId then (o.recipientId, o.give, o.receive)
  else (o.proposerId, o.receive, o.give)

@[simp] theorem isOpen_iff (o : Offer) : o.isOpen = true ↔ o.status = .OPEN := by
  simp [isOpen]

@[simp] theorem isExpiredBy_eq_false (o : Offer) (tick : Nat) :
    o.isExpiredBy tick = false ↔ tick < o.expiresTick := by
  simp [isExpiredBy]

end Offer

/-! ### Advertisements (`domain/advertisements.py`) -/

inductive PublicationStatus where
  | ACTIVE
  | REPLACED
  | WITHDRAWN
  | EXPIRED
  | RUN_ENDED
deriving DecidableEq, Repr

structure Advertisement where
  advertisementId : String
  stationId : String
  selling : Finset Resource
  seeking : Finset Resource
  createdTick : Nat
  expiresTick : Nat
  status : PublicationStatus
deriving DecidableEq

namespace Advertisement

def isActive (a : Advertisement) : Bool := a.status == .ACTIVE

def isExpiredBy (a : Advertisement) (tick : Nat) : Bool := decide (tick ≥ a.expiresTick)

def postedBy (a : Advertisement) (stationId : String) : Bool := a.stationId == stationId

end Advertisement

/-! ### Transactions (`domain/transactions.py`) -/

structure Transaction where
  transactionId : String
  offerId : String
  proposerId : String
  recipientId : String
  give : Bundle
  receive : Bundle
  settledTick : Nat
deriving DecidableEq, Repr

namespace Transaction

def involves (tx : Transaction) (stationId : String) : Bool :=
  tx.proposerId == stationId || tx.recipientId == stationId

/-- `(counterparty_id, we_gave, we_received)`. -/
def relativeTo (tx : Transaction) (stationId : String) : String × Bundle × Bundle :=
  if tx.proposerId = stationId then (tx.recipientId, tx.give, tx.receive)
  else (tx.proposerId, tx.receive, tx.give)

end Transaction

/-! ### Command outcomes (`domain/outcomes.py`) -/

inductive ResultCode where
  | OK
  | REQUEST_ID_CONFLICT
  | RUN_NOT_RUNNING
  | RATE_LIMITED
  | INVALID_ARGUMENT
  | NOT_FOUND
  | EXPIRED
  | NOT_OPEN
  | LIMIT_REACHED
  | INSUFFICIENT_RESOURCES
  | STATION_FAILED
deriving DecidableEq, Repr

structure CommandOutcome where
  requestId : String
  ok : Bool
  code : ResultCode
  objectId : Option String
  transactionId : Option String
  retryAfterTick : Option Nat
  processedVersion : Nat := 0
  processedTick : Nat := 0
deriving DecidableEq, Repr

/-! ### Our station and the rules (`domain/station.py`, `domain/world.py`) -/

structure StationSelf where
  stationId : String
  inventory : Bundle
  health : Nat
  specialty : Resource
  upkeepPerTick : Bundle
  lastProduction : Bundle
  lastUnmetUpkeep : Bundle
  shortageTicks : Nat
  currentShortageStreak : Nat
  failedOnce : Bool
deriving DecidableEq, Repr

structure TradingRules where
  durationTicks : Nat := 100
  maxPublicationTtlTicks : Nat := 10
  maxOfferTtlTicks : Nat := 3
  newCommandsPerStationPerTick : Nat := 1
  maxRequestRecordsPerStation : Nat := 100
  maxOpenOutgoingOffers : Nat := 8
  maxCommandBytes : Nat := 16384
  tickDurationMs : Nat := 1000
deriving DecidableEq, Repr

inductive Phase where
  | READY
  | RUNNING
  | PAUSED
  | FINISHED
  | ABORTED
deriving DecidableEq, Repr

/-- One complete server snapshot. -/
structure WorldView where
  runId : String
  tick : Nat
  phase : Phase
  worldVersion : Nat
  snapshotSequence : Nat
  selfStationId : String
  self : StationSelf
  offers : List Offer
  advertisements : List Advertisement
  transactions : List Transaction
  requestResults : List CommandOutcome
  rules : TradingRules := {}
  directory : List String := []
deriving DecidableEq

namespace WorldView

def isRunning (w : WorldView) : Bool := w.phase == .RUNNING

def openOffersFromMe (w : WorldView) : List Offer :=
  w.offers.filter fun o => o.isOpen && o.proposedBy w.selfStationId

def openOffersToMe (w : WorldView) : List Offer :=
  w.offers.filter fun o => o.isOpen && o.directedTo w.selfStationId

/-- `max(0, rules.duration_ticks - world.tick)`. -/
def remaining (w : WorldView) : Nat := w.rules.durationTicks - w.tick

/-- `[o for o in world.open_offers_from_me() if not o.is_expired_by(world.tick)]`. -/
def outgoing (w : WorldView) : List Offer :=
  w.openOffersFromMe.filter fun o => !o.isExpiredBy w.tick

/-- The `committed` accumulator of both `choose` bodies, over a list of offers. -/
def committedIn (offers : List Offer) : Bundle :=
  offers.foldl (fun committed o => committed + o.give) Bundle.zero

/-- What our open unexpired offers promise away. -/
def committed (w : WorldView) : Bundle := committedIn w.outgoing

/-- `world.self.inventory.saturating_subtract(committed)`. -/
def available (w : WorldView) : Bundle := w.self.inventory.saturatingSubtract w.committed

theorem mem_openOffersToMe {w : WorldView} {o : Offer} :
    o ∈ w.openOffersToMe ↔
      o ∈ w.offers ∧ o.status = .OPEN ∧ o.recipientId = w.selfStationId := by
  simp [openOffersToMe, Offer.directedTo]

/-- The accumulator is a sum, one resource at a time. -/
theorem quantity_committedIn (offers : List Offer) (r : Resource) :
    quantity (committedIn offers) r = (offers.map fun o => quantity o.give r).sum := by
  have hacc : ∀ (l : List Offer) (acc : Bundle),
      quantity (l.foldl (fun committed o => committed + o.give) acc) r =
        quantity acc r + (l.map fun o => quantity o.give r).sum := by
    intro l
    induction l with
    | nil => simp
    | cons o rest ih =>
        intro acc
        rw [List.foldl_cons, ih, quantity_add, List.map_cons, List.sum_cons]
        omega
  simpa [committedIn] using hacc offers Bundle.zero

theorem quantity_committedIn_append (xs ys : List Offer) (r : Resource) :
    quantity (committedIn (xs ++ ys)) r =
      quantity (committedIn xs) r + quantity (committedIn ys) r := by
  simp [quantity_committedIn]

theorem give_le_committedIn {offers : List Offer} {o : Offer} (ho : o ∈ offers) (r : Resource) :
    quantity o.give r ≤ quantity (committedIn offers) r := by
  rw [quantity_committedIn]
  exact List.single_le_sum (by simp) _ (List.mem_map_of_mem ho)

@[simp] theorem quantity_available (w : WorldView) (r : Resource) :
    quantity w.available r = quantity w.self.inventory r - quantity w.committed r := by
  simp [available]

/-- An early snapshot of station `P01`, which produces water and runs short of
food, with one partner that sells food for water. -/
def sample : WorldView where
  runId := "run"
  tick := 0
  phase := .RUNNING
  worldVersion := 1
  snapshotSequence := 1
  selfStationId := "P01"
  self :=
    { stationId := "P01"
      inventory := { water := 50, food := 2, components := 30 }
      health := 100
      specialty := .water
      upkeepPerTick := { water := 1, food := 1, components := 1 }
      lastProduction := {}
      lastUnmetUpkeep := {}
      shortageTicks := 0
      currentShortageStreak := 0
      failedOnce := false }
  offers := []
  advertisements :=
    [{ advertisementId := "ad-1", stationId := "P02", selling := {.food}, seeking := {.water}
       createdTick := 0, expiresTick := 100, status := .ACTIVE }]
  transactions := []
  requestResults := []

end WorldView

end PlanetCharlu
