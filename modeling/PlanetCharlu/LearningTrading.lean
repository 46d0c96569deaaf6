import PlanetCharlu.Board

/-!
# `BaseStrategy.choose`, shared by `RestrainedTradingStrategy`

The two policies run one `choose` body with different class attributes
(`Policy`). They learn from settled transactions which station delivers what,
adapt their thresholds to measured latency, and keep part of the lifetime command
budget for emergencies. Latency samples and quotients are exact rationals.
-/

namespace PlanetCharlu

open StableSort FirstHit

namespace BaseStrategy

/-- The class attributes a subclass overrides, and its `can_gift`, which is also
given the subclass's `reserve_ticks`. -/
structure Policy where
  RESERVE_TICKS : Nat
  TARGET_TICKS : Nat
  SEEK_SPECIALTY_TO_TARGET : Bool
  BATCH_TICKS : Nat
  canGift : (reserveTicks : Nat) → (w : WorldView) → (available : Bundle) → (ttl : Nat) → Bool

def EMERGENCY_RESERVE : Nat := 4

def policy : Policy where
  RESERVE_TICKS := 3
  TARGET_TICKS := 6
  SEEK_SPECIALTY_TO_TARGET := false
  BATCH_TICKS := 3
  canGift := fun _ _ _ _ => true

end BaseStrategy

def RestrainedTradingStrategy.policy : BaseStrategy.Policy where
  RESERVE_TICKS := 15
  TARGET_TICKS := 15
  SEEK_SPECIALTY_TO_TARGET := true
  BATCH_TICKS := 8
  canGift := fun reserveTicks w available ttl =>
    available.covers (scaled w.self.upkeepPerTick (min (reserveTicks + ttl) w.remaining))

namespace BaseStrategy

/-! ### Learning who delivers, and how long it takes -/

def addSupplier (st : StrategyState) (stationId : String) (delivered : Bundle) : StrategyState :=
  { st with knownSuppliers := st.knownSuppliers ∪
      (resourceSet fun r => decide (quantity delivered r > 0)).image fun r => (stationId, r) }

/-- One iteration of the transaction loop of `_learn_suppliers`. -/
def learnTransaction (clock : Transaction → ℚ) (w : WorldView) (st : StrategyState)
    (tx : Transaction) : StrategyState :=
  if tx.transactionId ∈ st.seenTransactions then st
  else
    let started := st.pendingTradeTimes tx.offerId
    let st := { st with
      seenTransactions := insert tx.transactionId st.seenTransactions
      pendingTradeTimes := Function.update st.pendingTradeTimes tx.offerId none }
    let st := match started with
      | some started => st.observeLatency (clock tx - started)
      | none => st
    if tx.proposerId = w.selfStationId then addSupplier st tx.recipientId tx.receive
    else if tx.recipientId = w.selfStationId then addSupplier st tx.proposerId tx.give
    else st

/-- One iteration of the offer loop of `_learn_suppliers`. -/
def forgetClosedOffer (w : WorldView) (st : StrategyState) (o : Offer) : StrategyState :=
  if o.isExpiredBy w.tick || o.status == .WITHDRAWN || o.status == .EXPIRED ||
      o.status == .RUN_ENDED then
    { st with pendingTradeTimes := Function.update st.pendingTradeTimes o.offerId none }
  else st

def learnSuppliers (env : ChooseEnv) (st : StrategyState) (w : WorldView) : StrategyState :=
  w.offers.foldl (forgetClosedOffer w)
    (w.transactions.foldl (learnTransaction env.clock w) st)

def confirmedSuppliersOf (st : StrategyState) (resource : Resource) : Finset String :=
  (st.knownSuppliers.filter fun entry => entry.2 = resource).image Prod.fst

/-! ### Thresholds in ticks -/

def latencyTicks (st : StrategyState) (w : WorldView) : Nat :=
  let tickMs := if w.rules.tickDurationMs = 0 then 1000 else w.rules.tickDurationMs
  max 1 ⌈st.latencies.foldl max (1 : ℚ) * 1000 / (max 1 tickMs : ℕ)⌉₊

def reserveTicks (p : Policy) (st : StrategyState) (w : WorldView) : Nat :=
  max p.RESERVE_TICKS (3 + 2 * (latencyTicks st w - 1))

def targetTicks (p : Policy) (st : StrategyState) (w : WorldView) : Nat :=
  max p.TARGET_TICKS (3 + 3 * latencyTicks st w)

def urgencyTicks (st : StrategyState) (w : WorldView) : Nat :=
  max 3 (2 * latencyTicks st w + 1)

/-! ### Checks on the locals of `choose` -/

namespace Checks

variable (p : Policy) (w : WorldView) (o : Offer) (critical seeking : Finset Resource)

/-- Does the offer, seen from our side as `receive` against `give`, bring in more
of a critical resource than it takes? -/
def netsCritical (brings takes : Bundle) : Bool :=
  RESOURCES.any fun r => decide (r ∈ critical) && decide (quantity brings r > quantity takes r)

def seekingOf (notProduced : Finset Resource) (needs : Bundle) : Finset Resource :=
  resourceSet (fun r => decide (r ∈ notProduced) && decide (quantity needs r > 0)) ∪
    if w.self.specialty ∈ critical ∨
        (p.SEEK_SPECIALTY_TO_TARGET = true ∧ quantity needs w.self.specialty > 0) then
      {w.self.specialty}
    else ∅

def incoming : List Offer :=
  sortedBy (fun o => (toLex (!netsCritical critical o.give o.receive, toLex (!o.isGift,
      toLex (o.createdTick, o.offerId))) : Bool ×ₗ Bool ×ₗ ℕ ×ₗ String))
    w.openOffersToMe

def keepsReserve (available paymentReserve after : Bundle) : Bool :=
  RESOURCES.all fun r =>
    decide (quantity after r ≥ min (quantity available r) (quantity paymentReserve r))

/-- The default pays only in specialty; conservative replenishment of specialty
may use other stock under the same safety check. -/
def paysOnlySpecialty : Bool :=
  (RESOURCES.all fun r => r == w.self.specialty || quantity o.receive r == 0) ||
    (p.SEEK_SPECIALTY_TO_TARGET && decide (w.self.specialty ∈ seeking) &&
      quantity o.receive w.self.specialty == 0 && decide (quantity o.give w.self.specialty > 0))

def netsNeeded : Bool :=
  RESOURCES.any fun r =>
    decide (r ∈ seeking) && decide (quantity o.give r > quantity o.receive r)

/-- Why a paid trade is passed on, if it is. A rescue is never rationed. -/
def tradeObjection (paysOnlySpecialty netsNeeded routineOk rescuesCritical : Bool) :
    Option String :=
  let favorableOrEqual := decide (units o.give ≥ units o.receive)
  if paysOnlySpecialty && favorableOrEqual && netsNeeded && (routineOk || rescuesCritical) then none
  else if paysOnlySpecialty = false then some "would require payment beyond our specialty"
  else if favorableOrEqual = false then some "unfavorable: would give more than we receive"
  else if netsNeeded = false then some "doesn't net a resource we're seeking"
  else some "routine budget exhausted; not a rescue"

def selling (surplus : Bundle) : Finset Resource :=
  if quantity surplus w.self.specialty > 0 then {w.self.specialty} else ∅

/-- `refresh or (changed and world.tick >= self.last_ad_tick + 3)`. -/
def listingDue (lastAdTick : Int) (selling : Finset Resource) : Bool :=
  match w.ownAds.head? with
  | none => true
  | some ad =>
      decide (ad.expiresTick ≤ w.tick + 1) ||
        ((decide (ad.selling ≠ selling) || decide (ad.seeking ≠ seeking)) &&
          decide ((w.tick : Int) ≥ lastAdTick + 3))

end Checks

/-! ### The locals of `choose` -/

section Locals

variable (p : Policy) (st : StrategyState) (w : WorldView)

def reserve : Bundle := scaled w.self.upkeepPerTick (min (reserveTicks p st w) w.remaining)

def emergencyReserve : Bundle := scaled w.self.upkeepPerTick (min 3 w.remaining)

def target : Bundle := scaled w.self.upkeepPerTick (min (targetTicks p st w) w.remaining)

def urgentReserve : Bundle := scaled w.self.upkeepPerTick (min (urgencyTicks st w) w.remaining)

def surplus : Bundle := w.available.saturatingSubtract (reserve p st w)

def needs : Bundle := (target p st w).saturatingSubtract w.available

def critical : Finset Resource :=
  resourceSet fun r => decide (quantity w.available r < quantity (urgentReserve st w) r)

def notProduced : Finset Resource := resourceSet fun r => r != w.self.specialty

def budgetLeft : Int := (w.rules.maxRequestRecordsPerStation : Int) - st.usedRecords w

def routineOk : Bool := decide (budgetLeft st w > EMERGENCY_RESERVE)

def netsCritical (brings takes : Bundle) : Bool :=
  Checks.netsCritical (critical st w) brings takes

def commitmentReserve : Bundle :=
  if w.outgoing.any fun o => netsCritical st w o.receive o.give then emergencyReserve w
  else reserve p st w

def commitmentsUnsafe : Bool :=
  !(w.self.inventory.saturatingSubtract (commitmentReserve p st w)).covers w.committed

def seeking : Finset Resource :=
  Checks.seekingOf p w (critical st w) (notProduced w) (needs p st w)

/-- Incoming `give` and `receive` are from the other planet's perspective. -/
def rescuesCritical (o : Offer) : Bool := netsCritical st w o.give o.receive

def incoming : List Offer := Checks.incoming w (critical st w)

def ttl : Nat :=
  min (min (max 5 (2 * latencyTicks st w + 1)) w.rules.maxOfferTtlTicks) w.remaining

/-- Stock above the reserve across the offer's lifetime. -/
def spendable : Bundle :=
  w.available.saturatingSubtract
    (scaled w.self.upkeepPerTick (min (reserveTicks p st w + ttl st w) w.remaining))

end Locals

/-! ### Withdrawing -/

def withdrawUnsafe (env : ChooseEnv) (st : StrategyState) (w : WorldView) : Option Decision :=
  w.outgoing.findSome? fun o =>
    st.decision env w (.withdraw o.offerId) "release stock needed for upkeep"
      (Codec.buildWithdraw w.runId env.requestId o.offerId)

/-! ### Incoming offers -/

section Incoming

variable (p : Policy) (env : ChooseEnv) (st : StrategyState) (w : WorldView) (o : Offer)

def paymentReserve : Bundle :=
  if rescuesCritical st w o then emergencyReserve w else reserve p st w

def keepsReserve (after : Bundle) : Bool :=
  Checks.keepsReserve w.available (paymentReserve p st w o) after

def paysOnlySpecialty : Bool := Checks.paysOnlySpecialty p w o (seeking p st w)

def netsNeeded : Bool := Checks.netsNeeded o (seeking p st w)

def tradeObjection : Option String :=
  Checks.tradeObjection o (paysOnlySpecialty p st w o) (netsNeeded p st w o) (routineOk st w)
    (rescuesCritical st w o)

def review : Except PyError (Option Decision × String) :=
  if o.isExpiredBy w.tick then .ok (none, "expired")
  else if w.available.covers o.receive = false then
    .ok (none, "insufficient stock to cover what it asks")
  else
    match w.available.minus o.receive with
    | .error e => .error e
    | .ok rest =>
        if keepsReserve p st w o (rest + o.give) = false then
          .ok (none, "would breach the upkeep reserve")
        else if o.isGift then .ok (st.tryAccept env w o "accept free gift")
        else
          match tradeObjection p st w o with
          | some note => .ok (none, note)
          | none =>
              .ok (st.tryAccept env w o
                "accept favorable-or-equal trade for a resource we need")

end Incoming

/-! ### The public listing -/

def selling (p : Policy) (st : StrategyState) (w : WorldView) : Finset Resource :=
  Checks.selling w (surplus p st w)

def listingDue (p : Policy) (st : StrategyState) (w : WorldView) : Bool :=
  Checks.listingDue w (seeking p st w) st.lastAdTick (selling p st w)

def advertisement (p : Policy) (env : ChooseEnv) (st : StrategyState) (w : WorldView) :
    Option Decision :=
  if routineOk st w = true ∧ (selling p st w ∪ seeking p st w).Nonempty ∧
      listingDue p st w = true then
    let adTtl := min (min 10 w.rules.maxPublicationTtlTicks) w.remaining
    if adTtl > 0 then
      st.decision env w .advertise "publish specialty surplus and unproduced-resource needs"
        (Codec.buildAdvertise w.runId env.requestId (sortedByValue (selling p st w))
          (sortedByValue (seeking p st w)) (w.tick + adTtl))
    else none
  else none

/-! ### Purchases -/

section Purchases

variable (p : Policy) (env : ChooseEnv) (st : StrategyState) (w : WorldView)

/-- Critical resources first, then the shortest supply. -/
def wanted : List Resource :=
  sortedBy (fun r => (toLex (decide (r ∉ critical st w),
      (quantity w.available r : ℚ) / (max 1 (quantity w.self.upkeepPerTick r) : ℕ)) :
        Bool ×ₗ ℚ))
    (env.order.iterate (seeking p st w))

/-- Once a partner has delivered this resource, nobody else's claim is trusted. -/
def pool (need : Resource) : List Advertisement :=
  (st.ads w).filter fun a =>
    decide (need ∈ a.selling) &&
      (decide (confirmedSuppliersOf st need = ∅) ||
        decide (a.stationId ∈ confirmedSuppliersOf st need))

def paymentOptions (need : Resource) : List Resource :=
  if need = w.self.specialty then sortedByValue (notProduced w) else [w.self.specialty]

def payPool (need : Resource) : Bundle :=
  if need ∈ critical st w then w.available.saturatingSubtract (emergencyReserve w)
  else spendable p st w

def cap (need : Resource) : Nat :=
  max (if need ∈ critical st w then 6 else 3)
    (quantity w.self.upkeepPerTick need *
      max (3 * latencyTicks st w) (if need ∈ critical st w then 3 else p.BATCH_TICKS))

def purchaseAmount (need payment : Resource) : Nat :=
  min (min (cap p st w need) (quantity (payPool p st w need) payment))
    (quantity (needs p st w) need)

def purchaseReason (need payment : Resource) (stationId : String) : String :=
  "trade " ++ payment.value ++ " for needed " ++ need.value ++ " with " ++ stationId ++
    if stationId ∈ confirmedSuppliersOf st need then " (confirmed supplier)" else ""

/-- The purchase loop. A pending advertisement and an exhausted routine budget
both hold back every purchase that is not urgent. -/
def purchase (advertised : Bool) : Option Decision :=
  (wanted p env st w).findSome? fun need =>
    if advertised = true ∧ need ∉ critical st w then none
    else if need ∉ critical st w ∧ routineOk st w = false then none
    else (pool st w need).findSome? fun ad =>
      (paymentOptions w need).findSome? fun payment =>
        if payment ∉ ad.seeking then none
        else
          let amount := purchaseAmount p st w need payment
          if amount ≤ 0 then none
          else st.decision env w (.partner ad.stationId)
            (purchaseReason st need payment ad.stationId)
            (Codec.buildOffer w.runId env.requestId ad.stationId (bundleOf payment amount)
              (bundleOf need amount) (w.tick + ttl st w))

end Purchases

/-! ### Gifts -/

def giftAmount (p : Policy) (st : StrategyState) (w : WorldView) : Nat :=
  min 2 (quantity (spendable p st w) w.self.specialty)

def gift (p : Policy) (env : ChooseEnv) (st : StrategyState) (w : WorldView) : Option Decision :=
  if routineOk st w = true ∧ p.canGift (reserveTicks p st w) w w.available (ttl st w) = true then
    (st.ads w).findSome? fun ad =>
      if w.self.specialty ∉ ad.seeking ∨ giftAmount p st w ≤ 0 then none
      else st.decision env w (.partner ad.stationId)
        ("share surplus " ++ w.self.specialty.value ++ " with " ++ ad.stationId)
        (Codec.buildOffer w.runId env.requestId ad.stationId
          (bundleOf w.self.specialty (giftAmount p st w)) Bundle.zero (w.tick + ttl st w))
  else none

/-! ### The body -/

/-- What `choose` decides once no incoming offer was accepted. -/
def initiate (p : Policy) (env : ChooseEnv) (st : StrategyState) (w : WorldView) :
    Option Decision :=
  let advertised := advertisement p env st w
  if w.outgoing.length ≥ w.rules.maxOpenOutgoingOffers then advertised
  else if ttl st w ≤ 0 then advertised
  else
    match purchase p env st w advertised.isSome with
    | some action => some action
    | none =>
        match advertised with
        | some action => some action
        | none => gift p env st w

def chooseBody (p : Policy) (env : ChooseEnv) (st : StrategyState) (w : WorldView) :
    Except PyError (Option Decision × List (Offer × String)) :=
  if st.gateClosed w then .ok (none, [])
  else if w.remaining = 0 then .ok (none, [])
  else if commitmentsUnsafe p st w then .ok (withdrawUnsafe env st w, [])
  else
    match scan (review p env st w) (incoming st w) with
    | .error e => .error e
    | .ok (some action, notes) => .ok (some action, notes)
    | .ok (none, notes) => .ok (initiate p env st w, notes)

/-- The state in which the body decides: suppliers learned, tick entered. -/
def prepare (env : ChooseEnv) (st : StrategyState) (w : WorldView) : StrategyState :=
  (learnSuppliers env st w).enterTick w

def choose (p : Policy) (env : ChooseEnv) (st : StrategyState) (w : WorldView) :
    Except PyError (StrategyState × Option Decision) :=
  let st := prepare env st w
  match chooseBody p env st w with
  | .error e => .error e
  | .ok (action, notes) => .ok ({ st with lastOfferReview := notes }, action)

end BaseStrategy

end PlanetCharlu
