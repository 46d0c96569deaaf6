import PlanetCharlu.Board

/-!
# `SimplifiedTradingStrategy.choose`

Two moves: refill below fifteen ticks toward twenty-five, share above
twenty-five. The definitions follow the source in order; each local of the source
body that more than one step reads is a definition of its own.
-/

namespace PlanetCharlu.SimplifiedTradingStrategy

open StableSort FirstHit

def RESERVE_TICKS : Nat := 5
def REORDER_TICKS : Nat := 15
def TARGET_TICKS : Nat := 25
def OFFER_TTL_TICKS : Nat := 5

/-! ### Checks on the locals of `choose` -/

namespace Checks

variable (w : WorldView) (o : Offer)

/-- The test that sends the strategy into withdrawing. -/
def commitmentsUnsafe (committed available guard : Bundle) : Bool :=
  !w.self.inventory.covers committed ||
    RESOURCES.any fun r =>
      decide (quantity committed r > 0) && decide (quantity available r < quantity guard r)

/-- `safe`: no resource falls below what it has, or below the guard. -/
def keepsGuard (available guard after : Bundle) : Bool :=
  RESOURCES.all fun r =>
    decide (quantity after r ≥ min (quantity available r) (quantity guard r))

def useful (available target : Bundle) : Bool :=
  RESOURCES.any fun r =>
    decide (quantity available r < quantity target r) &&
      decide (quantity o.give r > quantity o.receive r)

/-- The checks on an incoming offer that asks for a payment. -/
def tradeObjection (keepsGuard specialtyPayment sparePayment useful : Bool) : Option String :=
  if keepsGuard = false then some "would breach the upkeep reserve through pending offer expiry"
  else if (specialtyPayment || sparePayment) = false then
    some "would require payment beyond safe specialty or spare stock"
  else if units o.give < units o.receive then
    some "unfavorable: would give more than we receive"
  else if useful = false then some "doesn't replenish a resource below target"
  else none

def selling (spendable : Bundle) : Finset Resource :=
  if quantity spendable w.self.specialty > 0 then {w.self.specialty} else ∅

/-- The listing is absent, about to expire, or no longer what we would say. -/
def listingDue (selling seeking : Finset Resource) : Bool :=
  match w.ownAds.head? with
  | none => true
  | some ownAd =>
      decide (ownAd.expiresTick ≤ w.tick + 1) || decide (ownAd.selling ≠ selling) ||
        decide (ownAd.seeking ≠ seeking)

end Checks

/-! ### The locals of `choose` -/

/-- Resources one of our open offers already buys. -/
def pending (w : WorldView) : Finset Resource :=
  resourceSet fun r => w.outgoing.any fun o => decide (quantity o.receive r > quantity o.give r)

/-- `max((o.expires_tick - world.tick for o in outgoing), default=0)`. -/
def horizon (w : WorldView) : Nat :=
  (w.outgoing.map fun o => o.expiresTick - w.tick).foldl max 0

def guard (w : WorldView) : Bundle :=
  scaled w.self.upkeepPerTick (min (RESERVE_TICKS + horizon w) w.remaining)

def target (w : WorldView) : Bundle :=
  scaled w.self.upkeepPerTick (min TARGET_TICKS w.remaining)

def reorder (w : WorldView) : Bundle :=
  scaled w.self.upkeepPerTick (min REORDER_TICKS w.remaining)

def seeking (w : WorldView) : Finset Resource :=
  resourceSet fun r => decide (quantity w.available r < quantity (reorder w) r)

def commitmentsUnsafe (w : WorldView) : Bool :=
  Checks.commitmentsUnsafe w w.committed w.available (guard w)

/-- Ticks of upkeep in stock; infinite for a resource that is not consumed. -/
def coverage (w : WorldView) (resource : Resource) : WithTop ℚ :=
  let rate := quantity w.self.upkeepPerTick resource
  if rate ≠ 0 then (((quantity w.available resource : ℚ) / rate : ℚ) : WithTop ℚ) else ⊤

def wanted (env : ChooseEnv) (w : WorldView) : List Resource :=
  sortedBy (coverage w) (env.order.iterate (seeking w))

/-- `min((coverage(r) for r in RESOURCES if give_r > receive_r), default=inf)`. -/
def netCoverage (w : WorldView) (o : Offer) : WithTop ℚ :=
  ((RESOURCES.filter fun r => quantity o.give r > quantity o.receive r).map
    (coverage w)).foldl min ⊤

def incoming (w : WorldView) : List Offer :=
  sortedBy (fun o => (toLex (!o.isGift, toLex (netCoverage w o,
      toLex (o.createdTick, o.offerId))) : Bool ×ₗ WithTop ℚ ×ₗ ℕ ×ₗ String))
    w.openOffersToMe

def ttl (w : WorldView) : Nat :=
  min (min OFFER_TTL_TICKS w.rules.maxOfferTtlTicks) w.remaining

def paymentGuard (w : WorldView) : Bundle :=
  scaled w.self.upkeepPerTick (min (RESERVE_TICKS + max (horizon w) (ttl w)) w.remaining)

def spendable (w : WorldView) : Bundle := w.available.saturatingSubtract (paymentGuard w)

def canOffer (w : WorldView) : Bool :=
  decide (ttl w > 0) && decide (w.outgoing.length < w.rules.maxOpenOutgoingOffers)

/-! ### Withdrawing -/

def withdrawUnsafe (env : ChooseEnv) (st : StrategyState) (w : WorldView) : Option Decision :=
  (sortedBy (fun o => -(units o.give : Int)) w.outgoing).findSome? fun o =>
    st.decision env w (.withdraw o.offerId) "release unsafe payment commitment"
      (Codec.buildWithdraw w.runId env.requestId o.offerId)

/-! ### Incoming offers -/

def keepsGuard (w : WorldView) (after : Bundle) : Bool :=
  Checks.keepsGuard w.available (guard w) after

def specialtyPayment (w : WorldView) (o : Offer) : Bool :=
  RESOURCES.all fun r => r == w.self.specialty || quantity o.receive r == 0

/-- Recover specialty only by spending other resources above target. -/
def sparePayment (w : WorldView) (o : Offer) : Bool :=
  decide (w.self.specialty ∈ seeking w) && decide (quantity o.give w.self.specialty > 0) &&
    quantity o.receive w.self.specialty == 0 &&
    (w.available.saturatingSubtract (target w)).covers o.receive

def useful (w : WorldView) (o : Offer) : Bool := Checks.useful o w.available (target w)

/-- The checks given the stock that the payment would leave. -/
def tradeObjection (w : WorldView) (o : Offer) (after : Bundle) : Option String :=
  Checks.tradeObjection o (keepsGuard w after) (specialtyPayment w o) (sparePayment w o)
    (useful w o)

/-- The `note` of the loop body: why an incoming offer is passed on, if it is. -/
def objection (w : WorldView) (o : Offer) : Except PyError (Option String) :=
  if o.isExpiredBy w.tick then .ok (some "expired")
  else if w.available.covers o.receive = false then
    .ok (some "insufficient stock to cover what it asks")
  else if o.isGift then .ok none
  else
    match w.available.minus o.receive with
    | .error e => .error e
    | .ok rest => .ok (tradeObjection w o (rest + o.give))

def review (env : ChooseEnv) (st : StrategyState) (w : WorldView) (o : Offer) :
    Except PyError (Option Decision × String) :=
  match objection w o with
  | .error e => .error e
  | .ok (some note) => .ok (none, note)
  | .ok none =>
      .ok (st.tryAccept env w o
        (if o.isGift then "accept free gift" else "accept safe replenishment trade"))

/-! ### Move 1: refill the shortest supply, without ordering it twice -/

def payments (w : WorldView) (need : Resource) : List Resource :=
  if need ≠ w.self.specialty then [w.self.specialty]
  else sortedBy (fun r => OrderDual.toDual (coverage w r))
    (RESOURCES.filter fun r => r ≠ w.self.specialty)

/-- In the source the difference of target and stock is an integer. Its positive
part is all that matters: an amount that is not positive is skipped. -/
def refillAmount (w : WorldView) (need payment : Resource) : Nat :=
  let capacity := quantity (spendable w) payment
  let capacity :=
    if need = w.self.specialty then
      min capacity (quantity (w.available.saturatingSubtract (target w)) payment)
    else capacity
  min (quantity (target w) need - quantity w.available need) capacity

def refill (env : ChooseEnv) (st : StrategyState) (w : WorldView) : Option Decision :=
  (wanted env w).findSome? fun need =>
    if need ∈ pending w then none
    else (st.ads w).findSome? fun ad =>
      if need ∉ ad.selling then none
      else (payments w need).findSome? fun payment =>
        if payment ∉ ad.seeking then none
        else
          let amount := refillAmount w need payment
          if amount > 0 then
            st.decision env w (.partner ad.stationId)
              ("refill " ++ need.value ++ " toward 25 ticks with " ++ ad.stationId)
              (Codec.buildOffer w.runId env.requestId ad.stationId (bundleOf payment amount)
                (bundleOf need amount) (w.tick + ttl w))
          else none

/-! ### The public listing -/

def selling (w : WorldView) : Finset Resource := Checks.selling w (spendable w)

def listingDue (w : WorldView) : Bool := Checks.listingDue w (selling w) (seeking w)

def publish (env : ChooseEnv) (st : StrategyState) (w : WorldView) : Option Decision :=
  if (selling w ∪ seeking w).Nonempty ∧ listingDue w = true then
    let adTtl := min (min 10 w.rules.maxPublicationTtlTicks) w.remaining
    if adTtl > 0 then
      st.decision env w .advertise "publish surplus and replenishment needs"
        (Codec.buildAdvertise w.runId env.requestId (sortedByValue (selling w))
          (sortedByValue (seeking w)) (w.tick + adTtl))
    else none
  else none

/-! ### Move 2: small gifts, only while every resource stays at the target -/

def giftAmount (w : WorldView) : Nat :=
  min (min 2 (quantity (spendable w) w.self.specialty))
    (quantity (w.available.saturatingSubtract (target w)) w.self.specialty)

def share (env : ChooseEnv) (st : StrategyState) (w : WorldView) :
    Except PyError (Option Decision) :=
  let amount := giftAmount w
  if amount > 0 then
    match w.available.minus (bundleOf w.self.specialty amount) with
    | .error e => .error e
    | .ok rest =>
        if rest.covers (target w) then
          .ok ((st.ads w).findSome? fun ad =>
            if w.self.specialty ∈ ad.seeking then
              st.decision env w (.partner ad.stationId)
                ("share surplus " ++ w.self.specialty.value ++ " while retaining 25 ticks")
                (Codec.buildOffer w.runId env.requestId ad.stationId
                  (bundleOf w.self.specialty amount) Bundle.zero (w.tick + ttl w))
            else none)
        else .ok none
  else .ok none

/-! ### The body -/

/-- What `choose` decides once no incoming offer was accepted. -/
def initiate (env : ChooseEnv) (st : StrategyState) (w : WorldView) :
    Except PyError (Option Decision) :=
  match (if canOffer w then refill env st w else none) with
  | some action => .ok (some action)
  | none =>
      match publish env st w with
      | some action => .ok (some action)
      | none => if canOffer w then share env st w else .ok none

/-- The body of `choose` after the tick bookkeeping: the decision and the offers
reviewed on the way. -/
def chooseBody (env : ChooseEnv) (st : StrategyState) (w : WorldView) :
    Except PyError (Option Decision × List (Offer × String)) :=
  if st.gateClosed w || w.remaining == 0 then .ok (none, [])
  else if commitmentsUnsafe w then .ok (withdrawUnsafe env st w, [])
  else
    match scan (review env st w) (incoming w) with
    | .error e => .error e
    | .ok (some action, notes) => .ok (some action, notes)
    | .ok (none, notes) =>
        match initiate env st w with
        | .error e => .error e
        | .ok action => .ok (action, notes)

def choose (env : ChooseEnv) (st : StrategyState) (w : WorldView) :
    Except PyError (StrategyState × Option Decision) :=
  let st := st.enterTick w
  match chooseBody env st w with
  | .error e => .error e
  | .ok (action, notes) => .ok ({ st with lastOfferReview := notes }, action)

end PlanetCharlu.SimplifiedTradingStrategy
