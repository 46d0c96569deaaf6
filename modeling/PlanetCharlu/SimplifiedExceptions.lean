import PlanetCharlu.SimplifiedMoves
import PlanetCharlu.LearningExceptions

/-!
# `SimplifiedTradingStrategy.choose` with all its exceptions

The body once more, as `LearningExceptions` has the other one. Here a coverage is a quotient
that is taken only where something is consumed, and the amount of a refill is a difference
that may be negative.
-/

namespace PlanetCharlu.SimplifiedTradingStrategy.Raising

open StableSort FirstHit
open BaseStrategy.Raising (remaining remaining_eq min_remaining committed_eq deadline_lt
  buildOffer_within listingTtl_eq buildListing_eq quantity_available_lt)

/-! ### The locals of `choose` -/

structure Locals where
  committed : Bundle
  available : Bundle
  horizon : Int
  guard : Bundle
  target : Bundle
  reorder : Bundle
  seeking : Finset Resource

/-- `max((o.expires_tick - world.tick for o in outgoing), default=0)`. -/
def horizon (w : WorldView) : Int :=
  match w.outgoing.map fun o => (o.expiresTick : Int) - w.tick with
  | [] => 0
  | first :: rest => rest.foldl max first

def locals (w : WorldView) : Except Raised Locals := do
  let committed ← w.outgoing.foldlM (fun committed o => Raising.add committed o.give)
    Bundle.zero
  let available ← Raising.saturatingSubtract w.self.inventory committed
  let horizon := horizon w
  let guard ← Raising.scaled w.self.upkeepPerTick (min (RESERVE_TICKS + horizon) (remaining w))
  let target ← Raising.scaled w.self.upkeepPerTick (min TARGET_TICKS (remaining w))
  let reorder ← Raising.scaled w.self.upkeepPerTick (min REORDER_TICKS (remaining w))
  let seeking := resourceSet fun r => decide (quantity available r < quantity reorder r)
  return { committed, available, horizon, guard, target, reorder, seeking }

section Locals

variable (env : ChooseEnv) (st : StrategyState) (w : WorldView) (l : Locals)

def commitmentsUnsafe : Bool := Checks.commitmentsUnsafe w l.committed l.available l.guard

def coverage (resource : Resource) : Except Raised (WithTop ℚ) := do
  let rate := quantity w.self.upkeepPerTick resource
  if rate ≠ 0 then return ((← Raising.trueDiv (quantity l.available resource) rate : ℚ) : WithTop ℚ)
  else return ⊤

def wanted : Except Raised (List Resource) :=
  sortedByM (coverage w l) (env.order.iterate l.seeking)

def netCoverage (o : Offer) : Except Raised (WithTop ℚ) := do
  let coverages ← (RESOURCES.filter fun r => quantity o.give r > quantity o.receive r).mapM
    (coverage w l)
  return coverages.foldl min ⊤

def incoming : Except Raised (List Offer) :=
  sortedByM (fun o => do
      return (toLex (!o.isGift, toLex (← netCoverage w l o, toLex (o.createdTick, o.offerId))) :
        Bool ×ₗ WithTop ℚ ×ₗ ℕ ×ₗ String))
    w.openOffersToMe

/-! ### Incoming offers -/

section Incoming

variable (o : Offer)

def keepsGuard (after : Bundle) : Bool := Checks.keepsGuard l.available l.guard after

def sparePayment : Except Raised Bool :=
  if w.self.specialty ∈ l.seeking ∧ quantity o.give w.self.specialty > 0 ∧
      quantity o.receive w.self.specialty = 0 then do
    let spare ← Raising.saturatingSubtract l.available l.target
    return spare.covers o.receive
  else return false

def useful : Bool := Checks.useful o l.available l.target

def tradeObjection (after : Bundle) : Except Raised (Option String) := do
  let sparePayment ← sparePayment w l o
  return Checks.tradeObjection o (keepsGuard l after) (specialtyPayment w o) sparePayment
    (useful l o)

def objection : Except Raised (Option String) :=
  if o.isExpiredBy w.tick then return some "expired"
  else if l.available.covers o.receive = false then
    return some "insufficient stock to cover what it asks"
  else if o.isGift then return none
  else do
    let after ← Raising.add (← Raising.minus l.available o.receive) o.give
    tradeObjection w l o after

def review : Except Raised (Option Decision × String) := do
  match ← objection w l o with
  | some note => return (none, note)
  | none =>
      let reason := if o.isGift then "accept free gift" else "accept safe replenishment trade"
      return st.tryAccept env w o reason

end Incoming

/-! ### The two moves and the public listing -/

def ttl : Int := min (min (OFFER_TTL_TICKS : Int) w.rules.maxOfferTtlTicks) (remaining w)

def spendable : Except Raised Bundle := do
  let paymentGuard ← Raising.scaled w.self.upkeepPerTick
    (min (RESERVE_TICKS + max l.horizon (ttl w)) (remaining w))
  Raising.saturatingSubtract l.available paymentGuard

def canOffer : Bool :=
  decide (ttl w > 0) && decide (w.outgoing.length < w.rules.maxOpenOutgoingOffers)

def payments (need : Resource) : Except Raised (List Resource) :=
  if need ≠ w.self.specialty then return [w.self.specialty]
  else sortedByM (fun r => do return OrderDual.toDual (← coverage w l r))
    (RESOURCES.filter fun r => r ≠ w.self.specialty)

def refillAmount (spendable : Bundle) (need payment : Resource) : Except Raised Int := do
  let capacity : Int := quantity spendable payment
  let capacity ←
    if need = w.self.specialty then do
      let spare ← Raising.saturatingSubtract l.available l.target
      pure (min capacity (quantity spare payment))
    else pure capacity
  return min ((quantity l.target need : Int) - quantity l.available need) capacity

/-- The innermost iteration of the refill loop. -/
def refillWith (spendable : Bundle) (need : Resource) (ad : Advertisement)
    (payment : Resource) : Except Raised (Option Decision) :=
  if payment ∉ ad.seeking then return none
  else do
    let amount ← refillAmount w l spendable need payment
    if amount > 0 then
      let message ← Raising.buildOffer w.runId env.requestId ad.stationId
        (← Raising.bundleOf payment amount) (← Raising.bundleOf need amount) (w.tick + ttl w)
      return st.decision env w (.partner ad.stationId)
        ("refill " ++ need.value ++ " toward 25 ticks with " ++ ad.stationId) message
    else return none

def refill (spendable : Bundle) : Except Raised (Option Decision) := do
  (← wanted env w l).findSomeM? fun need =>
    if need ∈ pending w then return none
    else do
      let payments ← payments w l need
      (st.ads w).findSomeM? fun ad =>
        if need ∉ ad.selling then return none
        else payments.findSomeM? (refillWith env st w l spendable need ad)

def selling (spendable : Bundle) : Finset Resource := Checks.selling w spendable

def listingDue (spendable : Bundle) : Bool :=
  Checks.listingDue w (selling w spendable) l.seeking

def publish (spendable : Bundle) : Except Raised (Option Decision) :=
  if (selling w spendable ∪ l.seeking).Nonempty ∧ listingDue w l spendable = true then
    let adTtl := min (min 10 (w.rules.maxPublicationTtlTicks : Int)) (remaining w)
    if adTtl > 0 then do
      let message ← Raising.buildAdvertise w.runId env.requestId
        (sortedByValue (selling w spendable)) (sortedByValue l.seeking) (w.tick + adTtl)
      return st.decision env w .advertise "publish surplus and replenishment needs" message
    else return none
  else return none

def shareWith (amount : Int) (ad : Advertisement) : Except Raised (Option Decision) :=
  if w.self.specialty ∈ ad.seeking then do
    let message ← Raising.buildOffer w.runId env.requestId ad.stationId
      (← Raising.bundleOf w.self.specialty amount) Bundle.zero (w.tick + ttl w)
    return st.decision env w (.partner ad.stationId)
      ("share surplus " ++ w.self.specialty.value ++ " while retaining 25 ticks") message
  else return none

def share (spendable : Bundle) : Except Raised (Option Decision) := do
  let spare ← Raising.saturatingSubtract l.available l.target
  let amount := min (min 2 (quantity spendable w.self.specialty : Int))
    (quantity spare w.self.specialty)
  if amount > 0 then
    let rest ← Raising.minus l.available (← Raising.bundleOf w.self.specialty amount)
    if rest.covers l.target then (st.ads w).findSomeM? (shareWith env st w amount)
    else return none
  else return none

/-! ### The body -/

def initiate : Except Raised (Option Decision) := do
  let spendable ← spendable w l
  match ← (if canOffer w then refill env st w l spendable else return none) with
  | some action => return some action
  | none =>
      match ← publish env st w l spendable with
      | some action => return some action
      | none => if canOffer w then share env st w l spendable else return none

end Locals

def chooseBody (env : ChooseEnv) (st : StrategyState) (w : WorldView) :
    Except Raised (Option Decision × List (Offer × String)) :=
  if st.gateClosed w || remaining w == 0 then return (none, [])
  else do
    let l ← locals w
    if commitmentsUnsafe w l then return (withdrawUnsafe env st w, [])
    else
      match ← scan (review env st w l) (← incoming w l) with
      | (some action, notes) => return (some action, notes)
      | (none, notes) => return (← initiate env st w l, notes)

def choose (env : ChooseEnv) (st : StrategyState) (w : WorldView) :
    Except Raised (StrategyState × Option Decision) := do
  let st := st.enterTick w
  let (action, notes) ← chooseBody env st w
  return ({ st with lastOfferReview := notes }, action)

/-! ### Every step goes through -/

section GoesThrough

variable (env : ChooseEnv) (st : StrategyState) (w : WorldView)

theorem ticks_left_cast :
    (w.outgoing.map fun o => (o.expiresTick : Int) - w.tick) =
      (w.outgoing.map fun o => o.expiresTick - w.tick).map Nat.cast := by
  rw [List.map_map]
  apply List.map_congr_left
  intro o ho
  have hlive : w.tick < o.expiresTick := by
    rw [WorldView.outgoing, List.mem_filter, Bool.not_eq_true', Offer.isExpiredBy_eq_false] at ho
    exact ho.2
  simp only [Function.comp_apply]
  omega

theorem horizon_eq : horizon w = (SimplifiedTradingStrategy.horizon w : Int) := by
  rw [horizon, ticks_left_cast, SimplifiedTradingStrategy.horizon]
  cases w.outgoing.map fun o => o.expiresTick - w.tick with
  | nil => rfl
  | cons first rest =>
      rw [List.map_cons, List.foldl_cons, Nat.zero_max]
      dsimp only
      rw [List.foldl_map]
      exact List.foldl_hom Nat.cast fun a b => (Nat.cast_max a b).symm

/-- The locals as `SimplifiedTradingStrategy.choose` has them. -/
def naturalLocals : Locals where
  committed := w.committed
  available := w.available
  horizon := SimplifiedTradingStrategy.horizon w
  guard := SimplifiedTradingStrategy.guard w
  target := SimplifiedTradingStrategy.target w
  reorder := SimplifiedTradingStrategy.reorder w
  seeking := SimplifiedTradingStrategy.seeking w

theorem locals_eq : locals w = pure (naturalLocals w) := by
  rw [locals, committed_eq, pure_bind, Raising.saturatingSubtract_eq, pure_bind, horizon_eq]
  dsimp only
  rw [Raising.scaled_eq _ (min_remaining w (Nat.cast_add _ _).symm), pure_bind,
    Raising.scaled_eq _ (min_remaining w rfl), pure_bind,
    Raising.scaled_eq _ (min_remaining w rfl), pure_bind]
  rfl

theorem coverage_eq (resource : Resource) : coverage w (naturalLocals w) resource =
    pure (SimplifiedTradingStrategy.coverage w resource) := by
  have havailable : (naturalLocals w).available = w.available := rfl
  rw [coverage, SimplifiedTradingStrategy.coverage, havailable]
  split
  · rename_i hrate
    rw [Raising.trueDiv_eq _ (Nat.cast_ne_zero.mpr hrate)]
    rfl
  · rfl

theorem wanted_eq : wanted env w (naturalLocals w) =
    pure (SimplifiedTradingStrategy.wanted env w) := by
  rw [wanted, funext (coverage_eq w)]
  exact sortedByM_pure _ _

theorem netCoverage_eq (o : Offer) : netCoverage w (naturalLocals w) o =
    pure (SimplifiedTradingStrategy.netCoverage w o) := by
  rw [netCoverage, funext (coverage_eq w), List.mapM_pure, pure_bind]
  rfl

theorem incoming_eq : incoming w (naturalLocals w) =
    pure (SimplifiedTradingStrategy.incoming w) := by
  simp only [incoming, netCoverage_eq, pure_bind]
  exact sortedByM_pure _ _

/-! ### Incoming offers -/

theorem sparePayment_eq (o : Offer) : sparePayment w (naturalLocals w) o =
    pure (SimplifiedTradingStrategy.sparePayment w o) := by
  have havailable : (naturalLocals w).available = w.available := rfl
  have hseeking : (naturalLocals w).seeking = SimplifiedTradingStrategy.seeking w := rfl
  rw [sparePayment, SimplifiedTradingStrategy.sparePayment, hseeking, havailable,
    Raising.saturatingSubtract_eq, pure_bind]
  split
  · rename_i hspare
    obtain ⟨hsought, hgives, hasks⟩ := hspare
    simp [hsought, hgives, hasks, naturalLocals]
  · rename_i hnot
    have hfalse : (decide (w.self.specialty ∈ SimplifiedTradingStrategy.seeking w) &&
        decide (quantity o.give w.self.specialty > 0) &&
          quantity o.receive w.self.specialty == 0) = false := by
      rw [Bool.eq_false_iff]
      intro hspare
      simp only [Bool.and_eq_true, decide_eq_true_eq, beq_iff_eq] at hspare
      exact hnot ⟨hspare.1.1, hspare.1.2, hspare.2⟩
    rw [hfalse, Bool.false_and]

theorem tradeObjection_eq (o : Offer) (after : Bundle) :
    tradeObjection w (naturalLocals w) o after =
      pure (SimplifiedTradingStrategy.tradeObjection w o after) := by
  have hkeeps : keepsGuard (naturalLocals w) after =
      SimplifiedTradingStrategy.keepsGuard w after := rfl
  have huseful : useful (naturalLocals w) o = SimplifiedTradingStrategy.useful w o := rfl
  rw [tradeObjection, sparePayment_eq, pure_bind, SimplifiedTradingStrategy.tradeObjection, hkeeps,
    huseful]

theorem objection_agree (o : Offer) :
    Agree (SimplifiedTradingStrategy.objection w o) (objection w (naturalLocals w) o) := by
  have havailable : (naturalLocals w).available = w.available := rfl
  rw [SimplifiedTradingStrategy.objection, objection, havailable]
  cases o.isExpiredBy w.tick with
  | true => exact ⟨_, rfl, rfl⟩
  | false =>
      cases hcovers : w.available.covers o.receive with
      | false => exact ⟨_, rfl, rfl⟩
      | true =>
          cases o.isGift with
          | true => exact ⟨_, rfl, rfl⟩
          | false =>
              rw [Bundle.minus_of_covers hcovers, Raising.minus_eq hcovers, pure_bind,
                Raising.add_eq, pure_bind, tradeObjection_eq]
              exact ⟨_, rfl, rfl⟩

theorem review_agree (o : Offer) :
    Agree (SimplifiedTradingStrategy.review env st w o) (review env st w (naturalLocals w) o) := by
  obtain ⟨note, hnote, hnote'⟩ := objection_agree w o
  rw [SimplifiedTradingStrategy.review, review, hnote, hnote']
  cases note with
  | some note => exact ⟨_, rfl, rfl⟩
  | none => exact ⟨_, rfl, rfl⟩

/-! ### The two moves and the public listing -/

theorem ttl_eq : ttl w = (SimplifiedTradingStrategy.ttl w : Int) := by
  rw [ttl, SimplifiedTradingStrategy.ttl, remaining_eq, Nat.cast_min, Nat.cast_min]

theorem spendable_eq : spendable w (naturalLocals w) =
    pure (SimplifiedTradingStrategy.spendable w) := by
  have hguard : (RESERVE_TICKS : Int) + max (naturalLocals w).horizon (ttl w) =
      (RESERVE_TICKS + max (SimplifiedTradingStrategy.horizon w)
        (SimplifiedTradingStrategy.ttl w) : ℕ) := by
    rw [ttl_eq, Nat.cast_add, Nat.cast_max]
    rfl
  rw [spendable, Raising.scaled_eq _ (min_remaining w hguard), pure_bind,
    Raising.saturatingSubtract_eq]
  rfl

theorem canOffer_eq : canOffer w = SimplifiedTradingStrategy.canOffer w := by
  rw [canOffer, SimplifiedTradingStrategy.canOffer, ttl_eq]
  congr 1
  exact decide_eq_decide.mpr Int.natCast_pos

theorem payments_eq (need : Resource) : payments w (naturalLocals w) need =
    pure (SimplifiedTradingStrategy.payments w need) := by
  rw [payments, SimplifiedTradingStrategy.payments]
  split
  · rfl
  · simp only [coverage_eq, pure_bind]
    exact sortedByM_pure _ _

/-- The integer amount is positive where the natural one is, and then they are the same. -/
theorem refillAmount_eq (need payment : Resource) :
    ∃ amount : Int, refillAmount w (naturalLocals w) (SimplifiedTradingStrategy.spendable w) need
        payment = pure amount ∧
      max 0 amount = SimplifiedTradingStrategy.refillAmount w need payment := by
  have htarget : (naturalLocals w).target = target w := rfl
  have havailable : (naturalLocals w).available = w.available := rfl
  rw [refillAmount, SimplifiedTradingStrategy.refillAmount, htarget, havailable]
  dsimp only
  by_cases hneed : need = w.self.specialty
  · rw [if_pos hneed, if_pos hneed, Raising.saturatingSubtract_eq, pure_bind, pure_bind]
    refine ⟨_, rfl, ?_⟩
    omega
  · rw [if_neg hneed, if_neg hneed, pure_bind]
    refine ⟨_, rfl, ?_⟩
    omega

/-- What is paid for a refill is in stock, so it is a wire integer. -/
theorem refillAmount_lt {w : WorldView} (hinventory : Raising.Fits w.self.inventory)
    (need payment : Resource) :
    SimplifiedTradingStrategy.refillAmount w need payment < 2 ^ 64 := by
  have hlt := quantity_available_lt w hinventory payment
  have hspendable : quantity (SimplifiedTradingStrategy.spendable w) payment ≤
      quantity w.available payment := by
    rw [SimplifiedTradingStrategy.spendable, quantity_saturatingSubtract]
    omega
  rw [SimplifiedTradingStrategy.refillAmount]
  split <;> omega

theorem refillWith_eq (hinventory : Raising.Fits w.self.inventory)
    (hduration : w.rules.durationTicks < 2 ^ 64) (hticks : 0 < w.remaining)
    (need payment : Resource) (ad : Advertisement) :
    refillWith env st w (naturalLocals w) (SimplifiedTradingStrategy.spendable w) need ad
        payment =
      pure (if payment ∉ ad.seeking then none
        else
          if SimplifiedTradingStrategy.refillAmount w need payment > 0 then
            st.decision env w (.partner ad.stationId)
              ("refill " ++ need.value ++ " toward 25 ticks with " ++ ad.stationId)
              (Codec.buildOffer w.runId env.requestId ad.stationId
                (bundleOf payment (SimplifiedTradingStrategy.refillAmount w need payment))
                (bundleOf need (SimplifiedTradingStrategy.refillAmount w need payment))
                (w.tick + SimplifiedTradingStrategy.ttl w))
          else none) := by
  obtain ⟨amount, hamount, hmax⟩ := refillAmount_eq w need payment
  have hlt := refillAmount_lt hinventory need payment
  rw [refillWith, hamount, pure_bind, ttl_eq]
  split
  · rfl
  · split
    · rename_i hpositive
      have hsame : amount = SimplifiedTradingStrategy.refillAmount w need payment := by omega
      rw [if_pos (by omega), Raising.bundleOf_eq payment hsame, Raising.bundleOf_eq need hsame,
        pure_bind, pure_bind, buildOffer_within hduration hticks (ttl_le_remaining w) _ _ _
          (Raising.fits_bundleOf payment hlt) (Raising.fits_bundleOf need hlt), pure_bind]
    · rename_i hnone
      rw [if_neg (by omega)]

theorem refill_eq (hinventory : Raising.Fits w.self.inventory)
    (hduration : w.rules.durationTicks < 2 ^ 64) (hticks : 0 < w.remaining) :
    refill env st w (naturalLocals w) (SimplifiedTradingStrategy.spendable w) =
      pure (SimplifiedTradingStrategy.refill env st w) := by
  have hwith : ∀ need ad, refillWith env st w (naturalLocals w)
      (SimplifiedTradingStrategy.spendable w) need ad = fun payment => pure _ :=
    fun need ad => funext fun payment =>
      refillWith_eq env st w hinventory hduration hticks need payment ad
  rw [refill, wanted_eq, pure_bind, SimplifiedTradingStrategy.refill]
  simp only [payments_eq, pure_bind, hwith, List.findSomeM?_pure,
    ← apply_ite (pure : Option Decision → Except Raised (Option Decision))]

theorem publish_eq (hduration : w.rules.durationTicks < 2 ^ 64) (hticks : 0 < w.remaining) :
    publish env st w (naturalLocals w) (SimplifiedTradingStrategy.spendable w) =
      pure (SimplifiedTradingStrategy.publish env st w) := by
  have hselling : selling w (SimplifiedTradingStrategy.spendable w) =
      SimplifiedTradingStrategy.selling w := rfl
  have hseeking : (naturalLocals w).seeking = SimplifiedTradingStrategy.seeking w := rfl
  have hdue : listingDue w (naturalLocals w) (SimplifiedTradingStrategy.spendable w) =
      SimplifiedTradingStrategy.listingDue w := rfl
  rw [publish, SimplifiedTradingStrategy.publish, hselling, hseeking, hdue]
  split
  · rw [listingTtl_eq]
    dsimp only
    rw [buildListing_eq hduration hticks, pure_bind]
    split
    · rename_i hpositive
      rw [if_pos (by exact_mod_cast hpositive)]
    · rename_i hnone
      rw [if_neg (by exact_mod_cast hnone)]
  · rfl

theorem giftAmount_lt {w : WorldView} : giftAmount w < 2 ^ 64 := by
  have hle : giftAmount w ≤ 2 := (min_le_left _ _).trans (min_le_left _ _)
  omega

theorem shareWith_eq (hduration : w.rules.durationTicks < 2 ^ 64) (hticks : 0 < w.remaining)
    (ad : Advertisement) :
    shareWith env st w (giftAmount w) ad =
      pure (if w.self.specialty ∈ ad.seeking then
        st.decision env w (.partner ad.stationId)
          ("share surplus " ++ w.self.specialty.value ++ " while retaining 25 ticks")
          (Codec.buildOffer w.runId env.requestId ad.stationId
            (bundleOf w.self.specialty (giftAmount w)) Bundle.zero
            (w.tick + SimplifiedTradingStrategy.ttl w))
        else none) := by
  rw [shareWith, ttl_eq, Raising.bundleOf_eq _ rfl, pure_bind,
    buildOffer_within hduration hticks (ttl_le_remaining w) _ _ _
      (Raising.fits_bundleOf _ giftAmount_lt) Raising.fits_zero, pure_bind]
  split
  · rfl
  · rfl

/-- A gift is no more than the stock, so it can be subtracted from it. -/
theorem share_agree (hduration : w.rules.durationTicks < 2 ^ 64) (hticks : 0 < w.remaining) :
    Agree (SimplifiedTradingStrategy.share env st w)
      (share env st w (naturalLocals w) (SimplifiedTradingStrategy.spendable w)) := by
  have havailable : (naturalLocals w).available = w.available := rfl
  have htarget : (naturalLocals w).target = target w := rfl
  have hamount : min (min 2 (quantity (SimplifiedTradingStrategy.spendable w) w.self.specialty :
      Int)) (quantity (w.available.saturatingSubtract (target w)) w.self.specialty) =
        (giftAmount w : Int) := by
    rw [giftAmount, Nat.cast_min, Nat.cast_min]
    rfl
  have hshare : shareWith env st w (giftAmount w) = fun ad => pure _ :=
    funext fun ad => shareWith_eq env st w hduration hticks ad
  rw [SimplifiedTradingStrategy.share, share, havailable, htarget, Raising.saturatingSubtract_eq,
    pure_bind, hamount]
  dsimp only
  rw [Raising.bundleOf_eq _ rfl, pure_bind, hshare, List.findSomeM?_pure,
    Bundle.minus_of_covers available_covers_gift, Raising.minus_eq available_covers_gift, pure_bind]
  rcases Nat.eq_zero_or_pos (giftAmount w) with hnone | hpositive
  · rw [hnone]
    exact ⟨_, rfl, rfl⟩
  · rw [if_pos hpositive, if_pos (by exact_mod_cast hpositive)]
    dsimp only
    split
    · exact ⟨_, rfl, rfl⟩
    · exact ⟨_, rfl, rfl⟩

/-! ### The body -/

theorem initiate_agree (hinventory : Raising.Fits w.self.inventory)
    (hduration : w.rules.durationTicks < 2 ^ 64) (hticks : 0 < w.remaining) :
    Agree (SimplifiedTradingStrategy.initiate env st w)
      (initiate env st w (naturalLocals w)) := by
  obtain ⟨shared, hshare, hshare'⟩ := share_agree env st w hduration hticks
  rw [SimplifiedTradingStrategy.initiate, initiate, spendable_eq, pure_bind, canOffer_eq,
    refill_eq env st w hinventory hduration hticks, publish_eq env st w hduration hticks, pure_bind,
    hshare, hshare']
  cases SimplifiedTradingStrategy.canOffer w with
  | true =>
      cases SimplifiedTradingStrategy.refill env st w with
      | some action => exact ⟨_, rfl, rfl⟩
      | none =>
          cases SimplifiedTradingStrategy.publish env st w with
          | some action => exact ⟨_, rfl, rfl⟩
          | none => exact ⟨_, rfl, rfl⟩
  | false =>
      cases SimplifiedTradingStrategy.publish env st w with
      | some action => exact ⟨_, rfl, rfl⟩
      | none => exact ⟨_, rfl, rfl⟩

theorem chooseBody_agree (hinventory : Raising.Fits w.self.inventory)
    (hduration : w.rules.durationTicks < 2 ^ 64) :
    Agree (SimplifiedTradingStrategy.chooseBody env st w) (chooseBody env st w) := by
  have hunsafe : commitmentsUnsafe w (naturalLocals w) =
      SimplifiedTradingStrategy.commitmentsUnsafe w := rfl
  rw [SimplifiedTradingStrategy.chooseBody, chooseBody, remaining_eq]
  cases st.gateClosed w with
  | true => exact ⟨_, rfl, rfl⟩
  | false =>
      rcases Nat.eq_zero_or_pos w.remaining with hover | hticks
      · rw [hover]
        exact ⟨_, rfl, rfl⟩
      · obtain ⟨action, hinitiate, hinitiate'⟩ :=
          initiate_agree env st w hinventory hduration hticks
        have hleft : (w.remaining == 0) = false := beq_eq_false_iff_ne.mpr hticks.ne'
        have hleft' : ((w.remaining : Int) == 0) = false :=
          beq_eq_false_iff_ne.mpr (by exact_mod_cast hticks.ne')
        simp only [hleft, hleft', Bool.or_self, Bool.false_eq_true, if_false]
        rw [locals_eq, pure_bind, hunsafe, incoming_eq, pure_bind, hinitiate, hinitiate']
        cases SimplifiedTradingStrategy.commitmentsUnsafe w with
        | true => exact ⟨_, rfl, rfl⟩
        | false =>
            obtain ⟨⟨found, notes⟩, hscan, hscan'⟩ :=
              scan_agree fun o (_ : o ∈ SimplifiedTradingStrategy.incoming w) =>
                review_agree env st w o
            rw [hscan, hscan']
            cases found with
            | some action => exact ⟨_, rfl, rfl⟩
            | none => exact ⟨_, rfl, rfl⟩

theorem choose_agree (hinventory : Raising.Fits w.self.inventory)
    (hduration : w.rules.durationTicks < 2 ^ 64) :
    Agree (SimplifiedTradingStrategy.choose env st w) (choose env st w) := by
  obtain ⟨⟨action, notes⟩, hbody, hbody'⟩ :=
    chooseBody_agree env (st.enterTick w) w hinventory hduration
  rw [SimplifiedTradingStrategy.choose, choose]
  dsimp only
  rw [hbody, hbody']
  exact ⟨_, rfl, rfl⟩

end GoesThrough

end PlanetCharlu.SimplifiedTradingStrategy.Raising
