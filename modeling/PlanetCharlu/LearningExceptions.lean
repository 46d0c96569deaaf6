import PlanetCharlu.LearningMoves
import PlanetCharlu.Exceptions

/-!
# `BaseStrategy.choose` with all its exceptions

The body once more, on integers and with every operation that can raise, in the source's
order. It goes through on every snapshot whose inventory and duration are wire integers,
and decides what `BaseStrategy.choose` decides.
-/

namespace PlanetCharlu.BaseStrategy.Raising

open StableSort FirstHit

/-- The class attributes, and `can_gift` as the source computes it. -/
structure Policy extends BaseStrategy.Policy where
  mayGift : (reserveTicks : Int) → WorldView → (available : Bundle) → (ttl : Int) →
    Except Raised Bool
  mayGift_eq : ∀ (reserveTicks ttl : Nat) (w : WorldView) (available : Bundle),
    mayGift reserveTicks w available ttl = pure (canGift reserveTicks w available ttl)

/-- `max(0, rules.duration_ticks - world.tick)`. -/
def remaining (w : WorldView) : Int := max 0 ((w.rules.durationTicks : Int) - w.tick)

theorem remaining_eq (w : WorldView) : remaining w = w.remaining := by
  rw [remaining, WorldView.remaining]
  exact Raising.max_zero_sub _ _

/-! ### Thresholds in ticks -/

def latencyTicks (st : StrategyState) (w : WorldView) : Except Raised Int := do
  let tickMs := if w.rules.tickDurationMs = 0 then 1000 else w.rules.tickDurationMs
  let delay ← Raising.trueDiv (st.latencies.foldl max (1 : ℚ) * 1000) (max 1 tickMs : ℕ)
  return max 1 ⌈delay⌉

def reserveTicks (p : Policy) (st : StrategyState) (w : WorldView) : Except Raised Int := do
  return max (p.RESERVE_TICKS : Int) (3 + 2 * ((← latencyTicks st w) - 1))

def targetTicks (p : Policy) (st : StrategyState) (w : WorldView) : Except Raised Int := do
  return max (p.TARGET_TICKS : Int) (3 + 3 * (← latencyTicks st w))

def urgencyTicks (st : StrategyState) (w : WorldView) : Except Raised Int := do
  return max 3 (2 * (← latencyTicks st w) + 1)

def ttl (st : StrategyState) (w : WorldView) : Except Raised Int := do
  return min (min (max 5 (2 * (← latencyTicks st w) + 1)) (w.rules.maxOfferTtlTicks : Int))
    (remaining w)

/-! ### The locals of `choose` -/

structure Locals where
  reserveTicks : Int
  reserve : Bundle
  emergencyReserve : Bundle
  target : Bundle
  urgentReserve : Bundle
  committed : Bundle
  available : Bundle
  surplus : Bundle
  needs : Bundle
  critical : Finset Resource

def locals (p : Policy) (st : StrategyState) (w : WorldView) : Except Raised Locals := do
  let reserveTicks ← reserveTicks p st w
  let reserve ← Raising.scaled w.self.upkeepPerTick (min reserveTicks (remaining w))
  let emergencyReserve ← Raising.scaled w.self.upkeepPerTick (min 3 (remaining w))
  let target ← Raising.scaled w.self.upkeepPerTick (min (← targetTicks p st w) (remaining w))
  let urgentReserve ← Raising.scaled w.self.upkeepPerTick
    (min (← urgencyTicks st w) (remaining w))
  let committed ← w.outgoing.foldlM (fun committed o => Raising.add committed o.give)
    Bundle.zero
  let available ← Raising.saturatingSubtract w.self.inventory committed
  let surplus ← Raising.saturatingSubtract available reserve
  let needs ← Raising.saturatingSubtract target available
  let critical := resourceSet fun r =>
    decide (quantity available r < quantity urgentReserve r)
  return { reserveTicks, reserve, emergencyReserve, target, urgentReserve, committed, available,
           surplus, needs, critical }

section Locals

variable (p : Policy) (st : StrategyState) (w : WorldView) (l : Locals) (o : Offer)

def netsCritical (brings takes : Bundle) : Bool := Checks.netsCritical l.critical brings takes

def commitmentsUnsafe : Except Raised Bool := do
  let commitmentReserve :=
    if w.outgoing.any fun o => netsCritical l o.receive o.give then l.emergencyReserve
    else l.reserve
  let rest ← Raising.saturatingSubtract w.self.inventory commitmentReserve
  return !rest.covers l.committed

def seeking : Finset Resource :=
  Checks.seekingOf p.toPolicy w l.critical (notProduced w) l.needs

def rescuesCritical : Bool := netsCritical l o.give o.receive

def incoming : List Offer := Checks.incoming w l.critical

/-! ### Incoming offers -/

def keepsReserve (after : Bundle) : Bool :=
  let paymentReserve := if rescuesCritical l o then l.emergencyReserve else l.reserve
  Checks.keepsReserve l.available paymentReserve after

def tradeObjection : Option String :=
  Checks.tradeObjection o (Checks.paysOnlySpecialty p.toPolicy w o (seeking p w l))
    (Checks.netsNeeded o (seeking p w l)) (routineOk st w) (rescuesCritical l o)

def review (env : ChooseEnv) : Except Raised (Option Decision × String) :=
  if o.isExpiredBy w.tick then return (none, "expired")
  else if l.available.covers o.receive = false then
    return (none, "insufficient stock to cover what it asks")
  else do
    let after ← Raising.add (← Raising.minus l.available o.receive) o.give
    if keepsReserve l o after = false then return (none, "would breach the upkeep reserve")
    else if o.isGift then return st.tryAccept env w o "accept free gift"
    else
      match tradeObjection p st w l o with
      | some note => return (none, note)
      | none =>
          return st.tryAccept env w o "accept favorable-or-equal trade for a resource we need"

/-! ### The public listing -/

def selling : Finset Resource := Checks.selling w l.surplus

def listingDue : Bool := Checks.listingDue w (seeking p w l) st.lastAdTick (selling w l)

def advertisement (env : ChooseEnv) : Except Raised (Option Decision) :=
  if routineOk st w = true ∧ (selling w l ∪ seeking p w l).Nonempty ∧
      listingDue p st w l = true then
    let ttl := min (min 10 (w.rules.maxPublicationTtlTicks : Int)) (remaining w)
    if ttl > 0 then do
      let message ← Raising.buildAdvertise w.runId env.requestId (sortedByValue (selling w l))
        (sortedByValue (seeking p w l)) (w.tick + ttl)
      return st.decision env w .advertise "publish specialty surplus and unproduced-resource needs"
        message
    else return none
  else return none

/-! ### Purchases and gifts -/

def wanted (env : ChooseEnv) : Except Raised (List Resource) :=
  sortedByM (fun r => do
      let ticks ← Raising.trueDiv (quantity l.available r)
        (max 1 (quantity w.self.upkeepPerTick r) : ℕ)
      return (toLex (decide (r ∉ l.critical), ticks) : Bool ×ₗ ℚ))
    (env.order.iterate (seeking p w l))

def payPool (spendable : Bundle) (need : Resource) : Except Raised Bundle :=
  if need ∈ l.critical then Raising.saturatingSubtract l.available l.emergencyReserve
  else return spendable

def cap (need : Resource) : Except Raised Int := do
  return max (if need ∈ l.critical then 6 else 3)
    ((quantity w.self.upkeepPerTick need : Int) *
      max (3 * (← latencyTicks st w)) (if need ∈ l.critical then 3 else (p.BATCH_TICKS : Int)))

/-- The innermost iteration of the purchase loop. -/
def purchaseWith (env : ChooseEnv) (ttl cap : Int) (payPool : Bundle) (need : Resource)
    (ad : Advertisement) (payment : Resource) : Except Raised (Option Decision) :=
  if payment ∉ ad.seeking then return none
  else
    let amount := min (min cap (quantity payPool payment)) (quantity l.needs need : Int)
    if amount ≤ 0 then return none
    else do
      let message ← Raising.buildOffer w.runId env.requestId ad.stationId
        (← Raising.bundleOf payment amount) (← Raising.bundleOf need amount) (w.tick + ttl)
      return st.decision env w (.partner ad.stationId)
        (purchaseReason st need payment ad.stationId) message

def purchase (env : ChooseEnv) (ttl : Int) (spendable : Bundle) (advertised : Bool) :
    Except Raised (Option Decision) := do
  (← wanted p w l env).findSomeM? fun need =>
    if advertised = true ∧ need ∉ l.critical then return none
    else if need ∉ l.critical ∧ routineOk st w = false then return none
    else do
      let payPool ← payPool l spendable need
      let cap ← cap p st w l need
      (pool st w need).findSomeM? fun ad =>
        (paymentOptions w need).findSomeM? (purchaseWith st w l env ttl cap payPool need ad)

def giftTo (env : ChooseEnv) (ttl : Int) (spendable : Bundle) (ad : Advertisement) :
    Except Raised (Option Decision) :=
  let amount := min 2 (quantity spendable w.self.specialty : Int)
  if w.self.specialty ∉ ad.seeking ∨ amount ≤ 0 then return none
  else do
    let message ← Raising.buildOffer w.runId env.requestId ad.stationId
      (← Raising.bundleOf w.self.specialty amount) Bundle.zero (w.tick + ttl)
    return st.decision env w (.partner ad.stationId)
      ("share surplus " ++ w.self.specialty.value ++ " with " ++ ad.stationId) message

def gift (env : ChooseEnv) (ttl : Int) (spendable : Bundle) :
    Except Raised (Option Decision) :=
  if routineOk st w = true then do
    if ← p.mayGift l.reserveTicks w l.available ttl then
      (st.ads w).findSomeM? (giftTo st w env ttl spendable)
    else return none
  else return none

/-! ### The body -/

def initiate (env : ChooseEnv) : Except Raised (Option Decision) := do
  let advertised ← advertisement p st w l env
  if w.outgoing.length ≥ w.rules.maxOpenOutgoingOffers then return advertised
  else
    let ttl ← ttl st w
    if ttl ≤ 0 then return advertised
    else
      let held ← Raising.scaled w.self.upkeepPerTick (min (l.reserveTicks + ttl) (remaining w))
      let spendable ← Raising.saturatingSubtract l.available held
      match ← purchase p st w l env ttl spendable advertised.isSome with
      | some action => return some action
      | none =>
          match advertised with
          | some action => return some action
          | none => gift p st w l env ttl spendable

end Locals

def chooseBody (p : Policy) (env : ChooseEnv) (st : StrategyState) (w : WorldView) :
    Except Raised (Option Decision × List (Offer × String)) :=
  if st.gateClosed w then return (none, [])
  else if remaining w = 0 then return (none, [])
  else do
    let l ← locals p st w
    if ← commitmentsUnsafe w l then return (withdrawUnsafe env st w, [])
    else
      match ← scan (fun o => review p st w l o env) (incoming w l) with
      | (some action, notes) => return (some action, notes)
      | (none, notes) => return (← initiate p st w l env, notes)

def choose (p : Policy) (env : ChooseEnv) (st : StrategyState) (w : WorldView) :
    Except Raised (StrategyState × Option Decision) := do
  let st := prepare env st w
  let (action, notes) ← chooseBody p env st w
  return ({ st with lastOfferReview := notes }, action)

/-! ### Every step goes through -/

section GoesThrough

variable (p : Policy) (st : StrategyState) (w : WorldView)

theorem latencyTicks_eq : latencyTicks st w = pure (BaseStrategy.latencyTicks st w : Int) := by
  rw [latencyTicks, Raising.trueDiv_eq]
  · rw [pure_bind, BaseStrategy.latencyTicks]
    simp only [← Int.ceil_toNat]
    congr 1
    omega
  · have hpos : 0 < max 1 (if w.rules.tickDurationMs = 0 then 1000 else w.rules.tickDurationMs) :=
      Nat.lt_of_lt_of_le Nat.one_pos (le_max_left _ _)
    exact_mod_cast hpos.ne'

theorem one_le_latencyTicks : 1 ≤ BaseStrategy.latencyTicks st w := le_max_left _ _

theorem reserveTicks_eq : reserveTicks p st w =
    pure (BaseStrategy.reserveTicks p.toPolicy st w : Int) := by
  have hone := one_le_latencyTicks st w
  rw [reserveTicks, latencyTicks_eq, pure_bind, BaseStrategy.reserveTicks]
  congr 1
  omega

theorem targetTicks_eq : targetTicks p st w =
    pure (BaseStrategy.targetTicks p.toPolicy st w : Int) := by
  rw [targetTicks, latencyTicks_eq, pure_bind, BaseStrategy.targetTicks]
  congr 1
  omega

theorem urgencyTicks_eq : urgencyTicks st w = pure (BaseStrategy.urgencyTicks st w : Int) := by
  rw [urgencyTicks, latencyTicks_eq, pure_bind, BaseStrategy.urgencyTicks]
  congr 1
  omega

theorem ttl_eq : ttl st w = pure (BaseStrategy.ttl st w : Int) := by
  rw [ttl, latencyTicks_eq, pure_bind, BaseStrategy.ttl, remaining_eq]
  congr 1
  omega

/-- The locals as `BaseStrategy.choose` has them. -/
def naturalLocals : Locals where
  reserveTicks := BaseStrategy.reserveTicks p.toPolicy st w
  reserve := BaseStrategy.reserve p.toPolicy st w
  emergencyReserve := BaseStrategy.emergencyReserve w
  target := BaseStrategy.target p.toPolicy st w
  urgentReserve := BaseStrategy.urgentReserve st w
  committed := w.committed
  available := w.available
  surplus := BaseStrategy.surplus p.toPolicy st w
  needs := BaseStrategy.needs p.toPolicy st w
  critical := BaseStrategy.critical st w

theorem min_remaining {i : Int} {n : Nat} (hi : i = n) :
    min i (remaining w) = (min n w.remaining : Nat) := by
  rw [hi, remaining_eq, Nat.cast_min]

theorem committed_eq : w.outgoing.foldlM (fun committed o => Raising.add committed o.give)
    Bundle.zero = (pure w.committed : Except Raised Bundle) := by
  simp only [Raising.add_eq]
  exact List.foldlM_pure

theorem locals_eq : locals p st w = pure (naturalLocals p st w) := by
  rw [locals, reserveTicks_eq, targetTicks_eq, urgencyTicks_eq, committed_eq]
  simp only [pure_bind, Raising.saturatingSubtract_eq,
    Raising.scaled_eq _ (min_remaining w rfl),
    Raising.scaled_eq _ (min_remaining w Nat.cast_ofNat.symm)]
  rfl

/-! What does not compute anything is the same on these locals, by definition. -/

theorem commitmentsUnsafe_eq : commitmentsUnsafe w (naturalLocals p st w) =
    pure (BaseStrategy.commitmentsUnsafe p.toPolicy st w) := by
  rw [commitmentsUnsafe, Raising.saturatingSubtract_eq, pure_bind]
  rfl

theorem seeking_eq : seeking p w (naturalLocals p st w) =
    BaseStrategy.seeking p.toPolicy st w := rfl

theorem incoming_eq : incoming w (naturalLocals p st w) = BaseStrategy.incoming st w := rfl

/-- The payment that `review` subtracts is covered. -/
theorem review_agree (env : ChooseEnv) (o : Offer) :
    Agree (BaseStrategy.review p.toPolicy env st w o)
      (review p st w (naturalLocals p st w) o env) := by
  have hlocals : (naturalLocals p st w).available = w.available := rfl
  rw [BaseStrategy.review, review, hlocals]
  cases hexpired : o.isExpiredBy w.tick with
  | true => exact ⟨_, rfl, rfl⟩
  | false =>
      cases hcovers : w.available.covers o.receive with
      | false => exact ⟨_, rfl, rfl⟩
      | true =>
          rw [Bundle.minus_of_covers hcovers, Raising.minus_eq hcovers, pure_bind,
            Raising.add_eq, pure_bind]
          simp only [Bool.false_eq_true, Bool.true_eq_false, if_false]
          generalize w.available.saturatingSubtract o.receive + o.give = after
          have hkeeps : keepsReserve (naturalLocals p st w) o after =
              BaseStrategy.keepsReserve p.toPolicy st w o after := rfl
          have hobjection : tradeObjection p st w (naturalLocals p st w) o =
              BaseStrategy.tradeObjection p.toPolicy st w o := rfl
          rw [hkeeps, hobjection]
          cases BaseStrategy.keepsReserve p.toPolicy st w o after with
          | false => exact ⟨_, rfl, rfl⟩
          | true =>
              cases o.isGift with
              | true => exact ⟨_, rfl, rfl⟩
              | false =>
                  cases BaseStrategy.tradeObjection p.toPolicy st w o with
                  | some note => exact ⟨_, rfl, rfl⟩
                  | none => exact ⟨_, rfl, rfl⟩

theorem quantity_available_lt (hinventory : Raising.Fits w.self.inventory) (r : Resource) :
    quantity w.available r < 2 ^ 64 := by
  have hlt := hinventory r
  rw [WorldView.quantity_available]
  omega

/-- A deadline within the run is a wire integer. -/
theorem deadline_lt {w : WorldView} (hduration : w.rules.durationTicks < 2 ^ 64)
    (hticks : 0 < w.remaining) {ttl : Nat} (httl : ttl ≤ w.remaining) :
    w.tick + ttl < 2 ^ 64 := by
  rw [WorldView.remaining] at hticks httl
  omega

/-- An offer that expires within the run can be built, if its quantities can. -/
theorem buildOffer_within {w : WorldView} (hduration : w.rules.durationTicks < 2 ^ 64)
    (hticks : 0 < w.remaining) {ttl : Nat} (httl : ttl ≤ w.remaining)
    (runId requestId recipientId : String) {give receive : Bundle} (hgive : Raising.Fits give)
    (hreceive : Raising.Fits receive) :
    Raising.buildOffer runId requestId recipientId give receive ((w.tick : Int) + ttl) =
      pure (Codec.buildOffer runId requestId recipientId give receive (w.tick + ttl)) :=
  Raising.buildOffer_eq _ _ _ hgive hreceive (Nat.cast_add _ _).symm
    (deadline_lt hduration hticks httl)

/-- `min(10, rules.max_publication_ttl_ticks, remaining)`. -/
theorem listingTtl_eq (w : WorldView) :
    min (min 10 (w.rules.maxPublicationTtlTicks : Int)) (remaining w) =
      (min (min 10 w.rules.maxPublicationTtlTicks) w.remaining : Nat) := by
  rw [remaining_eq]
  omega

theorem buildListing_eq {w : WorldView} (hduration : w.rules.durationTicks < 2 ^ 64)
    (hticks : 0 < w.remaining) (runId requestId : String) (selling seeking : List Resource) :
    Raising.buildAdvertise runId requestId selling seeking
        ((w.tick : Int) + (min (min 10 w.rules.maxPublicationTtlTicks) w.remaining : Nat)) =
      pure (Codec.buildAdvertise runId requestId selling seeking
        (w.tick + min (min 10 w.rules.maxPublicationTtlTicks) w.remaining)) :=
  Raising.buildAdvertise_eq _ _ _ _ (Nat.cast_add _ _).symm
    (deadline_lt hduration hticks (min_le_right _ _))

theorem advertisement_eq (env : ChooseEnv) (hduration : w.rules.durationTicks < 2 ^ 64)
    (hticks : 0 < w.remaining) :
    advertisement p st w (naturalLocals p st w) env =
      pure (BaseStrategy.advertisement p.toPolicy env st w) := by
  have hselling : selling w (naturalLocals p st w) = BaseStrategy.selling p.toPolicy st w := rfl
  have hdue : listingDue p st w (naturalLocals p st w) =
      BaseStrategy.listingDue p.toPolicy st w := rfl
  rw [advertisement, BaseStrategy.advertisement, hselling, hdue, seeking_eq]
  split
  · rw [listingTtl_eq]
    dsimp only
    rw [buildListing_eq hduration hticks, pure_bind]
    split
    · rename_i hpositive
      rw [if_pos (by exact_mod_cast hpositive)]
    · rename_i hnone
      rw [if_neg (by exact_mod_cast hnone)]
  · rfl

theorem wanted_eq (env : ChooseEnv) : wanted p w (naturalLocals p st w) env =
    pure (BaseStrategy.wanted p.toPolicy env st w) := by
  have hkey : ∀ r, Raising.trueDiv (quantity (naturalLocals p st w).available r)
      (max 1 (quantity w.self.upkeepPerTick r) : ℕ) =
        pure ((quantity w.available r : ℚ) / (max 1 (quantity w.self.upkeepPerTick r) : ℕ)) := by
    intro r
    have hpos : 0 < max 1 (quantity w.self.upkeepPerTick r) :=
      Nat.lt_of_lt_of_le Nat.one_pos (le_max_left _ _)
    exact Raising.trueDiv_eq _ (by exact_mod_cast hpos.ne')
  simp only [wanted, hkey, pure_bind]
  exact sortedByM_pure _ _

theorem payPool_eq (need : Resource) :
    payPool (naturalLocals p st w) (spendable p.toPolicy st w) need =
      pure (BaseStrategy.payPool p.toPolicy st w need) := by
  have hcritical : (naturalLocals p st w).critical = critical st w := rfl
  rw [payPool, BaseStrategy.payPool, hcritical]
  split
  · rw [Raising.saturatingSubtract_eq]
    rfl
  · rfl

theorem cap_eq (need : Resource) : cap p st w (naturalLocals p st w) need =
    pure (BaseStrategy.cap p.toPolicy st w need : Int) := by
  have hcritical : (naturalLocals p st w).critical = critical st w := rfl
  rw [cap, BaseStrategy.cap, latencyTicks_eq, pure_bind, hcritical]
  push_cast
  rfl

/-- What can be paid is in stock, so it is a wire integer. -/
theorem purchaseAmount_lt {p : BaseStrategy.Policy} {st : StrategyState} {w : WorldView}
    (hinventory : Raising.Fits w.self.inventory) (need payment : Resource) :
    purchaseAmount p st w need payment < 2 ^ 64 := by
  have hle : purchaseAmount p st w need payment ≤
      quantity (BaseStrategy.payPool p st w need) payment :=
    (min_le_left _ _).trans (min_le_right _ _)
  have hpool : quantity (BaseStrategy.payPool p st w need) payment ≤
      quantity w.available payment := by
    rw [BaseStrategy.payPool]
    split
    · rw [quantity_saturatingSubtract]
      omega
    · rw [spendable, quantity_saturatingSubtract]
      omega
  have hlt := quantity_available_lt w hinventory payment
  omega

theorem purchaseWith_eq (env : ChooseEnv) (hinventory : Raising.Fits w.self.inventory)
    (hduration : w.rules.durationTicks < 2 ^ 64) (hticks : 0 < w.remaining)
    (need payment : Resource) (ad : Advertisement) :
    purchaseWith st w (naturalLocals p st w) env (BaseStrategy.ttl st w)
        (BaseStrategy.cap p.toPolicy st w need) (BaseStrategy.payPool p.toPolicy st w need) need
        ad payment =
      pure (if payment ∉ ad.seeking then none
        else if purchaseAmount p.toPolicy st w need payment ≤ 0 then none
        else st.decision env w (.partner ad.stationId)
          (purchaseReason st need payment ad.stationId)
          (Codec.buildOffer w.runId env.requestId ad.stationId
            (bundleOf payment (purchaseAmount p.toPolicy st w need payment))
            (bundleOf need (purchaseAmount p.toPolicy st w need payment))
            (w.tick + BaseStrategy.ttl st w))) := by
  have hamount : min (min (BaseStrategy.cap p.toPolicy st w need : Int)
      (quantity (BaseStrategy.payPool p.toPolicy st w need) payment))
        (quantity (naturalLocals p st w).needs need) =
      (purchaseAmount p.toPolicy st w need payment : Int) := by
    rw [purchaseAmount]
    push_cast
    rfl
  have hlt : purchaseAmount p.toPolicy st w need payment < 2 ^ 64 :=
    purchaseAmount_lt hinventory need payment
  rw [purchaseWith, hamount]
  dsimp only
  rw [Raising.bundleOf_eq payment rfl, Raising.bundleOf_eq need rfl, pure_bind, pure_bind,
    buildOffer_within hduration hticks (ttl_le_remaining st w) _ _ _
      (Raising.fits_bundleOf payment hlt) (Raising.fits_bundleOf need hlt), pure_bind]
  split
  · rfl
  · split
    · rename_i hnone
      rw [if_pos (by exact_mod_cast hnone)]
    · rename_i hpositive
      rw [if_neg (by exact_mod_cast hpositive)]

theorem purchase_eq (env : ChooseEnv) (hinventory : Raising.Fits w.self.inventory)
    (hduration : w.rules.durationTicks < 2 ^ 64) (hticks : 0 < w.remaining) (advertised : Bool) :
    purchase p st w (naturalLocals p st w) env (BaseStrategy.ttl st w)
        (spendable p.toPolicy st w) advertised =
      pure (BaseStrategy.purchase p.toPolicy env st w advertised) := by
  have hcritical : (naturalLocals p st w).critical = critical st w := rfl
  have hwith : ∀ need ad, purchaseWith st w (naturalLocals p st w) env (BaseStrategy.ttl st w)
      (BaseStrategy.cap p.toPolicy st w need) (BaseStrategy.payPool p.toPolicy st w need) need ad =
        fun payment => pure _ := fun need ad => funext fun payment =>
    purchaseWith_eq p st w env hinventory hduration hticks need payment ad
  rw [purchase, wanted_eq, pure_bind, BaseStrategy.purchase]
  simp only [hcritical, payPool_eq, cap_eq, pure_bind, hwith, List.findSomeM?_pure]
  rw [← List.findSomeM?_pure]
  congr 1
  funext need
  split
  · rfl
  · split
    · rfl
    · rfl

/-- A gift is in stock, so it is a wire integer. -/
theorem giftAmount_lt {p : BaseStrategy.Policy} {st : StrategyState} {w : WorldView} :
    giftAmount p st w < 2 ^ 64 := by
  have hle : giftAmount p st w ≤ 2 := min_le_left _ _
  omega

theorem giftTo_eq (env : ChooseEnv) (hduration : w.rules.durationTicks < 2 ^ 64)
    (hticks : 0 < w.remaining) (ad : Advertisement) :
    giftTo st w env (BaseStrategy.ttl st w) (spendable p.toPolicy st w) ad =
      pure (if w.self.specialty ∉ ad.seeking ∨ giftAmount p.toPolicy st w ≤ 0 then none
        else st.decision env w (.partner ad.stationId)
          ("share surplus " ++ w.self.specialty.value ++ " with " ++ ad.stationId)
          (Codec.buildOffer w.runId env.requestId ad.stationId
            (bundleOf w.self.specialty (giftAmount p.toPolicy st w)) Bundle.zero
            (w.tick + BaseStrategy.ttl st w))) := by
  have hamount : min 2 (quantity (spendable p.toPolicy st w) w.self.specialty : Int) =
      (giftAmount p.toPolicy st w : Int) := by
    rw [giftAmount]
    push_cast
    rfl
  rw [giftTo, hamount, Raising.bundleOf_eq _ rfl, pure_bind,
    buildOffer_within hduration hticks (ttl_le_remaining st w) _ _ _
      (Raising.fits_bundleOf _ giftAmount_lt) Raising.fits_zero, pure_bind]
  split
  · rename_i hnone
    rw [if_pos (by exact_mod_cast hnone)]
  · rename_i hpositive
    rw [if_neg (by exact_mod_cast hpositive)]

theorem gift_eq (env : ChooseEnv) (hduration : w.rules.durationTicks < 2 ^ 64)
    (hticks : 0 < w.remaining) :
    gift p st w (naturalLocals p st w) env (BaseStrategy.ttl st w) (spendable p.toPolicy st w) =
      pure (BaseStrategy.gift p.toPolicy env st w) := by
  have hmay : p.mayGift (naturalLocals p st w).reserveTicks w (naturalLocals p st w).available
      (BaseStrategy.ttl st w) = pure (p.canGift (BaseStrategy.reserveTicks p.toPolicy st w) w
        w.available (BaseStrategy.ttl st w)) := p.mayGift_eq _ _ _ _
  have hto : giftTo st w env (BaseStrategy.ttl st w) (spendable p.toPolicy st w) =
      fun ad => pure _ := funext fun ad => giftTo_eq p st w env hduration hticks ad
  rw [gift, BaseStrategy.gift, hmay, pure_bind, hto, List.findSomeM?_pure]
  cases routineOk st w with
  | false => rfl
  | true =>
      cases p.canGift (BaseStrategy.reserveTicks p.toPolicy st w) w w.available
        (BaseStrategy.ttl st w) with
      | false => rfl
      | true => rfl

theorem initiate_eq (env : ChooseEnv) (hinventory : Raising.Fits w.self.inventory)
    (hduration : w.rules.durationTicks < 2 ^ 64) (hticks : 0 < w.remaining) :
    initiate p st w (naturalLocals p st w) env =
      pure (BaseStrategy.initiate p.toPolicy env st w) := by
  have hheld : min ((naturalLocals p st w).reserveTicks + (BaseStrategy.ttl st w : Int))
      (remaining w) =
        (min (BaseStrategy.reserveTicks p.toPolicy st w + BaseStrategy.ttl st w) w.remaining : ℕ) :=
    min_remaining w (Nat.cast_add _ _).symm
  have hspendable : Raising.saturatingSubtract (naturalLocals p st w).available
      (scaled w.self.upkeepPerTick
        (min (BaseStrategy.reserveTicks p.toPolicy st w + BaseStrategy.ttl st w) w.remaining)) =
        pure (spendable p.toPolicy st w) := Raising.saturatingSubtract_eq _ _
  rw [initiate, BaseStrategy.initiate, advertisement_eq p st w env hduration hticks, pure_bind,
    ttl_eq, pure_bind, hheld, Raising.scaled_eq _ rfl, pure_bind, hspendable, pure_bind,
    purchase_eq p st w env hinventory hduration hticks, pure_bind,
    gift_eq p st w env hduration hticks]
  split
  · rfl
  · split
    · rename_i hnone
      rw [if_pos (by exact_mod_cast hnone)]
    · rename_i hpositive
      rw [if_neg (by exact_mod_cast hpositive)]
      cases BaseStrategy.purchase p.toPolicy env st w
          (BaseStrategy.advertisement p.toPolicy env st w).isSome with
      | some action => rfl
      | none =>
          cases BaseStrategy.advertisement p.toPolicy env st w with
          | some action => rfl
          | none => rfl

theorem chooseBody_agree (env : ChooseEnv) (hinventory : Raising.Fits w.self.inventory)
    (hduration : w.rules.durationTicks < 2 ^ 64) :
    Agree (BaseStrategy.chooseBody p.toPolicy env st w) (chooseBody p env st w) := by
  rw [BaseStrategy.chooseBody, chooseBody, remaining_eq]
  cases st.gateClosed w with
  | true => exact ⟨_, rfl, rfl⟩
  | false =>
      rcases Nat.eq_zero_or_pos w.remaining with hover | hticks
      · rw [hover]
        exact ⟨_, rfl, rfl⟩
      · have hleft : (w.remaining : Int) ≠ 0 := by exact_mod_cast hticks.ne'
        simp only [Bool.false_eq_true, if_false, hticks.ne', hleft]
        rw [locals_eq, pure_bind, commitmentsUnsafe_eq, pure_bind, incoming_eq,
          initiate_eq p st w env hinventory hduration hticks]
        cases BaseStrategy.commitmentsUnsafe p.toPolicy st w with
        | true => exact ⟨_, rfl, rfl⟩
        | false =>
            obtain ⟨⟨found, notes⟩, hscan, hscan'⟩ :=
              scan_agree fun o (_ : o ∈ BaseStrategy.incoming st w) => review_agree p st w env o
            rw [hscan, hscan']
            cases found with
            | some action => exact ⟨_, rfl, rfl⟩
            | none => exact ⟨_, rfl, rfl⟩

theorem choose_agree (env : ChooseEnv) (hinventory : Raising.Fits w.self.inventory)
    (hduration : w.rules.durationTicks < 2 ^ 64) :
    Agree (BaseStrategy.choose p.toPolicy env st w) (choose p env st w) := by
  obtain ⟨⟨action, notes⟩, hbody, hbody'⟩ :=
    chooseBody_agree p (prepare env st w) w env hinventory hduration
  rw [BaseStrategy.choose, choose]
  dsimp only
  rw [hbody, hbody']
  exact ⟨_, rfl, rfl⟩

end GoesThrough

/-! ### The two policies -/

def policy : Policy where
  toPolicy := BaseStrategy.policy
  mayGift := fun _ _ _ _ => return true
  mayGift_eq := fun _ _ _ _ => rfl

/-- The attributes and `can_gift` of `RestrainedTradingStrategy`. -/
def restrainedPolicy : Policy where
  toPolicy := RestrainedTradingStrategy.policy
  mayGift := fun reserveTicks w available ttl => do
    let held ← Raising.scaled w.self.upkeepPerTick (min (reserveTicks + ttl) (remaining w))
    return available.covers held
  mayGift_eq := by
    intro reserveTicks ttl w available
    rw [min_remaining w (Nat.cast_add reserveTicks ttl).symm, Raising.scaled_eq _ rfl, pure_bind]
    rfl

end PlanetCharlu.BaseStrategy.Raising
