import PlanetCharlu.Strategies
import PlanetCharlu.Lib.Obligations

/-!
# No double spending

A decision that pays (a new offer pays its `give`, an accept pays the incoming
offer's `receive`) is covered by the inventory together with everything our open
unexpired offers already promise. The available stock the strategies compute with
is a saturating difference, so this needs the safety test that stands before every
paying branch: it has excluded over-commitment, and only then is the difference
exact.

Which floor the payment leaves untouched depends on the strategy and on the kind
of decision: three ticks of upkeep when a critical resource is bought or rescued,
the reserve (and, for an offer, its lifetime) otherwise, five ticks beyond the
longest open promise for the simplified policy.
-/

namespace PlanetCharlu

open Obligations

/-! ### Settling obligations with the source's `minus` -/

/-- Pay costs one after the other; raise at the first that is not affordable. -/
def settleAll (stock : Bundle) (costs : List Bundle) : Except PyError Bundle :=
  costs.foldlM Bundle.minus stock

theorem covers_of_quantity_le {a b : Bundle} (h : quantity b ≤ quantity a) : a.covers b = true :=
  (covers_iff a b).mpr h

theorem quantity_saturatingSubtract_fun (a b : Bundle) :
    quantity (a.saturatingSubtract b) = quantity a - quantity b := by
  funext r
  rw [quantity_saturatingSubtract]
  rfl

/-- What settles as quantities settles as bundles. -/
theorem settleAll_of_settles {stock : Bundle} {costs : List Bundle} {rest : Resource → ℕ}
    (h : Settles (quantity stock) (costs.map quantity) rest) :
    ∃ left, settleAll stock costs = .ok left := by
  induction costs generalizing stock with
  | nil => exact ⟨stock, rfl⟩
  | cons cost costs ih =>
      rw [List.map_cons] at h
      cases h with
      | cons hcost hrest =>
          rw [← quantity_saturatingSubtract_fun] at hrest
          obtain ⟨left, hleft⟩ := ih hrest
          refine ⟨left, ?_⟩
          unfold settleAll at hleft ⊢
          rw [List.foldlM_cons, Bundle.minus_of_covers (covers_of_quantity_le hcost)]
          exact hleft

namespace WorldView

/-- Inventory covers the open promises and one more payment together, and any
part of them can be paid in any order before anything is received. -/
structure CoversWith (w : WorldView) (pay : Bundle) : Prop where
  together : ∀ r, quantity w.committed r + quantity pay r ≤ quantity w.self.inventory r
  anyOrder : ∀ part : List Bundle, part.Subperm (w.outgoing.map Offer.give ++ [pay]) →
    ∃ left, settleAll w.self.inventory part = .ok left

theorem CoversWith.of_le {w : WorldView} {pay : Bundle}
    (h : ∀ r, quantity w.committed r + quantity pay r ≤ quantity w.self.inventory r) :
    w.CoversWith pay := by
  refine ⟨h, ?_⟩
  intro part hpart
  have hsum : ((w.outgoing.map Offer.give ++ [pay]).map quantity).sum ≤
      quantity w.self.inventory := by
    intro r
    have hr := h r
    rw [committed, quantity_committedIn] at hr
    have hsplit : ((w.outgoing.map Offer.give ++ [pay]).map quantity).sum r =
        (w.outgoing.map fun o => quantity o.give r).sum + quantity pay r := by
      rw [List.map_append, List.sum_append, List.map_map]
      have hpointwise : ((w.outgoing.map (quantity ∘ Offer.give)).sum) r =
          (w.outgoing.map fun o => quantity o.give r).sum := by
        induction w.outgoing with
        | nil => rfl
        | cons o rest ih =>
            rw [List.map_cons, List.sum_cons, List.map_cons, List.sum_cons, Pi.add_apply, ih]
            rfl
      simp [hpointwise]
    rw [hsplit]
    exact hr
  have hsubperm : (part.map quantity).Subperm
      ((w.outgoing.map Offer.give ++ [pay]).map quantity) := by
    obtain ⟨middle, hperm, hsub⟩ := hpart
    exact ⟨middle.map quantity, hperm.map quantity, hsub.map quantity⟩
  exact settleAll_of_settles (settles_of_subperm hsubperm hsum)

end WorldView

/-! ### The law, with the floors left open -/

/-- What no double spending says about a message sent on `w`. -/
structure PaysFromStock (w : WorldView) (offerFloor : OfferBody → Bundle)
    (acceptFloor : Offer → Bundle) (message : ClientMessage) : Prop where
  offer : ∀ runId rid body, message = .offer runId rid body →
    w.CoversWith body.give ∧
      ∀ r, 0 < quantity body.give r →
        quantity (offerFloor body) r + quantity w.committed r + quantity body.give r ≤
          quantity w.self.inventory r
  accept : ∀ runId rid offerId, message = .accept runId rid offerId →
    ∃ o ∈ w.openOffersToMe, o.offerId = offerId ∧ w.CoversWith o.receive ∧
      ∀ r, min (quantity w.self.inventory r - quantity w.committed r)
          (quantity (acceptFloor o) r) + quantity w.committed r + quantity o.receive r ≤
        quantity w.self.inventory r + quantity o.give r

/-! ### Paying out of a pool -/

section Pools

variable {w : WorldView}

/-- An amount taken from the stock above a floor leaves the floor. -/
theorem floor_le_of_pool {floor : Bundle} {payment : Resource} {amount : Nat}
    (hsplit : ∀ r, quantity w.available r + quantity w.committed r = quantity w.self.inventory r)
    (hpositive : 0 < amount)
    (hpool : amount ≤ quantity (w.available.saturatingSubtract floor) payment) :
    quantity floor payment + quantity w.committed payment + amount ≤
      quantity w.self.inventory payment := by
  have hsum := hsplit payment
  rw [quantity_saturatingSubtract] at hpool
  omega

/-- A payment in one resource is covered when it is covered in that resource. -/
theorem coversWith_bundleOf {payment : Resource} {amount : Nat}
    (hsplit : ∀ r, quantity w.available r + quantity w.committed r = quantity w.self.inventory r)
    (hpay : quantity w.committed payment + amount ≤ quantity w.self.inventory payment) :
    w.CoversWith (bundleOf payment amount) := by
  apply WorldView.CoversWith.of_le
  intro r
  by_cases hr : r = payment
  · subst hr
    rw [quantity_bundleOf_self]
    exact hpay
  · rw [quantity_bundleOf_of_ne hr]
    have hsum := hsplit r
    omega

/-- The two facts about an offer that pays one resource out of a pool. -/
theorem offer_from_pool {floor : Bundle} {payment : Resource} {amount : Nat}
    (hsplit : ∀ r, quantity w.available r + quantity w.committed r = quantity w.self.inventory r)
    (hpositive : 0 < amount)
    (hpool : amount ≤ quantity (w.available.saturatingSubtract floor) payment) :
    w.CoversWith (bundleOf payment amount) ∧
      ∀ r, 0 < quantity (bundleOf payment amount) r →
        quantity floor r + quantity w.committed r + quantity (bundleOf payment amount) r ≤
          quantity w.self.inventory r := by
  have hfloor := floor_le_of_pool hsplit hpositive hpool
  refine ⟨coversWith_bundleOf hsplit (by omega), ?_⟩
  intro r hr
  by_cases hpaid : r = payment
  · subst hpaid
    rw [quantity_bundleOf_self]
    exact hfloor
  · rw [quantity_bundleOf_of_ne hpaid] at hr
    exact absurd hr (Nat.lt_irrefl 0)

/-- The two facts about an accept that keeps a floor. -/
theorem accept_from_stock {floor : Bundle} {o : Offer}
    (hsplit : ∀ r, quantity w.available r + quantity w.committed r = quantity w.self.inventory r)
    (haffordable : ∀ r, quantity o.receive r ≤ quantity w.available r)
    (hkept : ∀ r, min (quantity w.available r) (quantity floor r) ≤
      quantity w.available r - quantity o.receive r + quantity o.give r) :
    w.CoversWith o.receive ∧
      ∀ r, min (quantity w.self.inventory r - quantity w.committed r) (quantity floor r) +
        quantity w.committed r + quantity o.receive r ≤
          quantity w.self.inventory r + quantity o.give r := by
  constructor
  · apply WorldView.CoversWith.of_le
    intro r
    have hsum := hsplit r
    have hcost := haffordable r
    omega
  · intro r
    have hsum := hsplit r
    have hcost := haffordable r
    have hfloor := hkept r
    have hstock : quantity w.self.inventory r - quantity w.committed r =
        quantity w.available r := by omega
    rw [hstock]
    omega

end Pools

/-! ### The learning policies -/

section Learning

open BaseStrategy

variable {p : Policy} {st : StrategyState} {w : WorldView}

/-- A purchase never pays in the resource it buys. -/
theorem payment_ne_need {need payment : Resource} (h : payment ∈ paymentOptions w need) :
    payment ≠ need := by
  unfold paymentOptions at h
  split at h
  · rename_i hneed
    rw [mem_sortedByValue, notProduced, mem_resourceSet, bne_iff_ne] at h
    rw [hneed]
    exact h
  · rename_i hneed
    rw [List.mem_singleton] at h
    rw [h]
    exact fun hsame => hneed hsame.symm

/-- An offer of `payment` for as much of `need` nets a critical resource exactly
when `need` is critical. -/
theorem netsCritical_barter {need payment : Resource} {amount : Nat} (hne : payment ≠ need)
    (hpositive : 0 < amount) :
    netsCritical st w (bundleOf need amount) (bundleOf payment amount) =
      decide (need ∈ critical st w) := by
  rw [Bool.eq_iff_iff, netsCritical_eq_true, decide_eq_true_eq]
  constructor
  · rintro ⟨r, hcritical, hmore⟩
    by_cases hr : r = need
    · rwa [hr] at hcritical
    · rw [quantity_bundleOf_of_ne hr] at hmore
      omega
  · intro hcritical
    refine ⟨need, hcritical, ?_⟩
    rw [quantity_bundleOf_self, quantity_bundleOf_of_ne (fun h => hne h.symm)]
    exact hpositive

/-- A gift nets nothing. -/
theorem netsCritical_gift (give : Bundle) : netsCritical st w Bundle.zero give = false := by
  rw [← Bool.not_eq_true, netsCritical_eq_true]
  rintro ⟨r, -, hmore⟩
  rw [quantity_zero] at hmore
  omega

variable (p st w) in
/-- The floor of an offer of a learning policy. -/
def learningOfferFloor (body : OfferBody) : Bundle :=
  scaled w.self.upkeepPerTick
    (min (if netsCritical st w body.receive body.give then 3
      else reserveTicks p st w + (body.expiresTick - w.tick)) w.remaining)

variable (p st w) in
/-- The floor of an accept of a learning policy. -/
def learningAcceptFloor (o : Offer) : Bundle :=
  scaled w.self.upkeepPerTick
    (min (if rescuesCritical st w o then 3 else reserveTicks p st w) w.remaining)

theorem learningOfferFloor_purchase {ad : Advertisement} {need payment : Resource}
    (h : Purchasable p st w ad need payment) :
    purchaseAmount p st w need payment ≤ quantity (w.available.saturatingSubtract
      (learningOfferFloor p st w (purchaseBody p st w ad need payment))) payment := by
  have hpool : purchaseAmount p st w need payment ≤ quantity (payPool p st w need) payment :=
    le_trans (min_le_left _ _) (min_le_right _ _)
  have hnets : netsCritical st w (bundleOf need (purchaseAmount p st w need payment))
      (bundleOf payment (purchaseAmount p st w need payment)) = decide (need ∈ critical st w) :=
    netsCritical_barter (payment_ne_need h.payable) h.positive
  have hlife : w.tick + ttl st w - w.tick = ttl st w := Nat.add_sub_cancel_left _ _
  unfold payPool at hpool
  unfold learningOfferFloor purchaseBody
  dsimp only
  rw [hnets, hlife]
  -- A critical resource is paid for down to three ticks, any other one only out of
  -- what the reserve and the offer's lifetime leave.
  by_cases hcritical : need ∈ critical st w
  · rw [if_pos hcritical] at hpool
    rw [decide_eq_true hcritical, if_pos rfl]
    exact hpool
  · rw [if_neg hcritical] at hpool
    rw [decide_eq_false hcritical, if_neg Bool.false_ne_true]
    exact hpool

theorem learningOfferFloor_gift (ad : Advertisement) :
    giftAmount p st w ≤ quantity (w.available.saturatingSubtract
      (learningOfferFloor p st w (giftBody p st w ad))) w.self.specialty := by
  have hpool : giftAmount p st w ≤ quantity (spendable p st w) w.self.specialty := min_le_right _ _
  have hlife : w.tick + ttl st w - w.tick = ttl st w := Nat.add_sub_cancel_left _ _
  unfold learningOfferFloor giftBody
  dsimp only
  rw [netsCritical_gift, hlife, if_neg Bool.false_ne_true]
  exact hpool

theorem paymentReserve_eq (o : Offer) :
    paymentReserve p st w o = learningAcceptFloor p st w o := by
  unfold paymentReserve learningAcceptFloor
  split <;> rfl

theorem learning_paysFromStock {key : Key} {message : ClientMessage}
    (hmove : Move p st w key message) :
    PaysFromStock w (learningOfferFloor p st w) (learningAcceptFloor p st w) message := by
  cases hmove with
  | withdraw hrisky ho => exact ⟨by intros; contradiction, by intros; contradiction⟩
  | advertise hsafe hroutine => exact ⟨by intros; contradiction, by intros; contradiction⟩
  | @accept rid o hsafe ho =>
      refine ⟨by intros; contradiction, ?_⟩
      rintro runId rid offerId heq
      cases heq
      have hkept := ho.kept
      rw [paymentReserve_eq] at hkept
      exact ⟨o, ho.incoming, rfl,
        accept_from_stock hsafe.available_add_committed ho.affordable hkept⟩
  | purchase hsafe hcan hpurchase =>
      refine ⟨?_, by intros; contradiction⟩
      rintro runId rid body heq
      cases heq
      exact offer_from_pool hsafe.available_add_committed hpurchase.positive
        (learningOfferFloor_purchase hpurchase)
  | gift hsafe hcan hgift =>
      refine ⟨?_, by intros; contradiction⟩
      rintro runId rid body heq
      cases heq
      exact offer_from_pool hsafe.available_add_committed hgift.positive
        (learningOfferFloor_gift _)

end Learning

/-! ### The simplified policy -/

section Simplified

open SimplifiedTradingStrategy

variable {w : WorldView}

theorem refillAmount_le_spendable (w : WorldView) (need payment : Resource) :
    refillAmount w need payment ≤ quantity (spendable w) payment := by
  unfold refillAmount
  dsimp only
  split
  · exact le_trans (min_le_right _ _) (min_le_left _ _)
  · exact min_le_right _ _

theorem giftAmount_le_spendable (w : WorldView) :
    SimplifiedTradingStrategy.giftAmount w ≤ quantity (spendable w) w.self.specialty :=
  le_trans (min_le_left _ _) (min_le_right _ _)

/-- The stock above the payment guard, with the offer's own lifetime in place of
the ttl it was posted with. -/
theorem spendable_eq (w : WorldView) :
    spendable w = w.available.saturatingSubtract (scaled w.self.upkeepPerTick
      (min (5 + max (horizon w) (w.tick + ttl w - w.tick)) w.remaining)) := by
  rw [Nat.add_sub_cancel_left]
  rfl

variable (w) in
/-- The floor of an offer of the simplified policy. -/
def simplifiedOfferFloor (body : OfferBody) : Bundle :=
  scaled w.self.upkeepPerTick
    (min (5 + max (horizon w) (body.expiresTick - w.tick)) w.remaining)

theorem simplified_paysFromStock {key : Key} {message : ClientMessage} (hmove : Move w key message) :
    PaysFromStock w (simplifiedOfferFloor w) (fun _ => guard w) message := by
  cases hmove with
  | withdraw hrisky ho => exact ⟨by intros; contradiction, by intros; contradiction⟩
  | publish hsafe => exact ⟨by intros; contradiction, by intros; contradiction⟩
  | @accept rid o hsafe ho =>
      refine ⟨by intros; contradiction, ?_⟩
      rintro runId rid offerId heq
      cases heq
      exact ⟨o, ho.incoming, rfl,
        accept_from_stock hsafe.available_add_committed ho.affordable ho.kept⟩
  | @refill rid ad need payment hsafe hcan hrefill =>
      refine ⟨?_, by intros; contradiction⟩
      rintro runId rid body heq
      cases heq
      have hpool := refillAmount_le_spendable w need payment
      rw [spendable_eq] at hpool
      exact offer_from_pool hsafe.available_add_committed hrefill.positive hpool
  | gift hsafe hcan hgift =>
      refine ⟨?_, by intros; contradiction⟩
      rintro runId rid body heq
      cases heq
      have hpool := giftAmount_le_spendable w
      rw [spendable_eq] at hpool
      exact offer_from_pool hsafe.available_add_committed hgift.positive hpool

end Simplified

/-! ### The law -/

/-- The stock an offer must leave, in every resource it pays. -/
def Strategy.offerFloor : Strategy → StrategyState → WorldView → OfferBody → Bundle
  | .base => learningOfferFloor BaseStrategy.policy
  | .restrained => learningOfferFloor RestrainedTradingStrategy.policy
  | .simplified => fun _ => simplifiedOfferFloor

/-- The stock an accept must leave, or else what there was before it. -/
def Strategy.acceptFloor : Strategy → StrategyState → WorldView → Offer → Bundle
  | .base => learningAcceptFloor BaseStrategy.policy
  | .restrained => learningAcceptFloor RestrainedTradingStrategy.policy
  | .simplified => fun _ w _ => SimplifiedTradingStrategy.guard w

/-- **No double spending.** Whatever pays, pays from stock that no open promise
needs, keeps the floor of its kind, and leaves every part of the promises
payable in any order. -/
theorem choose_no_double_spending {s : Strategy} {env : ChooseEnv} {st st' : StrategyState}
    {w : WorldView} {d : Decision} (h : s.choose env st w = .ok (st', some d)) :
    PaysFromStock w (s.offerFloor st' w) (s.acceptFloor st' w) d.message := by
  obtain ⟨-, -, hmove, -⟩ := Strategy.choose_decided h
  cases s with
  | base => exact learning_paysFromStock hmove
  | restrained => exact learning_paysFromStock hmove
  | simplified => exact simplified_paysFromStock hmove

theorem choose_no_double_spending_sample : ∃ st',
    Strategy.base.choose .sample {} .promised = .ok (st', some .sample) ∧
      PaysFromStock .promised (Strategy.base.offerFloor st' .promised)
        (Strategy.base.acceptFloor st' .promised) Decision.sample.message := by
  obtain ⟨st', h⟩ := Strategy.exists_state_of_decisionOf Strategy.decisionOf_promised.1
  exact ⟨st', h, choose_no_double_spending h⟩

end PlanetCharlu
