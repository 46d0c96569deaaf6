import PlanetCharlu.Strategies

/-!
# What the strategies pay, to whom, and for what

The terms of every offer and of every accepted trade, for all three strategies: one
resource for one resource, one unit for one unit, or a small gift of what we produce;
a partner whose live advertisement asks for it; a deadline within the rules. What we
do not produce is paid only to get back what we produce, and each strategy says when
it may be.
-/

namespace PlanetCharlu

/-- A live advertisement of `station` seeks `pays` and sells all of `buys`. -/
structure WorldView.Advertises (w : WorldView) (station : String) (pays : Resource)
    (buys : Finset Resource) (ad : Advertisement) : Prop where
  listed : ad ∈ w.advertisements
  posted : ad.stationId = station
  active : ad.status = .ACTIVE
  live : w.tick < ad.expiresTick
  seeks : pays ∈ ad.seeking
  sells : buys ⊆ ad.selling

/-- One unit of `bought` for each unit of `paid`. -/
structure IsBarter (w : WorldView) (body : OfferBody) (paid bought : Resource) (n : Nat) : Prop where
  other : bought ≠ paid
  receive : body.receive = bundleOf bought n
  advertised : ∃ ad, w.Advertises body.recipientId paid {bought} ad

/-- At most two units of what we produce, for nothing. -/
structure IsSmallGift (w : WorldView) (body : OfferBody) (paid : Resource) (n : Nat) : Prop where
  specialty : paid = w.self.specialty
  small : n ≤ 2
  receive : body.receive = Bundle.zero
  advertised : ∃ ad, w.Advertises body.recipientId paid ∅ ad

/-- The terms of an offer that pays `n` units of `paid`. -/
structure OfferTerms (w : WorldView) (body : OfferBody) (paid : Resource) (n : Nat) : Prop where
  positive : 0 < n
  give : body.give = bundleOf paid n
  exchange : (∃ bought, IsBarter w body paid bought n) ∨ IsSmallGift w body paid n
  foreign : body.recipientId ≠ w.selfStationId
  known : w.directory = [] ∨ body.recipientId ∈ w.directory
  idle : ∀ o ∈ w.outgoing, o.recipientId ≠ body.recipientId
  lasting : w.tick < body.expiresTick
  bounded : body.expiresTick ≤ min (w.tick + w.rules.maxOfferTtlTicks) w.rules.durationTicks

/-- An incoming offer that may be accepted at all. -/
structure FairIncoming (w : WorldView) (o : Offer) : Prop where
  listed : o ∈ w.offers
  isOpen : o.status = .OPEN
  live : w.tick < o.expiresTick
  addressed : o.recipientId = w.selfStationId
  fair : units o.receive ≤ units o.give

/-! ### When other stock than specialty may be paid -/

/-- When an offer that brings `receive` may pay `n` units of `paid`, which is not our
specialty. -/
def Strategy.SparesOnOffer (s : Strategy) (st : StrategyState) (w : WorldView) (receive : Bundle)
    (paid : Resource) (n : Nat) : Prop :=
  0 < quantity receive w.self.specialty ∧
    match s with
    | .base => w.self.specialty ∈ BaseStrategy.critical st w
    | .restrained => quantity w.available w.self.specialty <
        quantity (BaseStrategy.target RestrainedTradingStrategy.policy st w) w.self.specialty
    | .simplified =>
        quantity w.available w.self.specialty <
          quantity w.self.upkeepPerTick w.self.specialty * min 15 w.remaining ∧
        quantity w.self.upkeepPerTick paid * min 25 w.remaining + n ≤ quantity w.available paid

/-- The same for an incoming offer that costs `n` units of `paid`. -/
def Strategy.SparesOnAccept (s : Strategy) (st : StrategyState) (w : WorldView) (brings : Bundle)
    (paid : Resource) (n : Nat) : Prop :=
  match s with
  | .base => False
  | s => s.SparesOnOffer st w brings paid n

/-- What an offer command and an accepted offer must satisfy. -/
structure Strategy.Disciplined (s : Strategy) (st : StrategyState) (w : WorldView)
    (message : ClientMessage) : Prop where
  offers : ∀ runId rid body, message = .offer runId rid body →
    ∃ paid n, OfferTerms w body paid n ∧
      (paid ≠ w.self.specialty → s.SparesOnOffer st w body.receive paid n)
  accepts : ∀ runId rid offerId, message = .accept runId rid offerId →
    ∃ o, o.offerId = offerId ∧ FairIncoming w o ∧
      ∀ paid, paid ≠ w.self.specialty → 0 < quantity o.receive paid →
        s.SparesOnAccept st w o.give paid (quantity o.receive paid)

section Terms

variable {w : WorldView} {ad : Advertisement} {ttl n : Nat} {paid : Resource}

/-- A barter with an eligible partner. -/
theorem offerTerms_of_barter {bought : Resource} (heligible : w.Eligible ad)
    (hother : bought ≠ paid) (hsells : bought ∈ ad.selling) (hseeks : paid ∈ ad.seeking)
    (hpositive : 0 < n) (hlasting : 0 < ttl) (hrules : ttl ≤ w.rules.maxOfferTtlTicks)
    (hremaining : ttl ≤ w.remaining) :
    OfferTerms w ⟨ad.stationId, bundleOf paid n, bundleOf bought n, w.tick + ttl⟩ paid n := by
  unfold WorldView.remaining at hremaining
  refine ⟨hpositive, rfl, Or.inl ⟨bought, hother, rfl, ad, heligible.listed, rfl,
    heligible.active, heligible.live, hseeks, ?_⟩, heligible.foreign, heligible.known, ?_, ?_, ?_⟩
  · exact Finset.singleton_subset_iff.mpr hsells
  · intro o ho hrecipient
    exact heligible.idle (WorldView.mem_busy.mpr ⟨o, ho, hrecipient⟩)
  · dsimp only
    omega
  · dsimp only
    omega

/-- A gift to an eligible partner. -/
theorem offerTerms_of_gift (heligible : w.Eligible ad) (hseeks : w.self.specialty ∈ ad.seeking)
    (hpositive : 0 < n) (hsmall : n ≤ 2) (hlasting : 0 < ttl)
    (hrules : ttl ≤ w.rules.maxOfferTtlTicks) (hremaining : ttl ≤ w.remaining) :
    OfferTerms w ⟨ad.stationId, bundleOf w.self.specialty n, Bundle.zero, w.tick + ttl⟩
      w.self.specialty n := by
  unfold WorldView.remaining at hremaining
  refine ⟨hpositive, rfl, Or.inr ⟨rfl, hsmall, rfl, ad, heligible.listed, rfl,
    heligible.active, heligible.live, hseeks, Finset.empty_subset _⟩, heligible.foreign,
    heligible.known, ?_, ?_, ?_⟩
  · intro o ho hrecipient
    exact heligible.idle (WorldView.mem_busy.mpr ⟨o, ho, hrecipient⟩)
  · dsimp only
    omega
  · dsimp only
    omega

theorem fairIncoming {o : Offer} (ho : o ∈ w.openOffersToMe) (hlive : w.tick < o.expiresTick)
    (hfair : units o.receive ≤ units o.give) : FairIncoming w o := by
  obtain ⟨hlisted, hopen, haddressed⟩ := WorldView.mem_openOffersToMe.mp ho
  exact ⟨hlisted, hopen, hlive, haddressed, hfair⟩

/-- A gift costs nothing. -/
theorem units_receive_of_gift {o : Offer} (h : o.isGift = true) : units o.receive = 0 := by
  have hzero : ∀ r, quantity o.receive r = 0 := (isZero_iff _).mp h
  simp [units, RESOURCES, hzero]

end Terms

/-! ### The learning policies -/

section Learning

open BaseStrategy

variable {p : Policy} {st : StrategyState} {w : WorldView}

theorem purchase_terms {ad : Advertisement} {need payment : Resource} (hcan : CanOffer st w)
    (h : Purchasable p st w ad need payment) :
    OfferTerms w (purchaseBody p st w ad need payment) payment
      (purchaseAmount p st w need payment) := by
  apply offerTerms_of_barter h.eligible ?_ h.sells h.wants h.positive hcan.lasting
    (ttl_le_rules st w) (ttl_le_remaining st w)
  rcases mem_paymentOptions.mp h.payable with ⟨hneed, rfl⟩ | ⟨rfl, hpayment⟩
  · exact hneed
  · exact Ne.symm hpayment

/-- Something else than specialty is paid for specialty that is sought. -/
theorem purchase_spares {ad : Advertisement} {need payment : Resource}
    (h : Purchasable p st w ad need payment) (hother : payment ≠ w.self.specialty) :
    need = w.self.specialty ∧ w.self.specialty ∈ seeking p st w := by
  rcases mem_paymentOptions.mp h.payable with ⟨-, hpayment⟩ | ⟨rfl, -⟩
  · exact absurd hpayment hother
  · exact ⟨rfl, h.sought⟩

/-- An accepted offer is fair; it costs something else than specialty only where the
policy says so. -/
theorem accept_terms {o : Offer} (h : Acceptable p st w o) : FairIncoming w o ∧
    ∀ paid, paid ≠ w.self.specialty → 0 < quantity o.receive paid →
      p.SEEK_SPECIALTY_TO_TARGET = true ∧ w.self.specialty ∈ seeking p st w ∧
        0 < quantity o.give w.self.specialty := by
  rcases h.reasoned with hgift | hobjection
  · have hzero : ∀ r, quantity o.receive r = 0 := (isZero_iff _).mp hgift
    refine ⟨fairIncoming h.incoming h.live ?_, ?_⟩
    · rw [units_receive_of_gift hgift]
      exact Nat.zero_le _
    · intro paid _ hpaid
      rw [hzero paid] at hpaid
      cases hpaid
  · obtain ⟨hpays, hfair, -, -⟩ := tradeObjection_eq_none.mp hobjection
    refine ⟨fairIncoming h.incoming h.live hfair, ?_⟩
    intro paid hother hpaid
    rcases paysOnlySpecialty_eq_true.mp hpays with honly | ⟨hseek, hsought, -, hgives⟩
    · rw [honly paid hother] at hpaid
      cases hpaid
    · exact ⟨hseek, hsought, hgives⟩

/-- The default seeks specialty in an emergency only. -/
theorem critical_of_base_sought (h : w.self.specialty ∈ seeking BaseStrategy.policy st w) :
    w.self.specialty ∈ critical st w := by
  rcases mem_seeking.mp h with ⟨hother, -⟩ | ⟨-, hcritical | ⟨hseek, -⟩⟩
  · exact absurd rfl hother
  · exact hcritical
  · cases hseek

/-- What is sought is below the target. -/
theorem below_target_of_sought {r : Resource} (h : r ∈ seeking p st w) :
    quantity w.available r < quantity (target p st w) r := by
  have hneeds := needs_of_sought h
  rw [needs, quantity_saturatingSubtract] at hneeds
  omega

/-- Both learning policies, given when each of them spares other stock. -/
theorem learning_disciplined {s : Strategy} {key : Key} {message : ClientMessage}
    (hoffer : w.self.specialty ∈ seeking p st w → ∀ receive paid n,
      0 < quantity receive w.self.specialty → s.SparesOnOffer st w receive paid n)
    (haccept : p.SEEK_SPECIALTY_TO_TARGET = true → w.self.specialty ∈ seeking p st w →
      ∀ brings paid n, 0 < quantity brings w.self.specialty → s.SparesOnAccept st w brings paid n)
    (h : Move p st w key message) : s.Disciplined st w message := by
  cases h with
  | withdraw hrisky ho => exact ⟨by simp, by simp⟩
  | advertise hsafe hroutine => exact ⟨by simp, by simp⟩
  | accept hsafe ho =>
      refine ⟨by simp, ?_⟩
      rintro runId rid offerId heq
      cases heq
      obtain ⟨hfair, hspares⟩ := accept_terms ho
      refine ⟨_, rfl, hfair, ?_⟩
      intro paid hother hpaid
      obtain ⟨hseek, hsought, hgives⟩ := hspares paid hother hpaid
      exact haccept hseek hsought _ _ _ hgives
  | @purchase rid ad need payment hsafe hcan hpurchase =>
      refine ⟨?_, by simp⟩
      rintro runId rid body heq
      cases heq
      refine ⟨payment, _, purchase_terms hcan hpurchase, ?_⟩
      intro hother
      obtain ⟨rfl, hsought⟩ := purchase_spares hpurchase hother
      apply hoffer hsought
      rw [purchaseBody, quantity_bundleOf_self]
      exact hpurchase.positive
  | gift hsafe hcan hgift =>
      refine ⟨?_, by simp⟩
      rintro runId rid body heq
      cases heq
      have hterms := offerTerms_of_gift hgift.eligible hgift.wants hgift.positive
        (min_le_left _ _) hcan.lasting (ttl_le_rules st w) (ttl_le_remaining st w)
      exact ⟨_, _, hterms, fun hother => absurd rfl hother⟩

theorem base_disciplined {key : Key} {message : ClientMessage}
    (h : Move BaseStrategy.policy st w key message) : Strategy.base.Disciplined st w message := by
  refine learning_disciplined ?_ ?_ h
  · intro hsought receive paid n hreceives
    exact ⟨hreceives, critical_of_base_sought hsought⟩
  · intro hseek
    cases hseek

theorem restrained_disciplined {key : Key} {message : ClientMessage}
    (h : Move RestrainedTradingStrategy.policy st w key message) :
    Strategy.restrained.Disciplined st w message := by
  refine learning_disciplined ?_ ?_ h
  · intro hsought receive paid n hreceives
    exact ⟨hreceives, below_target_of_sought hsought⟩
  · intro _ hsought brings paid n hgives
    exact ⟨hgives, below_target_of_sought hsought⟩

end Learning

/-! ### The simplified policy -/

section Simplified

open SimplifiedTradingStrategy

variable {w : WorldView} {st : StrategyState}

theorem mem_simplified_seeking {r : Resource} : r ∈ seeking w ↔
    quantity w.available r < quantity w.self.upkeepPerTick r * min 15 w.remaining := by
  unfold seeking reorder REORDER_TICKS
  rw [mem_resourceSet, decide_eq_true_eq, quantity_scaled]

theorem mem_payments {need payment : Resource} : payment ∈ payments w need ↔
    (need ≠ w.self.specialty ∧ payment = w.self.specialty) ∨
      (need = w.self.specialty ∧ payment ≠ w.self.specialty) := by
  unfold payments
  split
  · rename_i hneed
    simp [hneed]
  · rename_i hneed
    rw [not_not] at hneed
    simp [hneed]

/-- What an exchange for specialty takes of another resource leaves the target. -/
theorem refillAmount_keeps_target {payment : Resource}
    (hpositive : 0 < refillAmount w w.self.specialty payment) :
    quantity w.self.upkeepPerTick payment * min 25 w.remaining +
      refillAmount w w.self.specialty payment ≤ quantity w.available payment := by
  have hspare : refillAmount w w.self.specialty payment ≤
      quantity (w.available.saturatingSubtract (target w)) payment := by
    unfold refillAmount
    dsimp only
    rw [if_pos rfl]
    exact le_trans (min_le_right _ _) (min_le_right _ _)
  rw [quantity_saturatingSubtract, target, TARGET_TICKS, quantity_scaled] at hspare
  omega

theorem specialtyPayment_eq_true {o : Offer} : specialtyPayment w o = true ↔
    ∀ r, r ≠ w.self.specialty → quantity o.receive r = 0 := by
  unfold specialtyPayment
  rw [List.all_eq_true]
  constructor
  · intro h r hr
    have hpaid := h r (mem_RESOURCES r)
    rw [Bool.or_eq_true, beq_iff_eq, beq_iff_eq] at hpaid
    exact hpaid.resolve_left hr
  · intro h r _
    rw [Bool.or_eq_true, beq_iff_eq, beq_iff_eq]
    by_cases hr : r = w.self.specialty
    · exact Or.inl hr
    · exact Or.inr (h r hr)

theorem sparePayment_eq_true {o : Offer} : sparePayment w o = true ↔
    w.self.specialty ∈ seeking w ∧ 0 < quantity o.give w.self.specialty ∧
      quantity o.receive w.self.specialty = 0 ∧
      ∀ r, quantity o.receive r ≤ quantity w.available r - quantity (target w) r := by
  unfold sparePayment
  simp only [Bool.and_eq_true, decide_eq_true_eq, beq_iff_eq, gt_iff_lt, and_assoc, covers_iff,
    quantity_saturatingSubtract]

theorem simplified_disciplined {key : Key} {message : ClientMessage} (h : Move w key message) :
    Strategy.simplified.Disciplined st w message := by
  cases h with
  | withdraw hrisky ho => exact ⟨by simp, by simp⟩
  | publish hsafe => exact ⟨by simp, by simp⟩
  | accept hsafe ho =>
      refine ⟨by simp, ?_⟩
      rintro runId rid offerId heq
      cases heq
      refine ⟨_, rfl, fairIncoming ho.incoming ho.live ho.fair, ?_⟩
      intro paid hother hpaid
      rcases ho.payment with honly | hspare
      · rw [specialtyPayment_eq_true.mp honly paid hother] at hpaid
        cases hpaid
      · obtain ⟨hsought, hgives, -, hcovers⟩ := sparePayment_eq_true.mp hspare
        have hcover := hcovers paid
        rw [target, TARGET_TICKS, quantity_scaled] at hcover
        refine ⟨hgives, mem_simplified_seeking.mp hsought, ?_⟩
        omega
  | @refill rid ad need payment hsafe hcan hrefill =>
      refine ⟨?_, by simp⟩
      rintro runId rid body heq
      cases heq
      have hdistinct : need ≠ payment := by
        rcases mem_payments.mp hrefill.payable with ⟨hneed, rfl⟩ | ⟨rfl, hpayment⟩
        · exact hneed
        · exact Ne.symm hpayment
      have hterms := offerTerms_of_barter hrefill.eligible hdistinct hrefill.sells hrefill.wants
        hrefill.positive hcan.lasting (SimplifiedTradingStrategy.ttl_le_rules w)
        (SimplifiedTradingStrategy.ttl_le_remaining w)
      refine ⟨payment, _, hterms, ?_⟩
      intro hother
      rcases mem_payments.mp hrefill.payable with ⟨-, hpayment⟩ | ⟨rfl, -⟩
      · exact absurd hpayment hother
      refine ⟨?_, mem_simplified_seeking.mp hrefill.short,
        refillAmount_keeps_target hrefill.positive⟩
      rw [refillBody, quantity_bundleOf_self]
      exact hrefill.positive
  | gift hsafe hcan hgift =>
      refine ⟨?_, by simp⟩
      rintro runId rid body heq
      cases heq
      have hsmall : giftAmount w ≤ 2 := le_trans (min_le_left _ _) (min_le_left _ _)
      have hterms := offerTerms_of_gift hgift.eligible hgift.wants hgift.positive hsmall
        hcan.lasting (SimplifiedTradingStrategy.ttl_le_rules w)
        (SimplifiedTradingStrategy.ttl_le_remaining w)
      exact ⟨_, _, hterms, fun hother => absurd rfl hother⟩

end Simplified

/-! ### The law -/

/-- **Payment discipline.** Every offer is a one-for-one barter of two resources or a
small gift of specialty, to a partner that asked for it, with a deadline within the
rules; every accepted offer is live, ours to accept, and fair; and other stock than
specialty is paid only where the strategy spares it. -/
theorem payment_discipline {s : Strategy} {env : ChooseEnv} {st st' : StrategyState}
    {w : WorldView} {d : Decision} (h : s.choose env st w = .ok (st', some d)) :
    s.Disciplined st' w d.message := by
  obtain ⟨-, -, hmove, -⟩ := Strategy.choose_decided h
  cases s with
  | base => exact base_disciplined hmove
  | restrained => exact restrained_disciplined hmove
  | simplified => exact simplified_disciplined hmove

theorem payment_discipline_sample : ∃ st',
    Strategy.base.choose .sample {} .sample = .ok (st', some .sample) ∧
      Strategy.base.Disciplined st' .sample Decision.sample.message := by
  obtain ⟨st', h⟩ := Strategy.exists_state_of_decisionOf Strategy.decisionOf_sample
  exact ⟨st', h, payment_discipline h⟩

end PlanetCharlu
