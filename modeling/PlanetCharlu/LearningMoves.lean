import PlanetCharlu.LearningTrading

/-!
# The moves of the learning policies

The counterpart of the simplified policy's move relation for the `choose` body
that `BaseStrategy` and `RestrainedTradingStrategy` share: what may be sent on a
snapshot, with the checks that precede it, and the proof that `choose` returns
nothing else.
-/

namespace PlanetCharlu.BaseStrategy

open StableSort FirstHit

/-! ### The safety test and the criticality test, as facts -/

section Tests

variable {p : Policy} {st : StrategyState} {w : WorldView}

/-- Inventory less the reserve held for commitments covers the commitments. -/
def Safe (p : Policy) (st : StrategyState) (w : WorldView) : Prop :=
  ∀ r, quantity w.committed r ≤
    quantity w.self.inventory r - quantity (commitmentReserve p st w) r

theorem commitmentsUnsafe_eq_false : commitmentsUnsafe p st w = false ↔ Safe p st w := by
  unfold commitmentsUnsafe Safe
  rw [Bool.not_eq_false', covers_iff]
  constructor
  · intro h r
    have hr := h r
    rwa [quantity_saturatingSubtract] at hr
  · intro h r
    rw [quantity_saturatingSubtract]
    exact h r

theorem Safe.available_add_committed (h : Safe p st w) (r : Resource) :
    quantity w.available r + quantity w.committed r = quantity w.self.inventory r := by
  have hr := h r
  rw [WorldView.quantity_available]
  omega

/-- Brings in more of some critical resource than it takes. -/
def NetsCritical (st : StrategyState) (w : WorldView) (brings takes : Bundle) : Prop :=
  ∃ r, r ∈ critical st w ∧ quantity takes r < quantity brings r

theorem netsCritical_eq_true {brings takes : Bundle} :
    netsCritical st w brings takes = true ↔ NetsCritical st w brings takes := by
  unfold netsCritical Checks.netsCritical NetsCritical
  rw [List.any_eq_true]
  constructor
  · rintro ⟨r, -, hr⟩
    rw [Bool.and_eq_true, decide_eq_true_eq, decide_eq_true_eq] at hr
    exact ⟨r, hr.1, hr.2⟩
  · rintro ⟨r, hcritical, hmore⟩
    refine ⟨r, mem_RESOURCES r, ?_⟩
    rw [Bool.and_eq_true, decide_eq_true_eq, decide_eq_true_eq]
    exact ⟨hcritical, hmore⟩

/-- A critical resource holds less than the urgency threshold. -/
theorem mem_critical {r : Resource} :
    r ∈ critical st w ↔ quantity w.available r <
      quantity w.self.upkeepPerTick r * min (urgencyTicks st w) w.remaining := by
  rw [critical, mem_resourceSet, decide_eq_true_eq, urgentReserve, quantity_scaled]

theorem routineOk_eq_true : routineOk st w = true ↔
    st.usedRecords w + EMERGENCY_RESERVE < w.rules.maxRequestRecordsPerStation := by
  unfold routineOk budgetLeft
  rw [decide_eq_true_eq]
  omega

end Tests

/-! ### How the thresholds compare -/

section Thresholds

variable {p : Policy} {st : StrategyState} {w : WorldView} {r : Resource}

theorem ttl_le_rules (st : StrategyState) (w : WorldView) :
    ttl st w ≤ w.rules.maxOfferTtlTicks :=
  le_trans (min_le_left _ _) (min_le_right _ _)

theorem ttl_le_remaining (st : StrategyState) (w : WorldView) : ttl st w ≤ w.remaining :=
  min_le_right _ _

theorem quantity_scaled_min_mono {a b : Nat} (h : a ≤ b) (r : Resource) :
    quantity (scaled w.self.upkeepPerTick (min a w.remaining)) r ≤
      quantity (scaled w.self.upkeepPerTick (min b w.remaining)) r := by
  rw [quantity_scaled, quantity_scaled]
  exact Nat.mul_le_mul_left _ (min_le_min_right _ h)

theorem emergency_le_reserve (p : Policy) (st : StrategyState) (w : WorldView) (r : Resource) :
    quantity (emergencyReserve w) r ≤ quantity (reserve p st w) r := by
  apply quantity_scaled_min_mono
  unfold reserveTicks
  omega

theorem urgent_le_target (p : Policy) (st : StrategyState) (w : WorldView) (r : Resource) :
    quantity (urgentReserve st w) r ≤ quantity (target p st w) r := by
  have hlatency : 1 ≤ latencyTicks st w := le_max_left _ _
  apply quantity_scaled_min_mono
  unfold urgencyTicks targetTicks
  omega

/-- What is critical is short of the target too. -/
theorem needs_of_critical (p : Policy) (h : r ∈ critical st w) : 0 < quantity (needs p st w) r := by
  rw [critical, mem_resourceSet, decide_eq_true_eq] at h
  have htarget := urgent_le_target p st w r
  rw [needs, quantity_saturatingSubtract]
  omega

/-- Specialty is sought in an emergency, and by the conservative policy up to its target;
what we do not produce, up to the target. -/
theorem mem_seeking : r ∈ seeking p st w ↔
    (r ≠ w.self.specialty ∧ 0 < quantity (needs p st w) r) ∨
      (r = w.self.specialty ∧ (r ∈ critical st w ∨
        p.SEEK_SPECIALTY_TO_TARGET = true ∧ 0 < quantity (needs p st w) r)) := by
  unfold seeking Checks.seekingOf notProduced
  rw [Finset.mem_union]
  simp only [mem_resourceSet, bne_iff_ne, ne_eq, decide_eq_true_eq, Bool.and_eq_true]
  apply or_congr_right
  split
  · rename_i hsought
    rw [Finset.mem_singleton]
    constructor
    · rintro rfl
      exact ⟨rfl, hsought⟩
    · rintro ⟨rfl, -⟩
      rfl
  · rename_i hidle
    constructor
    · intro hr
      cases hr
    · rintro ⟨rfl, hsought⟩
      exact absurd hsought hidle

/-- Whatever is sought is short of the target. -/
theorem needs_of_sought (h : r ∈ seeking p st w) : 0 < quantity (needs p st w) r := by
  rcases mem_seeking.mp h with ⟨-, hneeds⟩ | ⟨-, hcritical | ⟨-, hneeds⟩⟩
  · exact hneeds
  · exact needs_of_critical p hcritical
  · exact hneeds

/-- A critical resource is sought. -/
theorem sought_of_critical (p : Policy) (h : r ∈ critical st w) : r ∈ seeking p st w := by
  by_cases hspecialty : r = w.self.specialty
  · exact mem_seeking.mpr (Or.inr ⟨hspecialty, Or.inl h⟩)
  · exact mem_seeking.mpr (Or.inl ⟨hspecialty, needs_of_critical p h⟩)

/-- Only specialty is paid with something else, and only with something else. -/
theorem mem_paymentOptions {need payment : Resource} : payment ∈ paymentOptions w need ↔
    (need ≠ w.self.specialty ∧ payment = w.self.specialty) ∨
      (need = w.self.specialty ∧ payment ≠ w.self.specialty) := by
  unfold paymentOptions
  split
  · rename_i hneed
    simp [hneed, notProduced]
  · rename_i hneed
    simp [hneed]

end Thresholds

/-! ### What is checked before each kind of command -/

section Checks

variable (p : Policy) (st : StrategyState) (w : WorldView)

structure Acceptable (o : Offer) : Prop where
  incoming : o ∈ w.openOffersToMe
  live : w.tick < o.expiresTick
  affordable : ∀ r, quantity o.receive r ≤ quantity w.available r
  kept : ∀ r, min (quantity w.available r) (quantity (paymentReserve p st w o) r) ≤
    quantity w.available r - quantity o.receive r + quantity o.give r
  reasoned : o.isGift = true ∨ tradeObjection p st w o = none

structure CanOffer : Prop where
  lasting : 0 < ttl st w
  room : w.outgoing.length < w.rules.maxOpenOutgoingOffers

structure Purchasable (ad : Advertisement) (need payment : Resource) : Prop where
  sought : need ∈ seeking p st w
  rationed : need ∈ critical st w ∨ routineOk st w = true
  eligible : w.Eligible ad
  sells : need ∈ ad.selling
  trusted : confirmedSuppliersOf st need = ∅ ∨ ad.stationId ∈ confirmedSuppliersOf st need
  payable : payment ∈ paymentOptions w need
  wants : payment ∈ ad.seeking
  positive : 0 < purchaseAmount p st w need payment

structure Giftable (ad : Advertisement) : Prop where
  rationed : routineOk st w = true
  allowed : p.canGift (reserveTicks p st w) w w.available (ttl st w) = true
  eligible : w.Eligible ad
  wants : w.self.specialty ∈ ad.seeking
  positive : 0 < giftAmount p st w

/-- The terms of a purchase offer. -/
def purchaseBody (ad : Advertisement) (need payment : Resource) : OfferBody where
  recipientId := ad.stationId
  give := bundleOf payment (purchaseAmount p st w need payment)
  receive := bundleOf need (purchaseAmount p st w need payment)
  expiresTick := w.tick + ttl st w

/-- The terms of a gift. -/
def giftBody (ad : Advertisement) : OfferBody where
  recipientId := ad.stationId
  give := bundleOf w.self.specialty (giftAmount p st w)
  receive := Bundle.zero
  expiresTick := w.tick + ttl st w

inductive Move : Key → ClientMessage → Prop where
  | withdraw {rid : String} {o : Offer} (hrisky : commitmentsUnsafe p st w = true)
      (ho : o ∈ w.outgoing) : Move (.withdraw o.offerId) (.withdraw w.runId rid o.offerId)
  | accept {rid : String} {o : Offer} (hsafe : Safe p st w) (ho : Acceptable p st w o) :
      Move (.accept o.offerId) (.accept w.runId rid o.offerId)
  | advertise {rid : String} {body : AdvertiseBody} (hsafe : Safe p st w)
      (hroutine : routineOk st w = true) : Move .advertise (.advertise w.runId rid body)
  | purchase {rid : String} {ad : Advertisement} {need payment : Resource}
      (hsafe : Safe p st w) (hcan : CanOffer st w)
      (hpurchase : Purchasable p st w ad need payment) :
      Move (.partner ad.stationId) (.offer w.runId rid (purchaseBody p st w ad need payment))
  | gift {rid : String} {ad : Advertisement} (hsafe : Safe p st w) (hcan : CanOffer st w)
      (hgift : Giftable p st w ad) :
      Move (.partner ad.stationId) (.offer w.runId rid (giftBody p st w ad))

end Checks

/-! ### The trade checks, as facts -/

section Trades

variable {p : Policy} {st : StrategyState} {w : WorldView} {o : Offer}

theorem paysOnlySpecialty_eq_true : paysOnlySpecialty p st w o = true ↔
    (∀ r, r ≠ w.self.specialty → quantity o.receive r = 0) ∨
      (p.SEEK_SPECIALTY_TO_TARGET = true ∧ w.self.specialty ∈ seeking p st w ∧
        quantity o.receive w.self.specialty = 0 ∧ 0 < quantity o.give w.self.specialty) := by
  unfold paysOnlySpecialty Checks.paysOnlySpecialty
  rw [Bool.or_eq_true]
  apply or_congr
  · rw [List.all_eq_true]
    constructor
    · intro h r hr
      have hpaid := h r (mem_RESOURCES r)
      rw [Bool.or_eq_true, beq_iff_eq, beq_iff_eq] at hpaid
      exact hpaid.resolve_left hr
    · intro h r _
      rw [Bool.or_eq_true, beq_iff_eq, beq_iff_eq]
      by_cases hr : r = w.self.specialty
      · exact Or.inl hr
      · exact Or.inr (h r hr)
  · simp only [Bool.and_eq_true, decide_eq_true_eq, beq_iff_eq, gt_iff_lt, and_assoc]

theorem keepsReserve_eq_true : keepsReserve p st w o
    (w.available.saturatingSubtract o.receive + o.give) = true ↔
      ∀ r, min (quantity w.available r) (quantity (paymentReserve p st w o) r) ≤
        quantity w.available r - quantity o.receive r + quantity o.give r := by
  unfold keepsReserve Checks.keepsReserve
  rw [List.all_eq_true]
  constructor
  · intro h r
    have hr := h r (mem_RESOURCES r)
    rw [decide_eq_true_eq, quantity_add, quantity_saturatingSubtract] at hr
    exact hr
  · intro h r _
    rw [decide_eq_true_eq, quantity_add, quantity_saturatingSubtract]
    exact h r

theorem netsNeeded_eq_true : netsNeeded p st w o = true ↔
    ∃ r ∈ seeking p st w, quantity o.receive r < quantity o.give r := by
  unfold netsNeeded Checks.netsNeeded
  rw [List.any_eq_true]
  constructor
  · rintro ⟨r, -, hr⟩
    rw [Bool.and_eq_true, decide_eq_true_eq, decide_eq_true_eq] at hr
    exact ⟨r, hr.1, hr.2⟩
  · rintro ⟨r, hsought, hnets⟩
    refine ⟨r, mem_RESOURCES r, ?_⟩
    rw [Bool.and_eq_true, decide_eq_true_eq, decide_eq_true_eq]
    exact ⟨hsought, hnets⟩

theorem tradeObjection_eq_none : tradeObjection p st w o = none ↔
    paysOnlySpecialty p st w o = true ∧ units o.receive ≤ units o.give ∧
      netsNeeded p st w o = true ∧ (routineOk st w = true ∨ rescuesCritical st w o = true) := by
  have hchecks : (paysOnlySpecialty p st w o && decide (units o.give ≥ units o.receive) &&
      netsNeeded p st w o && (routineOk st w || rescuesCritical st w o)) = true ↔
      paysOnlySpecialty p st w o = true ∧ units o.receive ≤ units o.give ∧
        netsNeeded p st w o = true ∧ (routineOk st w = true ∨ rescuesCritical st w o = true) := by
    simp only [Bool.and_eq_true, decide_eq_true_eq, Bool.or_eq_true, ge_iff_le, and_assoc]
  rw [← hchecks]
  unfold tradeObjection Checks.tradeObjection
  dsimp only
  constructor
  · intro h
    split at h
    · assumption
    · split_ifs at h
  · intro h
    rw [if_pos h]

end Trades

/-! ### Each step of the body makes a move -/

section Steps

variable {p : Policy} {env : ChooseEnv} {st : StrategyState} {w : WorldView} {d : Decision}

theorem withdrawUnsafe_move (hrisky : commitmentsUnsafe p st w = true)
    (h : withdrawUnsafe env st w = some d) :
    Move p st w d.key d.message ∧ st.Admits env.encodedLength w d.key d.message := by
  obtain ⟨o, ho, hd⟩ := List.exists_of_findSome?_eq_some h
  have hadmitted := StrategyState.admitted_of_decision hd
  obtain ⟨rfl, -, -⟩ := StrategyState.decision_eq_some hd
  exact ⟨.withdraw hrisky ho, hadmitted⟩

/-- An accepted review found the offer acceptable. Unlike the simplified policy,
this body checks the reserve for gifts too. -/
theorem review_eq_some {o : Offer} {note : String} (ho : o ∈ w.openOffersToMe)
    (h : review p env st w o = .ok (some d, note)) :
    Acceptable p st w o ∧ st.Admits env.encodedLength w d.key d.message ∧
      ∃ reason, d = ⟨.accept o.offerId, reason, .accept w.runId env.requestId o.offerId⟩ := by
  unfold review at h
  by_cases hexp : o.isExpiredBy w.tick = true
  · rw [if_pos hexp] at h
    cases h
  rw [if_neg hexp] at h
  have hlive : w.tick < o.expiresTick := by
    rw [Bool.not_eq_true] at hexp
    exact (Offer.isExpiredBy_eq_false o w.tick).mp hexp
  by_cases hcov : w.available.covers o.receive = false
  · rw [if_pos hcov] at h
    cases h
  rw [if_neg hcov] at h
  rw [Bool.not_eq_false] at hcov
  rw [Bundle.minus_of_covers hcov] at h
  dsimp only at h
  split at h
  · cases h
  rename_i hkeeps
  rw [Bool.not_eq_false] at hkeeps
  have hkept := keepsReserve_eq_true.mp hkeeps
  have haffordable := (covers_iff _ _).mp hcov
  by_cases hgift : o.isGift = true
  · rw [if_pos hgift] at h
    simp only [Except.ok.injEq] at h
    obtain ⟨rfl, hadmitted⟩ := StrategyState.tryAccept_eq_some h
    exact ⟨⟨ho, hlive, haffordable, hkept, Or.inl hgift⟩, hadmitted, _, rfl⟩
  · rw [if_neg hgift] at h
    split at h
    · cases h
    · rename_i hobjection
      simp only [Except.ok.injEq] at h
      obtain ⟨rfl, hadmitted⟩ := StrategyState.tryAccept_eq_some h
      exact ⟨⟨ho, hlive, haffordable, hkept, Or.inr hobjection⟩, hadmitted, _, rfl⟩

/-- An acceptable offer is accepted when its turn comes, if the filter lets it through. -/
theorem review_of_acceptable {o : Offer} (ho : Acceptable p st w o)
    (hadmits : st.Admits env.encodedLength w (.accept o.offerId)
      (.accept w.runId env.requestId o.offerId)) :
    ∃ d note, review p env st w o = .ok (some d, note) := by
  have hcov := (covers_iff _ _).mpr ho.affordable
  have hkeeps : keepsReserve p st w o (w.available.saturatingSubtract o.receive + o.give) = true :=
    keepsReserve_eq_true.mpr ho.kept
  unfold review
  rw [if_neg (by simp [ho.live]), if_neg (by simp [hcov]), Bundle.minus_of_covers hcov]
  dsimp only
  rw [if_neg (by simp [hkeeps])]
  by_cases hgift : o.isGift = true
  · rw [if_pos hgift]
    obtain ⟨d, note, htry⟩ := StrategyState.tryAccept_of_admits hadmits "accept free gift"
    exact ⟨d, note, by rw [htry]⟩
  · rw [if_neg hgift, ho.reasoned.resolve_left hgift]
    obtain ⟨d, note, htry⟩ := StrategyState.tryAccept_of_admits hadmits
      "accept favorable-or-equal trade for a resource we need"
    exact ⟨d, note, by rw [htry]⟩

theorem advertisement_eq_some (h : advertisement p env st w = some d) :
    routineOk st w = true ∧ st.Admits env.encodedLength w d.key d.message ∧
      ∃ reason body, d = ⟨.advertise, reason, .advertise w.runId env.requestId body⟩ := by
  unfold advertisement at h
  dsimp only at h
  split at h
  · rename_i hcond
    split at h
    · have hadmitted := StrategyState.admitted_of_decision h
      obtain ⟨rfl, -, -⟩ := StrategyState.decision_eq_some h
      exact ⟨hcond.1, hadmitted, _, _, rfl⟩
    · cases h
  · cases h

theorem mem_pool {need : Resource} {ad : Advertisement} :
    ad ∈ pool st w need ↔ w.Eligible ad ∧ need ∈ ad.selling ∧
      (confirmedSuppliersOf st need = ∅ ∨ ad.stationId ∈ confirmedSuppliersOf st need) := by
  unfold pool
  rw [List.mem_filter, StrategyState.mem_ads, Bool.and_eq_true, Bool.or_eq_true,
    decide_eq_true_eq, decide_eq_true_eq, decide_eq_true_eq]

theorem pairwise_pool (st : StrategyState) (w : WorldView) (need : Resource) :
    (pool st w need).Pairwise fun a b => st.turnKey a ≤ st.turnKey b :=
  (st.pairwise_ads w).filter _

/-- A partner that may be sent this purchase, under the limits on commands. -/
structure MayBuy (p : Policy) (env : ChooseEnv) (st : StrategyState) (w : WorldView)
    (need : Resource) (ad : Advertisement) (payment : Resource) : Prop where
  purchasable : Purchasable p st w ad need payment
  admits : st.Admits env.encodedLength w (.partner ad.stationId)
    (.offer w.runId env.requestId (purchaseBody p st w ad need payment))

/-- A purchase goes to the partner that waited longest among those it may be sent to. -/
theorem purchase_eq_some {advertised : Bool} (h : purchase p env st w advertised = some d) :
    ∃ ad need payment reason, MayBuy p env st w need ad payment ∧
      d = ⟨.partner ad.stationId, reason,
        .offer w.runId env.requestId (purchaseBody p st w ad need payment)⟩ ∧
      ∀ ad' payment', MayBuy p env st w need ad' payment' → st.turnKey ad ≤ st.turnKey ad' := by
  unfold purchase at h
  obtain ⟨need, hneed, h⟩ := List.exists_of_findSome?_eq_some h
  have hsought : need ∈ seeking p st w := by simpa [wanted] using hneed
  split at h
  · cases h
  split at h
  · cases h
  rename_i hration
  have hrationed : need ∈ critical st w ∨ routineOk st w = true := by
    by_cases hurgent : need ∈ critical st w
    · exact Or.inl hurgent
    · right
      by_contra hbudget
      rw [Bool.not_eq_true] at hbudget
      exact hration ⟨hurgent, hbudget⟩
  obtain ⟨ad, had, h, hleast⟩ := exists_least_of_findSome? (pairwise_pool st w need) h
  obtain ⟨heligible, hsells, htrusted⟩ := mem_pool.mp had
  obtain ⟨payment, hpayable, h⟩ := List.exists_of_findSome?_eq_some h
  split at h
  · cases h
  rename_i hwants
  dsimp only at h
  split at h
  · cases h
  rename_i hpositive
  have hadmits := StrategyState.admits_of_decision h
  obtain ⟨rfl, -, -⟩ := StrategyState.decision_eq_some h
  have hpurchase : Purchasable p st w ad need payment :=
    ⟨hsought, hrationed, heligible, hsells, htrusted, hpayable, not_not.mp hwants,
      Nat.pos_of_ne_zero fun hzero => hpositive (Nat.le_of_eq hzero)⟩
  refine ⟨ad, need, payment, _, ⟨hpurchase, hadmits⟩, rfl, ?_⟩
  rintro ad' payment' ⟨hpurchase', hadmits'⟩
  apply hleast ad' (mem_pool.mpr ⟨hpurchase'.eligible, hpurchase'.sells, hpurchase'.trusted⟩)
  -- The payment that qualifies makes the walk over the payments stop.
  rw [← Option.isSome_iff_ne_none, List.findSome?_isSome_iff]
  refine ⟨payment', hpurchase'.payable, ?_⟩
  rw [if_neg (not_not.mpr hpurchase'.wants)]
  dsimp only
  rw [if_neg (not_le.mpr hpurchase'.positive), Codec.buildOffer]
  exact Option.isSome_iff_exists.mpr ⟨_, StrategyState.decision_of_admits hadmits' _⟩

/-- A partner that may be sent a gift, under the limits on commands. -/
structure MayGive (p : Policy) (env : ChooseEnv) (st : StrategyState) (w : WorldView)
    (ad : Advertisement) : Prop where
  giftable : Giftable p st w ad
  admits : st.Admits env.encodedLength w (.partner ad.stationId)
    (.offer w.runId env.requestId (giftBody p st w ad))

/-- A gift goes to the partner that waited longest among those it may be sent to. -/
theorem gift_eq_some (h : gift p env st w = some d) :
    ∃ ad reason, MayGive p env st w ad ∧
      d = ⟨.partner ad.stationId, reason, .offer w.runId env.requestId (giftBody p st w ad)⟩ ∧
      ∀ ad', MayGive p env st w ad' → st.turnKey ad ≤ st.turnKey ad' := by
  unfold gift at h
  split at h
  · rename_i hallowed
    obtain ⟨ad, had, h, hleast⟩ := exists_least_of_findSome? (st.pairwise_ads w) h
    split at h
    · cases h
    rename_i hcond
    rw [not_or, not_not, not_le] at hcond
    have hadmits := StrategyState.admits_of_decision h
    obtain ⟨rfl, -, -⟩ := StrategyState.decision_eq_some h
    have hgift : Giftable p st w ad :=
      ⟨hallowed.1, hallowed.2, StrategyState.mem_ads.mp had, hcond.1, hcond.2⟩
    refine ⟨ad, _, ⟨hgift, hadmits⟩, rfl, ?_⟩
    rintro ad' ⟨hgift', hadmits'⟩
    apply hleast ad' (StrategyState.mem_ads.mpr hgift'.eligible)
    rw [if_neg (not_or.mpr ⟨not_not.mpr hgift'.wants, not_le.mpr hgift'.positive⟩),
      ← Option.isSome_iff_ne_none, Codec.buildOffer]
    exact Option.isSome_iff_exists.mpr ⟨_, StrategyState.decision_of_admits hadmits' _⟩
  · cases h

/-- What the body returns past the incoming offers comes from one of three steps. -/
theorem initiate_eq_some (h : initiate p env st w = some d) :
    advertisement p env st w = some d ∨
      (CanOffer st w ∧ ∃ advertised, purchase p env st w advertised = some d) ∨
        (CanOffer st w ∧ gift p env st w = some d) := by
  unfold initiate at h
  dsimp only at h
  split at h
  · exact Or.inl h
  rename_i hroom
  split at h
  · exact Or.inl h
  rename_i hlasting
  have hcan : CanOffer st w := ⟨not_le.mp hlasting, not_le.mp hroom⟩
  split at h
  · rename_i action haction
    simp only [Option.some.injEq] at h
    subst h
    exact Or.inr (Or.inl ⟨hcan, _, haction⟩)
  · split at h
    · rename_i action haction
      simp only [Option.some.injEq] at h
      subst h
      exact Or.inl haction
    · exact Or.inr (Or.inr ⟨hcan, h⟩)

theorem initiate_move (hsafe : Safe p st w) (h : initiate p env st w = some d) :
    Move p st w d.key d.message ∧ st.Admits env.encodedLength w d.key d.message := by
  rcases initiate_eq_some h with hads | ⟨hcan, advertised, hpurchase⟩ | ⟨hcan, hgift⟩
  · obtain ⟨hroutine, hadmitted, reason, body, rfl⟩ := advertisement_eq_some hads
    exact ⟨.advertise hsafe hroutine, hadmitted⟩
  · obtain ⟨ad, need, payment, reason, hbuy, rfl, -⟩ := purchase_eq_some hpurchase
    exact ⟨.purchase hsafe hcan hbuy.purchasable, hbuy.admits.fresh, hbuy.admits.fits⟩
  · obtain ⟨ad, reason, hgive, rfl, -⟩ := gift_eq_some hgift
    exact ⟨.gift hsafe hcan hgive.giftable, hgive.admits.fresh, hgive.admits.fits⟩

/-- Nothing is accepted past the incoming offers. -/
theorem initiate_not_accept {runId rid offerId : String} (h : initiate p env st w = some d) :
    d.message ≠ .accept runId rid offerId := by
  rcases initiate_eq_some h with hads | ⟨-, advertised, hpurchase⟩ | ⟨-, hgift⟩
  · obtain ⟨-, -, reason, body, rfl⟩ := advertisement_eq_some hads
    simp
  · obtain ⟨ad, need, payment, reason, -, rfl, -⟩ := purchase_eq_some hpurchase
    simp
  · obtain ⟨ad, reason, -, rfl, -⟩ := gift_eq_some hgift
    simp

end Steps

/-! ### The whole call -/

/-- The ways through the body, each with the tests it passed. -/
inductive Chosen (p : Policy) (env : ChooseEnv) (st : StrategyState) (w : WorldView) :
    Option Decision → Prop where
  | closed (hclosed : ¬ (st.GateOpen w ∧ 0 < w.remaining)) : Chosen p env st w none
  | withdraws (hgate : st.GateOpen w) (hticks : 0 < w.remaining)
      (hrisky : commitmentsUnsafe p st w = true) : Chosen p env st w (withdrawUnsafe env st w)
  | accepts {d : Decision} {notes : List (Offer × String)} (hgate : st.GateOpen w)
      (hticks : 0 < w.remaining) (hsafe : Safe p st w)
      (hscan : scan (review p env st w) (incoming st w) = .ok (some d, notes)) :
      Chosen p env st w (some d)
  | initiates {notes : List (Offer × String)} (hgate : st.GateOpen w) (hticks : 0 < w.remaining)
      (hsafe : Safe p st w)
      (hscan : scan (review p env st w) (incoming st w) = .ok (none, notes)) :
      Chosen p env st w (initiate p env st w)

theorem chooseBody_cases {p : Policy} {env : ChooseEnv} {st : StrategyState} {w : WorldView}
    {action : Option Decision} {notes : List (Offer × String)}
    (h : chooseBody p env st w = .ok (action, notes)) : Chosen p env st w action := by
  unfold chooseBody at h
  by_cases hgate : st.gateClosed w = true
  · rw [if_pos hgate] at h
    cases h
    refine .closed ?_
    rintro ⟨hopen, -⟩
    rw [StrategyState.gateClosed_eq_false.mpr hopen] at hgate
    cases hgate
  rw [if_neg hgate] at h
  rw [Bool.not_eq_true] at hgate
  have hopen := StrategyState.gateClosed_eq_false.mp hgate
  by_cases hleft : w.remaining = 0
  · rw [if_pos hleft] at h
    cases h
    refine .closed ?_
    rintro ⟨-, hticks⟩
    omega
  rw [if_neg hleft] at h
  have hticks := Nat.pos_of_ne_zero hleft
  by_cases hrisky : commitmentsUnsafe p st w = true
  · rw [if_pos hrisky] at h
    cases h
    exact .withdraws hopen hticks hrisky
  rw [if_neg hrisky] at h
  rw [Bool.not_eq_true] at hrisky
  have hsafe := commitmentsUnsafe_eq_false.mp hrisky
  split at h
  · cases h
  · rename_i action' notes' hscan
    cases h
    exact .accepts hopen hticks hsafe hscan
  · rename_i notes' hscan
    cases h
    exact .initiates hopen hticks hsafe hscan

/-- **The ways through `choose`**, in the state `prepare` leaves. -/
theorem choose_cases {p : Policy} {env : ChooseEnv} {st st' : StrategyState} {w : WorldView}
    {action : Option Decision} (h : choose p env st w = .ok (st', action)) :
    Chosen p env (prepare env st w) w action := by
  unfold choose at h
  dsimp only at h
  split at h
  · cases h
  · rename_i action' notes hbody
    simp only [Except.ok.injEq, Prod.mk.injEq] at h
    obtain ⟨-, rfl⟩ := h
    exact chooseBody_cases hbody

/-- What a call that returns a decision has checked. -/
structure Decided (p : Policy) (size : ClientMessage → Nat) (st : StrategyState) (w : WorldView)
    (d : Decision) : Prop where
  gate : st.GateOpen w
  ticksLeft : 0 < w.remaining
  move : Move p st w d.key d.message
  admitted : st.Admits size w d.key d.message

/-- **What `choose` returns is a move**, in the state `prepare` leaves. -/
theorem choose_decided {p : Policy} {env : ChooseEnv} {st st' : StrategyState} {w : WorldView}
    {d : Decision} (h : choose p env st w = .ok (st', some d)) :
    Decided p env.encodedLength (prepare env st w) w d := by
  generalize hst : prepare env st w = st₀
  have hcases := choose_cases h
  rw [hst] at hcases
  generalize haction : some d = action at hcases
  cases hcases with
  | closed hclosed => cases haction
  | withdraws hgate hticks hrisky =>
      obtain ⟨hmove, hadmitted⟩ := withdrawUnsafe_move hrisky haction.symm
      exact ⟨hgate, hticks, hmove, hadmitted⟩
  | accepts hgate hticks hsafe hscan =>
      cases haction
      obtain ⟨o, ho, note, hreview⟩ := exists_of_scan hscan
      rw [incoming, Checks.incoming, mem_sortedBy] at ho
      obtain ⟨hacceptable, hadmitted, reason, rfl⟩ := review_eq_some ho hreview
      exact ⟨hgate, hticks, .accept hsafe hacceptable, hadmitted⟩
  | initiates hgate hticks hsafe hscan =>
      obtain ⟨hmove, hadmitted⟩ := initiate_move hsafe haction.symm
      exact ⟨hgate, hticks, hmove, hadmitted⟩

/-- With an open gate, unsafe commitments leave nothing but withdrawals. -/
theorem Chosen.of_risky {p : Policy} {env : ChooseEnv} {st : StrategyState} {w : WorldView}
    {action : Option Decision} (h : Chosen p env st w action) (hgate : st.GateOpen w)
    (hticks : 0 < w.remaining) (hrisky : commitmentsUnsafe p st w = true) :
    action = withdrawUnsafe env st w := by
  cases h with
  | closed hclosed => exact absurd ⟨hgate, hticks⟩ hclosed
  | withdraws _ _ _ => rfl
  | accepts _ _ hsafe _ =>
      rw [commitmentsUnsafe_eq_false.mpr hsafe] at hrisky
      cases hrisky
  | initiates _ _ hsafe _ =>
      rw [commitmentsUnsafe_eq_false.mpr hsafe] at hrisky
      cases hrisky

/-- A withdrawal is the first step of the body, and its test was positive. -/
theorem choose_withdraw {p : Policy} {env : ChooseEnv} {st st' : StrategyState} {w : WorldView}
    {d : Decision} {runId rid offerId : String} (h : choose p env st w = .ok (st', some d))
    (hmessage : d.message = .withdraw runId rid offerId) :
    (prepare env st w).GateOpen w ∧ 0 < w.remaining ∧
      commitmentsUnsafe p (prepare env st w) w = true ∧
        withdrawUnsafe env (prepare env st w) w = some d := by
  obtain ⟨hgate, hticks, hmove, -⟩ := choose_decided h
  rw [hmessage] at hmove
  generalize d.key = key at hmove
  cases hmove with
  | withdraw hrisky _ =>
      exact ⟨hgate, hticks, hrisky, ((choose_cases h).of_risky hgate hticks hrisky).symm⟩

/-- An offer is made by the last step of the body. -/
theorem choose_offer {p : Policy} {env : ChooseEnv} {st st' : StrategyState} {w : WorldView}
    {d : Decision} {runId rid : String} {body : OfferBody}
    (h : choose p env st w = .ok (st', some d)) (hmessage : d.message = .offer runId rid body) :
    initiate p env (prepare env st w) w = some d := by
  have hcases := choose_cases h
  generalize haction : some d = action at hcases
  cases hcases with
  | closed _ => cases haction
  | withdraws _ _ _ =>
      obtain ⟨o, -, hd⟩ := List.exists_of_findSome?_eq_some haction.symm
      obtain ⟨rfl, -, -⟩ := StrategyState.decision_eq_some hd
      cases hmessage
  | accepts _ _ _ hscan =>
      cases haction
      obtain ⟨o, ho, note, hreview⟩ := exists_of_scan hscan
      rw [incoming, Checks.incoming, mem_sortedBy] at ho
      obtain ⟨-, -, reason, rfl⟩ := review_eq_some ho hreview
      cases hmessage
  | initiates _ _ _ _ => rfl

/-- `choose` changes the strategy only through `prepare` and the offer review. -/
theorem choose_state {p : Policy} {env : ChooseEnv} {st st' : StrategyState} {w : WorldView}
    {action : Option Decision} (h : choose p env st w = .ok (st', action)) :
    ∃ notes, st' = { prepare env st w with lastOfferReview := notes } := by
  unfold choose at h
  dsimp only at h
  split at h
  · cases h
  · rename_i action' notes hbody
    simp only [Except.ok.injEq, Prod.mk.injEq] at h
    exact ⟨notes, h.1.symm⟩

/-! ### `choose` never raises -/

theorem review_isOk (p : Policy) (env : ChooseEnv) (st : StrategyState) (w : WorldView)
    (o : Offer) : ∃ out, review p env st w o = .ok out := by
  unfold review
  split
  · exact ⟨_, rfl⟩
  · split
    · exact ⟨_, rfl⟩
    · rename_i hcov
      rw [Bool.not_eq_false] at hcov
      rw [Bundle.minus_of_covers hcov]
      dsimp only
      split
      · exact ⟨_, rfl⟩
      · split
        · exact ⟨_, rfl⟩
        · split <;> exact ⟨_, rfl⟩

theorem choose_isOk (p : Policy) (env : ChooseEnv) (st : StrategyState) (w : WorldView) :
    ∃ out, choose p env st w = .ok out := by
  have hbody : ∃ out, chooseBody p env (prepare env st w) w = .ok out := by
    unfold chooseBody
    split_ifs
    · exact ⟨_, rfl⟩
    · exact ⟨_, rfl⟩
    · exact ⟨_, rfl⟩
    · have hwalk : ∃ out, scan (review p env (prepare env st w) w)
          (incoming (prepare env st w) w) = .ok out :=
        scan_isOk fun o _ => review_isOk p env (prepare env st w) w o
      obtain ⟨⟨found, notes⟩, hscan⟩ := hwalk
      rw [hscan]
      cases found with
      | some found => exact ⟨_, rfl⟩
      | none => exact ⟨_, rfl⟩
  obtain ⟨⟨action, notes⟩, hbody⟩ := hbody
  exact ⟨_, by unfold choose; dsimp only; rw [hbody]⟩

/-! ### Learning leaves the attempt accounting alone -/

section Learning

variable (w : WorldView)

/-- Two states with the same attempt accounting. -/
structure SameAttempts (a b : StrategyState) : Prop where
  tick : a.tick = b.tick
  attempted : a.attempted = b.attempted
  sentThisTick : a.sentThisTick = b.sentThisTick
  sentTotal : a.sentTotal = b.sentTotal
  retryTick : a.retryTick = b.retryTick

theorem SameAttempts.trans {a b c : StrategyState} (hab : SameAttempts a b)
    (hbc : SameAttempts b c) : SameAttempts a c :=
  ⟨hab.tick.trans hbc.tick, hab.attempted.trans hbc.attempted,
    hab.sentThisTick.trans hbc.sentThisTick, hab.sentTotal.trans hbc.sentTotal,
    hab.retryTick.trans hbc.retryTick⟩

/-- The second state differs from the first only in what is learned from snapshots. -/
def OnlyLearned (a b : StrategyState) : Prop :=
  ∃ known seen latencies pending, b = { a with
    knownSuppliers := known
    seenTransactions := seen
    latencies := latencies
    pendingTradeTimes := pending }

theorem OnlyLearned.refl (st : StrategyState) : OnlyLearned st st := ⟨_, _, _, _, rfl⟩

theorem OnlyLearned.trans {a b c : StrategyState} (hab : OnlyLearned a b)
    (hbc : OnlyLearned b c) : OnlyLearned a c := by
  obtain ⟨_, _, _, _, rfl⟩ := hab
  obtain ⟨_, _, _, _, rfl⟩ := hbc
  exact ⟨_, _, _, _, rfl⟩

theorem OnlyLearned.sameAttempts {a b : StrategyState} (h : OnlyLearned a b) :
    SameAttempts b a := by
  obtain ⟨_, _, _, _, rfl⟩ := h
  exact ⟨rfl, rfl, rfl, rfl, rfl⟩

theorem OnlyLearned.partnerTurn {a b : StrategyState} (h : OnlyLearned a b) :
    b.partnerTurn = a.partnerTurn := by
  obtain ⟨_, _, _, _, rfl⟩ := h
  rfl

theorem onlyLearned_observeLatency (st : StrategyState) (seconds : ℚ) :
    OnlyLearned st (st.observeLatency seconds) := by
  unfold StrategyState.observeLatency
  split <;> exact ⟨_, _, _, _, rfl⟩

theorem sameAttempts_observeLatency (st : StrategyState) (seconds : ℚ) :
    SameAttempts (st.observeLatency seconds) st :=
  (onlyLearned_observeLatency st seconds).sameAttempts

theorem observeLatency_roster (st : StrategyState) (seconds : ℚ) :
    (st.observeLatency seconds).knownSuppliers = st.knownSuppliers ∧
      (st.observeLatency seconds).seenTransactions = st.seenTransactions := by
  unfold StrategyState.observeLatency
  split <;> exact ⟨rfl, rfl⟩

/-- A new transaction is marked as seen, and its delivery noted. -/
theorem learnTransaction_of_new {w : WorldView} {st : StrategyState} {tx : Transaction}
    (clock : Transaction → ℚ) (h : tx.transactionId ∉ st.seenTransactions) :
    ∃ s : StrategyState, OnlyLearned st s ∧ s.knownSuppliers = st.knownSuppliers ∧
      s.seenTransactions = insert tx.transactionId st.seenTransactions ∧
      learnTransaction clock w st tx =
        if tx.proposerId = w.selfStationId then addSupplier s tx.recipientId tx.receive
        else if tx.recipientId = w.selfStationId then addSupplier s tx.proposerId tx.give
        else s := by
  have hmarked : OnlyLearned st { st with
      seenTransactions := insert tx.transactionId st.seenTransactions
      pendingTradeTimes := Function.update st.pendingTradeTimes tx.offerId none } :=
    ⟨_, _, _, _, rfl⟩
  unfold learnTransaction
  rw [if_neg h]
  dsimp only
  cases st.pendingTradeTimes tx.offerId with
  | some started =>
      obtain ⟨hknown, hseen⟩ := observeLatency_roster { st with
        seenTransactions := insert tx.transactionId st.seenTransactions
        pendingTradeTimes := Function.update st.pendingTradeTimes tx.offerId none }
        (clock tx - started)
      exact ⟨_, hmarked.trans (onlyLearned_observeLatency _ _), hknown, hseen, rfl⟩
  | none => exact ⟨_, hmarked, rfl, rfl, rfl⟩

theorem onlyLearned_learnTransaction (clock : Transaction → ℚ) (st : StrategyState)
    (tx : Transaction) : OnlyLearned st (learnTransaction clock w st tx) := by
  by_cases hold : tx.transactionId ∈ st.seenTransactions
  · have hskip : learnTransaction clock w st tx = st := if_pos hold
    rw [hskip]
    exact .refl st
  · obtain ⟨s, hmarked, -, -, hlearn⟩ := learnTransaction_of_new (w := w) clock hold
    rw [hlearn]
    refine hmarked.trans ?_
    split_ifs
    · exact ⟨_, _, _, _, rfl⟩
    · exact ⟨_, _, _, _, rfl⟩
    · exact .refl s

theorem onlyLearned_forgetClosedOffer (st : StrategyState) (o : Offer) :
    OnlyLearned st (forgetClosedOffer w st o) := by
  unfold forgetClosedOffer
  split <;> exact ⟨_, _, _, _, rfl⟩

theorem onlyLearned_foldl {α : Type} {f : StrategyState → α → StrategyState}
    (hf : ∀ st x, OnlyLearned st (f st x)) (xs : List α) (st : StrategyState) :
    OnlyLearned st (xs.foldl f st) := by
  induction xs generalizing st with
  | nil => exact .refl st
  | cons x rest ih => exact (hf st x).trans (ih (f st x))

theorem onlyLearned_learnSuppliers (env : ChooseEnv) (st : StrategyState) :
    OnlyLearned st (learnSuppliers env st w) := by
  have htransactions := onlyLearned_foldl (onlyLearned_learnTransaction w env.clock)
    w.transactions st
  have hoffers := onlyLearned_foldl (onlyLearned_forgetClosedOffer w) w.offers
    (w.transactions.foldl (learnTransaction env.clock w) st)
  exact htransactions.trans hoffers

theorem sameAttempts_learnSuppliers (env : ChooseEnv) (st : StrategyState) :
    SameAttempts (learnSuppliers env st w) st :=
  (onlyLearned_learnSuppliers w env st).sameAttempts

end Learning

end PlanetCharlu.BaseStrategy
