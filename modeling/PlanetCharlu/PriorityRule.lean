import PlanetCharlu.PaymentDiscipline

/-!
# The simplified policy takes an action of the highest priority

What the policy may do on a snapshot is stated here without its loops: an `Action` is
allowed by facts about the snapshot alone, and it is admissible when the command limits
let it through. Actions are ranked: gifts to us, trades offered to us, purchases by how
little of the resource is left, our listing, gifts of ours. `choose` returns an
admissible action that no other admissible one precedes, and nothing only when there is
none.
-/

namespace PlanetCharlu.SimplifiedTradingStrategy

open StableSort FirstHit

variable {env : ChooseEnv} {st st' : StrategyState} {w : WorldView} {d : Decision}
  {action : Option Decision}

/-- What the policy may do on a snapshot, apart from withdrawing. -/
inductive Action where
  | accept (o : Offer)
  | purchase (ad : Advertisement) (need payment : Resource)
  | advertise
  | gift (ad : Advertisement)

/-! ### What is allowed on a snapshot -/

/-- An incoming offer that asks for a payment may be accepted: no resource drops below
the guard for it, it is paid in specialty or, while specialty is short, from stock above
the target, it brings in as much as it costs, and more of something below target. -/
structure TradeAllowed (w : WorldView) (o : Offer) : Prop where
  kept : ∀ r, min (quantity w.available r)
      (quantity w.self.upkeepPerTick r * min (5 + horizon w) w.remaining) ≤
    quantity w.available r - quantity o.receive r + quantity o.give r
  paid : (∀ r, r ≠ w.self.specialty → quantity o.receive r = 0) ∨
    (quantity w.available w.self.specialty <
        quantity w.self.upkeepPerTick w.self.specialty * min 15 w.remaining ∧
      0 < quantity o.give w.self.specialty ∧ quantity o.receive w.self.specialty = 0 ∧
      ∀ r, quantity o.receive r ≤
        quantity w.available r - quantity w.self.upkeepPerTick r * min 25 w.remaining)
  fair : units o.receive ≤ units o.give
  useful : ∃ r, quantity w.available r < quantity w.self.upkeepPerTick r * min 25 w.remaining ∧
    quantity o.receive r < quantity o.give r

structure AcceptAllowed (w : WorldView) (o : Offer) : Prop where
  listed : o ∈ w.offers
  isOpen : o.status = .OPEN
  addressed : o.recipientId = w.selfStationId
  live : w.tick < o.expiresTick
  affordable : ∀ r, quantity o.receive r ≤ quantity w.available r
  terms : o.isGift = true ∨ TradeAllowed w o

/-- A resource below fifteen ticks that no open offer buys may be bought, from a partner
whose live advertisement sells it for a payment we can spare. -/
structure PurchaseAllowed (w : WorldView) (ad : Advertisement) (need payment : Resource) :
    Prop where
  canOffer : CanOffer w
  short : quantity w.available need <
    quantity w.self.upkeepPerTick need * min 15 w.remaining
  unordered : ∀ o ∈ w.outgoing, quantity o.receive need ≤ quantity o.give need
  eligible : w.Eligible ad
  sells : need ∈ ad.selling
  wants : payment ∈ ad.seeking
  oneSpecialty : need = w.self.specialty ↔ payment ≠ w.self.specialty
  spare : quantity w.self.upkeepPerTick payment *
      min (5 + max (horizon w) (ttl w)) w.remaining < quantity w.available payment
  surplus : need = w.self.specialty →
    quantity w.self.upkeepPerTick payment * min 25 w.remaining < quantity w.available payment

/-- There is something to list, and the listing we have is missing, about to expire or
out of date. -/
structure AdvertiseAllowed (w : WorldView) : Prop where
  news : (selling w ∪ seeking w).Nonempty
  due : ∀ ad, w.ownAds.head? = some ad →
    ad.expiresTick ≤ w.tick + 1 ∨ ad.selling ≠ selling w ∨ ad.seeking ≠ seeking w
  lasting : 0 < w.rules.maxPublicationTtlTicks

/-- Specialty above the target may be given to a partner that seeks it, while every
resource is at the target. -/
structure GiftAllowed (w : WorldView) (ad : Advertisement) : Prop where
  canOffer : CanOffer w
  eligible : w.Eligible ad
  wants : w.self.specialty ∈ ad.seeking
  spare : quantity w.self.upkeepPerTick w.self.specialty *
      min (5 + max (horizon w) (ttl w)) w.remaining < quantity w.available w.self.specialty
  surplus : quantity w.self.upkeepPerTick w.self.specialty * min 25 w.remaining <
    quantity w.available w.self.specialty
  stocked : ∀ r, quantity w.self.upkeepPerTick r * min 25 w.remaining ≤ quantity w.available r

def Action.Allowed (w : WorldView) : Action → Prop
  | .accept o => AcceptAllowed w o
  | .purchase ad need payment => PurchaseAllowed w ad need payment
  | .advertise => AdvertiseAllowed w
  | .gift ad => GiftAllowed w ad

/-! ### What an action sends, and its priority -/

/-- The terms of the listing. -/
def publishBody (w : WorldView) : AdvertiseBody where
  selling := sortedByValue (selling w)
  seeking := sortedByValue (seeking w)
  expiresTick := w.tick + min (min 10 w.rules.maxPublicationTtlTicks) w.remaining

def Action.key : Action → Key
  | .accept o => .accept o.offerId
  | .purchase ad _ _ => .partner ad.stationId
  | .advertise => .advertise
  | .gift ad => .partner ad.stationId

def Action.message (env : ChooseEnv) (w : WorldView) : Action → ClientMessage
  | .accept o => .accept w.runId env.requestId o.offerId
  | .purchase ad need payment => .offer w.runId env.requestId (refillBody w ad need payment)
  | .advertise => .advertise w.runId env.requestId (publishBody w)
  | .gift ad => .offer w.runId env.requestId (giftBody w ad)

/-- The snapshot allows the action, its key is new this tick, and its message fits. -/
structure Admissible (env : ChooseEnv) (st : StrategyState) (w : WorldView) (a : Action) :
    Prop where
  allowed : a.Allowed w
  admits : st.Admits env.encodedLength w a.key (a.message env w)

def Action.rank : Action → Nat
  | .accept o => if o.isGift then 0 else 1
  | .purchase _ _ _ => 2
  | .advertise => 3
  | .gift _ => 4

/-- Only purchases are ranked among themselves. -/
def Action.scarcity (w : WorldView) : Action → WithTop ℚ
  | .purchase _ need _ => coverage w need
  | _ => 0

/-- Smaller is more urgent. -/
def Action.priority (w : WorldView) (a : Action) : ℕ ×ₗ WithTop ℚ := toLex (a.rank, a.scarcity w)

theorem Action.priority_le_of_rank {a a' : Action} (h : a.rank < a'.rank) :
    a.priority w ≤ a'.priority w := by
  unfold priority
  rw [Prod.Lex.toLex_le_toLex]
  exact Or.inl h

theorem Action.rank_accept_le (o : Offer) : (Action.accept o).rank ≤ 1 := by
  change (if o.isGift then 0 else 1) ≤ 1
  split
  · exact Nat.zero_le _
  · exact le_refl _

/-- An accepted offer comes before everything else, and before other offers if it is a
gift or they are not. -/
theorem Action.priority_accept_le {o : Offer} {a' : Action}
    (h : ∀ o', a' = .accept o' → o'.isGift = true → o.isGift = true) :
    (Action.accept o).priority w ≤ a'.priority w := by
  have hrank := rank_accept_le o
  rcases a' with o' | ⟨ad, need, payment⟩ | _ | ad
  · unfold priority
    rw [Prod.Lex.toLex_le_toLex]
    by_cases hgift' : o'.isGift = true
    · simp [rank, scarcity, h o' rfl hgift', hgift']
    · by_cases hgift : o.isGift = true
      · simp [rank, scarcity, hgift, hgift']
      · simp [rank, scarcity, hgift, hgift']
  · exact priority_le_of_rank (lt_of_le_of_lt hrank (by decide : 1 < 2))
  · exact priority_le_of_rank (lt_of_le_of_lt hrank (by decide : 1 < 3))
  · exact priority_le_of_rank (lt_of_le_of_lt hrank (by decide : 1 < 4))

/-! ### The checks of the loops are these conditions -/

theorem useful_eq_true {o : Offer} : useful w o = true ↔
    ∃ r, quantity w.available r < quantity w.self.upkeepPerTick r * min 25 w.remaining ∧
      quantity o.receive r < quantity o.give r := by
  unfold useful Checks.useful target TARGET_TICKS
  rw [List.any_eq_true]
  constructor
  · rintro ⟨r, -, hr⟩
    rw [Bool.and_eq_true, decide_eq_true_eq, decide_eq_true_eq, quantity_scaled] at hr
    exact ⟨r, hr⟩
  · rintro ⟨r, hr⟩
    refine ⟨r, mem_RESOURCES r, ?_⟩
    rw [Bool.and_eq_true, decide_eq_true_eq, decide_eq_true_eq, quantity_scaled]
    exact hr

theorem quantity_guard (w : WorldView) (r : Resource) :
    quantity (guard w) r = quantity w.self.upkeepPerTick r * min (5 + horizon w) w.remaining := by
  rw [guard, RESERVE_TICKS, quantity_scaled]

theorem quantity_target (w : WorldView) (r : Resource) :
    quantity (target w) r = quantity w.self.upkeepPerTick r * min 25 w.remaining := by
  rw [target, TARGET_TICKS, quantity_scaled]

theorem quantity_paymentGuard (w : WorldView) (r : Resource) :
    quantity (paymentGuard w) r = quantity w.self.upkeepPerTick r *
      min (5 + max (horizon w) (ttl w)) w.remaining := by
  rw [paymentGuard, RESERVE_TICKS, quantity_scaled]

theorem paid_iff {o : Offer} : specialtyPayment w o = true ∨ sparePayment w o = true ↔
    (∀ r, r ≠ w.self.specialty → quantity o.receive r = 0) ∨
      (quantity w.available w.self.specialty <
          quantity w.self.upkeepPerTick w.self.specialty * min 15 w.remaining ∧
        0 < quantity o.give w.self.specialty ∧ quantity o.receive w.self.specialty = 0 ∧
        ∀ r, quantity o.receive r ≤
          quantity w.available r - quantity w.self.upkeepPerTick r * min 25 w.remaining) := by
  rw [specialtyPayment_eq_true, sparePayment_eq_true, mem_simplified_seeking]
  simp only [quantity_target]

theorem acceptable_iff_allowed {o : Offer} : Acceptable w o ↔ AcceptAllowed w o := by
  constructor
  · intro h
    obtain ⟨hlisted, hopen, haddressed⟩ := WorldView.mem_openOffersToMe.mp h.incoming
    refine ⟨hlisted, hopen, haddressed, h.live, h.affordable, h.helpful.imp_right ?_⟩
    intro huseful
    refine ⟨?_, paid_iff.mp h.payment, h.fair, useful_eq_true.mp huseful⟩
    intro r
    rw [← quantity_guard]
    exact h.kept r
  · intro h
    have hincoming := WorldView.mem_openOffersToMe.mpr ⟨h.listed, h.isOpen, h.addressed⟩
    rcases h.terms with hgift | htrade
    · exact acceptable_of_gift hincoming h.live hgift
    · refine ⟨hincoming, h.live, h.affordable, ?_, paid_iff.mpr htrade.paid, htrade.fair,
        Or.inr (useful_eq_true.mpr htrade.useful)⟩
      intro r
      rw [quantity_guard]
      exact htrade.kept r

theorem notMem_pending {need : Resource} : need ∉ pending w ↔
    ∀ o ∈ w.outgoing, quantity o.receive need ≤ quantity o.give need := by
  unfold pending
  simp

/-- An amount can be bought when the need is short of the target and the payment is
spare. -/
theorem refillAmount_pos {need payment : Resource} : 0 < refillAmount w need payment ↔
    quantity w.available need < quantity (target w) need ∧
      quantity (paymentGuard w) payment < quantity w.available payment ∧
        (need = w.self.specialty → quantity (target w) payment < quantity w.available payment) := by
  unfold refillAmount spendable
  dsimp only
  split
  · rename_i hneed
    simp only [quantity_saturatingSubtract, hneed, forall_const]
    omega
  · rename_i hneed
    simp only [quantity_saturatingSubtract, hneed, false_implies, and_true]
    omega

theorem short_of_target {need : Resource} (h : quantity w.available need <
    quantity w.self.upkeepPerTick need * min 15 w.remaining) :
    quantity w.available need < quantity (target w) need := by
  rw [quantity_target]
  exact lt_of_lt_of_le h (Nat.mul_le_mul_left _ (min_le_min_right _ (by omega)))

theorem refillable_iff_allowed {ad : Advertisement} {need payment : Resource} :
    CanOffer w ∧ Refillable w ad need payment ↔ PurchaseAllowed w ad need payment := by
  have hpayable : payment ∈ payments w need ↔
      (need = w.self.specialty ↔ payment ≠ w.self.specialty) := by
    rw [mem_payments]
    tauto
  constructor
  · rintro ⟨hcan, h⟩
    obtain ⟨-, hspare, hsurplus⟩ := refillAmount_pos.mp h.positive
    rw [quantity_paymentGuard] at hspare
    rw [quantity_target] at hsurplus
    exact ⟨hcan, mem_simplified_seeking.mp h.short, notMem_pending.mp h.notPending, h.eligible,
      h.sells, h.wants, hpayable.mp h.payable, hspare, hsurplus⟩
  · intro h
    have hspare := h.spare
    have hsurplus := h.surplus
    rw [← quantity_paymentGuard] at hspare
    rw [← quantity_target] at hsurplus
    have hpositive := refillAmount_pos.mpr ⟨short_of_target h.short, hspare, hsurplus⟩
    exact ⟨h.canOffer, mem_simplified_seeking.mpr h.short, notMem_pending.mpr h.unordered,
      h.eligible, h.sells, hpayable.mpr h.oneSpecialty, h.wants, hpositive⟩

theorem giftAmount_pos : 0 < giftAmount w ↔
    quantity (paymentGuard w) w.self.specialty < quantity w.available w.self.specialty ∧
      quantity (target w) w.self.specialty < quantity w.available w.self.specialty := by
  unfold giftAmount spendable
  simp only [quantity_saturatingSubtract]
  omega

theorem giftable_iff_allowed {ad : Advertisement} :
    CanOffer w ∧ Giftable w ad ↔ GiftAllowed w ad := by
  constructor
  · rintro ⟨hcan, h⟩
    obtain ⟨hspare, hsurplus⟩ := giftAmount_pos.mp h.positive
    rw [quantity_paymentGuard] at hspare
    rw [quantity_target] at hsurplus
    refine ⟨hcan, h.eligible, h.wants, hspare, hsurplus, ?_⟩
    intro r
    have hkept := h.kept r
    rw [quantity_target] at hkept
    omega
  · intro h
    have hspare := h.spare
    have hsurplus := h.surplus
    rw [← quantity_paymentGuard] at hspare
    rw [← quantity_target] at hsurplus
    refine ⟨h.canOffer, h.eligible, h.wants, giftAmount_pos.mpr ⟨hspare, hsurplus⟩, ?_⟩
    intro r
    by_cases hr : r = w.self.specialty
    · subst hr
      have hamount : giftAmount w ≤
          quantity w.available w.self.specialty - quantity (target w) w.self.specialty := by
        unfold giftAmount
        rw [quantity_saturatingSubtract]
        exact min_le_right _ _
      rw [quantity_bundleOf_self]
      omega
    · rw [quantity_bundleOf_of_ne hr, quantity_target]
      exact h.stocked r

theorem listingDue_eq_true : listingDue w = true ↔ ∀ ad, w.ownAds.head? = some ad →
    ad.expiresTick ≤ w.tick + 1 ∨ ad.selling ≠ selling w ∨ ad.seeking ≠ seeking w := by
  unfold listingDue Checks.listingDue
  split
  · rename_i hnone
    simp [hnone]
  · rename_i ad hsome
    simp [hsome, or_assoc]

/-! ### No admissible action is passed over by its step -/

theorem admissible_of_mayRefill {need payment : Resource} {ad : Advertisement} (hcan : CanOffer w)
    (h : MayRefill env st w need ad payment) : Admissible env st w (.purchase ad need payment) :=
  ⟨refillable_iff_allowed.mp ⟨hcan, h.refillable⟩, h.admits⟩

theorem mayRefill_of_admissible {need payment : Resource} {ad : Advertisement}
    (h : Admissible env st w (.purchase ad need payment)) :
    CanOffer w ∧ MayRefill env st w need ad payment := by
  obtain ⟨hcan, hrefill⟩ := refillable_iff_allowed.mpr h.allowed
  exact ⟨hcan, hrefill, h.admits⟩

theorem exists_refill {need payment : Resource} {ad : Advertisement}
    (h : MayRefill env st w need ad payment) : ∃ d, refill env st w = some d := by
  unfold refill
  rw [← Option.isSome_iff_exists, List.findSome?_isSome_iff]
  refine ⟨need, by simpa [wanted] using h.refillable.short, ?_⟩
  rw [if_neg h.refillable.notPending, List.findSome?_isSome_iff]
  refine ⟨ad, StrategyState.mem_ads.mpr h.refillable.eligible, ?_⟩
  rw [if_neg (not_not.mpr h.refillable.sells), Option.isSome_iff_ne_none]
  exact offers_of_mayRefill h

theorem exists_publish (hticks : 0 < w.remaining) (h : Admissible env st w .advertise) :
    ∃ d, publish env st w = some d := by
  obtain ⟨hnews, hdue, hlasting⟩ := h.allowed
  unfold publish
  rw [if_pos ⟨hnews, listingDue_eq_true.mpr hdue⟩]
  dsimp only
  rw [if_pos (by omega), Codec.buildAdvertise]
  exact ⟨_, StrategyState.decision_of_admits h.admits _⟩

theorem admissible_of_publish (h : publish env st w = some d) :
    Admissible env st w .advertise ∧
      ∃ reason, d = ⟨.advertise, reason, Action.advertise.message env w⟩ := by
  unfold publish at h
  dsimp only at h
  split_ifs at h with hcond hlasting
  have hadmits := StrategyState.admits_of_decision h
  obtain ⟨rfl, -, -⟩ := StrategyState.decision_eq_some h
  exact ⟨⟨⟨hcond.1, listingDue_eq_true.mp hcond.2, by omega⟩, hadmits⟩, _, rfl⟩

theorem exists_share {ad : Advertisement} (h : MayShare env st w ad) :
    ∃ d, share env st w = .ok (some d) := by
  have hsome : ((st.ads w).findSome? fun ad =>
      if w.self.specialty ∈ ad.seeking then
        st.decision env w (.partner ad.stationId)
          ("share surplus " ++ w.self.specialty.value ++ " while retaining 25 ticks")
          (Codec.buildOffer w.runId env.requestId ad.stationId
            (bundleOf w.self.specialty (giftAmount w)) Bundle.zero (w.tick + ttl w))
      else none).isSome = true := by
    rw [List.findSome?_isSome_iff]
    refine ⟨ad, StrategyState.mem_ads.mpr h.giftable.eligible, ?_⟩
    rw [if_pos h.giftable.wants, Codec.buildOffer]
    exact Option.isSome_iff_exists.mpr ⟨_, StrategyState.decision_of_admits h.admits _⟩
  obtain ⟨d, hd⟩ := Option.isSome_iff_exists.mp hsome
  refine ⟨d, ?_⟩
  unfold share
  dsimp only
  rw [if_pos h.giftable.positive, Bundle.minus_of_covers available_covers_gift]
  dsimp only
  rw [if_pos (gift_leaves_target.mpr h.giftable.kept), hd]

/-! ### The law -/

/-- A decision carries out an action. -/
def Action.CarriedOut (env : ChooseEnv) (w : WorldView) (a : Action) (d : Decision) : Prop :=
  d.key = a.key ∧ d.message = a.message env w

/-- What is returned is an admissible action that no admissible action precedes; nothing is
returned only when no action is admissible. -/
structure FollowsPriority (env : ChooseEnv) (st : StrategyState) (w : WorldView)
    (action : Option Decision) : Prop where
  none_iff : action = none ↔ ∀ a, ¬ Admissible env st w a
  first : ∀ d, action = some d → ∃ a, Admissible env st w a ∧ a.CarriedOut env w d ∧
    ∀ a', Admissible env st w a' → a.priority w ≤ a'.priority w

theorem followsPriority_some {a : Action} (hadmissible : Admissible env st w a)
    (hout : a.CarriedOut env w d)
    (hfirst : ∀ a', Admissible env st w a' → a.priority w ≤ a'.priority w) :
    FollowsPriority env st w (some d) := by
  refine ⟨?_, ?_⟩
  · constructor
    · intro h
      cases h
    · intro hnone
      exact absurd hadmissible (hnone a)
  · intro d' hd'
    cases hd'
    exact ⟨a, hadmissible, hout, hfirst⟩

/-- Gifts are reviewed before trades, and an admissible offer is never passed over. -/
theorem followsPriority_of_accept {notes : List (Offer × String)}
    (hscan : scan (review env st w) (incoming w) = .ok (some d, notes)) :
    FollowsPriority env st w (some d) := by
  obtain ⟨before, o, after, note, hsplit, hreview, hbefore⟩ := exists_split_of_scan hscan
  have hmem : o ∈ incoming w := by simp [hsplit]
  rw [incoming, mem_sortedBy] at hmem
  obtain ⟨hacceptable, hadmitted, reason, rfl⟩ := review_eq_some hmem hreview
  have hadmissible : Admissible env st w (.accept o) :=
    ⟨acceptable_iff_allowed.mp hacceptable, hadmitted.fresh, hadmitted.fits⟩
  refine followsPriority_some hadmissible ⟨rfl, rfl⟩ ?_
  intro a' ha'
  apply Action.priority_accept_le
  rintro o' rfl hgift'
  -- The admissible offer `o'` was not passed over, so it is not sorted before `o`.
  have hacceptable' := acceptable_iff_allowed.mpr ha'.allowed
  have hnot : o' ∉ before := by
    intro hbad
    obtain ⟨note', hnone⟩ := hbefore o' hbad
    obtain ⟨d', note'', hsome⟩ := review_of_acceptable hacceptable' ha'.admits
    rw [hsome] at hnone
    cases hnone
  have hmem' : o' ∈ incoming w := by
    rw [incoming, mem_sortedBy]
    exact hacceptable'.incoming
  have hkey := key_le_of_split (pairwise_sortedBy _ _) hsplit hmem' hnot
  rw [Prod.Lex.toLex_le_toLex] at hkey
  by_contra hpaid
  rw [Bool.not_eq_true] at hpaid
  simp only [hgift', hpaid, Bool.not_false, Bool.not_true] at hkey
  exact absurd hkey (by simp)

/-- Nothing is returned past the incoming offers only when each step returned nothing. -/
theorem initiate_eq_none (h : initiate env st w = .ok none) :
    (CanOffer w → refill env st w = none) ∧ publish env st w = none ∧
      (CanOffer w → share env st w = .ok none) := by
  unfold initiate at h
  split at h
  · cases h
  rename_i hrefill
  split at h
  · cases h
  rename_i hpublish
  refine ⟨?_, hpublish, ?_⟩
  · intro hcan
    rw [if_pos (canOffer_eq_true.mpr hcan)] at hrefill
    exact hrefill
  · intro hcan
    rw [if_pos (canOffer_eq_true.mpr hcan)] at h
    exact h

/-- Past the incoming offers, each step is tried in its turn. -/
theorem followsPriority_of_initiate (hticks : 0 < w.remaining)
    (hpassed : ∀ o, ¬ Admissible env st w (.accept o)) (h : initiate env st w = .ok action) :
    FollowsPriority env st w action := by
  have hrefills : ∀ ad need payment, refill env st w = none →
      ¬ Admissible env st w (.purchase ad need payment) := by
    intro ad need payment hnone hadmissible
    obtain ⟨d, hd⟩ := exists_refill (mayRefill_of_admissible hadmissible).2
    rw [hnone] at hd
    cases hd
  have hpublishes : publish env st w = none → ¬ Admissible env st w .advertise := by
    intro hnone hadmissible
    obtain ⟨d, hd⟩ := exists_publish hticks hadmissible
    rw [hnone] at hd
    cases hd
  cases action with
  | none =>
      obtain ⟨hrefill, hpublish, hshare⟩ := initiate_eq_none h
      refine ⟨?_, by simp⟩
      refine iff_of_true rfl ?_
      intro a ha
      rcases a with o | ⟨ad, need, payment⟩ | _ | ad
      · exact hpassed o ha
      · exact hrefills ad need payment (hrefill (mayRefill_of_admissible ha).1) ha
      · exact hpublishes hpublish ha
      · obtain ⟨hcan, hgift⟩ := giftable_iff_allowed.mpr ha.allowed
        obtain ⟨d, hd⟩ := exists_share ⟨hgift, ha.admits⟩
        rw [hshare hcan] at hd
        cases hd
  | some d =>
      rcases initiate_eq_some h with ⟨hcan, hrefill⟩ | ⟨hnone, hpublish⟩ |
          ⟨hcan, hnone, hsilent, hshare⟩
      · obtain ⟨ad, need, payment, reason, hmay, rfl, -, hscarcest⟩ := refill_eq_some hrefill
        refine followsPriority_some (admissible_of_mayRefill hcan hmay) ⟨rfl, rfl⟩ ?_
        intro a' ha'
        rcases a' with o | ⟨ad', need', payment'⟩ | _ | ad'
        · exact absurd ha' (hpassed o)
        · unfold Action.priority
          rw [Prod.Lex.toLex_le_toLex]
          exact Or.inr ⟨rfl, hscarcest need' ad' payment' (mayRefill_of_admissible ha').2⟩
        · exact Action.priority_le_of_rank (by decide : 2 < 3)
        · exact Action.priority_le_of_rank (by decide : 2 < 4)
      · obtain ⟨hadmissible, reason, rfl⟩ := admissible_of_publish hpublish
        refine followsPriority_some hadmissible ⟨rfl, rfl⟩ ?_
        intro a' ha'
        rcases a' with o | ⟨ad', need', payment'⟩ | _ | ad'
        · exact absurd ha' (hpassed o)
        · exact absurd ha' (hrefills ad' need' payment' (hnone (mayRefill_of_admissible ha').1))
        · exact le_refl _
        · exact Action.priority_le_of_rank (by decide : 3 < 4)
      · obtain ⟨ad, reason, hmay, rfl, -⟩ := share_eq_some hshare
        have hadmissible : Admissible env st w (.gift ad) :=
          ⟨giftable_iff_allowed.mp ⟨hcan, hmay.giftable⟩, hmay.admits⟩
        refine followsPriority_some hadmissible ⟨rfl, rfl⟩ ?_
        intro a' ha'
        rcases a' with o | ⟨ad', need', payment'⟩ | _ | ad'
        · exact absurd ha' (hpassed o)
        · exact absurd ha' (hrefills ad' need' payment' hnone)
        · exact absurd ha' (hpublishes hsilent)
        · exact le_refl _

/-- **`choose` follows its priority rule.** With an open gate and safe commitments it
returns an admissible action of the highest priority, and nothing only when no action is
admissible. -/
theorem choose_follows_priority (hgate : (st.enterTick w).GateOpen w) (hticks : 0 < w.remaining)
    (hsafe : commitmentsUnsafe w = false) : ∃ st' action,
      choose env st w = .ok (st', action) ∧ FollowsPriority env (st.enterTick w) w action := by
  obtain ⟨⟨st', action⟩, hchoose⟩ := choose_isOk env st w
  refine ⟨st', action, hchoose, ?_⟩
  have hcases := choose_cases hchoose
  cases hcases with
  | closed hclosed => exact absurd ⟨hgate, hticks⟩ hclosed
  | withdraws _ _ hrisky =>
      rw [hsafe] at hrisky
      cases hrisky
  | accepts _ _ _ hscan => exact followsPriority_of_accept hscan
  | initiates _ _ _ hscan hinitiate =>
      refine followsPriority_of_initiate hticks ?_ hinitiate
      intro o ho
      have hacceptable := acceptable_iff_allowed.mpr ho.allowed
      have hmem : o ∈ incoming w := by
        rw [incoming, mem_sortedBy]
        exact hacceptable.incoming
      obtain ⟨note, hnone⟩ := review_of_scan_none hscan o hmem
      obtain ⟨d, note', hsome⟩ := review_of_acceptable hacceptable ho.admits
      rw [hsome] at hnone
      cases hnone

theorem choose_follows_priority_sample : ∃ st' action,
    choose .sample {} .sample = .ok (st', action) ∧
      FollowsPriority .sample (StrategyState.enterTick {} .sample) .sample action :=
  choose_follows_priority (StrategyState.gateClosed_eq_false.mp (by decide +kernel)) (by decide)
    (by decide +kernel)

end PlanetCharlu.SimplifiedTradingStrategy
