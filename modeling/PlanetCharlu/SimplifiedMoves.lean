import PlanetCharlu.SimplifiedTrading

/-!
# The moves of the simplified policy

`Move w key message` says that sending `message` under `key` is one of the things
the policy allows on the snapshot `w`, with everything the source checked on the
way written down as a fact about `w`. `choose_move` connects it to the code: what
`choose` returns is a move. Later results about single decisions and about whole
runs argue about moves and do not open `choose` again.
-/

namespace PlanetCharlu.SimplifiedTradingStrategy

open StableSort FirstHit

/-! ### The safety test, as facts -/

/-- The commitments pass the strategy's own test. -/
structure Safe (w : WorldView) : Prop where
  covered : ∀ r, quantity w.committed r ≤ quantity w.self.inventory r
  guarded : ∀ r, 0 < quantity w.committed r → quantity (guard w) r ≤ quantity w.available r

theorem commitmentsUnsafe_eq_false {w : WorldView} :
    commitmentsUnsafe w = false ↔ Safe w := by
  unfold commitmentsUnsafe Checks.commitmentsUnsafe
  rw [Bool.or_eq_false_iff, Bool.not_eq_false', covers_iff, List.any_eq_false]
  constructor
  · rintro ⟨hcovered, hguarded⟩
    refine ⟨hcovered, ?_⟩
    intro r hr
    have h := hguarded r (mem_RESOURCES r)
    simp only [Bool.and_eq_true, decide_eq_true_eq, not_and, not_lt] at h
    exact h hr
  · rintro ⟨hcovered, hguarded⟩
    refine ⟨hcovered, ?_⟩
    intro r _
    simp only [Bool.and_eq_true, decide_eq_true_eq, not_and, not_lt]
    intro hr
    exact hguarded r hr

/-- While the commitments are safe, stock and commitments add up to inventory. -/
theorem Safe.available_add_committed {w : WorldView} (h : Safe w) (r : Resource) :
    quantity w.available r + quantity w.committed r = quantity w.self.inventory r := by
  have hcovered := h.covered r
  rw [WorldView.quantity_available]
  omega

/-! ### What is checked before each kind of command -/

structure Acceptable (w : WorldView) (o : Offer) : Prop where
  incoming : o ∈ w.openOffersToMe
  live : w.tick < o.expiresTick
  affordable : ∀ r, quantity o.receive r ≤ quantity w.available r
  kept : ∀ r, min (quantity w.available r) (quantity (guard w) r) ≤
    quantity w.available r - quantity o.receive r + quantity o.give r
  payment : specialtyPayment w o = true ∨ sparePayment w o = true
  fair : units o.receive ≤ units o.give
  helpful : o.isGift = true ∨ useful w o = true

structure CanOffer (w : WorldView) : Prop where
  lasting : 0 < ttl w
  room : w.outgoing.length < w.rules.maxOpenOutgoingOffers

structure Refillable (w : WorldView) (ad : Advertisement) (need payment : Resource) : Prop where
  short : need ∈ seeking w
  notPending : need ∉ pending w
  eligible : w.Eligible ad
  sells : need ∈ ad.selling
  payable : payment ∈ payments w need
  wants : payment ∈ ad.seeking
  positive : 0 < refillAmount w need payment

structure Giftable (w : WorldView) (ad : Advertisement) : Prop where
  eligible : w.Eligible ad
  wants : w.self.specialty ∈ ad.seeking
  positive : 0 < giftAmount w
  kept : ∀ r, quantity (target w) r + quantity (bundleOf w.self.specialty (giftAmount w)) r ≤
    quantity w.available r

/-- The terms of a refill offer. -/
def refillBody (w : WorldView) (ad : Advertisement) (need payment : Resource) : OfferBody where
  recipientId := ad.stationId
  give := bundleOf payment (refillAmount w need payment)
  receive := bundleOf need (refillAmount w need payment)
  expiresTick := w.tick + ttl w

/-- The terms of a gift. -/
def giftBody (w : WorldView) (ad : Advertisement) : OfferBody where
  recipientId := ad.stationId
  give := bundleOf w.self.specialty (giftAmount w)
  receive := Bundle.zero
  expiresTick := w.tick + ttl w

inductive Move (w : WorldView) : Key → ClientMessage → Prop where
  | withdraw {rid : String} {o : Offer} (hrisky : commitmentsUnsafe w = true)
      (ho : o ∈ w.outgoing) : Move w (.withdraw o.offerId) (.withdraw w.runId rid o.offerId)
  | accept {rid : String} {o : Offer} (hsafe : Safe w) (ho : Acceptable w o) :
      Move w (.accept o.offerId) (.accept w.runId rid o.offerId)
  | refill {rid : String} {ad : Advertisement} {need payment : Resource} (hsafe : Safe w)
      (hcan : CanOffer w) (hrefill : Refillable w ad need payment) :
      Move w (.partner ad.stationId) (.offer w.runId rid (refillBody w ad need payment))
  | publish {rid : String} {body : AdvertiseBody} (hsafe : Safe w) :
      Move w .advertise (.advertise w.runId rid body)
  | gift {rid : String} {ad : Advertisement} (hsafe : Safe w) (hcan : CanOffer w)
      (hgift : Giftable w ad) : Move w (.partner ad.stationId) (.offer w.runId rid (giftBody w ad))

theorem ttl_le_rules (w : WorldView) : ttl w ≤ w.rules.maxOfferTtlTicks :=
  le_trans (min_le_left _ _) (min_le_right _ _)

theorem ttl_le_remaining (w : WorldView) : ttl w ≤ w.remaining := min_le_right _ _

/-! ### Each step of the body makes a move -/

section Steps

variable {env : ChooseEnv} {st : StrategyState} {w : WorldView} {d : Decision}

theorem withdrawUnsafe_move (hrisky : commitmentsUnsafe w = true)
    (h : withdrawUnsafe env st w = some d) :
    Move w d.key d.message ∧ st.Admits env.encodedLength w d.key d.message := by
  obtain ⟨o, ho, hd⟩ := List.exists_of_findSome?_eq_some h
  rw [mem_sortedBy] at ho
  have hadmitted := StrategyState.admitted_of_decision hd
  obtain ⟨rfl, -, -⟩ := StrategyState.decision_eq_some hd
  exact ⟨.withdraw hrisky ho, hadmitted⟩

/-- The trade checks, as facts. -/
theorem tradeObjection_eq_none {o : Offer} {after : Bundle} : tradeObjection w o after = none ↔
    keepsGuard w after = true ∧ (specialtyPayment w o = true ∨ sparePayment w o = true) ∧
      units o.receive ≤ units o.give ∧ useful w o = true := by
  unfold tradeObjection Checks.tradeObjection
  constructor
  · intro h
    split at h
    · cases h
    · rename_i hkept
      split at h
      · cases h
      · rename_i hpay
        split at h
        · cases h
        · rename_i hfair
          split at h
          · cases h
          · rename_i huseful
            rw [Bool.not_eq_false] at hkept hpay huseful
            exact ⟨hkept, (Bool.or_eq_true _ _).mp hpay, not_lt.mp hfair, huseful⟩
  · rintro ⟨hkept, hpay, hfair, huseful⟩
    rw [← Bool.or_eq_true] at hpay
    simp [hkept, hpay, not_lt.mpr hfair, huseful]

theorem keepsGuard_eq_true {o : Offer} :
    keepsGuard w (w.available.saturatingSubtract o.receive + o.give) = true ↔
      ∀ r, min (quantity w.available r) (quantity (guard w) r) ≤
        quantity w.available r - quantity o.receive r + quantity o.give r := by
  unfold keepsGuard Checks.keepsGuard
  rw [List.all_eq_true]
  constructor
  · intro h r
    have hr := h r (mem_RESOURCES r)
    rw [decide_eq_true_eq, quantity_add, quantity_saturatingSubtract] at hr
    exact hr
  · intro h r _
    rw [decide_eq_true_eq, quantity_add, quantity_saturatingSubtract]
    exact h r

/-- A gift asks for nothing, so it passes every check. -/
theorem acceptable_of_gift {o : Offer} (ho : o ∈ w.openOffersToMe) (hlive : w.tick < o.expiresTick)
    (hgift : o.isGift = true) : Acceptable w o := by
  have hzero : ∀ r, quantity o.receive r = 0 := (isZero_iff _).mp hgift
  refine ⟨ho, hlive, ?_, ?_, Or.inl ?_, ?_, Or.inl hgift⟩
  · intro r
    rw [hzero r]
    exact Nat.zero_le _
  · intro r
    rw [hzero r]
    exact le_trans (min_le_left _ _) (by omega)
  · simp [specialtyPayment, hzero]
  · have hunits : units o.receive = 0 := by simp [units, hzero, RESOURCES]
    omega

/-- An offer without objection is acceptable. A gift skips the trade checks. -/
theorem acceptable_of_objection {o : Offer} (ho : o ∈ w.openOffersToMe)
    (h : objection w o = .ok none) : Acceptable w o := by
  unfold objection at h
  by_cases hexp : o.isExpiredBy w.tick = true
  · rw [if_pos hexp] at h
    cases h
  rw [if_neg hexp] at h
  have hlive : w.tick < o.expiresTick := by
    rw [Bool.not_eq_true] at hexp
    exact (Offer.isExpiredBy_eq_false o w.tick).mp hexp
  by_cases hcov : w.available.covers o.receive = false
  · rw [if_pos hcov] at h
    cases h
  rw [if_neg hcov] at h
  rw [Bool.not_eq_false] at hcov
  have haffordable := (covers_iff _ _).mp hcov
  by_cases hgift : o.isGift = true
  · exact acceptable_of_gift ho hlive hgift
  · rw [if_neg hgift, Bundle.minus_of_covers hcov] at h
    simp only [Except.ok.injEq] at h
    obtain ⟨hkept, hpay, hfair, huseful⟩ := tradeObjection_eq_none.mp h
    exact ⟨ho, hlive, haffordable, keepsGuard_eq_true.mp hkept, hpay, hfair, Or.inr huseful⟩

theorem objection_of_acceptable {o : Offer} (h : Acceptable w o) : objection w o = .ok none := by
  have hcov := (covers_iff _ _).mpr h.affordable
  unfold objection
  rw [if_neg (by simp [h.live]), if_neg (by simp [hcov]), Bundle.minus_of_covers hcov]
  by_cases hgift : o.isGift = true
  · rw [if_pos hgift]
  · rw [if_neg hgift]
    dsimp only
    rw [tradeObjection_eq_none.mpr ⟨keepsGuard_eq_true.mpr h.kept, h.payment, h.fair,
      h.helpful.resolve_left hgift⟩]

theorem review_eq_some {o : Offer} {note : String} (ho : o ∈ w.openOffersToMe)
    (h : review env st w o = .ok (some d, note)) :
    Acceptable w o ∧ st.Admits env.encodedLength w d.key d.message ∧
      ∃ reason, d = ⟨.accept o.offerId, reason, .accept w.runId env.requestId o.offerId⟩ := by
  unfold review at h
  split at h
  · cases h
  · cases h
  · rename_i hobjection
    simp only [Except.ok.injEq] at h
    obtain ⟨rfl, hadmitted⟩ := StrategyState.tryAccept_eq_some h
    exact ⟨acceptable_of_objection ho hobjection, hadmitted, _, rfl⟩

/-- An acceptable offer is accepted when its turn comes, if the filter lets it through. -/
theorem review_of_acceptable {o : Offer} (h : Acceptable w o)
    (hadmits : st.Admits env.encodedLength w (.accept o.offerId)
      (.accept w.runId env.requestId o.offerId)) :
    ∃ d note, review env st w o = .ok (some d, note) := by
  unfold review
  rw [objection_of_acceptable h]
  dsimp only
  obtain ⟨d, note, htry⟩ := StrategyState.tryAccept_of_admits hadmits
    (if o.isGift then "accept free gift" else "accept safe replenishment trade")
  exact ⟨d, note, by rw [htry]⟩

theorem canOffer_eq_true : canOffer w = true ↔ CanOffer w := by
  unfold canOffer
  rw [Bool.and_eq_true, decide_eq_true_eq, decide_eq_true_eq]
  constructor
  · rintro ⟨hlasting, hroom⟩
    exact ⟨hlasting, hroom⟩
  · rintro ⟨hlasting, hroom⟩
    exact ⟨hlasting, hroom⟩

/-- A partner that may be sent this refill, under the limits on commands. -/
structure MayRefill (env : ChooseEnv) (st : StrategyState) (w : WorldView) (need : Resource)
    (ad : Advertisement) (payment : Resource) : Prop where
  refillable : Refillable w ad need payment
  admits : st.Admits env.encodedLength w (.partner ad.stationId)
    (.offer w.runId env.requestId (refillBody w ad need payment))

/-- The walk over the payments of one partner stops when one of them qualifies. -/
theorem offers_of_mayRefill {need payment : Resource} {ad : Advertisement}
    (h : MayRefill env st w need ad payment) :
    (payments w need).findSome? (fun payment =>
      if payment ∉ ad.seeking then none
      else
        let amount := refillAmount w need payment
        if amount > 0 then
          st.decision env w (.partner ad.stationId)
            ("refill " ++ need.value ++ " toward 25 ticks with " ++ ad.stationId)
            (Codec.buildOffer w.runId env.requestId ad.stationId (bundleOf payment amount)
              (bundleOf need amount) (w.tick + ttl w))
        else none) ≠ none := by
  rw [← Option.isSome_iff_ne_none, List.findSome?_isSome_iff]
  refine ⟨payment, h.refillable.payable, ?_⟩
  rw [if_neg (not_not.mpr h.refillable.wants)]
  dsimp only
  rw [if_pos h.refillable.positive, Codec.buildOffer]
  exact Option.isSome_iff_exists.mpr ⟨_, StrategyState.decision_of_admits h.admits _⟩

/-- A refill goes to the partner that waited longest among those it may be sent to, for
the resource with the least coverage among those that may be refilled. -/
theorem refill_eq_some (h : refill env st w = some d) :
    ∃ ad need payment reason, MayRefill env st w need ad payment ∧
      d = ⟨.partner ad.stationId, reason,
        .offer w.runId env.requestId (refillBody w ad need payment)⟩ ∧
      (∀ ad' payment', MayRefill env st w need ad' payment' →
        st.turnKey ad ≤ st.turnKey ad') ∧
      ∀ need' ad' payment', MayRefill env st w need' ad' payment' →
        coverage w need ≤ coverage w need' := by
  unfold refill at h
  have hwanted : (wanted env w).Pairwise fun a b => coverage w a ≤ coverage w b :=
    pairwise_sortedBy _ _
  obtain ⟨need, hneed, h, hscarcest⟩ := exists_least_of_findSome? hwanted h
  have hshort : need ∈ seeking w := by simpa [wanted] using hneed
  split_ifs at h with hpending
  obtain ⟨ad, had, h, hleast⟩ := exists_least_of_findSome? (st.pairwise_ads w) h
  split_ifs at h with hsells
  obtain ⟨payment, hpayable, h⟩ := List.exists_of_findSome?_eq_some h
  dsimp only at h
  split_ifs at h with hwants hpositive
  have hadmits := StrategyState.admits_of_decision h
  obtain ⟨rfl, -, -⟩ := StrategyState.decision_eq_some h
  have hrefill : Refillable w ad need payment :=
    ⟨hshort, hpending, StrategyState.mem_ads.mp had, hsells, hpayable,
      hwants, hpositive⟩
  refine ⟨ad, need, payment, _, ⟨hrefill, hadmits⟩, rfl, ?_, ?_⟩
  · intro ad' payment' hmay
    apply hleast ad' (StrategyState.mem_ads.mpr hmay.refillable.eligible)
    rw [if_neg (not_not.mpr hmay.refillable.sells)]
    exact offers_of_mayRefill hmay
  · intro need' ad' payment' hmay
    apply hscarcest need'
    · simpa [wanted] using hmay.refillable.short
    · rw [if_neg hmay.refillable.notPending, ← Option.isSome_iff_ne_none,
        List.findSome?_isSome_iff]
      refine ⟨ad', StrategyState.mem_ads.mpr hmay.refillable.eligible, ?_⟩
      rw [if_neg (not_not.mpr hmay.refillable.sells), Option.isSome_iff_ne_none]
      exact offers_of_mayRefill hmay

theorem publish_eq_some (h : publish env st w = some d) :
    st.Admits env.encodedLength w d.key d.message ∧
      ∃ reason body, d = ⟨.advertise, reason, .advertise w.runId env.requestId body⟩ := by
  unfold publish at h
  dsimp only at h
  split_ifs at h
  have hadmitted := StrategyState.admitted_of_decision h
  obtain ⟨rfl, -, -⟩ := StrategyState.decision_eq_some h
  exact ⟨hadmitted, _, _, rfl⟩

theorem giftAmount_le_available : giftAmount w ≤ quantity w.available w.self.specialty := by
  have hspendable : quantity (spendable w) w.self.specialty ≤
      quantity w.available w.self.specialty := by
    rw [spendable, quantity_saturatingSubtract]
    exact Nat.sub_le _ _
  exact le_trans (le_trans (min_le_left _ _) (min_le_right _ _)) hspendable

/-- The stock covers the gift, so the subtraction before a gift cannot raise. -/
theorem available_covers_gift :
    w.available.covers (bundleOf w.self.specialty (giftAmount w)) = true := by
  rw [covers_iff]
  intro r
  by_cases hr : r = w.self.specialty
  · subst hr
    rw [quantity_bundleOf_self]
    exact giftAmount_le_available
  · rw [quantity_bundleOf_of_ne hr]
    exact Nat.zero_le _

/-- A partner that may be sent a gift, under the limits on commands. -/
structure MayShare (env : ChooseEnv) (st : StrategyState) (w : WorldView) (ad : Advertisement) :
    Prop where
  giftable : Giftable w ad
  admits : st.Admits env.encodedLength w (.partner ad.stationId)
    (.offer w.runId env.requestId (giftBody w ad))

/-- What a gift leaves covers the target exactly when target and gift together are in
stock. -/
theorem gift_leaves_target :
    (w.available.saturatingSubtract (bundleOf w.self.specialty (giftAmount w))).covers
      (target w) = true ↔ ∀ r, quantity (target w) r +
        quantity (bundleOf w.self.specialty (giftAmount w)) r ≤ quantity w.available r := by
  rw [covers_iff]
  apply forall_congr'
  intro r
  have hgift := (covers_iff _ _).mp (available_covers_gift (w := w)) r
  rw [quantity_saturatingSubtract]
  omega

/-- A gift goes to the partner that waited longest among those it may be sent to. -/
theorem share_eq_some (h : share env st w = .ok (some d)) :
    ∃ ad reason, MayShare env st w ad ∧
      d = ⟨.partner ad.stationId, reason, .offer w.runId env.requestId (giftBody w ad)⟩ ∧
      ∀ ad', MayShare env st w ad' → st.turnKey ad ≤ st.turnKey ad' := by
  unfold share at h
  dsimp only at h
  rw [Bundle.minus_of_covers available_covers_gift] at h
  dsimp only at h
  split_ifs at h with hpositive hcovers
  · simp only [Except.ok.injEq] at h
    obtain ⟨ad, had, h, hleast⟩ := exists_least_of_findSome? (st.pairwise_ads w) h
    split_ifs at h with hwants
    have hadmits := StrategyState.admits_of_decision h
    obtain ⟨rfl, -, -⟩ := StrategyState.decision_eq_some h
    have hgift : Giftable w ad :=
      ⟨StrategyState.mem_ads.mp had, hwants, hpositive, gift_leaves_target.mp hcovers⟩
    refine ⟨ad, _, ⟨hgift, hadmits⟩, rfl, ?_⟩
    rintro ad' ⟨hgift', hadmits'⟩
    apply hleast ad' (StrategyState.mem_ads.mpr hgift'.eligible)
    rw [if_pos hgift'.wants, ← Option.isSome_iff_ne_none, Codec.buildOffer]
    exact Option.isSome_iff_exists.mpr ⟨_, StrategyState.decision_of_admits hadmits' _⟩
  · cases h
  · cases h

/-- What the body returns past the incoming offers comes from one of three steps, each
taken only when the ones before it returned nothing. -/
theorem initiate_eq_some (h : initiate env st w = .ok (some d)) :
    (CanOffer w ∧ refill env st w = some d) ∨
      ((CanOffer w → refill env st w = none) ∧ publish env st w = some d) ∨
        (CanOffer w ∧ refill env st w = none ∧ publish env st w = none ∧
          share env st w = .ok (some d)) := by
  unfold initiate at h
  split at h
  · rename_i action haction
    simp only [Except.ok.injEq, Option.some.injEq] at h
    subst h
    split_ifs at haction with hcan
    exact Or.inl ⟨canOffer_eq_true.mp hcan, haction⟩
  · rename_i hrefill
    have hnone : CanOffer w → refill env st w = none := by
      intro hcan
      rw [if_pos (canOffer_eq_true.mpr hcan)] at hrefill
      exact hrefill
    split at h
    · rename_i action haction
      simp only [Except.ok.injEq, Option.some.injEq] at h
      subst h
      exact Or.inr (Or.inl ⟨hnone, haction⟩)
    · rename_i hpublish
      split_ifs at h with hcan
      · have hcan' := canOffer_eq_true.mp hcan
        exact Or.inr (Or.inr ⟨hcan', hnone hcan', hpublish, h⟩)
      · cases h

theorem initiate_move (hsafe : Safe w) (h : initiate env st w = .ok (some d)) :
    Move w d.key d.message ∧ st.Admits env.encodedLength w d.key d.message := by
  rcases initiate_eq_some h with ⟨hcan, hrefill⟩ | ⟨-, hpublish⟩ | ⟨hcan, -, -, hshare⟩
  · obtain ⟨ad, need, payment, reason, hmay, rfl, -, -⟩ := refill_eq_some hrefill
    exact ⟨.refill hsafe hcan hmay.refillable, hmay.admits.fresh, hmay.admits.fits⟩
  · obtain ⟨hadmitted, reason, body, rfl⟩ := publish_eq_some hpublish
    exact ⟨.publish hsafe, hadmitted⟩
  · obtain ⟨ad, reason, hmay, rfl, -⟩ := share_eq_some hshare
    exact ⟨.gift hsafe hcan hmay.giftable, hmay.admits.fresh, hmay.admits.fits⟩

end Steps

/-! ### The whole call -/

/-- The ways through the body, each with the tests it passed. -/
inductive Chosen (env : ChooseEnv) (st : StrategyState) (w : WorldView) :
    Option Decision → Prop where
  | closed (hclosed : ¬ (st.GateOpen w ∧ 0 < w.remaining)) : Chosen env st w none
  | withdraws (hgate : st.GateOpen w) (hticks : 0 < w.remaining)
      (hrisky : commitmentsUnsafe w = true) : Chosen env st w (withdrawUnsafe env st w)
  | accepts {d : Decision} {notes : List (Offer × String)} (hgate : st.GateOpen w)
      (hticks : 0 < w.remaining) (hsafe : Safe w)
      (hscan : scan (review env st w) (incoming w) = .ok (some d, notes)) :
      Chosen env st w (some d)
  | initiates {action : Option Decision} {notes : List (Offer × String)} (hgate : st.GateOpen w)
      (hticks : 0 < w.remaining) (hsafe : Safe w)
      (hscan : scan (review env st w) (incoming w) = .ok (none, notes))
      (hinitiate : initiate env st w = .ok action) : Chosen env st w action

theorem chooseBody_cases {env : ChooseEnv} {st : StrategyState} {w : WorldView}
    {action : Option Decision} {notes : List (Offer × String)}
    (h : chooseBody env st w = .ok (action, notes)) : Chosen env st w action := by
  unfold chooseBody at h
  by_cases hgate : (st.gateClosed w || w.remaining == 0) = true
  · rw [if_pos hgate] at h
    cases h
    refine .closed ?_
    rintro ⟨hopen, hticks⟩
    rw [StrategyState.gateClosed_eq_false.mpr hopen, Bool.false_or, beq_iff_eq] at hgate
    omega
  rw [if_neg hgate] at h
  rw [Bool.not_eq_true, Bool.or_eq_false_iff, beq_eq_false_iff_ne] at hgate
  obtain ⟨hclosed, hleft⟩ := hgate
  have hopen := StrategyState.gateClosed_eq_false.mp hclosed
  have hticks : 0 < w.remaining := Nat.pos_of_ne_zero hleft
  by_cases hrisky : commitmentsUnsafe w = true
  · rw [if_pos hrisky] at h
    cases h
    exact .withdraws hopen hticks hrisky
  rw [if_neg hrisky] at h
  rw [Bool.not_eq_true] at hrisky
  have hsafe := commitmentsUnsafe_eq_false.mp hrisky
  split at h
  · cases h
  · rename_i action' notes' hscan
    cases h
    exact .accepts hopen hticks hsafe hscan
  · rename_i notes' hscan
    split at h
    · cases h
    · rename_i action' hinitiate
      cases h
      exact .initiates hopen hticks hsafe hscan hinitiate

/-- **The ways through `choose`**, in the state the tick bookkeeping leaves. -/
theorem choose_cases {env : ChooseEnv} {st st' : StrategyState} {w : WorldView}
    {action : Option Decision} (h : choose env st w = .ok (st', action)) :
    Chosen env (st.enterTick w) w action := by
  unfold choose at h
  dsimp only at h
  split at h
  · cases h
  · rename_i action' notes hbody
    simp only [Except.ok.injEq, Prod.mk.injEq] at h
    obtain ⟨-, rfl⟩ := h
    exact chooseBody_cases hbody

/-- What a call that returns a decision has checked: the gate was open, ticks
remain, the decision is a move, and the filter let it through. -/
structure Decided (size : ClientMessage → Nat) (st : StrategyState) (w : WorldView)
    (d : Decision) : Prop where
  gate : st.GateOpen w
  ticksLeft : 0 < w.remaining
  move : Move w d.key d.message
  admitted : st.Admits size w d.key d.message

/-- **What `choose` returns is a move.** The state it is decided in is the one
the tick bookkeeping leaves. -/
theorem choose_decided {env : ChooseEnv} {st st' : StrategyState} {w : WorldView} {d : Decision}
    (h : choose env st w = .ok (st', some d)) :
    Decided env.encodedLength (st.enterTick w) w d := by
  have hcases := choose_cases h
  generalize st.enterTick w = st₀ at hcases ⊢
  generalize haction : some d = action at hcases
  cases hcases with
  | closed hclosed => cases haction
  | withdraws hgate hticks hrisky =>
      obtain ⟨hmove, hadmitted⟩ := withdrawUnsafe_move hrisky haction.symm
      exact ⟨hgate, hticks, hmove, hadmitted⟩
  | accepts hgate hticks hsafe hscan =>
      cases haction
      obtain ⟨o, ho, note, hreview⟩ := exists_of_scan hscan
      rw [incoming, mem_sortedBy] at ho
      obtain ⟨hacceptable, hadmitted, reason, rfl⟩ := review_eq_some ho hreview
      exact ⟨hgate, hticks, .accept hsafe hacceptable, hadmitted⟩
  | initiates hgate hticks hsafe hscan hinitiate =>
      cases haction
      obtain ⟨hmove, hadmitted⟩ := initiate_move hsafe hinitiate
      exact ⟨hgate, hticks, hmove, hadmitted⟩

/-- With an open gate, unsafe commitments leave nothing but withdrawals. -/
theorem Chosen.of_risky {env : ChooseEnv} {st : StrategyState} {w : WorldView}
    {action : Option Decision} (h : Chosen env st w action) (hgate : st.GateOpen w)
    (hticks : 0 < w.remaining) (hrisky : commitmentsUnsafe w = true) :
    action = withdrawUnsafe env st w := by
  cases h with
  | closed hclosed => exact absurd ⟨hgate, hticks⟩ hclosed
  | withdraws _ _ _ => rfl
  | accepts _ _ hsafe _ =>
      rw [commitmentsUnsafe_eq_false.mpr hsafe] at hrisky
      cases hrisky
  | initiates _ _ hsafe _ _ =>
      rw [commitmentsUnsafe_eq_false.mpr hsafe] at hrisky
      cases hrisky

/-- A withdrawal is the first step of the body, and its test was positive. -/
theorem choose_withdraw {env : ChooseEnv} {st st' : StrategyState} {w : WorldView}
    {d : Decision} {runId rid offerId : String} (h : choose env st w = .ok (st', some d))
    (hmessage : d.message = .withdraw runId rid offerId) :
    (st.enterTick w).GateOpen w ∧ 0 < w.remaining ∧ commitmentsUnsafe w = true ∧
      withdrawUnsafe env (st.enterTick w) w = some d := by
  obtain ⟨hgate, hticks, hmove, -⟩ := choose_decided h
  rw [hmessage] at hmove
  generalize d.key = key at hmove
  cases hmove with
  | withdraw hrisky _ =>
      exact ⟨hgate, hticks, hrisky, ((choose_cases h).of_risky hgate hticks hrisky).symm⟩

/-- An offer is made by the last step of the body. -/
theorem choose_offer {env : ChooseEnv} {st st' : StrategyState} {w : WorldView} {d : Decision}
    {runId rid : String} {body : OfferBody} (h : choose env st w = .ok (st', some d))
    (hmessage : d.message = .offer runId rid body) :
    initiate env (st.enterTick w) w = .ok (some d) := by
  have hcases := choose_cases h
  generalize haction : some d = action at hcases
  cases hcases with
  | closed _ => cases haction
  | withdraws _ _ _ =>
      obtain ⟨o, -, hd⟩ := List.exists_of_findSome?_eq_some haction.symm
      obtain ⟨rfl, -, -⟩ := StrategyState.decision_eq_some hd
      cases hmessage
  | accepts _ _ _ hscan =>
      cases haction
      obtain ⟨o, ho, note, hreview⟩ := exists_of_scan hscan
      rw [incoming, mem_sortedBy] at ho
      obtain ⟨-, -, reason, rfl⟩ := review_eq_some ho hreview
      cases hmessage
  | initiates _ _ _ _ hinitiate => exact hinitiate

/-- `choose` changes the strategy only through the tick bookkeeping and the
offer review. -/
theorem choose_state {env : ChooseEnv} {st st' : StrategyState} {w : WorldView}
    {action : Option Decision} (h : choose env st w = .ok (st', action)) :
    ∃ notes, st' = { st.enterTick w with lastOfferReview := notes } := by
  unfold choose at h
  dsimp only at h
  split at h
  · cases h
  · rename_i action' notes hbody
    simp only [Except.ok.injEq, Prod.mk.injEq] at h
    exact ⟨notes, h.1.symm⟩

/-! ### `choose` never raises -/

theorem objection_isOk (w : WorldView) (o : Offer) : ∃ note, objection w o = .ok note := by
  unfold objection
  split
  · exact ⟨_, rfl⟩
  · split
    · exact ⟨_, rfl⟩
    · rename_i hcov
      split
      · exact ⟨_, rfl⟩
      · rw [Bool.not_eq_false] at hcov
        rw [Bundle.minus_of_covers hcov]
        exact ⟨_, rfl⟩

theorem review_isOk (env : ChooseEnv) (st : StrategyState) (w : WorldView) (o : Offer) :
    ∃ out, review env st w o = .ok out := by
  obtain ⟨note, hnote⟩ := objection_isOk w o
  unfold review
  rw [hnote]
  cases note with
  | some note => exact ⟨_, rfl⟩
  | none => exact ⟨_, rfl⟩

theorem initiate_isOk (env : ChooseEnv) (st : StrategyState) (w : WorldView) :
    ∃ out, initiate env st w = .ok out := by
  unfold initiate
  split
  · exact ⟨_, rfl⟩
  · split
    · exact ⟨_, rfl⟩
    · split_ifs
      · unfold share
        dsimp only
        rw [Bundle.minus_of_covers available_covers_gift]
        dsimp only
        split_ifs <;> exact ⟨_, rfl⟩
      · exact ⟨_, rfl⟩

theorem choose_isOk (env : ChooseEnv) (st : StrategyState) (w : WorldView) :
    ∃ out, choose env st w = .ok out := by
  have hbody : ∃ out, chooseBody env (st.enterTick w) w = .ok out := by
    unfold chooseBody
    split_ifs
    · exact ⟨_, rfl⟩
    · exact ⟨_, rfl⟩
    · have hwalk : ∃ out, scan (review env (st.enterTick w) w) (incoming w) = .ok out :=
        scan_isOk fun o _ => review_isOk env (st.enterTick w) w o
      obtain ⟨⟨found, notes⟩, hscan⟩ := hwalk
      obtain ⟨action, hinitiate⟩ := initiate_isOk env (st.enterTick w) w
      rw [hscan]
      cases found with
      | some found => exact ⟨_, rfl⟩
      | none =>
          dsimp only
          rw [hinitiate]
          exact ⟨_, rfl⟩
  obtain ⟨⟨action, notes⟩, hbody⟩ := hbody
  exact ⟨_, by unfold choose; dsimp only; rw [hbody]⟩

end PlanetCharlu.SimplifiedTradingStrategy
