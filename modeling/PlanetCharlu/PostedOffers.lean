import PlanetCharlu.NoDoubleSpending

/-!
# What posting an offer does to the safety test

The simplified policy checks a new payment against a guard that runs to the end
of the new offer, and everything it has promised before against a guard that runs
to the end of the old ones. Posting can make the horizon longer, and then the
longer guard applies to every older promise as well. This module says exactly
when the snapshot after posting still passes the test that sends `choose` into
withdrawing.
-/

namespace PlanetCharlu

/-- The same snapshot with one more offer on the board. -/
def WorldView.withOffer (w : WorldView) (o : Offer) : WorldView :=
  { w with offers := w.offers ++ [o] }

/-- `o` is what the server makes of an offer command of ours sent on `w`. -/
structure Posts (w : WorldView) (body : OfferBody) (o : Offer) : Prop where
  isOpen : o.status = .OPEN
  ours : o.proposerId = w.selfStationId
  recipient : o.recipientId = body.recipientId
  give : o.give = body.give
  receive : o.receive = body.receive
  created : o.createdTick = w.tick
  expires : o.expiresTick = body.expiresTick

namespace SimplifiedTradingStrategy

section Posting

variable {w : WorldView} {body : OfferBody} {o : Offer}

theorem outgoing_withOffer (hposts : Posts w body o) (hlive : w.tick < body.expiresTick) :
    (w.withOffer o).outgoing = w.outgoing ++ [o] := by
  have hopen : o.isOpen = true := (Offer.isOpen_iff o).mpr hposts.isOpen
  have hours : o.proposedBy w.selfStationId = true := by
    rw [Offer.proposedBy, hposts.ours, beq_self_eq_true]
  have hfresh : o.isExpiredBy w.tick = false := by
    rw [Offer.isExpiredBy_eq_false, hposts.expires]
    exact hlive
  simp only [WorldView.outgoing, WorldView.openOffersFromMe, WorldView.withOffer,
    List.filter_append]
  simp [hopen, hours, hfresh]

theorem quantity_committed_withOffer (hposts : Posts w body o) (hlive : w.tick < body.expiresTick)
    (r : Resource) :
    quantity (w.withOffer o).committed r = quantity w.committed r + quantity body.give r := by
  rw [WorldView.committed, outgoing_withOffer hposts hlive, WorldView.quantity_committedIn_append]
  simp [WorldView.quantity_committedIn, hposts.give, WorldView.committed]

theorem horizon_withOffer (hposts : Posts w body o) (hlive : w.tick < body.expiresTick) :
    horizon (w.withOffer o) = max (horizon w) (body.expiresTick - w.tick) := by
  rw [horizon, outgoing_withOffer hposts hlive, List.map_append, List.foldl_append]
  simp only [List.map_cons, List.map_nil, List.foldl_cons, List.foldl_nil, hposts.expires]
  rfl

/-- The guard after posting is the one the new payment was checked against. -/
theorem guard_withOffer (hposts : Posts w body o) (hexpires : body.expiresTick = w.tick + ttl w)
    (hlasting : 0 < ttl w) : guard (w.withOffer o) = paymentGuard w := by
  have hlive : w.tick < body.expiresTick := by omega
  have hlife : body.expiresTick - w.tick = ttl w := by omega
  rw [guard, horizon_withOffer hposts hlive, hlife]
  rfl

end Posting

/-! ### The condition -/

/-- Every resource already promised away keeps the upkeep of the longer horizon. -/
def KeepsLongerGuard (w : WorldView) : Prop :=
  ∀ r, 0 < quantity w.committed r →
    quantity w.committed r +
        quantity w.self.upkeepPerTick r *
          min (5 + max (horizon w) (min (min 5 w.rules.maxOfferTtlTicks) w.remaining)) w.remaining ≤
      quantity w.self.inventory r

theorem keepsLongerGuard_iff {w : WorldView} (hsafe : Safe w) :
    KeepsLongerGuard w ↔
      ∀ r, 0 < quantity w.committed r →
        quantity (paymentGuard w) r ≤ quantity w.available r := by
  have hguard : ∀ r, quantity (paymentGuard w) r =
      quantity w.self.upkeepPerTick r *
        min (5 + max (horizon w) (min (min 5 w.rules.maxOfferTtlTicks) w.remaining))
          w.remaining := by
    intro r
    rw [paymentGuard, quantity_scaled]
    rfl
  constructor
  · intro h r hr
    have hsplit := hsafe.available_add_committed r
    have hkeeps := h r hr
    rw [hguard]
    omega
  · intro h r hr
    have hsplit := hsafe.available_add_committed r
    have hkeeps := h r hr
    rw [hguard] at hkeeps
    omega

/-- While no offer outlives the ones already open, nothing changes for them. -/
theorem keepsLongerGuard_of_ttl_le {w : WorldView} (hsafe : Safe w) (h : ttl w ≤ horizon w) :
    KeepsLongerGuard w := by
  rw [keepsLongerGuard_iff hsafe]
  intro r hr
  have hguard : paymentGuard w = guard w := by
    rw [paymentGuard, max_eq_left h]
    rfl
  rw [hguard]
  exact hsafe.guarded r hr

/-- With nothing promised yet, an offer is never a threat to another. -/
theorem keepsLongerGuard_of_outgoing_nil {w : WorldView} (h : w.outgoing = []) :
    KeepsLongerGuard w := by
  intro r hr
  rw [WorldView.committed, h] at hr
  rw [WorldView.quantity_committedIn] at hr
  exact absurd hr (Nat.lt_irrefl 0)

/-! ### What the code decides on the snapshot after posting -/

/-- `choose` returns a withdraw. -/
def Withdraws (env : ChooseEnv) (st : StrategyState) (w : WorldView) : Prop :=
  ∃ st' d runId rid offerId,
    choose env st w = .ok (st', some d) ∧ d.message = .withdraw runId rid offerId

/-- The limits on commands allow withdrawing some open offer. -/
structure LimitsPermit (env : ChooseEnv) (st : StrategyState) (w : WorldView) : Prop where
  gate : (st.enterTick w).GateOpen w
  admits : ∃ o ∈ w.outgoing, Key.withdraw o.offerId ∉ (st.enterTick w).attempted ∧
    env.encodedLength (.withdraw w.runId env.requestId o.offerId) ≤ w.rules.maxCommandBytes

/-- Where a withdraw is permitted, `choose` withdraws exactly when its test fails. -/
theorem withdraws_iff {env : ChooseEnv} {st : StrategyState} {w : WorldView}
    (hlimits : LimitsPermit env st w) (hticks : 0 < w.remaining) :
    Withdraws env st w ↔ commitmentsUnsafe w = true := by
  constructor
  · rintro ⟨st', d, runId, rid, offerId, hchoose, hmessage⟩
    have hmove := (choose_decided hchoose).move
    rw [hmessage] at hmove
    generalize d.key = key at hmove
    cases hmove with
    | withdraw hrisky ho => exact hrisky
  · intro hrisky
    have hgate : ((st.enterTick w).gateClosed w || w.remaining == 0) = false := by
      rw [StrategyState.gateClosed_eq_false.mpr hlimits.gate, Bool.false_or,
        beq_eq_false_iff_ne]
      exact hticks.ne'
    have hbody : chooseBody env (st.enterTick w) w =
        .ok (withdrawUnsafe env (st.enterTick w) w, []) := by
      unfold chooseBody
      rw [hgate, if_neg Bool.false_ne_true, if_pos hrisky]
    obtain ⟨o, ho, hfresh, hfits⟩ := hlimits.admits
    have hsome : (withdrawUnsafe env (st.enterTick w) w).isSome = true := by
      unfold withdrawUnsafe
      rw [List.findSome?_isSome_iff]
      refine ⟨o, StableSort.mem_sortedBy.mpr ho, ?_⟩
      unfold StrategyState.decision Codec.buildWithdraw
      rw [if_neg]
      · rfl
      · rw [not_or, not_lt]
        exact ⟨hfresh, hfits⟩
    obtain ⟨d, hd⟩ := Option.isSome_iff_exists.mp hsome
    have hmessage : ∃ offerId, d.message = .withdraw w.runId env.requestId offerId := by
      obtain ⟨o', -, hdecision⟩ := List.exists_of_findSome?_eq_some hd
      obtain ⟨rfl, -, -⟩ := StrategyState.decision_eq_some hdecision
      exact ⟨o'.offerId, rfl⟩
    obtain ⟨offerId, hmessage⟩ := hmessage
    refine ⟨{ st.enterTick w with lastOfferReview := [] }, d, _, _, offerId, ?_, hmessage⟩
    unfold choose
    dsimp only
    rw [hbody, hd]

/-- The terms of a posted offer: it pays from the stock above the payment guard,
and lives for `ttl`. -/
theorem offer_terms {env : ChooseEnv} {st st' : StrategyState} {w : WorldView} {d : Decision}
    {runId rid : String} {body : OfferBody} (h : choose env st w = .ok (st', some d))
    (hmessage : d.message = .offer runId rid body) :
    Safe w ∧ 0 < w.remaining ∧ 0 < ttl w ∧ body.expiresTick = w.tick + ttl w ∧
      (∀ r, quantity w.committed r + quantity body.give r ≤ quantity w.self.inventory r) ∧
      ∀ r, 0 < quantity body.give r →
        quantity (paymentGuard w) r + quantity w.committed r + quantity body.give r ≤
          quantity w.self.inventory r := by
  obtain ⟨-, hticks, hmove, -⟩ := choose_decided h
  have hpays := simplified_paysFromStock hmove
  obtain ⟨hcovers, hfloor⟩ := hpays.offer runId rid body hmessage
  have hterms : Safe w ∧ 0 < ttl w ∧ body.expiresTick = w.tick + ttl w := by
    rw [hmessage] at hmove
    generalize d.key = key at hmove
    cases hmove with
    | refill hsafe hcan hrefill => exact ⟨hsafe, hcan.lasting, rfl⟩
    | gift hsafe hcan hgift => exact ⟨hsafe, hcan.lasting, rfl⟩
  obtain ⟨hsafe, hlasting, hexpires⟩ := hterms
  have hfloor_eq : simplifiedOfferFloor w body = paymentGuard w := by
    unfold simplifiedOfferFloor
    rw [hexpires, Nat.add_sub_cancel_left]
    rfl
  rw [hfloor_eq] at hfloor
  exact ⟨hsafe, hticks, hlasting, hexpires, hcovers.together, hfloor⟩

/-- The snapshot after posting passes the test exactly under the condition. -/
theorem safe_withOffer_iff {env : ChooseEnv} {st st' : StrategyState} {w : WorldView}
    {d : Decision} {runId rid : String} {body : OfferBody} {o : Offer}
    (h : choose env st w = .ok (st', some d)) (hmessage : d.message = .offer runId rid body)
    (hposts : Posts w body o) : Safe (w.withOffer o) ↔ KeepsLongerGuard w := by
  obtain ⟨hsafe, hticks, hlasting, hexpires, hcovers, hfloor⟩ := offer_terms h hmessage
  have hlive : w.tick < body.expiresTick := by omega
  have hguard := guard_withOffer hposts hexpires hlasting
  have hcommitted := quantity_committed_withOffer hposts hlive
  have hinventory : (w.withOffer o).self.inventory = w.self.inventory := rfl
  rw [keepsLongerGuard_iff hsafe]
  constructor
  · intro hafter r hr
    have hkept := hafter.guarded r (by rw [hcommitted]; omega)
    rw [hguard, WorldView.quantity_available, hcommitted, hinventory] at hkept
    rw [WorldView.quantity_available]
    omega
  · intro hkeeps
    refine ⟨?_, ?_⟩
    · intro r
      rw [hcommitted, hinventory]
      exact hcovers r
    · intro r hr
      rw [hguard, WorldView.quantity_available, hcommitted, hinventory]
      -- The new payment was checked against the longer guard. Whatever else is
      -- promised is only as safe as the condition makes it.
      by_cases hpaid : 0 < quantity body.give r
      · have hr' := hfloor r hpaid
        omega
      · have hr' := hkeeps r (by rw [hcommitted] at hr; omega)
        rw [WorldView.quantity_available] at hr'
        omega

/-- **Posting leads to a withdraw exactly when an older promise falls short of the
longer guard.** -/
theorem posted_offer_stays_iff {env : ChooseEnv} {st st' : StrategyState} {w : WorldView}
    {d : Decision} {runId rid : String} {body : OfferBody} {o : Offer}
    (h : choose env st w = .ok (st', some d)) (hmessage : d.message = .offer runId rid body)
    (hposts : Posts w body o) :
    (Safe (w.withOffer o) ↔ KeepsLongerGuard w) ∧
      ∀ env₂ st₂, LimitsPermit env₂ st₂ (w.withOffer o) →
        (¬ Withdraws env₂ st₂ (w.withOffer o) ↔ KeepsLongerGuard w) := by
  have hiff := safe_withOffer_iff h hmessage hposts
  refine ⟨hiff, ?_⟩
  intro env₂ st₂ hlimits
  have hticks : 0 < (w.withOffer o).remaining := (offer_terms h hmessage).2.1
  rw [withdraws_iff hlimits hticks, Bool.not_eq_true, commitmentsUnsafe_eq_false]
  exact hiff

/-! ### A snapshot on which posting lengthens the horizon -/

/-- Our station produces water, holds few spare units of it, and has promised
eleven; a partner sells water for components. -/
def crowded : WorldView :=
  { WorldView.sample with
    tick := 1
    self := { WorldView.sample.self with inventory := { water := 20, food := 14, components := 40 } }
    offers :=
      [{ offerId := "offer-1", proposerId := "P01", recipientId := "P02", give := { water := 11 }
         receive := { food := 11 }, createdTick := 0, expiresTick := 5, status := .OPEN
         transactionId := none }]
    advertisements :=
      [{ advertisementId := "ad-2", stationId := "P03", selling := {.water}
         seeking := {.components}, createdTick := 0, expiresTick := 100, status := .ACTIVE }]
    rules := { maxOfferTtlTicks := 5 } }

/-- What `choose` posts on it. -/
def crowdedBody : OfferBody where
  recipientId := "P03"
  give := { components := 15 }
  receive := { water := 15 }
  expiresTick := 6

def crowdedDecision : Decision where
  key := .partner "P03"
  reason := "refill water toward 25 ticks with P03"
  message := .offer "run" "request-1" crowdedBody

def crowdedOffer : Offer where
  offerId := "offer-2"
  proposerId := "P01"
  recipientId := "P03"
  give := { components := 15 }
  receive := { water := 15 }
  createdTick := 1
  expiresTick := 6
  status := .OPEN
  transactionId := none

/-- The withdraw the next evaluation returns. -/
def crowdedWithdraw : Decision where
  key := .withdraw "offer-2"
  reason := "release unsafe payment commitment"
  message := .withdraw "run" "request-1" "offer-2"

theorem exists_state_of_decisionOf {env : ChooseEnv} {st : StrategyState} {w : WorldView}
    {d : Decision} (h : Strategy.simplified.decisionOf env st w = some d) :
    ∃ st', choose env st w = .ok (st', some d) :=
  Strategy.exists_state_of_decisionOf h

theorem posted_offer_is_withdrawn :
    (∃ st', choose .sample {} crowded = .ok (st', some crowdedDecision)) ∧
      crowdedDecision.message = .offer "run" "request-1" crowdedBody ∧
      Posts crowded crowdedBody crowdedOffer ∧
      LimitsPermit .sample {} (crowded.withOffer crowdedOffer) ∧
      Withdraws .sample {} (crowded.withOffer crowdedOffer) := by
  have hposted : Strategy.simplified.decisionOf .sample {} crowded = some crowdedDecision := by
    decide +kernel
  have hwithdrawn : Strategy.simplified.decisionOf .sample {} (crowded.withOffer crowdedOffer) =
      some crowdedWithdraw := by
    decide +kernel
  obtain ⟨st', hchoose⟩ := exists_state_of_decisionOf hwithdrawn
  refine ⟨exists_state_of_decisionOf hposted, rfl, ⟨rfl, rfl, rfl, rfl, rfl, rfl, rfl⟩, ?_,
    ⟨st', crowdedWithdraw, _, _, _, hchoose, rfl⟩⟩
  refine ⟨StrategyState.gateClosed_eq_false.mp (by decide +kernel), crowdedOffer, ?_, ?_, ?_⟩
  · decide +kernel
  · decide +kernel
  · decide +kernel

theorem posted_offer_stays_iff_sample :
    (Safe (WorldView.promised.withOffer .sample) ↔ KeepsLongerGuard .promised) ∧
      (¬ Withdraws .sample {} (WorldView.promised.withOffer .sample) ↔
        KeepsLongerGuard .promised) := by
  obtain ⟨st', hchoose⟩ := exists_state_of_decisionOf Strategy.decisionOf_promised.2
  have hposts : Posts .promised .sample .sample :=
    ⟨rfl, rfl, rfl, rfl, rfl, rfl, rfl⟩
  have hlimits : LimitsPermit .sample {} (WorldView.promised.withOffer .sample) := by
    refine ⟨StrategyState.gateClosed_eq_false.mp (by decide +kernel), .sample, ?_, ?_, ?_⟩
    · decide +kernel
    · decide +kernel
    · decide +kernel
  obtain ⟨hsafe, hstays⟩ := posted_offer_stays_iff hchoose rfl hposts
  exact ⟨hsafe, hstays _ _ hlimits⟩

end SimplifiedTradingStrategy

end PlanetCharlu
