import PlanetCharlu.Strategies

/-!
# What the learning policies do about a shortage

Two ways to fill one: accept an offer that brings the resource, or buy it. On the way
in, a rescue of anything we do not produce is never passed over. A rescue of our own
specialty is paid with other stock, which the accept rule of the default policy rules
out, although its offer rule pays for specialty that way and the conservative accept
rule allows it. On the way out, a purchase is sized from the stock at hand, and what
other open offers will bring is not counted.
-/

namespace PlanetCharlu

/-- Units of `r` that our open unexpired offers bring in, net of what they pay. -/
def WorldView.onOrder (w : WorldView) (r : Resource) : Nat :=
  (w.outgoing.map fun o => quantity o.receive r - quantity o.give r).sum

namespace BaseStrategy

open StableSort FirstHit

variable {p : Policy} {env : ChooseEnv} {st st' : StrategyState} {w : WorldView} {o : Offer}
  {r : Resource} {d : Decision}

/-! ### Rescues -/

/-- An incoming offer that we can pay down to three ticks of upkeep, that brings in at
least what it costs, and that nets the critical resource `r`: for specialty if `r` is
another resource, for other resources if `r` is the specialty. -/
structure Rescue (st : StrategyState) (w : WorldView) (o : Offer) (r : Resource) : Prop where
  incoming : o ∈ w.openOffersToMe
  live : w.tick < o.expiresTick
  affordable : ∀ q, quantity o.receive q ≤ quantity w.available q
  kept : ∀ q, min (quantity w.available q) (quantity (emergencyReserve w) q) ≤
    quantity w.available q - quantity o.receive q + quantity o.give q
  fair : units o.receive ≤ units o.give
  critical : r ∈ critical st w
  nets : quantity o.receive r < quantity o.give r
  imported : r ≠ w.self.specialty → ∀ q, q ≠ w.self.specialty → quantity o.receive q = 0
  produced : r = w.self.specialty → quantity o.receive w.self.specialty = 0

/-- The command limits allow accepting the offer. -/
abbrev CanAccept (env : ChooseEnv) (st : StrategyState) (w : WorldView) (o : Offer) : Prop :=
  st.Admits env.encodedLength w (.accept o.offerId) (.accept w.runId env.requestId o.offerId)

/-- `choose` accepts an incoming offer. -/
def Accepts (p : Policy) (env : ChooseEnv) (st : StrategyState) (w : WorldView) : Prop :=
  ∃ st' d runId rid offerId, choose p env st w = .ok (st', some d) ∧
    d.message = .accept runId rid offerId

/-- No rescue is passed over: with an open gate and safe commitments, a rescue on the
board that the command limits allow makes `choose` accept. -/
def TakesRescues (p : Policy) (env : ChooseEnv) (st : StrategyState) (w : WorldView) : Prop :=
  (prepare env st w).GateOpen w → 0 < w.remaining → Safe p (prepare env st w) w →
    ∀ o r, Rescue (prepare env st w) w o r → CanAccept env (prepare env st w) w o →
      Accepts p env st w

theorem Rescue.rescuesCritical (h : Rescue st w o r) : rescuesCritical st w o = true :=
  netsCritical_eq_true.mpr ⟨r, h.critical, h.nets⟩

theorem Rescue.keeps (h : Rescue st w o r) (p : Policy) (q : Resource) :
    min (quantity w.available q) (quantity (paymentReserve p st w o) q) ≤
      quantity w.available q - quantity o.receive q + quantity o.give q := by
  rw [paymentReserve, if_pos h.rescuesCritical]
  exact h.kept q

/-- A rescue passes every check of the trade loop, except the one on what it is paid
with. -/
theorem Rescue.acceptable (h : Rescue st w o r)
    (hpays : o.isGift = true ∨ paysOnlySpecialty p st w o = true) : Acceptable p st w o := by
  have hreasoned : o.isGift = true ∨ tradeObjection p st w o = none := by
    apply hpays.imp_right
    intro honly
    have hneeded : netsNeeded p st w o = true :=
      netsNeeded_eq_true.mpr ⟨r, sought_of_critical p h.critical, h.nets⟩
    exact tradeObjection_eq_none.mpr ⟨honly, h.fair, hneeded, Or.inr h.rescuesCritical⟩
  exact ⟨h.incoming, h.live, h.affordable, h.keeps p, hreasoned⟩

/-- The conservative rule lets specialty be paid with other stock. -/
theorem Rescue.pays_of_seeking (h : Rescue st w o r) (hseek : p.SEEK_SPECIALTY_TO_TARGET = true) :
    paysOnlySpecialty p st w o = true := by
  rw [paysOnlySpecialty_eq_true]
  by_cases hr : r = w.self.specialty
  · right
    have hnets := h.nets
    have hcritical := h.critical
    rw [hr] at hnets hcritical
    exact ⟨hseek, sought_of_critical p hcritical, h.produced hr, Nat.zero_lt_of_lt hnets⟩
  · exact Or.inl (h.imported hr)

/-- With an open gate and safe commitments, `choose` accepts exactly when some offer is
acceptable and the command limits allow it. -/
theorem accepts_iff (hgate : (prepare env st w).GateOpen w) (hticks : 0 < w.remaining)
    (hsafe : Safe p (prepare env st w) w) : Accepts p env st w ↔
      ∃ o, Acceptable p (prepare env st w) w o ∧ CanAccept env (prepare env st w) w o := by
  constructor
  · rintro ⟨st', d, runId, rid, offerId, hchoose, hmessage⟩
    have hcases := choose_cases hchoose
    generalize haction : some d = action at hcases
    cases hcases with
    | closed _ => cases haction
    | withdraws _ _ hrisky =>
        rw [commitmentsUnsafe_eq_false.mpr hsafe] at hrisky
        cases hrisky
    | accepts _ _ _ hscan =>
        cases haction
        obtain ⟨o, ho, note, hreview⟩ := exists_of_scan hscan
        rw [incoming, Checks.incoming, mem_sortedBy] at ho
        obtain ⟨hacceptable, hadmitted, reason, rfl⟩ := review_eq_some ho hreview
        exact ⟨o, hacceptable, hadmitted.fresh, hadmitted.fits⟩
    | initiates _ _ _ _ => exact absurd hmessage (initiate_not_accept haction.symm)
  · rintro ⟨o, ho, hadmits⟩
    obtain ⟨⟨st', action⟩, hchoose⟩ := choose_isOk p env st w
    have hcases := choose_cases hchoose
    cases hcases with
    | closed hclosed => exact absurd ⟨hgate, hticks⟩ hclosed
    | withdraws _ _ hrisky =>
        rw [commitmentsUnsafe_eq_false.mpr hsafe] at hrisky
        cases hrisky
    | accepts _ _ _ hscan =>
        obtain ⟨o', ho', note, hreview⟩ := exists_of_scan hscan
        rw [incoming, Checks.incoming, mem_sortedBy] at ho'
        obtain ⟨-, -, reason, rfl⟩ := review_eq_some ho' hreview
        exact ⟨st', _, _, _, _, hchoose, rfl⟩
    | initiates _ _ _ hscan =>
        have hmem : o ∈ incoming (prepare env st w) w := by
          rw [incoming, Checks.incoming, mem_sortedBy]
          exact ho.incoming
        obtain ⟨note, hnone⟩ := review_of_scan_none hscan o hmem
        obtain ⟨d, note', hsome⟩ := review_of_acceptable ho hadmits
        rw [hsome] at hnone
        cases hnone

/-- **The conservative policy passes over no rescue**, whichever resource it is of. -/
theorem restrained_takes_rescues (env : ChooseEnv) (st : StrategyState) (w : WorldView) :
    TakesRescues RestrainedTradingStrategy.policy env st w := by
  intro hgate hticks hsafe o r hrescue hadmits
  rw [accepts_iff hgate hticks hsafe]
  exact ⟨o, hrescue.acceptable (Or.inr (hrescue.pays_of_seeking rfl)), hadmits⟩

/-- An incoming offer that asks for nothing but specialty and passes the checks of the
default policy: a gift, or a fair trade that nets something we seek and, once the
routine budget is gone, something critical. -/
structure SpecialtyTrade (st : StrategyState) (w : WorldView) (o : Offer) : Prop where
  incoming : o ∈ w.openOffersToMe
  live : w.tick < o.expiresTick
  affordable : ∀ q, quantity o.receive q ≤ quantity w.available q
  kept : ∀ q, min (quantity w.available q) (quantity (paymentReserve policy st w o) q) ≤
    quantity w.available q - quantity o.receive q + quantity o.give q
  specialtyOnly : ∀ q, q ≠ w.self.specialty → quantity o.receive q = 0
  wanted : o.isGift = true ∨ (units o.receive ≤ units o.give ∧
    (∃ q ∈ seeking policy st w, quantity o.receive q < quantity o.give q) ∧
      (routineOk st w = true ∨ NetsCritical st w o.give o.receive))

theorem acceptable_iff_specialtyTrade : Acceptable policy st w o ↔ SpecialtyTrade st w o := by
  have honly : paysOnlySpecialty policy st w o = true ↔
      ∀ q, q ≠ w.self.specialty → quantity o.receive q = 0 := by
    rw [paysOnlySpecialty_eq_true]
    constructor
    · rintro (honly | ⟨hseek, -⟩)
      · exact honly
      · cases hseek
    · intro honly
      exact Or.inl honly
  constructor
  · rintro ⟨hincoming, hlive, haffordable, hkept, hgift | hobjection⟩
    · have hfree : ∀ q, quantity o.receive q = 0 := (isZero_iff _).mp hgift
      exact ⟨hincoming, hlive, haffordable, hkept, fun q _ => hfree q, Or.inl hgift⟩
    · obtain ⟨hpays, hfair, hneeded, hration⟩ := tradeObjection_eq_none.mp hobjection
      refine ⟨hincoming, hlive, haffordable, hkept, honly.mp hpays, Or.inr ⟨hfair, ?_, ?_⟩⟩
      · exact netsNeeded_eq_true.mp hneeded
      · exact hration.imp_right netsCritical_eq_true.mp
  · intro h
    refine ⟨h.incoming, h.live, h.affordable, h.kept, h.wanted.imp_right ?_⟩
    rintro ⟨hfair, hneeded, hration⟩
    exact tradeObjection_eq_none.mpr ⟨honly.mpr h.specialtyOnly, hfair,
      netsNeeded_eq_true.mpr hneeded, hration.imp_right netsCritical_eq_true.mpr⟩

/-- **The default policy passes over a rescue exactly when it is a paid rescue of our own
specialty** and no offer that asks for specialty only is there to be accepted. -/
theorem takes_rescues_iff (env : ChooseEnv) (st : StrategyState) (w : WorldView) :
    TakesRescues policy env st w ↔
      ((prepare env st w).GateOpen w → 0 < w.remaining → Safe policy (prepare env st w) w →
        ∀ o, Rescue (prepare env st w) w o w.self.specialty → o.isGift = false →
          CanAccept env (prepare env st w) w o →
            ∃ o', SpecialtyTrade (prepare env st w) w o' ∧
              CanAccept env (prepare env st w) w o') := by
  constructor
  · intro htakes hgate hticks hsafe o hrescue _ hadmits
    have haccepts := htakes hgate hticks hsafe o w.self.specialty hrescue hadmits
    obtain ⟨o', ho', hadmits'⟩ := (accepts_iff hgate hticks hsafe).mp haccepts
    exact ⟨o', acceptable_iff_specialtyTrade.mp ho', hadmits'⟩
  · intro hspecialty hgate hticks hsafe o r hrescue hadmits
    rw [accepts_iff hgate hticks hsafe]
    by_cases hgift : o.isGift = true
    · exact ⟨o, hrescue.acceptable (Or.inl hgift), hadmits⟩
    by_cases hr : r = w.self.specialty
    · subst hr
      rw [Bool.not_eq_true] at hgift
      obtain ⟨o', ho', hadmits'⟩ := hspecialty hgate hticks hsafe o hrescue hgift hadmits
      exact ⟨o', acceptable_iff_specialtyTrade.mpr ho', hadmits'⟩
    · have honly : paysOnlySpecialty policy (prepare env st w) w o = true :=
        paysOnlySpecialty_eq_true.mpr (Or.inl (hrescue.imported hr))
      exact ⟨o, hrescue.acceptable (Or.inr honly), hadmits⟩

/-- Our station produces water and is down to one unit; a partner offers three units of
it for food, of which there is plenty. -/
def thirsty : WorldView :=
  { WorldView.sample with
    self := { WorldView.sample.self with inventory := { water := 1, food := 30, components := 30 } }
    offers :=
      [{ offerId := "offer-1", proposerId := "P02", recipientId := "P01", give := { water := 3 }
         receive := { food := 3 }, createdTick := 0, expiresTick := 3, status := .OPEN
         transactionId := none }]
    advertisements := [] }

/-- What the default policy does instead. -/
def thirstyDecision : Decision where
  key := .advertise
  reason := "publish specialty surplus and unproduced-resource needs"
  message := .advertise "run" "request-1" { selling := [], seeking := [.water], expiresTick := 10 }

theorem specialty_rescue_is_ignored : ¬ TakesRescues policy .sample {} thirsty := by
  intro htakes
  have hdecision : Strategy.base.decisionOf .sample {} thirsty = some thirstyDecision := by
    decide +kernel
  obtain ⟨st', hchoose⟩ := Strategy.exists_state_of_decisionOf hdecision
  change choose policy .sample {} thirsty = .ok (st', some thirstyDecision) at hchoose
  obtain ⟨hgate, hticks, hmove, -⟩ := choose_decided hchoose
  have hsafe : Safe policy (prepare .sample {} thirsty) thirsty :=
    commitmentsUnsafe_eq_false.mp (by decide +kernel)
  have hrescue : Rescue (prepare .sample {} thirsty) thirsty
      (thirsty.offers.head (by decide)) .water :=
    ⟨by decide +kernel, by decide +kernel, by decide +kernel, by decide +kernel,
      by decide +kernel, by decide +kernel, by decide +kernel, by decide +kernel,
      by decide +kernel⟩
  have hadmits : CanAccept .sample (prepare .sample {} thirsty) thirsty
      (thirsty.offers.head (by decide)) :=
    ⟨by decide +kernel, by decide +kernel⟩
  obtain ⟨st'', d, runId, rid, offerId, haccepts, hmessage⟩ :=
    htakes hgate hticks hsafe _ _ hrescue hadmits
  rw [hchoose] at haccepts
  cases haccepts
  cases hmessage

/-! ### Purchases -/

theorem idle_of_eligible {ad : Advertisement} (h : w.Eligible ad) :
    ∀ o ∈ w.outgoing, o.recipientId ≠ ad.stationId := by
  intro o ho hrecipient
  exact h.idle (WorldView.mem_busy.mpr ⟨o, ho, hrecipient⟩)

theorem purchaseAmount_le_needs (p : Policy) (st : StrategyState) (w : WorldView)
    (need payment : Resource) :
    purchaseAmount p st w need payment ≤ quantity (target p st w) need -
      quantity w.available need := by
  have hneeds : purchaseAmount p st w need payment ≤ quantity (needs p st w) need :=
    min_le_right _ _
  rw [needs, quantity_saturatingSubtract] at hneeds
  exact hneeds

/-- An offer buys no more than the stock at hand is short of the target, from a partner
without an open offer of ours. -/
structure WithinShortage (p : Policy) (st : StrategyState) (w : WorldView) (body : OfferBody) :
    Prop where
  sized : ∀ r, 0 < quantity body.receive r →
    quantity body.receive r ≤ quantity (target p st w) r - quantity w.available r
  idle : ∀ o ∈ w.outgoing, o.recipientId ≠ body.recipientId

/-- **Every purchase fits the shortage by itself**, and the same partner is not asked
twice at a time. -/
theorem purchase_within_shortage {runId rid : String} {body : OfferBody}
    (h : choose p env st w = .ok (st', some d)) (hmessage : d.message = .offer runId rid body) :
    WithinShortage p (prepare env st w) w body := by
  have hmove := (choose_decided h).move
  rw [hmessage] at hmove
  generalize d.key = key at hmove
  cases hmove with
  | @purchase _ ad need payment _ _ hpurchase =>
      refine ⟨?_, idle_of_eligible hpurchase.eligible⟩
      intro r hr
      by_cases hneed : r = need
      · subst hneed
        rw [purchaseBody, quantity_bundleOf_self]
        exact purchaseAmount_le_needs p (prepare env st w) w r payment
      · rw [purchaseBody, quantity_bundleOf_of_ne hneed] at hr
        cases hr
  | gift _ _ hgift =>
      refine ⟨?_, idle_of_eligible hgift.eligible⟩
      intro r hr
      rw [giftBody, quantity_zero] at hr
      cases hr

theorem purchase_within_shortage_sample :
    WithinShortage policy (prepare .sample {} .sample) .sample
      ⟨"P02", { water := 4 }, { food := 4 }, 3⟩ := by
  obtain ⟨st', h⟩ := Strategy.exists_state_of_decisionOf Strategy.decisionOf_sample
  exact purchase_within_shortage h rfl

/-- A purchase and what is already on order fit the shortage together. -/
def CountsOrders (p : Policy) (env : ChooseEnv) (st : StrategyState) (w : WorldView) : Prop :=
  ∀ st' d runId rid body r, choose p env st w = .ok (st', some d) →
    d.message = .offer runId rid body → 0 < quantity body.receive r →
      quantity body.receive r + w.onOrder r ≤
        quantity (target p (prepare env st w) w) r - quantity w.available r

/-- Twice `n` units of food are on order, and a third partner sells food. -/
def reordered (n : Nat) : WorldView :=
  { WorldView.sample with
    offers :=
      [{ offerId := "offer-1", proposerId := "P01", recipientId := "P03", give := { water := n }
         receive := { food := n }, createdTick := 0, expiresTick := 3, status := .OPEN
         transactionId := none },
       { offerId := "offer-2", proposerId := "P01", recipientId := "P04", give := { water := n }
         receive := { food := n }, createdTick := 0, expiresTick := 3, status := .OPEN
         transactionId := none }] }

/-- The third order, of as many. -/
def thirdOrder (n : Nat) : Decision where
  key := .partner "P02"
  reason := "trade water for needed food with P02"
  message := .offer "run" "request-1"
    { recipientId := "P02", give := { water := n }, receive := { food := n }, expiresTick := 3 }

theorem shortage_is_ordered_again : ¬ CountsOrders policy .sample {} (reordered 4) ∧
    ¬ CountsOrders RestrainedTradingStrategy.policy .sample {} (reordered 6) := by
  constructor
  · intro hcounts
    have hdecision : Strategy.base.decisionOf .sample {} (reordered 4) =
        some (thirdOrder 4) := by
      decide +kernel
    obtain ⟨st', h⟩ := Strategy.exists_state_of_decisionOf hdecision
    exact absurd (hcounts st' _ _ _ _ .food h rfl (by decide)) (by decide +kernel)
  · intro hcounts
    have hdecision : Strategy.restrained.decisionOf .sample {} (reordered 6) =
        some (thirdOrder 6) := by
      decide +kernel
    obtain ⟨st', h⟩ := Strategy.exists_state_of_decisionOf hdecision
    exact absurd (hcounts st' _ _ _ _ .food h rfl (by decide)) (by decide +kernel)

end BaseStrategy

end PlanetCharlu
