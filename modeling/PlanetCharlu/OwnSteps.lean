import PlanetCharlu.Market
import PlanetCharlu.PostedOffers

/-!
# The learning policies do not undo their own step

A posted offer adds to the commitments, and an accepted trade changes the stock behind
them. The safety test that `choose` runs on the next snapshot uses one of two floors,
and which one depends on what is critical then and on what is pending then. Neither
step can move the test from the lower floor to the higher one, and each step was checked
against a floor at least as high as the one the test will use.
-/

namespace PlanetCharlu

namespace WorldView

/-- The open offers, of whoever. -/
def openBoard (w : WorldView) : List Offer := w.offers.filter Offer.isOpen

theorem outgoing_eq_filter (w : WorldView) : w.outgoing =
    w.openBoard.filter fun o => o.proposedBy w.selfStationId && !o.isExpiredBy w.tick := by
  rw [outgoing, openOffersFromMe, openBoard, List.filter_filter, List.filter_filter]
  apply List.filter_congr
  intro o _
  rw [Bool.and_comm, Bool.and_assoc, Bool.and_comm]

theorem quantity_committed_of_perm {w : WorldView} {offers : List Offer}
    (h : w.outgoing.Perm offers) (r : Resource) :
    quantity w.committed r = (offers.map fun o => quantity o.give r).sum := by
  rw [committed, quantity_committedIn]
  exact (h.map _).sum_eq

end WorldView

/-- A later snapshot of the same tick, under the same rules and the same upkeep. -/
structure SameTick (w w' : WorldView) : Prop where
  tick : w'.tick = w.tick
  station : w'.selfStationId = w.selfStationId
  upkeep : w'.self.upkeepPerTick = w.self.upkeepPerTick
  rules : w'.rules = w.rules

/-- The snapshot after our offer: it is open, and nothing else has happened. -/
structure AfterOffer (w : WorldView) (body : OfferBody) (w' : WorldView) : Prop where
  same : SameTick w w'
  inventory : w'.self.inventory = w.self.inventory
  board : ∃ o, Posts w body o ∧ w'.openBoard.Perm (o :: w.openBoard)

/-- The snapshot after our accept: the offer is closed, and the exchange is settled. An
offer of ours to ourselves moves nothing. -/
structure AfterAccept (w : WorldView) (o : Offer) (w' : WorldView) : Prop where
  same : SameTick w w'
  board : w'.openBoard.Perm (w.openBoard.filter fun x => x.offerId != o.offerId)
  settled : if o.proposerId = w.selfStationId then w'.self.inventory = w.self.inventory
    else Exchanges w.self.inventory w'.self.inventory o.receive o.give

section Boards

variable {w w' : WorldView} {body : OfferBody} {o : Offer}

theorem SameTick.remaining (h : SameTick w w') : w'.remaining = w.remaining := by
  rw [WorldView.remaining, WorldView.remaining, h.rules, h.tick]

theorem outgoing_afterOffer (hsame : SameTick w w') (hposts : Posts w body o)
    (hboard : w'.openBoard.Perm (o :: w.openBoard)) (hlive : w.tick < body.expiresTick) :
    w'.outgoing.Perm (o :: w.outgoing) := by
  rw [w'.outgoing_eq_filter, w.outgoing_eq_filter, hsame.station, hsame.tick]
  have hours : o.proposedBy w.selfStationId = true := by
    rw [Offer.proposedBy, hposts.ours, beq_self_eq_true]
  have hfresh : o.isExpiredBy w.tick = false := by
    rw [Offer.isExpiredBy_eq_false, hposts.expires]
    exact hlive
  have hkeep : (o.proposedBy w.selfStationId && !o.isExpiredBy w.tick) = true := by
    rw [hours, hfresh]
    rfl
  have hfilter := hboard.filter fun x => x.proposedBy w.selfStationId && !x.isExpiredBy w.tick
  rw [List.filter_cons, if_pos hkeep] at hfilter
  exact hfilter

/-- Closing an offer of somebody else leaves our open offers as they are. -/
theorem outgoing_afterAccept (h : AfterAccept w o w')
    (hnamed : ∀ x ∈ w.offers, x.offerId = o.offerId → x = o)
    (hforeign : o.proposerId ≠ w.selfStationId) : w'.outgoing.Perm w.outgoing := by
  rw [w'.outgoing_eq_filter, w.outgoing_eq_filter, h.same.station, h.same.tick]
  have hfilter := h.board.filter fun x => x.proposedBy w.selfStationId && !x.isExpiredBy w.tick
  rw [List.filter_filter] at hfilter
  refine hfilter.trans (List.Perm.of_eq ?_)
  apply List.filter_congr
  intro x hx
  by_cases hid : x.offerId = o.offerId
  · have hsame := hnamed x (List.mem_filter.mp hx).1 hid
    subst hsame
    have hother : x.proposedBy w.selfStationId = false := by
      rw [Offer.proposedBy, beq_eq_false_iff_ne]
      exact hforeign
    rw [hother, Bool.false_and, Bool.false_and]
  · have hkept : (x.offerId != o.offerId) = true := bne_iff_ne.mpr hid
    rw [hkept, Bool.and_true]

end Boards

namespace BaseStrategy

/-! ### The floor of the safety test, from one snapshot to the next -/

section Floors

variable {p : Policy} {st st₂ : StrategyState} {w w' : WorldView}

theorem latencyTicks_carried (hsame : SameTick w w') (hlatencies : st₂.latencies = st.latencies) :
    latencyTicks st₂ w' = latencyTicks st w := by
  unfold latencyTicks
  rw [hlatencies, hsame.rules]

theorem reserve_carried (p : Policy) (hsame : SameTick w w')
    (hlatencies : st₂.latencies = st.latencies) : reserve p st₂ w' = reserve p st w := by
  unfold reserve reserveTicks
  rw [latencyTicks_carried hsame hlatencies, hsame.upkeep, hsame.remaining]

theorem emergencyReserve_carried (hsame : SameTick w w') :
    emergencyReserve w' = emergencyReserve w := by
  unfold emergencyReserve
  rw [hsame.upkeep, hsame.remaining]

/-- A critical resource of which nothing came in is still critical. -/
theorem critical_carried (hsame : SameTick w w') (hlatencies : st₂.latencies = st.latencies)
    (hstock : ∀ r ∈ critical st w, quantity w'.available r ≤ quantity w.available r) :
    critical st w ⊆ critical st₂ w' := by
  intro r hr
  have hshort := mem_critical.mp hr
  rw [mem_critical, urgencyTicks, latencyTicks_carried hsame hlatencies, hsame.upkeep,
    hsame.remaining]
  exact lt_of_le_of_lt (hstock r hr) hshort

theorem commitmentReserve_of_rescue {o : Offer} (ho : o ∈ w.outgoing)
    (hnets : NetsCritical st w o.receive o.give) :
    commitmentReserve p st w = emergencyReserve w := by
  unfold commitmentReserve
  rw [if_pos (List.any_eq_true.mpr ⟨o, ho, netsCritical_eq_true.mpr hnets⟩)]

theorem commitmentReserve_le_reserve (p : Policy) (st : StrategyState) (w : WorldView)
    (r : Resource) : quantity (commitmentReserve p st w) r ≤ quantity (reserve p st w) r := by
  unfold commitmentReserve
  split
  · exact emergency_le_reserve p st w r
  · exact le_refl _

/-- What is pending and what is critical only grow, so the floor only sinks. -/
theorem commitmentReserve_carried (hsame : SameTick w w')
    (hlatencies : st₂.latencies = st.latencies) (hcritical : critical st w ⊆ critical st₂ w')
    (houtgoing : ∀ o ∈ w.outgoing, o ∈ w'.outgoing) (r : Resource) :
    quantity (commitmentReserve p st₂ w') r ≤ quantity (commitmentReserve p st w) r := by
  by_cases hrescue : ∃ o ∈ w.outgoing, NetsCritical st w o.receive o.give
  · obtain ⟨o, ho, q, hq, hmore⟩ := hrescue
    rw [commitmentReserve_of_rescue ho ⟨q, hq, hmore⟩,
      commitmentReserve_of_rescue (houtgoing o ho) ⟨q, hcritical hq, hmore⟩,
      emergencyReserve_carried hsame]
  · have hidle : commitmentReserve p st w = reserve p st w := by
      unfold commitmentReserve
      rw [if_neg]
      intro hany
      obtain ⟨o, ho, hnets⟩ := List.any_eq_true.mp hany
      exact hrescue ⟨o, ho, netsCritical_eq_true.mp hnets⟩
    rw [hidle, ← reserve_carried p hsame hlatencies]
    exact commitmentReserve_le_reserve p st₂ w' r

end Floors

/-! ### The two steps keep the test -/

section Steps

variable {p : Policy} {st st₂ : StrategyState} {w w' : WorldView} {body : OfferBody} {o : Offer}

theorem quantity_committed_afterOffer (hsame : SameTick w w') (hposts : Posts w body o)
    (hboard : w'.openBoard.Perm (o :: w.openBoard)) (hlive : w.tick < body.expiresTick)
    (r : Resource) :
    quantity w'.committed r = quantity body.give r + quantity w.committed r := by
  rw [WorldView.quantity_committed_of_perm (outgoing_afterOffer hsame hposts hboard hlive),
    List.map_cons, List.sum_cons, hposts.give, WorldView.committed, WorldView.quantity_committedIn]

/-- A posted offer was checked against the very floor the test then uses, or a higher
one; an urgent one is still recognised as a rescue. -/
theorem safe_afterOffer (hafter : AfterOffer w body w') (hlatencies : st₂.latencies = st.latencies)
    (hsafe : Safe p st w) (hlive : w.tick < body.expiresTick)
    (hfloor : ∀ r, 0 < quantity body.give r →
      quantity (learningOfferFloor p st w body) r + quantity w.committed r +
        quantity body.give r ≤ quantity w.self.inventory r) :
    Safe p st₂ w' ∧ (NetsCritical st w body.receive body.give →
      commitmentReserve p st₂ w' = emergencyReserve w') := by
  obtain ⟨hsame, hinventory, o, hposts, hboard⟩ := hafter
  have hcommitted := quantity_committed_afterOffer hsame hposts hboard hlive
  have houtgoing := outgoing_afterOffer hsame hposts hboard hlive
  have hcritical : critical st w ⊆ critical st₂ w' := by
    apply critical_carried hsame hlatencies
    intro r _
    rw [WorldView.quantity_available, WorldView.quantity_available, hinventory, hcommitted]
    omega
  have hrescue : NetsCritical st w body.receive body.give →
      commitmentReserve p st₂ w' = emergencyReserve w' := by
    rintro ⟨q, hq, hmore⟩
    rw [← hposts.receive, ← hposts.give] at hmore
    exact commitmentReserve_of_rescue (houtgoing.mem_iff.mpr List.mem_cons_self)
      ⟨q, hcritical hq, hmore⟩
  refine ⟨?_, hrescue⟩
  have hold := commitmentReserve_carried (p := p) hsame hlatencies hcritical
    fun x hx => houtgoing.mem_iff.mpr (List.mem_cons_of_mem o hx)
  have hnew : ∀ r, quantity (commitmentReserve p st₂ w') r ≤
      quantity (learningOfferFloor p st w body) r := by
    intro r
    by_cases hnets : NetsCritical st w body.receive body.give
    · rw [hrescue hnets, emergencyReserve_carried hsame, learningOfferFloor,
        if_pos (netsCritical_eq_true.mpr hnets)]
      exact le_refl _
    · have hplain : netsCritical st w body.receive body.give = false := by
        rw [← Bool.not_eq_true, netsCritical_eq_true]
        exact hnets
      have hreserve := commitmentReserve_le_reserve p st₂ w' r
      rw [reserve_carried p hsame hlatencies] at hreserve
      rw [learningOfferFloor, hplain, if_neg Bool.false_ne_true]
      exact le_trans hreserve (quantity_scaled_min_mono (Nat.le_add_right _ _) r)
  intro r
  have hr := hsafe r
  have hold' := hold r
  have hnew' := hnew r
  rw [hcommitted, hinventory]
  by_cases hpaid : 0 < quantity body.give r
  · have hfloor' := hfloor r hpaid
    omega
  · omega

/-- An accepted trade that nets nothing critical leaves every resource at what it had, or
at the reserve. -/
theorem safe_afterAccept (hafter : AfterAccept w o w') (hlatencies : st₂.latencies = st.latencies)
    (hsafe : Safe p st w) (ho : Acceptable p st w o)
    (hnamed : ∀ x ∈ w.offers, x.offerId = o.offerId → x = o)
    (hforeign : o.proposerId ≠ w.selfStationId) (hplain : ¬ NetsCritical st w o.give o.receive) :
    Safe p st₂ w' := by
  have houtgoing := outgoing_afterAccept hafter hnamed hforeign
  have hcommitted : ∀ r, quantity w'.committed r = quantity w.committed r := by
    intro r
    rw [WorldView.quantity_committed_of_perm houtgoing, WorldView.committed,
      WorldView.quantity_committedIn]
  have hexchange := hafter.settled
  rw [if_neg hforeign] at hexchange
  have hcritical : critical st w ⊆ critical st₂ w' := by
    apply critical_carried hafter.same hlatencies
    intro r hr
    have hnets : quantity o.give r ≤ quantity o.receive r := by
      by_contra hmore
      exact hplain ⟨r, hr, not_le.mp hmore⟩
    have hmoved := hexchange r
    rw [WorldView.quantity_available, WorldView.quantity_available, hcommitted]
    omega
  have hold := commitmentReserve_carried (p := p) hafter.same hlatencies hcritical
    fun x hx => houtgoing.mem_iff.mpr hx
  have hreserve : paymentReserve p st w o = reserve p st w := by
    unfold paymentReserve
    rw [if_neg]
    rw [rescuesCritical, netsCritical_eq_true]
    exact hplain
  intro r
  have hr := hsafe r
  have hold' := hold r
  have hkept := ho.kept r
  have hfloor := commitmentReserve_le_reserve p st w r
  have hpay := ho.affordable r
  have hmoved := hexchange r
  rw [hreserve, WorldView.quantity_available] at hkept
  rw [WorldView.quantity_available] at hpay
  rw [hcommitted]
  omega

end Steps

/-! ### The law -/

/-- `choose` returns a withdraw. -/
def Withdraws (p : Policy) (env : ChooseEnv) (st : StrategyState) (w : WorldView) : Prop :=
  ∃ st' d runId rid offerId, choose p env st w = .ok (st', some d) ∧
    d.message = .withdraw runId rid offerId

theorem not_withdraws_of_safe {p : Policy} {env : ChooseEnv} {st : StrategyState} {w : WorldView}
    (h : Safe p (prepare env st w) w) : ¬ Withdraws p env st w := by
  rintro ⟨st', d, runId, rid, offerId, hchoose, hmessage⟩
  have hmove := (choose_decided hchoose).move
  rw [hmessage] at hmove
  generalize d.key = key at hmove
  cases hmove with
  | withdraw hrisky _ =>
      rw [commitmentsUnsafe_eq_false.mpr h] at hrisky
      cases hrisky

/-- After an offer `choose` posts, with the same latency samples, the next call does not
withdraw; and an urgent offer keeps the test at the emergency floor. -/
def OfferStays (p : Policy) (env : ChooseEnv) (st : StrategyState) (w : WorldView) : Prop :=
  ∀ st' d runId rid body w' env₂ st₂, choose p env st w = .ok (st', some d) →
    d.message = .offer runId rid body → AfterOffer w body w' →
    (prepare env₂ st₂ w').latencies = (prepare env st w).latencies →
    ¬ Withdraws p env₂ st₂ w' ∧
      (NetsCritical (prepare env st w) w body.receive body.give →
        commitmentReserve p (prepare env₂ st₂ w') w' = emergencyReserve w')

/-- After `choose` accepts the incoming offer `o`, which nets no critical resource, with
the same latency samples, the next call does not withdraw. -/
def AcceptStays (p : Policy) (env : ChooseEnv) (st : StrategyState) (w : WorldView) (o : Offer) :
    Prop :=
  ∀ st' d runId rid w' env₂ st₂, choose p env st w = .ok (st', some d) →
    d.message = .accept runId rid o.offerId → o ∈ w.openOffersToMe →
    (∀ x ∈ w.offers, x.offerId = o.offerId → x = o) →
    ¬ NetsCritical (prepare env st w) w o.give o.receive → AfterAccept w o w' →
    (prepare env₂ st₂ w').latencies = (prepare env st w).latencies →
    ¬ Withdraws p env₂ st₂ w'

theorem offer_stays (p : Policy) (env : ChooseEnv) (st : StrategyState) (w : WorldView) :
    OfferStays p env st w := by
  intro st' d runId rid body w' env₂ st₂ hchoose hmessage hafter hlatencies
  obtain ⟨-, -, hmove, -⟩ := choose_decided hchoose
  have hpays := (learning_paysFromStock hmove).offer runId rid body hmessage
  have hterms : Safe p (prepare env st w) w ∧ w.tick < body.expiresTick := by
    rw [hmessage] at hmove
    generalize d.key = key at hmove
    cases hmove with
    | purchase hsafe hcan _ => exact ⟨hsafe, Nat.lt_add_of_pos_right hcan.lasting⟩
    | gift hsafe hcan _ => exact ⟨hsafe, Nat.lt_add_of_pos_right hcan.lasting⟩
  obtain ⟨hsafe, hlive⟩ := hterms
  obtain ⟨hnext, hrescue⟩ := safe_afterOffer hafter hlatencies hsafe hlive hpays.2
  exact ⟨not_withdraws_of_safe hnext, hrescue⟩

theorem accept_stays (p : Policy) (env : ChooseEnv) (st : StrategyState) (w : WorldView)
    {o : Offer} (hforeign : o.proposerId ≠ w.selfStationId) : AcceptStays p env st w o := by
  intro st' d runId rid w' env₂ st₂ hchoose hmessage _ hnamed hplain hafter hlatencies
  have hmove := (choose_decided hchoose).move
  rw [hmessage] at hmove
  generalize d.key = key at hmove
  generalize hid : o.offerId = offerId at hmove
  cases hmove with
  | @accept _ o' hsafe ho' =>
      have hlisted := (WorldView.mem_openOffersToMe.mp ho'.incoming).1
      have hsame := hnamed o' hlisted hid.symm
      subst hsame
      exact not_withdraws_of_safe
        (safe_afterAccept hafter hlatencies hsafe ho' hnamed hforeign hplain)

/-- **A learning policy does not undo its own step.** -/
theorem own_step_stays (p : Policy) (env : ChooseEnv) (st : StrategyState) (w : WorldView) :
    OfferStays p env st w ∧
      ∀ o : Offer, o.proposerId ≠ w.selfStationId → AcceptStays p env st w o :=
  ⟨offer_stays p env st w, fun _ hforeign => accept_stays p env st w hforeign⟩

/-- What the server makes of the purchase on the sample snapshot. -/
def ordered : Offer where
  offerId := "offer-1"
  proposerId := "P01"
  recipientId := "P02"
  give := { water := 4 }
  receive := { food := 4 }
  createdTick := 0
  expiresTick := 3
  status := .OPEN
  transactionId := none

/-- Some food is wanted, none is critical; `P02` offers four units for water. -/
def invitation : Offer :=
  { ordered with
    proposerId := "P02", recipientId := "P01", give := { food := 4 }, receive := { water := 4 } }

def invited : WorldView :=
  { WorldView.sample with
    self := { WorldView.sample.self with inventory := { water := 50, food := 4, components := 30 } }
    offers := [.older, invitation] }

def invitedAccept : Decision where
  key := .accept "offer-1"
  reason := "accept favorable-or-equal trade for a resource we need"
  message := .accept "run" "request-1" "offer-1"

/-- The snapshot after the trade. -/
def exchanged : WorldView :=
  { invited with
    self := { invited.self with inventory := { water := 46, food := 8, components := 30 } }
    offers := setStatus "offer-1" .ACCEPTED invited.offers }

theorem own_step_stays_sample :
    (AfterOffer .sample ⟨"P02", { water := 4 }, { food := 4 }, 3⟩
        (WorldView.sample.withOffer ordered) ∧
      ¬ Withdraws policy .sample {} (WorldView.sample.withOffer ordered)) ∧
      AfterAccept invited invitation exchanged ∧ ¬ Withdraws policy .sample {} exchanged := by
  obtain ⟨st', h⟩ := Strategy.exists_state_of_decisionOf Strategy.decisionOf_sample
  have hoffered : AfterOffer .sample ⟨"P02", { water := 4 }, { food := 4 }, 3⟩
      (WorldView.sample.withOffer ordered) :=
    ⟨⟨rfl, rfl, rfl, rfl⟩, rfl, ordered, ⟨rfl, rfl, rfl, rfl, rfl, rfl, rfl⟩,
      by decide +kernel⟩
  have haccepts : Strategy.base.decisionOf .sample {} invited = some invitedAccept := by
    decide +kernel
  obtain ⟨st, hst⟩ := Strategy.exists_state_of_decisionOf haccepts
  have hplain : ¬ NetsCritical (prepare .sample {} invited) invited invitation.give
      invitation.receive := by
    rw [← netsCritical_eq_true]
    decide +kernel
  have haccepted : AfterAccept invited invitation exchanged := by
    refine ⟨⟨rfl, rfl, rfl, rfl⟩, by decide +kernel, ?_⟩
    rw [if_neg (by decide)]
    exact fun r => by cases r <;> rfl
  refine ⟨⟨hoffered, ?_⟩, haccepted, ?_⟩
  · exact ((own_step_stays policy .sample {} .sample).1 st' _ _ _ _ _ .sample {} h rfl hoffered
      (by decide +kernel)).1
  · exact (own_step_stays policy .sample {} invited).2 invitation (by decide) st _ _ _ _ .sample {}
      hst rfl (by decide +kernel) (by decide +kernel) hplain haccepted (by decide +kernel)

/-! ### An offer of ours to ourselves -/

/-- Our station has offered itself two units of water and one of food for two of water.
While that is open, water is critical, and the other open offer, which buys water, is a
rescue that may be funded down to three ticks. -/
def looped : WorldView :=
  { WorldView.sample with
    self := { WorldView.sample.self with inventory := { water := 6, food := 8, components := 14 } }
    offers :=
      [{ offerId := "offer-1", proposerId := "P01", recipientId := "P01"
         give := { water := 2, food := 1 }, receive := { water := 2 }, createdTick := 0
         expiresTick := 3, status := .OPEN, transactionId := none },
       { offerId := "offer-2", proposerId := "P01", recipientId := "P02"
         give := { components := 10 }, receive := { water := 10 }, createdTick := 0
         expiresTick := 3, status := .OPEN, transactionId := none }]
    advertisements := [] }

/-- The snapshot after the first offer is accepted. -/
def unlooped : WorldView := { looped with offers := setStatus "offer-1" .ACCEPTED looped.offers }

/-- A delay of two ticks makes five ticks of stock urgent. -/
def delayed : StrategyState := { latencies := [2] }

def loopedAccept : Decision where
  key := .accept "offer-1"
  reason := "accept favorable-or-equal trade for a resource we need"
  message := .accept "run" "request-1" "offer-1"

def loopedWithdraw : Decision where
  key := .withdraw "offer-2"
  reason := "release stock needed for upkeep"
  message := .withdraw "run" "request-1" "offer-2"

theorem own_offer_accepted_is_undone :
    ¬ AcceptStays policy .sample delayed looped (looped.offers.head (by decide)) ∧
      ¬ AcceptStays RestrainedTradingStrategy.policy .sample delayed looped
        (looped.offers.head (by decide)) := by
  have hafter : AfterAccept looped (looped.offers.head (by decide)) unlooped :=
    ⟨⟨rfl, rfl, rfl, rfl⟩, by decide +kernel, rfl⟩
  have hplain : ¬ NetsCritical (prepare .sample delayed looped) looped
      (looped.offers.head (by decide)).give (looped.offers.head (by decide)).receive := by
    rw [← netsCritical_eq_true]
    decide +kernel
  constructor
  · intro hstays
    have haccept : Strategy.base.decisionOf .sample delayed looped = some loopedAccept := by
      decide +kernel
    have hwithdraw : Strategy.base.decisionOf .sample delayed unlooped = some loopedWithdraw := by
      decide +kernel
    obtain ⟨st', h⟩ := Strategy.exists_state_of_decisionOf haccept
    obtain ⟨st₂, h₂⟩ := Strategy.exists_state_of_decisionOf hwithdraw
    exact hstays st' _ _ _ unlooped .sample delayed h rfl (by decide +kernel) (by decide +kernel)
      hplain hafter (by decide +kernel) ⟨st₂, _, _, _, _, h₂, rfl⟩
  · intro hstays
    have haccept : Strategy.restrained.decisionOf .sample delayed looped = some loopedAccept := by
      decide +kernel
    have hwithdraw : Strategy.restrained.decisionOf .sample delayed unlooped =
        some loopedWithdraw := by
      decide +kernel
    obtain ⟨st', h⟩ := Strategy.exists_state_of_decisionOf haccept
    obtain ⟨st₂, h₂⟩ := Strategy.exists_state_of_decisionOf hwithdraw
    exact hstays st' _ _ _ unlooped .sample delayed h rfl (by decide +kernel) (by decide +kernel)
      hplain hafter (by decide +kernel) ⟨st₂, _, _, _, _, h₂, rfl⟩

end BaseStrategy

end PlanetCharlu
