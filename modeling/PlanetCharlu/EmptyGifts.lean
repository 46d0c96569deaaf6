import PlanetCharlu.Strategies

/-!
# What an accepted offer brings

All three policies walk the incoming offers in their order and accept the first one that
they find acceptable and that the command limits allow (`accepts_iff_first`). A paid trade
has to bring something that is sought or short. A gift is known by what it asks for alone,
so an offer that asks for nothing and gives nothing is accepted as a gift, and costs a
command like any other.
-/

namespace PlanetCharlu

open StableSort FirstHit

/-- The offer gives nothing and asks for nothing. -/
def Offer.Empty (o : Offer) : Prop := ∀ r, quantity o.give r = 0 ∧ quantity o.receive r = 0

/-- The offer gives something. -/
def Offer.Brings (o : Offer) : Prop := ∃ r, 0 < quantity o.give r

theorem Offer.empty_of_not_brings {o : Offer} (hgift : o.isGift = true) (hnone : ¬ o.Brings) :
    o.Empty := by
  intro r
  refine ⟨?_, (isZero_iff _).mp hgift r⟩
  by_contra hgive
  exact hnone ⟨r, Nat.pos_of_ne_zero hgive⟩

theorem Offer.Empty.isGift {o : Offer} (h : o.Empty) : o.isGift = true :=
  (isZero_iff _).mpr fun r => (h r).2

theorem Offer.Empty.not_brings {o : Offer} (h : o.Empty) : ¬ o.Brings := by
  rintro ⟨r, hr⟩
  have hnone := (h r).1
  omega

/-! ### The walk over the incoming offers, for all policies -/

namespace Strategy

/-- The incoming offers in the order in which a call looks at them. -/
def incoming (s : Strategy) (st : StrategyState) (w : WorldView) : List Offer :=
  match s with
  | .base => BaseStrategy.incoming st w
  | .restrained => BaseStrategy.incoming st w
  | .simplified => SimplifiedTradingStrategy.incoming w

def review (s : Strategy) (env : ChooseEnv) (st : StrategyState) (w : WorldView) :
    Offer → Except PyError (Option Decision × String) :=
  match s with
  | .base => BaseStrategy.review BaseStrategy.policy env st w
  | .restrained => BaseStrategy.review RestrainedTradingStrategy.policy env st w
  | .simplified => SimplifiedTradingStrategy.review env st w

def initiate (s : Strategy) (env : ChooseEnv) (st : StrategyState) (w : WorldView) :
    Except PyError (Option Decision) :=
  match s with
  | .base => .ok (BaseStrategy.initiate BaseStrategy.policy env st w)
  | .restrained => .ok (BaseStrategy.initiate RestrainedTradingStrategy.policy env st w)
  | .simplified => SimplifiedTradingStrategy.initiate env st w

/-- The open commitments pass the policy's test. -/
def SafeCommitments (s : Strategy) (st : StrategyState) (w : WorldView) : Prop :=
  match s with
  | .base => BaseStrategy.Safe BaseStrategy.policy st w
  | .restrained => BaseStrategy.Safe RestrainedTradingStrategy.policy st w
  | .simplified => SimplifiedTradingStrategy.Safe w

/-- The offer passes the policy's checks on incoming offers. -/
def Acceptable (s : Strategy) (st : StrategyState) (w : WorldView) (o : Offer) : Prop :=
  match s with
  | .base => BaseStrategy.Acceptable BaseStrategy.policy st w o
  | .restrained => BaseStrategy.Acceptable RestrainedTradingStrategy.policy st w o
  | .simplified => SimplifiedTradingStrategy.Acceptable w o

/-- The limits on commands allow accepting the offer. -/
abbrev MayAccept (env : ChooseEnv) (st : StrategyState) (w : WorldView) (o : Offer) : Prop :=
  st.Admits env.encodedLength w (.accept o.offerId) (.accept w.runId env.requestId o.offerId)

structure Takeable (s : Strategy) (env : ChooseEnv) (st : StrategyState) (w : WorldView)
    (o : Offer) : Prop where
  acceptable : s.Acceptable st w o
  admits : MayAccept env st w o

/-- A call gets as far as the incoming offers. -/
structure LooksAtOffers (s : Strategy) (st : StrategyState) (w : WorldView) : Prop where
  gate : st.GateOpen w
  ticksLeft : 0 < w.remaining
  safe : s.SafeCommitments st w

variable {s : Strategy} {env : ChooseEnv} {st st' : StrategyState} {w : WorldView} {o : Offer}
  {d : Decision}

@[simp] theorem mem_incoming : o ∈ s.incoming st w ↔ o ∈ w.openOffersToMe := by
  cases s <;> exact mem_sortedBy

theorem review_total (s : Strategy) (env : ChooseEnv) (st : StrategyState) (w : WorldView)
    (o : Offer) : ∃ out, s.review env st w o = .ok out := by
  cases s with
  | base => exact BaseStrategy.review_isOk _ env st w o
  | restrained => exact BaseStrategy.review_isOk _ env st w o
  | simplified => exact SimplifiedTradingStrategy.review_isOk env st w o

/-- A review decides to accept exactly the takeable offers. -/
theorem takeable_iff_review (ho : o ∈ s.incoming st w) :
    s.Takeable env st w o ↔ ∃ d note, s.review env st w o = .ok (some d, note) := by
  rw [mem_incoming] at ho
  constructor
  · rintro ⟨hacceptable, hadmits⟩
    cases s with
    | base => exact BaseStrategy.review_of_acceptable hacceptable hadmits
    | restrained => exact BaseStrategy.review_of_acceptable hacceptable hadmits
    | simplified => exact SimplifiedTradingStrategy.review_of_acceptable hacceptable hadmits
  · rintro ⟨d, note, hreview⟩
    cases s with
    | base =>
        obtain ⟨hacceptable, hadmitted, reason, rfl⟩ := BaseStrategy.review_eq_some ho hreview
        exact ⟨hacceptable, hadmitted.fresh, hadmitted.fits⟩
    | restrained =>
        obtain ⟨hacceptable, hadmitted, reason, rfl⟩ := BaseStrategy.review_eq_some ho hreview
        exact ⟨hacceptable, hadmitted.fresh, hadmitted.fits⟩
    | simplified =>
        obtain ⟨hacceptable, hadmitted, reason, rfl⟩ :=
          SimplifiedTradingStrategy.review_eq_some ho hreview
        exact ⟨hacceptable, hadmitted.fresh, hadmitted.fits⟩

theorem review_message {note : String} (ho : o ∈ s.incoming st w)
    (h : s.review env st w o = .ok (some d, note)) :
    d.message = .accept w.runId env.requestId o.offerId := by
  rw [mem_incoming] at ho
  cases s with
  | base => obtain ⟨-, -, reason, rfl⟩ := BaseStrategy.review_eq_some ho h; rfl
  | restrained => obtain ⟨-, -, reason, rfl⟩ := BaseStrategy.review_eq_some ho h; rfl
  | simplified => obtain ⟨-, -, reason, rfl⟩ := SimplifiedTradingStrategy.review_eq_some ho h; rfl

theorem initiate_message {runId rid offerId : String}
    (h : s.initiate env st w = .ok (some d)) : d.message ≠ .accept runId rid offerId := by
  cases s with
  | base => exact BaseStrategy.initiate_not_accept (Except.ok.inj h)
  | restrained => exact BaseStrategy.initiate_not_accept (Except.ok.inj h)
  | simplified =>
      rcases SimplifiedTradingStrategy.initiate_eq_some h with ⟨-, hrefill⟩ | ⟨-, hpublish⟩ |
        ⟨-, -, -, hshare⟩
      · obtain ⟨ad, need, payment, reason, -, rfl, -⟩ :=
          SimplifiedTradingStrategy.refill_eq_some hrefill
        simp
      · obtain ⟨-, reason, body, rfl⟩ := SimplifiedTradingStrategy.publish_eq_some hpublish
        simp
      · obtain ⟨ad, reason, -, rfl, -⟩ := SimplifiedTradingStrategy.share_eq_some hshare
        simp

/-- What a call does that gets as far as the incoming offers. -/
theorem choose_of_looks (h : s.LooksAtOffers (s.prepare env st w) w) :
    s.choose env st w =
      match scan (s.review env (s.prepare env st w) w) (s.incoming (s.prepare env st w) w) with
      | .error e => .error e
      | .ok (some action, notes) =>
          .ok ({ s.prepare env st w with lastOfferReview := notes }, some action)
      | .ok (none, notes) =>
          match s.initiate env (s.prepare env st w) w with
          | .error e => .error e
          | .ok action => .ok ({ s.prepare env st w with lastOfferReview := notes }, action) := by
  obtain ⟨hgate, hticks, hsafe⟩ := h
  have hopen := StrategyState.gateClosed_eq_false.mpr hgate
  have hleft : w.remaining ≠ 0 := by omega
  have hlearning : ∀ p, BaseStrategy.Safe p (BaseStrategy.prepare env st w) w →
      (BaseStrategy.prepare env st w).gateClosed w = false →
      BaseStrategy.choose p env st w =
        match scan (BaseStrategy.review p env (BaseStrategy.prepare env st w) w)
          (BaseStrategy.incoming (BaseStrategy.prepare env st w) w) with
        | .error e => .error e
        | .ok (some action, notes) =>
            .ok ({ BaseStrategy.prepare env st w with lastOfferReview := notes }, some action)
        | .ok (none, notes) =>
            .ok ({ BaseStrategy.prepare env st w with lastOfferReview := notes },
              BaseStrategy.initiate p env (BaseStrategy.prepare env st w) w) := by
    intro p hsafe hopen
    have hkept := BaseStrategy.commitmentsUnsafe_eq_false.mpr hsafe
    simp only [BaseStrategy.choose, BaseStrategy.chooseBody, hopen, hleft, hkept,
      Bool.false_eq_true, if_false]
    rcases scan (BaseStrategy.review p env (BaseStrategy.prepare env st w) w)
      (BaseStrategy.incoming (BaseStrategy.prepare env st w) w) with e | ⟨_ | action, notes⟩ <;> rfl
  cases s with
  | base => exact hlearning _ hsafe hopen
  | restrained => exact hlearning _ hsafe hopen
  | simplified =>
      have hkept := SimplifiedTradingStrategy.commitmentsUnsafe_eq_false.mpr hsafe
      have hopen' : (st.enterTick w).gateClosed w = false := hopen
      simp only [Strategy.choose, SimplifiedTradingStrategy.choose,
        SimplifiedTradingStrategy.chooseBody, hopen', hkept, Bool.false_or, beq_iff_eq, hleft,
        Bool.false_eq_true, if_false]
      simp only [Strategy.review, Strategy.incoming, Strategy.initiate, Strategy.prepare]
      rcases scan (SimplifiedTradingStrategy.review env (st.enterTick w) w)
        (SimplifiedTradingStrategy.incoming w) with e | ⟨_ | action, notes⟩
      · rfl
      · rcases SimplifiedTradingStrategy.initiate env (st.enterTick w) w with e | action <;> rfl
      · rfl

/-- Nothing is accepted before the walk. -/
theorem looks_of_accept {runId rid offerId : String} (h : s.choose env st w = .ok (st', some d))
    (hmessage : d.message = .accept runId rid offerId) :
    s.LooksAtOffers (s.prepare env st w) w := by
  have hlearning : ∀ p, BaseStrategy.choose p env st w = .ok (st', some d) →
      (BaseStrategy.prepare env st w).GateOpen w ∧ 0 < w.remaining ∧
        BaseStrategy.Safe p (BaseStrategy.prepare env st w) w := by
    intro p hp
    obtain ⟨hgate, hticks, hmove, -⟩ := BaseStrategy.choose_decided hp
    rw [hmessage] at hmove
    generalize d.key = key at hmove
    rcases hmove with _ | ⟨hsafe, _⟩
    exact ⟨hgate, hticks, hsafe⟩
  cases s with
  | base => obtain ⟨hgate, hticks, hsafe⟩ := hlearning _ h; exact ⟨hgate, hticks, hsafe⟩
  | restrained => obtain ⟨hgate, hticks, hsafe⟩ := hlearning _ h; exact ⟨hgate, hticks, hsafe⟩
  | simplified =>
      obtain ⟨hgate, hticks, hmove, -⟩ := SimplifiedTradingStrategy.choose_decided h
      rw [hmessage] at hmove
      generalize d.key = key at hmove
      rcases hmove with _ | ⟨hsafe, _⟩
      exact ⟨hgate, hticks, hsafe⟩

/-- `choose` accepts this offer: it is the last one that the call looked at, and the command
accepts it. -/
def Accepts (s : Strategy) (env : ChooseEnv) (st : StrategyState) (w : WorldView) (o : Offer) :
    Prop :=
  ∃ st' d, s.choose env st w = .ok (st', some d) ∧
    d.message = .accept w.runId env.requestId o.offerId ∧
    st'.lastOfferReview.getLast?.map Prod.fst = some o

/-- **The first takeable offer is accepted**, in the order of the walk, and no other. -/
theorem accepts_iff_first : s.Accepts env st w o ↔
    s.LooksAtOffers (s.prepare env st w) w ∧
      ∃ before after, s.incoming (s.prepare env st w) w = before ++ o :: after ∧
        s.Takeable env (s.prepare env st w) w o ∧
        ∀ o' ∈ before, ¬ s.Takeable env (s.prepare env st w) w o' := by
  have hhit : ∀ o' ∈ s.incoming (s.prepare env st w) w,
      s.Takeable env (s.prepare env st w) w o' ↔
        ∃ d note, s.review env (s.prepare env st w) w o' = .ok (some d, note) :=
    fun o' ho' => takeable_iff_review ho'
  rw [← stops_at_iff (s.review_total env (s.prepare env st w) w) hhit]
  constructor
  · rintro ⟨st', d, h, hmessage, hlast⟩
    have hlooks := looks_of_accept h hmessage
    refine ⟨hlooks, ?_⟩
    rw [choose_of_looks hlooks] at h
    rcases hscan : scan (s.review env (s.prepare env st w) w)
      (s.incoming (s.prepare env st w) w) with e | ⟨_ | action, notes⟩
    · rw [hscan] at h
      cases h
    · rw [hscan] at h
      rcases hinitiate : s.initiate env (s.prepare env st w) w with e | action
      · rw [hinitiate] at h
        cases h
      · rw [hinitiate] at h
        cases h
        exact absurd hmessage (initiate_message hinitiate)
    · rw [hscan] at h
      cases h
      exact ⟨d, notes, rfl, hlast⟩
  · rintro ⟨hlooks, d, notes, hscan, hlast⟩
    refine ⟨_, d, by rw [choose_of_looks hlooks, hscan], ?_, hlast⟩
    obtain ⟨before, o', after, note, hsplit, hreview, -, hnoted⟩ := exists_last_of_scan hscan
    rw [hnoted, Option.map_some, Option.some.injEq] at hlast
    subst hlast
    exact review_message (by simp [hsplit]) hreview

/-! ### Empty offers -/

/-- What is accepted and not a gift brings in something that the policy lacks. -/
theorem brings_of_acceptable (h : s.Acceptable st w o) (hpaid : o.isGift ≠ true) : o.Brings := by
  have hlearning : ∀ p, BaseStrategy.Acceptable p st w o → o.Brings := by
    intro p hp
    obtain ⟨-, -, hneeded, -⟩ :=
      BaseStrategy.tradeObjection_eq_none.mp (hp.reasoned.resolve_left hpaid)
    obtain ⟨r, -, hnets⟩ := BaseStrategy.netsNeeded_eq_true.mp hneeded
    exact ⟨r, Nat.zero_lt_of_lt hnets⟩
  cases s with
  | base => exact hlearning _ h
  | restrained => exact hlearning _ h
  | simplified =>
      have huseful := h.helpful.resolve_left hpaid
      simp only [SimplifiedTradingStrategy.useful, SimplifiedTradingStrategy.Checks.useful,
        List.any_eq_true, Bool.and_eq_true, decide_eq_true_eq] at huseful
      obtain ⟨r, -, -, hnets⟩ := huseful
      exact ⟨r, Nat.zero_lt_of_lt hnets⟩

/-- A gift passes the checks of every policy, also an empty one. -/
theorem acceptable_of_empty (ho : o ∈ w.openOffersToMe) (hlive : w.tick < o.expiresTick)
    (hempty : o.Empty) : s.Acceptable st w o := by
  have hlearning : ∀ p, BaseStrategy.Acceptable p st w o := by
    intro p
    refine ⟨ho, hlive, ?_, ?_, Or.inl hempty.isGift⟩
    · intro r
      rw [(hempty r).2]
      exact Nat.zero_le _
    · intro r
      rw [(hempty r).2, Nat.sub_zero]
      exact (min_le_left _ _).trans (Nat.le_add_right _ _)
  cases s with
  | base => exact hlearning _
  | restrained => exact hlearning _
  | simplified => exact SimplifiedTradingStrategy.acceptable_of_gift ho hlive hempty.isGift

theorem live_of_acceptable (h : s.Acceptable st w o) : w.tick < o.expiresTick := by
  cases s with
  | base => exact BaseStrategy.Acceptable.live h
  | restrained => exact BaseStrategy.Acceptable.live h
  | simplified => exact SimplifiedTradingStrategy.Acceptable.live h

/-- Every offer that the call accepts gives something. -/
def AcceptsBring (s : Strategy) (env : ChooseEnv) (st : StrategyState) (w : WorldView) : Prop :=
  ∀ o, s.Accepts env st w o → o.Brings

/-- **An accept brings something in exactly when no empty offer comes first.** A call that
gets as far as the incoming offers finds, before every live empty offer that the command
limits let it accept, an offer that it may take and that gives something. -/
theorem accepts_bring_iff (s : Strategy) (env : ChooseEnv) (st : StrategyState) (w : WorldView) :
    s.AcceptsBring env st w ↔
      (s.LooksAtOffers (s.prepare env st w) w →
        ∀ before o after, s.incoming (s.prepare env st w) w = before ++ o :: after →
          o.Empty → w.tick < o.expiresTick → MayAccept env (s.prepare env st w) w o →
            ∃ o' ∈ before, s.Takeable env (s.prepare env st w) w o' ∧ o'.Brings) := by
  have hfirst : s.AcceptsBring env st w ↔ (s.LooksAtOffers (s.prepare env st w) w →
      ∀ before o after, s.incoming (s.prepare env st w) w = before ++ o :: after →
        s.Takeable env (s.prepare env st w) w o → o.Brings ∨
          ∃ o' ∈ before, s.Takeable env (s.prepare env st w) w o' ∧ o'.Brings) := by
    rw [← first_marked_iff]
    constructor
    · intro hbring hlooks before o after hsplit hbefore ho
      exact hbring o (accepts_iff_first.mpr ⟨hlooks, before, after, hsplit, ho, hbefore⟩)
    · intro hmarked o haccepts
      obtain ⟨hlooks, before, after, hsplit, ho, hbefore⟩ := accepts_iff_first.mp haccepts
      exact hmarked hlooks before o after hsplit hbefore ho
  rw [hfirst]
  refine forall_congr' fun hlooks => forall_congr' fun before => forall_congr' fun o =>
    forall_congr' fun after => forall_congr' fun hsplit => ?_
  have ho : o ∈ w.openOffersToMe := by
    rw [← mem_incoming (s := s), hsplit]
    simp
  constructor
  · intro htakeable hempty hlive hadmits
    exact (htakeable ⟨acceptable_of_empty ho hlive hempty, hadmits⟩).resolve_left
      hempty.not_brings
  · intro hempties htakeable
    by_cases hbrings : o.Brings
    · exact Or.inl hbrings
    · right
      have hgift : o.isGift = true := by
        by_contra hpaid
        exact hbrings (brings_of_acceptable htakeable.acceptable hpaid)
      exact hempties (Offer.empty_of_not_brings hgift hbrings)
        (live_of_acceptable htakeable.acceptable) htakeable.admits

/-- An offer of nothing for nothing, and a snapshot that shows it. -/
def emptyOffer : Offer where
  offerId := "offer-1"
  proposerId := "P02"
  recipientId := "P01"
  give := {}
  receive := {}
  createdTick := 0
  expiresTick := 3
  status := .OPEN
  transactionId := none

def emptyHanded : WorldView := { WorldView.sample with offers := [emptyOffer] }

/-- It is accepted as a gift. -/
theorem accepts_emptyOffer (s : Strategy) : ¬ s.AcceptsBring .sample {} emptyHanded := by
  intro hbring
  have hempty : emptyOffer.Empty := by
    intro r
    cases r <;> exact ⟨rfl, rfl⟩
  have hgate : (s.prepare .sample {} emptyHanded).GateOpen emptyHanded :=
    StrategyState.gateClosed_eq_false.mp (by cases s <;> decide +kernel)
  have hsafe : s.SafeCommitments (s.prepare .sample {} emptyHanded) emptyHanded := by
    cases s with
    | base => exact BaseStrategy.commitmentsUnsafe_eq_false.mp (by decide +kernel)
    | restrained => exact BaseStrategy.commitmentsUnsafe_eq_false.mp (by decide +kernel)
    | simplified => exact SimplifiedTradingStrategy.commitmentsUnsafe_eq_false.mp (by decide +kernel)
  have hadmits : MayAccept .sample (s.prepare .sample {} emptyHanded) emptyHanded emptyOffer :=
    ⟨by cases s <;> decide +kernel, by decide +kernel⟩
  have haccepts : s.Accepts .sample {} emptyHanded emptyOffer :=
    accepts_iff_first.mpr ⟨⟨hgate, by decide, hsafe⟩, [], [], by cases s <;> decide +kernel,
      ⟨acceptable_of_empty (by decide) (by decide) hempty, hadmits⟩, by simp⟩
  exact hempty.not_brings (hbring emptyOffer haccepts)

theorem empty_offer_is_accepted : ¬ base.AcceptsBring .sample {} emptyHanded ∧
    ¬ restrained.AcceptsBring .sample {} emptyHanded ∧
      ¬ simplified.AcceptsBring .sample {} emptyHanded :=
  ⟨accepts_emptyOffer base, accepts_emptyOffer restrained, accepts_emptyOffer simplified⟩

end Strategy

end PlanetCharlu
