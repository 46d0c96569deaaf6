import PlanetCharlu.DecisionRuns
import PlanetCharlu.Lib.Rotation

/-!
# Partner rotation starves nobody

`record` stamps a partner with the number of commands sent so far, and the partners are
tried by their stamps, the one without a stamp or with the oldest one first. So the
stamps are the last turns of a rotation, and an offer goes to a partner whose turn is
the oldest among those that qualify for it.
-/

namespace PlanetCharlu

open Runs Rotation

/-! ### Who qualifies for an offer -/

/-- What an offer is for. -/
inductive Purpose where
  | gift
  | purchase (r : Resource)
deriving DecidableEq, Repr

def Purpose.Of (purpose : Purpose) (body : OfferBody) : Prop :=
  match purpose with
  | .gift => body.receive = Bundle.zero
  | .purchase r => 0 < quantity body.receive r

/-- A barter has one purpose. -/
theorem Purpose.eq_purchase {purpose : Purpose} {body : OfferBody} {need : Resource} {n : Nat}
    (h : purpose.Of body) (hreceive : body.receive = bundleOf need n) (hpositive : 0 < n) :
    purpose = .purchase need := by
  rcases purpose with _ | r
  · have hnothing : bundleOf need n = Bundle.zero := hreceive.symm.trans h
    have hquantity := congrArg (fun b => quantity b need) hnothing
    rw [quantity_bundleOf_self, quantity_zero] at hquantity
    exact absurd hquantity hpositive.ne'
  · have hreceived : 0 < quantity body.receive r := h
    rw [hreceive, quantity_bundleOf] at hreceived
    by_cases hr : r = need
    · rw [hr]
    · rw [if_neg hr] at hreceived
      exact absurd hreceived (Nat.lt_irrefl 0)

theorem Purpose.eq_gift {purpose : Purpose} {body : OfferBody} (h : purpose.Of body)
    (hreceive : body.receive = Bundle.zero) : purpose = .gift := by
  rcases purpose with _ | r
  · rfl
  · have hreceived : 0 < quantity body.receive r := h
    rw [hreceive, quantity_zero] at hreceived
    exact absurd hreceived (Nat.lt_irrefl 0)

/-- What a learning policy would send to the station of an advertisement, if it has the
entries for the purpose, and is a confirmed supplier where there is one. -/
def BaseStrategy.WouldSend (p : BaseStrategy.Policy) (st : StrategyState) (w : WorldView)
    (ad : Advertisement) (body : OfferBody) : Purpose → Prop
  | .gift => w.self.specialty ∈ ad.seeking ∧ 0 < BaseStrategy.giftAmount p st w ∧
      body = BaseStrategy.giftBody p st w ad
  | .purchase r => r ∈ ad.selling ∧
      (BaseStrategy.confirmedSuppliersOf st r = ∅ ∨
        ad.stationId ∈ BaseStrategy.confirmedSuppliersOf st r) ∧
      ∃ payment ∈ BaseStrategy.paymentOptions w r, payment ∈ ad.seeking ∧
        0 < BaseStrategy.purchaseAmount p st w r payment ∧
          body = BaseStrategy.purchaseBody p st w ad r payment

/-- What the simplified policy would send. -/
def SimplifiedTradingStrategy.WouldSend (w : WorldView) (ad : Advertisement) (body : OfferBody) :
    Purpose → Prop
  | .gift => w.self.specialty ∈ ad.seeking ∧ 0 < SimplifiedTradingStrategy.giftAmount w ∧
      body = SimplifiedTradingStrategy.giftBody w ad
  | .purchase r => r ∈ ad.selling ∧
      ∃ payment ∈ SimplifiedTradingStrategy.payments w r, payment ∈ ad.seeking ∧
        0 < SimplifiedTradingStrategy.refillAmount w r payment ∧
          body = SimplifiedTradingStrategy.refillBody w ad r payment

def Strategy.WouldSend (s : Strategy) (st : StrategyState) (w : WorldView) (ad : Advertisement)
    (body : OfferBody) : Purpose → Prop :=
  match s with
  | .base => BaseStrategy.WouldSend BaseStrategy.policy st w ad body
  | .restrained => BaseStrategy.WouldSend RestrainedTradingStrategy.policy st w ad body
  | .simplified => SimplifiedTradingStrategy.WouldSend w ad body

/-- A station qualifies for an offer of a purpose: a live advertisement of it has the
entries, it is known and has no open offer of ours, and the command limits let the offer
through. -/
def Strategy.Qualifies (s : Strategy) (size : ClientMessage → Nat) (st : StrategyState)
    (w : WorldView) (rid : String) (purpose : Purpose) (station : String) : Prop :=
  ∃ ad body, ad.stationId = station ∧ w.Eligible ad ∧ s.WouldSend st w ad body purpose ∧
    st.Admits size w (.partner station) (.offer w.runId rid body)

theorem StrategyState.turnOf_le {st : StrategyState} {a b : Advertisement}
    (h : st.turnKey a ≤ st.turnKey b) : st.turnOf a.stationId ≤ st.turnOf b.stationId := by
  unfold turnKey at h
  rw [Prod.Lex.toLex_le_toLex] at h
  rcases h with hlt | ⟨heq, -⟩
  · exact hlt.le
  · exact heq.le

/-! ### An offer goes to whoever waited longest -/

theorem learning_offer_least {p : BaseStrategy.Policy} {env : ChooseEnv} {st st' : StrategyState}
    {w : WorldView} {d : Decision} {runId rid : String} {body body' : OfferBody}
    {purpose : Purpose} {ad : Advertisement}
    (h : BaseStrategy.choose p env st w = .ok (st', some d))
    (hmessage : d.message = .offer runId rid body) (hpurpose : purpose.Of body)
    (heligible : w.Eligible ad) (hsend : BaseStrategy.WouldSend p st' w ad body' purpose)
    (hadmits : st'.Admits env.encodedLength w (.partner ad.stationId)
      (.offer w.runId rid body')) :
    st'.turnOf body.recipientId ≤ st'.turnOf ad.stationId := by
  have hinitiate := BaseStrategy.choose_offer h hmessage
  obtain ⟨notes, rfl⟩ := BaseStrategy.choose_state h
  obtain ⟨hfresh, hfits⟩ := hadmits
  rcases BaseStrategy.initiate_eq_some hinitiate with hads | ⟨-, advertised, hpurchase⟩ |
    ⟨-, hgift⟩
  · obtain ⟨-, -, reason, listing, rfl⟩ := BaseStrategy.advertisement_eq_some hads
    cases hmessage
  · obtain ⟨ad₀, need, payment₀, reason, hbuy, rfl, hleast⟩ :=
      BaseStrategy.purchase_eq_some hpurchase
    cases hmessage
    cases Purpose.eq_purchase hpurpose rfl hbuy.purchasable.positive
    obtain ⟨hsells, htrusted, payment, hpayable, hwants, hpositive, rfl⟩ := hsend
    exact StrategyState.turnOf_le (hleast ad payment ⟨⟨hbuy.purchasable.sought,
      hbuy.purchasable.rationed, heligible, hsells, htrusted, hpayable, hwants, hpositive⟩,
      hfresh, hfits⟩)
  · obtain ⟨ad₀, reason, hgive, rfl, hleast⟩ := BaseStrategy.gift_eq_some hgift
    cases hmessage
    cases Purpose.eq_gift hpurpose rfl
    obtain ⟨hwants, hpositive, rfl⟩ := hsend
    exact StrategyState.turnOf_le (hleast ad ⟨⟨hgive.giftable.rationed, hgive.giftable.allowed,
      heligible, hwants, hpositive⟩, hfresh, hfits⟩)

theorem simplified_offer_least {env : ChooseEnv} {st st' : StrategyState} {w : WorldView}
    {d : Decision} {runId rid : String} {body body' : OfferBody} {purpose : Purpose}
    {ad : Advertisement} (h : SimplifiedTradingStrategy.choose env st w = .ok (st', some d))
    (hmessage : d.message = .offer runId rid body) (hpurpose : purpose.Of body)
    (heligible : w.Eligible ad) (hsend : SimplifiedTradingStrategy.WouldSend w ad body' purpose)
    (hadmits : st'.Admits env.encodedLength w (.partner ad.stationId)
      (.offer w.runId rid body')) :
    st'.turnOf body.recipientId ≤ st'.turnOf ad.stationId := by
  have hinitiate := SimplifiedTradingStrategy.choose_offer h hmessage
  obtain ⟨notes, rfl⟩ := SimplifiedTradingStrategy.choose_state h
  obtain ⟨hfresh, hfits⟩ := hadmits
  rcases SimplifiedTradingStrategy.initiate_eq_some hinitiate with ⟨-, hrefill⟩ |
    ⟨-, hpublish⟩ | ⟨-, -, -, hshare⟩
  · obtain ⟨ad₀, need, payment₀, reason, hmay, rfl, hleast, -⟩ :=
      SimplifiedTradingStrategy.refill_eq_some hrefill
    cases hmessage
    cases Purpose.eq_purchase hpurpose rfl hmay.refillable.positive
    obtain ⟨hsells, payment, hpayable, hwants, hpositive, rfl⟩ := hsend
    exact StrategyState.turnOf_le (hleast ad payment ⟨⟨hmay.refillable.short,
      hmay.refillable.notPending, heligible, hsells, hpayable, hwants, hpositive⟩,
      hfresh, hfits⟩)
  · obtain ⟨-, reason, listing, rfl⟩ := SimplifiedTradingStrategy.publish_eq_some hpublish
    cases hmessage
  · obtain ⟨ad₀, reason, hmay, rfl, hleast⟩ := SimplifiedTradingStrategy.share_eq_some hshare
    cases hmessage
    cases Purpose.eq_gift hpurpose rfl
    obtain ⟨hwants, hpositive, rfl⟩ := hsend
    exact StrategyState.turnOf_le (hleast ad ⟨⟨heligible, hwants, hpositive,
      hmay.giftable.kept⟩, hfresh, hfits⟩)

/-- **An offer goes to a station that waited longest** among those that qualify for one of
its purpose. -/
theorem Strategy.offer_least {s : Strategy} {env : ChooseEnv} {st st' : StrategyState}
    {w : WorldView} {d : Decision} {runId rid : String} {body : OfferBody} {purpose : Purpose}
    {station : String} (h : s.choose env st w = .ok (st', some d))
    (hmessage : d.message = .offer runId rid body) (hpurpose : purpose.Of body)
    (hqualifies : s.Qualifies env.encodedLength st' w rid purpose station) :
    st'.turnOf body.recipientId ≤ st'.turnOf station := by
  obtain ⟨ad, body', rfl, heligible, hsend, hadmits⟩ := hqualifies
  cases s with
  | base => exact learning_offer_least h hmessage hpurpose heligible hsend hadmits
  | restrained => exact learning_offer_least h hmessage hpurpose heligible hsend hadmits
  | simplified => exact simplified_offer_least h hmessage hpurpose heligible hsend hadmits

/-- The recipient of an offer qualifies for it. -/
theorem Strategy.Decided.qualifies {s : Strategy} {size : ClientMessage → Nat}
    {st : StrategyState} {w : WorldView} {d : Decision} {runId rid : String} {body : OfferBody}
    {purpose : Purpose} (h : s.Decided st w d)
    (hfits : size d.message ≤ w.rules.maxCommandBytes)
    (hmessage : d.message = .offer runId rid body) (hpurpose : purpose.Of body) :
    s.Qualifies size st w rid purpose body.recipientId := by
  obtain ⟨-, -, hmove, hfresh⟩ := h
  generalize d.key = key at hmove hfresh
  rw [hmessage] at hmove hfits
  have hlearning : ∀ p, BaseStrategy.Move p st w key (.offer runId rid body) →
      runId = w.runId ∧ key = .partner body.recipientId ∧
        ∃ ad, ad.stationId = body.recipientId ∧ w.Eligible ad ∧
          BaseStrategy.WouldSend p st w ad body purpose := by
    intro p hp
    cases hp with
    | @purchase _ ad need payment _ _ hbuy =>
        cases Purpose.eq_purchase hpurpose rfl hbuy.positive
        exact ⟨rfl, rfl, ad, rfl, hbuy.eligible, hbuy.sells, hbuy.trusted, payment,
          hbuy.payable, hbuy.wants, hbuy.positive, rfl⟩
    | @gift _ ad _ _ hgive =>
        cases Purpose.eq_gift hpurpose rfl
        exact ⟨rfl, rfl, ad, rfl, hgive.eligible, hgive.wants, hgive.positive, rfl⟩
  have hsimplified : SimplifiedTradingStrategy.Move w key (.offer runId rid body) →
      runId = w.runId ∧ key = .partner body.recipientId ∧
        ∃ ad, ad.stationId = body.recipientId ∧ w.Eligible ad ∧
          SimplifiedTradingStrategy.WouldSend w ad body purpose := by
    intro hp
    cases hp with
    | @refill _ ad need payment _ _ hmay =>
        cases Purpose.eq_purchase hpurpose rfl hmay.positive
        exact ⟨rfl, rfl, ad, rfl, hmay.eligible, hmay.sells, payment, hmay.payable, hmay.wants,
          hmay.positive, rfl⟩
    | @gift _ ad _ _ hgive =>
        cases Purpose.eq_gift hpurpose rfl
        exact ⟨rfl, rfl, ad, rfl, hgive.eligible, hgive.wants, hgive.positive, rfl⟩
  have hwould : runId = w.runId ∧ key = .partner body.recipientId ∧
      ∃ ad, ad.stationId = body.recipientId ∧ w.Eligible ad ∧ s.WouldSend st w ad body purpose := by
    cases s with
    | base => exact hlearning _ hmove
    | restrained => exact hlearning _ hmove
    | simplified => exact hsimplified hmove
  obtain ⟨rfl, rfl, ad, hstation, heligible, hsend⟩ := hwould
  exact ⟨ad, body, hstation, heligible, hsend, hfresh, hfits⟩

/-! ### The stamps are the last turns -/

/-- The turn an observation gives: the station an offer goes to, and its stamp. -/
def Observation.turn? : Observation → Option (String × ℕ)
  | .chose st _ (some d) =>
      match d.message with
      | .offer _ _ body => some (body.recipientId, st.sentTotal + 1)
      | _ => none
  | _ => none

def turns (history : List Observation) : List (String × ℕ) := history.filterMap Observation.turn?

/-- The stations that offers were sent to, in order. -/
def recipients (history : List Observation) : List String := (turns history).map Prod.fst

/-- The decision of the observation is the offer `body`. -/
structure SendsOffer (o : Observation) (st : StrategyState) (w : WorldView) (rid : String)
    (body : OfferBody) : Prop where
  sent : ∃ d runId, o = .chose st w (some d) ∧ d.message = .offer runId rid body

theorem SendsOffer.turn {o : Observation} {st : StrategyState} {w : WorldView} {rid : String}
    {body : OfferBody} (h : SendsOffer o st w rid body) :
    o.turn? = some (body.recipientId, st.sentTotal + 1) := by
  obtain ⟨d, runId, rfl, hmessage⟩ := h.sent
  unfold Observation.turn?
  dsimp only
  rw [hmessage]

theorem exists_sendsOffer {o : Observation} {turn : String × ℕ} (h : o.turn? = some turn) :
    ∃ st w rid body, SendsOffer o st w rid body ∧ turn = (body.recipientId, st.sentTotal + 1) := by
  unfold Observation.turn? at h
  split at h
  · rename_i st w d
    split at h
    · rename_i runId rid body hmessage
      cases h
      exact ⟨st, w, rid, body, ⟨d, runId, rfl, hmessage⟩, rfl⟩
    · cases h
  · cases h

/-- The key of an offer names its recipient, and no other command has such a key. -/
theorem Strategy.Decided.key {s : Strategy} {st : StrategyState} {w : WorldView} {d : Decision}
    (h : s.Decided st w d) :
    (∃ runId rid body, d.message = .offer runId rid body ∧ d.key = .partner body.recipientId) ∨
      ((∀ runId rid body, d.message ≠ .offer runId rid body) ∧
        ∀ station, d.key ≠ .partner station) := by
  have hmove := h.move
  generalize d.key = key at hmove ⊢
  generalize d.message = message at hmove ⊢
  have hlearning : ∀ p, BaseStrategy.Move p st w key message →
      (∃ runId rid body, message = .offer runId rid body ∧ key = .partner body.recipientId) ∨
        ((∀ runId rid body, message ≠ .offer runId rid body) ∧
          ∀ station, key ≠ .partner station) := by
    intro p hp
    cases hp with
    | purchase _ _ _ => exact Or.inl ⟨_, _, _, rfl, rfl⟩
    | gift _ _ _ => exact Or.inl ⟨_, _, _, rfl, rfl⟩
    | _ => exact Or.inr ⟨by simp, by simp⟩
  cases s with
  | base => exact hlearning _ hmove
  | restrained => exact hlearning _ hmove
  | simplified =>
      cases hmove with
      | refill _ _ _ => exact Or.inl ⟨_, _, _, rfl, rfl⟩
      | gift _ _ _ => exact Or.inl ⟨_, _, _, rfl, rfl⟩
      | _ => exact Or.inr ⟨by simp, by simp⟩

section Stamps

variable {s : Strategy} {size : ClientMessage → Nat} {env : ChooseEnv} {st st' : StrategyState}
  {w : WorldView} {action : Option Decision} {d : Decision}

/-- `choose` gives nobody a turn. -/
theorem Strategy.choose_partnerTurn (h : s.choose env st w = .ok (st', action)) :
    st'.partnerTurn = st.partnerTurn := by
  have henter : ∀ st : StrategyState, (st.enterTick w).partnerTurn = st.partnerTurn := by
    intro st
    unfold StrategyState.enterTick
    split <;> rfl
  have hprepare : (BaseStrategy.prepare env st w).partnerTurn = st.partnerTurn := by
    rw [BaseStrategy.prepare, henter]
    exact (BaseStrategy.onlyLearned_learnSuppliers w env st).partnerTurn
  obtain ⟨notes, rfl⟩ := Strategy.choose_state h
  cases s with
  | base => exact hprepare
  | restrained => exact hprepare
  | simplified => exact henter st

theorem partnerTurn_record (st : StrategyState) (d : Decision) :
    (st.record d).partnerTurn = match d.key with
      | .partner station => Function.update st.partnerTurn station (some (st.sentTotal + 1))
      | _ => st.partnerTurn := by
  unfold StrategyState.record
  cases d.key <;> rfl

/-- The strategy's stamps are those of the last turns in the history. -/
structure Stamped (history : List Observation) (st : StrategyState) : Prop where
  stamps : ∀ station, st.partnerTurn station = lastStamp (turns history) station
  increasing : Increasing (turns history)
  bounded : ∀ turn ∈ turns history, turn.2 ≤ st.sentTotal

theorem Stamped.quiet {history : List Observation} {o : Observation} (h : Stamped history st)
    (hquiet : o.turn? = none) (hturns : st'.partnerTurn = st.partnerTurn)
    (htotal : st.sentTotal ≤ st'.sentTotal) : Stamped (history ++ [o]) st' := by
  have hsame : turns (history ++ [o]) = turns history := by
    simp [turns, hquiet]
  refine ⟨?_, ?_, ?_⟩
  · rw [hsame, hturns]
    exact h.stamps
  · rw [hsame]
    exact h.increasing
  · rw [hsame]
    exact fun turn hturn => (h.bounded turn hturn).trans htotal

/-- One use of the strategy keeps the stamps. -/
theorem Stamped.uses {history : List Observation} {o : Observation} (h : Stamped history st)
    (huse : s.Uses size st o st') : Stamped (history ++ [o]) st' := by
  cases huse with
  | answered hmemory => exact h.quiet rfl hmemory.partnerTurn hmemory.sentTotal.ge
  | @chose st₀ st₁ env w action _ hmemory hchoose =>
      have hturns := (Strategy.choose_partnerTurn hchoose).trans hmemory.partnerTurn
      have htotal := (Strategy.choose_sentTotal hchoose).trans hmemory.sentTotal
      rcases action with _ | d
      · exact h.quiet rfl hturns htotal.ge
      rcases (Strategy.choose_decided hchoose).key with ⟨runId, rid, body, hmessage, hkey⟩ |
        ⟨hmessage, hkey⟩
      · have hturn : turns (history ++ [.chose st₁ w (some d)]) =
            turns history ++ [(body.recipientId, st₁.sentTotal + 1)] := by
          simp [turns, Observation.turn?, hmessage]
        have hrecord : (st₁.recorded (some d)).partnerTurn =
            Function.update st₁.partnerTurn body.recipientId (some (st₁.sentTotal + 1)) := by
          rw [StrategyState.recorded, partnerTurn_record, hkey]
        have hbounded : ∀ turn ∈ turns history, turn.2 < st₁.sentTotal + 1 := by
          intro turn hturn
          rw [htotal]
          exact Nat.lt_succ_of_le (h.bounded turn hturn)
        refine ⟨?_, ?_, ?_⟩
        · intro station
          rw [hturn, lastStamp_snoc, hrecord, Function.update_apply, hturns, h.stamps]
        · rw [hturn]
          refine List.pairwise_append.mpr ⟨h.increasing, List.pairwise_singleton _ _, ?_⟩
          intro turn hturn last hlast
          rw [List.mem_singleton.mp hlast]
          exact hbounded turn hturn
        · intro turn hmem
          rw [StrategyState.recorded, StrategyState.record_sentTotal]
          rw [hturn, List.mem_append, List.mem_singleton] at hmem
          rcases hmem with hmem | rfl
          · exact (hbounded turn hmem).le
          · exact le_refl _
      · refine h.quiet ?_ ?_ ?_
        · unfold Observation.turn?
          dsimp only
          split
          · rename_i hoffer
            exact absurd hoffer (hmessage _ _ _)
          · rfl
        · rw [StrategyState.recorded, partnerTurn_record]
          split
          · rename_i hpartner
            exact absurd hpartner (hkey _)
          · exact hturns
        · rw [StrategyState.recorded, StrategyState.record_sentTotal, htotal]
          exact Nat.le_succ _

theorem run_stamped {n : Nat} {history : List Observation}
    (hrun : Run (s.Uses size) { sentTotal := n } history st) : Stamped history st := by
  apply hrun.traceInvariant (P := Stamped)
  · exact ⟨fun _ => rfl, List.Pairwise.nil, by simp [turns]⟩
  · intro history st o st' _ h huse
    exact h.uses huse

end Stamps

/-! ### The rotation -/

/-- Every offer of the segment is a gift, sent while the stations that qualify for one are
those of `partners`. -/
structure Strategy.GiftRound (s : Strategy) (size : ClientMessage → Nat)
    (partners : Finset String) (segment : List Observation) : Prop where
  gift : ∀ o ∈ segment, ∀ st w rid body, SendsOffer o st w rid body → Purpose.gift.Of body
  qualify : ∀ o ∈ segment, ∀ st w rid body, SendsOffer o st w rid body →
    ∀ station, s.Qualifies size st w rid .gift station ↔ station ∈ partners

/-- Between two offers of one purpose to a station, every other station that qualifies at
the second one got an offer. -/
def Strategy.ServesWaiting (s : Strategy) (size : ClientMessage → Nat)
    (history : List Observation) : Prop :=
  ∀ (before between after : List Observation) (first second : Observation)
      (st₁ st₂ : StrategyState) (w₁ w₂ : WorldView) (rid₁ rid₂ : String)
      (body₁ body₂ : OfferBody) (purpose : Purpose) (station : String),
    history = before ++ first :: (between ++ second :: after) →
    SendsOffer first st₁ w₁ rid₁ body₁ → SendsOffer second st₂ w₂ rid₂ body₂ →
    body₁.recipientId = body₂.recipientId → purpose.Of body₁ → purpose.Of body₂ →
    station ≠ body₂.recipientId → s.Qualifies size st₂ w₂ rid₂ purpose station →
    ∃ o ∈ between, ∃ st w rid body, SendsOffer o st w rid body ∧ body.recipientId = station

/-- As long as the same stations qualify, as many consecutive gifts as there are of them
go to different ones. -/
def Strategy.ServesRounds (s : Strategy) (size : ClientMessage → Nat)
    (history : List Observation) : Prop :=
  ∀ (before segment after : List Observation) (partners : Finset String),
    history = before ++ (segment ++ after) → s.GiftRound size partners segment →
    (recipients segment).length ≤ partners.card →
    (recipients segment).Nodup ∧ ∀ station ∈ recipients segment, station ∈ partners

/-- Partner rotation, where a message is encoded to `size` bytes. -/
structure Strategy.Rotates (s : Strategy) (size : ClientMessage → Nat)
    (history : List Observation) : Prop where
  served : s.ServesWaiting size history
  rounds : s.ServesRounds size history

section Run

variable {s : Strategy} {size : ClientMessage → Nat} {n : Nat}
  {history before after : List Observation} {o : Observation} {st st' : StrategyState}
  {w : WorldView} {rid : String} {body : OfferBody} {purpose : Purpose} {station : String}

theorem StrategyState.turnOf_of_partnerTurn_some {stamp : ℕ}
    (h : st.partnerTurn station = some stamp) : st.turnOf station = stamp := by
  unfold turnOf
  rw [h]

theorem StrategyState.turnOf_of_partnerTurn_none (h : st.partnerTurn station = none) :
    st.turnOf station = -1 := by
  unfold turnOf
  rw [h]

/-- The recipient of an offer in a run waited at least as long as any station that
qualified. -/
theorem noLater_of_qualifies
    (hrun : Run (s.Uses size) { sentTotal := n } (before ++ o :: after) st')
    (hsends : SendsOffer o st w rid body) (hpurpose : purpose.Of body)
    (hqualifies : s.Qualifies size st w rid purpose station) :
    NoLater (turns before) body.recipientId station := by
  obtain ⟨r, t, hbefore, huse⟩ := hrun.exists_before
  have hstamped := run_stamped hbefore
  obtain ⟨d, runId, rfl, hmessage⟩ := hsends.sent
  cases huse with
  | chose hencoded hmemory hchoose =>
      subst hencoded
      have hleast := Strategy.offer_least hchoose hmessage hpurpose hqualifies
      have hturns := (Strategy.choose_partnerTurn hchoose).trans hmemory.partnerTurn
      intro stamp hstamp
      rw [← hstamped.stamps, ← hturns] at hstamp
      rw [StrategyState.turnOf_of_partnerTurn_some hstamp] at hleast
      rcases hother : st.partnerTurn station with _ | turn
      · rw [StrategyState.turnOf_of_partnerTurn_none hother] at hleast
        omega
      · rw [StrategyState.turnOf_of_partnerTurn_some hother] at hleast
        refine ⟨turn, ?_, by omega⟩
        rw [← hstamped.stamps, ← hturns, hother]

theorem mem_recipients (h : station ∈ recipients history) :
    ∃ o ∈ history, ∃ st w rid body, SendsOffer o st w rid body ∧ body.recipientId = station := by
  obtain ⟨turn, hturn, rfl⟩ := List.mem_map.mp h
  obtain ⟨o, ho, hgives⟩ := List.mem_filterMap.mp hturn
  obtain ⟨st, w, rid, body, hsends, rfl⟩ := exists_sendsOffer hgives
  exact ⟨o, ho, st, w, rid, body, hsends, rfl⟩

theorem turns_append (before after : List Observation) :
    turns (before ++ after) = turns before ++ turns after :=
  List.filterMap_append

theorem SendsOffer.turns_cons (h : SendsOffer o st w rid body) (rest : List Observation) :
    turns (o :: rest) = (body.recipientId, st.sentTotal + 1) :: turns rest :=
  List.filterMap_cons_some h.turn

/-- A turn in the middle is that of an offer. -/
theorem exists_sendsOffer_of_turns {done rest : List (String × ℕ)} {turn : String × ℕ}
    (h : turns history = done ++ turn :: rest) : ∃ before o after st w rid body,
      history = before ++ o :: after ∧ turns before = done ∧ SendsOffer o st w rid body ∧
        turn = (body.recipientId, st.sentTotal + 1) := by
  obtain ⟨front, back, rfl, hfront, hback⟩ := List.filterMap_eq_append_iff.mp h
  obtain ⟨quiet, o, after, rfl, hquiet, hgives, -⟩ := List.filterMap_eq_cons_iff.mp hback
  obtain ⟨st, w, rid, body, hsends, hturn⟩ := exists_sendsOffer hgives
  refine ⟨front ++ quiet, o, after, st, w, rid, body, by simp, ?_, hsends, hturn⟩
  have hnone : turns quiet = [] := List.filterMap_eq_nil_iff.mpr hquiet
  rw [turns_append, hnone, List.append_nil]
  exact hfront

/-- A decision of a run has passed the checks of its strategy. -/
theorem decided_of_mem {d : Decision} (hrun : Run (s.Uses size) { sentTotal := n } history st')
    (h : .chose st w (some d) ∈ history) :
    s.Decided st w d ∧ size d.message ≤ w.rules.maxCommandBytes := by
  obtain ⟨before, after, rfl⟩ := List.append_of_mem h
  obtain ⟨r, t, -, huse⟩ := hrun.exists_before
  cases huse with
  | chose hencoded _ hchoose =>
      subst hencoded
      exact ⟨Strategy.choose_decided hchoose, Strategy.choose_fits hchoose⟩

/-- The recipients of a round of gifts are partners that qualified. -/
theorem Strategy.GiftRound.recipients_subset {partners : Finset String}
    (hgifts : s.GiftRound size partners history)
    (hdecided : ∀ o ∈ history, ∀ st w d, o = .chose st w (some d) →
      s.Decided st w d ∧ size d.message ≤ w.rules.maxCommandBytes) :
    ∀ station ∈ recipients history, station ∈ partners := by
  intro station hstation
  obtain ⟨o, ho, st, w, rid, body, hsends, rfl⟩ := mem_recipients hstation
  rw [← hgifts.qualify o ho st w rid body hsends]
  obtain ⟨d, runId, rfl, hmessage⟩ := hsends.sent
  obtain ⟨hpassed, hfits⟩ := hdecided _ ho st w d rfl
  exact hpassed.qualifies hfits hmessage (hgifts.gift _ ho st w rid body ⟨d, runId, rfl, hmessage⟩)

theorem servesWaiting_of_run (hrun : Run (s.Uses size) { sentTotal := n } history st) :
    s.ServesWaiting size history := by
  intro before between after first second st₁ st₂ w₁ w₂ rid₁ rid₂ body₁ body₂ purpose station
    hhistory hfirst hsecond hrecipient _ hpurpose hne hqualifies
  have hincreasing := (run_stamped hrun).increasing
  subst hhistory
  rw [← List.cons_append, ← List.append_assoc] at hrun hincreasing
  have hlater := noLater_of_qualifies hrun hsecond hpurpose hqualifies
  rw [turns_append, turns_append, hfirst.turns_cons, hrecipient] at hincreasing
  rw [turns_append, hfirst.turns_cons, hrecipient] at hlater
  exact mem_recipients (served_since (List.pairwise_append.mp hincreasing).1 hne hlater)

theorem servesRounds_of_run (hrun : Run (s.Uses size) { sentTotal := n } history st) :
    s.ServesRounds size history := by
  intro before segment after partners hhistory hgifts hcard
  have hincreasing := (run_stamped hrun).increasing
  subst hhistory
  rw [turns_append, turns_append, ← List.append_assoc] at hincreasing
  rw [recipients, List.length_map] at hcard
  constructor
  · refine nodup_of_fair (List.pairwise_append.mp hincreasing).1 hcard ?_
    intro done a t rest hsplit b hb
    obtain ⟨front, o, back, st, w, rid, body, rfl, rfl, hsends, hturn⟩ :=
      exists_sendsOffer_of_turns hsplit
    have ho : o ∈ front ++ o :: back := by simp
    have hqualifies := (hgifts.qualify o ho st w rid body hsends b).mpr hb
    cases hturn
    rw [← turns_append]
    rw [List.append_assoc, List.cons_append, ← List.append_assoc] at hrun
    exact noLater_of_qualifies hrun hsends (hgifts.gift o ho st w rid body hsends) hqualifies
  · apply hgifts.recipients_subset
    rintro _ ho st w d rfl
    exact decided_of_mem hrun (by simp [ho])

/-- **Partner rotation starves nobody**, whatever the worlds the strategy is called on. -/
theorem partner_rotation (hrun : Run (s.Uses size) { sentTotal := n } history st) :
    s.Rotates size history :=
  ⟨servesWaiting_of_run hrun, servesRounds_of_run hrun⟩

/-- A call on `w`, after these. -/
def useAt (s : Strategy) (used : List Observation × StrategyState) (w : WorldView) :
    Option (List Observation × StrategyState) :=
  match s.choose .sample used.2 w with
  | .ok (st, action) => some (used.1 ++ [.chose st w action], st.recorded action)
  | .error _ => none

theorem run_of_useAt {worlds : List WorldView} {used : List Observation × StrategyState}
    (h : worlds.foldlM (useAt s) ([], { sentTotal := n }) = some used) :
    Run (s.Uses ChooseEnv.sample.encodedLength) { sentTotal := n } used.1 used.2 := by
  induction worlds using List.reverseRecOn generalizing used with
  | nil =>
      cases h
      exact .start
  | append_singleton worlds w ih =>
      rw [List.foldlM_append, Option.bind_eq_bind, Option.bind_eq_some_iff] at h
      obtain ⟨before, hbefore, hlast⟩ := h
      simp only [List.foldlM_cons, List.foldlM_nil, Option.bind_eq_bind, Option.pure_def,
        useAt] at hlast
      split at hlast
      · rename_i hchoose
        cases hlast
        exact .next (ih hbefore) (.chose rfl (.refl _) hchoose)
      · cases hlast

/-- Two stations sell food for water, and no offer is answered. -/
def twoSellers (tick : Nat) : WorldView :=
  { WorldView.sample with
    tick
    advertisements :=
      WorldView.sample.advertisements ++
        WorldView.sample.advertisements.map fun a =>
          { a with advertisementId := "ad-2", stationId := "P03" } }

/-- In four ticks both are asked for food, and asked again in the same order. -/
theorem partner_rotation_sample : ∃ history st,
    Run (Strategy.simplified.Uses ChooseEnv.sample.encodedLength) { sentTotal := 0 } history st ∧
      (commandsOf history).map (fun c => c.2.key) =
        [.partner "P02", .partner "P03", .partner "P02", .partner "P03"] ∧
      Strategy.simplified.Rotates ChooseEnv.sample.encodedLength history := by
  have huses : ((([0, 1, 2, 3].map twoSellers).foldlM (useAt .simplified) ([], {})).map
      fun used => (commandsOf used.1).map fun c => c.2.key) =
        some [.partner "P02", .partner "P03", .partner "P02", .partner "P03"] := by
    decide +kernel
  obtain ⟨used, hused, hkeys⟩ := Option.map_eq_some_iff.mp huses
  have hrun := run_of_useAt hused
  exact ⟨used.1, used.2, hrun, hkeys, partner_rotation hrun⟩

/-- The trading loop starves nobody either. -/
theorem Runner.history_rotates {w₀ : WorldView} {trace : List RunnerEvent} {r : Runner}
    (hrun : Run (Runner.Step s) (Runner.start w₀) trace r)
    (hencoded : ∀ reads, .runs reads ∈ trace → reads.env.encodedLength = size) :
    s.Rotates size r.history := by
  obtain ⟨st, huses, -⟩ := Runner.run_uses hrun hencoded
  exact ⟨servesWaiting_of_run huses, servesRounds_of_run huses⟩

end Run

end PlanetCharlu
