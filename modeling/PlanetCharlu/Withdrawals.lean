import PlanetCharlu.Strategies

/-!
# Which open offer is withdrawn

The safety test adds up all commitments, one resource at a time. The offer that is
withdrawn when it fails is the first one the command limits allow, in the order of the
board or, under the simplified policy, with the largest payment first. Neither order
looks at the resources whose commitments failed, so the offer that goes may have
nothing to do with them. This module says exactly on which boards the order of the walk
makes no difference.
-/

namespace PlanetCharlu

open StableSort FirstHit

namespace Strategy

def commitmentsUnsafe : Strategy → StrategyState → WorldView → Bool
  | .base => BaseStrategy.commitmentsUnsafe BaseStrategy.policy
  | .restrained => BaseStrategy.commitmentsUnsafe RestrainedTradingStrategy.policy
  | .simplified => fun _ => SimplifiedTradingStrategy.commitmentsUnsafe

def withdrawUnsafe : Strategy → ChooseEnv → StrategyState → WorldView → Option Decision
  | .base => BaseStrategy.withdrawUnsafe
  | .restrained => BaseStrategy.withdrawUnsafe
  | .simplified => SimplifiedTradingStrategy.withdrawUnsafe

/-- The order in which the open offers are tried: as listed, or the largest payment
first. -/
def releaseOrder (s : Strategy) (w : WorldView) : List Offer :=
  match s with
  | .simplified => sortedBy (fun o => -(units o.give : Int)) w.outgoing
  | _ => w.outgoing

/-- The commitments of a resource fail the strategy's own test. -/
def FailsTest (s : Strategy) (st : StrategyState) (w : WorldView) (r : Resource) : Prop :=
  match s with
  | .base => quantity w.self.inventory r -
      quantity (BaseStrategy.commitmentReserve BaseStrategy.policy st w) r < quantity w.committed r
  | .restrained => quantity w.self.inventory r -
      quantity (BaseStrategy.commitmentReserve RestrainedTradingStrategy.policy st w) r <
        quantity w.committed r
  | .simplified => quantity w.self.inventory r < quantity w.committed r ∨
      (0 < quantity w.committed r ∧
        quantity w.available r < quantity (SimplifiedTradingStrategy.guard w) r)

instance (s : Strategy) (st : StrategyState) (w : WorldView) (r : Resource) :
    Decidable (s.FailsTest st w r) :=
  match s with
  | .base => inferInstanceAs (Decidable (_ < _))
  | .restrained => inferInstanceAs (Decidable (_ < _))
  | .simplified => inferInstanceAs (Decidable (_ ∨ _))

/-- The offer pays in a resource whose commitments fail the test. -/
def AtRisk (s : Strategy) (st : StrategyState) (w : WorldView) (o : Offer) : Prop :=
  ∃ r, 0 < quantity o.give r ∧ s.FailsTest st w r

instance (s : Strategy) (st : StrategyState) (w : WorldView) (o : Offer) :
    Decidable (s.AtRisk st w o) :=
  inferInstanceAs (Decidable (∃ _, _))

end Strategy

/-- The command limits allow withdrawing the offer: it was not tried this tick, and the
message fits. -/
abbrev Withdrawable (env : ChooseEnv) (st : StrategyState) (w : WorldView) (o : Offer) : Prop :=
  st.Admits env.encodedLength w (.withdraw o.offerId) (.withdraw w.runId env.requestId o.offerId)

namespace Strategy

variable {s : Strategy} {env : ChooseEnv} {st st' : StrategyState} {w : WorldView} {d : Decision}

/-! ### When and what the strategies withdraw -/

/-- The withdrawing walk of all strategies. -/
theorem withdrawUnsafe_eq (s : Strategy) (env : ChooseEnv) (st : StrategyState) (w : WorldView) :
    ∃ reason, s.withdrawUnsafe env st w = (s.releaseOrder w).findSome? fun o =>
      st.decision env w (.withdraw o.offerId) reason
        (Codec.buildWithdraw w.runId env.requestId o.offerId) := by
  cases s with
  | base => exact ⟨_, rfl⟩
  | restrained => exact ⟨_, rfl⟩
  | simplified => exact ⟨_, rfl⟩

/-- The walk stops at the first offer that the limits allow. -/
theorem withdrawUnsafe_eq_some (h : s.withdrawUnsafe env st w = some d) :
    ∃ before o after, s.releaseOrder w = before ++ o :: after ∧ Withdrawable env st w o ∧
      (∀ o' ∈ before, ¬ Withdrawable env st w o') ∧
      d.message = .withdraw w.runId env.requestId o.offerId := by
  obtain ⟨reason, heq⟩ := withdrawUnsafe_eq s env st w
  rw [heq] at h
  obtain ⟨before, o, after, hsplit, ho, hbefore⟩ := List.findSome?_eq_some_iff.mp h
  have hallowed := StrategyState.admits_of_decision ho
  obtain ⟨rfl, -, -⟩ := StrategyState.decision_eq_some ho
  refine ⟨before, o, after, hsplit, hallowed, ?_, rfl⟩
  intro o' ho' hallowed'
  have hnone := hbefore o' ho'
  rw [Codec.buildWithdraw, StrategyState.decision_of_admits hallowed'] at hnone
  cases hnone

theorem exists_withdrawUnsafe {o : Offer} (ho : o ∈ s.releaseOrder w)
    (hallowed : Withdrawable env st w o) : ∃ d, s.withdrawUnsafe env st w = some d := by
  obtain ⟨reason, heq⟩ := withdrawUnsafe_eq s env st w
  rw [heq, ← Option.isSome_iff_exists, List.findSome?_isSome_iff]
  refine ⟨o, ho, ?_⟩
  rw [Codec.buildWithdraw, StrategyState.decision_of_admits hallowed]
  rfl

/-- A call that withdraws found its commitments unsafe, and returns what the walk
returns. -/
theorem choose_withdraw {runId rid offerId : String} (h : s.choose env st w = .ok (st', some d))
    (hmessage : d.message = .withdraw runId rid offerId) :
    (s.prepare env st w).GateOpen w ∧ 0 < w.remaining ∧
      s.commitmentsUnsafe (s.prepare env st w) w = true ∧
      s.withdrawUnsafe env (s.prepare env st w) w = some d := by
  cases s with
  | base => exact BaseStrategy.choose_withdraw h hmessage
  | restrained => exact BaseStrategy.choose_withdraw h hmessage
  | simplified => exact SimplifiedTradingStrategy.choose_withdraw h hmessage

/-- With an open gate and unsafe commitments, a call returns what the walk returns. -/
theorem choose_of_unsafe (hgate : (s.prepare env st w).GateOpen w) (hticks : 0 < w.remaining)
    (hrisky : s.commitmentsUnsafe (s.prepare env st w) w = true) :
    ∃ st', s.choose env st w = .ok (st', s.withdrawUnsafe env (s.prepare env st w) w) := by
  obtain ⟨⟨st', action⟩, h⟩ := s.choose_isOk env st w
  have hwithdraw : action = s.withdrawUnsafe env (s.prepare env st w) w := by
    cases s with
    | base => exact (BaseStrategy.choose_cases h).of_risky hgate hticks hrisky
    | restrained => exact (BaseStrategy.choose_cases h).of_risky hgate hticks hrisky
    | simplified => exact (SimplifiedTradingStrategy.choose_cases h).of_risky hgate hticks hrisky
  rw [← hwithdraw]
  exact ⟨st', h⟩

/-! ### The law and where it holds -/

/-- A withdrawn offer pays in a resource whose commitments fail the test, and in no case
is an offer cancelled that does not, while another one does. The offer meant by an id is
the first one of that id in the order of the walk. -/
structure ReleasesRisk (s : Strategy) (env : ChooseEnv) (st : StrategyState) (w : WorldView) :
    Prop where
  atRisk : ∀ st' d runId rid offerId o, s.choose env st w = .ok (st', some d) →
    d.message = .withdraw runId rid offerId →
    (s.releaseOrder w).find? (fun o => o.offerId == offerId) = some o →
    s.AtRisk (s.prepare env st w) w o
  spared : ∀ st' d runId rid offerId o, s.choose env st w = .ok (st', some d) →
    d.message = .withdraw runId rid offerId →
    (s.releaseOrder w).find? (fun o => o.offerId == offerId) = some o →
    ¬ s.AtRisk (s.prepare env st w) w o →
    ∀ o' ∈ w.outgoing, Key.withdraw o'.offerId ∉ (s.prepare env st w).attempted →
      ¬ s.AtRisk (s.prepare env st w) w o'

/-- Every open offer that may be withdrawn pays in a resource whose commitments fail the
test, or comes after one that may be withdrawn and does. -/
def RiskComesFirst (s : Strategy) (env : ChooseEnv) (st : StrategyState) (w : WorldView) : Prop :=
  ∀ before o after, s.releaseOrder w = before ++ o :: after → Withdrawable env st w o →
    s.AtRisk st w o ∨ ∃ o' ∈ before, Withdrawable env st w o' ∧ s.AtRisk st w o'

/-- The id of the offer the walk stopped at names that offer. -/
theorem named_of_split {before after : List Offer} {o : Offer}
    (hsplit : s.releaseOrder w = before ++ o :: after) (hallowed : Withdrawable env st w o)
    (hbefore : ∀ o' ∈ before, ¬ Withdrawable env st w o') :
    (s.releaseOrder w).find? (fun x => x.offerId == o.offerId) = some o := by
  rw [List.find?_eq_some_iff_append]
  refine ⟨by simp, before, after, hsplit, ?_⟩
  intro z hz
  rw [Bool.not_eq_true', beq_eq_false_iff_ne]
  intro hsame
  -- An earlier offer of this id would have been withdrawn under the same limits.
  exact hbefore z hz ⟨hsame ▸ hallowed.fresh, hsame ▸ hallowed.fits⟩

/-- **A withdrawal releases what is at risk exactly on the boards where an offer at risk
comes first.** -/
theorem releases_risk_iff (s : Strategy) (env : ChooseEnv) (st : StrategyState) (w : WorldView) :
    s.ReleasesRisk env st w ↔
      ((s.prepare env st w).GateOpen w → 0 < w.remaining →
        s.commitmentsUnsafe (s.prepare env st w) w = true →
        s.RiskComesFirst env (s.prepare env st w) w) := by
  constructor
  · intro hlaw hgate hticks hrisky
    unfold RiskComesFirst
    rw [← first_marked_iff]
    intro before o after hsplit hbefore hallowed
    obtain ⟨st', hchoose⟩ := choose_of_unsafe hgate hticks hrisky
    have ho : o ∈ s.releaseOrder w := by simp [hsplit]
    obtain ⟨d, hd⟩ := exists_withdrawUnsafe ho hallowed
    rw [hd] at hchoose
    obtain ⟨before', o', after', hsplit', hallowed', hbefore', hmessage⟩ :=
      withdrawUnsafe_eq_some hd
    have hsame : o = o' :=
      first_eligible_unique hsplit hallowed hbefore hsplit' hallowed' hbefore'
    subst hsame
    exact hlaw.atRisk st' d _ _ _ o hchoose hmessage (named_of_split hsplit hallowed hbefore)
  · intro horder
    have hatRisk : ∀ st' d runId rid offerId o, s.choose env st w = .ok (st', some d) →
        d.message = .withdraw runId rid offerId →
        (s.releaseOrder w).find? (fun o => o.offerId == offerId) = some o →
        s.AtRisk (s.prepare env st w) w o := by
      intro st' d runId rid offerId o hchoose hmessage hnamed
      obtain ⟨hgate, hticks, hrisky, hd⟩ := choose_withdraw hchoose hmessage
      obtain ⟨before, o', after, hsplit, hallowed, hbefore, hmessage'⟩ := withdrawUnsafe_eq_some hd
      rw [hmessage] at hmessage'
      cases hmessage'
      rw [named_of_split hsplit hallowed hbefore, Option.some.injEq] at hnamed
      subst hnamed
      have hfirst := first_marked_iff.mpr (horder hgate hticks hrisky)
      exact hfirst before o' after hsplit hbefore hallowed
    refine ⟨hatRisk, ?_⟩
    intro st' d runId rid offerId o hchoose hmessage hnamed hsafe
    exact absurd (hatRisk st' d runId rid offerId o hchoose hmessage hnamed) hsafe

/-! ### A board on which the wrong offer goes -/

/-- Station `P01` has promised twenty of its fifty units of water, which is safe, and all
of its ten units of food, which is not. -/
def overcommitted : WorldView :=
  { WorldView.sample with
    self := { WorldView.sample.self with inventory := { water := 50, food := 10, components := 30 } }
    offers :=
      [{ offerId := "offer-1", proposerId := "P01", recipientId := "P02", give := { water := 20 }
         receive := { components := 20 }, createdTick := 0, expiresTick := 3, status := .OPEN
         transactionId := none },
       { offerId := "offer-2", proposerId := "P01", recipientId := "P03", give := { food := 10 }
         receive := { water := 10 }, createdTick := 0, expiresTick := 3, status := .OPEN
         transactionId := none }] }

/-- The withdraw of the first offer, under either reason text. -/
def spareWithdraw (reason : String) : Decision where
  key := .withdraw "offer-1"
  reason := reason
  message := .withdraw "run" "request-1" "offer-1"

theorem not_releasesRisk {runId rid offerId : String} {o : Offer}
    (hdecision : s.decisionOf env st w = some d) (hmessage : d.message = .withdraw runId rid offerId)
    (hnamed : (s.releaseOrder w).find? (fun o => o.offerId == offerId) = some o)
    (hsafe : ¬ s.AtRisk (s.prepare env st w) w o) : ¬ s.ReleasesRisk env st w := by
  intro hlaw
  obtain ⟨st', hchoose⟩ := exists_state_of_decisionOf hdecision
  exact hsafe (hlaw.atRisk st' d runId rid offerId o hchoose hmessage hnamed)

theorem withdrawal_misses_the_risk :
    ¬ Strategy.base.ReleasesRisk .sample {} overcommitted ∧
      ¬ Strategy.restrained.ReleasesRisk .sample {} overcommitted ∧
      ¬ Strategy.simplified.ReleasesRisk .sample {} overcommitted := by
  have hbase : Strategy.base.decisionOf .sample {} overcommitted =
      some (spareWithdraw "release stock needed for upkeep") := by decide +kernel
  have hrestrained : Strategy.restrained.decisionOf .sample {} overcommitted =
      some (spareWithdraw "release stock needed for upkeep") := by decide +kernel
  have hsimplified : Strategy.simplified.decisionOf .sample {} overcommitted =
      some (spareWithdraw "release unsafe payment commitment") := by decide +kernel
  refine ⟨?_, ?_, ?_⟩
  · apply not_releasesRisk (o := overcommitted.offers.head (by decide)) hbase rfl
    · decide +kernel
    · decide +kernel
  · apply not_releasesRisk (o := overcommitted.offers.head (by decide)) hrestrained rfl
    · decide +kernel
    · decide +kernel
  · apply not_releasesRisk (o := overcommitted.offers.head (by decide)) hsimplified rfl
    · decide +kernel
    · decide +kernel

end Strategy

end PlanetCharlu
