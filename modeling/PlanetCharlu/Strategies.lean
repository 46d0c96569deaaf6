import PlanetCharlu.SimplifiedMoves
import PlanetCharlu.LearningMoves

/-!
# The three strategies behind one interface

The runner holds one strategy object and calls `choose`, `record` and the
threshold methods on it. `Strategy` names the three classes. What the runner
relies on is the same for all of them and is proved here once: a call never
raises, a returned decision passed the gate and the filter of the very state the
call leaves, and the attempt accounting changes only by entering the tick.
-/

namespace PlanetCharlu

inductive Strategy where
  | base
  | restrained
  | simplified
deriving DecidableEq, Repr

namespace Strategy

def choose : Strategy → ChooseEnv → StrategyState → WorldView →
    Except PyError (StrategyState × Option Decision)
  | .base => BaseStrategy.choose BaseStrategy.policy
  | .restrained => BaseStrategy.choose RestrainedTradingStrategy.policy
  | .simplified => SimplifiedTradingStrategy.choose

def reserveTicks : Strategy → StrategyState → WorldView → Nat
  | .base => BaseStrategy.reserveTicks BaseStrategy.policy
  | .restrained => BaseStrategy.reserveTicks RestrainedTradingStrategy.policy
  | .simplified => fun _ _ => SimplifiedTradingStrategy.RESERVE_TICKS

def targetTicks : Strategy → StrategyState → WorldView → Nat
  | .base => BaseStrategy.targetTicks BaseStrategy.policy
  | .restrained => BaseStrategy.targetTicks RestrainedTradingStrategy.policy
  | .simplified => fun _ _ => SimplifiedTradingStrategy.TARGET_TICKS

/-- The state in which a call decides: what the call learned, and the tick entered. -/
def prepare : Strategy → ChooseEnv → StrategyState → WorldView → StrategyState
  | .base => BaseStrategy.prepare
  | .restrained => BaseStrategy.prepare
  | .simplified => fun _ st w => st.enterTick w

/-- The moves of each strategy. -/
def Move (s : Strategy) (st : StrategyState) (w : WorldView) : Key → ClientMessage → Prop :=
  match s with
  | .base => BaseStrategy.Move BaseStrategy.policy st w
  | .restrained => BaseStrategy.Move RestrainedTradingStrategy.policy st w
  | .simplified => SimplifiedTradingStrategy.Move w

theorem choose_isOk (s : Strategy) (env : ChooseEnv) (st : StrategyState) (w : WorldView) :
    ∃ out, s.choose env st w = .ok out := by
  cases s with
  | base => exact BaseStrategy.choose_isOk _ env st w
  | restrained => exact BaseStrategy.choose_isOk _ env st w
  | simplified => exact SimplifiedTradingStrategy.choose_isOk env st w

/-- What a call that returns a decision has checked, in the state it leaves. -/
structure Decided (s : Strategy) (st : StrategyState) (w : WorldView) (d : Decision) : Prop where
  gate : st.GateOpen w
  ticksLeft : 0 < w.remaining
  move : s.Move st w d.key d.message
  fresh : d.key ∉ st.attempted

/-- The offer review is not read by any check of the learning policies. -/
theorem learning_move_review {p : BaseStrategy.Policy} {st : StrategyState} {w : WorldView}
    {notes : List (Offer × String)} {key : Key} {message : ClientMessage}
    (h : BaseStrategy.Move p st w key message) :
    BaseStrategy.Move p { st with lastOfferReview := notes } w key message := by
  cases h with
  | withdraw hrisky ho => exact .withdraw hrisky ho
  | accept hsafe ho =>
      exact .accept hsafe ⟨ho.incoming, ho.live, ho.affordable, ho.kept, ho.reasoned⟩
  | advertise hsafe hroutine => exact .advertise hsafe hroutine
  | purchase hsafe hcan hpurchase =>
      have hpurchase' : BaseStrategy.Purchasable p { st with lastOfferReview := notes } w _ _ _ :=
        ⟨hpurchase.sought, hpurchase.rationed, hpurchase.eligible, hpurchase.sells,
          hpurchase.trusted, hpurchase.payable, hpurchase.wants, hpurchase.positive⟩
      exact BaseStrategy.Move.purchase hsafe ⟨hcan.lasting, hcan.room⟩ hpurchase'
  | gift hsafe hcan hgift =>
      have hgift' : BaseStrategy.Giftable p { st with lastOfferReview := notes } w _ :=
        ⟨hgift.rationed, hgift.allowed, hgift.eligible, hgift.wants, hgift.positive⟩
      exact BaseStrategy.Move.gift hsafe ⟨hcan.lasting, hcan.room⟩ hgift'

theorem learning_decided {p : BaseStrategy.Policy} {env : ChooseEnv} {st st' : StrategyState}
    {w : WorldView} {d : Decision} (h : BaseStrategy.choose p env st w = .ok (st', some d)) :
    BaseStrategy.Decided p env.encodedLength st' w d := by
  obtain ⟨hgate, hticks, hmove, hadmitted⟩ := BaseStrategy.choose_decided h
  obtain ⟨notes, rfl⟩ := BaseStrategy.choose_state h
  exact ⟨⟨hgate.running, hgate.healthy, hgate.neverFailed, hgate.backoff, hgate.perTick,
    hgate.lifetime⟩, hticks, learning_move_review hmove, ⟨hadmitted.fresh, hadmitted.fits⟩⟩

/-- **A returned decision is a move of the strategy**, let through by the gate
and the filter of the state `choose` leaves. -/
theorem choose_decided {s : Strategy} {env : ChooseEnv} {st st' : StrategyState} {w : WorldView}
    {d : Decision} (h : s.choose env st w = .ok (st', some d)) : s.Decided st' w d := by
  cases s with
  | base =>
      obtain ⟨hgate, hticks, hmove, hadmitted⟩ := learning_decided h
      exact ⟨hgate, hticks, hmove, hadmitted.fresh⟩
  | restrained =>
      obtain ⟨hgate, hticks, hmove, hadmitted⟩ := learning_decided h
      exact ⟨hgate, hticks, hmove, hadmitted.fresh⟩
  | simplified =>
      obtain ⟨hgate, hticks, hmove, hadmitted⟩ := SimplifiedTradingStrategy.choose_decided h
      obtain ⟨notes, rfl⟩ := SimplifiedTradingStrategy.choose_state h
      exact ⟨⟨hgate.running, hgate.healthy, hgate.neverFailed, hgate.backoff, hgate.perTick,
        hgate.lifetime⟩, hticks, hmove, hadmitted.fresh⟩

/-- The message of a returned decision is small enough. -/
theorem choose_fits {s : Strategy} {env : ChooseEnv} {st st' : StrategyState} {w : WorldView}
    {d : Decision} (h : s.choose env st w = .ok (st', some d)) :
    env.encodedLength d.message ≤ w.rules.maxCommandBytes := by
  cases s with
  | base => exact (BaseStrategy.choose_decided h).admitted.fits
  | restrained => exact (BaseStrategy.choose_decided h).admitted.fits
  | simplified => exact (SimplifiedTradingStrategy.choose_decided h).admitted.fits

/-- A call changes the strategy only by preparing it, and in the offer review. -/
theorem choose_state {s : Strategy} {env : ChooseEnv} {st st' : StrategyState} {w : WorldView}
    {action : Option Decision} (h : s.choose env st w = .ok (st', action)) :
    ∃ notes, st' = { s.prepare env st w with lastOfferReview := notes } := by
  cases s with
  | base => exact BaseStrategy.choose_state h
  | restrained => exact BaseStrategy.choose_state h
  | simplified => exact SimplifiedTradingStrategy.choose_state h

/-- Entering the tick is all `choose` does to the attempt accounting. -/
theorem choose_attempts {s : Strategy} {env : ChooseEnv} {st st' : StrategyState} {w : WorldView}
    {action : Option Decision} (h : s.choose env st w = .ok (st', action)) :
    BaseStrategy.SameAttempts st' (st.enterTick w) := by
  have hlearning : ∀ p, BaseStrategy.choose p env st w = .ok (st', action) →
      BaseStrategy.SameAttempts st' (st.enterTick w) := by
    intro p hp
    obtain ⟨notes, rfl⟩ := BaseStrategy.choose_state hp
    have hlearn := BaseStrategy.sameAttempts_learnSuppliers w env st
    have htick := hlearn.tick
    have henter : BaseStrategy.SameAttempts (BaseStrategy.prepare env st w) (st.enterTick w) := by
      unfold BaseStrategy.prepare StrategyState.enterTick
      rw [htick]
      split
      · exact ⟨rfl, rfl, rfl, hlearn.sentTotal, hlearn.retryTick⟩
      · exact hlearn
    exact ⟨henter.tick, henter.attempted, henter.sentThisTick, henter.sentTotal,
      henter.retryTick⟩
  cases s with
  | base => exact hlearning _ h
  | restrained => exact hlearning _ h
  | simplified =>
      obtain ⟨notes, rfl⟩ := SimplifiedTradingStrategy.choose_state h
      exact ⟨rfl, rfl, rfl, rfl, rfl⟩

/-- The decision of a call, without the state it leaves. -/
def decisionOf (s : Strategy) (env : ChooseEnv) (st : StrategyState) (w : WorldView) :
    Option Decision :=
  match s.choose env st w with
  | .ok (_, action) => action
  | .error _ => none

theorem exists_state_of_decisionOf {s : Strategy} {env : ChooseEnv} {st : StrategyState}
    {w : WorldView} {d : Decision} (h : s.decisionOf env st w = some d) :
    ∃ st', s.choose env st w = .ok (st', some d) := by
  unfold decisionOf at h
  split at h
  · rename_i st' action hchoose
    subst h
    exact ⟨st', hchoose⟩
  · cases h

end Strategy

def ChooseEnv.sample : ChooseEnv where
  requestId := "request-1"
  order := ⟨RESOURCES, List.Perm.refl RESOURCES⟩
  clock := fun _ => 0
  encodedLength := fun message => (Codec.encodeClientMessage message).length

/-- The purchase the default policy proposes on the sample snapshot. -/
def Decision.sample : Decision where
  key := .partner "P02"
  reason := "trade water for needed food with P02"
  message := .offer "run" "request-1"
    { recipientId := "P02", give := { water := 4 }, receive := { food := 4 }, expiresTick := 3 }

theorem Strategy.decisionOf_sample :
    Strategy.base.decisionOf .sample {} .sample = some Decision.sample := by
  decide +kernel

/-- The refill the simplified policy proposes there, and the offer it becomes. -/
def OfferBody.sample : OfferBody where
  recipientId := "P02"
  give := { water := 23 }
  receive := { food := 23 }
  expiresTick := 3

def Decision.refillSample : Decision where
  key := .partner "P02"
  reason := "refill food toward 25 ticks with P02"
  message := .offer "run" "request-1" OfferBody.sample

def Offer.sample : Offer where
  offerId := "offer-1"
  proposerId := "P01"
  recipientId := "P02"
  give := { water := 23 }
  receive := { food := 23 }
  createdTick := 0
  expiresTick := 3
  status := .OPEN
  transactionId := none

theorem Strategy.decisionOf_refillSample :
    Strategy.simplified.decisionOf .sample {} .sample = some Decision.refillSample := by
  decide +kernel

/-- An older offer of ours is open as well; both policies still propose the same. -/
def Offer.older : Offer :=
  { Offer.sample with
    offerId := "offer-0", recipientId := "P03", give := { water := 5 }, receive := { components := 5 } }

def WorldView.promised : WorldView := { WorldView.sample with offers := [.older] }

theorem Strategy.decisionOf_promised :
    Strategy.base.decisionOf .sample {} .promised = some Decision.sample ∧
      Strategy.simplified.decisionOf .sample {} .promised = some Decision.refillSample := by
  decide +kernel

end PlanetCharlu
