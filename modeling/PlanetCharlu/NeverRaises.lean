import PlanetCharlu.Strategies
import PlanetCharlu.SimplifiedExceptions

/-!
# Deciding never fails

On a snapshot whose inventory and duration are wire integers no call of `choose` raises,
whatever else the snapshot and the strategy hold, and what it returns can be encoded: a
payment comes out of stock, what is asked for is as much, and a deadline lies within the run.
-/

namespace PlanetCharlu

open FirstHit

/-- Every integer that `choose` puts into the message fits into its field. -/
def ClientMessage.Encodable : ClientMessage → Prop
  | .advertise _ _ body => body.expiresTick < 2 ^ 64
  | .offer _ _ body => Raising.Fits body.give ∧ Raising.Fits body.receive ∧
      body.expiresTick < 2 ^ 64
  | _ => True

namespace BaseStrategy

open BaseStrategy.Raising (deadline_lt purchaseAmount_lt giftAmount_lt)

variable {p : Policy} {env : ChooseEnv} {st st' : StrategyState} {w : WorldView} {d : Decision}

theorem advertisement_encodable (hduration : w.rules.durationTicks < 2 ^ 64)
    (hticks : 0 < w.remaining) (h : advertisement p env st w = some d) :
    d.message.Encodable := by
  unfold advertisement at h
  dsimp only at h
  split_ifs at h
  obtain ⟨rfl, -, -⟩ := StrategyState.decision_eq_some h
  exact deadline_lt hduration hticks (min_le_right _ _)

theorem initiate_encodable (hinventory : PlanetCharlu.Raising.Fits w.self.inventory)
    (hduration : w.rules.durationTicks < 2 ^ 64) (hticks : 0 < w.remaining)
    (h : initiate p env st w = some d) : d.message.Encodable := by
  have hdeadline : w.tick + ttl st w < 2 ^ 64 :=
    deadline_lt hduration hticks (ttl_le_remaining st w)
  rcases initiate_eq_some h with hads | ⟨-, advertised, hpurchase⟩ | ⟨-, hgift⟩
  · exact advertisement_encodable hduration hticks hads
  · obtain ⟨ad, need, payment, reason, -, rfl, -⟩ := purchase_eq_some hpurchase
    have hlt : purchaseAmount p st w need payment < 2 ^ 64 :=
      purchaseAmount_lt hinventory need payment
    exact ⟨PlanetCharlu.Raising.fits_bundleOf payment hlt,
      PlanetCharlu.Raising.fits_bundleOf need hlt, hdeadline⟩
  · obtain ⟨ad, reason, -, rfl, -⟩ := gift_eq_some hgift
    exact ⟨PlanetCharlu.Raising.fits_bundleOf _ giftAmount_lt, PlanetCharlu.Raising.fits_zero,
      hdeadline⟩

theorem choose_encodable (hinventory : PlanetCharlu.Raising.Fits w.self.inventory)
    (hduration : w.rules.durationTicks < 2 ^ 64)
    (h : choose p env st w = .ok (st', some d)) : d.message.Encodable := by
  have hcases := choose_cases h
  generalize haction : some d = action at hcases
  rcases hcases with _ | ⟨-, -, -⟩ | ⟨-, -, -, hscan⟩ | ⟨-, hticks, -, -⟩
  · cases haction
  · obtain ⟨o, -, hd⟩ := List.exists_of_findSome?_eq_some haction.symm
    obtain ⟨rfl, -, -⟩ := StrategyState.decision_eq_some hd
    trivial
  · cases haction
    obtain ⟨o, ho, note, hreview⟩ := exists_of_scan hscan
    rw [incoming, Checks.incoming, StableSort.mem_sortedBy] at ho
    obtain ⟨-, -, reason, rfl⟩ := review_eq_some ho hreview
    trivial
  · exact initiate_encodable hinventory hduration hticks haction.symm

end BaseStrategy

namespace SimplifiedTradingStrategy

open SimplifiedTradingStrategy.Raising (refillAmount_lt giftAmount_lt)

variable {env : ChooseEnv} {st st' : StrategyState} {w : WorldView} {d : Decision}

theorem publish_encodable (hduration : w.rules.durationTicks < 2 ^ 64) (hticks : 0 < w.remaining)
    (h : publish env st w = some d) : d.message.Encodable := by
  unfold publish at h
  dsimp only at h
  split_ifs at h
  obtain ⟨rfl, -, -⟩ := StrategyState.decision_eq_some h
  exact BaseStrategy.Raising.deadline_lt hduration hticks (min_le_right _ _)

theorem initiate_encodable (hinventory : PlanetCharlu.Raising.Fits w.self.inventory)
    (hduration : w.rules.durationTicks < 2 ^ 64) (hticks : 0 < w.remaining)
    (h : initiate env st w = .ok (some d)) : d.message.Encodable := by
  have hdeadline : w.tick + ttl w < 2 ^ 64 :=
    BaseStrategy.Raising.deadline_lt hduration hticks (ttl_le_remaining w)
  rcases initiate_eq_some h with ⟨-, hrefill⟩ | ⟨-, hpublish⟩ | ⟨-, -, -, hshare⟩
  · obtain ⟨ad, need, payment, reason, -, rfl, -, -⟩ := refill_eq_some hrefill
    have hlt := refillAmount_lt hinventory need payment
    exact ⟨PlanetCharlu.Raising.fits_bundleOf payment hlt,
      PlanetCharlu.Raising.fits_bundleOf need hlt, hdeadline⟩
  · exact publish_encodable hduration hticks hpublish
  · obtain ⟨ad, reason, -, rfl, -⟩ := share_eq_some hshare
    exact ⟨PlanetCharlu.Raising.fits_bundleOf _ giftAmount_lt, PlanetCharlu.Raising.fits_zero,
      hdeadline⟩

theorem choose_encodable (hinventory : PlanetCharlu.Raising.Fits w.self.inventory)
    (hduration : w.rules.durationTicks < 2 ^ 64)
    (h : choose env st w = .ok (st', some d)) : d.message.Encodable := by
  have hcases := choose_cases h
  generalize haction : some d = action at hcases
  rcases hcases with _ | ⟨-, -, -⟩ | ⟨-, -, -, hscan⟩ | ⟨-, hticks, -, -, hinitiate⟩
  · cases haction
  · obtain ⟨o, -, hd⟩ := List.exists_of_findSome?_eq_some haction.symm
    obtain ⟨rfl, -, -⟩ := StrategyState.decision_eq_some hd
    trivial
  · cases haction
    obtain ⟨o, ho, note, hreview⟩ := exists_of_scan hscan
    rw [incoming, StableSort.mem_sortedBy] at ho
    obtain ⟨-, -, reason, rfl⟩ := review_eq_some ho hreview
    trivial
  · rw [← haction] at hinitiate
    exact initiate_encodable hinventory hduration hticks hinitiate

end SimplifiedTradingStrategy

namespace Strategy

/-- `choose` with all its exceptions. -/
def raisingChoose : Strategy → ChooseEnv → StrategyState → WorldView →
    Except Raised (StrategyState × Option Decision)
  | .base => BaseStrategy.Raising.choose BaseStrategy.Raising.policy
  | .restrained => BaseStrategy.Raising.choose BaseStrategy.Raising.restrainedPolicy
  | .simplified => SimplifiedTradingStrategy.Raising.choose

variable {env : ChooseEnv} {st st' : StrategyState} {w : WorldView} {d : Decision}

theorem choose_encodable (s : Strategy) (hinventory : Raising.Fits w.self.inventory)
    (hduration : w.rules.durationTicks < 2 ^ 64) (h : s.choose env st w = .ok (st', some d)) :
    d.message.Encodable := by
  rcases s with _ | _ | _
  · exact BaseStrategy.choose_encodable hinventory hduration h
  · exact BaseStrategy.choose_encodable hinventory hduration h
  · exact SimplifiedTradingStrategy.choose_encodable hinventory hduration h

/-- What `choose` decides without its exceptions it decides with them. -/
theorem choose_agree (s : Strategy) (env : ChooseEnv) (st : StrategyState)
    (hinventory : Raising.Fits w.self.inventory) (hduration : w.rules.durationTicks < 2 ^ 64) :
    Agree (s.choose env st w) (s.raisingChoose env st w) := by
  rcases s with _ | _ | _
  · exact BaseStrategy.Raising.choose_agree BaseStrategy.Raising.policy st w env hinventory
      hduration
  · exact BaseStrategy.Raising.choose_agree BaseStrategy.Raising.restrainedPolicy st w env
      hinventory hduration
  · exact SimplifiedTradingStrategy.Raising.choose_agree env st w hinventory hduration

/-- **Deciding never raises, and what is decided can be encoded.** -/
theorem choose_never_raises (s : Strategy) (env : ChooseEnv) (st : StrategyState) (w : WorldView)
    (hinventory : ∀ r, quantity w.self.inventory r < 2 ^ 64)
    (hduration : w.rules.durationTicks < 2 ^ 64) :
    ∃ st' action, s.raisingChoose env st w = .ok (st', action) ∧
      s.choose env st w = .ok (st', action) ∧ ∀ d ∈ action, d.message.Encodable := by
  obtain ⟨⟨st', action⟩, hchoose, hraising⟩ := s.choose_agree env st hinventory hduration
  refine ⟨st', action, hraising, hchoose, ?_⟩
  intro d hd
  rw [Option.mem_def] at hd
  rw [hd] at hchoose
  exact s.choose_encodable hinventory hduration hchoose

/-- No upkeep, nothing in stock, and an offer that promises water all the same. -/
def oddWorld : WorldView :=
  { WorldView.sample with
    self := { WorldView.sample.self with inventory := {}, upkeepPerTick := {} }
    offers := [.older] }

theorem choose_never_raises_sample :
    (∀ r, quantity oddWorld.self.inventory r < 2 ^ 64) ∧
      oddWorld.rules.durationTicks < 2 ^ 64 ∧
      ∀ s : Strategy, ∃ st' action, s.raisingChoose .sample {} oddWorld = .ok (st', action) ∧
        s.choose .sample {} oddWorld = .ok (st', action) ∧ ∀ d ∈ action, d.message.Encodable :=
  ⟨by decide, by decide, fun s =>
    s.choose_never_raises .sample {} oddWorld (by decide) (by decide)⟩

end Strategy

end PlanetCharlu
