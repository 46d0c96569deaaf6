import PlanetCharlu.Strategies

/-!
# The gifts we give

Two policies give only when secure. The restrained one looks at every resource
before the gift and bounds the gift itself afterwards; the simplified one looks at every
resource after the gift, against another threshold. Both looks come out at the same kind
of promise: with all open commitments and the gift paid, every resource still covers the
upkeep of the ticks that the policy protects.
-/

namespace PlanetCharlu

/-- An offer that pays a little specialty, and afterwards every resource still covers
`ticks` ticks of upkeep, or what is left of the run. -/
structure WorldView.GivesSecurely (w : WorldView) (body : OfferBody) (ticks : Nat) : Prop where
  small : ∃ n ≤ 2, body.give = bundleOf w.self.specialty n
  covers : ∀ r, quantity w.committed r + quantity body.give r +
    quantity w.self.upkeepPerTick r * min ticks w.remaining ≤ quantity w.self.inventory r

theorem RestrainedTradingStrategy.restrained_canGift (reserveTicks : Nat) (w : WorldView)
    (available : Bundle) (ttl : Nat) :
    RestrainedTradingStrategy.policy.canGift reserveTicks w available ttl =
      available.covers (scaled w.self.upkeepPerTick (min (reserveTicks + ttl) w.remaining)) := rfl

namespace BaseStrategy

open RestrainedTradingStrategy

variable {st : StrategyState} {w : WorldView} {ad : Advertisement}

theorem giftAmount_add_reserve (p : Policy) (hpositive : 0 < giftAmount p st w) :
    giftAmount p st w + quantity w.self.upkeepPerTick w.self.specialty *
        min (reserveTicks p st w + ttl st w) w.remaining ≤
      quantity w.available w.self.specialty := by
  have hspendable : giftAmount p st w ≤ quantity (spendable p st w) w.self.specialty :=
    min_le_right _ _
  rw [spendable, quantity_saturatingSubtract, quantity_scaled] at hspendable
  omega

/-- A purchase asks for something. -/
theorem purchaseBody_not_gift {p : Policy} {need payment : Resource}
    (hpurchase : Purchasable p st w ad need payment) :
    (purchaseBody p st w ad need payment).receive.isZero ≠ true := by
  intro hgift
  have hnone := (isZero_iff _).mp hgift need
  have hpositive := hpurchase.positive
  rw [purchaseBody, quantity_bundleOf_self] at hnone
  omega

/-- Any gift leaves specialty for the reserve and the lifetime of the offer. -/
theorem giftBody_keeps_specialty {p : Policy} (hsafe : Safe p st w) (hgift : Giftable p st w ad) :
    quantity w.committed w.self.specialty +
        quantity (giftBody p st w ad).give w.self.specialty +
        quantity w.self.upkeepPerTick w.self.specialty *
          min (reserveTicks p st w + ttl st w) w.remaining ≤
      quantity w.self.inventory w.self.specialty := by
  have hstock := hsafe.available_add_committed w.self.specialty
  have hafter := giftAmount_add_reserve p hgift.positive
  rw [giftBody, quantity_bundleOf_self]
  omega

/-- The conservative gift is checked on every resource before, on specialty after. -/
theorem restrained_gives_securely (hsafe : Safe RestrainedTradingStrategy.policy st w)
    (hgift : Giftable RestrainedTradingStrategy.policy st w ad) :
    w.GivesSecurely (giftBody RestrainedTradingStrategy.policy st w ad)
      (reserveTicks RestrainedTradingStrategy.policy st w + ttl st w) := by
  have hallowed := hgift.allowed
  rw [restrained_canGift, covers_iff] at hallowed
  refine ⟨⟨_, min_le_left _ _, rfl⟩, ?_⟩
  intro r
  by_cases hr : r = w.self.specialty
  · subst hr
    exact giftBody_keeps_specialty hsafe hgift
  · have hstock := hsafe.available_add_committed r
    have hbefore := hallowed r
    rw [quantity_scaled] at hbefore
    rw [giftBody, quantity_bundleOf_of_ne hr]
    omega

end BaseStrategy

namespace SimplifiedTradingStrategy

variable {w : WorldView} {ad : Advertisement}

theorem refillBody_not_gift {need payment : Resource} (hrefill : Refillable w ad need payment) :
    (refillBody w ad need payment).receive.isZero ≠ true := by
  intro hgift
  have hnone := (isZero_iff _).mp hgift need
  have hpositive := hrefill.positive
  rw [refillBody, quantity_bundleOf_self] at hnone
  omega

/-- The simplified gift is checked on every resource after. -/
theorem simplified_gives_securely (hsafe : Safe w) (hgift : Giftable w ad) :
    w.GivesSecurely (giftBody w ad) TARGET_TICKS := by
  refine ⟨⟨_, (min_le_left _ _).trans (min_le_left _ _), rfl⟩, ?_⟩
  intro r
  have hstock := hsafe.available_add_committed r
  have hafter := hgift.kept r
  rw [target, quantity_scaled] at hafter
  dsimp only [giftBody]
  omega

/-- No resource is at its reorder level, with the gift paid. -/
structure NothingShort (w : WorldView) (give : Bundle) : Prop where
  stocked : ∀ r, quantity w.committed r + quantity give r +
    quantity w.self.upkeepPerTick r * min REORDER_TICKS w.remaining ≤ quantity w.self.inventory r
  unsought : seeking w = ∅
  noRefill : ∀ ad need payment, ¬ Refillable w ad need payment

theorem nothingShort_of_secure {body : OfferBody} (h : w.GivesSecurely body TARGET_TICKS) :
    NothingShort w body.give := by
  have hlevel : ∀ r, quantity w.self.upkeepPerTick r * min REORDER_TICKS w.remaining ≤
      quantity w.self.upkeepPerTick r * min TARGET_TICKS w.remaining := by
    intro r
    exact Nat.mul_le_mul_left _ (min_le_min_right _ (by decide))
  have hunsought : seeking w = ∅ := by
    rw [Finset.eq_empty_iff_forall_notMem]
    intro r hr
    rw [seeking, mem_resourceSet, decide_eq_true_eq, reorder, quantity_scaled,
      WorldView.quantity_available] at hr
    have hcovers := h.covers r
    have hr' := hlevel r
    omega
  refine ⟨?_, hunsought, ?_⟩
  · intro r
    have hcovers := h.covers r
    have hr := hlevel r
    omega
  · intro ad need payment hrefill
    have hshort := hrefill.short
    rw [hunsought] at hshort
    cases hshort

end SimplifiedTradingStrategy

/-- What a policy promises about a gift it offers. The default one looks at nothing but what
it gives. -/
def Strategy.SecureGift (s : Strategy) (st : StrategyState) (w : WorldView) (body : OfferBody) :
    Prop :=
  match s with
  | .base => quantity w.committed w.self.specialty + quantity body.give w.self.specialty +
      quantity w.self.upkeepPerTick w.self.specialty *
        min (BaseStrategy.reserveTicks BaseStrategy.policy st w + (body.expiresTick - w.tick))
          w.remaining ≤ quantity w.self.inventory w.self.specialty
  | .restrained => w.GivesSecurely body
      (BaseStrategy.reserveTicks RestrainedTradingStrategy.policy st w + (body.expiresTick - w.tick))
  | .simplified => w.GivesSecurely body SimplifiedTradingStrategy.TARGET_TICKS ∧
      SimplifiedTradingStrategy.NothingShort w body.give

/-- **Gifts never cost security.** In the state that the call leaves, an offer that asks
for nothing is, under the two careful policies, a small gift of specialty; and with all
commitments and the gift paid every resource covers what the policy protects: the adaptive
reserve and the lifetime of the offer, or the target of the simplified policy, which then has
nothing to buy either. -/
theorem gifts_keep_security {s : Strategy} {env : ChooseEnv} {st st' : StrategyState}
    {w : WorldView} {d : Decision} {runId rid : String} {body : OfferBody}
    (h : s.choose env st w = .ok (st', some d)) (hmessage : d.message = .offer runId rid body)
    (hgift : body.receive.isZero = true) : s.SecureGift st' w body := by
  have hmove := (Strategy.choose_decided h).move
  rw [hmessage] at hmove
  generalize d.key = key at hmove
  have hlifetime : w.tick + BaseStrategy.ttl st' w - w.tick = BaseStrategy.ttl st' w :=
    Nat.add_sub_cancel_left _ _
  rcases s with _ | _ | _
  · rcases hmove with _ | _ | _ | ⟨_, _, hpurchase⟩ | ⟨hsafe, _, hgiftable⟩
    · exact absurd hgift (BaseStrategy.purchaseBody_not_gift hpurchase)
    · have hsecure := BaseStrategy.giftBody_keeps_specialty hsafe hgiftable
      simpa only [Strategy.SecureGift, BaseStrategy.giftBody, hlifetime] using hsecure
  · rcases hmove with _ | _ | _ | ⟨_, _, hpurchase⟩ | ⟨hsafe, _, hgiftable⟩
    · exact absurd hgift (BaseStrategy.purchaseBody_not_gift hpurchase)
    · have hsecure := BaseStrategy.restrained_gives_securely hsafe hgiftable
      simpa only [Strategy.SecureGift, BaseStrategy.giftBody, hlifetime] using hsecure
  · rcases hmove with _ | _ | ⟨_, _, hrefill⟩ | _ | ⟨hsafe, _, hgiftable⟩
    · exact absurd hgift (SimplifiedTradingStrategy.refillBody_not_gift hrefill)
    · have hsecure := SimplifiedTradingStrategy.simplified_gives_securely hsafe hgiftable
      exact ⟨hsecure, SimplifiedTradingStrategy.nothingShort_of_secure hsecure⟩

/-- Our station has plenty of everything and a listing that says so, and an open offer;
`P02` seeks water. -/
def WorldView.plenty : WorldView :=
  { WorldView.sample with
    self := { WorldView.sample.self with inventory := { water := 60, food := 60, components := 60 } }
    offers := [.older]
    advertisements :=
      [{ advertisementId := "ad-1", stationId := "P01", selling := {.water}, seeking := ∅
         createdTick := 0, expiresTick := 100, status := .ACTIVE },
        { advertisementId := "ad-2", stationId := "P02", selling := ∅, seeking := {.water}
          createdTick := 0, expiresTick := 100, status := .ACTIVE }] }

def OfferBody.giftSample : OfferBody where
  recipientId := "P02"
  give := { water := 2 }
  receive := {}
  expiresTick := 3

theorem gifts_keep_security_sample :
    (∃ st, Strategy.restrained.SecureGift st .plenty .giftSample) ∧
      ∃ st, Strategy.simplified.SecureGift st .plenty .giftSample := by
  have hrestrained : Strategy.restrained.decisionOf .sample {} .plenty =
      some ⟨.partner "P02", "share surplus water with P02",
        .offer "run" "request-1" .giftSample⟩ := by decide +kernel
  have hsimplified : Strategy.simplified.decisionOf .sample {} .plenty =
      some ⟨.partner "P02", "share surplus water while retaining 25 ticks",
        .offer "run" "request-1" .giftSample⟩ := by decide +kernel
  obtain ⟨st, hst⟩ := Strategy.exists_state_of_decisionOf hrestrained
  obtain ⟨st', hst'⟩ := Strategy.exists_state_of_decisionOf hsimplified
  exact ⟨⟨st, gifts_keep_security hst rfl rfl⟩, ⟨st', gifts_keep_security hst' rfl rfl⟩⟩

end PlanetCharlu
