import PlanetCharlu.PostedOffers
import PlanetCharlu.Market
import PlanetCharlu.Lib.Reserve

/-!
# The promised reserve of the simplified policy

Whatever the simplified policy has promised of a resource, the stock beyond all
promises of that resource lasts for its upkeep until five ticks after the latest
deadline among them, or until the run ends.

The code does not compute this. It compares every promised resource with one guard
that runs to the latest deadline of all offers, and only on the snapshot of a
decision. The invariant is per resource, and holds between decisions: it survives
settlements, ticks without production, and a command that takes effect late. To
carry it through a late command, the invariant also speaks about the stock the
command would leave (`Plan`).
-/

namespace PlanetCharlu

open Reserve Runs SimplifiedTradingStrategy

/-- Runs of the simplified policy with the upkeep and the duration fixed. A tick
adds any production and consumes at most the upkeep. -/
def simplifiedSetting (stationId : String) (upkeep : Bundle) (duration : Nat) : Setting where
  strategy := .simplified
  stationId := stationId
  fixed w := w.self.upkeepPerTick = upkeep ∧ w.rules.durationTicks = duration
  turnover before after := ∃ produced consumed : Bundle, ∀ r,
    quantity consumed r ≤ quantity upkeep r ∧
      quantity after r + quantity consumed r = quantity before r + quantity produced r

/-! ### Offers as promises -/

/-- What the slots promise of one resource. -/
def promises (r : Resource) (slots : List OfferBody) : List Promise :=
  slots.map fun body => ⟨quantity body.give r, body.expiresTick⟩

theorem total_promises (offers : List Offer) (r : Resource) :
    total (promises r (offers.map bodyOf)) = quantity (WorldView.committedIn offers) r := by
  rw [WorldView.quantity_committedIn, total, promises, List.map_map, List.map_map]
  rfl

theorem exists_offer_of_promise {offers : List Offer} {r : Resource} {q : Promise}
    (hq : q ∈ promises r (offers.map bodyOf)) :
    ∃ o ∈ offers, q.amount = quantity o.give r ∧ q.deadline = o.expiresTick := by
  obtain ⟨body, hbody, rfl⟩ := List.mem_map.mp hq
  obtain ⟨o, ho, rfl⟩ := List.mem_map.mp hbody
  exact ⟨o, ho, rfl, rfl⟩

theorem le_foldl_max (l : List Nat) (start : Nat) :
    start ≤ l.foldl max start ∧ ∀ x ∈ l, x ≤ l.foldl max start := by
  induction l generalizing start with
  | nil =>
      refine ⟨le_refl _, ?_⟩
      intro x hx
      cases hx
  | cons y rest ih =>
      obtain ⟨hstart, hrest⟩ := ih (max start y)
      rw [List.foldl_cons]
      refine ⟨le_trans (le_max_left start y) hstart, ?_⟩
      intro x hx
      rcases List.mem_cons.mp hx with rfl | hx
      · exact le_trans (le_max_right start x) hstart
      · exact hrest x hx

/-- The horizon reaches every deadline. -/
theorem le_horizon {w : WorldView} {o : Offer} (ho : o ∈ w.outgoing) :
    o.expiresTick - w.tick ≤ horizon w :=
  (le_foldl_max _ 0).2 _ (List.mem_map_of_mem ho)

section Kept

variable {stationId : String} {upkeep : Bundle} {duration : Nat} {m m' : Market} {e : Event}
  {w : WorldView}

/-! ### The invariant -/

/-- A change of the inventory that is due: none, or the terms of the accept on its
way. -/
inductive Plan (m : Market) : (Resource → ℤ) → Prop where
  | rest : Plan m fun _ => 0
  | accept {runId rid : String} {o : Offer}
      (hflight : m.inFlight = some (.accept runId rid o.offerId)) (ho : o ∈ m.book) :
      Plan m fun r => (quantity o.give r : ℤ) - quantity o.receive r

variable (stationId upkeep duration m) in
/-- Every plan leaves a stock that protects the promises. -/
def ReserveKept : Prop :=
  ∀ change, Plan m change → ∀ r, Protected (quantity upkeep r) 5 duration m.tick
    (quantity m.inventory r + change r) (promises r (m.slots stationId))

/-- With nothing on its way the only plan is to wait. -/
theorem Plan.eq_rest {change : Resource → ℤ} (h : Plan m change)
    (hnone : ∀ runId rid offerId, m.inFlight ≠ some (.accept runId rid offerId)) :
    change = fun _ => 0 := by
  cases h with
  | rest => rfl
  | accept hflight ho => exact absurd hflight (hnone _ _ _)

/-- The plans survive a step that leaves the command on its way. -/
theorem Plan.before {P : Setting} {change : Resource → ℤ} (hwf : WellFormed P m)
    (hstep : Step P m e m') (hflight : m'.inFlight = m.inFlight) (h : Plan m' change) :
    Plan m change := by
  cases h with
  | rest => exact .rest
  | @accept runId rid o haccept ho =>
      rw [hflight] at haccept
      rcases hstep.continues.terms o ho with hnew | ⟨o₀, ho₀, hsame⟩
      · exact absurd (hwf.accepting runId rid o.offerId haccept) hnew
      · have hgive : o.give = o₀.give := congrArg OfferBody.give hsame.body
        have hreceive : o.receive = o₀.receive := congrArg OfferBody.receive hsame.body
        rw [hsame.id] at haccept
        rw [hgive, hreceive]
        exact .accept haccept ho₀

/-! ### What a decision leaves -/

section Decisions

variable (hsnap : Snapshot (simplifiedSetting stationId upkeep duration) m w)

include hsnap

theorem floor_le_scaled {e lifetime : Nat} (h : e - w.tick ≤ lifetime) (r : Resource) :
    Reserve.floor (quantity upkeep r) 5 duration m.tick e ≤
      quantity (scaled w.self.upkeepPerTick (min (5 + lifetime) w.remaining)) r := by
  have hremaining : w.remaining = duration - m.tick := by
    rw [WorldView.remaining, hsnap.fixed.2, hsnap.tick]
  rw [hsnap.tick] at h
  rw [quantity_scaled, hsnap.fixed.1, hremaining]
  unfold Reserve.floor
  apply Nat.mul_le_mul_left
  apply min_le_min_right
  omega

theorem outgoing_of_promise {r : Resource} {q : Promise}
    (hq : q ∈ promises r ((m.outgoing stationId).map bodyOf)) (hpos : 0 < q.amount) :
    0 < quantity w.committed r ∧ q.deadline - w.tick ≤ horizon w := by
  obtain ⟨o, ho, hamount, hdeadline⟩ := exists_offer_of_promise hq
  have hout : o ∈ w.outgoing := hsnap.outgoing_perm.mem_iff.mpr ho
  rw [hdeadline]
  refine ⟨?_, le_horizon hout⟩
  have hgive := WorldView.give_le_committedIn hout r
  rw [WorldView.committed]
  omega

theorem total_eq_committed (r : Resource) :
    total (promises r ((m.outgoing stationId).map bodyOf)) = quantity w.committed r := by
  rw [total_promises, hsnap.committed_eq]
  rfl

/-- An offer is checked against the guard of the longest deadline, its own included. -/
theorem protected_offer {env : ChooseEnv} {st st' : StrategyState} {d : Decision}
    {runId rid : String} {body : OfferBody} (hchoose : choose env st w = .ok (st', some d))
    (hmessage : d.message = .offer runId rid body) {r : Resource}
    (hkept : Protected (quantity upkeep r) 5 duration m.tick (quantity m.inventory r)
      (promises r ((m.outgoing stationId).map bodyOf))) :
    Protected (quantity upkeep r) 5 duration m.tick (quantity m.inventory r)
      (promises r (body :: (m.outgoing stationId).map bodyOf)) := by
  obtain ⟨hsafe, hticks, hlasting, hexpires, -, hfloor⟩ := offer_terms hchoose hmessage
  refine Protected.promise ?_ hkept
  intro hpaid q hq hpos
  have hlifetime : q.deadline - w.tick ≤ max (horizon w) (ttl w) := by
    rcases List.mem_cons.mp hq with rfl | hq
    · have hlife : body.expiresTick - w.tick = ttl w := by omega
      change body.expiresTick - w.tick ≤ max (horizon w) (ttl w)
      rw [hlife]
      exact le_max_right _ _
    · exact le_trans (outgoing_of_promise hsnap hq hpos).2 (le_max_left _ _)
  have hguard : Reserve.floor (quantity upkeep r) 5 duration m.tick q.deadline ≤
      quantity (paymentGuard w) r := floor_le_scaled hsnap hlifetime r
  have htotal := total_eq_committed hsnap r
  have hleft := hfloor r hpaid
  rw [hsnap.inventory] at hleft
  change (_ : ℤ) ≤ _
  change (_ + (total (promises r ((m.outgoing stationId).map bodyOf)) : ℤ) +
    (quantity body.give r : ℤ) : ℤ) ≤ _
  omega

/-- An accept leaves the guard in every promised resource. -/
theorem protected_accept {o : Offer} (hsafe : Safe w) (ho : Acceptable w o) (r : Resource) :
    Protected (quantity upkeep r) 5 duration m.tick
      (quantity m.inventory r + ((quantity o.give r : ℤ) - quantity o.receive r))
      (promises r ((m.outgoing stationId).map bodyOf)) := by
  intro q hq hpos
  obtain ⟨hcommitted, hlifetime⟩ := outgoing_of_promise hsnap hq hpos
  have hguard : Reserve.floor (quantity upkeep r) 5 duration m.tick q.deadline ≤
      quantity (guard w) r := floor_le_scaled hsnap hlifetime r
  have hstock := hsafe.guarded r hcommitted
  have hsplit := hsafe.available_add_committed r
  have haffordable := ho.affordable r
  have hleft := ho.kept r
  have htotal := total_eq_committed hsnap r
  rw [min_eq_right hstock] at hleft
  rw [hsnap.inventory] at hsplit
  omega

end Decisions

/-! ### Every step keeps the reserve -/

/-- A decision puts nothing on its way that would break the reserve. -/
theorem reserveKept_chooses {env : ChooseEnv} {st st' : StrategyState} {action : Option Decision}
    (hwf : WellFormed (simplifiedSetting stationId upkeep duration) m) (hfree : m.inFlight = none)
    (hsnap : Snapshot (simplifiedSetting stationId upkeep duration) m w)
    (hchoose : choose env st w = .ok (st', action))
    (hkept : ReserveKept stationId upkeep duration m) :
    ReserveKept stationId upkeep duration
      { m with inFlight := action.map Decision.message } := by
  have hrest : ∀ r, Protected (quantity upkeep r) 5 duration m.tick (quantity m.inventory r)
      (promises r ((m.outgoing stationId).map bodyOf)) := by
    intro r
    have h := hkept _ Plan.rest r
    rw [slots_of_free hfree, add_zero] at h
    exact h
  intro change hplan r
  cases hplan with
  | rest =>
      rw [add_zero]
      unfold Market.slots Market.pendingOffer
      dsimp only
      split
      · rename_i runId rid body hflight
        by_cases hlive : m.tick < body.expiresTick
        · rw [if_pos hlive]
          rcases Option.map_eq_some_iff.mp hflight with ⟨d, rfl, hmessage⟩
          exact protected_offer hsnap hchoose hmessage (hrest r)
        · rw [if_neg hlive]
          exact hrest r
      · exact hrest r
  | @accept runId rid o hflight ho =>
      rcases Option.map_eq_some_iff.mp hflight with ⟨d, rfl, hmessage⟩
      have hmove := (choose_decided hchoose).move
      rw [hmessage] at hmove
      have haccept : Safe w ∧ ∃ o₀, Acceptable w o₀ ∧ o₀.offerId = o.offerId := by
        generalize d.key = key at hmove
        generalize hid : o.offerId = offerId at hmove
        cases hmove with
        | @accept _ o₀ hsafe ho₀ => exact ⟨hsafe, o₀, ho₀, rfl⟩
      obtain ⟨hsafe, o₀, ho₀, hid⟩ := haccept
      have hsame : o₀ = o :=
        List.inj_on_of_nodup_map hwf.ids (hsnap.mem_book ho₀.incoming) ho hid
      subst hsame
      have hslots : Market.slots stationId { m with inFlight := some d.message } =
          (m.outgoing stationId).map bodyOf := by
        rw [Market.slots, Market.pendingOffer, hmessage]
        rfl
      change Protected _ _ _ _ _
        (promises r (Market.slots stationId { m with inFlight := some d.message }))
      rw [hslots]
      exact protected_accept hsnap hsafe ho₀ r

/-- What is protected stays protected when slots only disappear. -/
theorem protected_of_sublist {change : Resource → ℤ} (htick : m'.tick = m.tick)
    (hstock : ∀ r, (quantity m.inventory r : ℤ) + change r ≤ quantity m'.inventory r)
    (hslots : (m'.slots stationId).Subperm (m.slots stationId))
    (hkept : ∀ r, Protected (quantity upkeep r) 5 duration m.tick
      (quantity m.inventory r + change r) (promises r (m.slots stationId))) (r : Resource) :
    Protected (quantity upkeep r) 5 duration m'.tick (quantity m'.inventory r)
      (promises r (m'.slots stationId)) := by
  obtain ⟨middle, hperm, hsub⟩ := hslots
  rw [htick]
  exact (((hkept r).income (hstock r)).sublist (hsub.map _)).perm (hperm.map _)

/-- A step that settles, rejects or withdraws leaves nothing on its way. -/
theorem reserveKept_done {change : Resource → ℤ} (hplan : Plan m change)
    (hkept : ReserveKept stationId upkeep duration m) (htick : m'.tick = m.tick)
    (hdone : m'.inFlight = none)
    (hstock : ∀ r, (quantity m.inventory r : ℤ) + change r ≤ quantity m'.inventory r)
    (hslots : (m'.slots stationId).Subperm (m.slots stationId)) :
    ReserveKept stationId upkeep duration m' := by
  intro change' hplan' r
  have hnone : ∀ runId rid offerId, m'.inFlight ≠ some (.accept runId rid offerId) := by
    intro runId rid offerId h
    rw [hdone] at h
    cases h
  rw [hplan'.eq_rest hnone, add_zero]
  exact protected_of_sublist htick hstock hslots (hkept change hplan) r

/-- **One step keeps the reserve**, as long as the run lasts. -/
theorem Step.reserveKept (hwf : WellFormed (simplifiedSetting stationId upkeep duration) m)
    (hstep : Step (simplifiedSetting stationId upkeep duration) m e m')
    (hkept : m.tick < duration → ReserveKept stationId upkeep duration m)
    (hrunning : m'.tick < duration) : ReserveKept stationId upkeep duration m' := by
  have hbefore : m'.inFlight = m.inFlight → ∀ change, Plan m' change → Plan m change :=
    fun hflight change hplan => hplan.before hwf hstep hflight
  rcases hstep.effect hwf with
    ⟨hfree, hsnap, hchoose, rfl⟩ | ⟨htick, hstock, hdone, hslots⟩ |
    ⟨htick, hdone, hflight, ho, hexchange, hslots⟩ | ⟨htick, hflight, hexchange, hslots⟩ |
    ⟨htick, hstock, hflight, hslots⟩ | ⟨htick, hturnover, hflight, hslots⟩
  · exact reserveKept_chooses hwf hfree hsnap hchoose (hkept hrunning)
  · rw [htick] at hrunning
    refine reserveKept_done Plan.rest (hkept hrunning) htick hdone ?_ hslots
    intro r
    rw [add_zero, hstock]
  · rw [htick] at hrunning
    refine reserveKept_done (.accept hflight ho) (hkept hrunning) htick hdone ?_
      (hslots ▸ List.Subperm.refl _)
    intro r
    have hr := hexchange r
    omega
  · -- The promise leaves with what it gave away; what it brought is income.
    rw [htick] at hrunning
    intro change hplan r
    have hprotected := hkept hrunning change (hbefore hflight change hplan) r
    have hpaid := (hprotected.perm (hslots.map _)).pay
    rw [htick]
    apply hpaid.income
    have hr := hexchange r
    simp only [bodyOf]
    omega
  · rw [htick] at hrunning
    intro change hplan r
    rw [htick, hstock]
    change Protected _ _ _ _ _ (promises r (m'.slots (simplifiedSetting stationId upkeep
      duration).stationId))
    rw [hslots]
    exact hkept hrunning change (hbefore hflight change hplan) r
  · have hbound : m.tick < duration := by omega
    intro change hplan r
    have hprotected := hkept hbound change (hbefore hflight change hplan) r
    obtain ⟨produced, consumed, hturnover⟩ := hturnover
    obtain ⟨hconsumed, hstock⟩ := hturnover r
    rw [htick]
    refine hprotected.tick hbound ?_ (hslots.map _) ?_
    · omega
    · intro p hp
      obtain ⟨body, hbody, rfl⟩ := List.mem_map.mp hp
      rw [← htick]
      exact slots_live hbody

end Kept

/-! ### The law -/

section Law

variable {stationId : String} {upkeep : Bundle} {duration : Nat} {m₀ m : Market}
  {trace : List Event}

/-- The invariant of the runs. -/
structure Reserved (stationId : String) (upkeep : Bundle) (duration : Nat) (m : Market) :
    Prop where
  wellFormed : WellFormed (simplifiedSetting stationId upkeep duration) m
  kept : m.tick < duration → ReserveKept stationId upkeep duration m

theorem run_reserved (hfresh : Fresh (simplifiedSetting stationId upkeep duration) m₀)
    (hrun : Run (Step (simplifiedSetting stationId upkeep duration)) m₀ trace m) :
    Reserved stationId upkeep duration m := by
  have hadmissible : ∀ e ∈ trace, True := fun _ _ => trivial
  refine hrun.invariant hadmissible ?_ ?_
  · refine ⟨hfresh.wellFormed, ?_⟩
    intro _ change hplan r
    have hnone : m₀.slots stationId = [] := hfresh.slots_eq_nil
    rw [hnone]
    exact protected_nil
  · rintro m e m' ⟨hwf, hkept⟩ - hstep
    exact ⟨hstep.wellFormed hwf, hstep.reserveKept hwf hkept⟩

/-- **The promised reserve.** In every reachable state before the end of the run,
the stock beyond everything promised of a resource covers its upkeep until five
ticks after the latest deadline `e` among the offers that give it, or until the
end. -/
theorem reachable_promised_reserve
    (hfresh : Fresh (simplifiedSetting stationId upkeep duration) m₀)
    (hrun : Run (Step (simplifiedSetting stationId upkeep duration)) m₀ trace m)
    (hrunning : m.tick < duration) {r : Resource} {e : Nat}
    (hlatest : IsGreatest
      {t | ∃ o ∈ m.outgoing stationId, 0 < quantity o.give r ∧ o.expiresTick = t} e) :
    quantity (m.committed stationId) r +
        quantity upkeep r * min (5 + (e - m.tick)) (duration - m.tick) ≤
      quantity m.inventory r := by
  obtain ⟨-, hkept⟩ := run_reserved hfresh hrun
  obtain ⟨⟨o, ho, hgive, rfl⟩, -⟩ := hlatest
  have hprotected := hkept hrunning _ Plan.rest r
  rw [add_zero] at hprotected
  have hout := hprotected.sublist ((List.sublist_append_right _ _).map _)
  have hfloor := hout ⟨quantity o.give r, o.expiresTick⟩
    (List.mem_map_of_mem (List.mem_map_of_mem ho)) hgive
  have htotal := total_promises (m.outgoing stationId) r
  unfold promises at htotal
  rw [htotal] at hfloor
  unfold Reserve.floor at hfloor
  rw [Market.committed]
  dsimp only at hfloor
  omega

end Law

theorem reachable_promised_reserve_sample :
    quantity (Market.samplePosted.committed "P01") .water +
        quantity WorldView.sample.self.upkeepPerTick .water * min (5 + (3 - 0)) (100 - 0) ≤
      quantity Market.samplePosted.inventory .water := by
  obtain ⟨hfresh, hrun⟩ := run_samplePosted (P := simplifiedSetting "P01"
    WorldView.sample.self.upkeepPerTick 100) rfl rfl ⟨rfl, rfl⟩
  refine reachable_promised_reserve hfresh hrun (by decide) ⟨⟨.sample, ?_, ?_, rfl⟩, ?_⟩
  · exact List.mem_filter.mpr ⟨List.mem_singleton_self _, by decide⟩
  · decide
  · rintro t ⟨o, ho, -, rfl⟩
    obtain ⟨hbook, -⟩ := List.mem_filter.mp ho
    rw [List.mem_singleton.mp hbook]
    decide

end PlanetCharlu
