import PlanetCharlu.Market

/-!
# The set of our open offers

No strategy stores that its open offers are few and go to different partners. Each
decision rebuilds who is busy, and the simplified policy which resources are being
bought, from its snapshot. Over a run this keeps the slots few, apart from each
other, and addressed to others.
-/

namespace PlanetCharlu

open Runs

/-- Runs of a strategy with the limit on open offers fixed. Ticks may do anything
to the inventory. -/
def tradingSetting (strategy : Strategy) (stationId : String) (limit : Nat) : Setting where
  strategy := strategy
  stationId := stationId
  fixed w := w.rules.maxOpenOutgoingOffers = limit
  turnover _ _ := True

/-- The offer nets the resource. -/
def Buys (r : Resource) (body : OfferBody) : Prop := quantity body.give r < quantity body.receive r

/-- Two offers do not get in each other's way. -/
structure Apart (strategy : Strategy) (a b : OfferBody) : Prop where
  partners : a.recipientId ≠ b.recipientId
  purchases : strategy = .simplified → ∀ r, Buys r a → ¬ Buys r b

theorem Apart.symm {strategy : Strategy} {a b : OfferBody} (h : Apart strategy a b) :
    Apart strategy b a :=
  ⟨h.partners.symm, fun hs r hb ha => h.purchases hs r ha hb⟩

section Disciplined

variable {strategy : Strategy} {stationId : String} {limit : Nat} {m m' : Market} {e : Event}
  {w : WorldView}

variable (strategy stationId limit m) in
/-- The invariant of the slots. -/
structure Disciplined : Prop where
  wellFormed : WellFormed (tradingSetting strategy stationId limit) m
  room : (m.slots stationId).length ≤ limit
  apart : (m.slots stationId).Pairwise (Apart strategy)
  foreign : ∀ body ∈ m.slots stationId, body.recipientId ≠ stationId

/-- A step that adds no slot keeps the discipline. -/
theorem disciplined_of_subperm
    (hwf : WellFormed (tradingSetting strategy stationId limit) m')
    (hslots : (m'.slots stationId).Subperm (m.slots stationId))
    (h : Disciplined strategy stationId limit m) : Disciplined strategy stationId limit m' := by
  refine ⟨hwf, le_trans hslots.length_le h.room, ?_, ?_⟩
  · obtain ⟨middle, hperm, hsub⟩ := hslots
    exact (h.apart.sublist hsub).perm hperm Apart.symm
  · intro body hbody
    exact h.foreign body (hslots.subset hbody)

/-! ### What a decision adds -/

/-- The simplified policy buys one resource with an offer, and only one that no
open offer buys. -/
theorem buys_of_move {key : Key} {runId rid : String} {body : OfferBody} {r : Resource}
    (hmove : SimplifiedTradingStrategy.Move w key (.offer runId rid body)) (hbuys : Buys r body) :
    r ∉ SimplifiedTradingStrategy.pending w := by
  cases hmove with
  | @refill _ ad need payment hsafe hcan hrefill =>
      have hneed : r = need := by
        by_contra hne
        simp only [Buys, SimplifiedTradingStrategy.refillBody] at hbuys
        rw [quantity_bundleOf_of_ne hne] at hbuys
        exact Nat.not_lt_zero _ hbuys
      rw [hneed]
      exact hrefill.notPending
  | gift hsafe hcan hgift =>
      simp [Buys, SimplifiedTradingStrategy.giftBody] at hbuys

/-- A new offer stays apart from every open one. -/
theorem apart_of_decided {st : StrategyState} {d : Decision} {runId rid : String}
    {body : OfferBody} (h : strategy.Decided st w d) (hmessage : d.message = .offer runId rid body)
    {o : Offer} (ho : o ∈ w.outgoing) : Apart strategy body (bodyOf o) := by
  constructor
  · intro hsame
    have hidle := (addressed_of_decided h hmessage).idle
    exact hidle (WorldView.mem_busy.mpr ⟨o, ho, hsame.symm⟩)
  · rintro rfl r hbuys hother
    have hmove := h.move
    rw [hmessage] at hmove
    apply buys_of_move hmove hbuys
    simp only [SimplifiedTradingStrategy.pending, mem_resourceSet, List.any_eq_true,
      decide_eq_true_eq]
    exact ⟨o, ho, hother⟩

/-- A decision adds at most one slot, and one that fits. -/
theorem disciplined_chooses {env : ChooseEnv} {st st' : StrategyState} {action : Option Decision}
    (hfree : m.inFlight = none) (hsnap : Snapshot (tradingSetting strategy stationId limit) m w)
    (hchoose : strategy.choose env st w = .ok (st', action))
    (hwf : WellFormed (tradingSetting strategy stationId limit)
      { m with inFlight := action.map Decision.message })
    (h : Disciplined strategy stationId limit m) :
    Disciplined strategy stationId limit { m with inFlight := action.map Decision.message } := by
  have hslots : m.slots stationId = (m.outgoing stationId).map bodyOf := slots_of_free hfree
  rcases hpending : Market.pendingOffer { m with inFlight := action.map Decision.message } with
    _ | ⟨body, rest⟩
  · apply disciplined_of_subperm hwf ?_ h
    rw [Market.slots, hpending, hslots]
    exact List.Subperm.refl _
  · have hnew : rest = [] ∧ ∃ runId rid,
        action.map Decision.message = some (.offer runId rid body) := by
      simp only [Market.pendingOffer] at hpending
      split at hpending
      · rename_i runId rid body' hflight
        split_ifs at hpending
        rcases List.cons.inj hpending with ⟨rfl, rfl⟩
        exact ⟨rfl, runId, rid, hflight⟩
      · cases hpending
    obtain ⟨rfl, runId, rid, hflight⟩ := hnew
    rcases Option.map_eq_some_iff.mp hflight with ⟨d, rfl, hmessage⟩
    have hdecided := Strategy.choose_decided hchoose
    have haddressed := addressed_of_decided hdecided hmessage
    have hafter : Market.slots stationId
        { m with inFlight := (some d).map Decision.message } = body :: m.slots stationId := by
      rw [Market.slots, hpending, hslots]
      rfl
    refine ⟨hwf, ?_, ?_, ?_⟩
    · have hroom := haddressed.room
      rw [hsnap.fixed, hsnap.outgoing_perm.length_eq] at hroom
      rw [hafter, hslots, List.length_cons, List.length_map]
      exact hroom
    · rw [hafter, List.pairwise_cons]
      refine ⟨?_, h.apart⟩
      intro other hother
      rw [hslots] at hother
      obtain ⟨o, ho, rfl⟩ := List.mem_map.mp hother
      exact apart_of_decided hdecided hmessage (hsnap.outgoing_perm.mem_iff.mpr ho)
    · intro other hother
      rw [hafter] at hother
      rcases List.mem_cons.mp hother with rfl | hother
      · have hforeign := haddressed.foreign
        rw [hsnap.station] at hforeign
        exact hforeign
      · exact h.foreign other hother

/-- **One step keeps the discipline.** -/
theorem Step.disciplined (hstep : Step (tradingSetting strategy stationId limit) m e m')
    (h : Disciplined strategy stationId limit m) : Disciplined strategy stationId limit m' := by
  have hwf := hstep.wellFormed h.wellFormed
  rcases hstep.effect h.wellFormed with
    ⟨hfree, hsnap, hchoose, rfl⟩ | ⟨-, -, -, hslots⟩ | ⟨-, -, -, -, -, hslots⟩ |
    ⟨-, -, -, hslots⟩ | ⟨-, -, -, hslots⟩ | ⟨-, -, -, hslots⟩
  · exact disciplined_chooses hfree hsnap hchoose hwf h
  · exact disciplined_of_subperm hwf hslots h
  · exact disciplined_of_subperm hwf (hslots ▸ List.Subperm.refl _) h
  · apply disciplined_of_subperm hwf ?_ h
    exact (List.sublist_cons_self _ _).subperm.trans hslots.symm.subperm
  · exact disciplined_of_subperm hwf (hslots ▸ List.Subperm.refl _) h
  · exact disciplined_of_subperm hwf hslots.subperm h

end Disciplined

/-! ### The law -/

section Law

variable {strategy : Strategy} {stationId : String} {limit : Nat} {m₀ m : Market}
  {trace : List Event}

theorem run_disciplined (hfresh : Fresh (tradingSetting strategy stationId limit) m₀)
    (hrun : Run (Step (tradingSetting strategy stationId limit)) m₀ trace m) :
    Disciplined strategy stationId limit m := by
  have hadmissible : ∀ e ∈ trace, True := fun _ _ => trivial
  refine hrun.invariant hadmissible ?_ ?_
  · have hnone : m₀.slots stationId = [] := hfresh.slots_eq_nil
    refine ⟨hfresh.wellFormed, ?_, ?_, ?_⟩
    · rw [hnone]
      exact Nat.zero_le _
    · rw [hnone]
      exact List.Pairwise.nil
    · intro body hbody
      rw [hnone] at hbody
      cases hbody
  · intro m e m' h _ hstep
    exact hstep.disciplined h

/-- Of elements that exclude each other there is at most one. -/
theorem length_filter_le_one {α : Type*} {p : α → Bool} {l : List α}
    (h : l.Pairwise fun a b => p a = true → ¬ p b = true) : (l.filter p).length ≤ 1 := by
  have hfiltered := h.sublist (List.filter_sublist (p := p))
  rcases hlist : l.filter p with _ | ⟨a, _ | ⟨b, rest⟩⟩
  · exact Nat.zero_le 1
  · exact le_refl 1
  · have ha : a ∈ l.filter p := by simp [hlist]
    have hb : b ∈ l.filter p := by simp [hlist]
    rw [hlist] at hfiltered
    have hexcl := List.rel_of_pairwise_cons hfiltered List.mem_cons_self
    exact absurd (List.mem_filter.mp hb).2 (hexcl (List.mem_filter.mp ha).2)

/-- **Our open offers stay few and apart.** In every reachable state there are at
most `limit` of them, to different partners, none of them ourselves, and the
simplified policy buys no resource with two of them. -/
theorem reachable_open_offers (hfresh : Fresh (tradingSetting strategy stationId limit) m₀)
    (hrun : Run (Step (tradingSetting strategy stationId limit)) m₀ trace m) :
    (m.outgoing stationId).length ≤ limit ∧
      ((m.outgoing stationId).map Offer.recipientId).Nodup ∧
      (∀ o ∈ m.outgoing stationId, o.recipientId ≠ stationId) ∧
      (strategy = .simplified → ∀ r,
        ((m.outgoing stationId).filter fun o =>
          decide (quantity o.receive r > quantity o.give r)).length ≤ 1) := by
  obtain ⟨-, hroom, hapart, hforeign⟩ := run_disciplined hfresh hrun
  have hsub : ((m.outgoing stationId).map bodyOf).Sublist (m.slots stationId) :=
    List.sublist_append_right _ _
  have hpairs : (m.outgoing stationId).Pairwise fun a b => Apart strategy (bodyOf a) (bodyOf b) :=
    List.pairwise_map.mp (hapart.sublist hsub)
  refine ⟨?_, ?_, ?_, ?_⟩
  · have hlength := hsub.length_le
    rw [List.length_map] at hlength
    exact le_trans hlength hroom
  · exact List.pairwise_map.mpr (hpairs.imp fun h => h.partners)
  · intro o ho
    exact hforeign (bodyOf o) (hsub.subset (List.mem_map_of_mem ho))
  · intro hsimplified r
    apply length_filter_le_one
    apply hpairs.imp
    intro a b h ha hb
    rw [decide_eq_true_eq] at ha hb
    exact h.purchases hsimplified r ha hb

end Law

/-! ### Two open offers -/

/-- Food and components are short; `P02` sells the one and `P03` the other. -/
def WorldView.shortOfTwo (offers : List Offer) : WorldView :=
  { WorldView.sample with
    self := { WorldView.sample.self with inventory := { water := 90, food := 2, components := 2 } }
    offers
    advertisements :=
      WorldView.sample.advertisements ++
        WorldView.sample.advertisements.map fun a =>
          { a with advertisementId := "ad-2", stationId := "P03", selling := {.components} } }

def Decision.secondRefill : Decision where
  key := .partner "P03"
  reason := "refill components toward 25 ticks with P03"
  message := .offer "run" "request-1"
    { recipientId := "P03", give := { water := 23 }, receive := { components := 23 },
      expiresTick := 3 }

def Offer.second : Offer :=
  { Offer.sample with
    offerId := "offer-2", recipientId := "P03", receive := { components := 23 } }

def Market.shortOfTwo (book : List Offer) : Market where
  tick := 0
  inventory := (WorldView.shortOfTwo []).self.inventory
  book := book
  inFlight := none

/-- Both are asked, one after the other. -/
theorem run_shortOfTwo :
    Run (Step (tradingSetting .simplified "P01" 8)) (.shortOfTwo [])
      [.chooses (.shortOfTwo []) (some .refillSample), .posted .sample,
        .chooses (.shortOfTwo [.sample]) (some .secondRefill), .posted .second]
      (.shortOfTwo [.sample, .second]) := by
  have hfirst : Strategy.simplified.decisionOf .sample {} (.shortOfTwo []) = some .refillSample := by
    decide +kernel
  have hsecond : Strategy.simplified.decisionOf .sample {} (.shortOfTwo [.sample]) =
      some .secondRefill := by
    decide +kernel
  obtain ⟨st, hchoose⟩ := Strategy.exists_state_of_decisionOf hfirst
  obtain ⟨st', hchoose'⟩ := Strategy.exists_state_of_decisionOf hsecond
  have hdecided := Run.start.next (Step.chooses
    (P := tradingSetting .simplified "P01" 8) (m := .shortOfTwo []) rfl
    ⟨rfl, rfl, rfl, List.Perm.refl _, rfl⟩ hchoose)
  have hposted := hdecided.next (Step.posted (o := .sample) rfl (by simp [Market.shortOfTwo])
    rfl rfl rfl rfl rfl rfl)
  have hagain := hposted.next (Step.chooses (w := .shortOfTwo [.sample]) rfl
    ⟨rfl, rfl, rfl, List.Perm.refl _, rfl⟩ hchoose')
  exact hagain.next (Step.posted (o := .second) rfl (by decide) rfl rfl rfl rfl rfl rfl)

theorem reachable_open_offers_sample :
    ((Market.shortOfTwo [.sample, .second]).outgoing "P01").length ≤ 8 ∧
      (((Market.shortOfTwo [.sample, .second]).outgoing "P01").map Offer.recipientId).Nodup ∧
      (∀ o ∈ (Market.shortOfTwo [.sample, .second]).outgoing "P01", o.recipientId ≠ "P01") ∧
      (Strategy.simplified = .simplified → ∀ r,
        (((Market.shortOfTwo [.sample, .second]).outgoing "P01").filter fun o =>
          decide (quantity o.receive r > quantity o.give r)).length ≤ 1) := by
  have hfresh : Fresh (tradingSetting .simplified "P01" 8) (.shortOfTwo []) := by
    refine ⟨rfl, ?_, List.nodup_nil⟩
    intro o ho
    cases ho
  exact reachable_open_offers hfresh run_shortOfTwo

end PlanetCharlu
