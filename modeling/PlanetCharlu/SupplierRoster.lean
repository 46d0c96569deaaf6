import PlanetCharlu.Strategies
import PlanetCharlu.Lib.Runs
import PlanetCharlu.Lib.SeenSet

/-!
# The supplier roster

The learning policies keep, from call to call, the ids of the transactions they have
read, and what each station delivered. The roster is that of the set of transactions in
the worlds seen, and every purchase goes to a supplier on it once there is one.
-/

namespace PlanetCharlu

open Runs SeenSet

/-- The transaction brought `r` from the station to `us`. -/
structure Transaction.Delivers (us : String) (tx : Transaction) (station : String)
    (r : Resource) : Prop where
  involved : tx.involves us = true
  counterparty : (tx.relativeTo us).1 = station
  received : 0 < quantity (tx.relativeTo us).2.2 r

/-- The stations that delivered `r` to `us` in a set of transactions. -/
def deliverers (us : String) (transactions : Set Transaction) (r : Resource) : Set String :=
  {station | ∃ tx ∈ transactions, tx.Delivers us station r}

namespace BaseStrategy

/-! ### Sequences of calls -/

/-- A call of `choose` on a world, with what it returned. What happened to the strategy
since the last call is arbitrary, as long as nothing but `choose` learns suppliers. -/
inductive Consults (p : Policy) :
    StrategyState → WorldView × Option Decision → StrategyState → Prop where
  | call {st st₀ st' : StrategyState} {env : ChooseEnv} {w : WorldView} {action : Option Decision}
      (hknown : st₀.knownSuppliers = st.knownSuppliers)
      (hseen : st₀.seenTransactions = st.seenTransactions)
      (hchoose : choose p env st₀ w = .ok (st', action)) : Consults p st (w, action) st'

/-- All transactions of the worlds seen, with their repetitions. -/
def transactionsRead (calls : List (WorldView × Option Decision)) : List Transaction :=
  calls.flatMap fun call => call.1.transactions

/-- One session: the worlds are those of one station, and an id identifies its
transaction. -/
structure OneSession (us : String) (calls : List (WorldView × Option Decision)) : Prop where
  station : ∀ call ∈ calls, call.1.selfStationId = us
  ids : Set.InjOn Transaction.transactionId {tx | tx ∈ transactionsRead calls}

section Learning

variable {us : String} {read : List Transaction} {st st' : StrategyState} {w : WorldView}
  {tx : Transaction} {station : String} {r : Resource}

/-- The strategy has read these transactions: it has their ids, and has learned from the
first occurrence of each id. -/
structure Learned (us : String) (read : List Transaction) (st : StrategyState) : Prop where
  seen : Marks Transaction.transactionId read st.seenTransactions
  known : ∀ station r, (station, r) ∈ st.knownSuppliers ↔
    ∃ tx ∈ firsts Transaction.transactionId read, tx.Delivers us station r

theorem mem_addSupplier {stationId : String} {delivered : Bundle} :
    (station, r) ∈ (addSupplier st stationId delivered).knownSuppliers ↔
      (station, r) ∈ st.knownSuppliers ∨ (stationId = station ∧ 0 < quantity delivered r) := by
  unfold addSupplier
  simp only [Finset.mem_union, Finset.mem_image, mem_resourceSet, decide_eq_true_eq,
    Prod.mk.injEq]
  apply or_congr Iff.rfl
  constructor
  · rintro ⟨r', hr', hstation, rfl⟩
    exact ⟨hstation, hr'⟩
  · rintro ⟨hstation, hr⟩
    exact ⟨r, hr, hstation, rfl⟩

/-- The case distinction of the loop resolves our side as `relative_to` does. -/
theorem mem_addSupplier_side (us : String) (st : StrategyState) (tx : Transaction) :
    (station, r) ∈ (if tx.proposerId = us then addSupplier st tx.recipientId tx.receive
      else if tx.recipientId = us then addSupplier st tx.proposerId tx.give
      else st).knownSuppliers ↔
        (station, r) ∈ st.knownSuppliers ∨ tx.Delivers us station r := by
  by_cases hproposer : tx.proposerId = us
  · have hside : tx.relativeTo us = (tx.recipientId, tx.give, tx.receive) := if_pos hproposer
    have hinvolved : tx.involves us = true := by simp [Transaction.involves, hproposer]
    rw [if_pos hproposer, mem_addSupplier]
    apply or_congr Iff.rfl
    constructor
    · rintro ⟨rfl, hr⟩
      exact ⟨hinvolved, by rw [hside], by rwa [hside]⟩
    · rintro ⟨-, hstation, hr⟩
      rw [hside] at hstation hr
      exact ⟨hstation, hr⟩
  · have hside : tx.relativeTo us = (tx.proposerId, tx.receive, tx.give) := if_neg hproposer
    rw [if_neg hproposer]
    by_cases hrecipient : tx.recipientId = us
    · have hinvolved : tx.involves us = true := by simp [Transaction.involves, hrecipient]
      rw [if_pos hrecipient, mem_addSupplier]
      apply or_congr Iff.rfl
      constructor
      · rintro ⟨rfl, hr⟩
        exact ⟨hinvolved, by rw [hside], by rwa [hside]⟩
      · rintro ⟨-, hstation, hr⟩
        rw [hside] at hstation hr
        exact ⟨hstation, hr⟩
    · rw [if_neg hrecipient]
      constructor
      · exact Or.inl
      · rintro (hknown | hdelivers)
        · exact hknown
        · have hinvolved := hdelivers.involved
          simp [Transaction.involves, hproposer, hrecipient] at hinvolved

theorem Learned.congr (h : Learned us read st) (hknown : st'.knownSuppliers = st.knownSuppliers)
    (hseen : st'.seenTransactions = st.seenTransactions) : Learned us read st' := by
  constructor
  · rw [hseen]
    exact h.seen
  · rw [hknown]
    exact h.known

theorem Learned.learnTransaction (clock : Transaction → ℚ) (tx : Transaction)
    (h : Learned w.selfStationId read st) :
    Learned w.selfStationId (read ++ [tx]) (BaseStrategy.learnTransaction clock w st tx) := by
  by_cases hold : tx.transactionId ∈ st.seenTransactions
  · have hskip : BaseStrategy.learnTransaction clock w st tx = st := if_pos hold
    obtain ⟨hmarks, hfirsts⟩ := h.seen.skip hold
    rw [hskip]
    refine ⟨hmarks, ?_⟩
    rw [hfirsts]
    exact h.known
  · obtain ⟨s, -, hknown, hseen, hlearn⟩ := learnTransaction_of_new (w := w) clock hold
    obtain ⟨hmarks, hfirsts⟩ := h.seen.mark hold
    rw [hlearn]
    constructor
    · rw [← hseen] at hmarks
      split_ifs <;> exact hmarks
    · intro station r
      rw [mem_addSupplier_side, hknown, h.known, hfirsts]
      simp only [List.mem_append, List.mem_singleton, or_and_right, exists_or, exists_eq_left]

theorem Learned.learnTransactions (clock : Transaction → ℚ) (transactions : List Transaction)
    (h : Learned w.selfStationId read st) :
    Learned w.selfStationId (read ++ transactions)
      (transactions.foldl (BaseStrategy.learnTransaction clock w) st) := by
  induction transactions generalizing read st with
  | nil => simpa using h
  | cons tx rest ih =>
      have hrest := ih (h.learnTransaction clock tx)
      rwa [List.append_assoc, List.singleton_append] at hrest

theorem forgetClosedOffers_roster (offers : List Offer) (st : StrategyState) :
    (offers.foldl (forgetClosedOffer w) st).knownSuppliers = st.knownSuppliers ∧
      (offers.foldl (forgetClosedOffer w) st).seenTransactions = st.seenTransactions := by
  induction offers generalizing st with
  | nil => exact ⟨rfl, rfl⟩
  | cons o rest ih =>
      have hforget : (forgetClosedOffer w st o).knownSuppliers = st.knownSuppliers ∧
          (forgetClosedOffer w st o).seenTransactions = st.seenTransactions := by
        unfold forgetClosedOffer
        split <;> exact ⟨rfl, rfl⟩
      rw [List.foldl_cons, (ih _).1, (ih _).2]
      exact hforget

/-- **A call reads the transactions of its world**, whatever it decides. -/
theorem Learned.choose {p : Policy} {env : ChooseEnv} {action : Option Decision}
    (h : Learned w.selfStationId read st)
    (hchoose : BaseStrategy.choose p env st w = .ok (st', action)) :
    Learned w.selfStationId (read ++ w.transactions) st' := by
  have hlearned := h.learnTransactions env.clock w.transactions
  obtain ⟨hknown, hseen⟩ := forgetClosedOffers_roster (w := w) w.offers
    (w.transactions.foldl (BaseStrategy.learnTransaction env.clock w) st)
  have hentered : ∀ s : StrategyState, (s.enterTick w).knownSuppliers = s.knownSuppliers ∧
      (s.enterTick w).seenTransactions = s.seenTransactions := by
    intro s
    unfold StrategyState.enterTick
    split <;> exact ⟨rfl, rfl⟩
  obtain ⟨notes, rfl⟩ := choose_state hchoose
  apply hlearned.congr
  · exact ((hentered _).1).trans hknown
  · exact ((hentered _).2).trans hseen

end Learning

/-! ### The roster over a run -/

section Run

variable {p : Policy} {n : Nat} {us : String} {st : StrategyState} {r : Resource}
  {calls before after : List (WorldView × Option Decision)}

theorem transactionsRead_snoc (calls : List (WorldView × Option Decision))
    (call : WorldView × Option Decision) :
    transactionsRead (calls ++ [call]) = transactionsRead calls ++ call.1.transactions := by
  simp [transactionsRead]

theorem OneSession.of_append (h : OneSession us (before ++ after)) : OneSession us before := by
  constructor
  · exact fun call hcall => h.station call (List.mem_append_left _ hcall)
  · apply h.ids.mono
    intro tx htx
    obtain ⟨call, hcall, htx⟩ := List.mem_flatMap.mp htx
    exact List.mem_flatMap.mpr ⟨call, List.mem_append_left _ hcall, htx⟩

theorem run_learned (hrun : Run (Consults p) { sentTotal := n } calls st)
    (hstation : ∀ call ∈ calls, call.1.selfStationId = us) :
    Learned us (transactionsRead calls) st := by
  revert hstation
  apply hrun.traceInvariant
    (P := fun calls st => (∀ call ∈ calls, call.1.selfStationId = us) →
      Learned us (transactionsRead calls) st)
  · intro _
    exact ⟨marks_nil _, fun station r => by simp [transactionsRead]⟩
  · rintro calls st call st' - ih hcall hstation
    have hlearned := ih fun c hc => hstation c (List.mem_append_left _ hc)
    have hus := hstation call (by simp)
    rw [transactionsRead_snoc]
    cases hcall with
    | call hknown hseen hchoose =>
        subst hus
        exact (hlearned.congr hknown hseen).choose hchoose

theorem mem_confirmedSuppliersOf {station : String} :
    station ∈ confirmedSuppliersOf st r ↔ (station, r) ∈ st.knownSuppliers := by
  unfold confirmedSuppliersOf
  simp only [Finset.mem_image, Finset.mem_filter, Prod.exists, exists_and_right, exists_eq_right]

/-- The roster is that of the transactions read. -/
theorem coe_confirmedSuppliersOf (hrun : Run (Consults p) { sentTotal := n } calls st)
    (hsession : OneSession us calls) (r : Resource) :
    (confirmedSuppliersOf st r : Set String) =
      deliverers us {tx | tx ∈ transactionsRead calls} r := by
  ext station
  rw [Finset.mem_coe, mem_confirmedSuppliersOf, (run_learned hrun hsession.station).known]
  apply exists_congr
  intro tx
  rw [mem_firsts hsession.ids]
  rfl

/-- A purchase goes to a confirmed supplier, if the resource has one. -/
theorem purchase_trusted {env : ChooseEnv} {st₀ : StrategyState} {w : WorldView} {d : Decision}
    {runId rid : String} {body : OfferBody} (h : choose p env st₀ w = .ok (st, some d))
    (hmessage : d.message = .offer runId rid body) (hreceive : 0 < quantity body.receive r) :
    confirmedSuppliersOf st r = ∅ ∨ body.recipientId ∈ confirmedSuppliersOf st r := by
  have hmove := (Strategy.learning_decided h).move
  generalize d.key = key at hmove
  rw [hmessage] at hmove
  cases hmove with
  | @purchase _ ad need payment _ _ hbuy =>
      have hreceived : quantity (bundleOf need (purchaseAmount p st w need payment)) r ≠ 0 :=
        hreceive.ne'
      rw [quantity_bundleOf] at hreceived
      obtain ⟨rfl, -⟩ := ite_ne_right_iff.mp hreceived
      exact hbuy.trusted
  | gift _ _ _ =>
      have hreceived : 0 < quantity Bundle.zero r := hreceive
      rw [quantity_zero] at hreceived
      exact absurd hreceived (Nat.lt_irrefl 0)

/-- **The supplier roster over a whole run**, of any sequence of calls in one session. -/
structure SupplierRoster (p : Policy) (us : String)
    (calls : List (WorldView × Option Decision)) (st : StrategyState) : Prop where
  suppliers : ∀ r, (confirmedSuppliersOf st r : Set String) =
    deliverers us {tx | tx ∈ transactionsRead calls} r
  onlyTheSet : ∀ (m : Nat) (others : List (WorldView × Option Decision)) (st' : StrategyState),
    Run (Consults p) { sentTotal := m } others st' → OneSession us others →
    (∀ tx, tx ∈ transactionsRead others ↔ tx ∈ transactionsRead calls) →
    ∀ r, confirmedSuppliersOf st' r = confirmedSuppliersOf st r
  purchases : ∀ (before after : List (WorldView × Option Decision)) (w : WorldView) (d : Decision)
      (runId rid : String) (body : OfferBody) (r : Resource),
    calls = before ++ (w, some d) :: after → d.message = .offer runId rid body →
    0 < quantity body.receive r →
    (deliverers us {tx | tx ∈ transactionsRead (before ++ [(w, some d)])} r).Nonempty →
    body.recipientId ∈ deliverers us {tx | tx ∈ transactionsRead (before ++ [(w, some d)])} r

/-- **The roster is the set of stations that delivered**, and purchases go to it. -/
theorem supplier_roster (hrun : Run (Consults p) { sentTotal := n } calls st)
    (hsession : OneSession us calls) : SupplierRoster p us calls st := by
  constructor
  · exact coe_confirmedSuppliersOf hrun hsession
  · intro m others st' hother hothers hsame r
    have hset : {tx | tx ∈ transactionsRead others} = {tx | tx ∈ transactionsRead calls} :=
      Set.ext hsame
    rw [← Finset.coe_inj, coe_confirmedSuppliersOf hrun hsession,
      coe_confirmedSuppliersOf hother hothers, hset]
  · intro before after w d runId rid body r hcalls hmessage hreceive hsupplier
    subst hcalls
    obtain ⟨s, t, hbefore, hcall⟩ := hrun.exists_before
    have hfront : OneSession us (before ++ [(w, some d)]) := by
      rw [← List.singleton_append, ← List.append_assoc] at hsession
      exact hsession.of_append
    have hroster := coe_confirmedSuppliersOf (.next hbefore hcall) hfront r
    rw [← hroster] at hsupplier ⊢
    cases hcall with
    | call _ _ hchoose =>
        rcases purchase_trusted hchoose hmessage hreceive with hnone | htrusted
        · rw [hnone, Finset.coe_empty] at hsupplier
          exact absurd hsupplier Set.not_nonempty_empty
        · exact htrusted

end Run

/-- The sample snapshot after `P02` delivered food, on an offer of its own. -/
def deliveredSample : WorldView :=
  { WorldView.sample with
    transactions := [⟨"trade-1", "offer-0", "P02", "P01", { food := 2 }, {}, 0⟩] }

/-- Two calls on the snapshot after the delivery, whatever they return. -/
theorem supplier_roster_sample : ∃ calls st,
    calls.map Prod.fst = [deliveredSample, deliveredSample] ∧
      Run (Consults policy) { sentTotal := 0 } calls st ∧ SupplierRoster policy "P01" calls st := by
  obtain ⟨⟨st₁, first⟩, hfirst⟩ := choose_isOk policy .sample {} deliveredSample
  obtain ⟨⟨st₂, second⟩, hsecond⟩ := choose_isOk policy .sample st₁ deliveredSample
  have hrun : Run (Consults policy) { sentTotal := 0 }
      [(deliveredSample, first), (deliveredSample, second)] st₂ :=
    .next (.next .start (.call rfl rfl hfirst)) (.call rfl rfl hsecond)
  have hsession : OneSession "P01" [(deliveredSample, first), (deliveredSample, second)] := by
    constructor
    · simp [deliveredSample, WorldView.sample]
    · rintro tx htx tx' htx' -
      have honly : ∀ t ∈ transactionsRead [(deliveredSample, first), (deliveredSample, second)],
          t = ⟨"trade-1", "offer-0", "P02", "P01", { food := 2 }, {}, 0⟩ := by
        simp [transactionsRead, deliveredSample]
      rw [honly tx htx, honly tx' htx']
  exact ⟨_, st₂, rfl, hrun, supplier_roster hrun hsession⟩

end BaseStrategy

end PlanetCharlu
