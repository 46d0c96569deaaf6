import PlanetCharlu.Strategies
import PlanetCharlu.Lib.KeyedList
import PlanetCharlu.Lib.Runs

/-!
# The market around a strategy

A run as the strategy meets it: the server's book of offers, our inventory, and
the one command of ours that may still be on its way. A decision is made on a
snapshot of the current state while nothing is on its way. Its command takes
effect later or not at all, and in between peers settle and post offers and ticks
pass.

The strategy's own state (attempts, learned suppliers, latencies) is arbitrary at
every call of `choose`. What is proved about runs therefore does not depend on how
the runner feeds it, and a run of the real strategy object is one of these runs.

Everything later invariants need to know about offers is in `slots`: the terms of
our open unexpired offers, together with those of an offer on its way. The lemmas
`slots_…` say what each step does to it.
-/

namespace PlanetCharlu

open KeyedList Runs

/-- What is fixed in a run: the strategy, our station, what all snapshots have in
common, and what a tick may make of the inventory. -/
structure Setting where
  strategy : Strategy
  stationId : String
  fixed : WorldView → Prop
  turnover : Bundle → Bundle → Prop

structure Market where
  tick : Nat
  inventory : Bundle
  book : List Offer
  inFlight : Option ClientMessage

/-- An open unexpired offer of ours. -/
def liveFrom (stationId : String) (tick : Nat) (o : Offer) : Bool :=
  o.isOpen && o.proposedBy stationId && !o.isExpiredBy tick

theorem liveFrom_eq_true {stationId : String} {tick : Nat} {o : Offer} :
    liveFrom stationId tick o = true ↔
      o.status = .OPEN ∧ o.proposerId = stationId ∧ tick < o.expiresTick := by
  simp only [liveFrom, Offer.proposedBy, Bool.and_eq_true, Offer.isOpen_iff, beq_iff_eq,
    Bool.not_eq_true', Offer.isExpiredBy_eq_false, and_assoc]

namespace Market

def outgoing (stationId : String) (m : Market) : List Offer :=
  m.book.filter (liveFrom stationId m.tick)

/-- What our open unexpired offers promise away. -/
def committed (stationId : String) (m : Market) : Bundle :=
  WorldView.committedIn (m.outgoing stationId)

end Market

/-- `w` is a snapshot of `m`. Closed offers may have left the board, and the
server lists the open ones in any order. -/
structure Snapshot (P : Setting) (m : Market) (w : WorldView) : Prop where
  tick : w.tick = m.tick
  station : w.selfStationId = P.stationId
  inventory : w.self.inventory = m.inventory
  board : (w.offers.filter Offer.isOpen).Perm (m.book.filter Offer.isOpen)
  fixed : P.fixed w

/-! ### What can happen -/

def setStatus (offerId : String) (status : OfferStatus) (book : List Offer) : List Offer :=
  updateAt Offer.offerId offerId (fun o => { o with status }) book

/-- A tick closes the offers whose expiry it reaches. -/
def expire (tick : Nat) (book : List Offer) : List Offer :=
  book.map fun o => if o.isOpen && o.isExpiredBy tick then { o with status := .EXPIRED } else o

/-- The exchange moves `pay` out of the inventory and `get` into it. -/
def Exchanges (before after pay get : Bundle) : Prop :=
  ∀ r, quantity after r + quantity pay r = quantity before r + quantity get r

inductive Event where
  | chooses (w : WorldView) (action : Option Decision)
  | rejected
  | posted (o : Offer)
  | accepted (o : Offer)
  | withdrawn (offerId : String)
  | peerAccepts (o : Offer)
  | peerPosts (o : Offer)
  | peerCloses (offerId : String)
  | ticks

inductive Step (P : Setting) : Market → Event → Market → Prop where
  | chooses {m : Market} {w : WorldView} {env : ChooseEnv} {st st' : StrategyState}
      {action : Option Decision} (hfree : m.inFlight = none) (hsnap : Snapshot P m w)
      (hchoose : P.strategy.choose env st w = .ok (st', action)) :
      Step P m (.chooses w action) { m with inFlight := action.map Decision.message }
  -- Also an advertisement that takes effect: it changes nothing of the market.
  | rejected {m : Market} : Step P m .rejected { m with inFlight := none }
  | posted {m : Market} {o : Offer} {runId rid : String} {body : OfferBody}
      (hours : m.inFlight = some (.offer runId rid body)) (hnew : o.offerId ∉ m.book.map Offer.offerId)
      (hopen : o.status = .OPEN) (hproposer : o.proposerId = P.stationId)
      (hrecipient : o.recipientId = body.recipientId) (hgive : o.give = body.give)
      (hreceive : o.receive = body.receive) (hexpires : o.expiresTick = body.expiresTick) :
      Step P m (.posted o) { m with book := m.book ++ [o], inFlight := none }
  | accepted {m : Market} {o : Offer} {runId rid : String} {after : Bundle}
      (hours : m.inFlight = some (.accept runId rid o.offerId)) (ho : o ∈ m.book)
      (hopen : o.status = .OPEN) (hrecipient : o.recipientId = P.stationId)
      (hexchange : Exchanges m.inventory after o.receive o.give) :
      Step P m (.accepted o)
        { m with inventory := after, book := setStatus o.offerId .ACCEPTED m.book, inFlight := none }
  | withdrawn {m : Market} {runId rid offerId : String}
      (hours : m.inFlight = some (.withdraw runId rid offerId)) :
      Step P m (.withdrawn offerId)
        { m with book := setStatus offerId .WITHDRAWN m.book, inFlight := none }
  | peerAccepts {m : Market} {o : Offer} {after : Bundle} (ho : o ∈ m.outgoing P.stationId)
      (hexchange : Exchanges m.inventory after o.give o.receive) :
      Step P m (.peerAccepts o)
        { m with inventory := after, book := setStatus o.offerId .ACCEPTED m.book }
  | peerPosts {m : Market} {o : Offer} (hnew : o.offerId ∉ m.book.map Offer.offerId)
      (hforeign : o.proposerId ≠ P.stationId) :
      Step P m (.peerPosts o) { m with book := m.book ++ [o] }
  | peerCloses {m : Market} {offerId : String} {status : OfferStatus} (hclosed : status ≠ .OPEN)
      (hforeign : ∀ o ∈ m.book, o.offerId = offerId → o.proposerId ≠ P.stationId) :
      Step P m (.peerCloses offerId) { m with book := setStatus offerId status m.book }
  | ticks {m : Market} {after : Bundle} (hturnover : P.turnover m.inventory after) :
      Step P m .ticks
        { m with tick := m.tick + 1, inventory := after, book := expire (m.tick + 1) m.book }

/-- A run starts with nothing on its way and no open offer of ours. -/
structure Fresh (P : Setting) (m : Market) : Prop where
  noCommand : m.inFlight = none
  noOffers : ∀ o ∈ m.book, o.proposerId = P.stationId → o.status ≠ .OPEN
  ids : (m.book.map Offer.offerId).Nodup

/-! ### Snapshots show the outgoing offers -/

section Snapshots

variable {P : Setting} {m : Market} {w : WorldView}

theorem Snapshot.outgoing_perm (h : Snapshot P m w) :
    w.outgoing.Perm (m.outgoing P.stationId) := by
  have hopen : ∀ offers : List Offer,
      offers.filter (liveFrom P.stationId m.tick) =
        (offers.filter Offer.isOpen).filter (liveFrom P.stationId m.tick) := by
    intro offers
    rw [List.filter_filter]
    apply List.filter_congr
    intro o _
    cases hstatus : o.isOpen with
    | true => rw [Bool.and_true]
    | false => rw [liveFrom, hstatus, Bool.false_and, Bool.false_and, Bool.and_false]
  have hview : w.outgoing = w.offers.filter (liveFrom P.stationId m.tick) := by
    rw [WorldView.outgoing, WorldView.openOffersFromMe, List.filter_filter, h.station, h.tick]
    apply List.filter_congr
    intro o _
    rw [liveFrom, Bool.and_comm]
  rw [hview, Market.outgoing, hopen w.offers, hopen m.book]
  exact h.board.filter _

theorem Snapshot.committed_eq (h : Snapshot P m w) : w.committed = m.committed P.stationId := by
  apply Bundle.ext_quantity
  intro r
  rw [WorldView.committed, Market.committed, WorldView.quantity_committedIn,
    WorldView.quantity_committedIn]
  exact (h.outgoing_perm.map _).sum_eq

theorem Snapshot.mem_book (h : Snapshot P m w) {o : Offer} (ho : o ∈ w.openOffersToMe) :
    o ∈ m.book := by
  rw [WorldView.mem_openOffersToMe] at ho
  obtain ⟨hmem, hopen, -⟩ := ho
  have hboard : o ∈ w.offers.filter Offer.isOpen :=
    List.mem_filter.mpr ⟨hmem, (Offer.isOpen_iff o).mpr hopen⟩
  exact (List.mem_filter.mp (h.board.mem_iff.mp hboard)).1

end Snapshots

/-! ### What an offer command may say -/

/-- The checks behind every posting path, of every strategy. -/
structure Addressed (w : WorldView) (body : OfferBody) : Prop where
  foreign : body.recipientId ≠ w.selfStationId
  idle : body.recipientId ∉ w.busy
  room : w.outgoing.length < w.rules.maxOpenOutgoingOffers

theorem addressed_of_decided {s : Strategy} {st : StrategyState} {w : WorldView} {d : Decision}
    {runId rid : String} {body : OfferBody} (h : s.Decided st w d)
    (hmessage : d.message = .offer runId rid body) : Addressed w body := by
  have hmove := h.move
  rw [hmessage] at hmove
  generalize d.key = key at hmove
  have hlearning : ∀ p, BaseStrategy.Move p st w key (.offer runId rid body) →
      Addressed w body := by
    intro p hp
    cases hp with
    | purchase hsafe hcan hpurchase =>
        exact ⟨hpurchase.eligible.foreign, hpurchase.eligible.idle, hcan.room⟩
    | gift hsafe hcan hgift => exact ⟨hgift.eligible.foreign, hgift.eligible.idle, hcan.room⟩
  cases s with
  | base => exact hlearning _ hmove
  | restrained => exact hlearning _ hmove
  | simplified =>
      cases hmove with
      | refill hsafe hcan hrefill =>
          exact ⟨hrefill.eligible.foreign, hrefill.eligible.idle, hcan.room⟩
      | gift hsafe hcan hgift => exact ⟨hgift.eligible.foreign, hgift.eligible.idle, hcan.room⟩

/-- An accept names an open offer directed to us. -/
theorem accepts_incoming {s : Strategy} {st : StrategyState} {w : WorldView} {d : Decision}
    {runId rid offerId : String} (h : s.Decided st w d)
    (hmessage : d.message = .accept runId rid offerId) :
    ∃ o ∈ w.openOffersToMe, o.offerId = offerId := by
  have hmove := h.move
  rw [hmessage] at hmove
  generalize d.key = key at hmove
  have hlearning : ∀ p, BaseStrategy.Move p st w key (.accept runId rid offerId) →
      ∃ o ∈ w.openOffersToMe, o.offerId = offerId := by
    intro p hp
    cases hp with
    | @accept _ o hsafe ho => exact ⟨o, ho.incoming, rfl⟩
  cases s with
  | base => exact hlearning _ hmove
  | restrained => exact hlearning _ hmove
  | simplified =>
      cases hmove with
      | @accept _ o hsafe ho => exact ⟨o, ho.incoming, rfl⟩

/-! ### The slots -/

def bodyOf (o : Offer) : OfferBody where
  recipientId := o.recipientId
  give := o.give
  receive := o.receive
  expiresTick := o.expiresTick

namespace Market

/-- The offer on its way, while its deadline has not passed. -/
def pendingOffer (m : Market) : List OfferBody :=
  match m.inFlight with
  | some (.offer _ _ body) => if m.tick < body.expiresTick then [body] else []
  | _ => []

/-- The terms of our open unexpired offers, and of an offer on its way. -/
def slots (stationId : String) (m : Market) : List OfferBody :=
  m.pendingOffer ++ (m.outgoing stationId).map bodyOf

end Market

/-- What later invariants rely on about the book itself. -/
structure WellFormed (P : Setting) (m : Market) : Prop where
  ids : (m.book.map Offer.offerId).Nodup
  foreign : ∀ o ∈ m.book, o.status = .OPEN → o.proposerId = P.stationId →
    o.recipientId ≠ P.stationId
  offering : ∀ runId rid body, m.inFlight = some (.offer runId rid body) →
    body.recipientId ≠ P.stationId
  accepting : ∀ runId rid offerId, m.inFlight = some (.accept runId rid offerId) →
    offerId ∈ m.book.map Offer.offerId

theorem Fresh.wellFormed {P : Setting} {m : Market} (h : Fresh P m) : WellFormed P m := by
  refine ⟨h.ids, ?_, ?_, ?_⟩
  · intro o ho hopen hours
    exact absurd hopen (h.noOffers o ho hours)
  · intro runId rid body hflight
    rw [h.noCommand] at hflight
    cases hflight
  · intro runId rid offerId hflight
    rw [h.noCommand] at hflight
    cases hflight

/-! ### What each step does to the book -/

/-- `o` is `o₀` at a later time. -/
structure SameTerms (o o₀ : Offer) : Prop where
  id : o.offerId = o₀.offerId
  body : bodyOf o = bodyOf o₀
  proposer : o.proposerId = o₀.proposerId
  notReopened : o.status = .OPEN → o₀.status = .OPEN

theorem SameTerms.refl (o : Offer) : SameTerms o o := ⟨rfl, rfl, rfl, fun h => h⟩

/-- A later book: no offer is gone, and an old one has its old terms. -/
structure Continues (book book' : List Offer) : Prop where
  ids : ∀ x ∈ book.map Offer.offerId, x ∈ book'.map Offer.offerId
  terms : ∀ o ∈ book', o.offerId ∉ book.map Offer.offerId ∨ ∃ o₀ ∈ book, SameTerms o o₀

section Book

variable {P : Setting} {m m' : Market} {e : Event} {book : List Offer} {offerId : String}
  {status : OfferStatus} {tick : Nat}

theorem Continues.refl (book : List Offer) : Continues book book := by
  refine ⟨fun x hx => hx, ?_⟩
  intro o ho
  exact Or.inr ⟨o, ho, SameTerms.refl o⟩

theorem Continues.append {new : Offer} (hnew : new.offerId ∉ book.map Offer.offerId) :
    Continues book (book ++ [new]) := by
  constructor
  · intro x hx
    rw [List.map_append]
    exact List.mem_append_left _ hx
  · intro o ho
    rcases List.mem_append.mp ho with hold | hlast
    · exact Or.inr ⟨o, hold, SameTerms.refl o⟩
    · rw [List.mem_singleton] at hlast
      subst hlast
      exact Or.inl hnew

theorem map_offerId_setStatus :
    (setStatus offerId status book).map Offer.offerId = book.map Offer.offerId :=
  map_key_updateAt fun _ => rfl

theorem Continues.setStatus (hclosed : status ≠ .OPEN) :
    Continues book (setStatus offerId status book) := by
  constructor
  · intro x hx
    rw [map_offerId_setStatus]
    exact hx
  · intro o ho
    obtain ⟨o₀, ho₀, rfl⟩ := List.mem_map.mp ho
    refine Or.inr ⟨o₀, ho₀, ?_⟩
    by_cases hid : o₀.offerId = offerId
    · rw [if_pos hid]
      refine ⟨rfl, rfl, rfl, ?_⟩
      intro hopen
      exact absurd hopen hclosed
    · rw [if_neg hid]
      exact SameTerms.refl o₀

theorem map_offerId_expire : (expire tick book).map Offer.offerId = book.map Offer.offerId := by
  rw [expire, List.map_map]
  apply List.map_congr_left
  intro o _
  rw [Function.comp_apply]
  split <;> rfl

theorem Continues.expire : Continues book (expire tick book) := by
  constructor
  · intro x hx
    rw [map_offerId_expire]
    exact hx
  · intro o ho
    obtain ⟨o₀, ho₀, rfl⟩ := List.mem_map.mp ho
    refine Or.inr ⟨o₀, ho₀, ?_⟩
    by_cases hdue : (o₀.isOpen && o₀.isExpiredBy tick) = true
    · rw [if_pos hdue]
      refine ⟨rfl, rfl, rfl, ?_⟩
      intro hopen
      cases hopen
    · rw [if_neg hdue]
      exact SameTerms.refl o₀

theorem Step.continues (hstep : Step P m e m') : Continues m.book m'.book := by
  cases hstep with
  | chooses hfree hsnap hchoose => exact Continues.refl m.book
  | rejected => exact Continues.refl m.book
  | posted hours hnew => exact Continues.append hnew
  | accepted hours ho => exact Continues.setStatus (by decide)
  | withdrawn hours => exact Continues.setStatus (by decide)
  | peerAccepts ho hexchange => exact Continues.setStatus (by decide)
  | peerPosts hnew hforeign => exact Continues.append hnew
  | peerCloses hclosed hforeign => exact Continues.setStatus hclosed
  | ticks hturnover => exact Continues.expire

theorem Step.ids_nodup (hstep : Step P m e m') (h : (m.book.map Offer.offerId).Nodup) :
    (m'.book.map Offer.offerId).Nodup := by
  have happend : ∀ new : Offer, new.offerId ∉ m.book.map Offer.offerId →
      ((m.book ++ [new]).map Offer.offerId).Nodup := by
    intro new hnew
    rw [List.map_append, List.nodup_append]
    refine ⟨h, List.nodup_singleton _, ?_⟩
    intro x hx y hy hsame
    rw [List.map_singleton, List.mem_singleton] at hy
    exact hnew (hy ▸ hsame ▸ hx)
  have hset : ∀ (offerId : String) (status : OfferStatus),
      ((setStatus offerId status m.book).map Offer.offerId).Nodup := by
    intro offerId status
    rw [map_offerId_setStatus]
    exact h
  cases hstep with
  | chooses hfree hsnap hchoose => exact h
  | rejected => exact h
  | posted hours hnew => exact happend _ hnew
  | accepted hours ho => exact hset _ _
  | withdrawn hours => exact hset _ _
  | peerAccepts ho hexchange => exact hset _ _
  | peerPosts hnew hforeign => exact happend _ hnew
  | peerCloses hclosed hforeign => exact hset _ _
  | ticks hturnover =>
      rw [map_offerId_expire]
      exact h

/-- A command on its way was either just decided or on its way before. -/
theorem Step.inFlight (hstep : Step P m e m') :
    m'.inFlight = none ∨ m'.inFlight = m.inFlight ∨
      ∃ w env st st' d, Snapshot P m w ∧ P.strategy.choose env st w = .ok (st', some d) ∧
        m' = { m with inFlight := some d.message } := by
  cases hstep with
  | @chooses w env st st' action hfree hsnap hchoose =>
      cases action with
      | none => exact Or.inl rfl
      | some d => exact Or.inr (Or.inr ⟨w, env, st, st', d, hsnap, hchoose, rfl⟩)
  | rejected => exact Or.inl rfl
  | posted hours hnew => exact Or.inl rfl
  | accepted hours ho => exact Or.inl rfl
  | withdrawn hours => exact Or.inl rfl
  | peerAccepts ho hexchange => exact Or.inr (Or.inl rfl)
  | peerPosts hnew hforeign => exact Or.inr (Or.inl rfl)
  | peerCloses hclosed hforeign => exact Or.inr (Or.inl rfl)
  | ticks hturnover => exact Or.inr (Or.inl rfl)

/-- A new offer of ours comes from the command on its way. -/
theorem Step.new_offer (hstep : Step P m e m') {o : Offer} (ho : o ∈ m'.book)
    (hnew : o.offerId ∉ m.book.map Offer.offerId) (hours : o.proposerId = P.stationId) :
    ∃ runId rid, m.inFlight = some (.offer runId rid (bodyOf o)) := by
  have hold : ∀ {x : Offer}, o = x → x ∉ m.book := by
    rintro x rfl hx
    exact hnew (List.mem_map_of_mem hx)
  cases hstep with
  | chooses hfree hsnap hchoose => exact absurd ho (hold rfl)
  | rejected => exact absurd ho (hold rfl)
  | @posted new runId rid body hflight hfresh hopen hproposer hrecipient hgive hreceive hexpires =>
      rcases List.mem_append.mp ho with ho | ho
      · exact absurd ho (hold rfl)
      · rw [List.mem_singleton] at ho
        subst ho
        have hbody : bodyOf o = body := by
          rw [bodyOf, hrecipient, hgive, hreceive, hexpires]
        rw [hbody]
        exact ⟨runId, rid, hflight⟩
  | peerPosts hfresh hforeign =>
      rcases List.mem_append.mp ho with ho | ho
      · exact absurd ho (hold rfl)
      · rw [List.mem_singleton] at ho
        subst ho
        exact absurd hours hforeign
  | accepted hflight hmem =>
      exact absurd (map_offerId_setStatus ▸ List.mem_map_of_mem ho) hnew
  | withdrawn hflight => exact absurd (map_offerId_setStatus ▸ List.mem_map_of_mem ho) hnew
  | peerAccepts hmem hexchange =>
      exact absurd (map_offerId_setStatus ▸ List.mem_map_of_mem ho) hnew
  | peerCloses hclosed hforeign =>
      exact absurd (map_offerId_setStatus ▸ List.mem_map_of_mem ho) hnew
  | ticks hturnover => exact absurd (map_offerId_expire ▸ List.mem_map_of_mem ho) hnew

theorem Step.wellFormed (h : WellFormed P m) (hstep : Step P m e m') : WellFormed P m' := by
  have hcontinues := hstep.continues
  refine ⟨hstep.ids_nodup h.ids, ?_, ?_, ?_⟩
  · intro o ho hopen hours
    rcases hcontinues.terms o ho with hnew | ⟨o₀, ho₀, hsame⟩
    · obtain ⟨runId, rid, hflight⟩ := hstep.new_offer ho hnew hours
      exact h.offering runId rid (bodyOf o) hflight
    · have hrecipient : o.recipientId = o₀.recipientId :=
        congrArg OfferBody.recipientId hsame.body
      rw [hrecipient]
      exact h.foreign o₀ ho₀ (hsame.notReopened hopen) (hsame.proposer ▸ hours)
  · intro runId rid body hflight
    rcases hstep.inFlight with hnone | hkept | ⟨w, env, st, st', d, hsnap, hchoose, rfl⟩
    · rw [hnone] at hflight
      cases hflight
    · rw [hkept] at hflight
      exact h.offering runId rid body hflight
    · have hmessage : d.message = .offer runId rid body := Option.some.inj hflight
      have haddressed := addressed_of_decided (Strategy.choose_decided hchoose) hmessage
      rw [← hsnap.station]
      exact haddressed.foreign
  · intro runId rid offerId hflight
    rcases hstep.inFlight with hnone | hkept | ⟨w, env, st, st', d, hsnap, hchoose, rfl⟩
    · rw [hnone] at hflight
      cases hflight
    · rw [hkept] at hflight
      exact hcontinues.ids offerId (h.accepting runId rid offerId hflight)
    · have hmessage : d.message = .accept runId rid offerId := Option.some.inj hflight
      obtain ⟨o, ho, rfl⟩ := accepts_incoming (Strategy.choose_decided hchoose) hmessage
      exact List.mem_map_of_mem (hsnap.mem_book ho)

end Book

/-! ### What each step does to the slots -/

section Slots

variable {P : Setting} {m m' : Market} {o : Offer} {after : Bundle} {offerId : String}
  {status : OfferStatus}

/-- Closing an offer takes it out of the outgoing ones. -/
theorem outgoing_setStatus {stationId : String} (hbook : m'.book = setStatus offerId status m.book)
    (htick : m'.tick = m.tick) (hclosed : status ≠ .OPEN) :
    m'.outgoing stationId = (m.outgoing stationId).filter fun o => o.offerId ≠ offerId := by
  rw [Market.outgoing, Market.outgoing, hbook, htick]
  apply filter_updateAt
  intro o
  rw [← Bool.not_eq_true, liveFrom_eq_true]
  rintro ⟨hopen, -, -⟩
  exact hclosed hopen

/-- The offers a tick closes are those that are no longer outgoing anyway. -/
theorem outgoing_expire {stationId : String} (hbook : m'.book = expire m'.tick m.book) :
    m'.outgoing stationId = m.book.filter (liveFrom stationId m'.tick) := by
  rw [Market.outgoing, hbook]
  apply filter_map_eq
  · intro o _ hlive
    obtain ⟨hopen, hours, hdeadline⟩ := liveFrom_eq_true.mp hlive
    have hnotDue : ¬ (o.isOpen && o.isExpiredBy m'.tick) = true := by
      rw [(Offer.isExpiredBy_eq_false o m'.tick).mpr hdeadline, Bool.and_false]
      exact Bool.false_ne_true
    rw [if_neg hnotDue]
    exact ⟨rfl, hlive⟩
  · intro o _ hdead
    by_cases hdue : (o.isOpen && o.isExpiredBy m'.tick) = true
    · rw [if_pos hdue]
      rfl
    · rw [if_neg hdue]
      exact hdead

/-- An offer that is not an open one of ours can be closed without a trace in the
outgoing ones. -/
theorem outgoing_filter_of_foreign {stationId : String}
    (hforeign : ∀ x ∈ m.book, x.offerId = offerId → x.status = .OPEN → x.proposerId ≠ stationId) :
    ((m.outgoing stationId).filter fun x => x.offerId ≠ offerId) = m.outgoing stationId := by
  rw [List.filter_eq_self]
  intro x hx
  obtain ⟨hbook, hlive⟩ := List.mem_filter.mp hx
  obtain ⟨hopen, hours, -⟩ := liveFrom_eq_true.mp hlive
  rw [decide_eq_true_eq]
  intro hid
  exact hforeign x hbook hid hopen hours

/-- With nothing on its way, the slots are the outgoing offers. -/
theorem slots_of_free {stationId : String} (h : m.inFlight = none) :
    m.slots stationId = (m.outgoing stationId).map bodyOf := by
  rw [Market.slots, Market.pendingOffer, h]
  rfl

theorem Fresh.slots_eq_nil (h : Fresh P m) : m.slots P.stationId = [] := by
  rw [slots_of_free h.noCommand, Market.outgoing, List.map_eq_nil_iff, List.filter_eq_nil_iff]
  intro o ho hlive
  obtain ⟨hopen, hours, -⟩ := liveFrom_eq_true.mp hlive
  exact h.noOffers o ho hours hopen

/-- A market with the same clock, book and command on its way has the same slots. -/
theorem slots_congr {stationId : String} (htick : m'.tick = m.tick)
    (hout : m'.outgoing stationId = m.outgoing stationId) (hflight : m'.inFlight = m.inFlight) :
    m'.slots stationId = m.slots stationId := by
  rw [Market.slots, Market.slots, Market.pendingOffer, Market.pendingOffer, hflight, hout, htick]

theorem slots_rejected {stationId : String} (htick : m'.tick = m.tick) (hbook : m'.book = m.book)
    (hdone : m'.inFlight = none) : (m'.slots stationId).Sublist (m.slots stationId) := by
  have hout : m'.outgoing stationId = m.outgoing stationId := by
    rw [Market.outgoing, Market.outgoing, htick, hbook]
  rw [slots_of_free hdone, hout]
  exact List.sublist_append_right _ _

theorem slots_posted {runId rid : String} {body : OfferBody} (htick : m'.tick = m.tick)
    (hbook : m'.book = m.book ++ [o]) (hdone : m'.inFlight = none)
    (hflight : m.inFlight = some (.offer runId rid body)) (hopen : o.status = .OPEN)
    (hproposer : o.proposerId = P.stationId) (hbody : bodyOf o = body) :
    (m'.slots P.stationId).Perm (m.slots P.stationId) := by
  have hlife : o.expiresTick = body.expiresTick := congrArg OfferBody.expiresTick hbody
  have hnew : ([o].filter (liveFrom P.stationId m.tick)).map bodyOf = m.pendingOffer := by
    rw [Market.pendingOffer, hflight]
    dsimp only
    by_cases hlive : m.tick < body.expiresTick
    · have hkept : liveFrom P.stationId m.tick o = true := by
        rw [liveFrom_eq_true, hlife]
        exact ⟨hopen, hproposer, hlive⟩
      rw [if_pos hlive, List.filter_cons_of_pos hkept, List.filter_nil, List.map_singleton, hbody]
    · have hdropped : ¬ liveFrom P.stationId m.tick o = true := by
        rw [liveFrom_eq_true, hlife]
        exact fun h => hlive h.2.2
      rw [if_neg hlive, List.filter_cons_of_neg hdropped, List.filter_nil, List.map_nil]
  rw [slots_of_free hdone, Market.outgoing, htick, hbook, List.filter_append, List.map_append,
    hnew]
  exact List.perm_append_comm

theorem slots_accepted {runId rid : String} (hwf : WellFormed P m) (htick : m'.tick = m.tick)
    (hbook : m'.book = setStatus o.offerId .ACCEPTED m.book) (hdone : m'.inFlight = none)
    (hflight : m.inFlight = some (.accept runId rid o.offerId)) (ho : o ∈ m.book)
    (hrecipient : o.recipientId = P.stationId) :
    m'.slots P.stationId = m.slots P.stationId := by
  have hforeign : ∀ x ∈ m.book, x.offerId = o.offerId → x.status = .OPEN →
      x.proposerId ≠ P.stationId := by
    intro x hx hid hopen hours
    have hsame : x = o := List.inj_on_of_nodup_map hwf.ids hx ho hid
    subst hsame
    exact hwf.foreign x hx hopen hours hrecipient
  have hslots : m.slots P.stationId = (m.outgoing P.stationId).map bodyOf := by
    rw [Market.slots, Market.pendingOffer, hflight]
    rfl
  rw [slots_of_free hdone, hslots, outgoing_setStatus hbook htick (by decide),
    outgoing_filter_of_foreign hforeign]

theorem slots_withdrawn {stationId : String} (htick : m'.tick = m.tick)
    (hbook : m'.book = setStatus offerId .WITHDRAWN m.book) (hdone : m'.inFlight = none) :
    (m'.slots stationId).Sublist (m.slots stationId) := by
  rw [slots_of_free hdone, outgoing_setStatus hbook htick (by decide)]
  exact (List.filter_sublist.map bodyOf).trans (List.sublist_append_right _ _)

theorem slots_peerAccepts (hwf : WellFormed P m) (htick : m'.tick = m.tick)
    (hbook : m'.book = setStatus o.offerId .ACCEPTED m.book) (hflight : m'.inFlight = m.inFlight)
    (ho : o ∈ m.outgoing P.stationId) :
    (m.slots P.stationId).Perm (bodyOf o :: m'.slots P.stationId) := by
  have hids : ((m.outgoing P.stationId).map Offer.offerId).Nodup :=
    hwf.ids.sublist (List.filter_sublist.map Offer.offerId)
  have hpending : m'.pendingOffer = m.pendingOffer := by
    rw [Market.pendingOffer, Market.pendingOffer, hflight, htick]
  have hsplit := (perm_cons_filter_ne hids ho).map bodyOf
  rw [List.map_cons] at hsplit
  rw [Market.slots, Market.slots, hpending, outgoing_setStatus hbook htick (by decide)]
  exact (hsplit.append_left m.pendingOffer).trans List.perm_middle

theorem slots_peerPosts (htick : m'.tick = m.tick) (hbook : m'.book = m.book ++ [o])
    (hflight : m'.inFlight = m.inFlight) (hforeign : o.proposerId ≠ P.stationId) :
    m'.slots P.stationId = m.slots P.stationId := by
  apply slots_congr htick ?_ hflight
  have hdropped : ¬ liveFrom P.stationId m.tick o = true := by
    rw [liveFrom_eq_true]
    exact fun h => hforeign h.2.1
  rw [Market.outgoing, Market.outgoing, htick, hbook, List.filter_append,
    List.filter_cons_of_neg hdropped, List.filter_nil, List.append_nil]

theorem slots_peerCloses (htick : m'.tick = m.tick)
    (hbook : m'.book = setStatus offerId status m.book) (hflight : m'.inFlight = m.inFlight)
    (hclosed : status ≠ .OPEN)
    (hforeign : ∀ o ∈ m.book, o.offerId = offerId → o.proposerId ≠ P.stationId) :
    m'.slots P.stationId = m.slots P.stationId := by
  apply slots_congr htick ?_ hflight
  rw [outgoing_setStatus hbook htick hclosed]
  exact outgoing_filter_of_foreign fun x hx hid _ => hforeign x hx hid

theorem slots_ticks {stationId : String} (htick : m'.tick = m.tick + 1)
    (hbook : m'.book = expire m'.tick m.book) (hflight : m'.inFlight = m.inFlight) :
    (m'.slots stationId).Sublist (m.slots stationId) := by
  have hpending : m'.pendingOffer.Sublist m.pendingOffer := by
    rw [Market.pendingOffer, Market.pendingOffer, hflight, htick]
    split
    · rename_i body hbody
      by_cases hlive : m.tick + 1 < body.expiresTick
      · have hbefore : m.tick < body.expiresTick := by omega
        rw [if_pos hlive, if_pos hbefore]
      · rw [if_neg hlive]
        exact List.nil_sublist _
    · exact List.Sublist.refl _
  rw [Market.slots, Market.slots, outgoing_expire hbook]
  refine hpending.append (List.Sublist.map bodyOf ?_)
  apply List.monotone_filter_right
  intro o hlive
  rw [htick] at hlive
  obtain ⟨hopen, hours, hdeadline⟩ := liveFrom_eq_true.mp hlive
  exact liveFrom_eq_true.mpr ⟨hopen, hours, by omega⟩

/-- Every slot is still open to be collected. -/
theorem slots_live {stationId : String} {body : OfferBody} (h : body ∈ m.slots stationId) :
    m.tick < body.expiresTick := by
  rcases List.mem_append.mp h with hpending | hout
  · unfold Market.pendingOffer at hpending
    split at hpending
    · split_ifs at hpending with hlive
      · rw [List.mem_singleton] at hpending
        rw [hpending]
        exact hlive
      · cases hpending
    · cases hpending
  · obtain ⟨o, ho, rfl⟩ := List.mem_map.mp hout
    exact (liveFrom_eq_true.mp (List.mem_filter.mp ho).2).2.2

end Slots

/-! ### What a step can do, in terms of the slots -/

/-- The steps as later invariants see them: only a decision adds a slot. -/
inductive Effect (P : Setting) (m m' : Market) : Prop where
  | decided {w : WorldView} {env : ChooseEnv} {st st' : StrategyState} {action : Option Decision}
      (hfree : m.inFlight = none) (hsnap : Snapshot P m w)
      (hchoose : P.strategy.choose env st w = .ok (st', action))
      (hafter : m' = { m with inFlight := action.map Decision.message })
  | closed (htick : m'.tick = m.tick) (hstock : m'.inventory = m.inventory)
      (hdone : m'.inFlight = none)
      (hslots : (m'.slots P.stationId).Subperm (m.slots P.stationId))
  | accepted {o : Offer} {runId rid : String} (htick : m'.tick = m.tick)
      (hdone : m'.inFlight = none)
      (hflight : m.inFlight = some (.accept runId rid o.offerId)) (ho : o ∈ m.book)
      (hexchange : Exchanges m.inventory m'.inventory o.receive o.give)
      (hslots : m'.slots P.stationId = m.slots P.stationId)
  | peerAccepts {o : Offer} (htick : m'.tick = m.tick) (hflight : m'.inFlight = m.inFlight)
      (hexchange : Exchanges m.inventory m'.inventory o.give o.receive)
      (hslots : (m.slots P.stationId).Perm (bodyOf o :: m'.slots P.stationId))
  | peers (htick : m'.tick = m.tick) (hstock : m'.inventory = m.inventory)
      (hflight : m'.inFlight = m.inFlight)
      (hslots : m'.slots P.stationId = m.slots P.stationId)
  | ticks (htick : m'.tick = m.tick + 1) (hturnover : P.turnover m.inventory m'.inventory)
      (hflight : m'.inFlight = m.inFlight)
      (hslots : (m'.slots P.stationId).Sublist (m.slots P.stationId))

theorem Step.effect {P : Setting} {m m' : Market} {e : Event} (hwf : WellFormed P m)
    (hstep : Step P m e m') : Effect P m m' := by
  cases hstep with
  | chooses hfree hsnap hchoose => exact .decided hfree hsnap hchoose rfl
  | rejected =>
      refine .closed rfl rfl rfl (List.Sublist.subperm ?_)
      exact slots_rejected rfl rfl rfl
  | posted hflight hnew hopen hproposer hrecipient hgive hreceive hexpires =>
      refine .closed rfl rfl rfl (List.Perm.subperm ?_)
      refine slots_posted rfl rfl rfl hflight hopen hproposer ?_
      rw [bodyOf, hrecipient, hgive, hreceive, hexpires]
  | accepted hflight ho hopen hrecipient hexchange =>
      refine .accepted rfl rfl hflight ho hexchange ?_
      exact slots_accepted hwf rfl rfl rfl hflight ho hrecipient
  | withdrawn hflight =>
      refine .closed rfl rfl rfl (List.Sublist.subperm ?_)
      exact slots_withdrawn rfl rfl rfl
  | peerAccepts ho hexchange =>
      refine .peerAccepts rfl rfl hexchange ?_
      exact slots_peerAccepts hwf rfl rfl rfl ho
  | peerPosts hnew hforeign =>
      refine .peers rfl rfl rfl ?_
      exact slots_peerPosts rfl rfl rfl hforeign
  | peerCloses hclosed hforeign =>
      refine .peers rfl rfl rfl ?_
      exact slots_peerCloses rfl rfl rfl hclosed hforeign
  | ticks hturnover =>
      refine .ticks rfl hturnover rfl ?_
      exact slots_ticks rfl rfl rfl

/-! ### A short run -/

/-- The market of the sample snapshot, and what it is once the refill was posted. -/
def Market.sample : Market where
  tick := 0
  inventory := WorldView.sample.self.inventory
  book := []
  inFlight := none

def Market.samplePosted : Market := { Market.sample with book := [.sample] }

theorem run_samplePosted {P : Setting} (hstrategy : P.strategy = .simplified)
    (hstation : P.stationId = "P01") (hfixed : P.fixed .sample) :
    Fresh P .sample ∧ Run (Step P) .sample
      [.chooses .sample (some .refillSample), .posted .sample] .samplePosted := by
  obtain ⟨strategy, stationId, fixed, turnover⟩ := P
  dsimp only at hstrategy hstation hfixed
  subst hstrategy hstation
  constructor
  · refine ⟨rfl, ?_, List.nodup_nil⟩
    intro o ho
    cases ho
  · obtain ⟨st', hchoose⟩ := Strategy.exists_state_of_decisionOf Strategy.decisionOf_refillSample
    have hdecided := Run.start.next (Step.chooses
      (P := ⟨.simplified, "P01", fixed, turnover⟩) (m := Market.sample) rfl
      ⟨rfl, rfl, rfl, List.Perm.refl _, hfixed⟩ hchoose)
    have hnew : Offer.sample.offerId ∉ Market.sample.book.map Offer.offerId := by
      simp [Market.sample]
    exact hdecided.next (Step.posted rfl hnew rfl rfl rfl rfl rfl rfl)

end PlanetCharlu
