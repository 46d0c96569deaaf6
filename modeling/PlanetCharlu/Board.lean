import PlanetCharlu.Attempts

/-!
# The board both `choose` bodies read

The parts of the two `choose` bodies that are the same text in the source: who
is busy with an open offer of ours, which advertisements name an eligible
partner, in which order partners take turns, and our own live listing.
-/

namespace PlanetCharlu

open StableSort

namespace WorldView

/-- `{o.recipient_id for o in outgoing}`. -/
def busy (w : WorldView) : Finset String := (w.outgoing.map Offer.recipientId).toFinset

/-- The filter of the `ads` comprehension. -/
def eligible (w : WorldView) (a : Advertisement) : Bool :=
  a.stationId != w.selfStationId && decide (a.stationId ∉ w.busy) && a.isActive &&
    !a.isExpiredBy w.tick && (w.directory.isEmpty || decide (a.stationId ∈ w.directory))

/-- `[a for a in advertisements if posted_by(us) and active and not expired]`. -/
def ownAds (w : WorldView) : List Advertisement :=
  w.advertisements.filter fun a =>
    a.postedBy w.selfStationId && a.isActive && !a.isExpiredBy w.tick

/-- An advertisement whose station may be sent an offer. -/
structure Eligible (w : WorldView) (a : Advertisement) : Prop where
  listed : a ∈ w.advertisements
  foreign : a.stationId ≠ w.selfStationId
  idle : a.stationId ∉ w.busy
  active : a.status = .ACTIVE
  live : w.tick < a.expiresTick
  known : w.directory = [] ∨ a.stationId ∈ w.directory

theorem mem_busy {w : WorldView} {station : String} :
    station ∈ w.busy ↔ ∃ o ∈ w.outgoing, o.recipientId = station := by
  simp [busy]

end WorldView

namespace StrategyState

/-- `partner_turn.get(a.station_id, -1)`. -/
def turnOf (st : StrategyState) (stationId : String) : Int :=
  match st.partnerTurn stationId with
  | some turn => turn
  | none => -1

/-- The place of an advertisement's station in the rotation. -/
def turnKey (st : StrategyState) (a : Advertisement) : Int ×ₗ String :=
  toLex (st.turnOf a.stationId, a.stationId)

/-- The eligible advertisements, those whose station waited longest first. -/
def ads (st : StrategyState) (w : WorldView) : List Advertisement :=
  sortedBy st.turnKey (w.advertisements.filter w.eligible)

theorem mem_ads {st : StrategyState} {w : WorldView} {a : Advertisement} :
    a ∈ st.ads w ↔ w.Eligible a := by
  simp only [ads, mem_sortedBy, List.mem_filter, WorldView.eligible, Bool.and_eq_true,
    bne_iff_ne, ne_eq, decide_eq_true_eq, Advertisement.isActive, beq_iff_eq,
    Advertisement.isExpiredBy, Bool.not_eq_true', decide_eq_false_iff_not, not_le,
    Bool.or_eq_true, List.isEmpty_iff]
  constructor
  · rintro ⟨hlisted, ⟨⟨⟨hforeign, hidle⟩, hactive⟩, hlive⟩, hknown⟩
    exact ⟨hlisted, hforeign, hidle, hactive, hlive, hknown⟩
  · rintro ⟨hlisted, hforeign, hidle, hactive, hlive, hknown⟩
    exact ⟨hlisted, ⟨⟨⟨hforeign, hidle⟩, hactive⟩, hlive⟩, hknown⟩

theorem pairwise_ads (st : StrategyState) (w : WorldView) :
    (st.ads w).Pairwise fun a b => st.turnKey a ≤ st.turnKey b :=
  pairwise_sortedBy _ _

/-- `decision` lets a command through: the key is new this tick and the message fits. -/
structure Admits (st : StrategyState) (size : ClientMessage → Nat) (w : WorldView) (key : Key)
    (message : ClientMessage) : Prop where
  fresh : key ∉ st.attempted
  fits : size message ≤ w.rules.maxCommandBytes

theorem decision_of_admits {st : StrategyState} {env : ChooseEnv} {w : WorldView} {key : Key}
    {message : ClientMessage} (h : st.Admits env.encodedLength w key message)
    (reason : String) :
    st.decision env w key reason message = some ⟨key, reason, message⟩ := by
  unfold decision
  rw [if_neg (not_or.mpr ⟨h.fresh, not_lt.mpr h.fits⟩)]

/-- Try to accept an incoming offer, and what to note about it. -/
def tryAccept (st : StrategyState) (env : ChooseEnv) (w : WorldView) (o : Offer)
    (reason : String) : Option Decision × String :=
  match st.decision env w (.accept o.offerId) reason
      (Codec.buildAccept w.runId env.requestId o.offerId) with
  | some action => (some action, "accepted")
  | none => (none, "already attempted this tick, or message too large")

theorem admits_of_decision {st : StrategyState} {env : ChooseEnv} {w : WorldView} {key : Key}
    {reason : String} {message : ClientMessage} {d : Decision}
    (h : st.decision env w key reason message = some d) :
    st.Admits env.encodedLength w key message := by
  obtain ⟨-, hfresh, hfits⟩ := decision_eq_some h
  exact ⟨hfresh, hfits⟩

theorem admitted_of_decision {st : StrategyState} {env : ChooseEnv} {w : WorldView} {key : Key}
    {reason : String} {message : ClientMessage} {d : Decision}
    (h : st.decision env w key reason message = some d) :
    st.Admits env.encodedLength w d.key d.message := by
  have hadmits := admits_of_decision h
  obtain ⟨rfl, -⟩ := decision_eq_some h
  exact hadmits

theorem tryAccept_of_admits {env : ChooseEnv} {st : StrategyState} {w : WorldView} {o : Offer}
    (h : st.Admits env.encodedLength w (.accept o.offerId)
      (.accept w.runId env.requestId o.offerId))
    (reason : String) : ∃ d note, st.tryAccept env w o reason = (some d, note) := by
  unfold tryAccept Codec.buildAccept
  rw [decision_of_admits h]
  exact ⟨_, _, rfl⟩

theorem tryAccept_eq_some {env : ChooseEnv} {st : StrategyState} {w : WorldView} {o : Offer}
    {reason note : String} {d : Decision}
    (h : st.tryAccept env w o reason = (some d, note)) :
    d = ⟨.accept o.offerId, reason, .accept w.runId env.requestId o.offerId⟩ ∧
      st.Admits env.encodedLength w d.key d.message := by
  unfold tryAccept at h
  split at h
  · rename_i action haction
    simp only [Prod.mk.injEq, Option.some.injEq] at h
    obtain ⟨rfl, -⟩ := h
    exact ⟨(decision_eq_some haction).1, admitted_of_decision haction⟩
  · cases h

end StrategyState

end PlanetCharlu
