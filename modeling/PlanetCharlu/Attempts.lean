import PlanetCharlu.Codec

/-!
# Strategy state and attempt accounting (`strategy.py`, shared part)

The fields of `BaseStrategy.__init__`, the decision filter, the gate both
`choose` bodies start with, and `record`. All three strategies share them.

`choose` also reads four things that are not in the snapshot or in the
strategy: a fresh request id, the iteration order of a Python set, the clock, and
how long the protobuf runtime makes a message. They are the fields of `ChooseEnv`,
so a theorem about every `ChooseEnv` holds for every hash seed, every clock and
every encoding.
-/

namespace PlanetCharlu

/-- The decision keys. Each stands for the string `Key.text` gives. -/
inductive Key where
  | partner (stationId : String)
  | accept (offerId : String)
  | withdraw (offerId : String)
  | advertise
deriving DecidableEq, Repr

def Key.text : Key → String
  | .partner stationId => "partner:" ++ stationId
  | .accept offerId => "accept:" ++ offerId
  | .withdraw offerId => "withdraw:" ++ offerId
  | .advertise => "advertise"

/-- Different keys are different strings, so a set of keys behaves as the
source's set of strings. -/
theorem Key.text_injective : Function.Injective Key.text := by
  intro a b h
  have hlist : a.text.toList = b.text.toList := congrArg String.toList h
  clear h
  cases a <;> cases b <;> simp [Key.text] at hlist ⊢
  all_goals exact String.toList_injective hlist

structure Decision where
  key : Key
  reason : String
  message : ClientMessage
deriving DecidableEq, Repr

/-- `request_id` of whichever arm of the message is set. -/
def Decision.requestId (d : Decision) : String := d.message.requestId?.getD ""

/-- The order in which a Python set of resources is iterated: some arrangement
of all resources, from which a given set takes its own members. -/
structure IterationOrder where
  items : List Resource
  perm : items.Perm RESOURCES

def IterationOrder.iterate (order : IterationOrder) (s : Finset Resource) : List Resource :=
  order.items.filter (· ∈ s)

@[simp] theorem IterationOrder.mem_iterate {order : IterationOrder} {s : Finset Resource}
    {r : Resource} : r ∈ order.iterate s ↔ r ∈ s := by
  simp [IterationOrder.iterate, order.perm.mem_iff]

/-- What a call of `choose` reads besides the strategy and the snapshot. The encoded length
is `len(codec.encode_client_message(message))`. -/
structure ChooseEnv where
  requestId : String
  order : IterationOrder
  clock : Transaction → ℚ
  encodedLength : ClientMessage → Nat

structure StrategyState where
  tick : Int := -1
  attempted : Finset Key := ∅
  sentThisTick : Nat := 0
  sentTotal : Nat := 0
  retryTick : Nat := 0
  partnerTurn : String → Option Nat := fun _ => none
  lastAdTick : Int := -100
  knownSuppliers : Finset (String × Resource) := ∅
  seenTransactions : Finset String := ∅
  latencies : List ℚ := []
  pendingTradeTimes : String → Option ℚ := fun _ => none
  lastOfferReview : List (Offer × String) := []

/-- `frozenset(r for r in RESOURCES if p(r))`. -/
def resourceSet (p : Resource → Bool) : Finset Resource := Finset.univ.filter fun r => p r

@[simp] theorem mem_resourceSet {p : Resource → Bool} {r : Resource} :
    r ∈ resourceSet p ↔ p r = true := by
  simp [resourceSet]

namespace StrategyState

/-- `max(self.sent_total, len(world.request_results))`. -/
def usedRecords (st : StrategyState) (w : WorldView) : Nat :=
  max st.sentTotal w.requestResults.length

/-- `if self.tick != world.tick: …`, at the head of both `choose` bodies. -/
def enterTick (st : StrategyState) (w : WorldView) : StrategyState :=
  if st.tick ≠ w.tick then
    { st with tick := w.tick, attempted := ∅, sentThisTick := 0 }
  else st

/-- The conditions under which both `choose` bodies return `None` at once. -/
def gateClosed (st : StrategyState) (w : WorldView) : Bool :=
  !w.isRunning || w.self.health == 0 || w.self.failedOnce ||
    decide (w.tick < st.retryTick) ||
    decide (st.sentThisTick ≥ w.rules.newCommandsPerStationPerTick) ||
    decide (st.usedRecords w ≥ w.rules.maxRequestRecordsPerStation)

/-- The inner function `decision` of both `choose` bodies. -/
def decision (st : StrategyState) (env : ChooseEnv) (w : WorldView) (key : Key)
    (reason : String) (message : ClientMessage) : Option Decision :=
  if key ∈ st.attempted ∨ env.encodedLength message > w.rules.maxCommandBytes then none
  else some { key, reason, message }

def observeLatency (st : StrategyState) (seconds : ℚ) : StrategyState :=
  if 0 ≤ seconds then { st with latencies := (st.latencies ++ [seconds]).rtake 32 } else st

def record (st : StrategyState) (d : Decision) : StrategyState :=
  let st := { st with
    attempted := insert d.key st.attempted
    sentThisTick := st.sentThisTick + 1
    sentTotal := st.sentTotal + 1 }
  let st := match d.key with
    | .partner stationId =>
        { st with partnerTurn := Function.update st.partnerTurn stationId (some st.sentTotal) }
    | _ => st
  match d.key with
  | .advertise => { st with lastAdTick := st.tick }
  | _ => st

section Record

variable (st : StrategyState) (d : Decision)

@[simp] theorem record_tick : (st.record d).tick = st.tick := by
  unfold record; cases d.key <;> rfl

@[simp] theorem record_attempted : (st.record d).attempted = insert d.key st.attempted := by
  unfold record; cases d.key <;> rfl

@[simp] theorem record_sentThisTick : (st.record d).sentThisTick = st.sentThisTick + 1 := by
  unfold record; cases d.key <;> rfl

@[simp] theorem record_sentTotal : (st.record d).sentTotal = st.sentTotal + 1 := by
  unfold record; cases d.key <;> rfl

@[simp] theorem record_retryTick : (st.record d).retryTick = st.retryTick := by
  unfold record; cases d.key <;> rfl

end Record

/-- What an open gate guarantees. -/
structure GateOpen (st : StrategyState) (w : WorldView) : Prop where
  running : w.phase = .RUNNING
  healthy : w.self.health ≠ 0
  neverFailed : w.self.failedOnce = false
  backoff : st.retryTick ≤ w.tick
  perTick : st.sentThisTick < w.rules.newCommandsPerStationPerTick
  lifetime : st.usedRecords w < w.rules.maxRequestRecordsPerStation

theorem gateClosed_eq_false {st : StrategyState} {w : WorldView} :
    st.gateClosed w = false ↔ st.GateOpen w := by
  constructor
  · intro h
    simp only [gateClosed, Bool.or_eq_false_iff, Bool.not_eq_false', beq_eq_false_iff_ne,
      decide_eq_false_iff_not, WorldView.isRunning, beq_iff_eq, not_lt, ge_iff_le,
      not_le] at h
    obtain ⟨⟨⟨⟨⟨hrun, hhealth⟩, hfailed⟩, hretry⟩, htick⟩, htotal⟩ := h
    exact ⟨hrun, hhealth, hfailed, hretry, htick, htotal⟩
  · rintro ⟨hrun, hhealth, hfailed, hretry, htick, htotal⟩
    simp only [gateClosed, WorldView.isRunning, hrun, hfailed]
    simp only [Bool.or_eq_false_iff, decide_eq_false_iff_not, beq_eq_false_iff_ne]
    refine ⟨⟨⟨⟨⟨rfl, hhealth⟩, trivial⟩, ?_⟩, ?_⟩, ?_⟩ <;> omega

theorem decision_eq_some {st : StrategyState} {env : ChooseEnv} {w : WorldView} {key : Key}
    {reason : String} {message : ClientMessage} {d : Decision}
    (h : st.decision env w key reason message = some d) :
    d = { key, reason, message } ∧ key ∉ st.attempted ∧
      env.encodedLength message ≤ w.rules.maxCommandBytes := by
  unfold decision at h
  split at h
  · cases h
  · rename_i hfilter
    rw [not_or, not_lt] at hfilter
    simp only [Option.some.injEq] at h
    exact ⟨h.symm, hfilter.1, hfilter.2⟩

end StrategyState

end PlanetCharlu
