import PlanetCharlu.Attempts
import PlanetCharlu.Lib.SeenSet

/-!
# The structured run log (`structured_log.py`)

One record for each event of a run, in the order of the writes. The schema version and
the wall-clock time of a record are left out, and so is the rendered page, which is
another file. `RunLog` remembers the ids of the transactions it has logged.
-/

namespace PlanetCharlu

open SeenSet

/-! ### Records -/

/-- What `_message_fields` takes from a command. -/
inductive SentFields where
  | offer (recipientId : String) (give receive : Bundle) (expiresTick : Nat)
  | accept (offerId : String)
  | withdraw (objectId : String)
  | advertise (selling seeking : List String) (expiresTick : Nat)
  | other (command : String)
deriving DecidableEq, Repr

def ClientMessage.fields : ClientMessage → SentFields
  | .offer _ _ body => .offer body.recipientId body.give body.receive body.expiresTick
  | .accept _ _ offerId => .accept offerId
  | .withdraw _ _ objectId => .withdraw objectId
  | .advertise _ _ body =>
      .advertise (body.selling.map Resource.value) (body.seeking.map Resource.value)
        body.expiresTick
  | .sync _ => .other "sync"

/-- What `describe` shows of an open offer, from our own side. -/
structure OpenTerms where
  offerId : String
  counterparty : String
  weGive : Bundle
  weReceive : Bundle
  expiresTick : Nat
deriving DecidableEq, Repr

inductive LogEvent where
  | runStarted (runId mode selfStationId specialty : String)
      (durationTicks tickDurationMs maxRequestRecordsPerStation : Nat)
      (startingInventory upkeepPerTick : Bundle)
  | tickSnapshot (phase : Phase) (tickDurationMs health : Nat)
      (inventory lastProduction lastUnmetUpkeep : Bundle)
      (currentShortageStreak openOffersFromMe openOffersToMe activeAdvertisements : Nat)
      (budgetUsed budgetMax : Nat)
  | offersOpen (outgoing incoming : List OpenTerms)
  | offerPassed (offerId counterparty : String) (weWouldGive weWouldReceive : Bundle)
      (reason : String)
  | decision (key kind reason requestId : String) (sent : SentFields)
  | commandResult (key requestId : String) (ok : Bool) (code : ResultCode)
      (objectId transactionId : Option String) (retryAfterTick : Option Nat)
  | transactionSettled (transactionId offerId counterparty : String) (weGave weReceived : Bundle)
  | tradeTiming (requestId : String) (elapsedSeconds : ℚ)
      (tickDurationMs reserveTicks targetTicks : Nat)
  | runEnded (reason : String) (phase : Phase) (health : Nat) (failedOnce : Bool)
      (finalInventory : Bundle) (transactionCount : Nat)
deriving DecidableEq

structure LogRecord where
  tick : Nat
  event : LogEvent
deriving DecidableEq

def LogRecord.isEnd (x : LogRecord) : Bool :=
  match x.event with
  | .runEnded _ _ _ _ _ _ => true
  | _ => false

def LogRecord.isSettled (x : LogRecord) : Bool :=
  match x.event with
  | .transactionSettled _ _ _ _ _ => true
  | _ => false

structure RunLog where
  records : List LogRecord := []
  seenTransactions : Finset String := ∅

namespace RunLog

/-! ### The methods -/

section Methods

variable (log : RunLog) (world : WorldView)

def write (tick : Nat) (event : LogEvent) : RunLog :=
  { log with records := log.records ++ [⟨tick, event⟩] }

def runStarted (mode : String) : RunLog :=
  log.write world.tick
    (.runStarted world.runId mode world.selfStationId world.self.specialty.value
      world.rules.durationTicks world.rules.tickDurationMs
      world.rules.maxRequestRecordsPerStation world.self.inventory world.self.upkeepPerTick)

def tickSnapshot (sentTotal : Nat) : RunLog :=
  log.write world.tick
    (.tickSnapshot world.phase world.rules.tickDurationMs world.self.health world.self.inventory
      world.self.lastProduction world.self.lastUnmetUpkeep world.self.currentShortageStreak
      world.openOffersFromMe.length world.openOffersToMe.length
      (world.advertisements.countP fun a => a.isActive && !a.isExpiredBy world.tick)
      sentTotal world.rules.maxRequestRecordsPerStation)

/-- A partner command is a gift or the search for a trade, by the text of its reason. -/
def kindOf (key : Key) (reason : String) : String :=
  match key with
  | .partner _ => if reason.startsWith "share surplus" then "gift" else "seek_trade"
  | .accept _ => "accept"
  | .withdraw _ => "withdraw"
  | .advertise => "advertise"

def decision (action : Decision) : RunLog :=
  log.write world.tick
    (.decision action.key.text (kindOf action.key action.reason) action.reason action.requestId
      action.message.fields)

def commandResult (key : Key) (outcome : CommandOutcome) : RunLog :=
  log.write world.tick
    (.commandResult key.text outcome.requestId outcome.ok outcome.code outcome.objectId
      outcome.transactionId outcome.retryAfterTick)

def describe (selfId : String) (offer : Offer) : OpenTerms :=
  let (other, weGive, weReceive) := offer.relativeTo selfId
  ⟨offer.offerId, other, weGive, weReceive, offer.expiresTick⟩

/-- Nothing is written where nothing is open. -/
def offersSnapshot : RunLog :=
  let outgoing := world.openOffersFromMe.filter fun o => !o.isExpiredBy world.tick
  let incoming := world.openOffersToMe.filter fun o => !o.isExpiredBy world.tick
  if outgoing = [] ∧ incoming = [] then log
  else
    log.write world.tick
      (.offersOpen (outgoing.map (describe world.selfStationId))
        (incoming.map (describe world.selfStationId)))

def offerPassed (offer : Offer) (reason : String) : RunLog :=
  let (other, weWouldGive, weWouldReceive) := offer.relativeTo world.selfStationId
  log.write world.tick (.offerPassed offer.offerId other weWouldGive weWouldReceive reason)

/-- `_run_trading` logs what the review of the last call passed on. -/
def offersPassed (review : List (Offer × String)) : RunLog :=
  review.foldl
    (fun log entry =>
      if entry.2 ≠ "accepted" then log.offerPassed world entry.1 entry.2 else log) log

/-- `_log_transaction`, as a record: the transaction from our side. -/
def settledRecord (selfStationId : String) (tx : Transaction) : LogRecord :=
  let (counterparty, weGave, weReceived) := tx.relativeTo selfStationId
  ⟨tx.settledTick,
    .transactionSettled tx.transactionId tx.offerId counterparty weGave weReceived⟩

/-- One iteration of the loop of `transactions_settled`. -/
def settleTransaction (selfStationId : String) (log : RunLog) (tx : Transaction) : RunLog :=
  if tx.transactionId ∈ log.seenTransactions ∨ tx.involves selfStationId = false then log
  else
    { records := log.records ++ [settledRecord selfStationId tx]
      seenTransactions := insert tx.transactionId log.seenTransactions }

def transactionsSettled : RunLog :=
  world.transactions.foldl (settleTransaction world.selfStationId) log

def tradeTiming (requestId : String) (elapsed : ℚ) (reserveTicks targetTicks : Nat) : RunLog :=
  log.write world.tick
    (.tradeTiming requestId elapsed world.rules.tickDurationMs reserveTicks targetTicks)

/-- The transactions of a snapshot that involve its station. -/
def involving : List Transaction :=
  world.transactions.filter fun tx => tx.involves world.selfStationId

def runEnded (reason : String) : RunLog :=
  log.write world.tick
    (.runEnded reason world.phase world.self.health world.self.failedOnce world.self.inventory
      (involving world).length)

end Methods

/-! ### Records that neither settle a trade nor end the run -/

/-- The later log has more records, none of which settles a trade or ends the run. -/
structure Notes (log later : RunLog) : Prop where
  seen : later.seenTransactions = log.seenTransactions
  records : ∃ more, later.records = log.records ++ more ∧
    ∀ x ∈ more, x.isEnd = false ∧ x.isSettled = false

section Notes

variable {log later last : RunLog} (world : WorldView)

theorem Notes.refl (log : RunLog) : Notes log log := ⟨rfl, [], by simp, by simp⟩

theorem Notes.trans (h : Notes log later) (h' : Notes later last) : Notes log last := by
  obtain ⟨hseen, more, hmore, hquiet⟩ := h
  obtain ⟨hseen', more', hmore', hquiet'⟩ := h'
  refine ⟨hseen'.trans hseen, more ++ more', ?_, ?_⟩
  · rw [hmore', hmore, List.append_assoc]
  · intro x hx
    rcases List.mem_append.mp hx with hx | hx
    · exact hquiet x hx
    · exact hquiet' x hx

theorem notes_write (log : RunLog) (tick : Nat) {event : LogEvent}
    (hend : (LogRecord.mk tick event).isEnd = false)
    (hsettled : (LogRecord.mk tick event).isSettled = false) :
    Notes log (log.write tick event) := by
  refine ⟨rfl, [⟨tick, event⟩], rfl, ?_⟩
  intro x hx
  rw [List.mem_singleton.mp hx]
  exact ⟨hend, hsettled⟩

theorem notes_tickSnapshot (log : RunLog) (sentTotal : Nat) :
    Notes log (log.tickSnapshot world sentTotal) := notes_write log _ rfl rfl

theorem notes_offersSnapshot (log : RunLog) : Notes log (log.offersSnapshot world) := by
  unfold offersSnapshot
  dsimp only
  split
  · exact .refl log
  · exact notes_write log _ rfl rfl

theorem notes_offersPassed (log : RunLog) (review : List (Offer × String)) :
    Notes log (log.offersPassed world review) := by
  induction review generalizing log with
  | nil => exact .refl log
  | cons entry rest ih =>
      refine Notes.trans ?_ (ih _)
      dsimp only
      split
      · exact notes_write log _ rfl rfl
      · exact .refl log

theorem notes_decision (log : RunLog) (action : Decision) :
    Notes log (log.decision world action) := notes_write log _ rfl rfl

theorem notes_commandResult (log : RunLog) (key : Key) (outcome : CommandOutcome) :
    Notes log (log.commandResult world key outcome) := notes_write log _ rfl rfl

theorem notes_tradeTiming (log : RunLog) (requestId : String) (elapsed : ℚ)
    (reserveTicks targetTicks : Nat) :
    Notes log (log.tradeTiming world requestId elapsed reserveTicks targetTicks) :=
  notes_write log _ rfl rfl

end Notes

/-! ### What `transactions_settled` has logged -/

/-- The transactions that were read are logged: each that involves us once, at its first
occurrence, and their ids are remembered. -/
structure Settles (us : String) (read : List Transaction) (log : RunLog) : Prop where
  seen : Marks Transaction.transactionId (read.filter fun tx => tx.involves us)
    log.seenTransactions
  records : log.records.filter LogRecord.isSettled =
    (firsts Transaction.transactionId (read.filter fun tx => tx.involves us)).map
      (settledRecord us)

section Settles

variable {us : String} {read : List Transaction} {log later : RunLog}

/-- Other records change nothing. -/
theorem Settles.notes (h : Settles us read log) (hnotes : Notes log later) :
    Settles us read later := by
  obtain ⟨hseen, more, hmore, hquiet⟩ := hnotes
  have hnone : more.filter LogRecord.isSettled = [] := by
    rw [List.filter_eq_nil_iff]
    intro x hx
    simp [(hquiet x hx).2]
  constructor
  · rw [hseen]
    exact h.seen
  · rw [hmore, List.filter_append, hnone, List.append_nil]
    exact h.records

theorem Settles.settleTransaction (h : Settles us read log) (tx : Transaction) :
    Settles us (read ++ [tx]) (RunLog.settleTransaction us log tx) := by
  by_cases hinvolved : tx.involves us = true
  · have hread : (read ++ [tx]).filter (fun tx => tx.involves us) =
        (read.filter fun tx => tx.involves us) ++ [tx] := by
      simp [hinvolved]
    by_cases hold : tx.transactionId ∈ log.seenTransactions
    · have hskip : RunLog.settleTransaction us log tx = log := if_pos (Or.inl hold)
      obtain ⟨hseen, hfirsts⟩ := h.seen.skip hold
      rw [hskip]
      refine ⟨by rwa [hread], ?_⟩
      rw [hread, hfirsts]
      exact h.records
    · have hnew : ¬(tx.transactionId ∈ log.seenTransactions ∨ tx.involves us = false) := by
        simp [hold, hinvolved]
      obtain ⟨hseen, hfirsts⟩ := h.seen.mark hold
      unfold RunLog.settleTransaction
      rw [if_neg hnew]
      refine ⟨by rwa [hread], ?_⟩
      rw [hread, hfirsts, List.filter_append, List.map_append, h.records]
      rfl
  · have hskip : RunLog.settleTransaction us log tx = log :=
      if_pos (Or.inr (by simpa using hinvolved))
    have hread : (read ++ [tx]).filter (fun tx => tx.involves us) =
        read.filter fun tx => tx.involves us := by
      simp [hinvolved]
    rw [hskip]
    refine ⟨?_, ?_⟩
    · rw [hread]
      exact h.seen
    · rw [hread]
      exact h.records

/-- **A call logs what the snapshot has that was not logged.** -/
theorem Settles.transactionsSettled {world : WorldView} (h : Settles world.selfStationId read log) :
    Settles world.selfStationId (read ++ world.transactions) (log.transactionsSettled world) := by
  unfold RunLog.transactionsSettled
  generalize world.transactions = transactions
  induction transactions generalizing read log with
  | nil => simpa using h
  | cons tx rest ih =>
      have hrest := ih (h.settleTransaction tx)
      rwa [List.append_assoc, List.singleton_append] at hrest

/-- The end of the run settles nothing. -/
theorem Settles.runEnded (h : Settles us read log) (world : WorldView) (reason : String) :
    Settles us read (log.runEnded world reason) := by
  refine ⟨h.seen, ?_⟩
  unfold RunLog.runEnded write
  rw [List.filter_append, h.records]
  exact List.append_nil _

theorem settles_nil (us : String) : Settles us [] {} := ⟨marks_nil _, rfl⟩

end Settles

/-- `transactions_settled` does not end the run. -/
theorem ends_transactionsSettled (log : RunLog) (world : WorldView) :
    (log.transactionsSettled world).records.filter LogRecord.isEnd =
      log.records.filter LogRecord.isEnd := by
  unfold transactionsSettled
  generalize world.transactions = transactions
  induction transactions generalizing log with
  | nil => rfl
  | cons tx rest ih =>
      rw [List.foldl_cons, ih, settleTransaction]
      split
      · rfl
      · rw [List.filter_append]
        exact List.append_nil _

end RunLog

end PlanetCharlu
