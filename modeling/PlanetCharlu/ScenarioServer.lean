import PlanetCharlu.Scenario

/-!
# The other side of the guided exercise (`validator/README.md`, `test_scenario.py`)

The server of the exercise reads one message at a time, in the order of the guide, and
answers each: a command with its result and the snapshots that follow, the command beyond
the limit with a `protocol_error`, and `sync` with a snapshot. What the client has sent and
what the server has sent are two queues, and each side takes from its own when it likes.
The connection stands, and no deadline passes.
-/

namespace PlanetCharlu

/-- What a server of the exercise says. Its pushes are numbered from 1, which is the state
that the client begins with. -/
structure ScenarioServer where
  runId : String
  advertisementId : String
  offerId : String
  giftId : String
  result : ScenarioStep → Wire.Result
  push : Nat → Wire.State
  world : Nat → WorldView
  result_ok : ∀ x, (result x).ok = true
  result_requestId : ∀ x, (result x).requestId = x.requestId
  result_advertisement : (result .step3).objectId.toOption = some advertisementId
  result_offer : (result (.step4 advertisementId)).objectId.toOption = some offerId
  push_reads : ∀ n ∈ Finset.Icc 1 9, WorldView.fromState (push n) = .ok (world n)
  world_runId : ∀ n ∈ Finset.Icc 1 9, (world n).runId = runId
  world_sequence : ∀ n ∈ Finset.Icc 1 9, (world n).snapshotSequence = n
  world_version : ∀ n ∈ Finset.Icc 1 9, (world n).worldVersion = min (n + 1) 9
  world_running : ∀ n ∈ Finset.Icc 1 9, (world n).isRunning = true
  /-- Pushes 5 and 6 show the offer accepted, and push 6 the gift. -/
  world_gifted : ∀ n ∈ Finset.Icc 3 6,
    (ScenarioWait.gifted advertisementId offerId).predicate (world n) = decide (n = 6)
  world_gift : ((world 6).openOffersToMe.find? Offer.isGift).map Offer.offerId = some giftId

/-- The commands of the exercise, as stages of the exchange. -/
inductive Leg where
  | step2
  | step3
  | step4
  | step7
  | step8
  | step9
deriving DecidableEq, Repr

namespace Leg

/-- Its place among the messages of the client. -/
def index : Leg → Nat
  | .step2 => 0
  | .step3 => 1
  | .step4 => 2
  | .step7 => 3
  | .step8 => 4
  | .step9 => 5

/-- The last push before it, and the last one that follows it. -/
def first : Leg → Nat
  | .step2 => 1
  | .step3 => 2
  | .step4 => 3
  | .step7 => 6
  | .step8 => 7
  | .step9 => 8

def last : Leg → Nat
  | .step2 => 2
  | .step3 => 3
  | .step4 => 6
  | .step7 => 7
  | .step8 => 8
  | .step9 => 8

end Leg

namespace ScenarioServer

variable (S : ScenarioServer)

def step : Leg → ScenarioStep
  | .step2 => .step2
  | .step3 => .step3
  | .step4 => .step4 S.advertisementId
  | .step7 => .step7 S.advertisementId S.giftId
  | .step8 => .step8 S.advertisementId
  | .step9 => .step9

/-- The pushes after number `n`, up to number `last`. -/
def pushes (n last : Nat) : List ServerMessage :=
  (List.range' (n + 1) (last - n)).map fun i => .state (S.push i)

def error : Wire.ProtocolError where
  requestId := ⟨false, ScenarioStep.step9.requestId⟩
  code := .REQUEST_CAPACITY_EXCEEDED
  closeSession := false

def answer (leg : Leg) : ServerMessage :=
  if leg = .step9 then .protocolError error else .result (S.result (S.step leg))

def replies (leg : Leg) : List ServerMessage := S.answer leg :: S.pushes leg.first leg.last

/-- The messages that the server waits for, each with what it answers. -/
def turns : List (ClientMessage × List ServerMessage) :=
  [.step2, .step3, .step4, .step7, .step8, .step9].map
    (fun leg => ((S.step leg).message S.runId, S.replies leg)) ++
      [(.sync S.runId, S.pushes 8 9)]

def requests : List ClientMessage := S.turns.map Prod.fst

end ScenarioServer

/-! ### The two together -/

structure Exchange where
  client : Scenario
  /-- How many of the client's messages the server has read. -/
  taken : Nat := 0
  /-- What the server has sent and the pump has not read. -/
  inbox : List ServerMessage := []

inductive ExchangeEvent where
  /-- The server reads a message, and answers. -/
  | takes
  /-- The pump reads a message. -/
  | delivers
  | client (e : ScenarioEvent)

/-- The steps of the client's own tasks. -/
def ScenarioEvent.isTask : ScenarioEvent → Bool
  | .session (.sends _) => true
  | .runs _ => true
  | .checks => true
  | .synced => true
  | _ => false

namespace Exchange

def start (S : ScenarioServer) : Exchange where
  client := .start (S.world 1)

/-- The server stops at a message that it does not expect. -/
def step (S : ScenarioServer) (s : Exchange) (event : ExchangeEvent) : Option Exchange :=
  match event with
  | .takes =>
      match s.client.session.sent[s.taken]?, S.turns[s.taken]? with
      | some message, some (request, replies) =>
          if message = request then
            some { s with taken := s.taken + 1, inbox := s.inbox ++ replies }
          else none
      | _, _ => none
  | .delivers =>
      match s.inbox with
      | [] => none
      | message :: inbox =>
          (s.client.step (.session (.arrives message))).map fun client => { s with client, inbox }
  | .client e =>
      if e.isTask then (s.client.step e).map fun client => { s with client } else none

def Step (S : ScenarioServer) (s : Exchange) (event : ExchangeEvent) (t : Exchange) : Prop :=
  s.step S event = some t

end Exchange

/-! ### The server of the tests -/

namespace ScenarioServer

/-- The offers in the push number `n` of the tests. -/
def sampleOffers (n : Nat) : List Wire.Offer :=
  if n = 4 then [Scenario.sampleOffer 1]
  else if n = 5 then [Scenario.sampleOffer 2]
  else if n = 6 then [Scenario.sampleOffer 2, Scenario.sampleGift 1]
  else if n = 7 then [Scenario.sampleOffer 2, Scenario.sampleGift 2]
  else []

def samplePush (n : Nat) : Wire.State := Scenario.samplePush n (min (n + 1) 9) (sampleOffers n)

def sampleWorld (n : Nat) : WorldView :=
  match WorldView.fromState (samplePush n) with
  | .ok w => w
  | .error _ => Scenario.sampleWorld

def sampleResult (x : ScenarioStep) : Wire.Result where
  requestId := x.requestId
  ok := true
  code := .OK
  processedTick := 0
  processedVersion := 0
  objectId :=
    match x with
    | .step3 => ⟨false, "ad-1"⟩
    | .step4 _ => ⟨false, "offer-1"⟩
    | _ => ⟨true, ""⟩
  transactionId := ⟨true, ""⟩
  retryAfterTick := ⟨true, 0⟩

def sample : ScenarioServer where
  runId := "run-1"
  advertisementId := "ad-1"
  offerId := "offer-1"
  giftId := "offer-2"
  result := sampleResult
  push := samplePush
  world := sampleWorld
  result_ok _ := rfl
  result_requestId _ := rfl
  result_advertisement := rfl
  result_offer := rfl
  push_reads := by decide +kernel
  world_runId := by decide +kernel
  world_sequence := by decide +kernel
  world_version := by decide +kernel
  world_running := by decide +kernel
  world_gifted := by decide +kernel
  world_gift := by decide +kernel

end ScenarioServer

namespace Exchange

/-- Each side goes on as soon as it can. -/
def sampleTrace : List ExchangeEvent :=
  let command c pushes : List ExchangeEvent :=
    [.client (.runs c), .takes, .client (.session (.sends c)), .delivers] ++
      List.replicate pushes .delivers ++ [.client (.runs c), .client .checks]
  command 0 1 ++ command 1 1 ++ command 2 3 ++ command 3 1 ++ command 4 1 ++
    [.client (.runs 5), .takes, .client (.session (.sends 5)), .delivers, .client (.runs 5),
      .takes, .client .synced, .delivers, .client .checks, .client (.runs 6)]

theorem run_sampleTrace :
    ∃ s, Runs.Run (Step .sample) (start .sample) sampleTrace s ∧ sampleTrace.length = 47 := by
  have hreplay : (Runs.replay (step .sample) (start .sample) sampleTrace).isSome = true := by
    decide +kernel
  obtain ⟨s, hs⟩ := Option.isSome_iff_exists.mp hreplay
  exact ⟨s, Runs.run_of_replay (fun _ _ _ h => h) hs, rfl⟩

end Exchange

end PlanetCharlu
