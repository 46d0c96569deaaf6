import PlanetCharlu.ScenarioServer
import PlanetCharlu.ScenarioOrder

/-!
# The guided exercise completes (`scenario.py`, `validator/README.md`)

With a server that answers as the guide says, on a connection that stands and with no
deadline missed, every interleaving of the two sides and of the client's own tasks has the
same end: after 47 steps, and never earlier, nothing can happen any more, and the client has
returned the last snapshot.

The invariant says where the exchange is, and with it how many steps are left.
-/

namespace PlanetCharlu

open Runs

/-! ### A session with one call -/

namespace Session

/-- Only the calls `open` are out. -/
def Others (s : Session) (isOut : CallId → Prop) : Prop :=
  (∀ c call, s.calls c = some call → call.stage.isOpen = true → isOut c) ∧
    ∃ bound, ∀ c, bound ≤ c → s.calls c = none

/-- The pump runs, and no call is out. -/
structure Quiet (s : Session) (w : WorldView) : Prop where
  running : s.pumpError = none
  world : s.world = w
  pending : s.pending = fun _ => none
  others : s.Others fun _ => False

/-- The pump runs, and one call is out. It is registered until it is answered. -/
structure Busy (s : Session) (w : WorldView) (c : CallId) (call : Call) : Prop where
  running : s.pumpError = none
  world : s.world = w
  calls : s.calls c = some call
  isOpen : call.stage.isOpen = true
  wanted : call.cancelling = false
  pending : s.pending =
    if call.future = .waiting then Function.update (fun _ => none) call.requestId (some c)
    else fun _ => none
  others : s.Others (· = c)

variable {s t : Session} {w w' : WorldView} {c c' : CallId} {call : Call} {id : String}
  {m : ClientMessage}

theorem Others.update {isOut isOut' : CallId → Prop} (h : s.Others isOut) {calls' : Option Call}
    (hcalls : t.calls = Function.update s.calls c calls') (hout : ∀ c', isOut c' → c' ≠ c → isOut' c')
    (hc : ∀ call, calls' = some call → call.stage.isOpen = true → isOut' c) : t.Others isOut' := by
  obtain ⟨hopen, bound, hfresh⟩ := h
  refine ⟨?_, max bound (c + 1), ?_⟩
  · intro c' call hcall hstage
    rw [hcalls] at hcall
    by_cases heq : c' = c
    · subst heq
      rw [Function.update_self] at hcall
      exact hc call hcall hstage
    · rw [Function.update_of_ne heq] at hcall
      exact hout c' (hopen c' call hcall hstage) heq
  · intro c' hc'
    have hbounds : bound ≤ c' ∧ c + 1 ≤ c' := max_le_iff.mp hc'
    have hne : c' ≠ c := Nat.ne_of_gt hbounds.2
    rw [hcalls, Function.update_of_ne hne]
    exact hfresh c' hbounds.1

theorem Quiet.exists_fresh (h : s.Quiet w) : ∃ c, s.calls c = none := by
  obtain ⟨-, bound, hfresh⟩ := h.others
  exact ⟨bound, hfresh bound le_rfl⟩

theorem Quiet.begin (h : s.Quiet w) (hrunning : w.isRunning = true) :
    (s.begin c id m).Busy w c { requestId := id, message := m, stage := .sending } ∧
      (s.begin c id m).sent = s.sent ++ [m] := by
  have hbegin : s.begin c id m =
      { s with
        pending := Function.update s.pending id (some c)
        calls := Function.update s.calls c
          (some { requestId := id, message := m, stage := .sending })
        sent := s.sent ++ [m] } := by
    simp [Session.begin, h.running, h.world, hrunning, h.pending]
  rw [hbegin]
  refine ⟨⟨h.running, h.world, Function.update_self _ _ _, rfl, rfl, ?_, ?_⟩, rfl⟩
  · rw [if_pos rfl, h.pending]
  · exact h.others.update rfl (fun _ hfalse _ => hfalse.elim) fun _ _ _ => rfl

/-- The call that is out changes. -/
theorem Busy.change (h : s.Busy w c call) {call' : Call} {pending : String → Option CallId}
    (hopen : call'.stage.isOpen = true) (hwanted : call'.cancelling = false)
    (hpending : pending =
      if call'.future = .waiting then Function.update (fun _ => none) call'.requestId (some c)
      else fun _ => none) :
    Busy { s with pending, calls := Function.update s.calls c (some call') } w c call' :=
  ⟨h.running, h.world, Function.update_self _ _ _, hopen, hwanted, hpending,
    h.others.update rfl (fun _ hout _ => hout) fun _ _ _ => rfl⟩

/-- A send that returns is the one of the call that is out. -/
theorem Busy.sends (h : s.Busy w c call) (hs : s.step (.sends c') = some t) :
    call.stage = .sending ∧ t.Busy w c { call with stage := .awaiting } := by
  cases step_cases hs with
  | @sends _ call' hcall hsending hwanted =>
      have hc : c' = c := h.others.1 c' call' hcall (by rw [hsending]; rfl)
      subst hc
      rw [h.calls] at hcall
      cases hcall
      exact ⟨hsending, h.change rfl h.wanted h.pending⟩

theorem Busy.enabled (h : s.Busy w c call) (hsending : call.stage = .sending) :
    s.step (.sends c) =
      some { s with calls := Function.update s.calls c (some { call with stage := .awaiting }) } := by
  simp [Session.step, h.calls, hsending, h.wanted]

theorem Quiet.not_sends (h : s.Quiet w) : s.step (.sends c') = none := by
  rcases hstep : s.step (.sends c') with _ | t
  · rfl
  · cases step_cases hstep with
    | @sends _ call' hcall hsending hwanted =>
        exact (h.others.1 c' call' hcall (by rw [hsending]; rfl)).elim

/-- The answer of the call that is out. -/
theorem Busy.settle (h : s.Busy w c call) (hwaiting : call.future = .waiting) {f : Future}
    (hf : f ≠ .waiting) : (s.settle call.requestId f).Busy w c { call with future := f } := by
  have hpending : s.pending = Function.update (fun _ => none) call.requestId (some c) := by
    rw [h.pending, if_pos hwaiting]
  have hsettle : s.settle call.requestId f =
      { s with
        pending := fun _ => none
        calls := Function.update s.calls c (some { call with future := f }) } := by
    unfold Session.settle
    rw [hpending, Function.update_self]
    dsimp only
    have hcall : call.settle f = { call with future := f } := if_pos hwaiting
    rw [h.calls, Option.map_some, hcall, Function.update_idem,
      Function.update_eq_self call.requestId (fun _ => none)]
  rw [hsettle]
  exact h.change h.isOpen h.wanted (by rw [if_neg hf])

/-- The call that is out leaves. -/
theorem Busy.finish (h : s.Busy w c call) {stage : Stage} (hclosed : stage.isOpen = false)
    (hdone : call.future ≠ .waiting) : (s.finish c call stage).Quiet w := by
  refine ⟨h.running, h.world, ?_, ?_⟩
  · change Function.update s.pending call.requestId none = fun _ => none
    rw [h.pending, if_neg hdone]
    exact Function.update_eq_self call.requestId (fun _ => none)
  · refine h.others.update rfl (fun c' hout hne => hne hout) ?_
    intro call' hcall' hopen
    cases hcall'
    rw [hclosed] at hopen
    cases hopen

/-- A newer snapshot of the run is taken. -/
theorem receive_newer (hworld : s.world = w) {m : Wire.State}
    (hreads : WorldView.fromState m = .ok w') (hrun : w'.runId = w.runId)
    (hnewer : w.snapshotSequence < w'.snapshotSequence) :
    s.receive (.state m) = { s with world := w' } := by
  obtain ⟨hrunId, hsequence⟩ := WorldView.fromState_eq_ok hreads
  simp only [receive]
  rw [hworld, if_neg (by rw [← hrunId, hrun]; simp), if_neg (by rw [← hsequence]; omega), hreads]

theorem Quiet.deliver (h : s.Quiet w) (w' : WorldView) : Quiet { s with world := w' } w' :=
  ⟨h.running, rfl, h.pending, h.others⟩

theorem Busy.deliver (h : s.Busy w c call) (w' : WorldView) : Busy { s with world := w' } w' c call :=
  ⟨h.running, rfl, h.calls, h.isOpen, h.wanted, h.pending, h.others⟩

end Session

/-! ### The scenario at its places -/

def Leg.next? : Leg → Option Leg
  | .step2 => some .step3
  | .step3 => some .step4
  | .step4 => some .step7
  | .step7 => some .step8
  | .step8 => some .step9
  | .step9 => none

namespace ScenarioServer

variable (S : ScenarioServer)

/-- What the call of a step is completed with. -/
def future (leg : Leg) : Future :=
  if leg = .step9 then .exception (.protocolErrorReceived .REQUEST_CAPACITY_EXCEEDED false)
  else .result (CommandOutcome.fromWire (S.result (S.step leg)))

/-- The wait that follows a step. -/
def wait : Leg → ScenarioWait
  | .step2 => .advertised
  | .step3 => .sought S.advertisementId
  | .step4 => .gifted S.advertisementId S.offerId
  | .step7 => .accepted S.advertisementId
  | .step8 => .withdrawn
  | .step9 => .synced 8

variable {S} {leg : Leg} {n : Nat}

theorem requests_take (leg : Leg) : S.requests.take (leg.index + 1) =
    S.requests.take leg.index ++ [(S.step leg).message S.runId] := by
  cases leg <;> rfl

theorem turns_index (leg : Leg) :
    S.turns[leg.index]? = some ((S.step leg).message S.runId, S.replies leg) := by
  cases leg <;> rfl

theorem future_ne_waiting : S.future leg ≠ .waiting := by
  unfold future
  split_ifs <;> simp

theorem mem_pushes (hfirst : leg.first ≤ n) (hlast : n ≤ leg.last) : n ∈ Finset.Icc 1 9 := by
  rw [Finset.mem_Icc]
  cases leg <;> simp only [Leg.first, Leg.last] at hfirst hlast <;> omega

theorem pushes_of_lt {last : Nat} (h : n < last) :
    S.pushes n last = .state (S.push (n + 1)) :: S.pushes (n + 1) last := by
  have hlength : last - n = last - (n + 1) + 1 := by omega
  rw [pushes, hlength, List.range'_succ]
  rfl

theorem pushes_self : S.pushes n n = [] := by simp [pushes]

/-- A wait ends with the last push of its step. -/
theorem predicate_wait (hleg : leg ≠ .step9) (hfirst : leg.first ≤ n) (hlast : n ≤ leg.last) :
    (S.wait leg).predicate (S.world n) = decide (n = leg.last) := by
  have hversion := S.world_version n (mem_pushes hfirst hlast)
  cases leg with
  | step4 =>
      simp only [Leg.first, Leg.last] at hfirst hlast ⊢
      exact S.world_gifted n (Finset.mem_Icc.mpr ⟨hfirst, hlast⟩)
  | step9 => exact absurd rfl hleg
  | _ =>
      simp only [Leg.first, Leg.last] at hfirst hlast
      simp only [wait, ScenarioWait.predicate, hversion, Leg.last]
      exact decide_eq_decide.mpr (by omega)

end ScenarioServer

namespace Scenario

variable {S : ScenarioServer} {leg : Leg} {s t : Scenario} {w : WorldView} {x : ScenarioStep}
  {c : CallId}

/-- A step is sent. -/
structure Sends (x : ScenarioStep) (c : CallId) (w : WorldView) (s t : Scenario) : Prop where
  pc : t.pc = .sending x c
  runId : t.runId = s.runId
  busy : ∃ call : Call, call.requestId = x.requestId ∧ call.future = .waiting ∧
    call.stage = .sending ∧ t.session.Busy w c call
  sent : t.session.sent = s.session.sent ++ [x.message s.runId]

theorem sends_send (h : s.session.Quiet w) (hrunning : w.isRunning = true) :
    Sends x c w s (s.send x c) := by
  have hbegin : (s.session.begin c x.requestId (x.message s.runId)).Busy w c _ ∧ _ := h.begin hrunning
  obtain ⟨hbusy, hsent⟩ := hbegin
  have hsend : s.send x c = s.ask x c := by
    unfold send
    dsimp only
    have hcall : (s.ask x c).session.calls c = _ := hbusy.calls
    rw [hcall]
    rfl
  rw [hsend]
  exact ⟨rfl, rfl, ⟨_, rfl, rfl, rfl, hbusy⟩, hsent⟩

/-- After a wait the next step is sent. -/
theorem sends_proceed (h : s.session.Quiet (S.world leg.last)) {next : Leg}
    (hnext : leg.next? = some next) :
    Sends (S.step next) c (S.world leg.last) s (s.proceed (S.wait leg) c) := by
  have hrunning : (S.world leg.last).isRunning = true :=
    S.world_running _ (ScenarioServer.mem_pushes (by cases leg <;> decide) le_rfl)
  have hsends : ∀ x, Sends x c (S.world leg.last) s (s.snapshot.send x c) := by
    intro x
    have hquiet : s.snapshot.session.Quiet (S.world leg.last) := h
    have hsent := sends_send (x := x) (c := c) hquiet hrunning
    exact ⟨hsent.pc, hsent.runId, hsent.busy, hsent.sent⟩
  cases leg with
  | step4 =>
      cases hnext
      obtain ⟨gift, hfind, hgift⟩ := Option.map_eq_some_iff.mp S.world_gift
      have hfind' : s.session.world.openOffersToMe.find? Offer.isGift = some gift := by
        rw [h.world]
        exact hfind
      have hproceed : s.proceed (S.wait .step4) c =
          s.snapshot.send (.step7 S.advertisementId S.giftId) c := by
        simp only [ScenarioServer.wait, proceed, hfind', hgift]
      rw [hproceed]
      exact hsends _
  | step9 => cases hnext
  | _ =>
      cases hnext
      exact hsends _

/-- A result of the server leads to the wait of its step. -/
structure Waits (wait : ScenarioWait) (s t : Scenario) : Prop where
  pc : t.pc = .waiting wait
  runId : t.runId = s.runId
  session : t.session = s.session

theorem waits_answer (hleg : leg ≠ .step9) (s : Scenario) :
    Waits (S.wait leg) s
      (s.answer (S.step leg) (CommandOutcome.fromWire (S.result (S.step leg)))) := by
  have hok : ∀ x, (CommandOutcome.fromWire (S.result x)).ok = true := S.result_ok
  cases leg with
  | step2 =>
      simp only [ScenarioServer.step, answer, hok]
      exact ⟨rfl, rfl, rfl⟩
  | step3 =>
      have hobject : (CommandOutcome.fromWire (S.result .step3)).objectId = some S.advertisementId :=
        S.result_advertisement
      simp only [ScenarioServer.step, answer, hok, hobject]
      exact ⟨rfl, rfl, rfl⟩
  | step4 =>
      have hobject : (CommandOutcome.fromWire (S.result (.step4 S.advertisementId))).objectId =
          some S.offerId := S.result_offer
      simp only [ScenarioServer.step, answer, hok, hobject]
      exact ⟨rfl, rfl, rfl⟩
  | step7 =>
      simp only [ScenarioServer.step, answer, hok]
      exact ⟨rfl, rfl, rfl⟩
  | step8 =>
      simp only [ScenarioServer.step, answer, hok]
      exact ⟨rfl, rfl, rfl⟩
  | step9 => exact absurd rfl hleg

end Scenario

/-! ### Where the exchange is -/

/-- How many steps come before a command is sent. -/
def Leg.start : Leg → Nat
  | .step2 => 1
  | .step3 => 8
  | .step4 => 15
  | .step7 => 24
  | .step8 => 31
  | .step9 => 38

/-- A call that has left `connection.send` has done one step. -/
def Stage.steps (stage : Stage) : Nat := if stage = .awaiting then 1 else 0

@[simp] theorem Stage.steps_sending : Stage.steps .sending = 0 := rfl

@[simp] theorem Stage.steps_awaiting : Stage.steps .awaiting = 1 := rfl

namespace Exchange

variable (S : ScenarioServer) (s : Exchange)

/-- The client has sent the first messages of the exercise. -/
structure Sent (count : Nat) : Prop where
  runId : s.client.runId = S.runId
  sent : s.client.session.sent = S.requests.take count

/-- What the server has read and what is on the way. -/
def Server (taken : Nat) (inbox : List ServerMessage) : Prop :=
  s.taken = taken ∧ s.inbox = inbox

/-- Where the exchange is after so many steps. -/
inductive Stands : Nat → Prop where
  | ready (hpc : s.client.pc = .ready) (hquiet : s.client.session.Quiet (S.world 1))
      (hsent : s.Sent S 0) (hserver : s.Server 0 []) : Stands 0
  /-- The command is out, and perhaps read. -/
  | asked {leg : Leg} {c : CallId} {call : Call} {taken : Nat}
      (hpc : s.client.pc = .sending (S.step leg) c)
      (hbusy : s.client.session.Busy (S.world leg.first) c call)
      (hid : call.requestId = (S.step leg).requestId) (hfuture : call.future = .waiting)
      (hsent : s.Sent S (leg.index + 1))
      (hserver : taken = 0 ∧ s.Server leg.index [] ∨
        taken = 1 ∧ s.Server (leg.index + 1) (S.replies leg)) :
      Stands (leg.start + call.stage.steps + taken)
  | answered {leg : Leg} {c : CallId} {call : Call} {pushed : Nat}
      (hpc : s.client.pc = .sending (S.step leg) c)
      (hlast : leg.first + pushed ≤ leg.last)
      (hbusy : s.client.session.Busy (S.world (leg.first + pushed)) c call)
      (hfuture : call.future = S.future leg) (hsent : s.Sent S (leg.index + 1))
      (hserver : s.Server (leg.index + 1) (S.pushes (leg.first + pushed) leg.last)) :
      Stands (leg.start + call.stage.steps + 2 + pushed)
  | waiting {leg : Leg} {pushed : Nat} (hleg : leg ≠ .step9)
      (hpc : s.client.pc = .waiting (S.wait leg)) (hlast : leg.first + pushed ≤ leg.last)
      (hquiet : s.client.session.Quiet (S.world (leg.first + pushed)))
      (hsent : s.Sent S (leg.index + 1))
      (hserver : s.Server (leg.index + 1) (S.pushes (leg.first + pushed) leg.last)) :
      Stands (leg.start + 4 + pushed)
  | seen {leg next : Leg} (hnext : leg.next? = some next)
      (hpc : s.client.pc = .seen (S.wait leg)) (hquiet : s.client.session.Quiet (S.world leg.last))
      (hsent : s.Sent S (leg.index + 1)) (hserver : s.Server (leg.index + 1) []) :
      Stands (next.start - 1)
  /-- The `sync` is out, perhaps read and perhaps answered. -/
  | synchronizing {steps taken pushed : Nat}
      (hpc : steps = 0 ∧ s.client.pc = .syncing 8 ∨ steps = 1 ∧ s.client.pc = .waiting (.synced 8))
      (hquiet : s.client.session.Quiet (S.world (8 + pushed))) (hsent : s.Sent S 7)
      (hserver : taken = 0 ∧ pushed = 0 ∧ s.Server 6 [] ∨
        taken = 1 ∧ pushed ≤ 1 ∧ s.Server 7 (S.pushes (8 + pushed) 9)) :
      Stands (42 + steps + taken + pushed)
  | synced (hpc : s.client.pc = .seen (.synced 8)) (hquiet : s.client.session.Quiet (S.world 9))
      (hsent : s.Sent S 7) (hserver : s.Server 7 []) : Stands 46
  | returned (hpc : s.client.pc = .returned (S.world 9))
      (hquiet : s.client.session.Quiet (S.world 9)) (hsent : s.Sent S 7)
      (hserver : s.Server 7 []) : Stands 47

/-! ### Steps -/

section Steps

variable {S s} {t : Exchange} {k : Nat} {client : Scenario} {session : Session} {c : CallId}
  {message : ClientMessage} {replies inbox : List ServerMessage} {m : ServerMessage}

theorem Sent.unread (h : s.Sent S k) (htaken : s.taken = k) :
    s.client.session.sent[s.taken]? = none := by
  rw [h.sent, htaken]
  simp

theorem Stands.takes (h : s.Stands S k) (hsent : s.client.session.sent[s.taken]? = some message)
    (hturn : S.turns[s.taken]? = some (message, replies)) :
    Stands S { s with taken := s.taken + 1, inbox := s.inbox ++ replies } (k + 1) := by
  have hunread : ∀ {count}, s.Sent S count → s.taken = count → False := by
    intro count hcount htaken
    rw [hcount.unread htaken] at hsent
    cases hsent
  cases h with
  | ready _ _ hcount hserver => exact (hunread hcount hserver.1).elim
  | @asked leg c call taken hpc hbusy hid hfuture hcount hserver =>
      rcases hserver with ⟨rfl, htaken, hinbox⟩ | ⟨-, htaken, -⟩
      · rw [htaken, ScenarioServer.turns_index] at hturn
        cases hturn
        have hread : Server { s with taken := s.taken + 1, inbox := s.inbox ++ S.replies leg }
            (leg.index + 1) (S.replies leg) := by
          refine ⟨congrArg (· + 1) htaken, ?_⟩
          dsimp only
          rw [hinbox, List.nil_append]
        exact .asked hpc hbusy hid hfuture ⟨hcount.runId, hcount.sent⟩ (.inr ⟨rfl, hread⟩)
      · exact (hunread hcount htaken).elim
  | answered _ _ _ _ hcount hserver => exact (hunread hcount hserver.1).elim
  | waiting _ _ _ _ hcount hserver => exact (hunread hcount hserver.1).elim
  | seen _ _ _ hcount hserver => exact (hunread hcount hserver.1).elim
  | @synchronizing steps taken pushed hpc hquiet hcount hserver =>
      rcases hserver with ⟨rfl, rfl, htaken, hinbox⟩ | ⟨-, -, htaken, -⟩
      · have hturns : S.turns[6]? = some (.sync S.runId, S.pushes 8 9) := rfl
        rw [htaken, hturns] at hturn
        cases hturn
        have hread : Server { s with taken := s.taken + 1, inbox := s.inbox ++ S.pushes 8 9 } 7
            (S.pushes 8 9) := by
          refine ⟨congrArg (· + 1) htaken, ?_⟩
          dsimp only
          rw [hinbox, List.nil_append]
        exact @Stands.synchronizing S _ steps 1 0 hpc hquiet ⟨hcount.runId, hcount.sent⟩
          (.inr ⟨rfl, Nat.zero_le 1, hread⟩)
      · exact (hunread hcount htaken).elim
  | synced _ _ hcount hserver => exact (hunread hcount hserver.1).elim
  | returned _ _ hcount hserver => exact (hunread hcount hserver.1).elim

/-- The pump reads what comes. -/
theorem delivers_client (hrunning : s.client.session.pumpError = none)
    (hstep : s.client.step (.session (.arrives m)) = some client) :
    client = { s.client with session := s.client.session.receive m } := by
  simpa [Scenario.step, SessionEvent.isOutside, Session.step, hrunning, eq_comm] using hstep

/-- The answer to the call that is out. -/
theorem receive_answer {leg : Leg} {call : Call} {w : WorldView}
    (hbusy : session.Busy w c call) (hid : call.requestId = (S.step leg).requestId)
    (hfuture : call.future = .waiting) :
    (session.receive (S.answer leg)).Busy w c { call with future := S.future leg } ∧
      (session.receive (S.answer leg)).sent = session.sent := by
  have hreceive : session.receive (S.answer leg) = session.settle call.requestId (S.future leg) := by
    rw [hid]
    by_cases hleg : leg = .step9
    · subst hleg
      simp [ScenarioServer.answer, ScenarioServer.future, Session.receive, ScenarioServer.error,
        ScenarioServer.step, Session.reject]
    · have hrequest : (CommandOutcome.fromWire (S.result (S.step leg))).requestId =
          (S.step leg).requestId := S.result_requestId _
      simp [ScenarioServer.answer, ScenarioServer.future, Session.receive, hleg, Session.resolve,
        hrequest]
  rw [hreceive]
  exact ⟨hbusy.settle hfuture ScenarioServer.future_ne_waiting, Session.settle_sent _ _ _⟩

/-- The next push is newer. -/
theorem receive_push {n : Nat} (hn : n ∈ Finset.Icc 1 9) (hn' : n + 1 ∈ Finset.Icc 1 9)
    (hworld : session.world = S.world n) :
    session.receive (.state (S.push (n + 1))) = { session with world := S.world (n + 1) } := by
  apply Session.receive_newer hworld (S.push_reads _ hn')
  · rw [S.world_runId _ hn, S.world_runId _ hn']
  · rw [S.world_sequence _ hn, S.world_sequence _ hn']
    exact Nat.lt_succ_self n

theorem Stands.delivers (h : s.Stands S k) (hinbox : s.inbox = m :: inbox)
    (hstep : s.client.step (.session (.arrives m)) = some client) :
    Stands S { s with client, inbox } (k + 1) := by
  have hempty : ∀ {taken}, s.Server taken [] → False := by
    intro taken hserver
    rw [hserver.2] at hinbox
    cases hinbox
  cases h with
  | ready _ _ _ hserver => exact (hempty hserver).elim
  | @asked leg c call taken hpc hbusy hid hfuture hsent hserver =>
      rcases hserver with ⟨-, hserver⟩ | ⟨rfl, htaken, hreplies⟩
      · exact (hempty hserver).elim
      · rw [hreplies] at hinbox
        cases hinbox
        obtain rfl := delivers_client hbusy.running hstep
        obtain ⟨hbusy', hsame⟩ := receive_answer hbusy hid hfuture
        have hle : leg.first ≤ leg.last := by cases leg <;> decide
        exact @Stands.answered S _ leg c { call with future := S.future leg } 0 hpc hle hbusy' rfl
          ⟨hsent.runId, hsame.trans hsent.sent⟩ ⟨htaken, rfl⟩
  | @answered leg c call pushed hpc hlast hbusy hfuture hsent hserver =>
      rcases hlast.eq_or_lt with heq | hlt
      · rw [heq, ScenarioServer.pushes_self] at hserver
        exact (hempty hserver).elim
      · rw [hserver.2, ScenarioServer.pushes_of_lt hlt] at hinbox
        cases hinbox
        obtain rfl := delivers_client hbusy.running hstep
        have hn := ScenarioServer.mem_pushes (Nat.le_add_right leg.first pushed) hlast
        have hfirst' : leg.first ≤ leg.first + pushed + 1 := by omega
        have hn' := ScenarioServer.mem_pushes hfirst' (Nat.succ_le_of_lt hlt)
        rw [receive_push hn hn' hbusy.world]
        exact @Stands.answered S _ leg c call (pushed + 1) hpc hlt (hbusy.deliver _) hfuture
          ⟨hsent.runId, hsent.sent⟩ ⟨hserver.1, rfl⟩
  | @waiting leg pushed hleg hpc hlast hquiet hsent hserver =>
      rcases hlast.eq_or_lt with heq | hlt
      · rw [heq, ScenarioServer.pushes_self] at hserver
        exact (hempty hserver).elim
      · rw [hserver.2, ScenarioServer.pushes_of_lt hlt] at hinbox
        cases hinbox
        obtain rfl := delivers_client hquiet.running hstep
        have hn := ScenarioServer.mem_pushes (Nat.le_add_right leg.first pushed) hlast
        have hfirst' : leg.first ≤ leg.first + pushed + 1 := by omega
        have hn' := ScenarioServer.mem_pushes hfirst' (Nat.succ_le_of_lt hlt)
        rw [receive_push hn hn' hquiet.world]
        exact @Stands.waiting S _ leg (pushed + 1) hleg hpc hlt (hquiet.deliver _)
          ⟨hsent.runId, hsent.sent⟩ ⟨hserver.1, rfl⟩
  | seen _ _ _ _ hserver => exact (hempty hserver).elim
  | @synchronizing steps taken pushed hpc hquiet hsent hserver =>
      rcases hserver with ⟨-, -, hserver⟩ | ⟨rfl, hpushed, hserver⟩
      · exact (hempty hserver).elim
      · rcases hpushed.eq_or_lt with rfl | hlt
        · exact (hempty hserver).elim
        · obtain rfl : pushed = 0 := Nat.lt_one_iff.mp hlt
          have hpush : S.pushes 8 9 = [.state (S.push 9)] := rfl
          rw [hserver.2, hpush] at hinbox
          cases hinbox
          obtain rfl := delivers_client hquiet.running hstep
          rw [receive_push (by decide : 8 ∈ Finset.Icc 1 9) (by decide) hquiet.world]
          exact @Stands.synchronizing S _ steps 1 1 hpc (hquiet.deliver _)
            ⟨hsent.runId, hsent.sent⟩ (.inr ⟨rfl, le_rfl, hserver.1, rfl⟩)
  | synced _ _ _ hserver => exact (hempty hserver).elim
  | returned _ _ _ hserver => exact (hempty hserver).elim

/-- `connection.send` returns, in the call of a step. -/
theorem Stands.sends (h : s.Stands S k) (hs : s.client.session.step (.sends c) = some session) :
    Stands S { s with client := { s.client with session } } (k + 1) := by
  have hquiet : ∀ {w}, s.client.session.Quiet w → False := by
    intro w hquiet
    rw [hquiet.not_sends] at hs
    cases hs
  have hsame : session.sent = s.client.session.sent :=
    Session.step_sent hs (Session.not_begins_of_outside rfl)
  cases h with
  | @asked leg c' call taken hpc hbusy hid hfuture hsent hserver =>
      obtain ⟨hsending, hbusy'⟩ := hbusy.sends hs
      have hnext := @Stands.asked S { s with client := { s.client with session } } leg c'
        { call with stage := .awaiting } taken hpc hbusy' hid hfuture
        ⟨hsent.runId, hsame.trans hsent.sent⟩ hserver
      rw [hsending]
      convert hnext using 1
      simp only [Stage.steps_sending, Stage.steps_awaiting]
      omega
  | @answered leg c' call pushed hpc hlast hbusy hfuture hsent hserver =>
      obtain ⟨hsending, hbusy'⟩ := hbusy.sends hs
      have hnext := @Stands.answered S { s with client := { s.client with session } } leg c'
        { call with stage := .awaiting } pushed hpc hlast hbusy' hfuture
        ⟨hsent.runId, hsame.trans hsent.sent⟩ hserver
      rw [hsending]
      convert hnext using 1
      simp only [Stage.steps_sending, Stage.steps_awaiting]
      omega
  | ready _ hquiet' => exact (hquiet hquiet').elim
  | waiting _ _ _ hquiet' => exact (hquiet hquiet').elim
  | seen _ _ hquiet' => exact (hquiet hquiet').elim
  | synchronizing _ hquiet' => exact (hquiet hquiet').elim
  | synced _ hquiet' => exact (hquiet hquiet').elim
  | returned _ hquiet' => exact (hquiet hquiet').elim

/-- A step that is sent has not been read. -/
theorem Stands.of_sends {leg : Leg} (hsends : Scenario.Sends (S.step leg) c (S.world leg.first)
    s.client client) (hsent : s.Sent S leg.index) (hserver : s.Server leg.index []) :
    Stands S { s with client } leg.start := by
  obtain ⟨call, hid, hfuture, hstage, hbusy⟩ := hsends.busy
  have hsteps : leg.start = leg.start + call.stage.steps + 0 := by rw [hstage]; rfl
  rw [hsteps]
  refine .asked hsends.pc hbusy hid hfuture ⟨?_, ?_⟩ (.inl ⟨rfl, hserver⟩)
  · exact hsends.runId.trans hsent.runId
  · calc client.session.sent
        = s.client.session.sent ++ [(S.step leg).message s.client.runId] := hsends.sent
      _ = S.requests.take leg.index ++ [(S.step leg).message S.runId] := by
          rw [hsent.sent, hsent.runId]
      _ = S.requests.take (leg.index + 1) := (ScenarioServer.requests_take leg).symm

/-- The call of a step leaves with its answer. -/
theorem Stands.resumes {leg : Leg} {call : Call} {pushed : Nat}
    (hlast : leg.first + pushed ≤ leg.last)
    (hbusy : s.client.session.Busy (S.world (leg.first + pushed)) c call)
    (hawaiting : call.stage = .awaiting) (hfuture : call.future = S.future leg)
    (hsent : s.Sent S (leg.index + 1))
    (hserver : s.Server (leg.index + 1) (S.pushes (leg.first + pushed) leg.last))
    {stage : Stage} (hexit : Session.exit call = some stage) :
    Stands S
      { s with
        client :=
          { s.client with session := s.client.session.finish c call stage }.leave (S.step leg) stage }
      (leg.start + 4 + pushed) := by
  have hdone : call.future ≠ .waiting := by
    rw [hfuture]
    exact ScenarioServer.future_ne_waiting
  by_cases hleg : leg = .step9
  · subst hleg
    obtain rfl : stage = .raised (.protocolErrorReceived .REQUEST_CAPACITY_EXCEEDED false) := by
      rw [Session.exit, hawaiting, hbusy.wanted, hfuture] at hexit
      exact (Option.some.inj hexit).symm
    have hquiet : (s.client.session.finish c call
        (.raised (.protocolErrorReceived .REQUEST_CAPACITY_EXCEEDED false))).Quiet _ :=
      hbusy.finish rfl hdone
    obtain rfl : pushed = 0 := by
      simp only [Leg.first, Leg.last] at hlast
      omega
    have hworld : s.client.session.world = S.world 8 := hbusy.world
    have hmem : 8 ∈ Finset.Icc 1 9 := by decide
    have hsequence : s.client.session.world.snapshotSequence = 8 := by
      rw [hworld]
      exact S.world_sequence 8 hmem
    refine @Stands.synchronizing S _ 0 0 0 (.inl ⟨rfl, ?_⟩) ?_ ⟨hsent.runId, ?_⟩
      (.inl ⟨rfl, rfl, hserver⟩)
    · change ScenarioPc.syncing s.client.session.world.snapshotSequence = _
      rw [hsequence]
    · exact ⟨hquiet.running, hquiet.world, hquiet.pending, hquiet.others⟩
    · change s.client.session.sent ++ [.sync s.client.session.world.runId] = _
      rw [hsent.sent, hworld, S.world_runId 8 hmem]
      rfl
  · obtain rfl : stage = .returned (CommandOutcome.fromWire (S.result (S.step leg))) := by
      rw [Session.exit, hawaiting, hbusy.wanted, hfuture, ScenarioServer.future, if_neg hleg] at hexit
      exact (Option.some.inj hexit).symm
    have hquiet : (s.client.session.finish c call
        (.returned (CommandOutcome.fromWire (S.result (S.step leg))))).Quiet _ :=
      hbusy.finish rfl hdone
    have hwaits := Scenario.waits_answer (S := S) hleg
      { s.client with
        session := s.client.session.finish c call
          (.returned (CommandOutcome.fromWire (S.result (S.step leg)))) }
    refine .waiting hleg hwaits.pc hlast ?_ ⟨?_, ?_⟩ hserver
    · dsimp only [Scenario.leave]
      rw [hwaits.session]
      exact hquiet
    · exact hwaits.runId.trans hsent.runId
    · dsimp only [Scenario.leave]
      rw [hwaits.session]
      exact hsent.sent

/-- The scenario's task runs. -/
theorem Stands.runs (h : s.Stands S k) (hstep : s.client.step (.runs c) = some client) :
    Stands S { s with client } (k + 1) := by
  cases h with
  | ready hpc hquiet hsent hserver =>
      simp only [Scenario.step, hpc, Option.ite_none_right_eq_some, Option.some.injEq] at hstep
      obtain ⟨-, rfl⟩ := hstep
      have hrunning := S.world_running 1 (by decide)
      have hsends := Scenario.sends_send (x := .step2) (c := c)
        (s := { s.client with log := s.client.log.runStarted s.client.session.world "validation" })
        hquiet hrunning
      have hstep2 : Scenario.Sends (S.step .step2) c (S.world Leg.step2.first) s.client _ :=
        ⟨hsends.pc, hsends.runId, hsends.busy, hsends.sent⟩
      exact Stands.of_sends hstep2 hsent hserver
  | @asked leg c' call taken hpc hbusy hid hfuture hsent hserver =>
      have hexit : Session.exit call = none := by
        unfold Session.exit
        rw [hbusy.wanted, hfuture]
        split <;> rfl
      simp [Scenario.step, hpc, hbusy.calls, hexit] at hstep
  | @answered leg c' call pushed hpc hlast hbusy hfuture hsent hserver =>
      simp only [Scenario.step, hpc, Option.bind_eq_some_iff, Option.map_eq_some_iff] at hstep
      obtain ⟨task, hcall, stage, hexit, rfl⟩ := hstep
      rw [hbusy.calls] at hcall
      cases hcall
      have hawaiting : call.stage = .awaiting := by
        have hwanted := hbusy.wanted
        unfold Session.exit at hexit
        split at hexit
        · rw [hwanted] at hexit
          cases hexit
        · assumption
        · cases hexit
      have hnext := Stands.resumes hlast hbusy hawaiting hfuture hsent hserver hexit
      have hcount : leg.start + call.stage.steps + 2 + pushed + 1 = leg.start + 4 + pushed := by
        rw [hawaiting, Stage.steps_awaiting]
        omega
      rw [hcount, ← hpc]
      exact hnext
  | waiting _ hpc => simp [Scenario.step, hpc] at hstep
  | @seen leg next hnext hpc hquiet hsent hserver =>
      simp only [Scenario.step, hpc, Option.ite_none_right_eq_some, Option.some.injEq] at hstep
      obtain ⟨-, rfl⟩ := hstep
      have hsends := Scenario.sends_proceed (c := c) hquiet hnext
      have hplace : next.first = leg.last ∧ next.index = leg.index + 1 ∧ 0 < next.start := by
        cases leg <;> cases hnext <;> decide
      obtain ⟨hfirst, hindex, hstart⟩ := hplace
      rw [Nat.sub_add_cancel hstart]
      rw [← hfirst] at hsends
      rw [← hindex] at hsent hserver
      exact Stands.of_sends hsends hsent hserver
  | synchronizing hpc =>
      rcases hpc with ⟨-, hpc⟩ | ⟨-, hpc⟩ <;> simp [Scenario.step, hpc] at hstep
  | synced hpc hquiet hsent hserver =>
      simp only [Scenario.step, hpc, Option.ite_none_right_eq_some, Option.some.injEq] at hstep
      obtain ⟨-, rfl⟩ := hstep
      refine .returned ?_ hquiet ⟨hsent.runId, hsent.sent⟩ hserver
      change ScenarioPc.returned s.client.session.world = _
      rw [hquiet.world]
  | returned hpc => simp [Scenario.step, hpc] at hstep

/-- The loop of a wait looks at the snapshot. -/
theorem Stands.checks (h : s.Stands S k) (hstep : s.client.step .checks = some client) :
    Stands S { s with client } (k + 1) := by
  cases h with
  | ready hpc => simp [Scenario.step, hpc] at hstep
  | asked hpc => simp [Scenario.step, hpc] at hstep
  | answered hpc => simp [Scenario.step, hpc] at hstep
  | @waiting leg pushed hleg hpc hlast hquiet hsent hserver =>
      have hpredicate := ScenarioServer.predicate_wait (S := S) hleg
        (Nat.le_add_right leg.first pushed) hlast
      by_cases hdone : leg.first + pushed = leg.last
      · rw [hdone] at hpredicate hquiet hserver
        rw [ScenarioServer.pushes_self] at hserver
        have hclient : client = { s.client with pc := .seen (S.wait leg) } := by
          simpa [Scenario.step, hpc, hquiet.world, hpredicate, eq_comm] using hstep
        subst hclient
        have hplace : ∃ next, leg.next? = some next ∧ next.start - 1 = leg.start + 4 + pushed + 1 := by
          cases leg <;> simp_all [Leg.first, Leg.last, Leg.next?, Leg.start] <;> omega
        obtain ⟨next, hnext, hsteps⟩ := hplace
        rw [← hsteps]
        exact .seen hnext rfl hquiet ⟨hsent.runId, hsent.sent⟩ hserver
      · simp [Scenario.step, hpc, hquiet.world, hpredicate, hdone, hquiet.running] at hstep
  | seen _ hpc => simp [Scenario.step, hpc] at hstep
  | @synchronizing steps taken pushed hpc hquiet hsent hserver =>
      rcases hpc with ⟨-, hpc⟩ | ⟨rfl, hpc⟩
      · simp [Scenario.step, hpc] at hstep
      · have hpushed : pushed ≤ 1 := by
          rcases hserver with ⟨-, rfl, -⟩ | ⟨-, hle, -⟩
          · exact Nat.zero_le 1
          · exact hle
        have hsequence : (S.world (8 + pushed)).snapshotSequence = 8 + pushed :=
          S.world_sequence _ (Finset.mem_Icc.mpr (by omega))
        by_cases hnew : pushed = 1
        · subst hnew
          have hclient : client = { s.client with pc := .seen (.synced 8) } := by
            simpa [Scenario.step, hpc, hquiet.world, ScenarioWait.predicate, hsequence, eq_comm]
              using hstep
          subst hclient
          rcases hserver with ⟨-, hzero, -⟩ | ⟨rfl, -, hserver⟩
          · cases hzero
          · exact .synced rfl hquiet ⟨hsent.runId, hsent.sent⟩ hserver
        · obtain rfl : pushed = 0 := by omega
          simp [Scenario.step, hpc, hquiet.world, ScenarioWait.predicate, hsequence,
            hquiet.running] at hstep
  | synced hpc => simp [Scenario.step, hpc] at hstep
  | returned hpc => simp [Scenario.step, hpc] at hstep

/-- The `connection.send` of `sync` returns. -/
theorem Stands.syncs (h : s.Stands S k) (hstep : s.client.step .synced = some client) :
    Stands S { s with client } (k + 1) := by
  cases h with
  | @synchronizing steps taken pushed hpc hquiet hsent hserver =>
      rcases hpc with ⟨rfl, hpc⟩ | ⟨-, hpc⟩
      · simp only [Scenario.step, hpc, Option.some.injEq] at hstep
        subst hstep
        have hnext := @Stands.synchronizing S
          { s with client := { s.client with pc := .waiting (.synced 8) } } 1 taken pushed
          (.inr ⟨rfl, rfl⟩) hquiet ⟨hsent.runId, hsent.sent⟩ hserver
        convert hnext using 1
        omega
      · simp [Scenario.step, hpc] at hstep
  | ready hpc => simp [Scenario.step, hpc] at hstep
  | asked hpc => simp [Scenario.step, hpc] at hstep
  | answered hpc => simp [Scenario.step, hpc] at hstep
  | waiting _ hpc => simp [Scenario.step, hpc] at hstep
  | seen _ hpc => simp [Scenario.step, hpc] at hstep
  | synced hpc => simp [Scenario.step, hpc] at hstep
  | returned hpc => simp [Scenario.step, hpc] at hstep

theorem Stands.step {e : ExchangeEvent} (h : s.Stands S k) (hstep : Step S s e t) :
    t.Stands S (k + 1) := by
  cases e with
  | takes =>
      simp only [Step, Exchange.step] at hstep
      split at hstep
      · rename_i message request replies hsent hturn
        rw [Option.ite_none_right_eq_some] at hstep
        obtain ⟨rfl, hstep⟩ := hstep
        cases hstep
        exact h.takes hsent hturn
      · cases hstep
  | delivers =>
      simp only [Step, Exchange.step] at hstep
      split at hstep
      · cases hstep
      · rename_i m inbox hinbox
        rw [Option.map_eq_some_iff] at hstep
        obtain ⟨client, hclient, rfl⟩ := hstep
        exact h.delivers hinbox hclient
  | client e =>
      simp only [Step, Exchange.step, Option.ite_none_right_eq_some, Option.map_eq_some_iff] at hstep
      obtain ⟨htask, client, hclient, rfl⟩ := hstep
      cases e with
      | session e =>
          cases e with
          | sends c =>
              simp only [Scenario.step, SessionEvent.isOutside, if_true, Option.map_eq_some_iff]
                at hclient
              obtain ⟨session, hs, rfl⟩ := hclient
              exact h.sends hs
          | _ => cases htask
      | runs c => exact h.runs hclient
      | checks => exact h.checks hclient
      | synced => exact h.syncs hclient
      | _ => cases htask

theorem stands_start (S : ScenarioServer) : (start S).Stands S 0 := by
  have hquiet : Session.Quiet (Session.start (S.world 1)) (S.world 1) :=
    ⟨rfl, rfl, rfl, by simp [Session.start], 0, fun _ _ => rfl⟩
  have hmem : 1 ∈ Finset.Icc 1 9 := by decide
  have hsent : (start S).Sent S 0 := ⟨S.world_runId 1 hmem, List.take_zero.symm⟩
  exact .ready rfl hquiet hsent ⟨rfl, rfl⟩

theorem run_stands {trace : List ExchangeEvent} (hrun : Run (Step S) (start S) trace s) :
    s.Stands S trace.length := by
  apply hrun.traceInvariant
  · exact stands_start S
  · intro trace s e t _ h hstep
    rw [List.length_append]
    exact h.step hstep

/-! ### There is always a step, up to the end -/

theorem enabled_client {e : ScenarioEvent} (htask : e.isTask = true)
    (hstep : s.client.step e = some client) : ∃ event t, Step S s event t := by
  refine ⟨.client e, { s with client }, ?_⟩
  simp [Step, Exchange.step, htask, hstep]

theorem enabled_delivers (hinbox : s.inbox = m :: inbox)
    (hrunning : s.client.session.pumpError = none) : ∃ event t, Step S s event t := by
  refine ⟨.delivers,
    { s with client := { s.client with session := s.client.session.receive m }, inbox }, ?_⟩
  simp [Step, Exchange.step, hinbox, Scenario.step, SessionEvent.isOutside, Session.step, hrunning]

theorem enabled_takes (hsent : s.client.session.sent[s.taken]? = some message)
    (hturn : S.turns[s.taken]? = some (message, replies)) : ∃ event t, Step S s event t := by
  refine ⟨.takes, { s with taken := s.taken + 1, inbox := s.inbox ++ replies }, ?_⟩
  simp [Step, Exchange.step, hsent, hturn]

/-- The call of a step can go on: it is in `connection.send`, or it has its answer. -/
theorem enabled_call {x : ScenarioStep} {call : Call} {w : WorldView}
    (hpc : s.client.pc = .sending x c) (hbusy : s.client.session.Busy w c call)
    (hdone : call.stage = .awaiting → ∃ stage, Session.exit call = some stage) :
    ∃ event t, Step S s event t := by
  have hopen := hbusy.isOpen
  rcases hstage : call.stage with _ | _ | _ | _ | _
  · apply enabled_client (e := .session (.sends c)) rfl
    simp only [Scenario.step, SessionEvent.isOutside, if_true, hbusy.enabled hstage]
    rfl
  · obtain ⟨stage, hexit⟩ := hdone hstage
    apply enabled_client (e := .runs c) rfl
    simp only [Scenario.step, hpc, hbusy.calls, Option.bind_some, hexit]
    rfl
  all_goals
    rw [hstage] at hopen
    cases hopen

/-- A task that waits for nothing can run. -/
theorem enabled_runs {w : WorldView} (hquiet : s.client.session.Quiet w)
    (hpc : s.client.pc = .ready ∨ ∃ wait, s.client.pc = .seen wait) :
    ∃ event t, Step S s event t := by
  obtain ⟨c, hfresh⟩ := hquiet.exists_fresh
  rcases hpc with hpc | ⟨wait, hpc⟩
  · apply enabled_client (e := .runs c) rfl
    simp only [Scenario.step, hpc, hfresh, if_true]
    rfl
  · apply enabled_client (e := .runs c) rfl
    simp only [Scenario.step, hpc, hfresh, if_true]
    rfl

theorem Stands.enabled (h : s.Stands S k) :
    (∃ event t, Step S s event t) ∨ k = 47 ∧ s.client.pc = .returned (S.world 9) := by
  cases h with
  | ready hpc hquiet => exact .inl (enabled_runs hquiet (.inl hpc))
  | @asked leg c call taken hpc hbusy hid hfuture hsent hserver =>
      left
      rcases hserver with ⟨-, htaken, -⟩ | ⟨-, -, hinbox⟩
      · refine enabled_takes ?_ (by rw [htaken]; exact ScenarioServer.turns_index leg)
        have hcount : (S.requests.take leg.index).length = leg.index := by cases leg <;> rfl
        rw [hsent.sent, htaken, ScenarioServer.requests_take]
        nth_rewrite 2 [← hcount]
        exact List.getElem?_concat_length
      · exact enabled_delivers hinbox hbusy.running
  | @answered leg c call pushed hpc hlast hbusy hfuture hsent hserver =>
      left
      apply enabled_call hpc hbusy
      intro hawaiting
      by_cases hleg : leg = .step9
      · rw [ScenarioServer.future, if_pos hleg] at hfuture
        exact ⟨_, by rw [Session.exit, hawaiting, hbusy.wanted, hfuture]; rfl⟩
      · rw [ScenarioServer.future, if_neg hleg] at hfuture
        exact ⟨_, by rw [Session.exit, hawaiting, hbusy.wanted, hfuture]; rfl⟩
  | @waiting leg pushed hleg hpc hlast hquiet hsent hserver =>
      left
      rcases hlast.eq_or_lt with heq | hlt
      · have hpredicate := ScenarioServer.predicate_wait (S := S) hleg
          (Nat.le_add_right leg.first pushed) hlast
        rw [heq, decide_eq_true rfl] at hpredicate
        rw [heq] at hquiet
        apply enabled_client (e := .checks) rfl
        simp only [Scenario.step, hpc, hquiet.world, hpredicate, if_true]
        rfl
      · rw [ScenarioServer.pushes_of_lt hlt] at hserver
        exact enabled_delivers hserver.2 hquiet.running
  | seen _ hpc hquiet => exact .inl (enabled_runs hquiet (.inr ⟨_, hpc⟩))
  | @synchronizing steps taken pushed hpc hquiet hsent hserver =>
      left
      rcases hserver with ⟨-, -, htaken, -⟩ | ⟨-, hpushed, hserver⟩
      · refine enabled_takes ?_ (by rw [htaken]; rfl)
        rw [hsent.sent, htaken]
        rfl
      · rcases hpushed.eq_or_lt with rfl | hlt
        · rcases hpc with ⟨-, hpc⟩ | ⟨-, hpc⟩
          · apply enabled_client (e := .synced) rfl
            simp only [Scenario.step, hpc]
            rfl
          · have hsequence : (S.world (8 + 1)).snapshotSequence = 9 :=
              S.world_sequence _ (by decide)
            apply enabled_client (e := .checks) rfl
            simp only [Scenario.step, hpc, hquiet.world, ScenarioWait.predicate, hsequence]
            rfl
        · obtain rfl : pushed = 0 := Nat.lt_one_iff.mp hlt
          exact enabled_delivers hserver.2 hquiet.running
  | synced hpc hquiet => exact .inl (enabled_runs hquiet (.inr ⟨_, hpc⟩))
  | returned hpc => exact .inr ⟨rfl, hpc⟩

theorem Stands.le (h : s.Stands S k) : k ≤ 47 := by
  have hstart : ∀ leg : Leg, leg.start + (leg.last - leg.first) ≤ 38 := by
    intro leg
    cases leg <;> decide
  have hsteps : ∀ stage : Stage, stage.steps ≤ 1 := by
    intro stage
    unfold Stage.steps
    split_ifs <;> omega
  cases h with
  | @asked leg c call taken hpc hbusy hid hfuture hsent hserver =>
      have := hstart leg
      have := hsteps call.stage
      have htaken : taken ≤ 1 := by rcases hserver with ⟨rfl, -⟩ | ⟨rfl, -⟩ <;> omega
      omega
  | @answered leg c call pushed hpc hlast =>
      have := hstart leg
      have := hsteps call.stage
      omega
  | @waiting leg pushed hleg hpc hlast =>
      have := hstart leg
      omega
  | @seen leg next =>
      have := hstart next
      omega
  | @synchronizing steps taken pushed hpc hquiet hsent hserver =>
      have hpc' : steps ≤ 1 := by rcases hpc with ⟨rfl, -⟩ | ⟨rfl, -⟩ <;> omega
      have hserver' : taken + pushed ≤ 2 := by
        rcases hserver with ⟨rfl, rfl, -⟩ | ⟨rfl, hle, -⟩ <;> omega
      omega
  | _ => omega

theorem Stands.sent (h : s.Stands S k) : s.client.session.sent <+: S.requests := by
  have hprefix : ∀ {count}, s.Sent S count → s.client.session.sent <+: S.requests := by
    intro count hsent
    rw [hsent.sent]
    exact List.take_prefix _ _
  cases h with
  | ready _ _ hsent => exact hprefix hsent
  | asked _ _ _ _ hsent => exact hprefix hsent
  | answered _ _ _ _ hsent => exact hprefix hsent
  | waiting _ _ _ _ hsent => exact hprefix hsent
  | seen _ _ _ hsent => exact hprefix hsent
  | synchronizing _ _ hsent => exact hprefix hsent
  | synced _ _ hsent => exact hprefix hsent
  | returned _ _ hsent => exact hprefix hsent

end Steps

/-- **The exercise completes.** In every interleaving the client sends what the server waits
for and nothing else, a run has at most 47 steps, and as long as the client has not returned
the last snapshot there is a next step. -/
theorem exercise_completes (S : ScenarioServer) {trace : List ExchangeEvent} {s : Exchange}
    (hrun : Run (Step S) (start S) trace s) :
    s.client.session.sent <+: S.requests ∧ trace.length ≤ 47 ∧
      ((∃ event t, Step S s event t) ∨
        trace.length = 47 ∧ s.client.pc = .returned (S.world 9)) := by
  have hstands := run_stands hrun
  exact ⟨hstands.sent, hstands.le, hstands.enabled⟩

theorem exercise_completes_sample :
    ∃ s, Run (Step .sample) (start .sample) sampleTrace s ∧
      s.client.session.sent <+: ScenarioServer.sample.requests ∧ sampleTrace.length ≤ 47 ∧
        ((∃ event t, Step .sample s event t) ∨
          sampleTrace.length = 47 ∧
            s.client.pc = .returned (ScenarioServer.sample.world 9)) := by
  obtain ⟨s, hrun, -⟩ := run_sampleTrace
  exact ⟨s, hrun, exercise_completes .sample hrun⟩

end Exchange

end PlanetCharlu
