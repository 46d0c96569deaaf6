import PlanetCharlu.Calls
import PlanetCharlu.Lib.KeyedList

/-!
# Command correlation is exactly once

A call of `send` is decided by the first answer that the pump delivers with its
request id after the call registered. The table of pending requests is written by
the pump and by every call, so this is an invariant of all interleavings: what a
call's future holds is always what the trace of events says it should hold.
-/

namespace PlanetCharlu

open Runs KeyedList

/-! ### Answers in a trace -/

/-- What the server answers to a request: a result or a protocol error. -/
inductive Answer where
  | outcome (outcome : CommandOutcome)
  | error (code : ControlCode) (closeSession : Bool)
deriving DecidableEq, Repr

/-- The future that an answer leaves, and how a call leaves with it. -/
def Answer.future : Answer → Future
  | .outcome o => .result o
  | .error code closeSession => .exception (.protocolErrorReceived code closeSession)

def Answer.stage : Answer → Stage
  | .outcome o => .returned o
  | .error code closeSession => .raised (.protocolErrorReceived code closeSession)

/-- The request a message answers, and how. -/
def ServerMessage.answer? : ServerMessage → Option (String × Answer)
  | .result wire => some (wire.requestId, .outcome (CommandOutcome.fromWire wire))
  | .protocolError error =>
      if error.requestId.null then none
      else some (error.requestId.value, .error error.code error.closeSession)
  | _ => none

namespace SessionEvent

/-- The answer to `requestId` that an event delivers. -/
def answerTo (requestId : String) : SessionEvent → Option Answer
  | .arrives message =>
      message.answer?.bind fun (id, answer) => if id = requestId then some answer else none
  | _ => none

def isBegin (c : CallId) : SessionEvent → Bool
  | .begins c' _ _ => c' == c
  | _ => false

/-- The request id that an event brings into use. -/
def beginId? : SessionEvent → Option String
  | .begins _ requestId _ => some requestId
  | _ => none

/-- The answers to `requestId` delivered after call `c` began. -/
def answersTo (c : CallId) (requestId : String) : List SessionEvent → List Answer
  | [] => []
  | e :: rest =>
      if e.isBegin c then rest.filterMap (answerTo requestId) else answersTo c requestId rest

def firstAnswer (c : CallId) (requestId : String) (trace : List SessionEvent) : Option Answer :=
  (answersTo c requestId trace).head?

theorem answersTo_snoc (c : CallId) (requestId : String) (trace : List SessionEvent)
    (e : SessionEvent) :
    answersTo c requestId (trace ++ [e]) =
      if trace.any (isBegin c) then answersTo c requestId trace ++ (e.answerTo requestId).toList
      else [] := by
  induction trace with
  | nil => simp [answersTo]
  | cons e' rest ih =>
      rw [List.cons_append, answersTo, answersTo, List.any_cons]
      rcases e'.isBegin c with _ | _
      · simpa using ih
      · rcases hanswer : e.answerTo requestId with _ | a
        · simp [hanswer]
        · simp [hanswer]

/-- For a call that has begun, an event adds its answer, and only a first one counts. -/
theorem firstAnswer_snoc {c : CallId} {trace : List SessionEvent}
    (hbegun : trace.any (isBegin c) = true) (requestId : String) (e : SessionEvent) :
    firstAnswer c requestId (trace ++ [e]) =
      (firstAnswer c requestId trace).or (e.answerTo requestId) := by
  rw [firstAnswer, answersTo_snoc, if_pos hbegun, List.head?_append, firstAnswer]
  rcases e.answerTo requestId with _ | a
  · rfl
  · rfl

theorem firstAnswer_begin {c : CallId} {trace : List SessionEvent}
    (hnew : trace.any (isBegin c) = false) (requestId : String) (e : SessionEvent) :
    firstAnswer c requestId (trace ++ [e]) = none := by
  rw [firstAnswer, answersTo_snoc, hnew, if_neg Bool.false_ne_true]
  rfl

end SessionEvent

open SessionEvent

/-! ### One call -/

/-- What is known about a registered call: `first` is the first answer delivered to
it, `error` the pump's error, `listed` whether the table still has it. -/
structure Decides (first : Option Answer) (error : Option SessionError) (aborted : Prop)
    (failed : SessionError → Prop) (listed : Prop) (call : Call) : Prop where
  waiting : call.stage.isOpen = true → call.future = .waiting → first = none ∧ error = none ∧ listed
  result : ∀ o, call.future = .result o → first = some (.outcome o)
  exception : ∀ e, call.future = .exception e →
    (∃ code close, e = .protocolErrorReceived code close ∧ first = some (.error code close)) ∨
      first = none ∧ error = some e
  cancelled : call.future = .cancelled → aborted
  cancelling : call.cancelling = true → aborted
  returned : ∀ o, call.stage = .returned o → call.future = .result o
  raised : ∀ e, call.stage = .raised e →
    call.future = .exception e ∨ (e = .cancelled ∧ aborted) ∨ failed e
  decided : ∀ a, first = some a → call.future = a.future ∨ aborted ∨ ∃ e, failed e

namespace Decides

variable {first : Option Answer} {error : Option SessionError} {aborted aborted' : Prop}
  {failed failed' : SessionError → Prop} {listed listed' : Prop} {call : Call}

/-- Cancellations and failures only add up, and the table matters to waiting calls
only. -/
theorem mono (h : Decides first error aborted failed listed call)
    (haborted : aborted → aborted') (hfailed : ∀ e, failed e → failed' e)
    (hlisted : call.stage.isOpen = true → call.future = .waiting → listed → listed') :
    Decides first error aborted' failed' listed' call := by
  refine ⟨?_, h.result, h.exception, fun hc => haborted (h.cancelled hc),
    fun hc => haborted (h.cancelling hc), h.returned, ?_, ?_⟩
  · intro hopen hwaiting
    obtain ⟨hfirst, herror, hl⟩ := h.waiting hopen hwaiting
    exact ⟨hfirst, herror, hlisted hopen hwaiting hl⟩
  · intro e hraised
    rcases h.raised e hraised with hexc | ⟨he, hc⟩ | hf
    · exact Or.inl hexc
    · exact Or.inr (Or.inl ⟨he, haborted hc⟩)
    · exact Or.inr (Or.inr (hfailed e hf))
  · intro a ha
    rcases h.decided a ha with hfuture | hc | ⟨e, hf⟩
    · exact Or.inl hfuture
    · exact Or.inr (Or.inl (haborted hc))
    · exact Or.inr (Or.inr ⟨e, hfailed e hf⟩)

/-- A closed call with a waiting future was cancelled, or its send failed. -/
theorem closed_waiting (h : Decides first error aborted failed listed call)
    (hregistered : ∀ e, call.stage ≠ .refused e) (hclosed : call.stage.isOpen = false)
    (hwaiting : call.future = .waiting) : aborted ∨ ∃ e, failed e := by
  rcases hstage : call.stage with _ | _ | o | e | e
  · simp [hstage, Stage.isOpen] at hclosed
  · simp [hstage, Stage.isOpen] at hclosed
  · have hfuture := h.returned o hstage
    rw [hwaiting] at hfuture
    cases hfuture
  · rcases h.raised e hstage with hfuture | ⟨-, hc⟩ | hf
    · rw [hwaiting] at hfuture
      cases hfuture
    · exact Or.inl hc
    · exact Or.inr ⟨e, hf⟩
  · exact absurd hstage (hregistered e)

/-- An answer reaches the call while the pump runs. -/
theorem answer [Decidable listed] (h : Decides first none aborted failed listed call)
    (hregistered : ∀ e, call.stage ≠ .refused e) (hopen : listed → call.stage.isOpen = true)
    (a : Answer) :
    Decides (first.or (some a)) none aborted failed False
      (if listed then call.settle a.future else call) := by
  have hkept : ∀ b, first = some b → first.or (some a) = some b := by
    rintro b rfl
    rfl
  by_cases hfuture : call.future = .waiting
  · by_cases hlisted : listed
    · -- The waiting call takes the answer, and it is the first.
      obtain ⟨rfl, -, -⟩ := h.waiting (hopen hlisted) hfuture
      have hset : (call.settle a.future).future = a.future := Call.settle_of_waiting hfuture _
      rw [if_pos hlisted]
      refine ⟨?_, ?_, ?_, ?_, ?_, ?_, ?_, ?_⟩
      · intro _ hwaiting
        rw [hset] at hwaiting
        cases a <;> cases hwaiting
      · intro o ho
        rw [hset] at ho
        cases a <;> cases ho
        rfl
      · intro e he
        rw [hset] at he
        rcases a with _ | ⟨code, close⟩
        · cases he
        · cases he
          exact Or.inl ⟨code, close, rfl, rfl⟩
      · intro hc
        rw [hset] at hc
        cases a <;> cases hc
      · intro hc
        rw [Call.settle_cancelling] at hc
        exact h.cancelling hc
      · intro o hstage
        have hopen := hopen hlisted
        rw [Call.settle_stage] at hstage
        simp [hstage, Stage.isOpen] at hopen
      · intro e hstage
        have hopen := hopen hlisted
        rw [Call.settle_stage] at hstage
        simp [hstage, Stage.isOpen] at hopen
      · intro b hb
        cases hb
        exact Or.inl hset
    · -- The call has left without an answer; this one comes too late.
      have hclosed : call.stage.isOpen = false := by
        rw [← Bool.not_eq_true]
        intro hopen
        exact hlisted (h.waiting hopen hfuture).2.2
      have hgone := h.closed_waiting hregistered hclosed hfuture
      rw [if_neg hlisted]
      refine ⟨?_, ?_, ?_, h.cancelled, h.cancelling, h.returned, h.raised, fun _ _ => Or.inr hgone⟩
      · intro hopen
        rw [hclosed] at hopen
        cases hopen
      · intro o ho
        rw [hfuture] at ho
        cases ho
      · intro e he
        rw [hfuture] at he
        cases he
  · have hsame : (if listed then call.settle a.future else call) = call := by
      rw [Call.settle_of_done hfuture, ite_self]
    rw [hsame]
    refine ⟨fun _ hwaiting => absurd hwaiting hfuture, fun o ho => hkept _ (h.result o ho), ?_,
      h.cancelled, h.cancelling, h.returned, h.raised, ?_⟩
    · intro e he
      rcases h.exception e he with ⟨code, close, rfl, hfirst⟩ | ⟨-, hnone⟩
      · exact Or.inl ⟨code, close, rfl, hkept _ hfirst⟩
      · cases hnone
    · intro b hb
      cases hfirst : first with
      | none =>
          -- Without an answer so far, the future was cancelled.
          refine Or.inr (Or.inl (h.cancelled ?_))
          rcases hf : call.future with _ | o | e | _
          · exact absurd hf hfuture
          · have hresult := h.result o hf
            rw [hfirst] at hresult
            cases hresult
          · rcases h.exception e hf with ⟨code, close, -, hsome⟩ | ⟨-, hnone⟩
            · rw [hfirst] at hsome
              cases hsome
            · cases hnone
          · rfl
      | some b' =>
          rw [hkept b' hfirst] at hb
          cases hb
          exact h.decided _ hfirst

/-- The pump ends and fails the call. -/
theorem fail [Decidable listed] (h : Decides first none aborted failed listed call)
    (hopen : listed → call.stage.isOpen = true) (e : SessionError) :
    Decides first (some e) aborted failed False
      (if listed then call.settle (.exception e) else call) := by
  by_cases hwaiting : listed ∧ call.future = .waiting
  · obtain ⟨hlisted, hfuture⟩ := hwaiting
    obtain ⟨rfl, -, -⟩ := h.waiting (hopen hlisted) hfuture
    have hset : (call.settle (.exception e)).future = .exception e :=
      Call.settle_of_waiting hfuture _
    rw [if_pos hlisted]
    refine ⟨?_, ?_, ?_, ?_, ?_, ?_, ?_, ?_⟩
    · intro _ hw
      rw [hset] at hw
      cases hw
    · intro o ho
      rw [hset] at ho
      cases ho
    · intro e' he
      rw [hset] at he
      cases he
      exact Or.inr ⟨rfl, rfl⟩
    · intro hc
      rw [hset] at hc
      cases hc
    · intro hc
      rw [Call.settle_cancelling] at hc
      exact h.cancelling hc
    · intro o hstage
      have hopen := hopen hlisted
      rw [Call.settle_stage] at hstage
      simp [hstage, Stage.isOpen] at hopen
    · intro e' hstage
      have hopen := hopen hlisted
      rw [Call.settle_stage] at hstage
      simp [hstage, Stage.isOpen] at hopen
    · intro a ha
      cases ha
  · have hsame : (if listed then call.settle (.exception e) else call) = call := by
      by_cases hlisted : listed
      · rw [if_pos hlisted]
        exact Call.settle_of_done (fun hfuture => hwaiting ⟨hlisted, hfuture⟩) _
      · rw [if_neg hlisted]
    rw [hsame]
    refine ⟨?_, h.result, ?_, h.cancelled, h.cancelling, h.returned, h.raised, h.decided⟩
    · intro hstage hfuture
      obtain ⟨-, -, hlisted⟩ := h.waiting hstage hfuture
      exact absurd ⟨hlisted, hfuture⟩ hwaiting
    · intro e' he
      rcases h.exception e' he with hanswer | ⟨-, hnone⟩
      · exact Or.inl hanswer
      · cases hnone

/-- The call leaves as its future says, or for a reason of its own. -/
theorem leave (h : Decides first error aborted failed listed call) {stage : Stage}
    (hclosed : stage.isOpen = false) (hreturned : ∀ o, stage = .returned o → call.future = .result o)
    (hraised : ∀ e, stage = .raised e →
      call.future = .exception e ∨ (e = .cancelled ∧ aborted) ∨ failed e) :
    Decides first error aborted failed listed' { call with stage } := by
  refine ⟨?_, h.result, h.exception, h.cancelled, h.cancelling, hreturned, hraised, h.decided⟩
  intro hopen
  rw [hclosed] at hopen
  cases hopen

/-- The call's task wakes up and leaves. -/
theorem exit (h : Decides first error aborted failed listed call) {stage : Stage}
    (hexits : Session.Exits call stage) :
    Decides first error aborted failed listed' { call with stage } := by
  cases hexits with
  | cancelled hopen hcancelled =>
      have haborted : aborted := hcancelled.elim h.cancelling h.cancelled
      refine h.leave rfl (by simp) ?_
      intro e hstage
      cases hstage
      exact Or.inr (Or.inl ⟨rfl, haborted⟩)
  | result hopen hfuture =>
      refine h.leave rfl ?_ (by simp)
      intro o hstage
      cases hstage
      exact hfuture
  | exception hopen hfuture =>
      refine h.leave rfl (by simp) ?_
      intro e hstage
      cases hstage
      exact Or.inl hfuture

/-- The send has completed. -/
theorem await (h : Decides first error aborted failed listed call)
    (hsending : call.stage = .sending) :
    Decides first error aborted failed listed { call with stage := .awaiting } := by
  refine ⟨?_, h.result, h.exception, h.cancelled, h.cancelling, ?_, ?_, h.decided⟩
  · intro _ hwaiting
    exact h.waiting (by simp [hsending, Stage.isOpen]) hwaiting
  · intro o hstage
    cases hstage
  · intro e hstage
    cases hstage

/-- The call's task is cancelled. -/
theorem cancel (h : Decides first error aborted failed listed call) (haborted : aborted)
    (hopen : call.stage.isOpen = true) :
    Decides first error aborted failed listed (Session.cancelCall call) := by
  have hclosed : ∀ stage : Stage, stage.isOpen = false → call.stage ≠ stage := by
    rintro stage hstage rfl
    rw [hopen] at hstage
    cases hstage
  unfold Session.cancelCall
  split_ifs with hwaiting
  · refine ⟨?_, ?_, ?_, fun _ => haborted, fun _ => haborted, ?_, ?_, fun _ _ => Or.inr (Or.inl haborted)⟩
    · intro _ hfuture
      cases hfuture
    · intro o hfuture
      cases hfuture
    · intro e hfuture
      cases hfuture
    · intro o hstage
      exact absurd hstage (hclosed _ rfl)
    · intro e hstage
      exact absurd hstage (hclosed _ rfl)
  · exact ⟨h.waiting, h.result, h.exception, h.cancelled, fun _ => haborted,
      fun o hstage => absurd hstage (hclosed _ rfl), fun e hstage => absurd hstage (hclosed _ rfl),
      h.decided⟩

end Decides

/-! ### The table -/

namespace Session

/-- The invariant of the table, where `first` says which answer came first to a
call, and `aborted` and `failed` what happened to it otherwise. -/
structure Correlated (first : CallId → String → Option Answer) (aborted : CallId → Prop)
    (failed : CallId → SessionError → Prop) (s : Session) : Prop where
  table : ∀ id c, s.pending id = some c →
    ∃ call, s.calls c = some call ∧ call.requestId = id ∧ call.stage.isOpen = true
  cleared : ∀ e, s.pumpError = some e → ∀ id, s.pending id = none
  decides : ∀ c call, s.calls c = some call → (∀ e, call.stage ≠ .refused e) →
    Decides (first c call.requestId) s.pumpError (aborted c) (failed c)
      (s.pending call.requestId = some c) call

namespace Correlated

variable {first first' : CallId → String → Option Answer} {aborted aborted' : CallId → Prop}
  {failed failed' : CallId → SessionError → Prop} {s : Session}

/-- Only what the existing calls have seen matters. -/
theorem congr (h : Correlated first aborted failed s)
    (hfirst : ∀ c call, s.calls c = some call →
      first' c call.requestId = first c call.requestId)
    (haborted : ∀ c, aborted c → aborted' c) (hfailed : ∀ c e, failed c e → failed' c e) :
    Correlated first' aborted' failed' s := by
  refine ⟨h.table, h.cleared, ?_⟩
  intro c call hcall hregistered
  rw [hfirst c call hcall]
  exact (h.decides c call hcall hregistered).mono (haborted c) (hfailed c) fun _ _ hlisted => hlisted

/-- A listed call is the one with that id. -/
theorem listed_iff (h : Correlated first aborted failed s) {c : CallId} {call : Call}
    (hcall : s.calls c = some call) {id : String} (hlisted : s.pending id = some c) :
    call.requestId = id ∧ call.stage.isOpen = true := by
  obtain ⟨call', hcall', hid, hopen⟩ := h.table id c hlisted
  rw [hcall] at hcall'
  cases hcall'
  exact ⟨hid, hopen⟩

theorem settle (h : Correlated first aborted failed s) (hrunning : s.pumpError = none)
    (id : String) (a : Answer) :
    Correlated (fun c id' => if id' = id then (first c id').or (some a) else first c id')
      aborted failed (s.settle id a.future) := by
  refine ⟨?_, ?_, ?_⟩
  · intro id' c hlisted
    rw [settle_pending] at hlisted
    by_cases hid : id' = id
    · simp [hid] at hlisted
    · rw [Function.update_of_ne hid] at hlisted
      obtain ⟨call, hcall, hrequest, hopen⟩ := h.table id' c hlisted
      rw [settle_calls, hcall, Option.map_some]
      split
      · exact ⟨_, rfl, by simpa using hrequest, by simpa using hopen⟩
      · exact ⟨call, rfl, hrequest, hopen⟩
  · intro e herror
    rw [settle_pumpError, hrunning] at herror
    cases herror
  · intro c call' hcall' hregistered
    rw [settle_calls] at hcall'
    rcases Option.map_eq_some_iff.mp hcall' with ⟨call, hcall, rfl⟩
    have hsame : (if s.pending id = some c then call.settle a.future else call).requestId =
        call.requestId := by
      split <;> simp
    have hstage : (if s.pending id = some c then call.settle a.future else call).stage =
        call.stage := by
      split <;> simp
    rw [hstage] at hregistered
    have hbefore := h.decides c call hcall hregistered
    rw [hrunning] at hbefore
    rw [hsame, settle_pumpError, hrunning, settle_pending]
    by_cases hid : call.requestId = id
    · rw [if_pos hid]
      rw [hid] at hbefore ⊢
      have hopen : s.pending id = some c → call.stage.isOpen = true :=
        fun hlisted => (h.listed_iff hcall hlisted).2
      exact (hbefore.answer hregistered hopen a).mono (fun hc => hc) (fun _ hf => hf)
        fun _ _ hfalse => hfalse.elim
    · have hother : s.pending id ≠ some c :=
        fun hlisted => hid (h.listed_iff hcall hlisted).1
      rw [if_neg hid, if_neg hother, Function.update_of_ne hid]
      exact hbefore

theorem endPump (h : Correlated first aborted failed s) (hrunning : s.pumpError = none)
    (e : SessionError) : Correlated first aborted failed (s.endPump e) := by
  refine ⟨?_, fun _ _ _ => rfl, ?_⟩
  · intro id c hlisted
    cases hlisted
  · intro c call' hcall' hregistered
    rw [endPump_calls] at hcall'
    rcases Option.map_eq_some_iff.mp hcall' with ⟨call, hcall, rfl⟩
    have hsame : (if s.pending call.requestId = some c then call.settle (.exception e)
        else call).requestId = call.requestId := by
      split <;> simp
    have hstage : (if s.pending call.requestId = some c then call.settle (.exception e)
        else call).stage = call.stage := by
      split <;> simp
    rw [hstage] at hregistered
    have hbefore := h.decides c call hcall hregistered
    rw [hrunning] at hbefore
    rw [hsame]
    exact (hbefore.fail (fun hlisted => (h.listed_iff hcall hlisted).2) e).mono (fun hc => hc)
      (fun _ hf => hf) fun _ _ hfalse => hfalse.elim

/-- The pump takes a message. -/
theorem receive (h : Correlated first aborted failed s) (hrunning : s.pumpError = none)
    (m : ServerMessage) :
    Correlated (fun c id => (first c id).or ((SessionEvent.arrives m).answerTo id)) aborted failed
      (s.receive m) := by
  have hsilent : m.answer? = none → ∀ t : Session, Correlated first aborted failed t →
      Correlated (fun c id => (first c id).or ((SessionEvent.arrives m).answerTo id)) aborted
        failed t := by
    intro hnone t ht
    refine ht.congr ?_ (fun _ hc => hc) fun _ _ hf => hf
    intro c call _
    simp [answerTo, hnone]
  have hanswered : ∀ id a, m.answer? = some (id, a) →
      Correlated (fun c id => (first c id).or ((SessionEvent.arrives m).answerTo id)) aborted
        failed (s.settle id a.future) := by
    intro id a hanswer
    refine (h.settle hrunning id a).congr ?_ (fun _ hc => hc) fun _ _ hf => hf
    intro c call _
    by_cases hid : call.requestId = id
    · simp [answerTo, hanswer, hid]
    · simp [answerTo, hanswer, hid, Ne.symm hid]
  rcases m with state | wire | error | _ | _
  · apply hsilent rfl
    simp only [Session.receive]
    split
    · exact h.endPump hrunning _
    · split
      · exact h
      · split
        · exact h.endPump hrunning _
        · exact ⟨h.table, h.cleared, h.decides⟩
  · exact hanswered _ _ rfl
  · rcases hnull : error.requestId.null with _ | _
    · have hset := hanswered error.requestId.value (.error error.code error.closeSession)
        (by simp [ServerMessage.answer?, hnull])
      rcases hclose : error.closeSession with _ | _
      · simpa [Session.receive, hnull, hclose, reject, Answer.future] using hset
      · have hfailed := hset.endPump (by simpa using hrunning)
          (.protocolErrorReceived error.code error.closeSession)
        simpa [Session.receive, hnull, hclose, reject, Answer.future] using hfailed
    · apply hsilent (by simp [ServerMessage.answer?, hnull])
      simpa [Session.receive, hnull] using h.endPump hrunning _
  · exact hsilent rfl _ h
  · exact hsilent rfl _ h

/-- A call begins. -/
theorem begin (h : Correlated first aborted failed s) {c : CallId} (hnew : s.calls c = none)
    (hfirst : ∀ id, first c id = none) (id : String) (message : ClientMessage) :
    Correlated first aborted failed (s.begin c id message) := by
  have hother : ∀ {c' call}, s.calls c' = some call → c' ≠ c := by
    rintro c' call hcall rfl
    rw [hnew] at hcall
    cases hcall
  have hrefused : ∀ e, Correlated first aborted failed
      { s with calls := Function.update s.calls c
                 (some { requestId := id, message, stage := .refused e }) } := by
    intro e
    refine ⟨?_, h.cleared, ?_⟩
    · intro id' c' hlisted
      obtain ⟨call, hcall, hrest⟩ := h.table id' c' hlisted
      refine ⟨call, ?_, hrest⟩
      simp [Function.update_of_ne (hother hcall), hcall]
    · intro c' call hcall hregistered
      by_cases hc : c' = c
      · subst hc
        simp only [Function.update_self, Option.some.injEq] at hcall
        subst hcall
        exact absurd rfl (hregistered e)
      · simp only [Function.update_of_ne hc] at hcall
        exact h.decides c' call hcall hregistered
  unfold Session.begin
  dsimp only
  split
  · exact hrefused _
  · rename_i hrunning
    split_ifs with hphase
    · exact hrefused _
    · split
      · exact hrefused _
      · rename_i hfree
        refine ⟨?_, ?_, ?_⟩
        · intro id' c' hlisted
          by_cases hid : id' = id
          · subst hid
            simp only [Function.update_self, Option.some.injEq] at hlisted
            subst hlisted
            exact ⟨_, Function.update_self _ _ _, rfl, rfl⟩
          · simp only [Function.update_of_ne hid] at hlisted
            obtain ⟨call, hcall, hrest⟩ := h.table id' c' hlisted
            refine ⟨call, ?_, hrest⟩
            simp [Function.update_of_ne (hother hcall), hcall]
        · intro e herror
          rw [hrunning] at herror
          cases herror
        · intro c' call hcall hregistered
          by_cases hc : c' = c
          · subst hc
            simp only [Function.update_self, Option.some.injEq] at hcall
            subst hcall
            refine ⟨?_, ?_, ?_, ?_, ?_, ?_, ?_, ?_⟩
            · intro _ _
              exact ⟨hfirst id, hrunning, Function.update_self _ _ _⟩
            · intro o ho
              cases ho
            · intro e he
              cases he
            · intro hcancelled
              cases hcancelled
            · intro hcancelling
              cases hcancelling
            · intro o hstage
              cases hstage
            · intro e hstage
              cases hstage
            · intro a ha
              rw [hfirst id] at ha
              cases ha
          · simp only [Function.update_of_ne hc] at hcall
            refine (h.decides c' call hcall hregistered).mono (fun hc => hc) (fun _ hf => hf) ?_
            intro _ _ hlisted
            have hid : call.requestId ≠ id := by
              intro hid
              rw [hid, hfree] at hlisted
              cases hlisted
            simp only [Function.update_of_ne hid]
            exact hlisted

/-- A call changes, and keeps its registration. -/
theorem updateCall (h : Correlated first aborted failed s) {c : CallId} {call call' : Call}
    (hcall : s.calls c = some call) (hrequest : call'.requestId = call.requestId)
    (hopen : call.stage.isOpen = true → call'.stage.isOpen = true)
    (hdecides : Decides (first c call.requestId) s.pumpError (aborted c) (failed c)
      (s.pending call.requestId = some c) call') :
    Correlated first aborted failed
      { s with calls := Function.update s.calls c (some call') } := by
  refine ⟨?_, h.cleared, ?_⟩
  · intro id c' hlisted
    obtain ⟨call₀, hcall₀, hid, hstage⟩ := h.table id c' hlisted
    by_cases hc : c' = c
    · subst hc
      rw [hcall] at hcall₀
      cases hcall₀
      exact ⟨call', Function.update_self _ _ _, hrequest.trans hid, hopen hstage⟩
    · exact ⟨call₀, by simp [Function.update_of_ne hc, hcall₀], hid, hstage⟩
  · intro c' call₀ hcall₀ hregistered
    by_cases hc : c' = c
    · subst hc
      simp only [Function.update_self, Option.some.injEq] at hcall₀
      subst hcall₀
      rw [hrequest]
      exact hdecides
    · simp only [Function.update_of_ne hc] at hcall₀
      exact h.decides c' call₀ hcall₀ hregistered

/-- A call leaves and discards its registration. No other call has its id. -/
theorem finish (h : Correlated first aborted failed s) {c : CallId} {call : Call} {stage : Stage}
    (hcall : s.calls c = some call)
    (hunique : ∀ c' call', s.calls c' = some call' → call'.requestId = call.requestId → c' = c)
    (hdecides : ∀ listed, Decides (first c call.requestId) s.pumpError (aborted c) (failed c)
      listed { call with stage }) :
    Correlated first aborted failed (s.finish c call stage) := by
  unfold Session.finish Session.discard
  refine ⟨?_, ?_, ?_⟩
  · intro id c' hlisted
    by_cases hid : id = call.requestId
    · subst hid
      simp at hlisted
    · simp only [Function.update_of_ne hid] at hlisted
      obtain ⟨call', hcall', hrequest, hopen⟩ := h.table id c' hlisted
      have hc : c' ≠ c := by
        rintro rfl
        rw [hcall] at hcall'
        cases hcall'
        exact hid hrequest.symm
      exact ⟨call', by simp [Function.update_of_ne hc, hcall'], hrequest, hopen⟩
  · intro e herror id
    by_cases hid : id = call.requestId
    · subst hid
      simp
    · simp only [Function.update_of_ne hid]
      exact h.cleared e herror id
  · intro c' call' hcall' hregistered
    by_cases hc : c' = c
    · subst hc
      simp only [Function.update_self, Option.some.injEq] at hcall'
      subst hcall'
      exact hdecides _
    · simp only [Function.update_of_ne hc] at hcall'
      have hid : call'.requestId ≠ call.requestId :=
        fun hid => hc (hunique c' call' hcall' hid)
      simp only [Function.update_of_ne hid]
      exact h.decides c' call' hcall' hregistered

end Correlated

/-! ### All interleavings -/

/-- The calls of a session are those that the trace began. -/
structure Known (trace : List SessionEvent) (s : Session) : Prop where
  begun : ∀ c call, s.calls c = some call → .begins c call.requestId call.message ∈ trace
  fresh : ∀ c, s.calls c = none → trace.any (isBegin c) = false

section Trace

variable {trace : List SessionEvent} {s t : Session} {e : SessionEvent}

theorem Known.any_isBegin (h : Known trace s) {c : CallId} {call : Call}
    (hcall : s.calls c = some call) : trace.any (isBegin c) = true :=
  List.any_eq_true.mpr ⟨_, h.begun c call hcall, by simp [isBegin]⟩

theorem Known.step (h : Known trace s) (hstep : s.step e = some t) : Known (trace ++ [e]) t := by
  by_cases hbegin : ∃ c id message, e = .begins c id message
  · obtain ⟨c, id, message, rfl⟩ := hbegin
    simp only [Session.step, Option.ite_none_right_eq_some, Option.some.injEq] at hstep
    obtain ⟨-, rfl⟩ := hstep
    obtain ⟨call, hcalls, rfl, rfl⟩ := begin_calls s c id message
    constructor
    · intro c' call' hcall'
      rw [hcalls] at hcall'
      by_cases hc : c' = c
      · subst hc
        rw [Function.update_self] at hcall'
        cases hcall'
        simp
      · rw [Function.update_of_ne hc] at hcall'
        exact List.mem_append_left _ (h.begun c' call' hcall')
    · intro c' hcall'
      rw [hcalls] at hcall'
      by_cases hc : c' = c
      · subst hc
        rw [Function.update_self] at hcall'
        cases hcall'
      · rw [Function.update_of_ne hc] at hcall'
        simp [h.fresh c' hcall', isBegin, Ne.symm hc]
  · have hevolves : Evolves s t := by
      apply evolves_step hstep
      intro c id message heq
      exact hbegin ⟨c, id, message, heq⟩
    have hnot : ∀ c, e.isBegin c = false := by
      intro c
      rcases e with m | cause | ⟨c', id, message⟩ | c' | ⟨c', e⟩ | c' | c'
      case begins => exact absurd ⟨c', id, message, rfl⟩ hbegin
      all_goals rfl
    constructor
    · intro c call' hcall'
      rcases hevolves c with ⟨-, hnone⟩ | ⟨call, call₁, hcall, hcall₁, hid, hmessage⟩
      · rw [hcall'] at hnone
        cases hnone
      · rw [hcall'] at hcall₁
        cases hcall₁
        rw [hid, hmessage]
        exact List.mem_append_left _ (h.begun c call hcall)
    · intro c hcall'
      rcases hevolves c with ⟨hnone, -⟩ | ⟨call, call₁, hcall, hcall₁, -, -⟩
      · simp [h.fresh c hnone, hnot c]
      · rw [hcall'] at hcall₁
        cases hcall₁

/-- With distinct request ids, an id names one call. -/
theorem Known.unique (h : Known trace s) (hids : (trace.filterMap beginId?).Nodup)
    {c c' : CallId} {call call' : Call} (hcall : s.calls c = some call)
    (hcall' : s.calls c' = some call') (hid : call'.requestId = call.requestId) : c' = c := by
  have hsame := eq_of_nodup_filterMap hids (h.begun c' call' hcall') (h.begun c call hcall)
    (k := call.requestId) (by simp [beginId?, hid]) (by simp [beginId?])
  exact (SessionEvent.begins.inj hsame).1

/-- The table invariant, with what the trace says put in. -/
abbrev CorrelatedIn (trace : List SessionEvent) (s : Session) : Prop :=
  Correlated (fun c id => firstAnswer c id trace) (fun c => .cancels c ∈ trace)
    (fun c e => .sendFails c e ∈ trace) s

/-- An event that delivers no answer leaves what came first as it was. -/
theorem CorrelatedIn.extend (h : CorrelatedIn trace s) (hknown : Known trace s)
    (hsilent : ∀ id, e.answerTo id = none) : CorrelatedIn (trace ++ [e]) s := by
  refine h.congr ?_ (fun c hc => List.mem_append_left _ hc) fun c e' he => List.mem_append_left _ he
  intro c call hcall
  rw [firstAnswer_snoc (hknown.any_isBegin hcall), hsilent, Option.or_none]

/-- **One step keeps the table and the trace in agreement.** -/
theorem CorrelatedIn.step (h : CorrelatedIn trace s) (hknown : Known trace s)
    (hids : (trace.filterMap beginId?).Nodup) (hstep : s.step e = some t) :
    CorrelatedIn (trace ++ [e]) t := by
  cases step_cases hstep with
  | arrives hrunning m =>
      have hreceived := h.receive hrunning m
      refine hreceived.congr ?_ (fun c hc => List.mem_append_left _ hc)
        fun c e he => List.mem_append_left _ he
      intro c call hcall
      rcases evolves_receive s m c with ⟨-, hnone⟩ | ⟨call₀, -, hcall₀, -, -, -⟩
      · rw [hcall] at hnone
        cases hnone
      · rw [firstAnswer_snoc (hknown.any_isBegin hcall₀)]
  | ends hrunning cause => exact (h.extend hknown fun _ => rfl).endPump hrunning _
  | @begins c hnew id m =>
      refine (h.extend hknown fun _ => rfl).begin hnew ?_ id m
      intro id'
      exact firstAnswer_begin (hknown.fresh c hnew) id' _
  | @sends c call hcall hsending hwanted =>
      have hext := h.extend (e := .sends c) hknown fun _ => rfl
      refine hext.updateCall hcall rfl (fun _ => rfl) ?_
      exact (hext.decides c call hcall (by simp [hsending])).await hsending
  | @sendFails c call hcall hsending e =>
      have hext := h.extend (e := .sendFails c e) hknown fun _ => rfl
      refine hext.finish hcall (fun c' call' hcall' hid => hknown.unique hids hcall hcall' hid) ?_
      intro listed
      refine (hext.decides c call hcall (by simp [hsending])).leave rfl ?_ ?_
      · intro o hstage
        cases hstage
      · intro e' hstage
        cases hstage
        exact Or.inr (Or.inr (by simp))
  | @cancels c call hcall hopen =>
      have hext := h.extend (e := .cancels c) hknown fun _ => rfl
      have hregistered : ∀ e, call.stage ≠ .refused e := by
        intro e hstage
        rw [hstage] at hopen
        cases hopen
      refine hext.updateCall hcall rfl (fun hopen => hopen) ?_
      exact (hext.decides c call hcall hregistered).cancel (by simp) hopen
  | @resumes c call stage hcall hexit =>
      have hext := h.extend (e := .resumes c) hknown fun _ => rfl
      have hexits := exit_cases hexit
      have hregistered : ∀ e, call.stage ≠ .refused e := by
        intro e hstage
        cases hexits <;> simp_all [Stage.isOpen]
      refine hext.finish hcall (fun c' call' hcall' hid => hknown.unique hids hcall hcall' hid) ?_
      intro listed
      exact (hext.decides c call hcall hregistered).exit hexits

theorem run_correlated {w₀ : WorldView} (hrun : Run Step (start w₀) trace s) :
    Known trace s ∧ ((trace.filterMap beginId?).Nodup → CorrelatedIn trace s) := by
  apply hrun.traceInvariant (P := fun trace s =>
    Known trace s ∧ ((trace.filterMap beginId?).Nodup → CorrelatedIn trace s))
  · refine ⟨⟨?_, fun _ _ => rfl⟩, fun _ => ⟨?_, ?_, ?_⟩⟩
    · intro c call hcall
      cases hcall
    · intro id c hlisted
      cases hlisted
    · intro e herror
      cases herror
    · intro c call hcall
      cases hcall
  · rintro trace s e t - ⟨hknown, hcorrelated⟩ hstep
    refine ⟨hknown.step hstep, ?_⟩
    intro hids
    rw [List.filterMap_append] at hids
    have hbefore := hids.sublist (List.sublist_append_left _ _)
    exact (hcorrelated hbefore).step hknown hbefore hstep

/-! ### The law -/

theorem requestId_of_answer {m : ServerMessage} {id : String} {o : CommandOutcome}
    (h : (SessionEvent.arrives m).answerTo id = some (.outcome o)) : o.requestId = id := by
  rcases m with state | wire | error | _ | _
  · simp [answerTo, ServerMessage.answer?] at h
  · simp only [answerTo, ServerMessage.answer?, Option.bind_some,
      Option.ite_none_right_eq_some, Option.some.injEq, Answer.outcome.injEq] at h
    obtain ⟨hid, rfl⟩ := h
    exact hid
  · rcases hnull : error.requestId.null with _ | _
    · simp [answerTo, ServerMessage.answer?, hnull] at h
    · simp [answerTo, ServerMessage.answer?, hnull] at h
  · simp [answerTo, ServerMessage.answer?] at h
  · simp [answerTo, ServerMessage.answer?] at h

/-- The outcome that came first has the request id of the call. -/
theorem requestId_of_firstAnswer {c : CallId} {id : String} {o : CommandOutcome}
    (h : firstAnswer c id trace = some (.outcome o)) : o.requestId = id := by
  have hmem : Answer.outcome o ∈ answersTo c id trace := List.mem_of_mem_head? h
  have hanswer : ∃ e ∈ trace, e.answerTo id = some (.outcome o) := by
    clear h
    induction trace with
    | nil => cases hmem
    | cons e rest ih =>
        rw [answersTo] at hmem
        rcases hbegin : e.isBegin c with _ | _
        · rw [hbegin, if_neg Bool.false_ne_true] at hmem
          obtain ⟨e', he', hanswer⟩ := ih hmem
          exact ⟨e', List.mem_cons_of_mem e he', hanswer⟩
        · rw [hbegin, if_pos rfl, List.mem_filterMap] at hmem
          obtain ⟨e', he', hanswer⟩ := hmem
          exact ⟨e', List.mem_cons_of_mem e he', hanswer⟩
  obtain ⟨e, -, hanswer⟩ := hanswer
  rcases e with m | _ | _ | _ | _ | _ | _
  · exact requestId_of_answer hanswer
  all_goals cases hanswer

/-- What correlation promises a registered call. -/
structure Correct (trace : List SessionEvent) (s : Session) (c : CallId) (call : Call) :
    Prop where
  /-- The first answer decides it, whatever the call was doing when it came. -/
  decided : ∀ a, firstAnswer c call.requestId trace = some a → .cancels c ∉ trace →
    (∀ e, .sendFails c e ∉ trace) →
    call.future = a.future ∧ (call.stage.isOpen = false → call.stage = a.stage) ∧
      (call.stage = .awaiting → s.step (.resumes c) = some (s.finish c call a.stage))
  /-- It returns no other outcome. -/
  returned : ∀ o, call.stage = .returned o →
    firstAnswer c call.requestId trace = some (.outcome o) ∧ o.requestId = call.requestId
  /-- It raises no other exception, unless it was cancelled, its send failed, or the
  pump ended before any answer. -/
  raised : ∀ e, call.stage = .raised e →
    (∃ code close, e = .protocolErrorReceived code close ∧
      firstAnswer c call.requestId trace = some (.error code close)) ∨
    (e = .cancelled ∧ .cancels c ∈ trace) ∨ .sendFails c e ∈ trace ∨
    (firstAnswer c call.requestId trace = none ∧ s.pumpError = some e)

theorem correct_of_decides {c : CallId} {call : Call} (hcall : s.calls c = some call)
    (hregistered : ∀ e, call.stage ≠ .refused e)
    (h : Decides (firstAnswer c call.requestId trace) s.pumpError (.cancels c ∈ trace)
      (fun e => .sendFails c e ∈ trace) (s.pending call.requestId = some c) call) :
    Correct trace s c call := by
  refine ⟨?_, ?_, ?_⟩
  · intro a ha hcancels hsendFails
    have hfuture : call.future = a.future := by
      rcases h.decided a ha with hfuture | hc | ⟨e, he⟩
      · exact hfuture
      · exact absurd hc hcancels
      · exact absurd he (hsendFails e)
    refine ⟨hfuture, ?_, ?_⟩
    · intro hclosed
      rcases hstage : call.stage with _ | _ | o | e | e
      · simp [hstage, Stage.isOpen] at hclosed
      · simp [hstage, Stage.isOpen] at hclosed
      · have hresult := h.returned o hstage
        rw [hfuture] at hresult
        cases a <;> cases hresult
        rfl
      · rcases h.raised e hstage with hexc | ⟨-, hc⟩ | hf
        · rw [hfuture] at hexc
          cases a <;> cases hexc
          rfl
        · exact absurd hc hcancels
        · exact absurd hf (hsendFails e)
      · exact absurd hstage (hregistered e)
    · intro hawaiting
      have hcancelling : call.cancelling = false := by
        rw [← Bool.not_eq_true]
        intro hc
        exact hcancels (h.cancelling hc)
      cases a with
      | outcome o => simp [step, hcall, exit, hawaiting, hcancelling, hfuture, Answer.future, Answer.stage]
      | error code close =>
          simp [step, hcall, exit, hawaiting, hcancelling, hfuture, Answer.future, Answer.stage]
  · intro o hstage
    have hfirst := h.result o (h.returned o hstage)
    exact ⟨hfirst, requestId_of_firstAnswer hfirst⟩
  · intro e hstage
    rcases h.raised e hstage with hexc | hcancelled | hfailed
    · rcases h.exception e hexc with hanswer | hpump
      · exact Or.inl hanswer
      · exact Or.inr (Or.inr (Or.inr hpump))
    · exact Or.inr (Or.inl hcancelled)
    · exact Or.inr (Or.inr (Or.inl hfailed))

/-- **Command correlation is exactly once.** In every interleaving of calls with
distinct request ids, answers, failures and cancellations: a registered call is
decided by the first answer to its own id; an id names one call, so no answer
decides two; and after the pump has ended no open call waits for an answer, those
that await can leave, and a later call is refused without sending. -/
theorem send_is_correlated {w₀ : WorldView} (hrun : Run Step (start w₀) trace s)
    (hids : (trace.filterMap beginId?).Nodup) :
    (∀ c call, s.calls c = some call → (∀ e, call.stage ≠ .refused e) → Correct trace s c call) ∧
    (∀ c c' call call', s.calls c = some call → s.calls c' = some call' →
      call'.requestId = call.requestId → c' = c) ∧
    ∀ e, s.pumpError = some e →
      (∀ c call, s.calls c = some call → call.stage.isOpen = true →
        call.future ≠ .waiting ∧
          (call.stage = .awaiting → ∃ t, s.step (.resumes c) = some t)) ∧
      ∀ c id message t, s.step (.begins c id message) = some t →
        t.sent = s.sent ∧ t.calls c = some { requestId := id, message, stage := .refused e } := by
  obtain ⟨hknown, hcorrelated⟩ := run_correlated hrun
  have hinv := hcorrelated hids
  refine ⟨?_, ?_, ?_⟩
  · intro c call hcall hregistered
    exact correct_of_decides hcall hregistered (hinv.decides c call hcall hregistered)
  · intro c c' call call' hcall hcall' hid
    exact hknown.unique hids hcall hcall' hid
  · intro e herror
    constructor
    · intro c call hcall hopen
      have hregistered : ∀ e, call.stage ≠ .refused e := by
        intro e hstage
        rw [hstage] at hopen
        cases hopen
      have hdone : call.future ≠ .waiting := by
        intro hwaiting
        obtain ⟨-, hnone, -⟩ := (hinv.decides c call hcall hregistered).waiting hopen hwaiting
        rw [herror] at hnone
        cases hnone
      refine ⟨hdone, ?_⟩
      intro hawaiting
      rcases hcancelling : call.cancelling with _ | _
      · rcases hfuture : call.future with _ | o | e' | _
        · exact absurd hfuture hdone
        all_goals simp [step, hcall, exit, hawaiting, hcancelling, hfuture]
      · simp [step, hcall, exit, hawaiting, hcancelling]
    · intro c id message t hstep
      simp only [step, Option.ite_none_right_eq_some, Option.some.injEq] at hstep
      obtain ⟨-, rfl⟩ := hstep
      simp [begin, herror]

end Trace

/-- A result that overtakes the completion of the send it answers. -/
def sampleExchange : List SessionEvent :=
  [.begins 0 "request-1" (.withdraw "run" "request-1" "offer-1"),
    .arrives (.result
      { requestId := "request-1", ok := true, code := .OK, processedTick := 0,
        processedVersion := 2, objectId := ⟨false, "offer-1"⟩, transactionId := ⟨true, ""⟩,
        retryAfterTick := ⟨true, 0⟩ }),
    .sends 0, .resumes 0]

theorem send_is_correlated_sample :
    ∃ s call, Run Step (start .sample) sampleExchange s ∧ s.calls 0 = some call ∧
      (∃ o, call.stage = .returned o) ∧ Correct sampleExchange s 0 call := by
  obtain ⟨call, hcall, hstage⟩ : ∃ call,
      (replay step (start .sample) sampleExchange).map (fun s => s.calls 0) = some (some call) ∧
        ∃ o, call.stage = .returned o := ⟨_, rfl, _, rfl⟩
  obtain ⟨s, hreplay, hs⟩ := Option.map_eq_some_iff.mp hcall
  have hrun : Run Step (start .sample) sampleExchange s := run_of_replay (fun _ _ _ h => h) hreplay
  obtain ⟨o, ho⟩ := hstage
  refine ⟨s, call, hrun, hs, ⟨o, ho⟩, (send_is_correlated hrun (by decide)).1 0 call hs ?_⟩
  intro e hrefused
  rw [ho] at hrefused
  cases hrefused

end Session

end PlanetCharlu
