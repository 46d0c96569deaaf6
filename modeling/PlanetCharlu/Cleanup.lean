import PlanetCharlu.Calls

/-!
# The cleanup of a command (`commands.py`)

`PendingRequests` and the calls of `send_command` by themselves, below the session. A
call registers its request id before its first await and discards it when it leaves. An
answer takes the registration out of the table, so between the answer and the moment
the call's task runs again the id is free, and another call may register it.

The table is the source's dictionary. A future is named by a number, and the call that
registered it by the same number; a future without a call is a registration that other
code made. `discard` is what a call does when it leaves; nothing else calls it.
-/

namespace PlanetCharlu

open Runs

abbrev FutureId := Nat

/-- `if not future.done(): future.set_…`. -/
def Future.settle (future value : Future) : Future :=
  if future = .waiting then value else future

structure PendingRequests where
  pending : AList fun _ : String => FutureId := ∅
  futures : FutureId → Option Future := fun _ => none

namespace PendingRequests

def register (p : PendingRequests) (c : FutureId) (requestId : String) :
    Except SessionError PendingRequests :=
  if requestId ∈ p.pending then .error (.duplicateRequestId requestId)
  else
    .ok
      { pending := p.pending.insert requestId c
        futures := Function.update p.futures c (some .waiting) }

/-- An id that is not pending is only logged. -/
def popPending (p : PendingRequests) (requestId : String) : Option FutureId × PendingRequests :=
  (p.pending.lookup requestId, { p with pending := p.pending.erase requestId })

/-- What `resolve` and `reject` do with the future. -/
def complete (p : PendingRequests) (requestId : String) (value : Future) : PendingRequests :=
  match p.popPending requestId with
  | (none, p) => p
  | (some c, p) =>
      { p with
        futures := Function.update p.futures c ((p.futures c).map fun f => f.settle value) }

def resolve (p : PendingRequests) (outcome : CommandOutcome) : PendingRequests :=
  p.complete outcome.requestId (.result outcome)

def reject (p : PendingRequests) (requestId : String) (e : SessionError) : PendingRequests :=
  p.complete requestId (.exception e)

/-- `self._pending.values()`. -/
def values (p : PendingRequests) : List FutureId := p.pending.entries.map Sigma.snd

def failAll (p : PendingRequests) (e : SessionError) : PendingRequests where
  pending := ∅
  futures := fun c => (p.futures c).map fun f =>
    if c ∈ p.values then f.settle (.exception e) else f

def discard (p : PendingRequests) (requestId : String) : PendingRequests :=
  { p with pending := p.pending.erase requestId }

end PendingRequests

/-- A call of `send_command` that has registered. -/
structure SendCall where
  requestId : String
  message : ClientMessage
  stage : Stage := .sending
  cancelling : Bool := false
deriving DecidableEq, Repr

/-- The call together with its future. -/
def SendCall.toCall (call : SendCall) (future : Future) : Call where
  requestId := call.requestId
  message := call.message
  stage := call.stage
  future := future
  cancelling := call.cancelling

structure Commands where
  requests : PendingRequests := {}
  calls : FutureId → Option SendCall := fun _ => none
  sent : List ClientMessage := []

inductive CommandEvent where
  /-- `PendingRequests.register`, by other code. -/
  | registers (c : FutureId) (requestId : String)
  | resolves (outcome : CommandOutcome)
  | rejects (requestId : String) (e : SessionError)
  | failsAll (e : SessionError)
  /-- `send_command` is called, and runs to its first await or raises. -/
  | begins (c : FutureId) (requestId : String) (message : ClientMessage)
  /-- `connection.send` returns, or raises. -/
  | sends (c : FutureId)
  | sendFails (c : FutureId) (e : SessionError)
  /-- The call's task is cancelled. -/
  | cancels (c : FutureId)
  /-- The call's task wakes up and leaves. -/
  | resumes (c : FutureId)
deriving DecidableEq, Repr

/-- The id that an event registers, if it is free. -/
def CommandEvent.registered? : CommandEvent → Option String
  | .registers _ requestId => some requestId
  | .begins _ requestId _ => some requestId
  | _ => none

/-- The call that leaves, through its `finally` block. -/
def CommandEvent.leaves? : CommandEvent → Option FutureId
  | .sendFails c _ => some c
  | .resumes c => some c
  | _ => none

namespace Commands

/-- `send_command` up to its first await. The registration is outside of the `try`. -/
def sendCommand (k : Commands) (c : FutureId) (requestId : String) (message : ClientMessage) :
    Except SessionError Commands :=
  (k.requests.register c requestId).map fun requests =>
    { requests
      calls := Function.update k.calls c (some { requestId, message })
      sent := k.sent ++ [message] }

/-- A call leaves, and its `finally` block discards its request id. -/
def leave (k : Commands) (c : FutureId) (call : SendCall) (stage : Stage) : Commands :=
  { k with
    requests := k.requests.discard call.requestId
    calls := Function.update k.calls c (some { call with stage }) }

/-- Cancelling a task cancels the future it awaits, if that is still pending. -/
def cancel (k : Commands) (c : FutureId) (call : SendCall) : Commands :=
  { k with
    requests := { k.requests with
      futures :=
        if call.stage = .awaiting then
          Function.update k.requests.futures c
            ((k.requests.futures c).map fun f => f.settle .cancelled)
        else k.requests.futures }
    calls := Function.update k.calls c (some { call with cancelling := true }) }

def isNew (k : Commands) (c : FutureId) : Bool :=
  (k.requests.futures c).isNone && (k.calls c).isNone

def step (k : Commands) (event : CommandEvent) : Option Commands :=
  match event with
  | .registers c requestId =>
      if k.isNew c then
        match k.requests.register c requestId with
        | .ok requests => some { k with requests }
        | .error _ => some k
      else none
  | .resolves outcome => some { k with requests := k.requests.resolve outcome }
  | .rejects requestId e => some { k with requests := k.requests.reject requestId e }
  | .failsAll e => some { k with requests := k.requests.failAll e }
  | .begins c requestId message =>
      if k.isNew c then
        match k.sendCommand c requestId message with
        | .ok k' => some k'
        | .error _ => some k
      else none
  | .sends c =>
      (k.calls c).bind fun call =>
        if call.stage = .sending ∧ call.cancelling = false then
          some { k with calls := Function.update k.calls c (some { call with stage := .awaiting }) }
        else none
  | .sendFails c e =>
      (k.calls c).bind fun call =>
        if call.stage = .sending then some (k.leave c call (.raised e)) else none
  | .cancels c =>
      (k.calls c).bind fun call => if call.stage.isOpen then some (k.cancel c call) else none
  | .resumes c =>
      (k.calls c).bind fun call =>
        (k.requests.futures c).bind fun future =>
          (Session.exit (call.toCall future)).map fun stage => k.leave c call stage

def Step (k : Commands) (event : CommandEvent) (t : Commands) : Prop := k.step event = some t

/-- What each event has checked, and what it makes of the commands. -/
inductive Stepped (k : Commands) : CommandEvent → Commands → Prop where
  | refused {e : CommandEvent} {requestId : String} (hregisters : e.registered? = some requestId)
      (hpending : requestId ∈ k.requests.pending) : Stepped k e k
  | registers {c : FutureId} {requestId : String} (hnew : k.isNew c = true)
      (hfree : requestId ∉ k.requests.pending) :
      Stepped k (.registers c requestId)
        { k with requests :=
            { pending := k.requests.pending.insert requestId c
              futures := Function.update k.requests.futures c (some .waiting) } }
  | resolves (outcome : CommandOutcome) :
      Stepped k (.resolves outcome)
        { k with requests := k.requests.complete outcome.requestId (.result outcome) }
  | rejects (requestId : String) (e : SessionError) :
      Stepped k (.rejects requestId e)
        { k with requests := k.requests.complete requestId (.exception e) }
  | failsAll (e : SessionError) :
      Stepped k (.failsAll e) { k with requests := k.requests.failAll e }
  | begins {c : FutureId} {requestId : String} (hnew : k.isNew c = true)
      (hfree : requestId ∉ k.requests.pending) (message : ClientMessage) :
      Stepped k (.begins c requestId message)
        { requests :=
            { pending := k.requests.pending.insert requestId c
              futures := Function.update k.requests.futures c (some .waiting) }
          calls := Function.update k.calls c (some { requestId, message })
          sent := k.sent ++ [message] }
  | sends {c : FutureId} {call : SendCall} (hcall : k.calls c = some call)
      (hsending : call.stage = .sending) (hwanted : call.cancelling = false) :
      Stepped k (.sends c)
        { k with calls := Function.update k.calls c (some { call with stage := .awaiting }) }
  | sendFails {c : FutureId} {call : SendCall} (hcall : k.calls c = some call)
      (hsending : call.stage = .sending) (e : SessionError) :
      Stepped k (.sendFails c e) (k.leave c call (.raised e))
  | cancels {c : FutureId} {call : SendCall} (hcall : k.calls c = some call)
      (hopen : call.stage.isOpen = true) : Stepped k (.cancels c) (k.cancel c call)
  | resumes {c : FutureId} {call : SendCall} {future : Future} {stage : Stage}
      (hcall : k.calls c = some call) (hfuture : k.requests.futures c = some future)
      (hexit : Session.exit (call.toCall future) = some stage) :
      Stepped k (.resumes c) (k.leave c call stage)

section

variable {k t : Commands} {e : CommandEvent} {c g : FutureId} {call : SendCall} {id : String}

theorem step_cases (h : k.step e = some t) : Stepped k e t := by
  rcases e with ⟨c, id⟩ | outcome | ⟨id, e⟩ | e | ⟨c, id, m⟩ | c | ⟨c, e⟩ | c | c
  · simp only [step, PendingRequests.register] at h
    split at h
    · rename_i hnew
      by_cases hpending : id ∈ k.requests.pending
      · rw [if_pos hpending] at h
        cases h
        exact .refused rfl hpending
      · rw [if_neg hpending] at h
        cases h
        exact .registers hnew hpending
    · cases h
  · cases h
    exact .resolves outcome
  · cases h
    exact .rejects id e
  · cases h
    exact .failsAll e
  · simp only [step, sendCommand, PendingRequests.register] at h
    split at h
    · rename_i hnew
      by_cases hpending : id ∈ k.requests.pending
      · rw [if_pos hpending] at h
        cases h
        exact .refused rfl hpending
      · rw [if_neg hpending] at h
        cases h
        exact .begins hnew hpending m
    · cases h
  all_goals
    simp only [step, Option.bind_eq_some_iff, Option.ite_none_right_eq_some, Option.some.injEq,
      Option.map_eq_some_iff] at h
  · obtain ⟨call, hcall, ⟨hsending, hwanted⟩, rfl⟩ := h
    exact .sends hcall hsending hwanted
  · obtain ⟨call, hcall, hsending, rfl⟩ := h
    exact .sendFails hcall hsending e
  · obtain ⟨call, hcall, hopen, rfl⟩ := h
    exact .cancels hcall hopen
  · obtain ⟨call, hcall, future, hfuture, stage, hexit, rfl⟩ := h
    exact .resumes hcall hfuture hexit

/-! ### What is registered -/

/-- The future that is registered under an id. -/
def listed (k : Commands) (id : String) : Option FutureId := k.requests.pending.lookup id

theorem listed_eq_none : k.listed id = none ↔ id ∉ k.requests.pending := AList.lookup_eq_none

theorem mem_values : c ∈ k.requests.values ↔ ∃ id, k.listed id = some c := by
  rw [PendingRequests.values, List.mem_map]
  constructor
  · rintro ⟨⟨id, c⟩, hmem, rfl⟩
    exact ⟨id, AList.mem_lookup_iff.mpr hmem⟩
  · rintro ⟨id, hlisted⟩
    exact ⟨⟨id, c⟩, AList.mem_lookup_iff.mp hlisted, rfl⟩

end

end Commands

namespace PendingRequests

variable (p : PendingRequests) (id id' : String) (value : Future) (c : FutureId)

theorem lookup_complete :
    (p.complete id value).pending.lookup id' =
      if id' = id then none else p.pending.lookup id' := by
  have herase : (p.complete id value).pending = p.pending.erase id := by
    simp only [complete, popPending]
    cases p.pending.lookup id <;> rfl
  rw [herase]
  split
  · rename_i hid
    rw [hid, AList.lookup_erase]
  · rename_i hid
    rw [AList.lookup_erase_ne hid]

theorem futures_complete :
    (p.complete id value).futures c =
      (p.futures c).map fun f => if p.pending.lookup id = some c then f.settle value else f := by
  simp only [complete, popPending]
  rcases hlookup : p.pending.lookup id with _ | g
  · simp
  · by_cases hc : c = g
    · subst hc
      simp
    · have hne : ¬ some g = some c := fun h => hc (Option.some.inj h).symm
      simp [Function.update_of_ne hc, hne]

end PendingRequests

theorem Future.settle_ne_waiting {f value : Future} (hvalue : value ≠ .waiting) :
    f.settle value ≠ .waiting := by
  simp only [settle]
  split
  · exact hvalue
  · assumption

theorem Session.exit_isOpen {call : Call} {stage : Stage} (h : Session.exit call = some stage) :
    call.stage.isOpen = true ∧ stage.isOpen = false := by
  cases Session.exit_cases h with
  | cancelled hopen _ => exact ⟨hopen, rfl⟩
  | result hopen _ => exact ⟨hopen, rfl⟩
  | exception hopen _ => exact ⟨hopen, rfl⟩

namespace Commands

section Registrations

variable {k t : Commands} {e : CommandEvent} {c c' g : FutureId} {call : SendCall} {id : String}
  {value : Future}

/-- The call has registered and not left. -/
def IsOpen (k : Commands) (c : FutureId) (call : SendCall) : Prop :=
  k.calls c = some call ∧ call.stage.isOpen = true

/-- The call is open and has no answer yet. -/
def Waits (k : Commands) (c : FutureId) (call : SendCall) : Prop :=
  k.IsOpen c call ∧ k.requests.futures c = some .waiting

/-- Every open call has its future; under its id no other future is registered; and it is
registered as long as its future waits. -/
structure Apart (k : Commands) : Prop where
  made : ∀ {c call}, k.IsOpen c call → ∃ f, k.requests.futures c = some f
  own : ∀ {c call g}, k.IsOpen c call → k.listed call.requestId = some g → g = c
  waits : ∀ {c call}, k.Waits c call → k.listed call.requestId = some c

/-- No open call has used this id and is no longer registered under it. -/
def MayRegister (k : Commands) (id : String) : Prop :=
  ∀ c call, k.IsOpen c call → call.requestId = id → k.listed id = some c

theorem futures_cancel (k : Commands) (c c' : FutureId) (call : SendCall) :
    (k.cancel c call).requests.futures c' = (k.requests.futures c').map fun f =>
      if c' = c ∧ call.stage = .awaiting then f.settle .cancelled else f := by
  simp only [cancel]
  by_cases hstage : call.stage = .awaiting
  · by_cases hc : c' = c
    · subst hc
      simp [hstage]
    · simp [hstage, hc]
  · simp [hstage]

namespace Apart

theorem complete (h : k.Apart) (id : String) (hvalue : value ≠ .waiting) :
    { k with requests := k.requests.complete id value }.Apart := by
  refine ⟨?_, ?_, ?_⟩
  · intro c call hopen
    obtain ⟨f, hf⟩ := h.made hopen
    exact ⟨_, by rw [PendingRequests.futures_complete, hf, Option.map_some]⟩
  · intro c call g hopen hlisted
    rw [listed, PendingRequests.lookup_complete] at hlisted
    split at hlisted
    · cases hlisted
    · exact h.own hopen hlisted
  · rintro c call ⟨hopen, hwaiting⟩
    rw [PendingRequests.futures_complete] at hwaiting
    obtain ⟨f, hf, hsettled⟩ := Option.map_eq_some_iff.mp hwaiting
    split at hsettled
    · exact absurd hsettled (Future.settle_ne_waiting hvalue)
    · rename_i hother
      have hlisted := h.waits ⟨hopen, hsettled ▸ hf⟩
      rw [listed, PendingRequests.lookup_complete, if_neg]
      · exact hlisted
      · intro hid
        rw [hid] at hlisted
        exact hother hlisted

theorem failAll (h : k.Apart) (e : SessionError) :
    { k with requests := k.requests.failAll e }.Apart := by
  refine ⟨?_, ?_, ?_⟩
  · intro c call hopen
    obtain ⟨f, hf⟩ := h.made hopen
    rw [PendingRequests.failAll]
    dsimp only
    rw [hf]
    exact ⟨_, rfl⟩
  · intro c call g hopen hlisted
    cases hlisted
  · rintro c call ⟨hopen, hwaiting⟩
    obtain ⟨f, hf, hsettled⟩ := Option.map_eq_some_iff.mp hwaiting
    split at hsettled
    · exact absurd hsettled (Future.settle_ne_waiting (by simp))
    · rename_i hunlisted
      exact absurd (mem_values.mpr ⟨_, h.waits ⟨hopen, hsettled ▸ hf⟩⟩) hunlisted

/-- A new registration under an id that no open call has used. -/
theorem register (h : k.Apart) (hnew : k.isNew c = true) (hfree : id ∉ k.requests.pending)
    (hmay : k.MayRegister id)
    (hrequests : t.requests =
      { pending := k.requests.pending.insert id c
        futures := Function.update k.requests.futures c (some .waiting) })
    (hcalls : ∀ c' call, t.IsOpen c' call → k.IsOpen c' call ∨ c' = c ∧ call.requestId = id) :
    t.Apart := by
  have hfuture : k.requests.futures c = none ∧ k.calls c = none := by
    simpa [isNew] using hnew
  have hold : ∀ {c' call}, k.IsOpen c' call → c' ≠ c ∧ call.requestId ≠ id := by
    intro c' call hopen
    refine ⟨?_, ?_⟩
    · rintro rfl
      have hcall := hopen.1
      rw [hfuture.2] at hcall
      cases hcall
    · intro hid
      have hlisted := hmay c' call hopen hid
      rw [listed_eq_none.mpr hfree] at hlisted
      cases hlisted
  have hother : ∀ {id'}, id' ≠ id → t.listed id' = k.listed id' := by
    intro id' hid
    rw [listed, hrequests]
    exact AList.lookup_insert_ne hid
  have hself : t.listed id = some c := by
    rw [listed, hrequests]
    exact AList.lookup_insert _
  refine ⟨?_, ?_, ?_⟩
  · intro c' call hopen
    rw [hrequests]
    rcases hcalls c' call hopen with hbefore | ⟨rfl, -⟩
    · obtain ⟨f, hf⟩ := h.made hbefore
      exact ⟨f, by rw [← hf]; exact Function.update_of_ne (hold hbefore).1 _ _⟩
    · exact ⟨.waiting, Function.update_self _ _ _⟩
  · intro c' call g hopen hlisted
    rcases hcalls c' call hopen with hbefore | ⟨rfl, hid⟩
    · rw [hother (hold hbefore).2] at hlisted
      exact h.own hbefore hlisted
    · rw [hid, hself] at hlisted
      exact (Option.some.inj hlisted).symm
  · rintro c' call ⟨hopen, hwaiting⟩
    rcases hcalls c' call hopen with hbefore | ⟨rfl, hid⟩
    · rw [hrequests] at hwaiting
      simp only [Function.update_of_ne (hold hbefore).1] at hwaiting
      rw [hother (hold hbefore).2]
      exact h.waits ⟨hbefore, hwaiting⟩
    · rw [hid, hself]

/-- One open call moves on, and at most its own future is completed. -/
theorem update (h : k.Apart) {call' : SendCall} (hopen : k.IsOpen c call)
    (hcalls : t.calls = Function.update k.calls c (some call'))
    (hid : call'.requestId = call.requestId)
    (hpending : t.requests.pending = k.requests.pending)
    (hfutures : ∀ c' f, t.requests.futures c' = some f → f = .waiting →
      k.requests.futures c' = some .waiting)
    (hmade : ∀ c' f, k.requests.futures c' = some f → ∃ f', t.requests.futures c' = some f') :
    t.Apart := by
  have hbefore : ∀ {c' call₁}, t.IsOpen c' call₁ →
      ∃ call₀, k.IsOpen c' call₀ ∧ call₁.requestId = call₀.requestId := by
    rintro c' call₁ ⟨hcall, hstage⟩
    rw [hcalls] at hcall
    by_cases hc : c' = c
    · subst hc
      rw [Function.update_self, Option.some.injEq] at hcall
      subst hcall
      exact ⟨call, hopen, hid⟩
    · rw [Function.update_of_ne hc] at hcall
      exact ⟨call₁, ⟨hcall, hstage⟩, rfl⟩
  have hlisted : t.listed = k.listed := by
    funext id
    rw [listed, hpending, listed]
  refine ⟨?_, ?_, ?_⟩
  · intro c' call₁ hopen₁
    obtain ⟨call₀, hopen₀, -⟩ := hbefore hopen₁
    obtain ⟨f, hf⟩ := h.made hopen₀
    exact hmade c' f hf
  · intro c' call₁ g hopen₁ hlist
    obtain ⟨call₀, hopen₀, hsame⟩ := hbefore hopen₁
    rw [hlisted, hsame] at hlist
    exact h.own hopen₀ hlist
  · rintro c' call₁ ⟨hopen₁, hwaiting⟩
    obtain ⟨call₀, hopen₀, hsame⟩ := hbefore hopen₁
    rw [hlisted, hsame]
    exact h.waits ⟨hopen₀, hfutures c' _ hwaiting rfl⟩

/-- A call leaves: what it discards is at most its own. -/
theorem leave (h : k.Apart) (hopen : k.IsOpen c call) {stage : Stage}
    (hstage : stage.isOpen = false) : (k.leave c call stage).Apart := by
  have hbefore : ∀ {c' call'}, (k.leave c call stage).IsOpen c' call' →
      c' ≠ c ∧ k.IsOpen c' call' := by
    rintro c' call' ⟨hcall, hstage'⟩
    by_cases hc : c' = c
    · subst hc
      simp only [Commands.leave, Function.update_self, Option.some.injEq] at hcall
      rw [← hcall, hstage] at hstage'
      cases hstage'
    · simp only [Commands.leave, Function.update_of_ne hc] at hcall
      exact ⟨hc, hcall, hstage'⟩
  refine ⟨?_, ?_, ?_⟩
  · intro c' call' hopen'
    exact h.made (hbefore hopen').2
  · intro c' call' g hopen' hlisted
    obtain ⟨-, hopen'⟩ := hbefore hopen'
    by_cases hid : call'.requestId = call.requestId
    · rw [hid, listed] at hlisted
      simp only [Commands.leave, PendingRequests.discard, AList.lookup_erase] at hlisted
      cases hlisted
    · rw [listed] at hlisted
      simp only [Commands.leave, PendingRequests.discard, AList.lookup_erase_ne hid] at hlisted
      exact h.own hopen' hlisted
  · rintro c' call' ⟨hopen', hwaiting⟩
    obtain ⟨hc, hopen'⟩ := hbefore hopen'
    have hlisted := h.waits ⟨hopen', hwaiting⟩
    by_cases hid : call'.requestId = call.requestId
    · -- Then the other call's registration would be under the id of this one.
      rw [hid] at hlisted
      exact absurd (h.own hopen hlisted) hc
    · rw [listed]
      simp only [Commands.leave, PendingRequests.discard, AList.lookup_erase_ne hid]
      exact hlisted

theorem step (h : k.Apart) (hstep : k.step e = some t)
    (hmay : ∀ id, e.registered? = some id → k.MayRegister id) : t.Apart := by
  cases step_cases hstep with
  | refused hregisters hpending => exact h
  | registers hnew hfree =>
      exact h.register hnew hfree (hmay _ rfl) rfl fun c' call hopen => Or.inl hopen
  | resolves outcome => exact h.complete outcome.requestId (by simp)
  | rejects id e => exact h.complete id (by simp)
  | failsAll e => exact h.failAll e
  | @begins c id hnew hfree message =>
      refine h.register hnew hfree (hmay id rfl) rfl ?_
      rintro c' call ⟨hcall, hstage⟩
      by_cases hc : c' = c
      · subst hc
        simp only [Function.update_self, Option.some.injEq] at hcall
        exact Or.inr ⟨rfl, by rw [← hcall]⟩
      · simp only [Function.update_of_ne hc] at hcall
        exact Or.inl ⟨hcall, hstage⟩
  | @sends c call hcall hsending hwanted =>
      have hopen : k.IsOpen c call := ⟨hcall, by rw [hsending]; rfl⟩
      refine h.update hopen rfl rfl rfl ?_ fun _ f hf => ⟨f, hf⟩
      rintro c' f hf rfl
      exact hf
  | @sendFails c call hcall hsending e => exact h.leave ⟨hcall, by rw [hsending]; rfl⟩ rfl
  | @cancels c call hcall hopen =>
      refine h.update ⟨hcall, hopen⟩ rfl rfl rfl ?_ ?_
      · rintro c' f hf rfl
        rw [futures_cancel] at hf
        obtain ⟨f, hf, hsettled⟩ := Option.map_eq_some_iff.mp hf
        split at hsettled
        · exact absurd hsettled (Future.settle_ne_waiting (by simp))
        · rw [hf, hsettled]
      · intro c' f hf
        rw [futures_cancel, hf]
        exact ⟨_, rfl⟩
  | resumes hcall hfuture hexit =>
      obtain ⟨hopen, hclosed⟩ := Session.exit_isOpen hexit
      exact h.leave ⟨hcall, hopen⟩ hclosed

end Apart

/-! ### The law -/

/-- What every other command may rely on, whichever call leaves next. -/
structure Undisturbed (k : Commands) : Prop where
  /-- A call that leaves takes no registration with it but its own. -/
  discards : ∀ {e c t}, e.leaves? = some c → k.Step e t →
    ∀ id g, k.listed id = some g → t.listed id = some g ∨ g = c
  /-- A duplicate is refused, and neither registers nor sends anything. -/
  refuses : ∀ {c id message t}, id ∈ k.requests.pending →
    k.sendCommand c id message = .error (.duplicateRequestId id) ∧
      (k.Step (.begins c id message) t → t = k)
  /-- A call without an answer is registered, and gets the next answer for its id. -/
  registered : ∀ {c call}, k.Waits c call → k.listed call.requestId = some c
  resolved : ∀ {c call o}, k.Waits c call → o.requestId = call.requestId →
    (k.requests.resolve o).futures c = some (.result o)
  rejected : ∀ {c call e}, k.Waits c call →
    (k.requests.reject call.requestId e).futures c = some (.exception e)
  failed : ∀ {c call e}, k.Waits c call →
    (k.requests.failAll e).futures c = some (.exception e)

/-- What a call discards when it leaves. -/
theorem listed_leave (k : Commands) (c : FutureId) (call : SendCall) (stage : Stage) (id : String) :
    (k.leave c call stage).listed id = if id = call.requestId then none else k.listed id := by
  rw [listed]
  simp only [leave, PendingRequests.discard]
  split
  · rename_i hid
    rw [hid, AList.lookup_erase]
  · rename_i hid
    rw [AList.lookup_erase_ne hid, listed]

/-- A step in which a call leaves. -/
theorem exists_leave (hleaves : e.leaves? = some c) (hstep : k.Step e t) :
    ∃ call stage, k.IsOpen c call ∧ t = k.leave c call stage := by
  cases step_cases hstep with
  | refused hregisters hpending => cases e <;> cases hregisters <;> cases hleaves
  | sendFails hcall hsending e =>
      cases hleaves
      exact ⟨_, _, ⟨hcall, by rw [hsending]; rfl⟩, rfl⟩
  | resumes hcall hfuture hexit =>
      cases hleaves
      exact ⟨_, _, ⟨hcall, (Session.exit_isOpen hexit).1⟩, rfl⟩
  | _ => cases hleaves

theorem Apart.undisturbed (h : k.Apart) : k.Undisturbed := by
  have hcompleted : ∀ {c call value}, k.Waits c call →
      (k.requests.complete call.requestId value).futures c = some value := by
    intro c call value hwaits
    have hlisted := h.waits hwaits
    rw [listed] at hlisted
    rw [PendingRequests.futures_complete, hwaits.2, Option.map_some, if_pos hlisted]
    rfl
  refine ⟨?_, ?_, h.waits, ?_, hcompleted, ?_⟩
  · intro e c t hleaves hstep id g hlisted
    obtain ⟨call, stage, hopen, rfl⟩ := exists_leave hleaves hstep
    rw [listed_leave]
    by_cases hid : id = call.requestId
    · rw [hid] at hlisted
      exact Or.inr (h.own hopen hlisted)
    · rw [if_neg hid]
      exact Or.inl hlisted
  · intro c id message t hpending
    have hrefused : k.sendCommand c id message = .error (.duplicateRequestId id) := by
      rw [sendCommand, PendingRequests.register, if_pos hpending]
      rfl
    refine ⟨hrefused, fun hstep => ?_⟩
    cases step_cases hstep with
    | refused _ _ => rfl
    | begins _ hfree _ => exact absurd hpending hfree
  · intro c call o hwaits hid
    rw [PendingRequests.resolve, hid]
    exact hcompleted hwaits
  · intro c call e hwaits
    have hmem := mem_values.mpr ⟨_, h.waits hwaits⟩
    simp only [PendingRequests.failAll, hwaits.2, Option.map_some, if_pos hmem]
    rfl

/-- An id under which something is registered may be asked for: the call is refused. -/
theorem Apart.mayRegister (h : k.Apart) (hpending : id ∈ k.requests.pending) :
    k.MayRegister id := by
  rintro c call hopen rfl
  obtain ⟨g, hg⟩ := Option.isSome_iff_exists.mp (AList.lookup_isSome.mpr hpending)
  rw [← h.own hopen hg]
  exact hg

/-- An open call whose future is done can leave. -/
theorem exists_leaves (hopen : k.IsOpen c call) {f : Future}
    (hfuture : k.requests.futures c = some f) (hdone : f ≠ .waiting) :
    ∃ e stage, e.leaves? = some c ∧ k.Step e (k.leave c call stage) := by
  obtain ⟨hcall, hstage⟩ := hopen
  rcases hsending : call.stage with _ | _ | _ | _ | _
  case sending =>
    refine ⟨.sendFails c .cancelled, .raised .cancelled, rfl, ?_⟩
    simp [Step, step, hcall, hsending]
  case awaiting =>
    have hexit : ∃ stage, Session.exit (call.toCall f) = some stage := by
      rw [Session.exit]
      simp only [SendCall.toCall, hsending]
      cases call.cancelling
      · cases f with
        | waiting => exact absurd rfl hdone
        | _ => exact ⟨_, rfl⟩
      · exact ⟨_, rfl⟩
    obtain ⟨stage, hexit⟩ := hexit
    refine ⟨.resumes c, stage, rfl, ?_⟩
    simp [Step, step, hcall, hfuture, hexit]
  all_goals
    rw [hsending] at hstage
    cases hstage

/-- A registration under the id of a call that was answered and has not left is lost when
that call leaves. -/
theorem Apart.disturbed (h : k.Apart) (hnew : k.isNew c = true) (hfree : id ∉ k.requests.pending)
    (hmay : ¬k.MayRegister id)
    (hrequests : t.requests =
      { pending := k.requests.pending.insert id c
        futures := Function.update k.requests.futures c (some .waiting) })
    (hcalls : ∀ c', c' ≠ c → t.calls c' = k.calls c') : ¬t.Undisturbed := by
  intro hundisturbed
  simp only [MayRegister, not_forall] at hmay
  obtain ⟨c', call, hopen, rfl, hunlisted⟩ := hmay
  have hne : c' ≠ c := by
    rintro rfl
    have hcall := hopen.1
    simp only [isNew, Bool.and_eq_true, Option.isNone_iff_eq_none] at hnew
    rw [hnew.2] at hcall
    cases hcall
  have hlisted : t.listed call.requestId = some c := by
    rw [listed, hrequests]
    exact AList.lookup_insert _
  obtain ⟨f, hf⟩ := h.made hopen
  have hdone : f ≠ .waiting := by
    rintro rfl
    exact hunlisted (h.waits ⟨hopen, hf⟩)
  have hopen' : t.IsOpen c' call := ⟨by rw [hcalls c' hne]; exact hopen.1, hopen.2⟩
  have hf' : t.requests.futures c' = some f := by
    rw [hrequests, ← hf]
    exact Function.update_of_ne hne _ _
  obtain ⟨e, stage, hleaves, hstep⟩ := exists_leaves hopen' hf' hdone
  rcases hundisturbed.discards hleaves hstep _ c hlisted with hkept | hown
  · rw [listed_leave, if_pos rfl] at hkept
    cases hkept
  · exact hne hown.symm

/-- A step that registers an id only once no answered call still has to leave with it. -/
def CarefulStep (k : Commands) (e : CommandEvent) (t : Commands) : Prop :=
  k.Step e t ∧ ∀ id, e.registered? = some id → k.MayRegister id

theorem run_apart {trace : List CommandEvent} (hrun : Run CarefulStep {} trace k) : k.Apart := by
  refine hrun.invariant (A := fun _ => True) (fun _ _ => trivial) ?_ ?_
  · refine ⟨?_, ?_, ?_⟩
    · rintro c call ⟨hcall, -⟩
      cases hcall
    · rintro c call g ⟨hcall, -⟩
      cases hcall
    · rintro c call ⟨⟨hcall, -⟩, -⟩
      cases hcall
  · rintro k e t h - ⟨hstep, hmay⟩
    exact h.step hstep hmay

/-- **Cleanup disturbs no other command as long as no id is used again while a call that
was answered under it has not left.** The next step keeps this exactly if it meets the
condition. -/
theorem cleanup_undisturbed_iff {trace : List CommandEvent} (hrun : Run CarefulStep {} trace k) :
    k.Undisturbed ∧ ∀ e t, k.Step e t →
      (t.Undisturbed ↔ ∀ id, e.registered? = some id → k.MayRegister id) := by
  have hapart := run_apart hrun
  refine ⟨hapart.undisturbed, fun e t hstep => ⟨?_, ?_⟩⟩
  · intro hundisturbed id hregisters
    by_contra hmay
    have hfree : id ∉ k.requests.pending := fun hpending => hmay (hapart.mayRegister hpending)
    cases step_cases hstep with
    | refused hregisters' hpending =>
        rw [hregisters] at hregisters'
        cases hregisters'
        exact hfree hpending
    | registers hnew _ =>
        cases hregisters
        refine hapart.disturbed hnew hfree hmay ?_ (fun _ _ => ?_) hundisturbed
        all_goals rfl
    | begins hnew _ message =>
        cases hregisters
        refine hapart.disturbed hnew hfree hmay rfl (fun c' hc => ?_) hundisturbed
        exact Function.update_of_ne hc _ _
    | _ => cases hregisters
  · intro hmay
    exact (hapart.step hstep hmay).undisturbed

/-- Two commands with one request id. -/
def sampleMessage : ClientMessage := Codec.buildSync "run-1"

def sampleOutcome : CommandOutcome where
  requestId := "request-1"
  ok := true
  code := .OK
  objectId := none
  transactionId := none
  retryAfterTick := none

/-- The first is answered before the second begins. -/
def sampleTrace : List CommandEvent :=
  [.begins 0 "request-1" sampleMessage, .sends 0, .resolves sampleOutcome]

/-- The commands after some events. -/
def after (trace : List CommandEvent) : Commands := (replay step {} trace).getD {}

/-- The first has left when the second begins. -/
theorem run_carefulTrace :
    Run CarefulStep {} (sampleTrace ++ [.resumes 0] ++ [.begins 1 "request-1" sampleMessage])
      (after (sampleTrace ++ [.resumes 0] ++ [.begins 1 "request-1" sampleMessage])) := by
  have hstep : ∀ {trace e}, (after trace).step e = some (after (trace ++ [e])) →
      e.registered? = none → Run CarefulStep {} trace (after trace) →
        Run CarefulStep {} (trace ++ [e]) (after (trace ++ [e])) := by
    intro trace e hstep hnone hrun
    refine .next hrun ⟨hstep, fun id hid => ?_⟩
    rw [hnone] at hid
    cases hid
  have hfirst : Run CarefulStep {} ([] ++ [.begins 0 "request-1" sampleMessage])
      (after ([] ++ [.begins 0 "request-1" sampleMessage])) := by
    refine .next .start ⟨rfl, ?_⟩
    rintro id - c call ⟨hcall, -⟩
    cases hcall
  have hleft : Run CarefulStep {} (sampleTrace ++ [.resumes 0])
      (after (sampleTrace ++ [.resumes 0])) :=
    hstep rfl rfl (hstep rfl rfl (hstep rfl rfl hfirst))
  refine .next hleft ⟨rfl, ?_⟩
  rintro id - (_ | c) call ⟨hcall, hopen⟩
  · cases hcall
    cases hopen
  · cases hcall

theorem cleanup_undisturbed_iff_sample :
    ∃ k, Run CarefulStep {} (sampleTrace ++ [.resumes 0] ++ [.begins 1 "request-1" sampleMessage])
      k ∧ k.Undisturbed := by
  exact ⟨_, run_carefulTrace, (cleanup_undisturbed_iff run_carefulTrace).1⟩

/-- The first leaves after the second has begun: the second waits and is not registered. -/
theorem reused_id_is_discarded :
    ∃ k, Run Step {} (sampleTrace ++ [.begins 1 "request-1" sampleMessage, .sends 1, .resumes 0])
      k ∧ ¬k.Undisturbed := by
  obtain ⟨k, hreplay⟩ : ∃ k, replay step {} (sampleTrace ++
      [.begins 1 "request-1" sampleMessage, .sends 1, .resumes 0]) = some k :=
    Option.isSome_iff_exists.mp rfl
  refine ⟨k, run_of_replay (fun _ _ _ h => h) hreplay, fun hundisturbed => ?_⟩
  have hwaits : k.Waits 1
      { requestId := "request-1", message := sampleMessage, stage := .awaiting } := by
    cases hreplay
    exact ⟨⟨rfl, rfl⟩, rfl⟩
  have hlisted := hundisturbed.registered hwaits
  have hnone : k.listed "request-1" = none := by
    cases hreplay
    rfl
  rw [hnone] at hlisted
  cases hlisted

end Registrations

end Commands

end PlanetCharlu
