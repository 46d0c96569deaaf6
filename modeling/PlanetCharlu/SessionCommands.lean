import PlanetCharlu.Cleanup

/-!
# The commands of a session

The session is an instance of the commands by themselves: a step of the session is a run
of registrations, answers and calls of `send_command`, on the same table. A call that the
session refuses before it gets to `send_command` is not among them.
-/

namespace PlanetCharlu

open Runs

/-- The call got past `register`. -/
def Stage.isRefused : Stage → Bool
  | .refused _ => true
  | _ => false

/-- The call as `send_command` sees it. -/
def Call.toSend (call : Call) : SendCall where
  requestId := call.requestId
  message := call.message
  stage := call.stage
  cancelling := call.cancelling

def Call.sendCall? (call : Call) : Option SendCall :=
  if call.stage.isRefused then none else some call.toSend

def Call.future? (call : Call) : Option Future :=
  if call.stage.isRefused then none else some call.future

namespace Session

/-- The session's table, calls and messages are those of `k`. -/
structure Shows (s : Session) (k : Commands) : Prop where
  pending : ∀ id, k.listed id = s.pending id
  calls : ∀ c, k.calls c = (s.calls c).bind Call.sendCall?
  futures : ∀ c, k.requests.futures c = (s.calls c).bind Call.future?
  sent : k.sent = s.sent
  tagged : ∀ {id c}, s.pending id = some c →
    ∃ call, s.calls c = some call ∧ call.requestId = id ∧ call.stage.isRefused = false

section Simulation

variable {s t : Session} {k : Commands} {c : CallId} {call : Call}

theorem sendCall?_settle (call : Call) (f : Future) :
    (call.settle f).sendCall? = call.sendCall? := by
  rw [Call.settle]
  split <;> rfl

theorem future?_settle (call : Call) (f : Future) :
    (call.settle f).future? = call.future?.map fun g => g.settle f := by
  rw [Call.future?, Call.future?, Call.settle_stage]
  split
  · rfl
  · rw [Option.map_some, Call.settle, Future.settle]
    split <;> rfl

namespace Shows

/-- Futures are completed and registrations dropped. -/
theorem complete (h : s.Shows k) {p : PendingRequests} (completed : CallId → Prop)
    [DecidablePred completed] (f : Future)
    (hcalls : ∀ c, t.calls c = (s.calls c).map fun call =>
      if completed c then call.settle f else call)
    (hfutures : ∀ c, p.futures c = (k.requests.futures c).map fun g =>
      if completed c then g.settle f else g)
    (hpending : ∀ id, p.pending.lookup id = t.pending id)
    (hdropped : ∀ id c, t.pending id = some c → s.pending id = some c)
    (hsent : t.sent = s.sent) : t.Shows { k with requests := p } := by
  refine ⟨hpending, ?_, ?_, h.sent.trans hsent.symm, ?_⟩
  · intro c
    rw [hcalls, h.calls]
    rcases s.calls c with _ | call
    · rfl
    · rw [Option.map_some, Option.bind_some, Option.bind_some]
      split
      · rw [sendCall?_settle]
      · rfl
  · intro c
    rw [hfutures, hcalls, h.futures]
    rcases s.calls c with _ | call
    · rfl
    · rw [Option.map_some, Option.bind_some, Option.bind_some]
      split
      · rw [future?_settle]
      · exact Option.map_id'
  · intro id c hlisted
    obtain ⟨call, hcall, hid, hregistered⟩ := h.tagged (hdropped id c hlisted)
    refine ⟨_, by rw [hcalls, hcall, Option.map_some], ?_, ?_⟩
    · split
      · rw [Call.settle_requestId, hid]
      · exact hid
    · split
      · rw [Call.settle_stage, hregistered]
      · exact hregistered

theorem settle (h : s.Shows k) (id : String) (f : Future) :
    (s.settle id f).Shows { k with requests := k.requests.complete id f } := by
  refine h.complete _ f (settle_calls s id f) ?_ ?_ ?_ (settle_sent s id f)
  · intro c
    rw [PendingRequests.futures_complete]
    have hlisted := h.pending id
    rw [Commands.listed] at hlisted
    rw [hlisted]
  · intro id'
    have hlisted := h.pending id'
    rw [Commands.listed] at hlisted
    rw [PendingRequests.lookup_complete, settle_pending, hlisted, Function.update_apply]
  · intro id' c hlisted
    rw [settle_pending] at hlisted
    exact discard_pending hlisted

theorem endPump (h : s.Shows k) (e : SessionError) :
    (s.endPump e).Shows { k with requests := k.requests.failAll e } := by
  refine h.complete (fun c => c ∈ k.requests.values) (.exception e) ?_ ?_ ?_ ?_ rfl
  · intro c
    rw [endPump_calls]
    rcases hcall : s.calls c with _ | call
    · rfl
    · have hiff : s.pending call.requestId = some c ↔ c ∈ k.requests.values := by
        rw [Commands.mem_values]
        constructor
        · exact fun hlisted => ⟨call.requestId, by rw [h.pending, hlisted]⟩
        · rintro ⟨id, hlisted⟩
          rw [h.pending] at hlisted
          obtain ⟨call', hcall', hid, -⟩ := h.tagged hlisted
          rw [hcall] at hcall'
          cases hcall'
          rw [hid, hlisted]
      simp only [Option.map_some, hiff]
  · intro c
    rfl
  · intro id
    rfl
  · intro id c hlisted
    cases hlisted

/-- One call moves on. -/
theorem update (h : s.Shows k) {k' : Commands} {call' : Call} (hcall : s.calls c = some call)
    (hcalls : t.calls = Function.update s.calls c (some call'))
    (hregistered : call'.stage.isRefused = false) (hid : call'.requestId = call.requestId)
    (hcalls' : k'.calls = Function.update k.calls c call'.sendCall?)
    (hfutures : ∀ c', k'.requests.futures c' =
      if c' = c then some call'.future else k.requests.futures c')
    (hpending : ∀ id, k'.listed id = t.pending id)
    (hdropped : ∀ id c, t.pending id = some c → s.pending id = some c)
    (hsent : k'.sent = t.sent) : t.Shows k' := by
  refine ⟨hpending, ?_, ?_, hsent, ?_⟩
  · intro c'
    rw [hcalls, hcalls']
    by_cases hc : c' = c
    · subst hc
      simp
    · simp [Function.update_of_ne hc, h.calls]
  · intro c'
    rw [hcalls, hfutures]
    by_cases hc : c' = c
    · subst hc
      simp [Call.future?, hregistered]
    · simp [hc, h.futures]
  · intro id c' hlisted
    obtain ⟨call₀, hcall₀, hid₀, hregistered₀⟩ := h.tagged (hdropped id c' hlisted)
    rw [hcalls]
    by_cases hc : c' = c
    · subst hc
      rw [hcall] at hcall₀
      cases hcall₀
      exact ⟨call', Function.update_self _ _ _, hid.trans hid₀, hregistered⟩
    · exact ⟨call₀, by rw [Function.update_of_ne hc, hcall₀], hid₀, hregistered₀⟩

/-- A call that did not get to `send_command` is not among the commands. -/
theorem refuse (h : s.Shows k) (hnew : s.calls c = none) (hrefused : call.stage.isRefused = true)
    (hcalls : t.calls = Function.update s.calls c (some call)) (hpending : t.pending = s.pending)
    (hsent : t.sent = s.sent) : t.Shows k := by
  have hother : ∀ {c' call'}, s.calls c' = some call' → c' ≠ c := by
    rintro c' call' hcall rfl
    rw [hnew] at hcall
    cases hcall
  refine ⟨fun id => by rw [hpending, h.pending], ?_, ?_, h.sent.trans hsent.symm, ?_⟩
  · intro c'
    rw [h.calls, hcalls]
    by_cases hc : c' = c
    · subst hc
      simp [hnew, Call.sendCall?, hrefused]
    · rw [Function.update_of_ne hc]
  · intro c'
    rw [h.futures, hcalls]
    by_cases hc : c' = c
    · subst hc
      simp [hnew, Call.future?, hrefused]
    · rw [Function.update_of_ne hc]
  · intro id c' hlisted
    rw [hpending] at hlisted
    obtain ⟨call', hcall', hrest⟩ := h.tagged hlisted
    exact ⟨call', by rw [hcalls, Function.update_of_ne (hother hcall'), hcall'], hrest⟩

theorem begin (h : s.Shows k) (hnew : s.calls c = none) (id : String) (m : ClientMessage) :
    ∃ trace k', Run Commands.Step k trace k' ∧ (s.begin c id m).Shows k' := by
  have hrefuse : ∀ e, { s with
      calls := Function.update s.calls c (some { requestId := id, message := m, stage := .refused e }) }.Shows
        k := fun e => h.refuse hnew rfl rfl rfl rfl
  simp only [Session.begin]
  split
  · exact ⟨[], k, .start, hrefuse _⟩
  · split_ifs
    · exact ⟨[], k, .start, hrefuse _⟩
    · split
      · exact ⟨[], k, .start, hrefuse _⟩
      · rename_i hpending
        have hfree : id ∉ k.requests.pending := by
          rw [← Commands.listed_eq_none, h.pending]
          exact hpending
        have hisNew : k.isNew c = true := by
          simp [Commands.isNew, h.calls, h.futures, hnew]
        have hstep : k.Step (.begins c id m)
            { requests :=
                { pending := k.requests.pending.insert id c
                  futures := Function.update k.requests.futures c (some .waiting) }
              calls := Function.update k.calls c (some { requestId := id, message := m })
              sent := k.sent ++ [m] } := by
          simp only [Commands.Step, Commands.step, hisNew, if_true, Commands.sendCommand,
            PendingRequests.register, if_neg hfree, Except.map]
        refine ⟨[.begins c id m], _, .next .start hstep, ?_, ?_, ?_, ?_, ?_⟩
        · intro id'
          have hlisted := h.pending id'
          rw [Commands.listed] at hlisted ⊢
          by_cases hid : id' = id
          · subst hid
            simp
          · simp [AList.lookup_insert_ne hid, Function.update_of_ne hid, hlisted]
        · intro c'
          by_cases hc : c' = c
          · subst hc
            simp [Call.sendCall?, Call.toSend, Stage.isRefused]
          · simp [Function.update_of_ne hc, h.calls]
        · intro c'
          by_cases hc : c' = c
          · subst hc
            simp [Call.future?, Stage.isRefused]
          · simp [Function.update_of_ne hc, h.futures]
        · simp only [h.sent]
        · intro id' c' hlisted
          by_cases hid : id' = id
          · subst hid
            simp only [Function.update_self, Option.some.injEq] at hlisted
            subst hlisted
            exact ⟨_, Function.update_self _ _ _, rfl, rfl⟩
          · simp only [Function.update_of_ne hid] at hlisted
            obtain ⟨call, hcall, hrest⟩ := h.tagged hlisted
            have hc : c' ≠ c := by
              rintro rfl
              rw [hnew] at hcall
              cases hcall
            exact ⟨call, by simp only [Function.update_of_ne hc, hcall], hrest⟩

/-- What the commands know about a call that is not refused. -/
theorem lookup (h : s.Shows k) (hcall : s.calls c = some call)
    (hregistered : call.stage.isRefused = false) :
    k.calls c = some call.toSend ∧ k.requests.futures c = some call.future := by
  rw [h.calls, h.futures, hcall]
  simp [Call.sendCall?, Call.future?, hregistered]

/-- A call leaves. -/
theorem finish (h : s.Shows k) (hcall : s.calls c = some call)
    (hregistered : call.stage.isRefused = false) {stage : Stage}
    (hstage : stage.isRefused = false) :
    (s.finish c call stage).Shows (k.leave c call.toSend stage) := by
  obtain ⟨-, hfuture⟩ := h.lookup hcall hregistered
  refine h.update hcall rfl hstage rfl ?_ ?_ ?_ ?_ h.sent
  · simp [Commands.leave, Call.sendCall?, Call.toSend, hstage]
  · intro c'
    split
    · rename_i hc
      rw [hc]
      exact hfuture
    · rfl
  · intro id
    rw [Commands.listed_leave, h.pending]
    by_cases hid : id = call.requestId
    · subst hid
      simp [Session.finish, discard, Call.toSend]
    · simp [Session.finish, discard, Call.toSend, hid]
  · intro id c' hlisted
    exact discard_pending hlisted

end Shows

/-- **A step of the session is a run of its commands.** -/
theorem Shows.step (h : s.Shows k) {e : SessionEvent} (hstep : s.step e = some t) :
    ∃ trace k', Run Commands.Step k trace k' ∧ t.Shows k' := by
  have hend : ∀ {u : Session} {k' : Commands} (e : SessionError), u.Shows k' →
      ∃ k'', Commands.Step k' (.failsAll e) k'' ∧ (u.endPump e).Shows k'' :=
    fun e hu => ⟨_, rfl, hu.endPump e⟩
  cases step_cases hstep with
  | arrives hrunning m =>
      rcases m with state | wire | error | _ | _
      · simp only [receive]
        split
        · obtain ⟨k', hk, ht⟩ := hend _ h
          exact ⟨_, k', .next .start hk, ht⟩
        · split
          · exact ⟨[], k, .start, h⟩
          · split
            · obtain ⟨k', hk, ht⟩ := hend _ h
              exact ⟨_, k', .next .start hk, ht⟩
            · exact ⟨[], k, .start, h.pending, h.calls, h.futures, h.sent, h.tagged⟩
      · exact ⟨[.resolves _], _, .next .start rfl, h.settle _ _⟩
      · have hreject : ∃ trace k', Run Commands.Step k trace k' ∧
            (if error.requestId.null then s else s.reject error.requestId.value
              (.protocolErrorReceived error.code error.closeSession)).Shows k' := by
          split
          · exact ⟨[], k, .start, h⟩
          · exact ⟨[.rejects _ _], _, .next .start rfl, h.settle _ _⟩
        obtain ⟨trace, k', hrun, hshows⟩ := hreject
        simp only [receive]
        split
        · obtain ⟨k'', hk, ht⟩ := hend (.protocolErrorReceived error.code error.closeSession) hshows
          exact ⟨_, k'', .next hrun hk, ht⟩
        · exact ⟨trace, k', hrun, hshows⟩
      · exact ⟨[], k, .start, h⟩
      · exact ⟨[], k, .start, h⟩
  | ends hrunning cause =>
      obtain ⟨k', hk, ht⟩ := hend _ h
      exact ⟨_, k', .next .start hk, ht⟩
  | begins hnew id m => exact h.begin hnew id m
  | @sends c call hcall hsending hwanted =>
      obtain ⟨hk, hfuture⟩ := h.lookup hcall (by rw [hsending]; rfl)
      have hsends : k.Step (.sends c)
          { k with
            calls := Function.update k.calls c (some { call.toSend with stage := .awaiting }) } := by
        simp [Commands.Step, Commands.step, hk, Call.toSend, hsending, hwanted]
      refine ⟨[.sends c], _, .next .start hsends, ?_⟩
      refine h.update hcall rfl rfl rfl ?_ ?_ h.pending (fun _ _ hlisted => hlisted) h.sent
      · simp [Call.sendCall?, Call.toSend, Stage.isRefused]
      · intro c'
        split
        · rename_i hc
          rw [hc]
          exact hfuture
        · rfl
  | @sendFails c call hcall hsending e =>
      have hregistered : call.stage.isRefused = false := by rw [hsending]; rfl
      obtain ⟨hk, -⟩ := h.lookup hcall hregistered
      refine ⟨[.sendFails c e], _, .next .start ?_, h.finish hcall hregistered rfl⟩
      simp [Commands.Step, Commands.step, hk, Call.toSend, hsending]
  | @cancels c call hcall hopen =>
      have hregistered : call.stage.isRefused = false := by
        cases hstage : call.stage <;> simp_all [Stage.isOpen, Stage.isRefused]
      obtain ⟨hk, hfuture⟩ := h.lookup hcall hregistered
      have hcancels : k.Step (.cancels c) (k.cancel c call.toSend) := by
        simp [Commands.Step, Commands.step, hk, Call.toSend, hopen]
      refine ⟨[.cancels c], _, .next .start hcancels, ?_⟩
      refine h.update hcall rfl hregistered rfl ?_ ?_ h.pending (fun _ _ hlisted => hlisted) h.sent
      · simp [Commands.cancel, Call.sendCall?, Call.toSend, cancelCall, hregistered]
      · intro c'
        rw [Commands.futures_cancel]
        by_cases hc : c' = c
        · subst hc
          rw [hfuture]
          by_cases hawaiting : call.stage = .awaiting
          · simp [cancelCall, Call.toSend, Future.settle, hawaiting]
          · simp [cancelCall, Call.toSend, hawaiting]
        · simp [hc]
  | @resumes c call stage hcall hexit =>
      obtain ⟨hopen, hclosed⟩ := exit_isOpen hexit
      have hregistered : call.stage.isRefused = false := by
        cases hstage : call.stage <;> simp_all [Stage.isOpen, Stage.isRefused]
      obtain ⟨hk, hfuture⟩ := h.lookup hcall hregistered
      refine ⟨[.resumes c], _, .next .start ?_, h.finish hcall hregistered ?_⟩
      · simp [Commands.Step, Commands.step, hk, hfuture, SendCall.toCall, Call.toSend, hexit]
      · cases exit_cases hexit <;> rfl

/-- **A run of the session is a run of its commands.** -/
theorem run_shows {w₀ : WorldView} {trace : List SessionEvent}
    (hrun : Run Session.Step (start w₀) trace s) :
    ∃ trace' k, Run Commands.Step {} trace' k ∧ s.Shows k := by
  induction hrun with
  | start =>
      refine ⟨[], {}, .start, fun _ => rfl, fun _ => rfl, fun _ => rfl, rfl, ?_⟩
      intro id c hlisted
      cases hlisted
  | next _ hstep ih =>
      obtain ⟨trace', k, hk, hshows⟩ := ih
      obtain ⟨more, k', hmore, hshows'⟩ := hshows.step hstep
      exact ⟨trace' ++ more, k', hk.append hmore, hshows'⟩

end Simulation

end Session

end PlanetCharlu
