import PlanetCharlu.Session

/-!
# The calls of a session

What each operation does to the calls there are. Calls are only ever added and
completed: their requests stay, and a call is never completed with an outcome that
belongs to another request, even where two calls use one request id.
-/

namespace PlanetCharlu

@[simp] theorem Call.settle_requestId (call : Call) (f : Future) :
    (call.settle f).requestId = call.requestId := by
  unfold Call.settle
  split <;> rfl

@[simp] theorem Call.settle_cancelling (call : Call) (f : Future) :
    (call.settle f).cancelling = call.cancelling := by
  unfold Call.settle
  split <;> rfl

@[simp] theorem Call.settle_stage (call : Call) (f : Future) :
    (call.settle f).stage = call.stage := by
  unfold Call.settle
  split <;> rfl

theorem Call.settle_of_waiting {call : Call} (h : call.future = .waiting) (f : Future) :
    (call.settle f).future = f := by
  simp [Call.settle, h]

theorem Call.settle_of_done {call : Call} (h : call.future ≠ .waiting) (f : Future) :
    call.settle f = call := by
  simp [Call.settle, h]

namespace Session

section Operations

variable (s : Session) (requestId : String) (f : Future) (e : SessionError) (c : CallId)

theorem settle_pending :
    (s.settle requestId f).pending = Function.update s.pending requestId none := by
  unfold settle
  rcases hpending : s.pending requestId with _ | c
  · have hsame := Function.update_eq_self requestId s.pending
    rw [hpending] at hsame
    exact hsame.symm
  · rfl

theorem settle_calls :
    (s.settle requestId f).calls c = (s.calls c).map fun call =>
      if s.pending requestId = some c then call.settle f else call := by
  unfold settle
  rcases hpending : s.pending requestId with _ | c'
  · simp
  · by_cases hc : c = c'
    · subst hc
      simp
    · have hne : ¬ some c' = some c := by
        intro h
        exact hc (Option.some.inj h).symm
      simp [Function.update_of_ne hc, Ne.symm hc]

theorem endPump_calls :
    (s.endPump e).calls c = (s.calls c).map fun call =>
      if s.pending call.requestId = some c then call.settle (.exception e) else call := rfl

end Operations

/-! ### Calls keep their data -/

/-- From `s` to `t` the same calls exist, with the same requests. -/
def Evolves (s t : Session) : Prop :=
  ∀ c, s.calls c = none ∧ t.calls c = none ∨
    ∃ call call', s.calls c = some call ∧ t.calls c = some call' ∧
      call'.requestId = call.requestId ∧ call'.message = call.message

section Evolution

variable {s t u : Session}

theorem Evolves.trans (h : Evolves s t) (h' : Evolves t u) : Evolves s u := by
  intro c
  rcases h c with ⟨hs, ht⟩ | ⟨call, call', hs, ht, hid, hmessage⟩
  · rcases h' c with ⟨-, hu⟩ | ⟨call, call', ht', -, -, -⟩
    · exact Or.inl ⟨hs, hu⟩
    · rw [ht] at ht'
      cases ht'
  · rcases h' c with ⟨ht', -⟩ | ⟨call₁, call₂, ht', hu, hid', hmessage'⟩
    · rw [ht] at ht'
      cases ht'
    · rw [ht] at ht'
      cases ht'
      exact Or.inr ⟨call, call₂, hs, hu, hid'.trans hid, hmessage'.trans hmessage⟩

/-- A session whose calls are rewritten one by one, each with its request kept. -/
theorem Evolves.of_map {f : CallId → Call → Call}
    (hcalls : ∀ c, t.calls c = (s.calls c).map (f c))
    (hf : ∀ c call, (f c call).requestId = call.requestId ∧ (f c call).message = call.message) :
    Evolves s t := by
  intro c
  rcases hcall : s.calls c with _ | call
  · exact Or.inl ⟨rfl, by rw [hcalls, hcall, Option.map_none]⟩
  · exact Or.inr ⟨call, f c call, rfl, by rw [hcalls, hcall, Option.map_some], hf c call⟩

theorem Evolves.refl (s : Session) : Evolves s s :=
  Evolves.of_map (f := fun _ call => call) (fun c => by simp) fun _ _ => ⟨rfl, rfl⟩

theorem Evolves.update {c : CallId} {call call' : Call} (hcall : s.calls c = some call)
    (hcalls : t.calls = Function.update s.calls c (some call'))
    (hid : call'.requestId = call.requestId) (hmessage : call'.message = call.message) :
    Evolves s t := by
  intro c'
  by_cases hc : c' = c
  · subst hc
    exact Or.inr ⟨call, call', hcall, by rw [hcalls, Function.update_self], hid, hmessage⟩
  · have hsame : t.calls c' = s.calls c' := by rw [hcalls, Function.update_of_ne hc]
    rcases hcall' : s.calls c' with _ | call₀
    · exact Or.inl ⟨rfl, by rw [hsame, hcall']⟩
    · exact Or.inr ⟨call₀, call₀, rfl, by rw [hsame, hcall'], rfl, rfl⟩

theorem settle_keeps (call : Call) (f : Future) (p : Prop) [Decidable p] :
    (if p then call.settle f else call).requestId = call.requestId ∧
      (if p then call.settle f else call).message = call.message := by
  unfold Call.settle
  split_ifs <;> exact ⟨rfl, rfl⟩

theorem evolves_settle (s : Session) (id : String) (f : Future) : Evolves s (s.settle id f) :=
  Evolves.of_map (settle_calls s id f) fun _ call => settle_keeps call f _

theorem evolves_endPump (s : Session) (e : SessionError) : Evolves s (s.endPump e) :=
  Evolves.of_map (endPump_calls s e) fun _ call => settle_keeps call _ _

theorem evolves_receive (s : Session) (m : ServerMessage) : Evolves s (s.receive m) := by
  rcases m with state | wire | error | _ | _
  · simp only [receive]
    split
    · exact evolves_endPump s _
    · split
      · exact Evolves.refl s
      · split
        · exact evolves_endPump s _
        · exact Evolves.refl s
  · exact evolves_settle s _ _
  · have hreject : Evolves s (if error.requestId.null then s else s.reject error.requestId.value
        (.protocolErrorReceived error.code error.closeSession)) := by
      split
      · exact Evolves.refl s
      · exact evolves_settle s _ _
    simp only [receive]
    generalize (if error.requestId.null then s else s.reject error.requestId.value
      (.protocolErrorReceived error.code error.closeSession)) = t at hreject ⊢
    split
    · exact hreject.trans (evolves_endPump t _)
    · exact hreject
  · exact Evolves.refl s
  · exact Evolves.refl s

/-- A step that is not the beginning of a call keeps the calls there are. -/
theorem evolves_step {e : SessionEvent} (hstep : s.step e = some t)
    (hnew : ∀ c id message, e ≠ .begins c id message) : Evolves s t := by
  cases step_cases hstep with
  | arrives hrunning m => exact evolves_receive s m
  | ends hrunning cause => exact evolves_endPump s _
  | begins hfree id m => exact absurd rfl (hnew _ id m)
  | sends hcall hsending hwanted => exact Evolves.update hcall rfl rfl rfl
  | sendFails hcall hsending e => exact Evolves.update hcall rfl rfl rfl
  | cancels hcall hopen => exact Evolves.update hcall rfl rfl rfl
  | resumes hcall hexit => exact Evolves.update hcall rfl rfl rfl

theorem begin_calls (s : Session) (c : CallId) (id : String) (message : ClientMessage) :
    ∃ call, (s.begin c id message).calls = Function.update s.calls c (some call) ∧
      call.requestId = id ∧ call.message = message := by
  unfold begin
  dsimp only
  split
  · exact ⟨_, rfl, rfl, rfl⟩
  · split_ifs
    · exact ⟨_, rfl, rfl, rfl⟩
    · split
      · exact ⟨_, rfl, rfl, rfl⟩
      · exact ⟨_, rfl, rfl, rfl⟩

/-- How an open call can leave: cancelled, or as its future says. -/
inductive Exits (call : Call) : Stage → Prop where
  | cancelled (hopen : call.stage.isOpen = true)
      (hcancelled : call.cancelling = true ∨ call.future = .cancelled) :
      Exits call (.raised .cancelled)
  | result {o : CommandOutcome} (hopen : call.stage.isOpen = true)
      (hfuture : call.future = .result o) : Exits call (.returned o)
  | exception {e : SessionError} (hopen : call.stage.isOpen = true)
      (hfuture : call.future = .exception e) : Exits call (.raised e)

theorem exit_cases {call : Call} {stage : Stage} (h : exit call = some stage) :
    Exits call stage := by
  unfold exit at h
  split at h
  · rename_i hsending
    have hopen : call.stage.isOpen = true := by simp [hsending, Stage.isOpen]
    split at h
    · rename_i hcancelling
      cases h
      exact .cancelled hopen (Or.inl hcancelling)
    · cases h
  · rename_i hawaiting
    have hopen : call.stage.isOpen = true := by simp [hawaiting, Stage.isOpen]
    split at h
    · rename_i hcancelling
      cases h
      exact .cancelled hopen (Or.inl hcancelling)
    · split at h
      · cases h
      · rename_i o hfuture
        cases h
        exact .result hopen hfuture
      · rename_i e hfuture
        cases h
        exact .exception hopen hfuture
      · rename_i hfuture
        cases h
        exact .cancelled hopen (Or.inr hfuture)
  · cases h

end Evolution

/-! ### Registrations -/

section Registrations

variable {s t : Session} {id : String} {c : CallId}

theorem discard_pending {id' : String} (h : Function.update s.pending id' none id = some c) :
    s.pending id = some c := by
  by_cases hid : id = id'
  · simp [hid] at h
  · rwa [Function.update_of_ne hid] at h

theorem receive_pending {m : ServerMessage} (h : (s.receive m).pending id = some c) :
    s.pending id = some c := by
  have hend : ∀ (t : Session) e, (t.endPump e).pending id ≠ some c := by
    intro t e hlisted
    cases hlisted
  rcases m with state | wire | error | _ | _
  · simp only [receive] at h
    split at h
    · exact absurd h (hend s _)
    · split at h
      · exact h
      · split at h
        · exact absurd h (hend s _)
        · exact h
  · simp only [receive, resolve, settle_pending] at h
    exact discard_pending h
  · simp only [receive] at h
    split at h
    · exact absurd h (hend _ _)
    · split at h
      · exact h
      · simp only [reject, settle_pending] at h
        exact discard_pending h
  · exact h
  · exact h

/-- A registration is made by the beginning of a call only. -/
theorem step_pending {e : SessionEvent} (hstep : s.step e = some t)
    (hnew : ∀ c id message, e ≠ .begins c id message) (h : t.pending id = some c) :
    s.pending id = some c := by
  cases step_cases hstep with
  | arrives hrunning m => exact receive_pending h
  | ends hrunning cause => cases h
  | begins hfree id m => exact absurd rfl (hnew _ id m)
  | sends hcall hsending hwanted => exact h
  | sendFails hcall hsending e => exact discard_pending h
  | cancels hcall hopen => exact h
  | resumes hcall hexit => exact discard_pending h

end Registrations

/-! ### Outcomes carry the request of their call -/

/-- The table lists calls under their own request ids, and a call is completed only
by outcomes with its id. -/
structure Tagged (s : Session) : Prop where
  listed : ∀ id c, s.pending id = some c → ∃ call, s.calls c = some call ∧ call.requestId = id
  outcome : ∀ c call o, s.calls c = some call →
    call.future = .result o ∨ call.stage = .returned o → o.requestId = call.requestId

namespace Tagged

variable {s t : Session}

/-- Calls are rewritten and registrations dropped, and no outcome is wrong. -/
theorem rewrite (h : Tagged s) (hevolves : Evolves s t)
    (hpending : ∀ id c, t.pending id = some c → s.pending id = some c)
    (houtcome : ∀ c call call' o, s.calls c = some call → t.calls c = some call' →
      call'.future = .result o ∨ call'.stage = .returned o → o.requestId = call.requestId) :
    Tagged t := by
  constructor
  · intro id c hlisted
    obtain ⟨call, hcall, hid⟩ := h.listed id c (hpending id c hlisted)
    rcases hevolves c with ⟨hnone, -⟩ | ⟨call₀, call', hcall₀, hcall', hsame, -⟩
    · rw [hcall] at hnone
      cases hnone
    · rw [hcall] at hcall₀
      cases hcall₀
      exact ⟨call', hcall', hsame.trans hid⟩
  · intro c call' o hcall' hdone
    rcases hevolves c with ⟨-, hnone⟩ | ⟨call, call₁, hcall, hcall₁, hsame, -⟩
    · rw [hcall'] at hnone
      cases hnone
    · rw [hcall'] at hcall₁
      cases hcall₁
      rw [hsame]
      exact houtcome c call call' o hcall hcall' hdone

theorem settle (h : Tagged s) {id : String} {f : Future}
    (hf : ∀ o, f = .result o → o.requestId = id) : Tagged (s.settle id f) := by
  apply h.rewrite (evolves_settle s id f)
  · intro id' c hlisted
    rw [settle_pending] at hlisted
    exact discard_pending hlisted
  · intro c call call' o hcall hcall' hdone
    rw [settle_calls, hcall, Option.map_some, Option.some.injEq] at hcall'
    subst hcall'
    split at hdone
    · rename_i hlisted
      by_cases hwaiting : call.future = .waiting
      · -- The future takes `f`, and the table lists the call under `id`.
        rw [Call.settle_of_waiting hwaiting, Call.settle_stage] at hdone
        rcases hdone with hfuture | hstage
        · obtain ⟨call₀, hcall₀, hid⟩ := h.listed id c hlisted
          rw [hcall] at hcall₀
          cases hcall₀
          rw [hf o hfuture, hid]
        · exact h.outcome c call o hcall (Or.inr hstage)
      · rw [Call.settle_of_done hwaiting] at hdone
        exact h.outcome c call o hcall hdone
    · exact h.outcome c call o hcall hdone

theorem endPump (h : Tagged s) (e : SessionError) : Tagged (s.endPump e) := by
  apply h.rewrite (evolves_endPump s e)
  · intro id c hlisted
    cases hlisted
  · intro c call call' o hcall hcall' hdone
    rw [endPump_calls, hcall, Option.map_some, Option.some.injEq] at hcall'
    subst hcall'
    split at hdone
    · by_cases hwaiting : call.future = .waiting
      · rw [Call.settle_of_waiting hwaiting, Call.settle_stage] at hdone
        rcases hdone with hfuture | hstage
        · cases hfuture
        · exact h.outcome c call o hcall (Or.inr hstage)
      · rw [Call.settle_of_done hwaiting] at hdone
        exact h.outcome c call o hcall hdone
    · exact h.outcome c call o hcall hdone

theorem receive (h : Tagged s) (m : ServerMessage) : Tagged (s.receive m) := by
  rcases m with state | wire | error | _ | _
  · simp only [Session.receive]
    split
    · exact h.endPump _
    · split
      · exact h
      · split
        · exact h.endPump _
        · exact ⟨h.listed, h.outcome⟩
  · apply h.settle
    intro o ho
    cases ho
    rfl
  · have hreject : Tagged (if error.requestId.null then s else s.reject error.requestId.value
        (.protocolErrorReceived error.code error.closeSession)) := by
      split
      · exact h
      · apply h.settle
        intro o ho
        cases ho
    simp only [Session.receive]
    generalize (if error.requestId.null then s else s.reject error.requestId.value
      (.protocolErrorReceived error.code error.closeSession)) = t at hreject ⊢
    split
    · exact hreject.endPump _
    · exact hreject
  · exact h
  · exact h

/-- One call is rewritten; registrations are at most dropped. -/
theorem update (h : Tagged s) {c : CallId} {call call' : Call} (hcall : s.calls c = some call)
    (hcalls : t.calls = Function.update s.calls c (some call'))
    (hpending : ∀ id c, t.pending id = some c → s.pending id = some c)
    (hid : call'.requestId = call.requestId) (hmessage : call'.message = call.message)
    (houtcome : ∀ o, call'.future = .result o ∨ call'.stage = .returned o →
      call.future = .result o ∨ call.stage = .returned o) : Tagged t := by
  apply h.rewrite (Evolves.update hcall hcalls hid hmessage) hpending
  intro c' call₀ call₁ o hcall₀ hcall₁ hdone
  rw [hcalls] at hcall₁
  by_cases hc : c' = c
  · subst hc
    rw [Function.update_self, Option.some.injEq] at hcall₁
    subst hcall₁
    rw [hcall] at hcall₀
    cases hcall₀
    exact h.outcome c' call o hcall (houtcome o hdone)
  · rw [Function.update_of_ne hc, hcall₀] at hcall₁
    cases hcall₁
    exact h.outcome c' call₀ o hcall₀ hdone

theorem begin (h : Tagged s) {c : CallId} (hnew : s.calls c = none) (id : String)
    (message : ClientMessage) : Tagged (s.begin c id message) := by
  have hother : ∀ id' c', s.pending id' = some c' → c' ≠ c := by
    rintro id' c' hlisted rfl
    obtain ⟨call, hcall, -⟩ := h.listed id' c' hlisted
    rw [hnew] at hcall
    cases hcall
  have hadd : ∀ (stage : Stage) (t : Session), (∀ o, stage ≠ .returned o) →
      t.calls = Function.update s.calls c (some { requestId := id, message, stage }) →
      (∀ id' c', t.pending id' = some c' → s.pending id' = some c' ∨ id' = id ∧ c' = c) →
      Tagged t := by
    intro stage t hstage hcalls hpending
    constructor
    · intro id' c' hlisted
      rcases hpending id' c' hlisted with hold | ⟨rfl, rfl⟩
      · obtain ⟨call, hcall, hid⟩ := h.listed id' c' hold
        exact ⟨call, by rw [hcalls, Function.update_of_ne (hother id' c' hold), hcall], hid⟩
      · exact ⟨_, by rw [hcalls, Function.update_self], rfl⟩
    · intro c' call o hcall hdone
      rw [hcalls] at hcall
      by_cases hc : c' = c
      · subst hc
        rw [Function.update_self, Option.some.injEq] at hcall
        subst hcall
        rcases hdone with hfuture | hreturned
        · cases hfuture
        · exact absurd hreturned (hstage o)
      · rw [Function.update_of_ne hc] at hcall
        exact h.outcome c' call o hcall hdone
  unfold Session.begin
  dsimp only
  split
  · exact hadd _ _ (by simp) rfl fun _ _ hlisted => Or.inl hlisted
  · split_ifs
    · exact hadd _ _ (by simp) rfl fun _ _ hlisted => Or.inl hlisted
    · split
      · exact hadd _ _ (by simp) rfl fun _ _ hlisted => Or.inl hlisted
      · refine hadd _ _ (by simp) rfl ?_
        intro id' c' hlisted
        by_cases hid : id' = id
        · subst hid
          simp only [Function.update_self, Option.some.injEq] at hlisted
          exact Or.inr ⟨rfl, hlisted.symm⟩
        · simp only [Function.update_of_ne hid] at hlisted
          exact Or.inl hlisted

/-- **No step completes a call with the outcome of another request.** -/
theorem step (h : Tagged s) {e : SessionEvent} (hstep : s.step e = some t) : Tagged t := by
  cases step_cases hstep with
  | arrives hrunning m => exact h.receive m
  | ends hrunning cause => exact h.endPump _
  | begins hnew id m => exact h.begin hnew id m
  | sends hcall hsending hwanted =>
      refine h.update hcall rfl (fun _ _ hlisted => hlisted) rfl rfl ?_
      intro o hdone
      rcases hdone with hfuture | hreturned
      · exact Or.inl hfuture
      · cases hreturned
  | sendFails hcall hsending e =>
      refine h.update hcall rfl (fun _ _ hlisted => discard_pending hlisted) rfl rfl ?_
      intro o hdone
      rcases hdone with hfuture | hreturned
      · exact Or.inl hfuture
      · cases hreturned
  | cancels hcall hopen =>
      refine h.update hcall rfl (fun _ _ hlisted => hlisted) rfl rfl ?_
      intro o hdone
      rcases hdone with hfuture | hreturned
      · simp only [cancelCall] at hfuture
        split at hfuture
        · cases hfuture
        · exact Or.inl hfuture
      · exact Or.inr hreturned
  | resumes hcall hexit =>
      refine h.update hcall rfl (fun _ _ hlisted => discard_pending hlisted) rfl rfl ?_
      intro o hdone
      rcases hdone with hfuture | hreturned
      · exact Or.inl hfuture
      · simp only at hreturned
        subst hreturned
        cases exit_cases hexit with
        | result hopen hfuture => exact Or.inl hfuture

end Tagged

end Session

end PlanetCharlu
