import PlanetCharlu.Runner
import PlanetCharlu.Calls

/-!
# What a step of the trading loop is made of

A step of the runner is the code between two awaits, which may note an outcome,
finish a reconciliation and decide again, all at once. `Effect` lists the single
changes, each with the place in the loop where it happens and what it has checked.
`step_effects` cuts every step into them, so an invariant of all runs is one that
every effect keeps (`run_invariant`).
-/

namespace PlanetCharlu

open Runs

/-! ### What a session step changes for the runner -/

namespace Session

variable {s t : Session} {e : SessionEvent}

/-- Only a newer snapshot that is delivered replaces the world. -/
theorem step_world (h : s.step e = some t) :
    t.world = s.world ∨ (RunnerEvent.session e).snapshot? = some t.world ∧
      s.world.snapshotSequence < t.world.snapshotSequence ∧ t.world.runId = s.world.runId := by
  cases step_cases h with
  | arrives hrunning m =>
      have hreceive : s.consume (.message m) = s.receive m := by simp [consume, hrunning]
      rcases consume_cases hrunning (.message m) with ⟨-, hworld, -⟩ | ⟨-, hworld⟩ |
        ⟨hd, -, hstate, hnewer, hrun⟩
      · rw [hreceive] at hworld
        exact Or.inl hworld
      · rw [hreceive] at hworld
        exact Or.inl hworld
      · rw [hreceive] at hstate hnewer hrun
        refine Or.inr ⟨?_, hnewer, hrun⟩
        simp [RunnerEvent.snapshot?, hd, Delivery.snapshot?, hstate, Except.toOption]
  | begins hnew id m => exact Or.inl (begin_world s id _ m)
  | _ => exact Or.inl rfl

theorem receive_sent (s : Session) (m : ServerMessage) : (s.receive m).sent = s.sent := by
  rcases m with state | wire | error | _ | _
  · simp only [receive]
    split
    · rfl
    · split
      · rfl
      · split <;> rfl
  · exact settle_sent s _ _
  · simp only [receive]
    split <;> split <;> simp [reject]
  · rfl
  · rfl

/-- Nothing but the beginning of a call is sent. -/
theorem step_sent (h : s.step e = some t) (hbegin : ∀ c id message, e ≠ .begins c id message) :
    t.sent = s.sent := by
  cases step_cases h with
  | arrives hrunning m => exact receive_sent s m
  | begins hnew id m => exact absurd rfl (hbegin _ id m)
  | _ => rfl

theorem begin_sent (s : Session) (c : CallId) (id : String) (message : ClientMessage) :
    (s.begin c id message).sent = s.sent ∨ (s.begin c id message).sent = s.sent ++ [message] := by
  unfold begin
  dsimp only
  split
  · exact Or.inl rfl
  · split_ifs
    · exact Or.inl rfl
    · split
      · exact Or.inl rfl
      · exact Or.inr rfl

end Session

namespace Runner

/-! ### The steps, by cases -/

/-- What each event has checked, and what it makes of the runner. -/
inductive Stepped (policy : Strategy) (r : Runner) : RunnerEvent → Runner → Prop where
  | session {e : SessionEvent} {s : Session} (hforeign : e.isForeign = true)
      (hs : r.session.step e = some s) : Stepped policy r (.session e) { r with session := s }
  | iterate (hpc : r.pc = .ready) (reads : Reads) :
      Stepped policy r (.runs reads) (r.iterate policy reads)
  | wake {sequence : Nat} (hpc : r.pc = .idle sequence)
      (hnewer : sequence < r.session.world.snapshotSequence) (reads : Reads) :
      Stepped policy r (.runs reads) ({ r with pc := .ready }.iterate policy reads)
  | answered {w : WorldView} {d : Decision} {started : ℚ} {c : CallId} {call : Call}
      {o : CommandOutcome} (hpc : r.pc = .sending w d started (some c))
      (hcall : r.session.calls c = some call) (hreturned : call.stage = .returned o)
      (reads : Reads) : Stepped policy r (.runs reads) (r.answer policy reads w d started o)
  | timedOut {w : WorldView} {d : Decision} {started : ℚ} {c : CallId} {call : Call}
      (hpc : r.pc = .sending w d started (some c)) (hcall : r.session.calls c = some call)
      (hcancelled : call.stage = .raised .cancelled) (reads : Reads) :
      Stepped policy r (.runs reads) (r.raise .timeout)
  | failed {w : WorldView} {d : Decision} {started : ℚ} {c : CallId} {call : Call}
      {e : SessionError} (hpc : r.pc = .sending w d started (some c))
      (hcall : r.session.calls c = some call)
      (hfailed : call.stage = .raised e ∨ call.stage = .refused e) (reads : Reads) :
      Stepped policy r (.runs reads) (r.raise (.session e))
  | complete {o : CommandOutcome} {started : ℚ} (hpc : r.pc = .reconciling o started .confirmed)
      (reads : Reads) : Stepped policy r (.runs reads) (r.complete policy reads started)
  | begin {w : WorldView} {d : Decision} {started : ℚ} {c : CallId}
      (hpc : r.pc = .sending w d started none) (hnew : r.session.calls c = none) :
      Stepped policy r (.begins c)
        { r with
          session := r.session.begin c d.requestId d.message
          pc := .sending w d started (some c) }
  | sync {o : CommandOutcome} {started : ℚ} (hpc : r.pc = .reconciling o started .created) :
      Stepped policy r .syncs (r.sync o started)
  | synced {o : CommandOutcome} {started : ℚ} {previous : Nat}
      (hpc : r.pc = .reconciling o started (.syncing previous)) :
      Stepped policy r .synced { r with pc := .reconciling o started (.waiting previous) }
  | syncFails {o : CommandOutcome} {started : ℚ} {previous : Nat}
      (hpc : r.pc = .reconciling o started (.syncing previous)) (e : SessionError) :
      Stepped policy r (.syncFails e) (r.raise (.session e))
  | newer {o : CommandOutcome} {started : ℚ} {previous : Nat}
      (hpc : r.pc = .reconciling o started (.waiting previous))
      (hnewer : previous < r.session.world.snapshotSequence) :
      Stepped policy r .checks { r with pc := .reconciling o started (.arrived false) }
  | goOn {o : CommandOutcome} {started : ℚ} {expired : Bool}
      (hpc : r.pc = .reconciling o started (.arrived expired))
      (hmissing : ¬o.includesResult r.session.world = true)
      (hup : r.session.pumpError = none) :
      Stepped policy r .checks { r with pc := .reconciling o started (.confirming expired) }
  | confirm {o : CommandOutcome} {started : ℚ} {expired : Bool}
      (hpc : r.pc = .reconciling o started (.arrived expired) ∨
        r.pc = .reconciling o started (.confirming expired))
      (hincludes : o.includesResult r.session.world = true) :
      Stepped policy r .checks { r with pc := .reconciling o started .confirmed }
  | disconnected {event : RunnerEvent} {e : SessionError} (hended : r.session.pumpError = some e) :
      Stepped policy r event (r.raise (.session e))
  | swallow {o : CommandOutcome} {started : ℚ}
      (hpc : r.pc = .reconciling o started (.arrived false)) :
      Stepped policy r .expires { r with pc := .reconciling o started (.arrived true) }
  | expires : Stepped policy r .expires (r.raise .timeout)
  | cancel {w : WorldView} {d : Decision} {started : ℚ} {c : CallId} {s : Session}
      (hpc : r.pc = .sending w d started (some c)) (hs : r.session.step (.cancels c) = some s) :
      Stepped policy r .expires { r with session := s }

theorem step_cases {policy : Strategy} {r t : Runner} {e : RunnerEvent}
    (h : r.step policy e = some t) : Stepped policy r e t := by
  have hended : ∀ {event : RunnerEvent},
      r.session.pumpError.map (fun e => r.raise (.session e)) = some t →
        Stepped policy r event t := by
    intro event hpump
    obtain ⟨e, he, rfl⟩ := Option.map_eq_some_iff.mp hpump
    exact .disconnected he
  rcases e with e | reads | c | _ | _ | e | _ | _
  · simp only [step, Option.ite_none_right_eq_some, Option.map_eq_some_iff] at h
    obtain ⟨hforeign, s, hs, rfl⟩ := h
    exact .session hforeign hs
  · simp only [step] at h
    split at h
    · rename_i hpc
      cases h
      exact .iterate hpc reads
    · rename_i sequence hpc
      split at h
      · rename_i hnewer
        cases h
        exact .wake hpc hnewer reads
      · exact hended h
    · rename_i w d started c hpc
      obtain ⟨call, hcall, hresume⟩ := Option.bind_eq_some_iff.mp h
      unfold resume at hresume
      split at hresume
      · rename_i hreturned
        cases hresume
        exact .answered hpc hcall hreturned reads
      · rename_i hcancelled
        cases hresume
        exact .timedOut hpc hcall hcancelled reads
      · rename_i hraised
        cases hresume
        exact .failed hpc hcall (Or.inl hraised) reads
      · rename_i hrefused
        cases hresume
        exact .failed hpc hcall (Or.inr hrefused) reads
      · cases hresume
    · rename_i hpc
      cases h
      exact .complete hpc reads
    · cases h
  · simp only [step] at h
    split at h
    · rename_i hpc
      obtain ⟨s, hs, rfl⟩ := Option.map_eq_some_iff.mp h
      cases Session.step_cases hs with
      | begins hnew id m => exact .begin hpc hnew
    · cases h
  · simp only [step] at h
    split at h
    · rename_i hpc
      cases h
      exact .sync hpc
    · cases h
  · simp only [step] at h
    split at h
    · rename_i hpc
      cases h
      exact .synced hpc
    · cases h
  · simp only [step] at h
    split at h
    · rename_i hpc
      cases h
      exact .syncFails hpc e
    · cases h
  · simp only [step] at h
    split at h
    · rename_i hpc
      split at h
      · rename_i hnewer
        cases h
        exact .newer hpc hnewer
      · exact hended h
    · rename_i hpc
      split at h
      · rename_i hincludes
        cases h
        exact .confirm (Or.inl hpc) hincludes
      · rename_i hmissing
        split at h
        · rename_i error herror
          cases h
          exact .disconnected herror
        · rename_i hup
          cases h
          exact .goOn hpc hmissing hup
    · rename_i hpc
      split at h
      · rename_i hincludes
        cases h
        exact .confirm (Or.inr hpc) hincludes
      · exact hended h
    · cases h
  · simp only [step] at h
    split at h
    · cases h
      exact .expires
    · rename_i hpc
      obtain ⟨s, hs, rfl⟩ := Option.map_eq_some_iff.mp h
      exact .cancel hpc hs
    · rename_i hpc
      cases h
      exact .swallow hpc
    · cases h
    · cases h
    · cases h
    · cases h
      exact .expires
    · cases h

/-! ### What a step is made of -/

/-- The changes a step consists of, each at one place of the loop. -/
inductive Effect (policy : Strategy) (e : RunnerEvent) (r : Runner) : Runner → Prop where
  | session {s : Session}
      (hworld : s.world = r.session.world ∨ e.snapshot? = some s.world ∧
        r.session.world.snapshotSequence < s.world.snapshotSequence ∧
        s.world.runId = r.session.world.runId)
      (hsent : s.sent = r.session.sent) : Effect policy e r { r with session := s }
  | begin {s : Session} {w : WorldView} {d : Decision} {started : ℚ} {c : CallId}
      (hpc : r.pc = .sending w d started none) (hworld : s.world = r.session.world)
      (hsent : s.sent = r.session.sent ∨ s.sent = r.session.sent ++ [d.message]) :
      Effect policy e r { r with session := s, pc := .sending w d started (some c) }
  | sync {o : CommandOutcome} {started : ℚ} (hpc : r.pc = .reconciling o started .created) :
      Effect policy e r (r.sync o started)
  | reconcile {o : CommandOutcome} {started : ℚ} {stage stage' : Reconciling}
      (hpc : r.pc = .reconciling o started stage)
      (hincludes : stage' = .confirmed → o.includesResult r.session.world = true) :
      Effect policy e r { r with pc := .reconciling o started stage' }
  | raise (error : RunnerError) : Effect policy e r (r.raise error)
  | wake {sequence : Nat} (hpc : r.pc = .idle sequence)
      (hnewer : sequence < r.session.world.snapshotSequence) :
      Effect policy e r { r with pc := .ready }
  | note {w : WorldView} {d : Decision} {started : ℚ} {c : CallId} {o : CommandOutcome}
      (hpc : r.pc = .sending w d started (some c)) (hid : o.requestId = d.requestId) :
      Effect policy e r
        { r with
          strategy := policy.noteOutcome r.strategy w d o started
          history := r.history ++ [.answered w d o]
          pc := .reconciling o started .created }
  | complete {o : CommandOutcome} {started : ℚ} (elapsed : ℚ)
      (hpc : r.pc = .reconciling o started .confirmed) :
      Effect policy e r { r with strategy := r.strategy.observeLatency elapsed, pc := .ready }
  | finish (hpc : r.pc = .ready) (hfinal : r.session.world.isFinal = true) :
      Effect policy e r { r with pc := .returned r.session.world }
  | wait {reads : Reads} {st : StrategyState} (he : e = .runs reads) (hpc : r.pc = .ready)
      (hchoose : policy.choose reads.env r.strategy r.session.world = .ok (st, none)) :
      Effect policy e r
        { r with
          strategy := st
          history := r.history ++ [.chose st r.session.world none]
          pc := .idle r.session.world.snapshotSequence }
  | decide {reads : Reads} {st : StrategyState} {d : Decision} (he : e = .runs reads)
      (hpc : r.pc = .ready)
      (hchoose : policy.choose reads.env r.strategy r.session.world = .ok (st, some d)) :
      Effect policy e r
        { r with
          strategy := st.record d
          history := r.history ++ [.chose st r.session.world (some d)]
          pc := .sending r.session.world d reads.started none }

/-- The session is tagged, and a command's call has the command's request id. -/
structure Owns (r : Runner) : Prop where
  tagged : r.session.Tagged
  call : ∀ w d started c, r.pc = .sending w d started (some c) →
    ∃ call, r.session.calls c = some call ∧ call.requestId = d.requestId

section Effects

open Relation

variable {policy : Strategy} {e : RunnerEvent} {r t : Runner}

theorem iterate_effects {reads : Reads} (policy : Strategy) (he : e = .runs reads)
    (hpc : r.pc = .ready) : ReflTransGen (Effect policy e) r (r.iterate policy reads) := by
  unfold iterate
  dsimp only
  split
  · rename_i hfinal
    exact .single (.finish hpc hfinal)
  · rcases hchoose : policy.choose reads.env r.strategy r.session.world with error | ⟨st, action⟩
    · exact .single (.raise _)
    · rcases action with _ | d
      · have hwait := ReflTransGen.single (Effect.wait he hpc hchoose)
        rcases hpump : r.session.pumpError with _ | error
        · exact hwait
        · exact hwait.tail (.raise (.session error))
      · exact .single (.decide he hpc hchoose)

theorem complete_effects {o : CommandOutcome} {started : ℚ} {reads : Reads} (policy : Strategy)
    (he : e = .runs reads) (hpc : r.pc = .reconciling o started .confirmed) (since : ℚ) :
    ReflTransGen (Effect policy e) r (r.complete policy reads since) :=
  .head (.complete _ hpc) (iterate_effects policy he rfl)

theorem answer_effects {w : WorldView} {d : Decision} {started : ℚ} {c : CallId}
    {o : CommandOutcome} {reads : Reads} (policy : Strategy) (he : e = .runs reads)
    (hpc : r.pc = .sending w d started (some c)) (hid : o.requestId = d.requestId) :
    ReflTransGen (Effect policy e) r (r.answer policy reads w d started o) := by
  unfold answer
  dsimp only
  have hnote := ReflTransGen.single (r := Effect policy e) (.note hpc hid)
  split
  · rename_i hincludes
    have hcomplete := complete_effects policy he
      (r := { r with
        strategy := policy.noteOutcome r.strategy w d o started
        history := r.history ++ [.answered w d o]
        pc := .reconciling o started .confirmed }) rfl started
    exact (hnote.tail (.reconcile rfl fun _ => hincludes)).trans hcomplete
  · exact hnote

theorem session_effect {s : Session} {e' : SessionEvent} (hstep : r.session.step e' = some s)
    (hforeign : ∀ c id message, e' ≠ .begins c id message)
    (hsnapshot : (RunnerEvent.session e').snapshot? = some s.world → e.snapshot? = some s.world) :
    Effect policy e r { r with session := s } := by
  refine .session ?_ (Session.step_sent hstep hforeign)
  rcases Session.step_world hstep with hworld | ⟨hdelivered, hnewer⟩
  · exact Or.inl hworld
  · exact Or.inr ⟨hsnapshot hdelivered, hnewer⟩

/-- **A step is a chain of effects.** -/
theorem step_effects (howns : r.Owns) (hstep : r.step policy e = some t) :
    ReflTransGen (Effect policy e) r t := by
  cases step_cases hstep with
  | session hforeign hs =>
      refine .single (session_effect hs ?_ fun h => h)
      rintro c id message rfl
      cases hforeign
  | iterate hpc reads => exact iterate_effects policy rfl hpc
  | wake hpc hnewer reads => exact .head (.wake hpc hnewer) (iterate_effects policy rfl rfl)
  | @answered w d started c call o hpc hcall hreturned reads =>
      obtain ⟨call', hcall', hid⟩ := howns.call w d started c hpc
      rw [hcall] at hcall'
      cases hcall'
      apply answer_effects policy rfl hpc
      rw [howns.tagged.outcome c call o hcall (Or.inr hreturned), hid]
  | complete hpc reads => exact complete_effects policy rfl hpc _
  | @begin w d started c hpc hnew =>
      exact .single (.begin hpc (by simp) (Session.begin_sent r.session c d.requestId d.message))
  | sync hpc => exact .single (.sync hpc)
  | synced hpc => exact .single (.reconcile hpc fun h => by cases h)
  | newer hpc hnewer => exact .single (.reconcile hpc fun h => by cases h)
  | goOn hpc hmissing hup => exact .single (.reconcile hpc fun h => by cases h)
  | confirm hpc hincludes =>
      rcases hpc with hpc | hpc
      · exact .single (.reconcile hpc fun _ => hincludes)
      · exact .single (.reconcile hpc fun _ => hincludes)
  | swallow hpc => exact .single (.reconcile hpc fun h => by cases h)
  | cancel hpc hs =>
      refine .single (session_effect hs (fun _ _ _ h => by cases h) fun h => ?_)
      cases h
  | _ => exact .single (.raise _)

/-! ### The command's call -/

/-- Away from a send under way, only the session matters. -/
theorem Owns.away (htagged : t.session.Tagged)
    (hpc : ∀ w d started c, t.pc ≠ .sending w d started (some c)) : t.Owns :=
  ⟨htagged, fun w d started c h => absurd h (hpc w d started c)⟩

theorem Owns.iterate (htagged : r.session.Tagged) (policy : Strategy) (reads : Reads) :
    (r.iterate policy reads).Owns := by
  unfold Runner.iterate
  dsimp only
  split
  · exact .away htagged (by simp)
  · split
    · exact .away htagged (by simp [raise])
    · split
      · split
        · exact .away htagged (by simp [raise])
        · exact .away htagged (by simp)
      · exact .away htagged (by simp)

theorem Owns.complete (htagged : r.session.Tagged) (policy : Strategy) (reads : Reads)
    (started : ℚ) : (r.complete policy reads started).Owns :=
  Owns.iterate (r := { r with strategy := _, pc := .ready }) htagged policy reads

theorem Owns.answer (htagged : r.session.Tagged) (policy : Strategy) (reads : Reads)
    (w : WorldView) (d : Decision) (started : ℚ) (o : CommandOutcome) :
    (r.answer policy reads w d started o).Owns := by
  unfold Runner.answer
  dsimp only
  split
  · apply Owns.complete
    exact htagged
  · exact .away htagged (by simp)

/-- Another step of the session keeps the command's call. -/
theorem Owns.session (h : r.Owns) {s : Session} {e' : SessionEvent}
    (hstep : r.session.step e' = some s) (hforeign : ∀ c id message, e' ≠ .begins c id message) :
    { r with session := s }.Owns := by
  refine ⟨h.tagged.step hstep, ?_⟩
  intro w d started c hpc
  obtain ⟨call, hcall, hid⟩ := h.call w d started c hpc
  rcases Session.evolves_step hstep hforeign c with ⟨hnone, -⟩ | ⟨call₀, call', hcall₀, hcall', hsame, -⟩
  · rw [hcall] at hnone
    cases hnone
  · rw [hcall] at hcall₀
    cases hcall₀
    exact ⟨call', hcall', hsame.trans hid⟩

theorem owns_step (howns : r.Owns) (hstep : r.step policy e = some t) : t.Owns := by
  have htagged := howns.tagged
  cases step_cases hstep with
  | session hforeign hs =>
      apply howns.session hs
      rintro c id message rfl
      cases hforeign
  | iterate hpc reads => exact .iterate htagged policy reads
  | wake hpc hnewer reads =>
      exact Owns.iterate (r := { r with pc := .ready }) htagged policy reads
  | answered hpc hcall hreturned reads => exact .answer htagged policy reads _ _ _ _
  | complete hpc reads => exact .complete htagged policy reads _
  | @begin w d started c hpc hnew =>
      refine ⟨htagged.begin hnew _ _, ?_⟩
      obtain ⟨call, hcalls, hid, -⟩ := Session.begin_calls r.session c d.requestId d.message
      intro w' d' started' c' hpc'
      cases hpc'
      exact ⟨call, by rw [hcalls, Function.update_self], hid⟩
  | sync hpc => exact .away ⟨htagged.listed, htagged.outcome⟩ (by simp [Runner.sync])
  | synced hpc => exact .away htagged (by simp)
  | newer hpc hnewer => exact .away htagged (by simp)
  | confirm hpc hincludes => exact .away htagged (by simp)
  | cancel hpc hs => exact howns.session hs fun _ _ _ h => by cases h
  | _ => exact .away htagged (by simp [raise])

end Effects

/-! ### The induction rule for runs -/

/-- The readable snapshots a trace delivers. -/
def snapshots (trace : List RunnerEvent) : List WorldView :=
  trace.filterMap RunnerEvent.snapshot?

theorem mem_snapshots {trace : List RunnerEvent} {e : RunnerEvent} {w : WorldView}
    (he : e ∈ trace) (hw : e.snapshot? = some w) : w ∈ snapshots trace :=
  List.mem_filterMap.mpr ⟨e, he, hw⟩

section Rule

open Relation

variable {policy : Strategy} {w₀ : WorldView} {trace : List RunnerEvent} {r₀ r : Runner}

/-- **The invariant rule**: what holds at first and survives every effect holds after
every run. An effect may use that its event is one of the run. -/
theorem run_invariant {P : Runner → Prop} (howns : r₀.Owns)
    (hrun : Run (Step policy) r₀ trace r) (hstart : P r₀)
    (heffect : ∀ e r t, e ∈ trace → P r → Effect policy e r t → P t) : P r := by
  have hinv : r.Owns ∧ P r := by
    refine hrun.invariant (P := fun r => r.Owns ∧ P r) (A := fun e => e ∈ trace)
      (fun _ he => he) ⟨howns, hstart⟩ ?_
    rintro r e t ⟨howns, hinv⟩ he hstep
    refine ⟨owns_step howns hstep, ?_⟩
    have hchain := step_effects howns hstep
    clear hstep
    induction hchain with
    | refl => exact hinv
    | tail _ heff ih => exact heffect e _ _ he ih heff
  exact hinv.2

theorem owns_start (w₀ : WorldView) : (start w₀).Owns := by
  refine .away ⟨?_, ?_⟩ (by simp [start])
  · intro id c hlisted
    cases hlisted
  · intro c call o hcall
    cases hcall

theorem run_owns (hrun : Run (Step policy) (start w₀) trace r) : r.Owns := by
  refine hrun.invariant (A := fun _ => True) (fun _ _ => trivial) (owns_start w₀) ?_
  intro r e t howns _ hstep
  exact owns_step howns hstep

end Rule

end Runner

end PlanetCharlu
