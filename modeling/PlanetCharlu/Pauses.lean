import PlanetCharlu.RunnerEffects

/-!
# Pauses and the end of the run

The runner decides on one snapshot, and `send` checks the phase of a possibly newer
one: `asyncio.wait_for` runs `send` as a task, and the pump may apply a snapshot
before that task runs first. A pause that lands there makes `send` refuse, and
nothing catches the refusal (`pause_in_the_gap_raises`). In runs where every such task finds
a snapshot that shows RUNNING, the runner gets through pauses and ends: it waits, or
returns the final snapshot (`pause_never_raises`).
-/

namespace PlanetCharlu

open Runs

/-- The stream and the connection work, and no deadline passes. -/
def RunnerEvent.isSmooth : RunnerEvent → Bool
  | .session (.ends _) => false
  | .session (.sendFails _ _) => false
  | .syncFails _ => false
  | .expires => false
  | _ => true

/-- The server refused a command with a protocol error. -/
def SessionError.IsRefusal (e : SessionError) : Prop :=
  ∃ code closeSession, e = .protocolErrorReceived code closeSession

/-! ### Calls on a connection that stays up -/

/-- Nobody cancelled the call, and all that can befall it is an answer. -/
structure Call.Undisturbed (call : Call) : Prop where
  wanted : call.cancelling = false
  kept : call.future ≠ .cancelled
  exception : ∀ e, call.future = .exception e → e.IsRefusal
  raised : ∀ e, call.stage = .raised e → e.IsRefusal
  accepted : ∀ e, call.stage ≠ .refused e

/-- An undisturbed call leaves with its answer. -/
theorem Call.Undisturbed.exit {call : Call} (h : call.Undisturbed) {stage : Stage}
    (hexit : Session.exit call = some stage) :
    (∀ e, stage = .raised e → e.IsRefusal) ∧ ∀ e, stage ≠ .refused e := by
  cases Session.exit_cases hexit with
  | cancelled hopen hcancelled =>
      rcases hcancelled with hcancelling | hfuture
      · rw [h.wanted] at hcancelling
        cases hcancelling
      · exact absurd hfuture h.kept
  | result hopen hfuture => exact ⟨by simp, by simp⟩
  | exception hopen hfuture =>
      refine ⟨?_, by simp⟩
      intro e hstage
      cases hstage
      exact h.exception _ hfuture

namespace Session

/-- All calls are undisturbed, and the table lists open calls only. -/
structure Undisturbed (s : Session) : Prop where
  calls : ∀ c call, s.calls c = some call → call.Undisturbed
  table : ∀ id c, s.pending id = some c →
    ∃ call, s.calls c = some call ∧ call.requestId = id ∧ call.stage.isOpen = true

namespace Undisturbed

variable {s t : Session}

theorem settle (h : s.Undisturbed) (id : String) {f : Future} (hkept : f ≠ .cancelled)
    (hexception : ∀ e, f = .exception e → e.IsRefusal) : (s.settle id f).Undisturbed := by
  constructor
  · intro c call' hcall'
    rw [settle_calls] at hcall'
    obtain ⟨call, hcall, rfl⟩ := Option.map_eq_some_iff.mp hcall'
    have hbefore := h.calls c call hcall
    split
    · by_cases hwaiting : call.future = .waiting
      · have hset := Call.settle_of_waiting hwaiting f
        refine ⟨?_, ?_, ?_, ?_, ?_⟩
        · rw [Call.settle_cancelling]
          exact hbefore.wanted
        · rw [hset]
          exact hkept
        · rw [hset]
          exact hexception
        · rw [Call.settle_stage]
          exact hbefore.raised
        · rw [Call.settle_stage]
          exact hbefore.accepted
      · rw [Call.settle_of_done hwaiting]
        exact hbefore
    · exact hbefore
  · intro id' c hlisted
    rw [settle_pending] at hlisted
    by_cases hid : id' = id
    · simp [hid] at hlisted
    · rw [Function.update_of_ne hid] at hlisted
      obtain ⟨call, hcall, hrequest, hopen⟩ := h.table id' c hlisted
      rw [settle_calls, hcall, Option.map_some]
      split
      · exact ⟨_, rfl, by simpa using hrequest, by simpa using hopen⟩
      · exact ⟨call, rfl, hrequest, hopen⟩

/-- A message that the pump survives. -/
theorem receive (h : s.Undisturbed) (hrunning : s.pumpError = none) (m : ServerMessage)
    (hup : (s.receive m).pumpError = none) : (s.receive m).Undisturbed := by
  rcases m with state | wire | error | _ | _
  · have hconsume : s.consume (.message (.state state)) = s.receive (.state state) := by
      simp [consume, hrunning]
    rcases consume_state_cases hrunning state with ⟨-, e, hend⟩ | ⟨-, -, hsame⟩ |
      ⟨-, -, -, e, hend⟩ | ⟨-, -, w, -, hreplaced⟩
    · rw [← hconsume, hend] at hup
      cases hup
    · rw [← hconsume, hsame]
      exact h
    · rw [← hconsume, hend] at hup
      cases hup
    · rw [← hconsume, hreplaced]
      exact ⟨h.calls, h.table⟩
  · exact h.settle _ (by simp) (by simp)
  · rcases hfatal : error.closeSession || error.requestId.null with _ | _
    · obtain ⟨hclose, hnull⟩ := Bool.or_eq_false_iff.mp hfatal
      have hrefused : (s.settle error.requestId.value
          (.exception (.protocolErrorReceived error.code error.closeSession))).Undisturbed := by
        apply h.settle _ (by simp)
        intro e he
        cases he
        exact ⟨_, _, rfl⟩
      simpa [Session.receive, hclose, hnull, reject] using hrefused
    · simp only [Session.receive, hfatal] at hup
      cases hup
  · exact h
  · exact h

/-- One call is rewritten; registrations of other calls stay or go. -/
theorem update (h : s.Undisturbed) {c : CallId} {call' : Call} (hcall' : call'.Undisturbed)
    (hcalls : t.calls = Function.update s.calls c (some call'))
    (hpending : ∀ id c', t.pending id = some c' → s.pending id = some c' ∧ c' ≠ c ∨
      c' = c ∧ call'.requestId = id ∧ call'.stage.isOpen = true) : t.Undisturbed := by
  constructor
  · intro c' call hcall
    rw [hcalls] at hcall
    by_cases hc : c' = c
    · subst hc
      rw [Function.update_self, Option.some.injEq] at hcall
      subst hcall
      exact hcall'
    · rw [Function.update_of_ne hc] at hcall
      exact h.calls c' call hcall
  · intro id c' hlisted
    rw [hcalls]
    rcases hpending id c' hlisted with ⟨hold, hc⟩ | ⟨rfl, hid, hopen⟩
    · rw [Function.update_of_ne hc]
      exact h.table id c' hold
    · rw [Function.update_self]
      exact ⟨call', rfl, hid, hopen⟩

/-- Nobody else touches the calls while the connection is up. -/
theorem step (h : s.Undisturbed) {e : SessionEvent} (hforeign : e.isForeign = true)
    (hsmooth : (RunnerEvent.session e).isSmooth = true) (hstep : s.step e = some t)
    (hup : t.pumpError = none) : t.Undisturbed := by
  cases step_cases hstep with
  | arrives hrunning m => exact h.receive hrunning m hup
  | ends hrunning cause => cases hsmooth
  | begins hnew id m => cases hforeign
  | @sends c call hcall hsending hwanted =>
      have hbefore := h.calls c call hcall
      have hcall' : { call with stage := .awaiting }.Undisturbed :=
        ⟨hbefore.wanted, hbefore.kept, hbefore.exception, by simp, by simp⟩
      refine h.update hcall' rfl ?_
      intro id c' hlisted
      by_cases hc : c' = c
      · subst hc
        obtain ⟨call₀, hcall₀, hid, -⟩ := h.table id c' hlisted
        rw [hcall] at hcall₀
        cases hcall₀
        exact Or.inr ⟨rfl, hid, rfl⟩
      · exact Or.inl ⟨hlisted, hc⟩
  | sendFails hcall hsending e => cases hsmooth
  | cancels hcall hopen => cases hforeign
  | @resumes c call stage hcall hexit =>
      have hbefore := h.calls c call hcall
      obtain ⟨hraised, haccepted⟩ := hbefore.exit hexit
      have hcall' : { call with stage }.Undisturbed :=
        ⟨hbefore.wanted, hbefore.kept, hbefore.exception, hraised, haccepted⟩
      refine h.update hcall' rfl ?_
      intro id c' hlisted
      simp only [finish, discard] at hlisted
      by_cases hid : id = call.requestId
      · simp [hid] at hlisted
      · rw [Function.update_of_ne hid] at hlisted
        refine Or.inl ⟨hlisted, ?_⟩
        rintro rfl
        obtain ⟨call₀, hcall₀, hrequest, -⟩ := h.table id c' hlisted
        rw [hcall] at hcall₀
        cases hcall₀
        exact hid hrequest.symm

end Undisturbed

end Session

namespace Runner

/-! ### Runs on a connection that stays up -/

/-- A step while the connection stays up, commands are answered, and their effects
appear in time. -/
def smoothStep (policy : Strategy) (r : Runner) (e : RunnerEvent) : Option Runner :=
  if e.isSmooth then (r.step policy e).filter fun t => t.session.pumpError.isNone else none

/-- The task of a send runs first on a snapshot that shows RUNNING. -/
def beginsRunning (r : Runner) : RunnerEvent → Bool
  | .begins _ => r.session.world.isRunning
  | _ => true

def calmStep (policy : Strategy) (r : Runner) (e : RunnerEvent) : Option Runner :=
  if r.beginsRunning e then r.smoothStep policy e else none

def SmoothStep (policy : Strategy) (r : Runner) (e : RunnerEvent) (t : Runner) : Prop :=
  r.smoothStep policy e = some t

def CalmStep (policy : Strategy) (r : Runner) (e : RunnerEvent) (t : Runner) : Prop :=
  r.calmStep policy e = some t

/-- Where a snapshot that does not show RUNNING leaves the runner: a final one is
returned, any other is waited on. -/
def Rests (w : WorldView) (pc : RunnerPc) : Prop :=
  if w.isFinal then pc = .returned w else pc = .idle w.snapshotSequence

/-- What holds as long as no send is refused: only the command under way has a
registration, and the runner has not raised but for a protocol error. -/
structure Unharmed (r : Runner) : Prop where
  up : r.session.pumpError = none
  undisturbed : r.session.Undisturbed
  own : ∀ id c, r.session.pending id = some c → ∃ w d started, r.pc = .sending w d started (some c)
  refused : ∀ e, r.pc = .raised e → ∃ e' : SessionError, e'.IsRefusal ∧ e = .session e'

section Calm

variable {policy : Strategy} {e : RunnerEvent} {r t : Runner}

theorem smoothStep_eq_some :
    r.smoothStep policy e = some t ↔
      e.isSmooth = true ∧ r.step policy e = some t ∧ t.session.pumpError = none := by
  simp [smoothStep, Option.filter_eq_some_iff, Option.isNone_iff_eq_none]

theorem calmStep_eq_some :
    r.calmStep policy e = some t ↔ r.beginsRunning e = true ∧ r.smoothStep policy e = some t := by
  simp [calmStep]

/-- The head of the loop, on a connection that is up. -/
theorem iterate_pc (policy : Strategy) (reads : Reads) (hup : r.session.pumpError = none) :
    (r.session.world.isFinal = true ∧
        (r.iterate policy reads).pc = .returned r.session.world) ∨
    (r.session.world.isFinal = false ∧
        (r.iterate policy reads).pc = .idle r.session.world.snapshotSequence) ∨
    (r.session.world.phase = .RUNNING ∧
        ∃ d, (r.iterate policy reads).pc = .sending r.session.world d reads.started none) := by
  rcases hfinal : r.session.world.isFinal with _ | _
  · obtain ⟨⟨st, action⟩, hchoose⟩ :=
      policy.choose_isOk reads.env r.strategy r.session.world
    rcases action with _ | d
    · refine Or.inr (Or.inl ⟨rfl, ?_⟩)
      simp [iterate, hfinal, hchoose, hup]
    · refine Or.inr (Or.inr ⟨(Strategy.choose_decided hchoose).gate.running, d, ?_⟩)
      simp [iterate, hfinal, hchoose]
  · refine Or.inl ⟨rfl, ?_⟩
    simp [iterate, hfinal]

theorem iterate_rests (policy : Strategy) (reads : Reads) (hup : r.session.pumpError = none)
    (hphase : r.session.world.phase ≠ .RUNNING) :
    Rests r.session.world (r.iterate policy reads).pc := by
  unfold Rests
  rcases iterate_pc policy reads hup with ⟨hfinal, hpc⟩ | ⟨hfinal, hpc⟩ | ⟨hrunning, -⟩
  · rw [if_pos hfinal]
    exact hpc
  · rw [hfinal, if_neg Bool.false_ne_true]
    exact hpc
  · exact absurd hrunning hphase

theorem iterate_session (policy : Strategy) (reads : Reads) :
    (r.iterate policy reads).session = r.session := by
  unfold iterate
  dsimp only
  split
  · rfl
  · split
    · rfl
    · split
      · split <;> rfl
      · rfl

namespace Unharmed

/-- Away from a send under way, nothing may be registered. -/
theorem away (hup : t.session.pumpError = none) (hundisturbed : t.session.Undisturbed)
    (hempty : ∀ id, t.session.pending id = none) (hpc : ∀ e, t.pc ≠ .raised e) : Unharmed t := by
  refine ⟨hup, hundisturbed, ?_, fun e hraised => absurd hraised (hpc e)⟩
  intro id c hlisted
  rw [hempty id] at hlisted
  cases hlisted

theorem iterate (hup : r.session.pumpError = none) (hundisturbed : r.session.Undisturbed)
    (hempty : ∀ id, r.session.pending id = none) (policy : Strategy) (reads : Reads) :
    Unharmed (r.iterate policy reads) := by
  have hsession := iterate_session (r := r) policy reads
  apply away
  · rw [hsession]
    exact hup
  · rw [hsession]
    exact hundisturbed
  · rw [hsession]
    exact hempty
  · intro e
    rcases iterate_pc policy reads hup with ⟨-, hpc⟩ | ⟨-, hpc⟩ | ⟨-, d, hpc⟩
    all_goals
      rw [hpc]
      simp

theorem answer (hup : r.session.pumpError = none) (hundisturbed : r.session.Undisturbed)
    (hempty : ∀ id, r.session.pending id = none) (policy : Strategy) (reads : Reads)
    (w : WorldView) (d : Decision) (started : ℚ) (o : CommandOutcome) :
    Unharmed (r.answer policy reads w d started o) := by
  unfold Runner.answer
  dsimp only
  split
  · apply iterate
    · exact hup
    · exact hundisturbed
    · exact hempty
  · exact away hup hundisturbed hempty (by simp)

/-- Nothing is registered at a place where no send is under way. -/
theorem empty (h : Unharmed r) (hpc : ∀ w d started c, r.pc ≠ .sending w d started (some c))
    (id : String) : r.session.pending id = none := by
  rcases hlisted : r.session.pending id with _ | c
  · rfl
  · obtain ⟨w, d, started, hsending⟩ := h.own id c hlisted
    exact absurd hsending (hpc w d started c)

/-- Nothing is registered either once the call has left. -/
theorem empty_of_closed (h : Unharmed r) {w : WorldView} {d : Decision} {started : ℚ}
    {c : CallId} {call : Call} (hpc : r.pc = .sending w d started (some c))
    (hcall : r.session.calls c = some call) (hclosed : call.stage.isOpen = false) (id : String) :
    r.session.pending id = none := by
  rcases hlisted : r.session.pending id with _ | c'
  · rfl
  · obtain ⟨w', d', started', hsending⟩ := h.own id c' hlisted
    obtain ⟨call', hcall', -, hopen⟩ := h.undisturbed.table id c' hlisted
    rw [hpc] at hsending
    cases hsending
    rw [hcall] at hcall'
    cases hcall'
    rw [hclosed] at hopen
    cases hopen

/-- The pump or the call under way makes a step. -/
theorem session (h : Unharmed r) {s : Session} {e' : SessionEvent}
    (hforeign : e'.isForeign = true) (hsmooth : (RunnerEvent.session e').isSmooth = true)
    (hstep : r.session.step e' = some s) (hup : s.pumpError = none) :
    Unharmed { r with session := s } := by
  refine ⟨hup, h.undisturbed.step hforeign hsmooth hstep hup, ?_, h.refused⟩
  intro id c hlisted
  apply h.own id c
  apply Session.step_pending hstep _ hlisted
  rintro c' id' message rfl
  cases hforeign

/-- The command's call ended without an outcome: the server refused it. -/
theorem refusal (h : Unharmed r) {c : CallId} {call : Call} {e : SessionError}
    (hcall : r.session.calls c = some call)
    (hfailed : call.stage = .raised e ∨ call.stage = .refused e) :
    e.IsRefusal ∧ call.stage.isOpen = false := by
  have hundisturbed := h.undisturbed.calls c call hcall
  rcases hfailed with hraised | hrefused
  · exact ⟨hundisturbed.raised e hraised, by rw [hraised]; rfl⟩
  · exact absurd hrefused (hundisturbed.accepted e)

theorem not_timedOut (h : Unharmed r) {c : CallId} {call : Call}
    (hcall : r.session.calls c = some call) : call.stage ≠ .raised .cancelled := by
  intro hcancelled
  obtain ⟨⟨code, close, hrefusal⟩, -⟩ := h.refusal hcall (Or.inl hcancelled)
  cases hrefusal

/-- A command's task begins on a snapshot that shows RUNNING: it registers. -/
theorem begin (h : Unharmed r) {w : WorldView} {d : Decision} {started : ℚ} {c : CallId}
    (hpc : r.pc = .sending w d started none) (hrunning : r.session.world.isRunning = true) :
    Unharmed { r with
      session := r.session.begin c d.requestId d.message
      pc := .sending w d started (some c) } := by
  have hempty := h.empty (by simp [hpc])
  have hbegin : r.session.begin c d.requestId d.message =
      { r.session with
        pending := Function.update r.session.pending d.requestId (some c)
        calls := Function.update r.session.calls c
          (some { requestId := d.requestId, message := d.message, stage := .sending })
        sent := r.session.sent ++ [d.message] } := by
    simp [Session.begin, h.up, hrunning, hempty]
  have hcall : Call.Undisturbed
      { requestId := d.requestId, message := d.message, stage := .sending } :=
    ⟨rfl, by simp, by simp, by simp, by simp⟩
  have honly : ∀ id c', Function.update r.session.pending d.requestId (some c) id = some c' →
      c' = c ∧ d.requestId = id := by
    intro id c' hlisted
    by_cases hid : id = d.requestId
    · subst hid
      rw [Function.update_self] at hlisted
      cases hlisted
      exact ⟨rfl, rfl⟩
    · rw [Function.update_of_ne hid, hempty id] at hlisted
      cases hlisted
  rw [hbegin]
  refine ⟨h.up, ?_, ?_, by simp⟩
  · refine h.undisturbed.update hcall rfl ?_
    intro id c' hlisted
    obtain ⟨hc, hid⟩ := honly id c' hlisted
    exact Or.inr ⟨hc, hid, rfl⟩
  · intro id c' hlisted
    obtain ⟨rfl, -⟩ := honly id c' hlisted
    exact ⟨w, d, started, rfl⟩

/-- **A calm step harms nothing.** -/
theorem step (h : Unharmed r) (hcalm : CalmStep policy r e t) : Unharmed t := by
  obtain ⟨hbegins, hsmoothStep⟩ := calmStep_eq_some.mp hcalm
  obtain ⟨hsmooth, hstep, hup⟩ := smoothStep_eq_some.mp hsmoothStep
  cases step_cases hstep with
  | session hforeign hs => exact h.session hforeign hsmooth hs hup
  | iterate hpc reads =>
      exact iterate h.up h.undisturbed (h.empty (by simp [hpc])) policy reads
  | wake hpc hnewer reads =>
      exact iterate (r := { r with pc := .ready }) h.up h.undisturbed (h.empty (by simp [hpc]))
        policy reads
  | answered hpc hcall hreturned reads =>
      have hempty := h.empty_of_closed hpc hcall (by rw [hreturned]; rfl)
      exact answer h.up h.undisturbed hempty policy reads _ _ _ _
  | timedOut hpc hcall hcancelled reads => exact absurd hcancelled (h.not_timedOut hcall)
  | failed hpc hcall hfailed reads =>
      obtain ⟨hrefusal, hclosed⟩ := h.refusal hcall hfailed
      have hempty := h.empty_of_closed hpc hcall hclosed
      refine ⟨h.up, h.undisturbed, ?_, ?_⟩
      · intro id c hlisted
        simp only [Runner.raise] at hlisted
        rw [hempty id] at hlisted
        cases hlisted
      · intro error herror
        cases herror
        exact ⟨_, hrefusal, rfl⟩
  | complete hpc reads =>
      apply iterate
      · exact h.up
      · exact h.undisturbed
      · exact h.empty (by simp [hpc])
  | begin hpc hnew => exact h.begin hpc hbegins
  | sync hpc =>
      refine away h.up ⟨h.undisturbed.calls, h.undisturbed.table⟩ ?_ (by simp [Runner.sync])
      exact h.empty (by simp [hpc])
  | synced hpc => exact away h.up h.undisturbed (h.empty (by simp [hpc])) (by simp)
  | syncFails hpc e => cases hsmooth
  | newer hpc hnewer => exact away h.up h.undisturbed (h.empty (by simp [hpc])) (by simp)
  | goOn hpc hmissing hup => exact away h.up h.undisturbed (h.empty (by simp [hpc])) (by simp)
  | confirm hpc hincludes =>
      rcases hpc with hpc | hpc
      · exact away h.up h.undisturbed (h.empty (by simp [hpc])) (by simp)
      · exact away h.up h.undisturbed (h.empty (by simp [hpc])) (by simp)
  | disconnected hended =>
      rw [h.up] at hended
      cases hended
  | swallow hpc => cases hsmooth
  | expires => cases hsmooth
  | cancel hpc hs => cases hsmooth

end Unharmed

/-- Where the runner is after its own task ran on a snapshot that does not show
RUNNING: at rest, waiting for a snapshot that shows the result it just got, or out
with the protocol error it just got. -/
theorem Unharmed.runs (h : Unharmed r) {reads : Reads}
    (hstep : r.step policy (.runs reads) = some t) (hphase : r.session.world.phase ≠ .RUNNING) :
    Rests r.session.world t.pc ∨ (∃ o started, t.pc = .reconciling o started .created) ∨
      ∃ e : SessionError, e.IsRefusal ∧ t.pc = .raised (.session e) := by
  cases step_cases hstep with
  | iterate hpc => exact Or.inl (iterate_rests policy reads h.up hphase)
  | wake hpc hnewer =>
      exact Or.inl (iterate_rests (r := { r with pc := .ready }) policy reads h.up hphase)
  | @answered w d started c call o hpc hcall hreturned =>
      unfold Runner.answer
      dsimp only
      split
      · left
        apply iterate_rests (r := { r with strategy := _, history := _, pc := .ready })
        · exact h.up
        · exact hphase
      · exact Or.inr (Or.inl ⟨o, started, rfl⟩)
  | timedOut hpc hcall hcancelled => exact absurd hcancelled (h.not_timedOut hcall)
  | failed hpc hcall hfailed => exact Or.inr (Or.inr ⟨_, (h.refusal hcall hfailed).1, rfl⟩)
  | complete hpc =>
      left
      apply iterate_rests (r := { r with strategy := _, pc := .ready })
      · exact h.up
      · exact hphase
  | disconnected hended =>
      rw [h.up] at hended
      cases hended

/-- Off RUNNING, a send that begins is refused, and the runner raises the refusal. -/
theorem begin_off_running_raises {w : WorldView} {d : Decision} {started : ℚ} {c : CallId}
    (hpc : r.pc = .sending w d started none) (hnew : r.session.calls c = none)
    (hup : r.session.pumpError = none) (hphase : r.session.world.isRunning = false)
    (reads : Reads) :
    ∃ t, r.step policy (.begins c) = some t ∧
      t.step policy (.runs reads) =
        some (t.raise (.session (.notRunning r.session.world.phase))) := by
  refine ⟨{ r with
    session := r.session.begin c d.requestId d.message
    pc := .sending w d started (some c) }, ?_, ?_⟩
  · simp [Runner.step, hpc, Session.step, hnew]
  · simp [Runner.step, Session.begin, hup, hphase, Runner.resume]

end Calm

/-! ### The law and its exception -/

section Law

variable {policy : Strategy} {w₀ : WorldView} {trace : List RunnerEvent} {r : Runner}

theorem run_unharmed (hrun : Run (CalmStep policy) (start w₀) trace r) : Unharmed r := by
  refine hrun.invariant (A := fun _ => True) (fun _ _ => trivial) ?_ ?_
  · refine .away rfl ⟨?_, ?_⟩ (fun _ => rfl) (by simp [start])
    · intro c call hcall
      cases hcall
    · intro id c hlisted
      cases hlisted
  · intro r e t h _ hstep
    exact h.step hstep

/-- **A pause or the end of the run does not crash the trader**, in runs on a
connection that stays up where every send begins on a snapshot that shows RUNNING:
the runner raises nothing but a protocol error answering its command; and when its
task runs on a snapshot that does not show RUNNING, it returns the snapshot if that
is final and waits on it otherwise, once the command under way is settled. -/
theorem pause_never_raises (hrun : Run (CalmStep policy) (start w₀) trace r) :
    (∀ e, r.pc = .raised e → ∃ e' : SessionError, e'.IsRefusal ∧ e = .session e') ∧
    ∀ reads t, r.step policy (.runs reads) = some t → r.session.world.phase ≠ .RUNNING →
      Rests r.session.world t.pc ∨ (∃ o started, t.pc = .reconciling o started .created) ∨
        ∃ e : SessionError, e.IsRefusal ∧ t.pc = .raised (.session e) := by
  have h := run_unharmed hrun
  refine ⟨h.refused, ?_⟩
  intro reads t hstep hphase
  exact h.runs hstep hphase

/-- The server pauses, in the snapshot after the sample. -/
def pausedState : Wire.State := { Wire.State.sample 2 with worldVersion := 2, phase := .PAUSED }

/-- The pause lands while the send is under way: the runner reconciles, then waits. -/
def pauseAfterBegin : List RunnerEvent :=
  [.runs sampleReads, .begins 0, .session (.arrives (.state pausedState)), .session (.sends 0),
    .session (.arrives (.result
      { requestId := "request-1", ok := true, code := .OK, processedTick := 0,
        processedVersion := 2, objectId := ⟨false, "offer-1"⟩, transactionId := ⟨true, ""⟩,
        retryAfterTick := ⟨true, 0⟩ })),
    .session (.resumes 0), .runs sampleReads]

theorem pause_never_raises_sample :
    ∃ r, Run (CalmStep .base) (start .sample) pauseAfterBegin r ∧ r.pc = .idle 2 ∧
      ∀ e, r.pc = .raised e → ∃ e' : SessionError, e'.IsRefusal ∧ e = .session e' := by
  have hreplay : (replay (calmStep .base) (start .sample) pauseAfterBegin).map
      (fun r => r.pc) = some (.idle 2) := by decide +kernel
  obtain ⟨r, hr, hpc⟩ := Option.map_eq_some_iff.mp hreplay
  have hrun : Run (CalmStep .base) (start .sample) pauseAfterBegin r :=
    run_of_replay (fun _ _ _ h => h) hr
  exact ⟨r, hrun, hpc, (pause_never_raises hrun).1⟩

/-- The pause lands between the decision and the phase check of `send`. -/
def pauseInGap : List RunnerEvent :=
  [.runs sampleReads, .session (.arrives (.state pausedState)), .begins 0, .runs sampleReads]

theorem pause_in_the_gap_raises :
    ∃ r, Run (SmoothStep .base) (start .sample) pauseInGap r ∧
      r.pc = .raised (.session (.notRunning .PAUSED)) := by
  have hreplay : (replay (smoothStep .base) (start .sample) pauseInGap).map
      (fun r => r.pc) = some (.raised (.session (.notRunning .PAUSED))) := by decide +kernel
  obtain ⟨r, hr, hpc⟩ := Option.map_eq_some_iff.mp hreplay
  exact ⟨r, run_of_replay (fun _ _ _ h => h) hr, hpc⟩

end Law

end Runner

end PlanetCharlu
