import PlanetCharlu.LoggedRunner

/-!
# The end of a run in its log

A page reads `run_ended` off the log to stop showing a run as live. The loop writes it
when it returns and when a deadline passes. An exception that one of its awaits raises
ends the run too, and nothing is written then: `Fails` says at which steps that is, and
the end of every run is recorded exactly when no step fails.
-/

namespace PlanetCharlu

open Runs

namespace RunLog

/-- No record ends the run. -/
def Live (log : RunLog) : Prop := log.records.filter LogRecord.isEnd = []

/-- Exactly one record ends the run, and it is the last. -/
def EndRecorded (log : RunLog) : Prop :=
  ∃ front last, log.records = front ++ [last] ∧ last.isEnd = true ∧
    ∀ x ∈ front, x.isEnd = false

variable {log later : RunLog}

theorem Live.notes (h : log.Live) (hnotes : Notes log later) : later.Live := by
  obtain ⟨-, more, hmore, hquiet⟩ := hnotes
  have hnone : more.filter LogRecord.isEnd = [] := by
    rw [List.filter_eq_nil_iff]
    intro x hx
    simp [(hquiet x hx).1]
  unfold Live at h ⊢
  rw [hmore, List.filter_append, h, hnone, List.append_nil]

theorem Live.runEnded (h : log.Live) (world : WorldView) (reason : String) :
    (log.runEnded world reason).EndRecorded := by
  refine ⟨log.records, _, rfl, rfl, ?_⟩
  intro x hx
  exact (Bool.not_eq_true _).mp (List.filter_eq_nil_iff.mp h x hx)

theorem EndRecorded.not_live (h : log.EndRecorded) : ¬log.Live := by
  obtain ⟨front, last, hrecords, hend, -⟩ := h
  intro hlive
  refine List.filter_eq_nil_iff.mp hlive last ?_ hend
  rw [hrecords]
  exact List.mem_append_right _ (List.mem_singleton_self last)

end RunLog

namespace LoggedRunner

/-! ### What the log says at every place of the loop -/

/-- The log ends the run if the loop has ended, but for an exception passing through. -/
structure Books (l : LoggedRunner) : Prop where
  live : (l.runner.pc.isEnded = false ∨ ∃ e, l.runner.pc = .raised (.session e)) → l.log.Live
  ended : l.runner.pc.isEnded = true → (∀ e, l.runner.pc ≠ .raised (.session e)) →
    l.log.EndRecorded

variable {policy : Strategy} {w₀ : WorldView} {trace : List RunnerEvent} {e : RunnerEvent}
  {l t : LoggedRunner}

theorem live_look (h : l.log.Live) : l.look.log.Live := by
  unfold look
  dsimp only
  split
  · apply RunLog.Live.notes _ (RunLog.notes_offersSnapshot _ _)
    unfold RunLog.Live
    rw [RunLog.ends_transactionsSettled]
    exact h.notes (RunLog.notes_tickSnapshot _ _ _)
  · exact h

theorem Books.effect (h : l.Books) (heff : Effect e l t) : t.Books := by
  cases heff with
  | session _ => exact ⟨h.live, h.ended⟩
  | look hpc =>
      have hlive := live_look (h.live (Or.inl (by rw [hpc]; rfl)))
      refine ⟨fun _ => hlive, fun hended => ?_⟩
      rw [look_runner, hpc] at hended
      cases hended
  | move hfrom hto _ hnotes =>
      refine ⟨fun _ => (h.live (Or.inl hfrom)).notes hnotes, fun hended => ?_⟩
      rw [hto] at hended
      cases hended
  | fail hfrom hto _ hnotes =>
      exact ⟨fun _ => (h.live (Or.inl hfrom)).notes hnotes, fun _ hother => absurd hto (hother _)⟩
  | finish hpc _ =>
      have hlive := h.live (Or.inl (by rw [hpc]; rfl))
      refine ⟨?_, fun _ _ => hlive.runEnded _ _⟩
      rintro (hgoing | ⟨_, hraised⟩)
      · cases hgoing
      · cases hraised
  | timeout hfrom =>
      have hlive := h.live (Or.inl hfrom)
      refine ⟨?_, fun _ _ => hlive.runEnded _ _⟩
      rintro (hgoing | ⟨_, hraised⟩)
      · cases hgoing
      · cases hraised

theorem run_books (hrun : Run (Step policy) (start w₀) trace l) : l.Books := by
  apply run_invariant hrun
  · exact ⟨fun _ => rfl, fun hended => by cases hended⟩
  · intro e l t _ h heff
    exact h.effect heff

end LoggedRunner

/-! ### The steps that fail -/

namespace Runner

/-- The runner at the head of the loop, if its task runs to it. -/
def atHead (policy : Strategy) (reads : Reads) (r : Runner) : Option Runner :=
  match r.pc with
  | .ready => some r
  | .idle sequence =>
      if sequence < r.session.world.snapshotSequence then some { r with pc := .ready } else none
  | .sending world action started (some c) =>
      (r.session.calls c).bind fun call =>
        match call.stage with
        | .returned outcome =>
            if outcome.includesResult r.session.world then
              some { r with
                strategy := (policy.noteOutcome r.strategy world action outcome
                  started).observeLatency (reads.finished - started)
                history := r.history ++ [.answered world action outcome]
                pc := .ready }
            else none
        | _ => none
  | .reconciling _ started .confirmed =>
      some { r with
        strategy := r.strategy.observeLatency (reads.finished - started)
        pc := .ready }
  | _ => none

/-- One of the four awaits of the loop gets an exception that is no timeout: it waits
for a newer snapshot, or for one with the result, and the pump has ended; `send` raises
or refuses; the connection does not take the sync. -/
inductive Fails (policy : Strategy) (r : Runner) : RunnerEvent → Prop where
  | waits {reads : Reads} {h : Runner} {st : StrategyState} {error : SessionError}
      (hhead : r.atHead policy reads = some h) (hgoes : ¬h.session.world.isFinal = true)
      (hchoose : policy.choose reads.env h.strategy h.session.world = .ok (st, none))
      (hended : h.session.pumpError = some error) : Fails policy r (.runs reads)
  | idles {reads : Reads} {sequence : Nat} {error : SessionError} (hpc : r.pc = .idle sequence)
      (hold : ¬sequence < r.session.world.snapshotSequence)
      (hended : r.session.pumpError = some error) : Fails policy r (.runs reads)
  | sends {reads : Reads} {world : WorldView} {action : Decision} {started : ℚ} {c : CallId}
      {call : Call} {error : SessionError} (hpc : r.pc = .sending world action started (some c))
      (hcall : r.session.calls c = some call)
      (hfailed : call.stage = .refused error ∨ call.stage = .raised error ∧ error ≠ .cancelled) :
      Fails policy r (.runs reads)
  | syncs {outcome : CommandOutcome} {started : ℚ} {previous : Nat}
      (hpc : r.pc = .reconciling outcome started (.syncing previous)) (error : SessionError) :
      Fails policy r (.syncFails error)
  | waitsNewer {outcome : CommandOutcome} {started : ℚ} {previous : Nat} {error : SessionError}
      (hpc : r.pc = .reconciling outcome started (.waiting previous))
      (hold : ¬previous < r.session.world.snapshotSequence)
      (hended : r.session.pumpError = some error) : Fails policy r .checks
  | waitsResult {outcome : CommandOutcome} {started : ℚ} {expired : Bool} {error : SessionError}
      (hpc : r.pc = .reconciling outcome started (.arrived expired) ∨
        r.pc = .reconciling outcome started (.confirming expired))
      (hmissing : ¬outcome.includesResult r.session.world = true)
      (hended : r.session.pumpError = some error) : Fails policy r .checks

section Fails

variable {policy : Strategy} {reads : Reads} {r h t : Runner} {e : RunnerEvent}
  {error : SessionError}

/-- What runs to the head of the loop goes on with an iteration. -/
theorem step_of_atHead (hhead : r.atHead policy reads = some h) :
    r.step policy (.runs reads) = some (h.iterate policy reads) := by
  unfold atHead at hhead
  split at hhead
  · rename_i hpc
    cases hhead
    simp only [step, hpc]
  · rename_i sequence hpc
    split at hhead
    · rename_i hnewer
      cases hhead
      simp only [step, hpc, if_pos hnewer]
    · cases hhead
  · rename_i world action started c hpc
    obtain ⟨call, hcall, hreturned⟩ := Option.bind_eq_some_iff.mp hhead
    split at hreturned
    · rename_i outcome hstage
      split at hreturned
      · rename_i hincludes
        cases hreturned
        simp only [step, hpc, hcall, Option.bind_some, resume, hstage, answer, if_pos hincludes,
          complete]
      · cases hreturned
    · cases hreturned
  · rename_i started hpc
    cases hhead
    simp only [step, hpc, complete]
  · cases hhead

theorem raises_of_fails (hfails : r.Fails policy e) (hstep : r.step policy e = some t) :
    ∃ error, t.pc = .raised (.session error) := by
  cases hfails with
  | waits hhead hgoes hchoose hended =>
      rw [step_of_atHead hhead] at hstep
      cases hstep
      obtain ⟨-, ⟨-, hnone⟩ | ⟨error, -, -, hraised⟩⟩ := iterate_goes _ hgoes hchoose
      · rw [hnone rfl] at hended
        cases hended
      · exact ⟨error, hraised⟩
  | idles hpc hold hended =>
      simp only [step, hpc, if_neg hold, hended, Option.map_some] at hstep
      cases hstep
      exact ⟨_, rfl⟩
  | @sends _ world action started c call error hpc hcall hfailed =>
      simp only [step, hpc, hcall, Option.bind_some, resume] at hstep
      rcases hfailed with hrefused | ⟨hraised, hother⟩
      · simp only [hrefused] at hstep
        cases hstep
        exact ⟨_, rfl⟩
      · simp only [hraised] at hstep
        cases error with
        | cancelled => exact absurd rfl hother
        | _ =>
            cases hstep
            exact ⟨_, rfl⟩
  | syncs hpc error =>
      simp only [step, hpc] at hstep
      cases hstep
      exact ⟨_, rfl⟩
  | waitsNewer hpc hold hended =>
      simp only [step, hpc, if_neg hold, hended, Option.map_some] at hstep
      cases hstep
      exact ⟨_, rfl⟩
  | waitsResult hpc hmissing hended =>
      rcases hpc with hpc | hpc
      · simp only [step, hpc, if_neg hmissing, hended] at hstep
        cases hstep
        exact ⟨_, rfl⟩
      · simp only [step, hpc, if_neg hmissing, hended, Option.map_some] at hstep
        cases hstep
        exact ⟨_, rfl⟩

/-- An iteration raises only where it would wait. -/
theorem fails_of_iterate (hhead : r.atHead policy reads = some h)
    (hraised : (h.iterate policy reads).pc = .raised (.session error)) :
    r.Fails policy (.runs reads) := by
  by_cases hfinal : h.session.world.isFinal = true
  · have hreturns : h.iterate policy reads = { h with pc := .returned h.session.world } :=
      if_pos hfinal
    rw [hreturns] at hraised
    cases hraised
  · obtain ⟨⟨st, action⟩, hchoose⟩ :=
      policy.choose_isOk reads.env h.strategy h.session.world
    obtain ⟨-, ⟨hgoes, -⟩ | ⟨error', rfl, hended, -⟩⟩ := iterate_goes reads hfinal hchoose
    · rw [hraised] at hgoes
      cases hgoes
    · exact .waits hhead hfinal hchoose hended

theorem fails_of_runs (hfrom : r.pc.isEnded = false)
    (hstep : r.step policy (.runs reads) = some t)
    (hraised : t.pc = .raised (.session error)) : r.Fails policy (.runs reads) := by
  have hiterate : (r.atHead policy reads).isSome = true → r.Fails policy (.runs reads) := by
    intro hsome
    obtain ⟨h, hhead⟩ := Option.isSome_iff_exists.mp hsome
    rw [step_of_atHead hhead] at hstep
    cases hstep
    exact fails_of_iterate hhead hraised
  cases hpc : r.pc with
  | ready => exact hiterate (by simp only [atHead, hpc, Option.isSome_some])
  | idle sequence =>
      by_cases hnewer : sequence < r.session.world.snapshotSequence
      · exact hiterate (by simp only [atHead, hpc, if_pos hnewer, Option.isSome_some])
      · simp only [step, hpc, if_neg hnewer] at hstep
        obtain ⟨error, hended, -⟩ := Option.map_eq_some_iff.mp hstep
        exact .idles hpc hnewer hended
  | sending world action started call =>
      cases call with
      | none => simp only [step, hpc, reduceCtorEq] at hstep
      | some c =>
          simp only [step, hpc] at hstep
          obtain ⟨call, hcall, hresume⟩ := Option.bind_eq_some_iff.mp hstep
          unfold resume at hresume
          split at hresume
          · rename_i outcome hstage
            by_cases hincludes : outcome.includesResult r.session.world = true
            · apply hiterate
              simp only [atHead, hpc, hcall, Option.bind_some, hstage, if_pos hincludes,
                Option.isSome_some]
            · simp only [answer, if_neg hincludes] at hresume
              cases hresume
              cases hraised
          · cases hresume
            cases hraised
          · rename_i error' hother hstage
            exact .sends hpc hcall (Or.inr ⟨hstage, fun heq => hother heq⟩)
          · rename_i error' hstage
            exact .sends hpc hcall (Or.inl hstage)
          · cases hresume
  | reconciling outcome started stage =>
      cases stage with
      | confirmed => exact hiterate (by simp only [atHead, hpc, Option.isSome_some])
      | _ => simp only [step, hpc, reduceCtorEq] at hstep
  | _ =>
      rw [hpc] at hfrom
      cases hfrom

/-- **A step raises what is no timeout exactly when it fails.** -/
theorem fails_iff (hfrom : r.pc.isEnded = false) (hstep : r.step policy e = some t) :
    r.Fails policy e ↔ ∃ error, t.pc = .raised (.session error) := by
  refine ⟨fun hfails => raises_of_fails hfails hstep, ?_⟩
  rintro ⟨error, hraised⟩
  cases e with
  | runs reads => exact fails_of_runs hfrom hstep hraised
  | checks =>
      simp only [step] at hstep
      split at hstep
      · rename_i hpc
        split at hstep
        · cases hstep
          cases hraised
        · rename_i hold
          obtain ⟨error, hended, -⟩ := Option.map_eq_some_iff.mp hstep
          exact .waitsNewer hpc hold hended
      · rename_i hpc
        split at hstep
        · cases hstep
          cases hraised
        · rename_i hmissing
          split at hstep
          · rename_i hended
            exact .waitsResult (Or.inl hpc) hmissing hended
          · cases hstep
            cases hraised
      · rename_i hpc
        split at hstep
        · cases hstep
          cases hraised
        · rename_i hmissing
          obtain ⟨error, hended, -⟩ := Option.map_eq_some_iff.mp hstep
          exact .waitsResult (Or.inr hpc) hmissing hended
      · cases hstep
  | syncFails error =>
      simp only [step] at hstep
      split at hstep
      · rename_i hpc
        exact .syncs hpc error
      · cases hstep
  | session e' =>
      simp only [step, Option.ite_none_right_eq_some, Option.map_eq_some_iff] at hstep
      obtain ⟨-, s, -, rfl⟩ := hstep
      have hpc : r.pc = .raised (.session error) := hraised
      rw [hpc] at hfrom
      cases hfrom
  | begins c =>
      simp only [step] at hstep
      split at hstep
      · obtain ⟨s, -, rfl⟩ := Option.map_eq_some_iff.mp hstep
        cases hraised
      · cases hstep
  | syncs =>
      simp only [step] at hstep
      split at hstep
      · cases hstep
        cases hraised
      · cases hstep
  | synced =>
      simp only [step] at hstep
      split at hstep
      · cases hstep
        cases hraised
      · cases hstep
  | expires =>
      simp only [step] at hstep
      split at hstep
      · cases hstep
        cases hraised
      · rename_i hpc
        obtain ⟨s, -, rfl⟩ := Option.map_eq_some_iff.mp hstep
        have hpc' : r.pc = .raised (.session error) := hraised
        rw [hpc] at hpc'
        cases hpc'
      · cases hstep
        cases hraised
      · cases hstep
      · cases hstep
      · cases hstep
      · cases hstep
        cases hraised
      · cases hstep

end Fails

end Runner

/-! ### The law -/

namespace LoggedRunner

/-- Whenever the loop has ended, its log says so. -/
def Recorded (l : LoggedRunner) : Prop := l.runner.pc.isEnded = true → l.log.EndRecorded

section Law

variable {policy : Strategy} {w₀ : WorldView} {trace : List RunnerEvent} {l t : LoggedRunner}
  {e : RunnerEvent}

theorem Books.recorded (h : l.Books) (hraised : ∀ error, l.runner.pc ≠ .raised (.session error)) :
    l.Recorded := fun hended => h.ended hended hraised

/-- A step that does not fail raises nothing but a timeout. -/
theorem not_raised_step (hstep : Step policy l e t) (hcalm : ¬l.runner.Fails policy e)
    (h : ∀ error, l.runner.pc ≠ .raised (.session error)) (error : SessionError) :
    t.runner.pc ≠ .raised (.session error) := by
  intro hraised
  have hrunner := step_runner hstep
  by_cases hended : l.runner.pc.isEnded = true
  · obtain ⟨e', rfl⟩ := Runner.session_of_ended hended hrunner
    simp only [Runner.Step, Runner.step, Option.ite_none_right_eq_some,
      Option.map_eq_some_iff] at hrunner
    obtain ⟨-, s, -, hs⟩ := hrunner
    rw [← hs] at hraised
    exact h error hraised
  · rw [Bool.not_eq_true] at hended
    exact hcalm ((Runner.fails_iff hended hrunner).mpr ⟨error, hraised⟩)

theorem not_raised_run (hrun : Run (Step policy) (start w₀) trace l)
    (hcalm : ∀ before e after s t, trace = before ++ e :: after →
      Run (Step policy) (start w₀) before s → Step policy s e t → ¬s.runner.Fails policy e)
    (error : SessionError) : l.runner.pc ≠ .raised (.session error) := by
  induction hrun generalizing error with
  | start => intro hraised; cases hraised
  | @next trace s t e hrun hstep ih =>
      refine not_raised_step hstep (hcalm trace e [] s t rfl hrun hstep) ?_ error
      apply ih
      intro before e' after s' t' htrace
      exact hcalm before e' (after ++ [e]) s' t' (by simp [htrace])

/-- **Every end of a run is recorded, exactly when no step fails**: no step of a run
raises an exception that is no timeout if and only if in all its states an ended loop has
written one `run_ended`, as its last record. -/
theorem end_recorded_iff (policy : Strategy) (w₀ : WorldView) (trace : List RunnerEvent) :
    (∀ before e after s t, trace = before ++ e :: after →
        Run (Step policy) (start w₀) before s → Step policy s e t → ¬s.runner.Fails policy e) ↔
      ∀ before after s, trace = before ++ after → Run (Step policy) (start w₀) before s →
        s.Recorded := by
  constructor
  · intro hcalm before after s htrace hbefore
    apply (run_books hbefore).recorded
    apply not_raised_run hbefore
    intro front e rest s' t hfront
    exact hcalm front e (rest ++ after) s' t (by simp [htrace, hfront])
  · intro hrecorded before e after s t htrace hbefore hstep hfails
    have hafter := Run.next hbefore hstep
    obtain ⟨error, hraised⟩ := Runner.raises_of_fails hfails (step_runner hstep)
    have hended : t.runner.pc.isEnded = true := by rw [hraised]; rfl
    have hend := hrecorded (before ++ [e]) after t (by simp [htrace]) hafter hended
    exact hend.not_live ((run_books hafter).live (Or.inr ⟨error, hraised⟩))

end Law

/-- The connection closes while the loop waits. -/
def connectionLost : List RunnerEvent :=
  [.runs Runner.sampleReads, .session (.ends none), .runs Runner.sampleReads]

theorem connection_lost_unrecorded :
    ∃ l, Run (Step .base) (start lastTick) connectionLost l ∧
      l.runner.pc = .raised (.session (.connectionError "server connection closed")) ∧
      l.log.Live ∧ ¬l.Recorded := by
  have hreplay : (replay (step .base) (start lastTick) connectionLost).map
      (fun l => (l.runner.pc, l.log.records.filter LogRecord.isEnd)) =
        some (.raised (.session (.connectionError "server connection closed")), []) := by
    decide +kernel
  obtain ⟨l, hl, hends⟩ := Option.map_eq_some_iff.mp hreplay
  obtain ⟨hpc, hlive⟩ := Prod.mk.inj hends
  refine ⟨l, run_of_replay (fun _ _ _ h => h) hl, hpc, hlive, ?_⟩
  intro hrecorded
  have hended : l.runner.pc.isEnded = true := by rw [hpc]; rfl
  exact (hrecorded hended).not_live hlive

end LoggedRunner

end PlanetCharlu
