import PlanetCharlu.RunLog
import PlanetCharlu.RunnerEffects

/-!
# The trading loop with its run log

The loop of `Runner` once more, with the lines that write to the run log. Every step is
one of the loop (`run_erase`): the log reads what the runner does and changes nothing.
`action` and `loggedTick` are local variables of the source; `heads` keeps the snapshots
that the loop looked at, for the statements.
-/

namespace PlanetCharlu

open Runs

structure LoggedRunner where
  runner : Runner
  log : RunLog
  loggedTick : Option Nat := none
  action : Option Decision := none
  heads : List WorldView := []

namespace LoggedRunner

def start (world : WorldView) : LoggedRunner where
  runner := .start world
  log := RunLog.runStarted {} world "trade"

/-- The head of the loop: a new tick is logged. -/
def look (l : LoggedRunner) : LoggedRunner :=
  let world := l.runner.session.world
  let l := { l with heads := l.heads ++ [world] }
  if some world.tick ≠ l.loggedTick then
    { l with
      loggedTick := some world.tick
      log := ((l.log.tickSnapshot world l.runner.strategy.sentTotal).transactionsSettled
        world).offersSnapshot world }
  else l

def iterate (policy : Strategy) (reads : Reads) (l : LoggedRunner) : LoggedRunner :=
  let l := l.look
  let world := l.runner.session.world
  let runner := l.runner.iterate policy reads
  if world.isFinal then
    { l with runner, log := l.log.runEnded world "phase finished or station failed" }
  else
    match policy.choose reads.env l.runner.strategy world with
    | .error _ => { l with runner }
    | .ok (strategy, action) =>
        let log := l.log.offersPassed world strategy.lastOfferReview
        match action with
        | none => { l with runner, log }
        | some action => { l with runner, log := log.decision world action, action := some action }

def complete (policy : Strategy) (reads : Reads) (started : ℚ) (l : LoggedRunner) : LoggedRunner :=
  let elapsed := reads.finished - started
  let world := l.runner.session.world
  let strategy := l.runner.strategy.observeLatency elapsed
  let runner := { l.runner with strategy, pc := .ready }
  match l.action with
  | none => { l with runner }.iterate policy reads
  | some action =>
      { l with
        runner
        log := l.log.tradeTiming world action.requestId elapsed
          (policy.reserveTicks strategy world) (policy.targetTicks strategy world) }.iterate
        policy reads

def answer (policy : Strategy) (reads : Reads) (world : WorldView) (action : Decision)
    (started : ℚ) (outcome : CommandOutcome) (l : LoggedRunner) : LoggedRunner :=
  let l := { l with
    runner := { l.runner with
      strategy := policy.noteOutcome l.runner.strategy world action outcome started
      history := l.runner.history ++ [.answered world action outcome]
      pc := .reconciling outcome started .created }
    log := l.log.commandResult world action.key outcome }
  if outcome.includesResult l.runner.session.world then l.complete policy reads started else l

/-- The `except asyncio.TimeoutError` block. -/
def timeout (l : LoggedRunner) : LoggedRunner :=
  { l with
    runner := l.runner.raise .timeout
    log := l.log.runEnded l.runner.session.world "command or sync timeout" }

/-- Another exception passes through. -/
def raise (l : LoggedRunner) (e : SessionError) : LoggedRunner :=
  { l with runner := l.runner.raise (.session e) }

def resume (policy : Strategy) (reads : Reads) (world : WorldView) (action : Decision)
    (started : ℚ) (call : Call) (l : LoggedRunner) : Option LoggedRunner :=
  match call.stage with
  | .returned outcome => some (l.answer policy reads world action started outcome)
  | .raised .cancelled => some l.timeout
  | .raised e => some (l.raise e)
  | .refused e => some (l.raise e)
  | _ => none

def step (policy : Strategy) (l : LoggedRunner) (event : RunnerEvent) : Option LoggedRunner :=
  match event with
  | .runs reads =>
      match l.runner.pc with
      | .ready => some (l.iterate policy reads)
      | .idle sequence =>
          if sequence < l.runner.session.world.snapshotSequence then
            some ({ l with runner := { l.runner with pc := .ready } }.iterate policy reads)
          else l.runner.session.pumpError.map l.raise
      | .sending world action started (some c) =>
          (l.runner.session.calls c).bind fun call =>
            l.resume policy reads world action started call
      | .reconciling _ started .confirmed => some (l.complete policy reads started)
      | _ => none
  | .expires =>
      match l.runner.pc with
      | .sending _ _ _ none => some l.timeout
      | .sending _ _ _ (some c) =>
          (l.runner.session.step (.cancels c)).map fun session =>
            { l with runner := { l.runner with session } }
      | .reconciling outcome started (.arrived false) =>
          some { l with
            runner := { l.runner with pc := .reconciling outcome started (.arrived true) } }
      | .reconciling _ _ (.arrived true) => none
      | .reconciling _ _ (.confirming true) => none
      | .reconciling _ _ .confirmed => none
      | .reconciling _ _ _ => some l.timeout
      | _ => none
  | event => (l.runner.step policy event).map fun runner => { l with runner }

def Step (policy : Strategy) (l : LoggedRunner) (event : RunnerEvent) (t : LoggedRunner) : Prop :=
  l.step policy event = some t

/-! ### The log changes nothing -/

section Erasure

variable {policy : Strategy} {l t : LoggedRunner} {e : RunnerEvent} {trace : List RunnerEvent}

@[simp] theorem look_runner (l : LoggedRunner) : l.look.runner = l.runner := by
  unfold look
  dsimp only
  split <;> rfl

theorem iterate_runner (policy : Strategy) (reads : Reads) (l : LoggedRunner) :
    (l.iterate policy reads).runner = l.runner.iterate policy reads := by
  unfold iterate
  dsimp only
  rw [look_runner]
  split
  · rfl
  · split
    · rfl
    · split <;> rfl

theorem complete_runner (policy : Strategy) (reads : Reads) (started : ℚ) (l : LoggedRunner) :
    (l.complete policy reads started).runner = l.runner.complete policy reads started := by
  unfold complete
  dsimp only
  split <;> exact iterate_runner policy reads _

theorem answer_runner (policy : Strategy) (reads : Reads) (world : WorldView) (action : Decision)
    (started : ℚ) (outcome : CommandOutcome) (l : LoggedRunner) :
    (l.answer policy reads world action started outcome).runner =
      l.runner.answer policy reads world action started outcome := by
  unfold answer Runner.answer
  dsimp only
  split
  · exact complete_runner policy reads started _
  · rfl

theorem resume_runner (policy : Strategy) (reads : Reads) (world : WorldView) (action : Decision)
    (started : ℚ) (call : Call) (l : LoggedRunner) :
    (l.resume policy reads world action started call).map LoggedRunner.runner =
      l.runner.resume policy reads world action started call := by
  unfold resume Runner.resume
  cases call.stage with
  | returned outcome =>
      dsimp only
      rw [Option.map_some, answer_runner]
  | raised e => cases e <;> rfl
  | _ => rfl

/-- **A step with the log is a step of the loop.** -/
theorem step_erase (policy : Strategy) (l : LoggedRunner) (event : RunnerEvent) :
    (l.step policy event).map LoggedRunner.runner = l.runner.step policy event := by
  have hpump : (l.runner.session.pumpError.map l.raise).map LoggedRunner.runner =
      l.runner.session.pumpError.map fun e => l.runner.raise (.session e) := by
    rw [Option.map_map]
    rfl
  cases event with
  | runs reads =>
      cases hpc : l.runner.pc with
      | ready => simp only [step, Runner.step, hpc, Option.map_some, iterate_runner]
      | idle sequence =>
          simp only [step, Runner.step, hpc]
          split
          · rw [Option.map_some, iterate_runner]
          · exact hpump
      | sending world action started call =>
          cases call with
          | none => simp only [step, Runner.step, hpc, Option.map_none]
          | some c =>
              simp only [step, Runner.step, hpc, Option.map_bind]
              apply Option.bind_congr
              intro call _
              exact resume_runner policy reads world action started call l
      | reconciling outcome started stage =>
          cases stage with
          | confirmed => simp only [step, Runner.step, hpc, Option.map_some, complete_runner]
          | _ => simp only [step, Runner.step, hpc, Option.map_none]
      | _ => simp only [step, Runner.step, hpc, Option.map_none]
  | expires =>
      cases hpc : l.runner.pc with
      | sending world action started call =>
          cases call with
          | none => simp only [step, Runner.step, hpc, Option.map_some, timeout]
          | some c =>
              simp only [step, Runner.step, hpc, Option.map_map]
              rfl
      | reconciling outcome started stage =>
          cases stage with
          | arrived expired =>
              cases expired <;> simp only [step, Runner.step, hpc, Option.map_some, Option.map_none]
          | confirming expired =>
              cases expired <;>
                simp only [step, Runner.step, hpc, Option.map_some, Option.map_none, timeout]
          | _ => simp only [step, Runner.step, hpc, Option.map_some, Option.map_none, timeout]
      | _ => simp only [step, Runner.step, hpc, Option.map_none]
  | _ =>
      simp only [step]
      rw [Option.map_map]
      exact Option.map_id'

theorem step_runner (h : Step policy l e t) : Runner.Step policy l.runner e t.runner := by
  have herase := step_erase policy l e
  have hstep : l.step policy e = some t := h
  rw [hstep] at herase
  exact herase.symm

/-- **A run with the log is a run of the loop.** -/
theorem run_erase {w₀ : WorldView} (hrun : Run (Step policy) (start w₀) trace l) :
    Run (Runner.Step policy) (Runner.start w₀) trace l.runner := by
  induction hrun with
  | start => exact .start
  | next _ hstep ih => exact .next ih (step_runner hstep)

end Erasure

/-! ### What a step writes -/

end LoggedRunner

def RunnerPc.isEnded : RunnerPc → Bool
  | .returned _ => true
  | .raised _ => true
  | _ => false

/-- After its end the loop takes no step: what happens happens in the session. -/
theorem Runner.session_of_ended {policy : Strategy} {r t : Runner} {e : RunnerEvent}
    (hended : r.pc.isEnded = true) (h : r.step policy e = some t) : ∃ e', e = .session e' := by
  rcases hpc : r.pc with _ | _ | _ | _ | w | error
  case returned =>
    cases e with
    | session e' => exact ⟨e', rfl⟩
    | _ => simp [step, hpc] at h
  case raised =>
    cases e with
    | session e' => exact ⟨e', rfl⟩
    | _ => simp [step, hpc] at h
  all_goals
    rw [hpc] at hended
    cases hended

/-- Before the final snapshot an iteration waits or sends, unless the pump has ended where
it would wait. -/
theorem Runner.iterate_goes {policy : Strategy} {r : Runner} {st : StrategyState}
    {action : Option Decision} (reads : Reads) (hfinal : ¬r.session.world.isFinal = true)
    (hchoose : policy.choose reads.env r.strategy r.session.world = .ok (st, action)) :
    (r.iterate policy reads).session = r.session ∧
      ((r.iterate policy reads).pc.isEnded = false ∧
          (action = none → r.session.pumpError = none) ∨
        ∃ error, action = none ∧ r.session.pumpError = some error ∧
          (r.iterate policy reads).pc = .raised (.session error)) := by
  unfold iterate
  dsimp only
  rw [if_neg hfinal, hchoose]
  cases action with
  | none =>
      cases r.session.pumpError with
      | none => exact ⟨rfl, Or.inl ⟨rfl, fun _ => rfl⟩⟩
      | some error => exact ⟨rfl, Or.inr ⟨error, rfl, rfl, rfl⟩⟩
  | some d => exact ⟨rfl, Or.inl ⟨rfl, fun hnone => by cases hnone⟩⟩

namespace LoggedRunner

/-- The changes a step consists of: the session moves on, the loop looks at a snapshot,
it does something that is noted, it ends, or an exception passes through it. -/
inductive Effect (e : RunnerEvent) (l : LoggedRunner) : LoggedRunner → Prop where
  | session {s : Session}
      (hworld : s.world = l.runner.session.world ∨ e.snapshot? = some s.world ∧
        l.runner.session.world.snapshotSequence < s.world.snapshotSequence) :
      Effect e l { l with runner := { l.runner with session := s } }
  | look (hpc : l.runner.pc = .ready) : Effect e l l.look
  | move {r : Runner} {log : RunLog} {action : Option Decision}
      (hfrom : l.runner.pc.isEnded = false) (hto : r.pc.isEnded = false)
      (hworld : r.session.world = l.runner.session.world) (hnotes : l.log.Notes log) :
      Effect e l { l with runner := r, log, action }
  | fail {r : Runner} {log : RunLog} {error : SessionError}
      (hfrom : l.runner.pc.isEnded = false) (hto : r.pc = .raised (.session error))
      (hworld : r.session.world = l.runner.session.world) (hnotes : l.log.Notes log) :
      Effect e l { l with runner := r, log }
  | finish (hpc : l.runner.pc = .ready)
      (hlooked : l.heads.getLast? = some l.runner.session.world) :
      Effect e l
        { l with
          runner := { l.runner with pc := .returned l.runner.session.world }
          log := l.log.runEnded l.runner.session.world "phase finished or station failed" }
  | timeout (hfrom : l.runner.pc.isEnded = false) : Effect e l l.timeout

section Effects

open Relation

variable {policy : Strategy} {e : RunnerEvent} {l t : LoggedRunner} {r : Runner}

theorem heads_look (l : LoggedRunner) : l.look.heads = l.heads ++ [l.runner.session.world] := by
  unfold look
  dsimp only
  split <;> rfl

theorem iterate_effects (policy : Strategy) (e : RunnerEvent) (reads : Reads)
    (hpc : l.runner.pc = .ready) : ReflTransGen (Effect e) l (l.iterate policy reads) := by
  have hlook := ReflTransGen.single (Effect.look (e := e) hpc)
  refine hlook.trans ?_
  have hlooked : l.look.heads.getLast? = some l.look.runner.session.world := by
    rw [heads_look, look_runner, List.getLast?_concat]
  rw [← look_runner] at hpc
  unfold iterate
  generalize l.look = l at hpc hlooked ⊢
  have hfrom : l.runner.pc.isEnded = false := by rw [hpc]; rfl
  dsimp only
  by_cases hfinal : l.runner.session.world.isFinal = true
  · have hreturns : l.runner.iterate policy reads =
        { l.runner with pc := .returned l.runner.session.world } := if_pos hfinal
    rw [if_pos hfinal, hreturns]
    exact .single (.finish hpc hlooked)
  · obtain ⟨⟨strategy, action⟩, hchoose⟩ :=
      policy.choose_isOk reads.env l.runner.strategy l.runner.session.world
    have hnotes := RunLog.notes_offersPassed l.runner.session.world l.log
      strategy.lastOfferReview
    obtain ⟨hsession, hgoes⟩ := Runner.iterate_goes reads hfinal hchoose
    have hworld := congrArg Session.world hsession
    rw [if_neg hfinal, hchoose]
    cases action with
    | none =>
        rcases hgoes with ⟨hto, -⟩ | ⟨error, -, -, hto⟩
        · exact .single (.move hfrom hto hworld hnotes)
        · exact .single (.fail hfrom hto hworld hnotes)
    | some d =>
        rcases hgoes with ⟨hto, -⟩ | ⟨error, hnone, -, -⟩
        · exact .single (.move hfrom hto hworld (hnotes.trans (RunLog.notes_decision _ _ d)))
        · cases hnone

theorem complete_effects (policy : Strategy) (e : RunnerEvent) (reads : Reads) (started : ℚ)
    (hfrom : l.runner.pc.isEnded = false) :
    ReflTransGen (Effect e) l (l.complete policy reads started) := by
  unfold complete
  dsimp only
  cases l.action with
  | none =>
      refine .head (.move hfrom ?_ ?_ (.refl _)) (iterate_effects policy e reads ?_)
      all_goals rfl
  | some action =>
      refine .head (.move hfrom ?_ ?_ (RunLog.notes_tradeTiming _ _ action.requestId _ _ _))
        (iterate_effects policy e reads ?_)
      all_goals rfl

theorem answer_effects (policy : Strategy) (e : RunnerEvent) (reads : Reads) (world : WorldView)
    (action : Decision) (started : ℚ) (outcome : CommandOutcome)
    (hfrom : l.runner.pc.isEnded = false) :
    ReflTransGen (Effect e) l (l.answer policy reads world action started outcome) := by
  unfold answer
  dsimp only
  have hresult := RunLog.notes_commandResult world l.log action.key outcome
  split
  · refine .head (.move hfrom ?_ ?_ hresult) (complete_effects policy e reads started ?_)
    all_goals rfl
  · exact .single (.move hfrom rfl rfl hresult)

theorem fail_effect (e : RunnerEvent) (hfrom : l.runner.pc.isEnded = false) (error : SessionError) :
    Effect e l (l.raise error) := .fail hfrom rfl rfl (.refl _)

theorem resume_effects {world : WorldView} {action : Decision} {started : ℚ} {call : Call}
    {reads : Reads} (hfrom : l.runner.pc.isEnded = false)
    (h : l.resume policy reads world action started call = some t) :
    ReflTransGen (Effect e) l t := by
  unfold resume at h
  split at h
  · cases h
    exact answer_effects policy e reads world action started _ hfrom
  · cases h
    exact .single (.timeout hfrom)
  · cases h
    exact .single (fail_effect e hfrom _)
  · cases h
    exact .single (fail_effect e hfrom _)
  · cases h

theorem runs_effects {reads : Reads} (hfrom : l.runner.pc.isEnded = false)
    (h : l.step policy (.runs reads) = some t) : ReflTransGen (Effect e) l t := by
  have hpump : l.runner.session.pumpError.map l.raise = some t → ReflTransGen (Effect e) l t := by
    intro hraise
    obtain ⟨error, -, rfl⟩ := Option.map_eq_some_iff.mp hraise
    exact .single (fail_effect e hfrom error)
  simp only [step] at h
  split at h
  · rename_i hpc
    cases h
    exact iterate_effects policy e reads hpc
  · split at h
    · cases h
      refine .head (.move hfrom ?_ ?_ (.refl _)) (iterate_effects policy e reads ?_)
      all_goals rfl
    · exact hpump h
  · obtain ⟨call, -, hresume⟩ := Option.bind_eq_some_iff.mp h
    exact resume_effects hfrom hresume
  · cases h
    exact complete_effects policy e reads _ hfrom
  · cases h

theorem expires_effects (hfrom : l.runner.pc.isEnded = false)
    (h : l.step policy .expires = some t) : ReflTransGen (Effect .expires) l t := by
  simp only [step] at h
  split at h
  · cases h
    exact .single (.timeout hfrom)
  · obtain ⟨s, hs, rfl⟩ := Option.map_eq_some_iff.mp h
    refine .single (.session ?_)
    rcases Session.step_world hs with hworld | ⟨hdelivered, -⟩
    · exact Or.inl hworld
    · cases hdelivered
  · cases h
    exact .single (.move hfrom rfl rfl (.refl _))
  · cases h
  · cases h
  · cases h
  · cases h
    exact .single (.timeout hfrom)
  · cases h

theorem session_effect {e' : SessionEvent} (h : Runner.Step policy l.runner (.session e') r) :
    Effect (.session e') l { l with runner := r } := by
  simp only [Runner.Step, Runner.step, Option.ite_none_right_eq_some, Option.map_eq_some_iff] at h
  obtain ⟨-, s, hs, rfl⟩ := h
  refine .session ?_
  rcases Session.step_world hs with hworld | ⟨hdelivered, hnewer, -⟩
  · exact Or.inl hworld
  · exact Or.inr ⟨hdelivered, hnewer⟩

/-- The tasks of a command: the loop itself stays where it is, or gets their exception. -/
theorem task_effect (hfrom : l.runner.pc.isEnded = false) (hsession : ∀ e', e ≠ .session e')
    (hruns : ∀ reads, e ≠ .runs reads) (hexpires : e ≠ .expires)
    (h : Runner.Step policy l.runner e r) : Effect e l { l with runner := r } := by
  cases Runner.step_cases h with
  | session _ _ => exact absurd rfl (hsession _)
  | iterate _ reads => exact absurd rfl (hruns reads)
  | wake _ _ reads => exact absurd rfl (hruns reads)
  | answered _ _ _ reads => exact absurd rfl (hruns reads)
  | timedOut _ _ _ reads => exact absurd rfl (hruns reads)
  | failed _ _ _ reads => exact absurd rfl (hruns reads)
  | complete _ reads => exact absurd rfl (hruns reads)
  | begin _ _ => exact .move hfrom rfl (Session.begin_world _ _ _ _) (.refl _)
  | syncFails _ error => exact fail_effect _ hfrom error
  | disconnected _ => exact fail_effect _ hfrom _
  | swallow _ => exact absurd rfl hexpires
  | expires => exact absurd rfl hexpires
  | cancel _ _ => exact absurd rfl hexpires
  | _ => exact .move hfrom rfl rfl (.refl _)

/-- **A step is a chain of effects.** -/
theorem step_effects (h : Step policy l e t) : ReflTransGen (Effect e) l t := by
  have hrunner := step_runner h
  have hstep : l.step policy e = some t := h
  have hfrom : (∀ e', e ≠ .session e') → l.runner.pc.isEnded = false := by
    intro hother
    by_contra hended
    obtain ⟨e', he⟩ := Runner.session_of_ended ((Bool.not_eq_false _).mp hended) hrunner
    exact hother e' he
  cases e with
  | runs reads => exact runs_effects (hfrom (by simp)) hstep
  | expires => exact expires_effects (hfrom (by simp)) hstep
  | session e' =>
      obtain ⟨r, hr, rfl⟩ := Option.map_eq_some_iff.mp hstep
      exact .single (session_effect hr)
  | _ =>
      obtain ⟨r, hr, rfl⟩ := Option.map_eq_some_iff.mp hstep
      exact .single (task_effect (hfrom (by simp)) (by simp) (by simp) (by simp) hr)

/-- **The invariant rule**: what holds at first and survives every effect holds after
every run. An effect may use that its event is one of the run. -/
theorem run_invariant {w₀ : WorldView} {trace : List RunnerEvent} {P : LoggedRunner → Prop}
    (hrun : Run (Step policy) (start w₀) trace l) (hstart : P (start w₀))
    (heffect : ∀ e l t, e ∈ trace → P l → Effect e l t → P t) : P l := by
  refine hrun.invariant (P := P) (A := fun e => e ∈ trace) (fun _ he => he) hstart ?_
  intro l e t hl he hstep
  have hchain := step_effects hstep
  clear hstep
  induction hchain with
  | refl => exact hl
  | tail _ heff ih => exact heffect e _ _ he ih heff

end Effects

/-- The last tick is running: the loop has nothing to do but to wait for the end. -/
def lastTick : WorldView := { WorldView.sample with tick := 100 }

end LoggedRunner

end PlanetCharlu
