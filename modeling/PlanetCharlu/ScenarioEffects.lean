import PlanetCharlu.Scenario

/-!
# What the guided exercise can do

Every step of `Scenario` is a chain of effects, each at one place of the script. An
invariant needs one case per effect, and `run_invariant` makes it one of all runs.
-/

namespace PlanetCharlu

open Runs

/-- Begun, and neither returned nor raised. -/
def ScenarioPc.isUnderWay : ScenarioPc → Bool
  | .ready => false
  | .returned _ => false
  | .raised _ => false
  | _ => true

/-- The readable snapshot that an event delivers. -/
def ScenarioEvent.snapshot? : ScenarioEvent → Option WorldView
  | .session e => (RunnerEvent.session e).snapshot?
  | _ => none

/-- The step that the script asks for after a wait. -/
inductive ScenarioWait.Leads (world : WorldView) : ScenarioWait → ScenarioStep → Prop where
  | step3 : Leads world .advertised .step3
  | step4 {advertisementId : String} : Leads world (.sought advertisementId) (.step4 advertisementId)
  | step7 {advertisementId offerId : String} {gift : Offer} (hmem : gift ∈ world.openOffersToMe)
      (hgift : gift.isGift = true) :
      Leads world (.gifted advertisementId offerId) (.step7 advertisementId gift.offerId)
  | step8 {advertisementId : String} : Leads world (.accepted advertisementId) (.step8 advertisementId)
  | step9 : Leads world .withdrawn .step9

/-- The wait that follows a step with this outcome. -/
inductive ScenarioStep.Awaits (o : CommandOutcome) : ScenarioStep → ScenarioWait → Prop where
  | step2 : Awaits o .step2 .advertised
  | step3 {advertisementId : String} (hid : o.objectId = some advertisementId) :
      Awaits o .step3 (.sought advertisementId)
  | step4 {advertisementId offerId : String} (hid : o.objectId = some offerId) :
      Awaits o (.step4 advertisementId) (.gifted advertisementId offerId)
  | step7 {advertisementId giftId : String} :
      Awaits o (.step7 advertisementId giftId) (.accepted advertisementId)
  | step8 {advertisementId : String} : Awaits o (.step8 advertisementId) .withdrawn

/-- A call has left, or was refused, with the error of a full record store. -/
def Call.ExceedsCapacity (task : Call) : Prop :=
  ∃ closeSession, task.stage = .raised (.protocolErrorReceived .REQUEST_CAPACITY_EXCEEDED closeSession) ∨
    task.stage = .refused (.protocolErrorReceived .REQUEST_CAPACITY_EXCEEDED closeSession)

/-- What the scenario does to its own call. -/
def SessionEvent.isOwn (c : CallId) : SessionEvent → Prop
  | .sendFails c' _ => c' = c
  | .cancels c' => c' = c
  | .resumes c' => c' = c
  | _ => False

namespace Scenario

/-- The changes a step consists of, each at one place of the script. -/
inductive Effect (e : ScenarioEvent) (s : Scenario) : Scenario → Prop where
  | session {e' : SessionEvent} {t : Session} (hevent : e = .session e')
      (houtside : e'.isOutside = true) (hs : s.session.step e' = some t) :
      Effect e s { s with session := t }
  | task {x : ScenarioStep} {c : CallId} {e' : SessionEvent} {t : Session}
      (hpc : s.pc = .sending x c) (hs : s.session.step e' = some t) (hown : e'.isOwn c) :
      Effect e s { s with session := t }
  | start {c : CallId} (hpc : s.pc = .ready) (hnew : s.session.calls c = none) :
      Effect e s
        ({ s with log := s.log.runStarted s.session.world "validation" }.ask .step2 c)
  | snapshot (hopen : s.pc.isUnderWay = true) : Effect e s s.snapshot
  | ask {x : ScenarioStep} {c : CallId} {wait : ScenarioWait} (hpc : s.pc = .seen wait)
      (hleads : wait.Leads s.session.world x) (hnew : s.session.calls c = none) :
      Effect e s (s.ask x c)
  | accept {x : ScenarioStep} {c : CallId} {task : Call} {o : CommandOutcome} {wait : ScenarioWait}
      (hpc : s.pc = .sending x c) (hcall : s.session.calls c = some task)
      (hstage : task.stage = .returned o) (hok : o.ok = true) (hwait : x.Awaits o wait) :
      Effect e s { s.note x o with pc := .waiting wait }
  | reject {x : ScenarioStep} {c : CallId} {task : Call} {o : CommandOutcome}
      (hpc : s.pc = .sending x c) (hcall : s.session.calls c = some task)
      (hstage : task.stage = .returned o) (hx : x ≠ .step9) (text : String) :
      Effect e s ((s.note x o).raise (.scenario text))
  | sync {c : CallId} {task : Call} (hpc : s.pc = .sending .step9 c)
      (hcall : s.session.calls c = some task) (hfull : task.ExceedsCapacity) : Effect e s s.sync
  -- Only step 9 is left with an outcome that is not noted.
  | raise (hopen : s.pc.isUnderWay = true) (error : ScenarioError)
      (hnoted : ∀ x c task o, s.pc = .sending x c → s.session.calls c = some task →
        task.stage = .returned o → x = .step9) : Effect e s (s.raise error)
  | sees {wait : ScenarioWait} (hpc : s.pc = .waiting wait)
      (hholds : wait.predicate s.session.world = true) : Effect e s { s with pc := .seen wait }
  | synced {previousSequence : Nat} (hpc : s.pc = .syncing previousSequence) :
      Effect e s { s with pc := .waiting (.synced previousSequence) }
  | finish {previousSequence : Nat} (hpc : s.pc = .seen (.synced previousSequence)) :
      Effect e s
        { s with
          log := s.log.runEnded s.session.world "all ten steps completed"
          pc := .returned s.session.world }

section Effects

open Relation

variable {e : ScenarioEvent} {s t : Scenario} {x : ScenarioStep} {c : CallId} {task : Call}
  {wait : ScenarioWait}

theorem raise_effects (hopen : s.pc.isUnderWay = true) (hpc : ∀ x c, s.pc ≠ .sending x c)
    (error : ScenarioError) : ReflTransGen (Effect e) s (s.raise error) :=
  .single (.raise hopen error fun x c _ _ hsending _ _ => absurd hsending (hpc x c))

/-- The error of a call, where the call has left or was refused with it. -/
theorem sendRaises_effects {error : SessionError} (hpc : s.pc = .sending x c)
    (hcall : s.session.calls c = some task)
    (hstage : task.stage = .raised error ∨ task.stage = .refused error) :
    ReflTransGen (Effect e) s (s.sendRaises x error) := by
  have hraises : ∀ error, Effect e s (s.raise error) := by
    refine fun error => .raise (by rw [hpc]; rfl) error ?_
    intro x' c' task' o hpc' hcall' hreturned
    rw [hpc] at hpc'
    cases hpc'
    rw [hcall] at hcall'
    cases hcall'
    rw [hreturned] at hstage
    simp at hstage
  unfold sendRaises
  split
  · rename_i code closeSession
    split_ifs with hcode
    · subst hcode
      exact .single (.sync hpc hcall ⟨closeSession, hstage⟩)
    · exact .single (hraises _)
  · exact .single (hraises _)

theorem ask_calls (x : ScenarioStep) (c : CallId) (s : Scenario) :
    ∃ task, (s.ask x c).session.calls c = some task ∧ task.requestId = x.requestId := by
  obtain ⟨task, hcalls, hid, -⟩ := Session.begin_calls s.session c x.requestId (x.message s.runId)
  refine ⟨task, ?_, hid⟩
  change (s.session.begin c x.requestId (x.message s.runId)).calls c = some task
  rw [hcalls, Function.update_self]

/-- A step that is asked is sent, or refused at once. -/
theorem send_effects {u : Scenario} (hask : Effect e s (u.ask x c)) :
    ReflTransGen (Effect e) s (u.send x c) := by
  obtain ⟨task, hcall, -⟩ := ask_calls x c u
  unfold send
  dsimp only
  split
  · rename_i error hrefused
    rw [hcall, Option.map_some, Option.some.injEq] at hrefused
    exact ReflTransGen.head hask (sendRaises_effects rfl hcall (.inr hrefused))
  · exact .single hask

theorem answer_effects {o : CommandOutcome} (hpc : s.pc = .sending x c)
    (hcall : s.session.calls c = some task) (hstage : task.stage = .returned o) :
    ReflTransGen (Effect e) s (s.answer x o) := by
  unfold answer
  by_cases hx : x = .step9
  · rw [if_pos hx]
    refine .single (.raise (by rw [hpc]; rfl) _ ?_)
    intro x' c' task' o' hpc' _ _
    rw [hpc] at hpc'
    cases hpc'
    exact hx
  · rw [if_neg hx]
    dsimp only
    by_cases hok : o.ok = false
    · rw [if_pos hok]
      exact .single (.reject hpc hcall hstage hx _)
    · rw [if_neg hok]
      replace hok : o.ok = true := by simpa using hok
      have haccept : ∀ wait, x.Awaits o wait →
          Effect e s { s.note x o with pc := .waiting wait } := fun wait hwait =>
        .accept hpc hcall hstage hok hwait
      split
      · exact .single (haccept _ .step2)
      · exact .single (.reject hpc hcall hstage hx _)
      · rename_i hid
        exact .single (haccept _ (.step3 hid))
      · exact .single (.reject hpc hcall hstage hx _)
      · rename_i hid
        exact .tail (.single (haccept _ (.step4 hid))) (.snapshot rfl)
      · exact .single (haccept _ .step7)
      · exact .single (haccept _ .step8)
      · exact absurd rfl hx

theorem leave_effects {stage : Stage} (hpc : s.pc = .sending x c)
    (hcall : s.session.calls c = some task) (hstage : task.stage = stage) :
    ReflTransGen (Effect e) s (s.leave x stage) := by
  cases stage with
  | returned o => exact answer_effects hpc hcall hstage
  | raised error => exact sendRaises_effects hpc hcall (.inl hstage)
  | _ => exact .refl

theorem proceed_effects (hpc : s.pc = .seen wait) (hnew : s.session.calls c = none) :
    ReflTransGen (Effect e) s (s.proceed wait c) := by
  have hopen : s.pc.isUnderWay = true := by rw [hpc]; rfl
  have hsnapshot : Effect e s s.snapshot := .snapshot hopen
  have hsend : ∀ x, wait.Leads s.session.world x →
      ReflTransGen (Effect e) s (s.snapshot.send x c) := fun x hleads =>
    .head hsnapshot (send_effects (.ask hpc hleads hnew))
  unfold proceed
  split
  · exact hsend _ .step3
  · exact hsend _ .step4
  · split
    · exact raise_effects hopen (by simp [hpc]) _
    · rename_i gift hfind
      exact hsend _ (.step7 (List.mem_of_find?_eq_some hfind) (List.find?_some hfind))
  · exact hsend _ .step8
  · exact hsend _ .step9
  · exact .tail (.single hsnapshot) (.finish hpc)

theorem step_effects (hstep : s.step e = some t) : ReflTransGen (Effect e) s t := by
  cases e with
  | session e' =>
      simp only [step, Option.ite_none_right_eq_some, Option.map_eq_some_iff] at hstep
      obtain ⟨houtside, session, hs, rfl⟩ := hstep
      exact .single (.session rfl houtside hs)
  | runs c =>
      simp only [step] at hstep
      split at hstep
      · rename_i hpc
        rw [Option.ite_none_right_eq_some] at hstep
        obtain ⟨hnew, hstep⟩ := hstep
        cases hstep
        exact send_effects (.start hpc hnew)
      · rename_i x call hpc
        rw [Option.bind_eq_some_iff] at hstep
        obtain ⟨task, hcall, hstep⟩ := hstep
        rw [Option.map_eq_some_iff] at hstep
        obtain ⟨stage, hexit, rfl⟩ := hstep
        have hs : s.session.step (.resumes call) = some (s.session.finish call task stage) := by
          simp [Session.step, hcall, hexit]
        have hcall' : (s.session.finish call task stage).calls call = some { task with stage } :=
          Function.update_self _ _ _
        exact .head (.task hpc hs rfl) (leave_effects hpc hcall' rfl)
      · rename_i wait hpc
        rw [Option.ite_none_right_eq_some] at hstep
        obtain ⟨hnew, hstep⟩ := hstep
        cases hstep
        exact proceed_effects hpc hnew
      · cases hstep
  | checks =>
      simp only [step] at hstep
      split at hstep
      · rename_i wait hpc
        have hopen : s.pc.isUnderWay = true := by rw [hpc]; rfl
        split at hstep
        · rename_i hholds
          cases hstep
          exact .single (.sees hpc hholds)
        · rw [Option.map_eq_some_iff] at hstep
          obtain ⟨error, -, rfl⟩ := hstep
          exact raise_effects hopen (by simp [hpc]) _
      · cases hstep
  | synced =>
      simp only [step] at hstep
      split at hstep
      · rename_i hpc
        cases hstep
        exact .single (.synced hpc)
      · cases hstep
  | sendFails error =>
      simp only [step] at hstep
      split at hstep
      · rename_i x call hpc
        rw [Option.map_eq_some_iff] at hstep
        obtain ⟨session, hs, rfl⟩ := hstep
        refine .head (.task hpc hs rfl) ?_
        cases Session.step_cases hs with
        | @sendFails _ task hcall hsending =>
            have hcall' : (s.session.finish call task (.raised error)).calls call =
                some { task with stage := .raised error } := Function.update_self _ _ _
            exact sendRaises_effects hpc hcall' (.inl rfl)
      · rename_i hpc
        have hopen : s.pc.isUnderWay = true := by rw [hpc]; rfl
        cases hstep
        exact raise_effects hopen (by simp [hpc]) _
      · cases hstep
  | expires =>
      simp only [step] at hstep
      split at hstep
      · rename_i hpc
        have hopen : s.pc.isUnderWay = true := by rw [hpc]; rfl
        cases hstep
        exact raise_effects hopen (by simp [hpc]) _
      · cases hstep
  | cancels =>
      simp only [step] at hstep
      split at hstep
      · rename_i x call hpc
        rw [Option.map_eq_some_iff] at hstep
        obtain ⟨session, hs, rfl⟩ := hstep
        exact .single (.task hpc hs rfl)
      · rename_i hpc
        have hopen : s.pc.isUnderWay = true := by rw [hpc]; rfl
        cases hstep
        exact raise_effects hopen (by simp [hpc]) _
      · rename_i hpc
        have hopen : s.pc.isUnderWay = true := by rw [hpc]; rfl
        cases hstep
        exact raise_effects hopen (by simp [hpc]) _
      · cases hstep

end Effects

/-! ### The induction rule for runs -/

def snapshots (trace : List ScenarioEvent) : List WorldView :=
  trace.filterMap ScenarioEvent.snapshot?

/-- What holds at first and survives every effect holds after every run. An effect may use
that its event is one of the run. -/
theorem run_invariant {w₀ : WorldView} {trace : List ScenarioEvent} {s : Scenario}
    {P : Scenario → Prop} (hrun : Run Step (start w₀) trace s) (hstart : P (start w₀))
    (heffect : ∀ e s t, e ∈ trace → P s → Effect e s t → P t) : P s := by
  refine hrun.invariant (fun e he => he) hstart ?_
  intro s e t hs hmem hstep
  have hchain := step_effects hstep
  clear hstep
  induction hchain with
  | refl => exact hs
  | tail _ heff ih => exact heffect e _ _ hmem ih heff

theorem mem_snapshots {trace : List ScenarioEvent} {e : ScenarioEvent} {w : WorldView}
    (he : e ∈ trace) (hw : e.snapshot? = some w) : w ∈ snapshots trace :=
  List.mem_filterMap.mpr ⟨e, he, hw⟩

end Scenario

end PlanetCharlu
