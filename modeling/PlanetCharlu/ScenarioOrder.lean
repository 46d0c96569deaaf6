import PlanetCharlu.ScenarioEffects
import PlanetCharlu.Commands
import PlanetCharlu.Waiters

/-!
# The order of the guided exercise

In every run the commands go out in the order of the script, each for the run of the first
snapshot and only after the one before was accepted, with the ids that the server gave. A
`sync` comes last, if at all. A scenario that returns has done all ten steps.
-/

namespace PlanetCharlu

open Runs

/-- What was asked and answered before the script comes to a step. -/
inductive Due (S : List WorldView) : List (ScenarioStep × CommandOutcome) → ScenarioStep → Prop where
  | first : Due S [] .step2
  | next {done : List (ScenarioStep × CommandOutcome)} {x y : ScenarioStep} {o : CommandOutcome}
      {wait : ScenarioWait} {w : WorldView} (h : Due S done x) (hok : o.ok = true)
      (hid : o.requestId = x.requestId) (hwait : x.Awaits o wait) (hw : w ∈ S)
      (hleads : wait.Leads w y) : Due S (done ++ [(x, o)]) y

/-- The steps in order, for the ids of the advertisement and of the gift. -/
def script (advertisementId giftId : String) : List ScenarioStep :=
  [.step2, .step3, .step4 advertisementId, .step7 advertisementId giftId, .step8 advertisementId,
    .step9]

/-- Where in the script its steps are. -/
inductive Placed (advertisementId giftId : String) : List ScenarioStep → ScenarioStep → Prop where
  | step2 : Placed advertisementId giftId [] .step2
  | step3 : Placed advertisementId giftId [.step2] .step3
  | step4 : Placed advertisementId giftId [.step2, .step3] (.step4 advertisementId)
  | step7 : Placed advertisementId giftId [.step2, .step3, .step4 advertisementId]
      (.step7 advertisementId giftId)
  | step8 : Placed advertisementId giftId
      [.step2, .step3, .step4 advertisementId, .step7 advertisementId giftId] (.step8 advertisementId)
  | step9 : Placed advertisementId giftId
      [.step2, .step3, .step4 advertisementId, .step7 advertisementId giftId,
        .step8 advertisementId] .step9

theorem Placed.prefix {ad gift : String} {before : List ScenarioStep} {x : ScenarioStep}
    (h : Placed ad gift before x) : before ++ [x] <+: script ad gift := by
  cases h with
  | step2 => exact ⟨_, rfl⟩
  | step3 => exact ⟨_, rfl⟩
  | step4 => exact ⟨_, rfl⟩
  | step7 => exact ⟨_, rfl⟩
  | step8 => exact ⟨_, rfl⟩
  | step9 => exact ⟨[], rfl⟩

/-- What the server has told by then: the advertisement's id is the object of step 3, and
the gift was open to us in some snapshot. -/
structure Due.Learned (S : List WorldView) (done : List (ScenarioStep × CommandOutcome))
    (x : ScenarioStep) (ad gift : String) : Prop where
  placed : Placed ad gift (done.map Prod.fst) x
  accepted : ∀ p ∈ done, p.2.ok = true ∧ p.2.requestId = p.1.requestId
  advertisement : ∀ o, (ScenarioStep.step3, o) ∈ done → o.objectId = some ad
  gift : 3 ≤ done.length → ∃ w ∈ S, ∃ o ∈ w.openOffersToMe, o.isGift = true ∧ o.offerId = gift

theorem Due.learned {S : List WorldView} {done : List (ScenarioStep × CommandOutcome)}
    {x : ScenarioStep} (h : Due S done x) : ∃ ad gift, Due.Learned S done x ad gift := by
  induction h with
  | first => exact ⟨"", "", .step2, by simp, by simp, by simp⟩
  | @next done x y o wait w hdue hok hid hwait hw hleads ih =>
      obtain ⟨ad, gift, hplaced, haccepted, had, hgift⟩ := ih
      have haccepted' : ∀ p ∈ done ++ [(x, o)], p.2.ok = true ∧ p.2.requestId = p.1.requestId := by
        intro p hp
        rw [List.mem_append, List.mem_singleton] at hp
        rcases hp with hp | rfl
        · exact haccepted p hp
        · exact ⟨hok, hid⟩
      have hmap : (done ++ [(x, o)]).map Prod.fst = done.map Prod.fst ++ [x] := by simp
      have hlength : (done.map Prod.fst).length = done.length := List.length_map _
      have had' : x ≠ .step3 → ∀ o', (ScenarioStep.step3, o') ∈ done ++ [(x, o)] →
          o'.objectId = some ad := by
        intro hx o' ho'
        rw [List.mem_append, List.mem_singleton] at ho'
        rcases ho' with ho' | hlast
        · exact had o' ho'
        · exact absurd (congrArg Prod.fst hlast).symm hx
      generalize hbefore : done.map Prod.fst = before at hplaced hmap hlength
      cases hleads with
      | step3 =>
          cases hwait
          cases hplaced
          refine ⟨ad, gift, ⟨?_, haccepted', had' (by simp), ?_⟩⟩
          · rw [hmap]
            exact .step3
          · intro hlong
            simp only [List.length_append, List.length_singleton, List.length_nil] at hlong hlength
            omega
      | @step4 ad' =>
          cases hwait with
          | step3 hobject =>
              cases hplaced
              refine ⟨ad', gift, ⟨?_, haccepted', ?_, ?_⟩⟩
              · rw [hmap]
                exact .step4
              · intro o' ho'
                rw [List.mem_append, List.mem_singleton] at ho'
                rcases ho' with ho' | hlast
                · have hmem : ScenarioStep.step3 ∈ done.map Prod.fst :=
                    List.mem_map_of_mem ho'
                  rw [hbefore] at hmem
                  simp at hmem
                · cases hlast
                  exact hobject
              · intro hlong
                simp only [List.length_append, List.length_cons, List.length_nil] at hlong hlength
                omega
      | @step7 ad' offerId o' hmem hopen =>
          cases hwait with
          | step4 hobject =>
              cases hplaced
              refine ⟨ad, o'.offerId, ⟨?_, haccepted', had' (by simp), ?_⟩⟩
              · rw [hmap]
                exact .step7
              · intro _
                exact ⟨w, hw, o', hmem, hopen, rfl⟩
      | step8 =>
          cases hwait
          cases hplaced
          refine ⟨ad, gift, ⟨?_, haccepted', had' (by simp), ?_⟩⟩
          · rw [hmap]
            exact .step8
          · intro _
            apply hgift
            simp only [List.length_cons, List.length_nil] at hlength
            omega
      | step9 =>
          cases hwait
          cases hplaced
          refine ⟨ad, gift, ⟨?_, haccepted', had' (by simp), ?_⟩⟩
          · rw [hmap]
            exact .step9
          · intro _
            apply hgift
            simp only [List.length_cons, List.length_nil] at hlength
            omega

/-! ### The call of a step -/

namespace Session

variable {s t : Session} {e : SessionEvent} {c : CallId} {task : Call}

theorem not_begins_of_outside (h : e.isOutside = true) (c' : CallId) (id : String)
    (m : ClientMessage) : e ≠ .begins c' id m := by
  rintro rfl
  cases h

theorem not_begins_of_own (h : e.isOwn c) (c' : CallId) (id : String)
    (m : ClientMessage) : e ≠ .begins c' id m := by
  rintro rfl
  cases h

/-- From `s` to `t` the calls are where they were. -/
def KeepsStages (s t : Session) : Prop :=
  ∀ c task, s.calls c = some task →
    ∃ task', t.calls c = some task' ∧ task'.requestId = task.requestId ∧ task'.stage = task.stage

theorem KeepsStages.refl (s : Session) : KeepsStages s s := fun _ task hcall =>
  ⟨task, hcall, rfl, rfl⟩

theorem KeepsStages.trans {u : Session} (h : KeepsStages s t) (h' : KeepsStages t u) :
    KeepsStages s u := by
  intro c task hcall
  obtain ⟨task', hcall', hid, hstage⟩ := h c task hcall
  obtain ⟨task'', hcall'', hid', hstage'⟩ := h' c task' hcall'
  exact ⟨task'', hcall'', hid'.trans hid, hstage'.trans hstage⟩

theorem keepsStages_settle (s : Session) (id : String) (f : Future) :
    KeepsStages s (s.settle id f) := by
  intro c task hcall
  refine ⟨_, by rw [settle_calls, hcall, Option.map_some], ?_⟩
  split_ifs
  · exact ⟨Call.settle_requestId _ _, Call.settle_stage _ _⟩
  · exact ⟨rfl, rfl⟩

theorem keepsStages_endPump (s : Session) (e : SessionError) : KeepsStages s (s.endPump e) := by
  intro c task hcall
  refine ⟨_, by rw [endPump_calls, hcall, Option.map_some], ?_⟩
  split_ifs
  · exact ⟨Call.settle_requestId _ _, Call.settle_stage _ _⟩
  · exact ⟨rfl, rfl⟩

theorem keepsStages_receive (s : Session) (m : ServerMessage) : KeepsStages s (s.receive m) := by
  rcases m with state | wire | error | _ | _
  · simp only [receive]
    split
    · exact keepsStages_endPump s _
    · split
      · exact .refl s
      · split
        · exact keepsStages_endPump s _
        · exact .refl s
  · exact keepsStages_settle s _ _
  · simp only [receive]
    have hreject : KeepsStages s (if error.requestId.null then s
        else s.reject error.requestId.value
          (.protocolErrorReceived error.code error.closeSession)) := by
      split_ifs
      · exact .refl s
      · exact keepsStages_settle s _ _
    split
    · exact hreject.trans (keepsStages_endPump _ _)
    · exact hreject
  · exact .refl s
  · exact .refl s

/-- From outside, a closed call is left alone and an open one stays open or not refused. -/
theorem outside_call (houtside : e.isOutside = true) (hs : s.step e = some t)
    (hcall : s.calls c = some task) :
    ∃ task', t.calls c = some task' ∧ task'.requestId = task.requestId ∧
      (task'.stage = task.stage ∨ task.stage = .sending ∧ task'.stage = .awaiting) := by
  cases step_cases hs with
  | arrives hrunning m =>
      obtain ⟨task', hcall', hid, hstage⟩ := keepsStages_receive s m c task hcall
      exact ⟨task', hcall', hid, .inl hstage⟩
  | ends hrunning cause =>
      obtain ⟨task', hcall', hid, hstage⟩ := keepsStages_endPump s _ c task hcall
      exact ⟨task', hcall', hid, .inl hstage⟩
  | @sends c' call hcall' hsending hwanted =>
      by_cases hc : c = c'
      · subst hc
        rw [hcall] at hcall'
        cases hcall'
        exact ⟨_, Function.update_self _ _ _, rfl, .inr ⟨hsending, rfl⟩⟩
      · exact ⟨task, (Function.update_of_ne hc _ _).trans hcall, rfl, .inl rfl⟩
  | _ => cases houtside

/-- Only an open call takes a step of its own. -/
theorem own_call (hown : e.isOwn c) (hs : s.step e = some t) (hcall : s.calls c = some task) :
    task.stage.isOpen = true ∧ ∃ task', t.calls c = some task' ∧
      task'.requestId = task.requestId ∧ ∀ error, task'.stage ≠ .refused error := by
  have hopen : ∀ call : Call, call.stage.isOpen = true → ∀ error, call.stage ≠ .refused error := by
    intro call hopen error hrefused
    rw [hrefused] at hopen
    cases hopen
  cases step_cases hs with
  | sendFails hcall' hsending error =>
      obtain rfl : _ = c := hown
      rw [hcall] at hcall'
      cases hcall'
      refine ⟨by rw [hsending]; rfl, _, Function.update_self _ _ _, rfl, ?_⟩
      simp
  | cancels hcall' hcallopen =>
      obtain rfl : _ = c := hown
      rw [hcall] at hcall'
      cases hcall'
      exact ⟨hcallopen, _, Function.update_self _ _ _, rfl, hopen task hcallopen⟩
  | @resumes _ _ stage hcall' hexit =>
      obtain rfl : _ = c := hown
      rw [hcall] at hcall'
      cases hcall'
      have hcases := exit_cases hexit
      refine ⟨?_, _, Function.update_self _ _ _, rfl, ?_⟩
      · cases hcases with
        | cancelled hcallopen _ => exact hcallopen
        | result hcallopen _ => exact hcallopen
        | exception hcallopen _ => exact hcallopen
      · intro error hrefused
        dsimp only at hrefused
        subst hrefused
        cases hcases
  | _ => cases hown

/-- What begins is sent, or the call was refused; with the pump's own error, if it is one of
the protocol. -/
theorem begin_result (s : Session) (c : CallId) (id : String) (m : ClientMessage) :
    ∃ task, (s.begin c id m).calls c = some task ∧ task.requestId = id ∧
      ((∃ error, task.stage = .refused error ∧ (s.begin c id m).sent = s.sent ∧
          ∀ code closeSession, error = .protocolErrorReceived code closeSession →
            (s.begin c id m).pumpError = some error) ∨
        (∀ error, task.stage ≠ .refused error) ∧ (s.begin c id m).sent = s.sent ++ [m]) := by
  unfold begin
  dsimp only
  split
  · rename_i error herror
    exact ⟨_, Function.update_self _ _ _, rfl, .inl ⟨error, rfl, rfl, fun _ _ _ => herror⟩⟩
  · split_ifs
    · exact ⟨_, Function.update_self _ _ _, rfl, .inl ⟨_, rfl, rfl, nofun⟩⟩
    · split
      · exact ⟨_, Function.update_self _ _ _, rfl, .inl ⟨_, rfl, rfl, nofun⟩⟩
      · exact ⟨_, Function.update_self _ _ _, rfl, .inr ⟨nofun, rfl⟩⟩

/-- The pump's error is kept, and with it the world. -/
theorem ended_step {error : SessionError} (herror : s.pumpError = some error)
    (hs : s.step e = some t) : t.pumpError = some error ∧ t.world = s.world := by
  cases step_cases hs with
  | arrives hrunning m =>
      rw [herror] at hrunning
      cases hrunning
  | ends hrunning cause =>
      rw [herror] at hrunning
      cases hrunning
  | @begins c hnew id m => exact ⟨(begin_pumpError s c id m).trans herror, begin_world s id c m⟩
  | _ => exact ⟨herror, rfl⟩

/-- Every outcome in the session was delivered: `A` are the results that arrived. -/
def Heard (A : Wire.Result → Prop) (s : Session) : Prop :=
  ∀ c task o, s.calls c = some task → task.future = .result o ∨ task.stage = .returned o →
    ∃ wire, A wire ∧ CommandOutcome.fromWire wire = o

namespace Heard

variable {A : Wire.Result → Prop}

theorem settle (h : s.Heard A) {f : Future}
    (hf : ∀ o, f = .result o → ∃ wire, A wire ∧ CommandOutcome.fromWire wire = o) (id : String) :
    (s.settle id f).Heard A := by
  intro c task o hcall hdone
  rw [settle_calls, Option.map_eq_some_iff] at hcall
  obtain ⟨task', hbefore, rfl⟩ := hcall
  split_ifs at hdone
  · by_cases hwaiting : task'.future = .waiting
    · rw [Call.settle_of_waiting hwaiting, Call.settle_stage] at hdone
      rcases hdone with hfuture | hreturned
      · exact hf o hfuture
      · exact h c task' o hbefore (.inr hreturned)
    · rw [Call.settle_of_done hwaiting] at hdone
      exact h c task' o hbefore hdone
  · exact h c task' o hbefore hdone

theorem endPump (h : s.Heard A) (e : SessionError) : (s.endPump e).Heard A := by
  intro c task o hcall hdone
  rw [endPump_calls, Option.map_eq_some_iff] at hcall
  obtain ⟨task', hbefore, rfl⟩ := hcall
  split_ifs at hdone
  · by_cases hwaiting : task'.future = .waiting
    · rw [Call.settle_of_waiting hwaiting, Call.settle_stage] at hdone
      rcases hdone with hfuture | hreturned
      · cases hfuture
      · exact h c task' o hbefore (.inr hreturned)
    · rw [Call.settle_of_done hwaiting] at hdone
      exact h c task' o hbefore hdone
  · exact h c task' o hbefore hdone

theorem receive (h : s.Heard A) {m : ServerMessage} (hm : ∀ wire, m = .result wire → A wire) :
    (s.receive m).Heard A := by
  rcases m with state | wire | error | _ | _
  · simp only [Session.receive]
    split
    · exact h.endPump _
    · split
      · exact h
      · split
        · exact h.endPump _
        · exact h
  · refine h.settle ?_ _
    intro o ho
    cases ho
    exact ⟨wire, hm wire rfl, rfl⟩
  · have hreject : (if error.requestId.null then s
        else s.reject error.requestId.value
          (.protocolErrorReceived error.code error.closeSession)).Heard A := by
      split_ifs
      · exact h
      · exact h.settle (by simp) _
    simp only [Session.receive]
    split
    · exact hreject.endPump _
    · exact hreject
  · exact h
  · exact h

/-- A call changes, and with no new outcome. -/
theorem update (h : s.Heard A) {call call' : Call} (hcall : s.calls c = some call)
    (hcalls : t.calls = Function.update s.calls c (some call'))
    (hdone : ∀ o, call'.future = .result o ∨ call'.stage = .returned o →
      call.future = .result o ∨ call.stage = .returned o) : t.Heard A := by
  intro c' task o htask houtcome
  rw [hcalls] at htask
  by_cases hc : c' = c
  · subst hc
    rw [Function.update_self] at htask
    cases htask
    exact h c' call o hcall (hdone o houtcome)
  · rw [Function.update_of_ne hc] at htask
    exact h c' task o htask houtcome

theorem begin (h : s.Heard A) (c : CallId) (id : String) (m : ClientMessage) :
    (s.begin c id m).Heard A := by
  have hadd : ∀ (stage : Stage) (t : Session), (∀ o, stage ≠ .returned o) →
      t.calls = Function.update s.calls c (some { requestId := id, message := m, stage }) →
      t.Heard A := by
    intro stage t hstage hcalls c' task o htask houtcome
    rw [hcalls] at htask
    by_cases hc : c' = c
    · subst hc
      rw [Function.update_self] at htask
      cases htask
      rcases houtcome with hfuture | hreturned
      · cases hfuture
      · exact absurd hreturned (hstage o)
    · rw [Function.update_of_ne hc] at htask
      exact h c' task o htask houtcome
  unfold Session.begin
  dsimp only
  split
  · exact hadd _ _ (by simp) rfl
  · split_ifs
    · exact hadd _ _ (by simp) rfl
    · split
      · exact hadd _ _ (by simp) rfl
      · exact hadd _ _ (by simp) rfl

theorem step (h : s.Heard A) (hm : ∀ wire, e = .arrives (.result wire) → A wire)
    (hs : s.step e = some t) : t.Heard A := by
  cases step_cases hs with
  | arrives hrunning m =>
      apply h.receive
      rintro wire rfl
      exact hm wire rfl
  | ends hrunning cause => exact h.endPump _
  | begins hnew id m => exact h.begin _ _ _
  | sends hcall hsending hwanted =>
      apply h.update hcall rfl
      rintro o (hfuture | hreturned)
      · exact .inl hfuture
      · cases hreturned
  | sendFails hcall hsending error =>
      apply h.update hcall rfl
      rintro o (hfuture | hreturned)
      · exact .inl hfuture
      · cases hreturned
  | cancels hcall hopen =>
      apply h.update hcall rfl
      rintro o (hfuture | hreturned)
      · simp only [cancelCall] at hfuture
        split_ifs at hfuture
        exact .inl hfuture
      · exact .inr hreturned
  | resumes hcall hexit =>
      apply h.update hcall rfl
      rintro o (hfuture | hreturned)
      · exact .inl hfuture
      · dsimp only at hreturned
        subst hreturned
        cases exit_cases hexit with
        | result hopen hfuture => exact .inl hfuture

end Heard

end Session

namespace Scenario

/-! ### Where the script is -/

section Standing

variable (S : List WorldView) (s : Scenario)

def messages (steps : List ScenarioStep) : List ClientMessage :=
  steps.map (ScenarioStep.message s.runId)

/-- `x` is the last step asked, and `done` what was accepted before. -/
def Reached (done : List (ScenarioStep × CommandOutcome)) (x : ScenarioStep) : Prop :=
  Due S done x ∧ s.asked = done.map Prod.fst ++ [x]

/-- In `session.send` of step `x`. A call that was refused has not been sent. -/
def Sending (x : ScenarioStep) (c : CallId) : Prop :=
  ∃ done task, s.Reached S done x ∧ s.results = done.map Prod.snd ∧
    s.session.calls c = some task ∧ task.requestId = x.requestId ∧
    ((∃ error, task.stage = .refused error ∧ s.session.sent = s.messages (done.map Prod.fst) ∧
        ∀ code closeSession, error = .protocolErrorReceived code closeSession →
          s.session.pumpError = some error) ∨
      (∀ error, task.stage ≠ .refused error) ∧ s.session.sent = s.messages s.asked)

/-- The last step was accepted. -/
def Waiting (wait : ScenarioWait) : Prop :=
  ∃ done x o, s.Reached S done x ∧ o.ok = true ∧ o.requestId = x.requestId ∧ x.Awaits o wait ∧
    s.results = done.map Prod.snd ++ [o] ∧ s.session.sent = s.messages s.asked

/-- Step 9 has failed as it should, and the `sync` is out. -/
def Synchronizing : Prop :=
  ∃ done c task closeSession, s.Reached S done .step9 ∧ s.results = done.map Prod.snd ∧
    s.session.sent = s.messages s.asked ++ [.sync s.runId] ∧ s.session.calls c = some task ∧
    task.requestId = ScenarioStep.step9.requestId ∧
    task.stage = .raised (.protocolErrorReceived .REQUEST_CAPACITY_EXCEEDED closeSession)

/-- Step 9 was refused because the pump had ended with the error that the step expects.
No newer snapshot can come. -/
def Stuck (previousSequence : Nat) : Prop :=
  ∃ done error, s.Reached S done .step9 ∧ s.results = done.map Prod.snd ∧
    s.session.sent = s.messages (done.map Prod.fst) ++ [.sync s.runId] ∧
    s.session.pumpError = some error ∧ s.session.world.snapshotSequence ≤ previousSequence

/-- What is left of a scenario that has raised. -/
def Begun : Prop :=
  (s.asked = [] ∧ s.session.sent = []) ∨
    ∃ done x, s.Reached S done x ∧ done.map Prod.snd <+: s.results ∧
      (s.session.sent = s.messages s.asked ∨ s.session.sent = s.messages (done.map Prod.fst) ∨
        x = .step9 ∧ (s.session.sent = s.messages s.asked ++ [.sync s.runId] ∨
          s.session.sent = s.messages (done.map Prod.fst) ++ [.sync s.runId]))

def Stands : ScenarioPc → Prop
  | .ready => s.asked = [] ∧ s.results = [] ∧ s.session.sent = []
  | .sending x c => s.Sending S x c
  | .waiting wait => s.Waiting S wait ∨
      ∃ previous, wait = .synced previous ∧ (s.Synchronizing S ∨ s.Stuck S previous)
  | .seen wait => s.Waiting S wait ∨ ∃ previous, wait = .synced previous ∧ s.Synchronizing S
  | .syncing previous => s.Synchronizing S ∨ s.Stuck S previous
  | .returned _ => s.Synchronizing S
  | .raised _ => s.Begun S

/-- The invariant of all runs. -/
structure Follows (w₀ : WorldView) : Prop where
  seen : s.session.world ∈ S
  sameRun : s.session.world.runId = w₀.runId
  runId : s.runId = w₀.runId
  tagged : s.session.Tagged
  stands : s.Stands S s.pc

end Standing

section Invariant

variable {S : List WorldView} {w₀ : WorldView} {s t : Scenario} {e : ScenarioEvent}
  {session : Session} {e' : SessionEvent} {x : ScenarioStep} {c : CallId} {wait : ScenarioWait}
  {trace : List ScenarioEvent}

theorem Waiting.begun (h : s.Waiting S wait) : s.Begun S := by
  obtain ⟨done, x, o, hreached, -, -, -, hresults, hsent⟩ := h
  refine .inr ⟨done, x, hreached, ?_, .inl hsent⟩
  rw [hresults]
  exact List.prefix_append _ _

theorem Synchronizing.begun (h : s.Synchronizing S) : s.Begun S := by
  obtain ⟨done, -, -, -, hreached, hresults, hsent, -⟩ := h
  exact .inr ⟨done, .step9, hreached, by rw [hresults], .inr (.inr ⟨rfl, .inl hsent⟩)⟩

theorem Stuck.begun {previous : Nat} (h : s.Stuck S previous) : s.Begun S := by
  obtain ⟨done, -, hreached, hresults, hsent, -⟩ := h
  exact .inr ⟨done, .step9, hreached, by rw [hresults], .inr (.inr ⟨rfl, .inr hsent⟩)⟩

theorem Sending.begun (h : s.Sending S x c) : s.Begun S := by
  obtain ⟨done, task, hreached, hresults, -, -, hsent⟩ := h
  refine .inr ⟨done, x, hreached, by rw [hresults], ?_⟩
  rcases hsent with ⟨-, -, hsent, -⟩ | ⟨-, hsent⟩
  · exact .inr (.inl hsent)
  · exact .inl hsent

/-- Wherever the script is, it has kept to its order. -/
theorem Stands.begun {pc : ScenarioPc} (h : s.Stands S pc) : s.Begun S := by
  cases pc with
  | ready => exact .inl ⟨h.1, h.2.2⟩
  | sending x c => exact Sending.begun h
  | waiting wait =>
      rcases h with h | ⟨previous, -, h | h⟩
      · exact h.begun
      · exact h.begun
      · exact h.begun
  | seen wait =>
      rcases h with h | ⟨previous, -, h⟩
      · exact h.begun
      · exact h.begun
  | syncing previous =>
      rcases h with h | h
      · exact h.begun
      · exact h.begun
  | returned world => exact Synchronizing.begun h
  | raised error => exact h

/-! ### The session moves -/

/-- What a session step from outside leaves of everything the invariant says. -/
theorem Stands.outside {pc : ScenarioPc} (h : s.Stands S pc)
    (houtside : e'.isOutside = true) (hs : s.session.step e' = some session) :
    { s with session }.Stands S pc := by
  have hsent : session.sent = s.session.sent :=
    Session.step_sent hs (Session.not_begins_of_outside houtside)
  have hwaiting : ∀ wait, s.Waiting S wait → { s with session }.Waiting S wait := by
    rintro wait ⟨done, x, o, hreached, hok, hid, hwait, hresults, hsame⟩
    exact ⟨done, x, o, hreached, hok, hid, hwait, hresults, hsent.trans hsame⟩
  have hsynchronizing : s.Synchronizing S → { s with session }.Synchronizing S := by
    rintro ⟨done, c, task, closeSession, hreached, hresults, hsame, hcall, hid, hstage⟩
    obtain ⟨task', hcall', hid', hcases⟩ := Session.outside_call houtside hs hcall
    refine ⟨done, c, task', closeSession, hreached, hresults, hsent.trans hsame, hcall',
      hid'.trans hid, ?_⟩
    rcases hcases with hkept | ⟨hsending, -⟩
    · exact hkept.trans hstage
    · rw [hstage] at hsending
      cases hsending
  have hstuck : ∀ previous, s.Stuck S previous → { s with session }.Stuck S previous := by
    rintro previous ⟨done, error, hreached, hresults, hsame, herror, hold⟩
    obtain ⟨herror', hworld⟩ := Session.ended_step herror hs
    exact ⟨done, error, hreached, hresults, hsent.trans hsame, herror', by rwa [hworld]⟩
  cases pc with
  | ready => exact ⟨h.1, h.2.1, hsent.trans h.2.2⟩
  | sending x c =>
      obtain ⟨done, task, hreached, hresults, hcall, hid, hcases⟩ := h
      obtain ⟨task', hcall', hid', hstage⟩ := Session.outside_call houtside hs hcall
      refine ⟨done, task', hreached, hresults, hcall', hid'.trans hid, ?_⟩
      rcases hcases with ⟨error, hrefused, hsame, hprotocol⟩ | ⟨hopen, hsame⟩
      · refine .inl ⟨error, ?_, hsent.trans hsame, ?_⟩
        · rcases hstage with hkept | ⟨hsending, -⟩
          · exact hkept.trans hrefused
          · rw [hrefused] at hsending
            cases hsending
        · intro code closeSession herror
          exact (Session.ended_step (hprotocol code closeSession herror) hs).1
      · refine .inr ⟨?_, hsent.trans hsame⟩
        intro error hrefused
        rcases hstage with hkept | ⟨-, hawaiting⟩
        · exact hopen error (hkept.symm.trans hrefused)
        · rw [hrefused] at hawaiting
          cases hawaiting
  | waiting wait =>
      rcases h with h | ⟨previous, hwait, h | h⟩
      · exact .inl (hwaiting wait h)
      · exact .inr ⟨previous, hwait, .inl (hsynchronizing h)⟩
      · exact .inr ⟨previous, hwait, .inr (hstuck previous h)⟩
  | seen wait =>
      rcases h with h | ⟨previous, hwait, h⟩
      · exact .inl (hwaiting wait h)
      · exact .inr ⟨previous, hwait, hsynchronizing h⟩
  | syncing previous =>
      rcases h with h | h
      · exact .inl (hsynchronizing h)
      · exact .inr (hstuck previous h)
  | returned world => exact hsynchronizing h
  | raised error =>
      rcases h with ⟨hasked, hnone⟩ | ⟨done, x, hreached, hprefix, hcases⟩
      · exact .inl ⟨hasked, hsent.trans hnone⟩
      · refine .inr ⟨done, x, hreached, hprefix, ?_⟩
        rcases hcases with hsame | hsame | ⟨hx, hsame | hsame⟩
        · exact .inl (hsent.trans hsame)
        · exact .inr (.inl (hsent.trans hsame))
        · exact .inr (.inr ⟨hx, .inl (hsent.trans hsame)⟩)
        · exact .inr (.inr ⟨hx, .inr (hsent.trans hsame)⟩)

theorem Sending.own (h : s.Sending S x c) (hs : s.session.step e' = some session)
    (hown : e'.isOwn c) : { s with session }.Sending S x c := by
  obtain ⟨done, task, hreached, hresults, hcall, hid, hcases⟩ := h
  obtain ⟨hopen, task', hcall', hid', hnot⟩ := Session.own_call hown hs hcall
  have hsent : session.sent = s.session.sent :=
    Session.step_sent hs (Session.not_begins_of_own hown)
  refine ⟨done, task', hreached, hresults, hcall', hid'.trans hid, ?_⟩
  rcases hcases with ⟨error, hrefused, -⟩ | ⟨-, hsame⟩
  · rw [hrefused] at hopen
    cases hopen
  · exact .inr ⟨hnot, hsent.trans hsame⟩

/-! ### The script moves -/

theorem messages_append (s : Scenario) (steps : List ScenarioStep) (x : ScenarioStep) :
    s.messages (steps ++ [x]) = s.messages steps ++ [x.message s.runId] := by
  simp [messages]

/-- A step is asked: the first, or one that its wait leads to. -/
theorem Sending.ask {done : List (ScenarioStep × CommandOutcome)} (hdue : Due S done x)
    (hasked : s.asked = done.map Prod.fst) (hresults : s.results = done.map Prod.snd)
    (hsent : s.session.sent = s.messages s.asked) : (s.ask x c).Sending S x c := by
  obtain ⟨task, hcall, hid, hcases⟩ :=
    Session.begin_result s.session c x.requestId (x.message s.runId)
  have hasked' : (s.ask x c).asked = done.map Prod.fst ++ [x] := by rw [← hasked]; rfl
  refine ⟨done, task, ⟨hdue, hasked'⟩, hresults, hcall, hid, ?_⟩
  rcases hcases with ⟨error, hrefused, hsame, hprotocol⟩ | ⟨hopen, hmore⟩
  · refine .inl ⟨error, hrefused, ?_, hprotocol⟩
    rw [← hasked]
    exact hsame.trans hsent
  · refine .inr ⟨hopen, ?_⟩
    calc (s.ask x c).session.sent = s.session.sent ++ [x.message s.runId] := hmore
      _ = s.messages s.asked ++ [x.message s.runId] := by rw [hsent]
      _ = s.messages (s.asked ++ [x]) := (messages_append s _ _).symm

/-- After a wait, the step before it counts as done. -/
theorem Waiting.ask (h : s.Waiting S wait) (hseen : s.session.world ∈ S)
    (hleads : wait.Leads s.session.world x) : (s.ask x c).Sending S x c := by
  obtain ⟨done, y, o, ⟨hdue, hasked⟩, hok, hid, hwait, hresults, hsent⟩ := h
  refine Sending.ask (.next hdue hok hid hwait hseen hleads) ?_ ?_ hsent
  · simpa using hasked
  · simpa using hresults

theorem Sending.accept {task : Call} {o : CommandOutcome} (h : s.Sending S x c)
    (htagged : s.session.Tagged) (hcall : s.session.calls c = some task)
    (hstage : task.stage = .returned o) (hok : o.ok = true) (hwait : x.Awaits o wait) :
    Waiting S { s.note x o with pc := .waiting wait } wait := by
  obtain ⟨done, task', hreached, hresults, hcall', hid, hcases⟩ := h
  rw [hcall] at hcall'
  cases hcall'
  refine ⟨done, x, o, hreached, hok, ?_, hwait, ?_, ?_⟩
  · rw [← hid]
    exact htagged.outcome c task o hcall (.inr hstage)
  · change s.results ++ [o] = done.map Prod.snd ++ [o]
    rw [hresults]
  · rcases hcases with ⟨error, hrefused, -⟩ | ⟨-, hsent⟩
    · rw [hstage] at hrefused
      cases hrefused
    · exact hsent

/-- More results do not matter to a scenario that raises. -/
theorem Sending.reject (h : s.Sending S x c) (o : CommandOutcome) (error : ScenarioError) :
    Begun S ((s.note x o).raise error) := by
  obtain ⟨done, task, hreached, hresults, -, -, hcases⟩ := h
  refine .inr ⟨done, x, hreached, ?_, ?_⟩
  · change done.map Prod.snd <+: s.results ++ [o]
    rw [hresults]
    exact List.prefix_append _ _
  · rcases hcases with ⟨-, -, hsent, -⟩ | ⟨-, hsent⟩
    · exact .inr (.inl hsent)
    · exact .inl hsent

theorem Sending.sync {task : Call} (h : s.Sending S .step9 c)
    (hrun : s.session.world.runId = s.runId) (hcall : s.session.calls c = some task)
    (hfull : task.ExceedsCapacity) :
    s.sync.Synchronizing S ∨ s.sync.Stuck S s.session.world.snapshotSequence := by
  obtain ⟨done, task', hreached, hresults, hcall', hid, hcases⟩ := h
  rw [hcall] at hcall'
  cases hcall'
  have hsync : ∀ messages, s.session.sent = messages →
      s.sync.session.sent = messages ++ [.sync s.runId] := by
    rintro messages rfl
    rw [← hrun]
    rfl
  obtain ⟨closeSession, hstage⟩ := hfull
  rcases hcases with ⟨error, hrefused, hsent, hprotocol⟩ | ⟨hnot, hsent⟩
  · right
    have herror : error = .protocolErrorReceived .REQUEST_CAPACITY_EXCEEDED closeSession := by
      rcases hstage with hraised | hstage
      · rw [hrefused] at hraised
        cases hraised
      · rw [hrefused] at hstage
        cases hstage
        rfl
    exact ⟨done, error, hreached, hresults, hsync _ hsent, hprotocol _ _ herror, le_rfl⟩
  · left
    rcases hstage with hraised | hrefused
    · exact ⟨done, c, task, closeSession, hreached, hresults, hsync _ hsent, hcall, hid, hraised⟩
    · exact absurd hrefused (hnot _)

theorem Follows.ask (h : s.Follows S w₀) (hnew : s.session.calls c = none)
    (hsending : (s.ask x c).Sending S x c) : (s.ask x c).Follows S w₀ := by
  have hworld : (s.ask x c).session.world = s.session.world := Session.begin_world _ _ _ _
  exact ⟨by rw [hworld]; exact h.seen, by rw [hworld]; exact h.sameRun, h.runId,
    h.tagged.begin hnew _ _, hsending⟩

theorem Follows.effect (h : s.Follows S w₀) (hseen : ∀ w, e.snapshot? = some w → w ∈ S)
    (heff : Effect e s t) : t.Follows S w₀ := by
  have hstands := h.stands
  cases heff with
  | @session e' session hevent houtside hs =>
      have hstands' := hstands.outside houtside hs
      rcases Session.step_world hs with hworld | ⟨hdelivered, -, hrun⟩
      · exact ⟨by rw [hworld]; exact h.seen, by rw [hworld]; exact h.sameRun, h.runId,
          h.tagged.step hs, hstands'⟩
      · refine ⟨hseen _ ?_, hrun.trans h.sameRun, h.runId, h.tagged.step hs, hstands'⟩
        rw [hevent]
        exact hdelivered
  | @task x c e' session hpc hs hown =>
      have hworld : session.world = s.session.world := by
        cases Session.step_cases hs with
        | arrives => cases hown
        | begins => cases hown
        | _ => rfl
      rw [hpc] at hstands
      refine ⟨by rw [hworld]; exact h.seen, by rw [hworld]; exact h.sameRun, h.runId,
        h.tagged.step hs, ?_⟩
      dsimp only
      rw [hpc]
      exact Sending.own hstands hs hown
  | @start c hpc hnew =>
      rw [hpc] at hstands
      obtain ⟨hasked, hresults, hsent⟩ := hstands
      have hlogged : Follows S
          { s with log := s.log.runStarted s.session.world "validation" } w₀ :=
        ⟨h.seen, h.sameRun, h.runId, h.tagged, h.stands⟩
      refine hlogged.ask hnew (Sending.ask .first hasked hresults ?_)
      calc s.session.sent = [] := hsent
        _ = s.messages [] := rfl
        _ = s.messages s.asked := by rw [hasked]
  | snapshot hopen => exact ⟨h.seen, h.sameRun, h.runId, h.tagged, hstands⟩
  | @ask x c wait hpc hleads hnew =>
      rw [hpc] at hstands
      rcases hstands with hstands | ⟨previous, rfl, -⟩
      · exact h.ask hnew (hstands.ask h.seen hleads)
      · cases hleads
  | accept hpc hcall hstage hok hwait =>
      rw [hpc] at hstands
      exact ⟨h.seen, h.sameRun, h.runId, h.tagged,
        .inl (Sending.accept hstands h.tagged hcall hstage hok hwait)⟩
  | @reject x c task o hpc hcall hstage hx text =>
      rw [hpc] at hstands
      exact ⟨h.seen, h.sameRun, h.runId, h.tagged, Sending.reject hstands o _⟩
  | sync hpc hcall hfull =>
      rw [hpc] at hstands
      have hrun : s.session.world.runId = s.runId := h.sameRun.trans h.runId.symm
      refine ⟨h.seen, h.sameRun, h.runId, ⟨h.tagged.listed, h.tagged.outcome⟩, ?_⟩
      exact Sending.sync hstands hrun hcall hfull
  | raise hopen error hnoted => exact ⟨h.seen, h.sameRun, h.runId, h.tagged, hstands.begun⟩
  | @sees wait hpc hholds =>
      rw [hpc] at hstands
      refine ⟨h.seen, h.sameRun, h.runId, h.tagged, ?_⟩
      rcases hstands with hstands | ⟨previous, hwait, hstands | hstands⟩
      · exact .inl hstands
      · exact .inr ⟨previous, hwait, hstands⟩
      · -- The pump has ended, and the wait is for a newer snapshot.
        obtain ⟨-, -, -, -, -, -, hold⟩ := hstands
        rw [hwait, ScenarioWait.predicate, decide_eq_true_eq] at hholds
        omega
  | @synced previous hpc =>
      rw [hpc] at hstands
      exact ⟨h.seen, h.sameRun, h.runId, h.tagged, .inr ⟨previous, rfl, hstands⟩⟩
  | finish hpc =>
      rw [hpc] at hstands
      refine ⟨h.seen, h.sameRun, h.runId, h.tagged, ?_⟩
      rcases hstands with ⟨done, x, o, -, -, -, hwait, -⟩ | ⟨-, -, hstands⟩
      · cases hwait
      · exact hstands

theorem follows_start (w₀ : WorldView) (S : List WorldView) :
    (start w₀).Follows (w₀ :: S) w₀ := by
  refine ⟨List.mem_cons_self, rfl, rfl, ⟨?_, ?_⟩, rfl, rfl, rfl⟩
  · intro id c hlisted
    cases hlisted
  · intro c call o hcall
    cases hcall

theorem run_follows (hrun : Run Step (start w₀) trace s) :
    s.Follows (w₀ :: snapshots trace) w₀ := by
  apply run_invariant hrun (follows_start w₀ _)
  intro e s t he hs heff
  exact hs.effect (fun w hw => List.mem_cons_of_mem w₀ (mem_snapshots he hw)) heff

/-! ### The outcomes are the server's -/

/-- Every outcome that the script went by was delivered. -/
structure Answered (A : Wire.Result → Prop) (s : Scenario) : Prop where
  heard : s.session.Heard A
  results : ∀ o ∈ s.results, ∃ wire, A wire ∧ CommandOutcome.fromWire wire = o

theorem Answered.effect {A : Wire.Result → Prop} (h : s.Answered A)
    (harrives : ∀ wire, e = .session (.arrives (.result wire)) → A wire) (heff : Effect e s t) :
    t.Answered A := by
  have hnote : ∀ {x c task o}, s.pc = .sending x c → s.session.calls c = some task →
      task.stage = .returned o → ∀ o' ∈ s.results ++ [o],
        ∃ wire, A wire ∧ CommandOutcome.fromWire wire = o' := by
    intro x c task o _ hcall hstage o' ho'
    rw [List.mem_append, List.mem_singleton] at ho'
    rcases ho' with ho' | rfl
    · exact h.results o' ho'
    · exact h.heard c task o' hcall (.inr hstage)
  cases heff with
  | @session e' session hevent houtside hs =>
      refine ⟨h.heard.step ?_ hs, h.results⟩
      rintro wire rfl
      exact harrives wire hevent
  | @task x c e' session hpc hs hown =>
      refine ⟨h.heard.step ?_ hs, h.results⟩
      rintro wire rfl
      cases hown
  | start hpc hnew => exact ⟨h.heard.begin _ _ _, h.results⟩
  | ask hpc hleads hnew => exact ⟨h.heard.begin _ _ _, h.results⟩
  | accept hpc hcall hstage hok hwait => exact ⟨h.heard, hnote hpc hcall hstage⟩
  | reject hpc hcall hstage hx text => exact ⟨h.heard, hnote hpc hcall hstage⟩
  | _ => exact ⟨h.heard, h.results⟩

theorem run_answered (hrun : Run Step (start w₀) trace s) :
    s.Answered fun wire => .session (.arrives (.result wire)) ∈ trace := by
  apply run_invariant hrun
  · refine ⟨?_, by simp [start]⟩
    intro c task o hcall
    cases hcall
  · intro e s t he hs heff
    refine hs.effect ?_ heff
    rintro wire rfl
    exact he

/-! ### The law -/

/-- The messages of the whole exercise. -/
def exercise (runId advertisementId giftId : String) : List ClientMessage :=
  (script advertisementId giftId).map (ScenarioStep.message runId) ++ [.sync runId]

/-- A scenario has kept to the order of the exercise, for these ids. -/
structure KeepsOrder (w₀ : WorldView) (trace : List ScenarioEvent) (ad gift : String)
    (s : Scenario) : Prop where
  sent : s.session.sent.Sublist (exercise w₀.runId ad gift)
  commands : s.session.sent.filter ClientMessage.isCommand <+:
    (script ad gift).map (ScenarioStep.message w₀.runId)
  /-- A command goes out only after the server took the one before. -/
  accepted : ∀ n x, n + 1 < (s.session.sent.filter ClientMessage.isCommand).length →
    (script ad gift)[n]? = some x → ∃ wire, .session (.arrives (.result wire)) ∈ trace ∧
      wire.ok = true ∧ wire.requestId = x.requestId ∧
      (x = .step3 → wire.objectId.toOption = some ad)
  opened : 3 < (s.session.sent.filter ClientMessage.isCommand).length →
    ∃ w ∈ w₀ :: snapshots trace, ∃ o ∈ w.openOffersToMe, o.isGift = true ∧ o.offerId = gift
  /-- It returns only after everything was sent and step 9 has failed as it should. -/
  returned : ∀ w, s.pc = .returned w → s.session.sent = exercise w₀.runId ad gift ∧
    ∃ c task closeSession, s.session.calls c = some task ∧
      task.requestId = ScenarioStep.step9.requestId ∧
      task.stage = .raised (.protocolErrorReceived .REQUEST_CAPACITY_EXCEEDED closeSession)

theorem filter_messages (s : Scenario) (steps : List ScenarioStep) :
    (s.messages steps).filter ClientMessage.isCommand = s.messages steps := by
  rw [List.filter_eq_self]
  intro m hm
  obtain ⟨x, -, rfl⟩ := List.mem_map.mp hm
  cases x <;> rfl

/-- The commands of a scenario that has begun: those asked for, but perhaps the last. -/
theorem Begun.commands (h : s.Begun S) :
    (s.asked = [] ∧ s.session.sent = []) ∨
      ∃ done x, s.Reached S done x ∧ done.map Prod.snd <+: s.results ∧
        (s.session.sent.filter ClientMessage.isCommand = s.messages s.asked ∨
          s.session.sent.filter ClientMessage.isCommand = s.messages (done.map Prod.fst)) ∧
        (s.session.sent = s.session.sent.filter ClientMessage.isCommand ∨
          x = .step9 ∧ s.session.sent =
            s.session.sent.filter ClientMessage.isCommand ++ [.sync s.runId]) := by
  have hsync : ∀ steps, (s.messages steps ++ [ClientMessage.sync s.runId]).filter ClientMessage.isCommand =
      s.messages steps := by
    intro steps
    rw [List.filter_append, filter_messages]
    exact List.append_nil _
  rcases h with hnone | ⟨done, x, hreached, hresults, hsent⟩
  · exact .inl hnone
  · refine .inr ⟨done, x, hreached, hresults, ?_⟩
    rcases hsent with hsent | hsent | ⟨hx, hsent | hsent⟩
    · rw [hsent, filter_messages]
      exact ⟨.inl rfl, .inl rfl⟩
    · rw [hsent, filter_messages]
      exact ⟨.inr rfl, .inl rfl⟩
    · rw [hsent, hsync]
      exact ⟨.inl rfl, .inr ⟨hx, rfl⟩⟩
    · rw [hsent, hsync]
      exact ⟨.inr rfl, .inr ⟨hx, rfl⟩⟩

theorem messages_prefix {steps all : List ScenarioStep} (h : steps <+: all) :
    s.messages steps <+: s.messages all := h.map _

/-- **The exercise is done in its order**, in every run: what is sent is the script's, for
the run of the first snapshot; each command follows the server's consent to the one before,
with the ids that the server gave; and who returns has done everything. -/
theorem keeps_order (hrun : Run Step (start w₀) trace s) :
    ∃ ad gift, KeepsOrder w₀ trace ad gift s := by
  have hfollows := run_follows hrun
  have hanswered := run_answered hrun
  have hreturned : ∀ w, s.pc = .returned w → s.Synchronizing (w₀ :: snapshots trace) := by
    intro w hpc
    have hstands := hfollows.stands
    rwa [hpc] at hstands
  rcases hfollows.stands.begun.commands with ⟨hasked, hsent⟩ | hbegun
  · refine ⟨"", "", ?_, ?_, ?_, ?_, ?_⟩
    · rw [hsent]
      exact List.nil_sublist _
    · rw [hsent]
      exact List.nil_prefix
    · intro n x hn
      rw [hsent] at hn
      simp at hn
    · intro hlong
      rw [hsent] at hlong
      simp at hlong
    · intro w hpc
      obtain ⟨done, -, -, -, ⟨-, hall⟩, -⟩ := hreturned w hpc
      rw [hasked] at hall
      simp at hall
  · obtain ⟨done, x, ⟨hdue, hasked⟩, hresults, hcommands, hsent⟩ := hbegun
    obtain ⟨ad, gift, hplaced, haccepted, had, hgift⟩ := hdue.learned
    have hplace : done.map Prod.fst ++ [x] <+: script ad gift := hplaced.prefix
    have hrunId : s.messages = List.map (ScenarioStep.message w₀.runId) := by
      funext steps
      rw [messages, hfollows.runId]
    have hprefix : s.session.sent.filter ClientMessage.isCommand <+:
        (script ad gift).map (ScenarioStep.message w₀.runId) := by
      rw [← hrunId]
      rcases hcommands with hcommands | hcommands
      · rw [hcommands, hasked]
        exact messages_prefix hplace
      · rw [hcommands]
        exact messages_prefix ((List.prefix_append _ _).trans hplace)
    have hlength : (s.session.sent.filter ClientMessage.isCommand).length ≤ done.length + 1 := by
      rcases hcommands with hcommands | hcommands
      · simp [hcommands, hasked, messages]
      · simp [hcommands, messages]
    refine ⟨ad, gift, ?_, hprefix, ?_, ?_, ?_⟩
    · rcases hsent with hsent | ⟨-, hsent⟩
      · rw [hsent]
        exact hprefix.sublist.trans (List.sublist_append_left _ _)
      · rw [hsent, hfollows.runId]
        exact hprefix.sublist.append (List.Sublist.refl _)
    · intro n y hn hy
      have hdone : n < (done.map Prod.fst).length := by
        rw [List.length_map]
        omega
      obtain ⟨rest, hrest⟩ := hplace
      rw [← hrest, List.append_assoc, List.getElem?_append_left hdone, List.getElem?_map,
        Option.map_eq_some_iff] at hy
      obtain ⟨⟨y', o⟩, hpair, rfl⟩ := hy
      have hmem : (y', o) ∈ done := List.mem_of_getElem? hpair
      obtain ⟨hok, hid⟩ := haccepted _ hmem
      obtain ⟨wire, harrived, rfl⟩ := hanswered.results o
        (hresults.subset (List.mem_map_of_mem hmem))
      refine ⟨wire, harrived, hok, hid, ?_⟩
      rintro rfl
      exact had _ hmem
    · intro hlong
      exact hgift (by omega)
    · intro w hpc
      obtain ⟨done', c, task, closeSession, ⟨-, hall⟩, -, hsynced, hcall, hid, hstage⟩ :=
        hreturned w hpc
      refine ⟨?_, c, task, closeSession, hcall, hid, hstage⟩
      have hx : x = .step9 := by
        rw [hasked] at hall
        simpa using (List.append_inj' hall rfl).2
      subst hx
      have hscript : s.asked = script ad gift := by
        rw [hasked]
        generalize done.map Prod.fst = before at hplaced
        cases hplaced
        rfl
      rw [hsynced, hscript, hrunId, hfollows.runId]
      rfl

theorem keeps_order_sample :
    ∃ s w, Run Step (start sampleWorld) sampleTrace s ∧ s.pc = .returned w ∧
      ∃ ad gift, KeepsOrder sampleWorld sampleTrace ad gift s := by
  obtain ⟨s, w, hrun, hpc, -⟩ := run_sampleTrace
  exact ⟨s, w, hrun, hpc, keeps_order hrun⟩

end Invariant

end Scenario

end PlanetCharlu
