import PlanetCharlu.Snapshots

/-!
# Waiting for a snapshot (`ClientSession.wait_for`)

Any number of calls of `wait_for`, over the session. They share one `asyncio.Event`,
which the pump sets and every waiter clears. `set` schedules all that are asleep, and a
later `clear` does not take that back; `clear` and `wait` have no await between them.

With a timeout, `asyncio.wait_for` runs `_wait` as a task of its own and goes on in a
later step, so the pump may act between the two; without one, `_wait` runs in the task of
its caller. The pump is at an await of its loop throughout: `open_session` stops it when
its body has ended, and a body that waits has let the pump begin.
-/

namespace PlanetCharlu

open Runs

/-- Where a call of `wait_for` is. -/
inductive WaiterStage where
  /-- `_wait` has not run yet. -/
  | created
  /-- In `_world_updated.wait()`, and not scheduled. -/
  | asleep
  | woken
  /-- The task of `_wait` has returned, or raised; the caller has not run since. -/
  | seen
  | failed (e : SessionError)
  | returned (world : WorldView)
  | raised (e : SessionError)
  /-- The deadline has passed, or the caller was cancelled. -/
  | aborted
deriving DecidableEq

/-- A call of `wait_for`. For the statements it keeps the world that the predicate was last
evaluated on, and the worlds since its `_wait` returned. -/
structure Waiter where
  predicate : WorldView → Bool
  timed : Bool
  stage : WaiterStage := .created
  checked : Option WorldView := none
  missed : List WorldView := []

namespace Waiter

/-- `_wait` returns. -/
def finds (w : Waiter) (world : WorldView) : Waiter :=
  { w with stage := if w.timed then .seen else .returned world }

/-- `_wait` raises the pump's error. -/
def fails (w : Waiter) (e : SessionError) : Waiter :=
  { w with stage := if w.timed then .failed e else .raised e }

/-- `_wait` from the head of its loop to its next await: the waiter, and the event. -/
def look (w : Waiter) (s : Session) (updated : Bool) : Waiter × Bool :=
  let world := s.world
  let w := { w with checked := some world }
  if w.predicate world then (w.finds world, updated)
  else
    match s.pumpError with
    | some e => (w.fails e, updated)
    | none =>
        -- The event is cleared, and the predicate evaluated once more.
        if w.predicate world then (w.finds world, false) else ({ w with stage := .asleep }, false)

/-- The future of a sleeping waiter is completed. -/
def wake (w : Waiter) : Waiter :=
  match w.stage with
  | .asleep => { w with stage := .woken }
  | _ => w

/-- A snapshot that comes between the end of `_wait` and the caller's next step. -/
def hears (w : Waiter) (before after : WorldView) : Waiter :=
  if before.snapshotSequence < after.snapshotSequence ∧ w.stage = .seen then
    { w with missed := w.missed ++ [after] }
  else w

end Waiter

structure WaitingSession where
  session : Session
  updated : Bool := false
  waiters : List Waiter := []

inductive WaiterEvent where
  /-- The pump, the connection, or a call of `send`. -/
  | session (e : SessionEvent)
  /-- `wait_for` is called, with a timeout or without. -/
  | waits (predicate : WorldView → Bool) (timed : Bool)
  /-- `_wait` runs to its next await. -/
  | runs (i : Nat)
  /-- The caller goes on after the task of its `_wait` has ended. -/
  | resumes (i : Nat)
  /-- The deadline passes, or the caller's task is cancelled. -/
  | aborts (i : Nat)

/-- The pump calls `_world_updated.set()`: it replaces the world, or it ends. -/
def Session.setsEvent (s : Session) : SessionEvent → Bool
  | .arrives (.state state) =>
      decide (state.runId ≠ s.world.runId) ||
        decide (s.world.snapshotSequence < state.snapshotSequence)
  | .arrives (.protocolError error) => error.closeSession || error.requestId.null
  | .ends _ => true
  | _ => false

namespace WaitingSession

def start (world : WorldView) : WaitingSession where
  session := .start world

/-- `asyncio.Event.set`. -/
def set (s : WaitingSession) : WaitingSession :=
  if s.updated then s else { s with updated := true, waiters := s.waiters.map Waiter.wake }

/-- A step of the session, and what the waiters get to know of it. -/
def advance (s : WaitingSession) (e : SessionEvent) (session : Session) : WaitingSession :=
  let waiters := s.waiters.map fun w => w.hears s.session.world session.world
  let t := { s with session, waiters }
  if s.session.setsEvent e then t.set else t

def step (s : WaitingSession) (event : WaiterEvent) : Option WaitingSession :=
  match event with
  | .session e => (s.session.step e).map (s.advance e)
  | .waits predicate timed => some { s with waiters := s.waiters ++ [{ predicate, timed }] }
  | .runs i =>
      (s.waiters[i]?).bind fun w =>
        if w.stage = .created ∨ w.stage = .woken then
          let (w, updated) := w.look s.session s.updated
          some { s with updated, waiters := s.waiters.set i w }
        else none
  | .resumes i =>
      (s.waiters[i]?).bind fun w =>
        match w.stage with
        | .seen =>
            some { s with waiters := s.waiters.set i { w with stage := .returned s.session.world } }
        | .failed e => some { s with waiters := s.waiters.set i { w with stage := .raised e } }
        | _ => none
  | .aborts i =>
      (s.waiters[i]?).bind fun w =>
        if w.stage = .created ∨ w.stage = .asleep ∨ w.stage = .woken then
          some { s with waiters := s.waiters.set i { w with stage := .aborted } }
        else none

def Step (s : WaitingSession) (event : WaiterEvent) (t : WaitingSession) : Prop :=
  s.step event = some t

end WaitingSession

/-! ### What the pump tells -/

namespace Session

/-- What a step of the session does to what the waiters look at. -/
inductive Watched (s : Session) (e : SessionEvent) (t : Session) : Prop where
  | same (hworld : t.world = s.world) (herror : t.pumpError = s.pumpError)
  | newer (hsets : s.setsEvent e = true) (hrunning : s.pumpError = none)
      (hnewer : s.world.snapshotSequence < t.world.snapshotSequence) (herror : t.pumpError = none)
  | ended (hsets : s.setsEvent e = true) (hrunning : s.pumpError = none)
      (hworld : t.world = s.world) (herror : t.pumpError.isSome)

theorem begin_pumpError (s : Session) (c : CallId) (id : String) (m : ClientMessage) :
    (s.begin c id m).pumpError = s.pumpError := by
  simp only [begin]
  split
  · rfl
  · split_ifs
    · rfl
    · split <;> rfl

theorem step_watched {s t : Session} {e : SessionEvent} (h : s.step e = some t) :
    Watched s e t := by
  cases step_cases h with
  | arrives hrunning m =>
      rcases m with state | wire | error | _ | _
      · simp only [receive]
        split
        · rename_i hrun
          exact .ended (by simp [setsEvent, hrun]) hrunning rfl rfl
        · split
          · exact .same rfl rfl
          · rename_i hnewer
            have hsets : s.setsEvent (.arrives (.state state)) = true := by
              simp [setsEvent, not_le.mp hnewer]
            rcases hread : WorldView.fromState state with e | w
            · exact .ended hsets hrunning rfl rfl
            · refine .newer hsets hrunning ?_ hrunning
              rw [(WorldView.fromState_eq_ok hread).2]
              exact not_le.mp hnewer
      · exact .same (settle_world _ _ _) (settle_pumpError _ _ _)
      · have hreject : ∀ (u : Session) e, (if error.requestId.null then u
            else u.reject error.requestId.value e).world = u.world ∧
            (if error.requestId.null then u
              else u.reject error.requestId.value e).pumpError = u.pumpError := by
          intro u e
          split
          · exact ⟨rfl, rfl⟩
          · exact ⟨settle_world _ _ _, settle_pumpError _ _ _⟩
        obtain ⟨hworld, herror⟩ := hreject s (.protocolErrorReceived error.code error.closeSession)
        simp only [receive]
        split
        · rename_i hfatal
          exact .ended hfatal hrunning hworld rfl
        · exact .same hworld herror
      · exact .same rfl rfl
      · exact .same rfl rfl
  | ends hrunning cause => exact .ended rfl hrunning rfl rfl
  | begins hnew id m => exact .same (begin_world _ _ _ _) (begin_pumpError _ _ _ _)
  | _ => exact .same rfl rfl

end Session

/-! ### Where the waiters are -/

namespace Waiter

variable {w : Waiter} {s t : Session} {e : SessionEvent}

/-- What is known of a waiter at each stage, by the session's snapshot and error. -/
def Placed (w : Waiter) (s : Session) : Prop :=
  match w.stage with
  | .created => w.checked = none ∧ w.missed = []
  | .asleep =>
      w.checked = some s.world ∧ w.predicate s.world = false ∧ s.pumpError = none ∧ w.missed = []
  | .woken => (∀ v ∈ w.checked, w.predicate v = false) ∧ w.missed = []
  | .seen =>
      w.timed = true ∧ ∃ v, w.checked = some v ∧ w.predicate v = true ∧
        s.world = w.missed.getLast?.getD v
  | .failed error =>
      w.checked = some s.world ∧ w.predicate s.world = false ∧ s.pumpError = some error
  | .returned world =>
      ∃ v, w.checked = some v ∧ w.predicate v = true ∧ world = w.missed.getLast?.getD v ∧
        (w.timed = false → w.missed = [])
  | .raised error => s.pumpError = some error
  | .aborted => True

@[simp] theorem hears_stage (w : Waiter) (before after : WorldView) :
    (w.hears before after).stage = w.stage := by
  simp only [hears]
  split <;> rfl

theorem hears_of_ne (h : w.stage ≠ .seen) (before after : WorldView) :
    w.hears before after = w := by
  rw [hears, if_neg fun hseen => h hseen.2]

theorem hears_same (w : Waiter) {before after : WorldView} (h : after = before) :
    w.hears before after = w := by
  rw [hears, h, if_neg fun hnewer => lt_irrefl _ hnewer.1]

theorem wake_of_ne (h : w.stage ≠ .asleep) : w.wake = w := by
  simp only [wake]

theorem wake_stage (w : Waiter) : w.wake.stage ≠ .asleep := by
  simp only [wake]
  split
  · simp
  · assumption

theorem Placed.congr (h : w.Placed s) (hworld : t.world = s.world)
    (herror : t.pumpError = s.pumpError) : w.Placed t := by
  simp only [Placed, hworld, herror]
  exact h

/-- The pump runs on with a newer snapshot, or ends. -/
theorem Placed.changed (h : w.Placed s) (hawake : w.stage ≠ .asleep) (hrunning : s.pumpError = none)
    (hworld : s.world.snapshotSequence < t.world.snapshotSequence ∨ t.world = s.world) :
    (w.hears s.world t.world).Placed t := by
  rcases hstage : w.stage with _ | _ | _ | _ | error | world | error | _
  case asleep => exact absurd hstage hawake
  case seen =>
      rcases hworld with hnewer | hsame
      · rw [hears, if_pos ⟨hnewer, hstage⟩]
        simp only [Placed, hstage] at h ⊢
        obtain ⟨htimed, v, hchecked, hholds, -⟩ := h
        exact ⟨htimed, v, hchecked, hholds, by simp⟩
      · rw [hears_same w hsame]
        simp only [Placed, hstage, hsame] at h ⊢
        exact h
  -- The pump has not ended before.
  case failed =>
      simp only [Placed, hstage, hrunning] at h
      cases h.2.2
  case raised =>
      simp only [Placed, hstage, hrunning] at h
      cases h
  all_goals
    rw [hears_of_ne (by simp [hstage])]
    simp only [Placed, hstage] at h ⊢
  · exact h
  · exact h
  · exact h

/-- What a step of the session does to a waiter that is not asleep. -/
theorem Placed.watched (h : w.Placed s) (hawake : w.stage ≠ .asleep)
    (hwatched : Session.Watched s e t) : (w.hears s.world t.world).Placed t := by
  cases hwatched with
  | same hworld herror =>
      rw [hears_same w hworld]
      exact h.congr hworld herror
  | newer hsets hrunning hnewer herror => exact h.changed hawake hrunning (Or.inl hnewer)
  | ended hsets hrunning hworld herror => exact h.changed hawake hrunning (Or.inr hworld)

/-- The signal reaches a waiter that is asleep. -/
theorem Placed.wake (h : w.Placed s) (t : Session) (hasleep : w.stage = .asleep) :
    w.wake.Placed t := by
  simp only [Placed, hasleep] at h
  obtain ⟨hchecked, hholds, -, hmissed⟩ := h
  simp only [Placed, Waiter.wake, hasleep]
  refine ⟨?_, hmissed⟩
  intro v hv
  rw [hchecked, Option.mem_def, Option.some.injEq] at hv
  rw [← hv]
  exact hholds

/-- How far `_wait` gets. -/
inductive Looked (w : Waiter) (s : Session) (updated : Bool) : Waiter × Bool → Prop where
  | found (hholds : w.predicate s.world = true) :
      Looked w s updated ({ w with checked := some s.world }.finds s.world, updated)
  | ended {error : SessionError} (hholds : w.predicate s.world = false)
      (hpump : s.pumpError = some error) :
      Looked w s updated ({ w with checked := some s.world }.fails error, updated)
  | sleeps (hholds : w.predicate s.world = false) (hpump : s.pumpError = none) :
      Looked w s updated ({ w with checked := some s.world, stage := .asleep }, false)

theorem look_cases (w : Waiter) (s : Session) (updated : Bool) :
    Looked w s updated (w.look s updated) := by
  simp only [look]
  by_cases hholds : w.predicate s.world = true
  · rw [if_pos hholds]
    exact .found hholds
  · have hfalse : w.predicate s.world = false := Bool.eq_false_of_not_eq_true hholds
    rw [if_neg hholds]
    rcases hpump : s.pumpError with _ | error
    · simp only [if_neg hholds]
      exact .sleeps hfalse hpump
    · exact .ended hfalse hpump

theorem finds_cases (w : Waiter) (world : WorldView) :
    w.timed = true ∧ w.finds world = { w with stage := .seen } ∨
      w.timed = false ∧ w.finds world = { w with stage := .returned world } := by
  rw [finds]
  cases w.timed
  · exact Or.inr ⟨rfl, rfl⟩
  · exact Or.inl ⟨rfl, rfl⟩

theorem fails_cases (w : Waiter) (error : SessionError) :
    w.timed = true ∧ w.fails error = { w with stage := .failed error } ∨
      w.timed = false ∧ w.fails error = { w with stage := .raised error } := by
  rw [fails]
  cases w.timed
  · exact Or.inr ⟨rfl, rfl⟩
  · exact Or.inl ⟨rfl, rfl⟩

/-- `_wait` runs: the waiter is placed by what it has just seen. -/
theorem placed_look (w : Waiter) (s : Session) (updated : Bool) (hmissed : w.missed = []) :
    (w.look s updated).1.Placed s := by
  have hcases := look_cases w s updated
  generalize w.look s updated = looked at hcases ⊢
  cases hcases with
  | found hholds =>
      rcases finds_cases { w with checked := some s.world } s.world with ⟨htimed, hfinds⟩ |
        ⟨htimed, hfinds⟩
      · rw [hfinds]
        exact ⟨htimed, s.world, rfl, hholds, by simp [hmissed]⟩
      · rw [hfinds]
        exact ⟨s.world, rfl, hholds, by simp [hmissed], fun _ => hmissed⟩
  | @ended error hholds hpump =>
      rcases fails_cases { w with checked := some s.world } error with ⟨-, hfails⟩ | ⟨-, hfails⟩
      · rw [hfails]
        exact ⟨rfl, hholds, hpump⟩
      · rw [hfails]
        exact hpump
  | sleeps hholds hpump => exact ⟨rfl, hholds, hpump, hmissed⟩

/-- An event that is still set when a waiter has run was set before, and the waiter is not
asleep. -/
theorem look_set {updated : Bool} (h : (w.look s updated).2 = true) :
    updated = true ∧ (w.look s updated).1.stage ≠ .asleep := by
  generalize hlooked : w.look s updated = looked at h ⊢
  have hcases := look_cases w s updated
  rw [hlooked] at hcases
  cases hcases with
  | found hholds =>
      refine ⟨h, ?_⟩
      rcases finds_cases { w with checked := some s.world } s.world with ⟨-, hfinds⟩ | ⟨-, hfinds⟩
      · simp [hfinds]
      · simp [hfinds]
  | @ended error hholds hpump =>
      refine ⟨h, ?_⟩
      rcases fails_cases { w with checked := some s.world } error with ⟨-, hfails⟩ | ⟨-, hfails⟩
      · simp [hfails]
      · simp [hfails]
  | sleeps hholds hpump => cases h

end Waiter

namespace WaitingSession

variable {s t : WaitingSession} {e : WaiterEvent} {trace : List WaiterEvent} {w₀ : WorldView}

/-- Every waiter is where it should be, and none is asleep while the event is set. -/
structure Sound (s : WaitingSession) : Prop where
  placed : ∀ w ∈ s.waiters, w.Placed s.session
  awake : s.updated = true → ∀ w ∈ s.waiters, w.stage ≠ .asleep

/-- `set` wakes every waiter, also where it finds the event set. -/
theorem set_waiters (hawake : s.updated = true → ∀ w ∈ s.waiters, w.stage ≠ .asleep) :
    s.set.waiters = s.waiters.map Waiter.wake := by
  simp only [set]
  split
  · rename_i hset
    rw [List.map_congr_left fun w hw => Waiter.wake_of_ne (hawake hset w hw), List.map_id']
  · rfl

theorem set_session (s : WaitingSession) : s.set.session = s.session := by
  simp only [set]
  split <;> rfl

theorem Sound.advance (h : s.Sound) {e : SessionEvent} {session : Session}
    (hstep : s.session.step e = some session) : (s.advance e session).Sound := by
  have hwatched := Session.step_watched hstep
  have hheard : ∀ w ∈ s.waiters, w.stage ≠ .asleep →
      (w.hears s.session.world session.world).Placed session :=
    fun w hw hawake => (h.placed w hw).watched hawake hwatched
  have hawake : s.updated = true →
      ∀ w ∈ s.waiters.map (fun w => w.hears s.session.world session.world), w.stage ≠ .asleep := by
    intro hset w hw
    obtain ⟨v, hv, rfl⟩ := List.mem_map.mp hw
    rw [Waiter.hears_stage]
    exact h.awake hset v hv
  simp only [WaitingSession.advance]
  split
  · refine ⟨?_, ?_⟩
    · intro w hw
      rw [set_waiters hawake, List.mem_map] at hw
      obtain ⟨u, hu, rfl⟩ := hw
      obtain ⟨v, hv, rfl⟩ := List.mem_map.mp hu
      rw [set_session]
      by_cases hasleep : v.stage = .asleep
      · rw [Waiter.hears_of_ne (by simp [hasleep])]
        exact (h.placed v hv).wake session hasleep
      · rw [Waiter.wake_of_ne (by rwa [Waiter.hears_stage])]
        exact hheard v hv hasleep
    · intro _ w hw
      rw [set_waiters hawake, List.mem_map] at hw
      obtain ⟨u, -, rfl⟩ := hw
      exact u.wake_stage
  · rename_i hquiet
    refine ⟨?_, hawake⟩
    intro w hw
    obtain ⟨v, hv, rfl⟩ := List.mem_map.mp hw
    cases hwatched with
    | same hworld herror =>
        rw [Waiter.hears_same v hworld]
        exact (h.placed v hv).congr hworld herror
    | newer hsets _ _ _ => exact absurd hsets hquiet
    | ended hsets _ _ _ => exact absurd hsets hquiet

/-- One waiter moves on, and does not go to sleep. -/
theorem Sound.update (h : s.Sound) {i : Nat} {w : Waiter} {updated : Bool}
    (hplaced : w.Placed s.session)
    (hset : updated = true → s.updated = true ∧ w.stage ≠ .asleep) :
    { s with updated, waiters := s.waiters.set i w }.Sound := by
  refine ⟨?_, ?_⟩
  · intro v hv
    rcases List.mem_or_eq_of_mem_set hv with hold | rfl
    · exact h.placed v hold
    · exact hplaced
  · intro hupdated v hv
    obtain ⟨hbefore, hawake⟩ := hset hupdated
    rcases List.mem_or_eq_of_mem_set hv with hold | rfl
    · exact h.awake hbefore v hold
    · exact hawake

theorem Sound.step (h : s.Sound) (hstep : s.step e = some t) : t.Sound := by
  rcases e with e | ⟨predicate, timed⟩ | i | i | i
  · obtain ⟨session, hsession, rfl⟩ := Option.map_eq_some_iff.mp hstep
    exact h.advance hsession
  · cases hstep
    refine ⟨?_, ?_⟩
    · intro w hw
      rcases List.mem_append.mp hw with hold | hnew
      · exact h.placed w hold
      · rw [List.mem_singleton.mp hnew]
        exact ⟨rfl, rfl⟩
    · intro hset w hw
      rcases List.mem_append.mp hw with hold | hnew
      · exact h.awake hset w hold
      · rw [List.mem_singleton.mp hnew]
        simp
  all_goals
    simp only [WaitingSession.step, Option.bind_eq_some_iff] at hstep
    obtain ⟨w, hw, hstep⟩ := hstep
    have hplaced := h.placed w (List.mem_of_getElem? hw)
  · split at hstep
    · rename_i hstage
      cases hstep
      have hmissed : w.missed = [] := by
        rcases hstage with hstage | hstage
        · simp only [Waiter.Placed, hstage] at hplaced
          exact hplaced.2
        · simp only [Waiter.Placed, hstage] at hplaced
          exact hplaced.2
      exact h.update (w.placed_look s.session s.updated hmissed) Waiter.look_set
    · cases hstep
  · split at hstep
    · rename_i hstage
      cases hstep
      simp only [Waiter.Placed, hstage] at hplaced
      obtain ⟨htimed, v, hchecked, hholds, hworld⟩ := hplaced
      refine h.update ⟨v, hchecked, hholds, hworld, fun huntimed => ?_⟩ fun hset => ⟨hset, by simp⟩
      rw [htimed] at huntimed
      cases huntimed
    · rename_i error hstage
      cases hstep
      simp only [Waiter.Placed, hstage] at hplaced
      exact h.update hplaced.2.2 fun hset => ⟨hset, by simp⟩
    · cases hstep
  · split at hstep
    · cases hstep
      exact h.update trivial fun hset => ⟨hset, by simp⟩
    · cases hstep

theorem run_sound (hrun : Run Step (start w₀) trace s) : s.Sound := by
  refine hrun.invariant (A := fun _ => True) (fun _ _ => trivial) ?_ ?_
  · refine ⟨?_, ?_⟩
    · intro w hw
      cases hw
    · intro hset
      cases hset
  · intro s e t h _ hstep
    exact h.step hstep

end WaitingSession

end PlanetCharlu
