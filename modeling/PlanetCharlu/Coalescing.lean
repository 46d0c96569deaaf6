import PlanetCharlu.LiveSummary

/-!
# The live summary is rendered by one worker, and to its end

In every run no two renderings overlap, there is at most one more of them than there were
requests, and the last one begins after the worker has finished and finds what was
requested and written before the exit. After the call of `__aexit__` at most eight steps of
the tasks and threads are left, and one can be taken until it returns.
-/

namespace PlanetCharlu

open Runs

/-- How many steps the worker, the exit and a rendering take to their ends, after the stop. -/
def WorkerStage.left : WorkerStage → Nat
  | .done => 0
  | .rendering _ => 2
  | _ => 1

def ExitStage.left : ExitStage → Nat
  | .joining => 4
  | .finishing _ => 1
  | _ => 0

def Render.left (r : Render) : Nat :=
  match r.stage with
  | .queued => 2
  | .running => 1
  | .finished => 0

namespace LiveSummary

section Steps

variable {s t : LiveSummary} {e : SummaryEvent} {trace : List SummaryEvent}

/-- How the worker stands to the events and to the exit. -/
structure Control (s : LiveSummary) : Prop where
  present : s.worker ≠ .absent
  stopping : s.stopping = true ↔ s.exit ≠ .inside
  awake : s.dirty = true → s.worker ≠ .asleep
  woken : s.worker = .woken → s.dirty = true
  /-- Once stopped, the worker waits for a rendering at most. -/
  stopped : s.stopping = true → s.worker ≠ .asleep ∧ s.worker ≠ .pausing
  done : s.worker = .done → s.stopping = true
  /-- The last rendering is asked for when the worker has finished. -/
  joined : s.exit = .inside ∨ s.exit = .joining ∨ s.worker = .done

/-- Where `__aexit__` puts the worker: it wakes it from either of its waits. -/
theorem Control.worker_at_exit (h : s.Control) (hinside : s.exit = .inside) :
    s.setStopping.setDirty.worker =
      match s.worker with
      | .asleep => .woken
      | .pausing => .paused
      | worker => worker := by
  have hstopping : s.stopping = false := by
    have := h.stopping
    simp_all
  have hawake := h.awake
  rw [setDirty_eq, setStopping_eq]
  rcases hworker : s.worker with _ | _ | _ | _ | j | _ | _ | _ <;>
    cases hdirty : s.dirty <;> simp_all

theorem Control.exits (h : s.Control) (hinside : s.exit = .inside) :
    ({ s with
      stopping := true
      dirty := true
      worker := s.setStopping.setDirty.worker
      exit := .joining
      loggedAtExit := s.logged
      requestsAtExit := s.requests } : LiveSummary).Control := by
  have hpresent := h.present
  have hdone := h.done
  rw [h.worker_at_exit hinside]
  rcases hworker : s.worker with _ | _ | _ | _ | j | _ | _ | _ <;> constructor <;> simp_all

theorem Control.requests (h : s.Control) :
    ({ s with
      requests := s.requests + 1
      dirty := true
      worker := if s.dirty = false ∧ s.worker = .asleep then .woken else s.worker } :
        LiveSummary).Control := by
  obtain ⟨hpresent, hstopping, hawake, hwoken, hstopped, hdone, hjoined⟩ := h
  rcases hworker : s.worker with _ | _ | _ | _ | j | _ | _ | _ <;>
    cases hdirty : s.dirty <;> constructor <;> simp_all

theorem Control.step (h : s.Control) (hstep : s.step e = some t) : t.Control := by
  cases step_cases hstep with
  | writes => exact ⟨h.present, h.stopping, h.awake, h.woken, h.stopped, h.done, h.joined⟩
  | requests => exact h.requests
  | leaves hinside hworker => exact absurd hworker h.present
  | exits hinside hworker => exact h.exits hinside
  | joins hexit hworker =>
      refine ⟨h.present, ?_, h.awake, h.woken, h.stopped, h.done, Or.inr (Or.inr hworker)⟩
      simp [h.stopping, hexit]
  | ends hexit hr hfinished =>
      have hjoined : s.worker = .done := by simpa [hexit] using h.joined
      refine ⟨h.present, ?_, h.awake, h.woken, h.stopped, h.done, Or.inr (Or.inr hjoined)⟩
      simp [h.stopping, hexit]
  | stops hloop hstop =>
      refine ⟨?_, h.stopping, ?_, ?_, ?_, fun _ => hstop, Or.inr (Or.inr rfl)⟩ <;> simp
  | renders hloop hstop hdirty =>
      have hinside : s.exit = .inside := by simpa [hstop] using h.stopping
      refine ⟨?_, h.stopping, ?_, ?_, ?_, ?_, Or.inl hinside⟩ <;> simp
  | sleeps hloop hstop hdirty =>
      have hinside : s.exit = .inside := by simpa [hstop] using h.stopping
      refine ⟨?_, h.stopping, ?_, ?_, ?_, ?_, Or.inl hinside⟩ <;> simp [hstop, hdirty]
  | pauses hworker hr hfinished =>
      have hjoined : s.exit = .inside ∨ s.exit = .joining := by simpa [hworker] using h.joined
      rw [pause]
      have hstopping := h.stopping
      cases hstop : s.stopping with
      | true => refine ⟨?_, ?_, ?_, ?_, ?_, ?_, ?_⟩ <;> simp_all
      | false => refine ⟨?_, ?_, ?_, ?_, ?_, ?_, ?_⟩ <;> simp_all
  | timer hworker =>
      have hjoined : s.exit = .inside ∨ s.exit = .joining := by simpa [hworker] using h.joined
      refine ⟨?_, h.stopping, ?_, ?_, ?_, ?_, ?_⟩ <;> simp [hjoined]
  | starts hr hqueued =>
      exact ⟨h.present, h.stopping, h.awake, h.woken, h.stopped, h.done, h.joined⟩
  | finishes hr hrunning hshown =>
      exact ⟨h.present, h.stopping, h.awake, h.woken, h.stopped, h.done, h.joined⟩

/-! ### One rendering at a time -/

/-- The rendering that a task waits for. -/
def current (exit : ExitStage) (worker : WorkerStage) : Option Nat :=
  match exit, worker with
  | .finishing j, _ => some j
  | _, .rendering j => some j
  | _, _ => none

theorem current_of_loop (hexit : s.exit = .inside ∨ s.exit = .joining) (hloop : s.AtLoop) :
    current s.exit s.worker = none := by
  rcases hexit with hexit | hexit <;> rcases hloop with hworker | hworker | hworker <;>
    simp [current, hexit, hworker]

theorem worker_of_current {j : Nat} (hexit : ∀ i, s.exit ≠ .finishing i)
    (hj : current s.exit s.worker = some j) : s.worker = .rendering j := by
  unfold current at hj
  split at hj
  · rename_i hfinishing
    exact absurd hfinishing (hexit _)
  · rename_i hworker _
    rw [hworker, Option.some.inj hj]
  · cases hj

theorem exit_of_current {j : Nat} (hworker : s.worker = .done)
    (hj : current s.exit s.worker = some j) : s.exit = .finishing j := by
  unfold current at hj
  split at hj
  · rename_i hfinishing
    rw [hfinishing, Option.some.inj hj]
  · rename_i hrendering _
    simp [hworker] at hrendering
  · cases hj

/-- A rendering that has not ended is the one a task waits for, and the last one. -/
structure Serial (s : LiveSummary) : Prop where
  only : ∀ j r, s.renders[j]? = some r → r.stage ≠ .finished → current s.exit s.worker = some j
  last : ∀ j, current s.exit s.worker = some j → j + 1 = s.renders.length

/-- A task asks for a rendering while it waits for none. -/
theorem Serial.asks (h : s.Serial) (hnone : current s.exit s.worker = none) {t : LiveSummary}
    (hrenders : t.renders = s.renders ++ [({} : Render)])
    (hcurrent : current t.exit t.worker = some s.renders.length) : t.Serial := by
  constructor
  · intro j r hr hunfinished
    rw [hrenders, List.getElem?_append] at hr
    split at hr
    · exact absurd (h.only j r hr hunfinished) (by simp [hnone])
    · rw [hcurrent]
      have hj := (List.getElem?_eq_some_iff.mp hr).1
      simp only [List.length_singleton] at hj
      congr 1
      omega
  · intro j hj
    rw [hcurrent, Option.some.injEq] at hj
    simp [hrenders, ← hj]

/-- A task goes on when its rendering has ended. -/
theorem Serial.goes_on (h : s.Serial) {j : Nat} {r : Render} (hj : current s.exit s.worker = some j)
    (hr : s.renders[j]? = some r) (hfinished : r.stage = .finished) {t : LiveSummary}
    (hrenders : t.renders = s.renders) (hcurrent : current t.exit t.worker = none) :
    t.Serial := by
  constructor
  · intro i q hq hunfinished
    rw [hrenders] at hq
    have hi := h.only i q hq hunfinished
    rw [hj, Option.some.injEq] at hi
    subst hi
    rw [hr, Option.some.injEq] at hq
    subst hq
    exact absurd hfinished hunfinished
  · intro i hi
    simp [hcurrent] at hi

/-- A thread goes on with a rendering. -/
theorem Serial.renders (h : s.Serial) {j : Nat} {r q : Render} (hr : s.renders[j]? = some r)
    (hunfinished : r.stage ≠ .finished) {t : LiveSummary}
    (hrenders : t.renders = s.renders.set j q) (hexit : t.exit = s.exit)
    (hworker : t.worker = s.worker) : t.Serial := by
  constructor
  · intro i p hp hp'
    rw [hexit, hworker]
    by_cases hij : j = i
    · subst hij
      exact h.only j r hr hunfinished
    · rw [hrenders, List.getElem?_set_ne hij] at hp
      exact h.only i p hp hp'
  · intro i hi
    rw [hexit, hworker] at hi
    simp [hrenders, h.last i hi]

/-- Nothing that a rendering depends on changes. -/
theorem Serial.same (h : s.Serial) {t : LiveSummary} (hrenders : t.renders = s.renders)
    (hcurrent : current t.exit t.worker = current s.exit s.worker) : t.Serial := by
  constructor
  · rw [hrenders, hcurrent]
    exact h.only
  · rw [hrenders, hcurrent]
    exact h.last

theorem Serial.step (h : s.Serial) (hcontrol : s.Control) (hstep : s.step e = some t) :
    t.Serial := by
  cases step_cases hstep with
  | writes => exact h.same rfl rfl
  | requests =>
      refine h.same rfl ?_
      dsimp only
      split
      · rename_i hasleep
        rw [hasleep.2]
        cases s.exit <;> rfl
      · rfl
  | leaves hinside hworker => exact absurd hworker hcontrol.present
  | exits hinside hworker =>
      refine h.same rfl ?_
      dsimp only
      rw [hcontrol.worker_at_exit hinside, hinside]
      cases s.worker <;> rfl
  | joins hexit hworker => exact h.asks (by simp [current, hexit, hworker]) rfl rfl
  | ends hexit hr hfinished =>
      have hjoined : s.worker = .done := by simpa [hexit] using hcontrol.joined
      exact h.goes_on (by simp [current, hexit]) hr hfinished rfl (by simp [current, hjoined])
  | stops hloop hstop =>
      refine h.same rfl ?_
      rcases hloop with hworker | hworker | hworker <;> rw [hworker] <;> cases s.exit <;> rfl
  | renders hloop hstop hdirty =>
      have hinside : s.exit = .inside := by simpa [hstop] using hcontrol.stopping
      exact h.asks (current_of_loop (Or.inl hinside) hloop) rfl (by simp [current, hinside])
  | sleeps hloop hstop hdirty =>
      refine h.same rfl ?_
      rcases hloop with hworker | hworker | hworker <;> rw [hworker] <;> cases s.exit <;> rfl
  | pauses hworker hr hfinished =>
      have hjoined : s.exit = .inside ∨ s.exit = .joining := by
        simpa [hworker] using hcontrol.joined
      refine h.goes_on ?_ hr hfinished rfl ?_
      · rcases hjoined with hexit | hexit <;> simp [current, hexit, hworker]
      · rw [pause]
        rcases hjoined with hexit | hexit <;> cases s.stopping <;> simp [current, hexit]
  | timer hworker =>
      refine h.same rfl ?_
      rw [hworker]
      cases s.exit <;> rfl
  | starts hr hqueued => exact h.renders hr (by simp [hqueued]) rfl rfl rfl
  | finishes hr hrunning hshown => exact h.renders hr (by simp [hrunning]) rfl rfl rfl

/-! ### How many renderings there are -/

/-- A rendering takes a request with it, except for the last one. -/
def Counted (s : LiveSummary) : Prop :=
  s.renders.length + (if s.dirty ∧ ¬s.stopping then 1 else 0) ≤
    s.requests + if s.exit = .inside ∨ s.exit = .joining then 0 else 1

theorem Counted.step (h : s.Counted) (hcontrol : s.Control) (hstep : s.step e = some t) :
    t.Counted := by
  rw [Counted] at h ⊢
  cases step_cases hstep with
  | writes => exact h
  | requests =>
      dsimp only
      split <;> split at h <;> omega
  | leaves hinside hworker => exact absurd hworker hcontrol.present
  | exits hinside hworker =>
      have hlength : s.renders.length ≤ s.requests := by
        simpa [hinside] using (Nat.le_add_right _ _).trans h
      simpa using hlength
  | joins hexit hworker =>
      have hstop : s.stopping = true := by simpa [hexit] using hcontrol.stopping
      have hlength : s.renders.length ≤ s.requests := by simpa [hexit, hstop] using h
      simpa [hstop] using hlength
  | ends hexit hr hfinished => simpa [hexit] using h
  | renders hloop hstop hdirty =>
      have hdirty' : s.dirty = true := hdirty.elim hcontrol.woken id
      have hlength : s.renders.length + 1 ≤
          s.requests + if s.exit = .inside ∨ s.exit = .joining then 0 else 1 := by
        simpa only [hdirty', hstop, Bool.false_eq_true, not_false_eq_true, and_self, if_true]
          using h
      simpa using hlength
  | pauses hworker hr hfinished => exact h
  | timer hworker => exact h
  | _ => simpa using h

/-! ### What the page shows -/

theorem Serial.getLast? (h : s.Serial) {j : Nat} {r : Render} (hr : s.renders[j]? = some r)
    (hunfinished : r.stage ≠ .finished) : s.renders.getLast? = some r := by
  have hlast := h.last j (h.only j r hr hunfinished)
  rw [List.getLast?_eq_getElem?, ← hlast, Nat.add_sub_cancel, hr]

theorem Serial.getLast?_set (h : s.Serial) {j : Nat} {r : Render} (hr : s.renders[j]? = some r)
    (hunfinished : r.stage ≠ .finished) (q : Render) :
    (s.renders.set j q).getLast? = some q := by
  have hlast := h.last j (h.only j r hr hunfinished)
  rw [List.getLast?_eq_getElem?, List.length_set, ← hlast, Nat.add_sub_cancel]
  exact List.getElem?_set_self (by omega)

/-- A page has the events that its rendering found, and it is the last one that is shown. -/
structure Told (s : LiveSummary) : Prop where
  read : ∀ r ∈ s.renders, ∀ n ∈ r.shown, r.logged ≤ n
  page : ∀ r ∈ s.renders.getLast?, ∀ n ∈ r.shown, s.page = some n
  waits : ∀ r ∈ s.renders, r.stage ≠ .finished → r.shown = none

theorem Told.asks (h : s.Told) {t : LiveSummary}
    (hrenders : t.renders = s.renders ++ [({} : Render)]) : t.Told := by
  constructor
  · intro r hr n hn
    rw [hrenders, List.mem_append, List.mem_singleton] at hr
    rcases hr with hr | rfl
    · exact h.read r hr n hn
    · cases hn
  · intro r hr n hn
    rw [hrenders, List.getLast?_append, List.getLast?_singleton] at hr
    cases hr
    cases hn
  · intro r hr hunfinished
    rw [hrenders, List.mem_append, List.mem_singleton] at hr
    rcases hr with hr | rfl
    · exact h.waits r hr hunfinished
    · rfl

theorem Told.step (h : s.Told) (hserial : s.Serial) (hstep : s.step e = some t) : t.Told := by
  cases step_cases hstep with
  | joins hexit hworker => exact h.asks rfl
  | renders hloop hstop hdirty => exact h.asks rfl
  | @starts j r hr hqueued =>
      have hnone : r.shown = none := h.waits r (List.mem_of_getElem? hr) (by simp [hqueued])
      refine ⟨?_, ?_, ?_⟩
      · intro q hq n hn
        rcases List.mem_or_eq_of_mem_set hq with hq | rfl
        · exact h.read q hq n hn
        · simp [hnone] at hn
      · intro q hq n hn
        rw [hserial.getLast?_set hr (by simp [hqueued])] at hq
        cases hq
        simp [hnone] at hn
      · intro q hq hunfinished
        rcases List.mem_or_eq_of_mem_set hq with hq | rfl
        · exact h.waits q hq hunfinished
        · exact hnone
  | @finishes j r shown hr hrunning hshown =>
      refine ⟨?_, ?_, ?_⟩
      · intro q hq n hn
        rcases List.mem_or_eq_of_mem_set hq with hq | rfl
        · exact h.read q hq n hn
        · exact (hshown n hn).1
      · intro q hq n hn
        rw [hserial.getLast?_set hr (by simp [hrunning])] at hq
        cases hq
        have hshown' : shown = some n := hn
        simp [hshown']
      · intro q hq hunfinished
        rcases List.mem_or_eq_of_mem_set hq with hq | rfl
        · exact h.waits q hq hunfinished
        · exact absurd rfl hunfinished
  | _ => exact ⟨h.read, h.page, h.waits⟩

/-! ### The last rendering -/

/-- What there was when `__aexit__` was called, and that the last rendering finds it. -/
structure Closing (s : LiveSummary) : Prop where
  requests : s.requestsAtExit ≤ s.requests
  logged : s.loggedAtExit ≤ s.logged
  fresh : s.exit ≠ .inside → s.exit ≠ .joining → ∀ r ∈ s.renders.getLast?,
    r.stage ≠ .queued → s.requestsAtExit ≤ r.requests ∧ s.loggedAtExit ≤ r.logged
  ended : s.exit = .exited → ∃ r ∈ s.renders.getLast?, r.stage = .finished

theorem Serial.not_exited (h : s.Serial) (hcontrol : s.Control) {j : Nat} {r : Render}
    (hr : s.renders[j]? = some r) (hunfinished : r.stage ≠ .finished) : s.exit ≠ .exited := by
  intro hexit
  have hworker : s.worker = .done := by simpa [hexit] using hcontrol.joined
  have hcurrent := h.only j r hr hunfinished
  simp [current, hexit, hworker] at hcurrent

theorem Closing.step (h : s.Closing) (hcontrol : s.Control) (hserial : s.Serial)
    (hstep : s.step e = some t) : t.Closing := by
  cases step_cases hstep with
  | writes => exact ⟨h.requests, Nat.le_succ_of_le h.logged, h.fresh, h.ended⟩
  | requests => exact ⟨Nat.le_succ_of_le h.requests, h.logged, h.fresh, h.ended⟩
  | leaves hinside hworker => exact absurd hworker hcontrol.present
  | exits hinside hworker =>
      exact ⟨Nat.le_refl _, Nat.le_refl _, fun _ hjoining => absurd rfl hjoining, by simp⟩
  | joins hexit hworker =>
      refine ⟨h.requests, h.logged, ?_, by simp⟩
      intro _ _ r hr hbegun
      rw [List.getLast?_append, List.getLast?_singleton] at hr
      cases hr
      exact absurd rfl hbegun
  | @ends j r hexit hr hfinished =>
      have hlast : s.renders.getLast? = some r := by
        have hj := hserial.last j (by simp [current, hexit])
        rw [List.getLast?_eq_getElem?, ← hj, Nat.add_sub_cancel, hr]
      refine ⟨h.requests, h.logged, ?_, fun _ => ⟨r, hlast, hfinished⟩⟩
      exact fun _ _ => h.fresh (by simp [hexit]) (by simp [hexit])
  | renders hloop hstop hdirty =>
      have hinside : s.exit = .inside := by simpa [hstop] using hcontrol.stopping
      exact ⟨h.requests, h.logged, fun hexit => absurd hinside hexit, by simp [hinside]⟩
  | @starts j r hr hqueued =>
      have hunfinished : r.stage ≠ .finished := by simp [hqueued]
      have hopen := hserial.not_exited hcontrol hr hunfinished
      refine ⟨h.requests, h.logged, ?_, fun hexit => absurd hexit hopen⟩
      intro _ _ q hq _
      rw [hserial.getLast?_set hr hunfinished] at hq
      cases hq
      exact ⟨h.requests, h.logged⟩
  | @finishes j r shown hr hrunning hshown =>
      have hunfinished : r.stage ≠ .finished := by simp [hrunning]
      have hopen := hserial.not_exited hcontrol hr hunfinished
      refine ⟨h.requests, h.logged, ?_, fun hexit => absurd hexit hopen⟩
      intro hinside hjoining q hq _
      rw [hserial.getLast?_set hr hunfinished] at hq
      cases hq
      exact h.fresh hinside hjoining r (hserial.getLast? hr hunfinished) (by simp [hrunning])
  | _ => exact ⟨h.requests, h.logged, h.fresh, h.ended⟩

/-! ### The exit comes to an end -/

/-- What is left to do after the stop. -/
def left (s : LiveSummary) : Nat :=
  s.worker.left + s.exit.left + (s.renders.getLast?.elim 0 Render.left)

/-- A step of the worker, of the exit or of a thread. -/
def isTask : SummaryEvent → Bool
  | .works | .resumes | .starts _ | .finishes _ _ => true
  | _ => false

/-- What holds in every run with a log. -/
structure Sound (s : LiveSummary) : Prop where
  control : s.Control
  serial : s.Serial
  counted : s.Counted
  told : s.Told
  closing : s.Closing

theorem sound_enter : (enter true).Sound := by
  refine ⟨?_, ?_, ?_, ?_, ?_⟩
  · constructor <;> simp [enter]
  · constructor <;> simp [enter, current]
  · simp [Counted, enter]
  · constructor <;> simp [enter]
  · constructor <;> simp [enter]

theorem Sound.step (h : s.Sound) (hstep : s.step e = some t) : t.Sound where
  control := h.control.step hstep
  serial := h.serial.step h.control hstep
  counted := h.counted.step h.control hstep
  told := h.told.step h.serial hstep
  closing := h.closing.step h.control h.serial hstep

theorem Sound.run (hrun : Run Step (enter true) trace s) : s.Sound := by
  apply hrun.invariant (A := fun _ => True) (fun _ _ => trivial) sound_enter
  intro s e t hs _ hstep
  exact hs.step hstep

theorem Control.stopping_of_left (h : s.Control) (hleft : s.exit ≠ .inside) : s.stopping = true :=
  h.stopping.mpr hleft

theorem exit_ne_inside_step (hleft : s.exit ≠ .inside) (hstep : s.step e = some t) :
    t.exit ≠ .inside := by
  cases step_cases hstep with
  | leaves | exits | joins | ends => simp
  | _ => exact hleft

theorem left_task (h : s.Sound) (hleft : s.exit ≠ .inside) (htask : isTask e = true)
    (hstep : s.step e = some t) : t.left < s.left := by
  have hstopping := h.control.stopping_of_left hleft
  cases step_cases hstep with
  | joins hexit hworker =>
      simp only [left, hexit, ExitStage.left, List.getLast?_append, List.getLast?_singleton,
        Option.some_or, Option.elim_some, Render.left]
      omega
  | ends hexit hr hfinished =>
      simp only [left, hexit, ExitStage.left]
      omega
  | stops hloop hstop =>
      have hworker : s.worker.left = 1 := by
        rcases hloop with hworker | hworker | hworker <;> rw [hworker] <;> rfl
      have hdone : WorkerStage.left .done = 0 := rfl
      simp only [left, hworker, hdone]
      omega
  | renders hloop hstop hdirty => simp [hstopping] at hstop
  | sleeps hloop hstop hdirty => simp [hstopping] at hstop
  | pauses hworker hr hfinished =>
      simp only [left, pause, hstopping, if_true, hworker, WorkerStage.left]
      omega
  | @starts j r hr hqueued =>
      have hunfinished : r.stage ≠ .finished := by simp [hqueued]
      simp only [left, h.serial.getLast?_set hr hunfinished, h.serial.getLast? hr hunfinished,
        Option.elim_some, Render.left, hqueued]
      omega
  | @finishes j r shown hr hrunning hshown =>
      have hunfinished : r.stage ≠ .finished := by simp [hrunning]
      simp only [left, h.serial.getLast?_set hr hunfinished, h.serial.getLast? hr hunfinished,
        Option.elim_some, Render.left, hrunning]
      omega
  | _ => simp [isTask] at htask

theorem left_other (h : s.Sound) (hleft : s.exit ≠ .inside) (htask : isTask e = false)
    (hstep : s.step e = some t) : t.left ≤ s.left := by
  have hstopping := h.control.stopping_of_left hleft
  obtain ⟨hasleep, hpausing⟩ := h.control.stopped hstopping
  cases step_cases hstep with
  | writes => exact Nat.le_refl _
  | requests => simp [left, hasleep]
  | leaves hinside hworker => exact absurd hinside hleft
  | exits hinside hworker => exact absurd hinside hleft
  | timer hworker => exact absurd hworker hpausing
  | _ => simp [isTask] at htask

theorem left_le (s : LiveSummary) : s.left ≤ 8 := by
  have hworker : s.worker.left ≤ 2 := by cases s.worker <;> simp [WorkerStage.left]
  have hexit : s.exit.left ≤ 4 := by cases s.exit <;> simp [ExitStage.left]
  have hrender : s.renders.getLast?.elim 0 Render.left ≤ 2 := by
    cases s.renders.getLast? with
    | none => simp
    | some r =>
        rw [Option.elim_some, Render.left]
        cases r.stage <;> simp
  rw [left]
  omega

/-- A refresh that has not ended can go on: there is a thread for it. -/
theorem current_goes_on (h : s.Sound) {j : Nat} (hj : current s.exit s.worker = some j) :
    (∃ r, s.renders[j]? = some r ∧ r.stage = .finished) ∨
      ∃ e, isTask e = true ∧ s.step e ≠ none := by
  have hlast := h.serial.last j hj
  have hr : s.renders[j]? = some s.renders[j] := List.getElem?_eq_getElem (by omega)
  cases hstage : s.renders[j].stage with
  | queued => exact Or.inr ⟨.starts j, rfl, by simp [LiveSummary.step, hr, hstage]⟩
  | running => exact Or.inr ⟨.finishes j none, rfl, by simp [LiveSummary.step, hr, hstage]⟩
  | finished => exact Or.inl ⟨s.renders[j], hr, hstage⟩

/-- Where no task and no thread can go on, the block has been left. -/
theorem exited_of_rest (h : s.Sound) (hleft : s.exit ≠ .inside)
    (hrest : ∀ e, isTask e = true → s.step e = none) : s.exit = .exited := by
  have hstopping := h.control.stopping_of_left hleft
  obtain ⟨hasleep, hpausing⟩ := h.control.stopped hstopping
  have hgoes {j : Nat} (hj : current s.exit s.worker = some j) :
      ∃ r, s.renders[j]? = some r ∧ r.stage = .finished := by
    rcases current_goes_on h hj with hr | ⟨e, htask, he⟩
    · exact hr
    · exact absurd (hrest e htask) he
  have hworks := hrest .works rfl
  have hresumes := hrest .resumes rfl
  rcases hexit : s.exit with _ | _ | j | _
  · exact absurd hexit hleft
  · rcases hworker : s.worker with _ | _ | _ | _ | j | _ | _ | _
    · exact absurd hworker h.control.present
    · simp [LiveSummary.step, hworker] at hworks
    · exact absurd hworker hasleep
    · simp [LiveSummary.step, hworker] at hworks
    · obtain ⟨r, hr, hfinished⟩ := hgoes (j := j) (by simp [current, hexit, hworker])
      simp [LiveSummary.step, hworker, hr, hfinished] at hworks
    · exact absurd hworker hpausing
    · simp [LiveSummary.step, hworker] at hworks
    · simp [LiveSummary.step, hexit, hworker] at hresumes
  · obtain ⟨r, hr, hfinished⟩ := hgoes (j := j) (by simp [current, hexit])
    simp [LiveSummary.step, hexit, hr, hfinished] at hresumes
  · rfl

/-- After the block nothing is rendered any more. -/
theorem exited_step (h : s.Sound) (hexit : s.exit = .exited) (hstep : s.step e = some t) :
    t.exit = .exited ∧ t.page = s.page ∧ t.renders = s.renders := by
  have hworker : s.worker = .done := by simpa [hexit] using h.control.joined
  have hloop : ¬s.AtLoop := by simp [AtLoop, hworker]
  cases step_cases hstep with
  | writes => exact ⟨hexit, rfl, rfl⟩
  | requests => exact ⟨hexit, rfl, rfl⟩
  | leaves hinside _ => simp [hexit] at hinside
  | exits hinside _ => simp [hexit] at hinside
  | joins hjoining _ => simp [hexit] at hjoining
  | ends hfinishing _ _ => simp [hexit] at hfinishing
  | stops hat _ => exact absurd hat hloop
  | renders hat _ _ => exact absurd hat hloop
  | sleeps hat _ _ => exact absurd hat hloop
  | pauses hrendering _ _ => simp [hworker] at hrendering
  | timer hpausing => simp [hworker] at hpausing
  | @starts j r hr hqueued =>
      exact absurd hexit (h.serial.not_exited h.control hr (by simp [hqueued]))
  | @finishes j r shown hr hrunning hshown =>
      exact absurd hexit (h.serial.not_exited h.control hr (by simp [hrunning]))

/-- What has been counted, and what of it when `__aexit__` was called. -/
structure Tallied (trace : List SummaryEvent) (s : LiveSummary) : Prop where
  requests : s.requests = trace.count .requests
  logged : s.logged = trace.count .writes
  atExit : ∀ before after, trace = before ++ .exits :: after →
    s.exit ≠ .inside ∧ s.requestsAtExit = before.count .requests ∧
      s.loggedAtExit = before.count .writes

theorem counts_step (hstep : s.step e = some t) :
    t.requests = s.requests + [e].count .requests ∧ t.logged = s.logged + [e].count .writes := by
  cases step_cases hstep with
  | pauses => simp [pause]
  | _ => simp

theorem atExit_step (hleft : s.exit ≠ .inside) (hstep : s.step e = some t) :
    t.requestsAtExit = s.requestsAtExit ∧ t.loggedAtExit = s.loggedAtExit := by
  cases step_cases hstep with
  | exits hinside hworker => exact absurd hinside hleft
  | _ => exact ⟨rfl, rfl⟩

theorem exits_step (h : s.Control) (hstep : s.step .exits = some t) :
    t.exit = .joining ∧ t.requestsAtExit = s.requests ∧ t.loggedAtExit = s.logged := by
  cases step_cases hstep with
  | leaves hinside hworker => exact absurd hworker h.present
  | exits hinside hworker => exact ⟨rfl, rfl, rfl⟩

theorem Tallied.run (hrun : Run Step (enter true) trace s) : Tallied trace s := by
  apply hrun.traceInvariant (P := Tallied)
  · exact ⟨rfl, rfl, by simp⟩
  · intro trace s e t hrun h hstep
    obtain ⟨hrequests, hlogged⟩ := counts_step hstep
    refine ⟨?_, ?_, ?_⟩
    · rw [hrequests, h.requests, List.count_append]
    · rw [hlogged, h.logged, List.count_append]
    · intro before after htrace
      rcases List.eq_nil_or_concat after with rfl | ⟨rest, last, rfl⟩
      · obtain ⟨rfl, hlast⟩ := List.append_inj' htrace rfl
        cases hlast
        obtain ⟨hexit, hrequestsAt, hloggedAt⟩ := exits_step (Sound.run hrun).control hstep
        exact ⟨by simp [hexit], by rw [hrequestsAt, h.requests], by rw [hloggedAt, h.logged]⟩
      · rw [List.concat_eq_append, ← List.cons_append, ← List.append_assoc] at htrace
        obtain ⟨hleft, hrequestsAt, hloggedAt⟩ :=
          h.atExit before rest (List.append_inj' htrace rfl).1
        obtain ⟨hsameRequests, hsameLogged⟩ := atExit_step hleft hstep
        exact ⟨exit_ne_inside_step hleft hstep, by rw [hsameRequests, hrequestsAt],
          by rw [hsameLogged, hloggedAt]⟩

/-- What the renderer promises after the events of a run. -/
structure Coalesces (trace : List SummaryEvent) (s : LiveSummary) : Prop where
  alone : ∀ (i j : Nat) (p q : Render), s.renders[i]? = some p → s.renders[j]? = some q →
    p.stage = .running → q.stage = .running → i = j
  /-- A rendering is begun for the worker, or for the exit when the worker has finished. -/
  begins : ∀ j t, s.step (.starts j) = some t →
    (s.worker = .rendering j ∨ s.exit = .finishing j ∧ s.worker = .done) ∧
      j + 1 = s.renders.length
  few : s.renders.length ≤ trace.count .requests + 1
  final : ∀ j, s.exit = .finishing j → s.worker = .done ∧ j + 1 = s.renders.length ∧
    ∀ (i : Nat) (r : Render), s.renders[i]? = some r → i ≠ j → r.stage = .finished
  /-- The last rendering has found what was requested and written before the exit, and the
  page, if it could be written, is the last one's. -/
  served : ∀ before after, trace = before ++ .exits :: after → s.exit = .exited →
    ∃ r ∈ s.renders.getLast?, r.stage = .finished ∧
      before.count .requests ≤ r.requests ∧ before.count .writes ≤ r.logged ∧
      ∀ n ∈ r.shown, s.page = some n ∧ before.count .writes ≤ n
  kept : s.exit = .exited → ∀ e t, s.step e = some t →
    t.exit = .exited ∧ t.page = s.page ∧ t.renders = s.renders
  /-- After the call of `__aexit__` there are few steps to take, and one can be taken until
  it returns. -/
  completes : s.exit ≠ .inside → ∀ more t, Run Step s more t → more.countP isTask ≤ 8
  goes_on : s.exit ≠ .inside → s.exit ≠ .exited → ∃ e t, isTask e = true ∧ s.step e = some t

theorem tasks_le (h : s.Sound) (hleft : s.exit ≠ .inside) (hrun : Run Step s trace t) :
    trace.countP isTask ≤ 8 := by
  have hcount : trace.countP isTask + t.left ≤ s.left := hrun.countP_add_measure_le
    (A := fun _ => True) (P := fun s => s.Sound ∧ s.exit ≠ .inside) left (fun _ _ => trivial)
    ⟨h, hleft⟩
    (fun s e t hs _ hstep => ⟨hs.1.step hstep, exit_ne_inside_step hs.2 hstep⟩)
    (fun s e t hs htask hstep => left_task hs.1 hs.2 htask hstep)
    (fun s e t hs _ htask hstep => left_other hs.1 hs.2 htask hstep)
  have hle := left_le s
  omega

theorem Sound.alone (h : s.Sound) {i j : Nat} {p q : Render} (hp : s.renders[i]? = some p)
    (hq : s.renders[j]? = some q) (hp' : p.stage = .running) (hq' : q.stage = .running) :
    i = j := by
  have hi := h.serial.only i p hp (by simp [hp'])
  have hj := h.serial.only j q hq (by simp [hq'])
  rw [hi] at hj
  exact Option.some.inj hj

theorem Sound.begins (h : s.Sound) {j : Nat} (hstep : s.step (.starts j) = some t) :
    (s.worker = .rendering j ∨ s.exit = .finishing j ∧ s.worker = .done) ∧
      j + 1 = s.renders.length := by
  cases step_cases hstep with
  | @starts _ r hr hqueued =>
      have hcurrent := h.serial.only j r hr (by simp [hqueued])
      refine ⟨?_, h.serial.last j hcurrent⟩
      rcases h.control.joined with hexit | hexit | hworker
      · exact Or.inl (worker_of_current (by simp [hexit]) hcurrent)
      · exact Or.inl (worker_of_current (by simp [hexit]) hcurrent)
      · exact Or.inr ⟨exit_of_current hworker hcurrent, hworker⟩

theorem Sound.final (h : s.Sound) {j : Nat} (hexit : s.exit = .finishing j) :
    s.worker = .done ∧ j + 1 = s.renders.length ∧
      ∀ (i : Nat) (r : Render), s.renders[i]? = some r → i ≠ j → r.stage = .finished := by
  have hworker : s.worker = .done := by simpa [hexit] using h.control.joined
  have hcurrent : current s.exit s.worker = some j := by simp [current, hexit]
  refine ⟨hworker, h.serial.last j hcurrent, fun i r hr hij => ?_⟩
  by_contra hunfinished
  have hi := h.serial.only i r hr hunfinished
  rw [hcurrent, Option.some.injEq] at hi
  exact hij hi.symm

theorem coalesces (hrun : Run Step (enter true) trace s) : s.Coalesces trace := by
  have h := Sound.run hrun
  have htally := Tallied.run hrun
  refine ⟨fun _ _ _ _ => h.alone, fun _ _ => h.begins, ?_, fun _ => h.final, ?_, ?_, ?_, ?_⟩
  · have hcounted := h.counted
    rw [Counted] at hcounted
    rw [← htally.requests]
    split at hcounted <;> split at hcounted <;> omega
  · intro before after htrace hexit
    obtain ⟨-, hrequests, hlogged⟩ := htally.atExit before after htrace
    obtain ⟨r, hr, hfinished⟩ := h.closing.ended hexit
    obtain ⟨hseen, hread⟩ :=
      h.closing.fresh (by simp [hexit]) (by simp [hexit]) r hr (by simp [hfinished])
    rw [hrequests] at hseen
    rw [hlogged] at hread
    refine ⟨r, hr, hfinished, hseen, hread, fun n hn => ⟨h.told.page r hr n hn, ?_⟩⟩
    exact hread.trans (h.told.read r (List.mem_of_getLast? hr) n hn)
  · exact fun hexit e t hstep => exited_step h hexit hstep
  · exact fun hleft more t hmore => tasks_le h hleft hmore
  · intro hleft hopen
    by_contra hrest
    refine hopen (exited_of_rest h hleft fun e htask => ?_)
    exact Option.eq_none_iff_forall_ne_some.mpr fun t hstep => hrest ⟨e, t, htask, hstep⟩

/-- A request while the worker renders is served by the last rendering. -/
def sampleTrace : List SummaryEvent :=
  [.requests, .works, .starts 0, .writes, .requests, .exits, .finishes 0 (some 0), .works, .works,
    .resumes, .starts 1, .finishes 1 (some 1), .resumes]

theorem coalesces_sample :
    ∃ s, Run Step (enter true) sampleTrace s ∧ s.page = some 1 ∧ s.Coalesces sampleTrace := by
  have hreplay : (replay LiveSummary.step (enter true) sampleTrace).map LiveSummary.page =
      some (some 1) := by decide +kernel
  obtain ⟨s, hs, hpage⟩ := Option.map_eq_some_iff.mp hreplay
  have hrun : Run Step (enter true) sampleTrace s := run_of_replay (fun _ _ _ h => h) hs
  exact ⟨s, hrun, hpage, coalesces hrun⟩

/-- Without a log there is nothing to render, and nothing to wait for. -/
theorem without_log (hrun : Run Step (enter false) trace s) :
    s.worker = .absent ∧ s.renders = [] ∧ s.page = none ∧ (s.exit = .inside ∨ s.exit = .exited) := by
  apply hrun.invariant (A := fun _ => True) (P := fun s => s.worker = .absent ∧ s.renders = [] ∧
    s.page = none ∧ (s.exit = .inside ∨ s.exit = .exited)) (fun _ _ => trivial)
  · simp [enter]
  · rintro s e t ⟨hworker, hrenders, hpage, hexit⟩ _ hstep
    cases step_cases hstep with
    | writes => exact ⟨hworker, hrenders, hpage, hexit⟩
    | requests => exact ⟨by simp [hworker], hrenders, hpage, hexit⟩
    | leaves _ _ => exact ⟨hworker, hrenders, hpage, Or.inr rfl⟩
    | exits _ hpresent => exact absurd hworker hpresent
    | joins hjoining _ => simp [hjoining] at hexit
    | ends hfinishing _ _ => simp [hfinishing] at hexit
    | stops hloop _ => simp [AtLoop, hworker] at hloop
    | renders hloop _ _ => simp [AtLoop, hworker] at hloop
    | sleeps hloop _ _ => simp [AtLoop, hworker] at hloop
    | pauses hrendering _ _ => simp [hworker] at hrendering
    | timer hpausing => simp [hworker] at hpausing
    | starts hr _ => simp [hrenders] at hr
    | finishes hr _ _ => simp [hrenders] at hr

end Steps

end LiveSummary

end PlanetCharlu
