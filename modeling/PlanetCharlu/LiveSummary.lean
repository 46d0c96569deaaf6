import PlanetCharlu.Lib.Runs

/-!
# The live summary (`LiveSummaryRenderer`)

A worker renders the run log whenever a refresh has been requested, at most once in an
interval, and `__aexit__` stops it and renders once more. The worker, the task that exits
and the threads that render are interleaved at their awaits; a thread begins and ends its
rendering at any time, and `refresh_html` always ends, since it logs what it raises. The
events of the log and the requests are counted.

The renderings are kept in a list of their own, each with its thread's progress, so that
nothing in the data keeps two of them from running at once.
-/

namespace PlanetCharlu

open Runs

/-- Where the worker is. -/
inductive WorkerStage where
  /-- There is no run log, and no worker. -/
  | absent
  | created
  /-- In `dirty.wait()`, and not scheduled. -/
  | asleep
  | woken
  /-- In `to_thread`, with this rendering. -/
  | rendering (j : Nat)
  /-- In `wait_for(stopping.wait(), …)`, and scheduled after it. -/
  | pausing
  | paused
  | done
deriving DecidableEq, Repr

/-- Where the `async with` block is: in its body, at `await self.worker`, in `to_thread`
with its own rendering, past its end. -/
inductive ExitStage where
  | inside
  | joining
  | finishing (j : Nat)
  | exited
deriving DecidableEq, Repr

inductive RenderStage where
  | queued
  | running
  | finished
deriving DecidableEq, Repr

/-- An execution of `refresh_html`: how many requests and events there were when it began,
and how many events the page has that it wrote, if it succeeded. -/
structure Render where
  stage : RenderStage := .queued
  requests : Nat := 0
  logged : Nat := 0
  shown : Option Nat := none
deriving DecidableEq, Repr

structure LiveSummary where
  dirty : Bool := false
  stopping : Bool := false
  worker : WorkerStage := .created
  exit : ExitStage := .inside
  renders : List Render := []
  /-- The events in the log, and on the page. -/
  logged : Nat := 0
  page : Option Nat := none
  /-- The calls of `request_refresh`. -/
  requests : Nat := 0
  /-- What there was of both when `__aexit__` was called. -/
  loggedAtExit : Nat := 0
  requestsAtExit : Nat := 0
deriving DecidableEq, Repr

inductive SummaryEvent where
  /-- An event is written to the log, and flushed. -/
  | writes
  | requests
  /-- `__aexit__` is called, and its task goes on. -/
  | exits
  | resumes
  /-- The worker runs to its next await; its interval is over. -/
  | works
  | timer
  /-- A thread begins to render, and ends with a page or without. -/
  | starts (j : Nat)
  | finishes (j : Nat) (shown : Option Nat)
deriving DecidableEq, Repr

namespace LiveSummary

/-- `__aenter__`. -/
def enter (hasLog : Bool) : LiveSummary where
  worker := if hasLog then .created else .absent

/-- `dirty.set()`. -/
def setDirty (s : LiveSummary) : LiveSummary :=
  if s.dirty then s
  else { s with dirty := true, worker := if s.worker = .asleep then .woken else s.worker }

/-- `stopping.set()`. -/
def setStopping (s : LiveSummary) : LiveSummary :=
  if s.stopping then s
  else { s with stopping := true, worker := if s.worker = .pausing then .paused else s.worker }

/-- After `dirty.wait()`. -/
def render (s : LiveSummary) : LiveSummary :=
  if s.stopping then { s with worker := .done }
  else
    { s with
      dirty := false
      worker := .rendering s.renders.length
      renders := s.renders ++ [{}] }

/-- The head of the worker's loop; `dirty.wait()` does not wait where the event is set. -/
def head (s : LiveSummary) : LiveSummary :=
  if s.stopping then { s with worker := .done }
  else if s.dirty then s.render
  else { s with worker := .asleep }

/-- After a rendering. -/
def pause (s : LiveSummary) : LiveSummary :=
  { s with worker := if s.stopping then .paused else .pausing }

def step (s : LiveSummary) (event : SummaryEvent) : Option LiveSummary :=
  match event with
  | .writes => some { s with logged := s.logged + 1 }
  | .requests => some { s with requests := s.requests + 1 }.setDirty
  | .exits =>
      if s.exit = .inside then
        if s.worker = .absent then some { s with exit := .exited }
        else
          some { s.setStopping.setDirty with
            exit := .joining
            loggedAtExit := s.logged
            requestsAtExit := s.requests }
      else none
  | .resumes =>
      match s.exit with
      | .joining =>
          if s.worker = .done then
            some { s with
              exit := .finishing s.renders.length
              renders := s.renders ++ [{}] }
          else none
      | .finishing j =>
          (s.renders[j]?).bind fun r =>
            if r.stage = .finished then some { s with exit := .exited } else none
      | _ => none
  | .works =>
      match s.worker with
      | .created => some s.head
      | .paused => some s.head
      | .woken => some s.render
      | .rendering j =>
          (s.renders[j]?).bind fun r => if r.stage = .finished then some s.pause else none
      | _ => none
  | .timer => if s.worker = .pausing then some { s with worker := .paused } else none
  | .starts j =>
      (s.renders[j]?).bind fun r =>
        if r.stage = .queued then
          some { s with
            renders := s.renders.set j
              { r with stage := .running, requests := s.requests, logged := s.logged } }
        else none
  | .finishes j shown =>
      (s.renders[j]?).bind fun r =>
        if r.stage = .running ∧ ∀ n ∈ shown, r.logged ≤ n ∧ n ≤ s.logged then
          some { s with
            page := shown.or s.page
            renders := s.renders.set j { r with stage := .finished, shown } }
        else none

def Step (s : LiveSummary) (event : SummaryEvent) (t : LiveSummary) : Prop := s.step event = some t

/-- The worker's task is at a point of its loop where it does not wait. -/
def AtLoop (s : LiveSummary) : Prop :=
  s.worker = .created ∨ s.worker = .paused ∨ s.worker = .woken

/-- What each event has checked, and what it makes of the renderer. -/
inductive Stepped (s : LiveSummary) : SummaryEvent → LiveSummary → Prop where
  | writes : Stepped s .writes { s with logged := s.logged + 1 }
  | requests :
      Stepped s .requests
        { s with
          requests := s.requests + 1
          dirty := true
          worker := if s.dirty = false ∧ s.worker = .asleep then .woken else s.worker }
  | leaves (hinside : s.exit = .inside) (hworker : s.worker = .absent) :
      Stepped s .exits { s with exit := .exited }
  | exits (hinside : s.exit = .inside) (hworker : s.worker ≠ .absent) :
      Stepped s .exits
        { s with
          stopping := true
          dirty := true
          worker := s.setStopping.setDirty.worker
          exit := .joining
          loggedAtExit := s.logged
          requestsAtExit := s.requests }
  | joins (hexit : s.exit = .joining) (hworker : s.worker = .done) :
      Stepped s .resumes
        { s with
          exit := .finishing s.renders.length
          renders := s.renders ++ [{}] }
  | ends {j : Nat} {r : Render} (hexit : s.exit = .finishing j) (hr : s.renders[j]? = some r)
      (hfinished : r.stage = .finished) : Stepped s .resumes { s with exit := .exited }
  | stops (hloop : s.AtLoop) (hstopping : s.stopping = true) :
      Stepped s .works { s with worker := .done }
  | renders (hloop : s.AtLoop) (hstopping : s.stopping = false)
      (hdirty : s.worker = .woken ∨ s.dirty = true) :
      Stepped s .works
        { s with
          dirty := false
          worker := .rendering s.renders.length
          renders := s.renders ++ [{}] }
  | sleeps (hloop : s.AtLoop) (hstopping : s.stopping = false) (hdirty : s.dirty = false) :
      Stepped s .works { s with worker := .asleep }
  | pauses {j : Nat} {r : Render} (hworker : s.worker = .rendering j)
      (hr : s.renders[j]? = some r) (hfinished : r.stage = .finished) : Stepped s .works s.pause
  | timer (hworker : s.worker = .pausing) : Stepped s .timer { s with worker := .paused }
  | starts {j : Nat} {r : Render} (hr : s.renders[j]? = some r) (hqueued : r.stage = .queued) :
      Stepped s (.starts j)
        { s with
          renders := s.renders.set j
            { r with stage := .running, requests := s.requests, logged := s.logged } }
  | finishes {j : Nat} {r : Render} {shown : Option Nat} (hr : s.renders[j]? = some r)
      (hrunning : r.stage = .running) (hshown : ∀ n ∈ shown, r.logged ≤ n ∧ n ≤ s.logged) :
      Stepped s (.finishes j shown)
        { s with
          page := shown.or s.page
          renders := s.renders.set j { r with stage := .finished, shown } }

section Steps

variable {s t : LiveSummary} {e : SummaryEvent} {trace : List SummaryEvent}

theorem render_cases (hloop : s.AtLoop) (hdirty : s.worker = .woken ∨ s.dirty = true) :
    Stepped s .works s.render := by
  cases hstopping : s.stopping with
  | true =>
      rw [render, if_pos hstopping]
      exact .stops hloop hstopping
  | false =>
      rw [render, if_neg (by simp [hstopping])]
      exact .renders hloop hstopping hdirty

theorem head_cases (hloop : s.AtLoop) : Stepped s .works s.head := by
  cases hstopping : s.stopping with
  | true =>
      rw [head, if_pos hstopping]
      exact .stops hloop hstopping
  | false =>
      rw [head, if_neg (by simp [hstopping])]
      split
      · rename_i hdirty
        exact render_cases hloop (Or.inr hdirty)
      · rename_i hclean
        exact .sleeps hloop hstopping (Bool.eq_false_of_not_eq_true hclean)

theorem setDirty_eq (s : LiveSummary) :
    s.setDirty =
      { s with
        dirty := true
        worker := if s.dirty = false ∧ s.worker = .asleep then .woken else s.worker } := by
  obtain ⟨dirty, _, _, _, _, _, _, _, _, _⟩ := s
  cases dirty <;> simp [setDirty]

theorem setStopping_eq (s : LiveSummary) :
    s.setStopping =
      { s with
        stopping := true
        worker := if s.stopping = false ∧ s.worker = .pausing then .paused else s.worker } := by
  obtain ⟨_, stopping, _, _, _, _, _, _, _, _⟩ := s
  cases stopping <;> simp [setStopping]

theorem step_cases (h : s.step e = some t) : Stepped s e t := by
  rcases e with _ | _ | _ | _ | _ | _ | j | ⟨j, shown⟩
  · cases h
    exact .writes
  · simp only [step, setDirty_eq, Option.some.injEq] at h
    subst h
    exact .requests
  · simp only [step] at h
    split at h
    · rename_i hinside
      split at h
      · rename_i hworker
        cases h
        exact .leaves hinside hworker
      · rename_i hworker
        have hexits := Stepped.exits hinside hworker
        rw [setDirty_eq, setStopping_eq, Option.some.injEq] at h
        subst h
        rwa [setDirty_eq, setStopping_eq] at hexits
    · cases h
  · simp only [step] at h
    split at h
    · rename_i hexit
      split at h
      · rename_i hworker
        cases h
        exact .joins hexit hworker
      · cases h
    · rename_i hexit
      simp only [Option.bind_eq_some_iff, Option.ite_none_right_eq_some, Option.some.injEq] at h
      obtain ⟨r, hr, hfinished, rfl⟩ := h
      exact .ends hexit hr hfinished
    · cases h
  · simp only [step] at h
    split at h
    · rename_i hworker
      cases h
      exact head_cases (Or.inl hworker)
    · rename_i hworker
      cases h
      exact head_cases (Or.inr (Or.inl hworker))
    · rename_i hworker
      cases h
      exact render_cases (Or.inr (Or.inr hworker)) (Or.inl hworker)
    · rename_i hworker
      simp only [Option.bind_eq_some_iff, Option.ite_none_right_eq_some, Option.some.injEq] at h
      obtain ⟨r, hr, hfinished, rfl⟩ := h
      exact .pauses hworker hr hfinished
    · cases h
  · simp only [step, Option.ite_none_right_eq_some, Option.some.injEq] at h
    obtain ⟨hworker, rfl⟩ := h
    exact .timer hworker
  · simp only [step, Option.bind_eq_some_iff, Option.ite_none_right_eq_some, Option.some.injEq] at h
    obtain ⟨r, hr, hqueued, rfl⟩ := h
    exact .starts hr hqueued
  · simp only [step, Option.bind_eq_some_iff, Option.ite_none_right_eq_some, Option.some.injEq] at h
    obtain ⟨r, hr, ⟨hrunning, hshown⟩, rfl⟩ := h
    exact .finishes hr hrunning hshown

end Steps

end LiveSummary

end PlanetCharlu
