import PlanetCharlu.RunnerEffects

/-!
# The commands of a run

Every command the runner sends was decided on a snapshot, by the strategy in a state
that allowed it, and was recorded before it was sent. `sent_total` is the number of
results the first snapshot stored plus the number of decisions, whether or not a
command reached the server. What goes over the wire besides `sync` is decided
messages, in their order, each at most once.
-/

namespace PlanetCharlu

open Runs

/-- The command that an observation decides on, with the snapshot it was decided on. -/
def Observation.command? : Observation → Option (WorldView × Decision)
  | .chose _ world (some action) => some (world, action)
  | _ => none

def commandsOf (history : List Observation) : List (WorldView × Decision) :=
  history.filterMap Observation.command?

section

variable (history : List Observation) (st : StrategyState) (w : WorldView) (d : Decision)

@[simp] theorem commandsOf_answered (o : CommandOutcome) :
    commandsOf (history ++ [.answered w d o]) = commandsOf history := by
  simp [commandsOf, Observation.command?]

@[simp] theorem commandsOf_waited :
    commandsOf (history ++ [.chose st w none]) = commandsOf history := by
  simp [commandsOf, Observation.command?]

@[simp] theorem commandsOf_decided :
    commandsOf (history ++ [.chose st w (some d)]) = commandsOf history ++ [(w, d)] := by
  simp [commandsOf, Observation.command?]

end

theorem mem_commandsOf {history : List Observation} {c : WorldView × Decision} :
    c ∈ commandsOf history ↔ ∃ st, .chose st c.1 (some c.2) ∈ history := by
  rw [commandsOf, List.mem_filterMap]
  constructor
  · rintro ⟨observation, hmem, hcommand⟩
    rcases observation with ⟨st, w, _ | d⟩ | ⟨w, d, o⟩
    · cases hcommand
    · cases hcommand
      exact ⟨st, hmem⟩
    · cases hcommand
  · rintro ⟨st, hmem⟩
    exact ⟨_, hmem, rfl⟩

/-- The last decision there is. -/
theorem exists_last_command {history : List Observation} (h : commandsOf history ≠ []) :
    ∃ pre st w d post, history = pre ++ .chose st w (some d) :: post ∧
      (commandsOf history).length = (commandsOf pre).length + 1 := by
  induction history using List.reverseRecOn with
  | nil => exact absurd rfl h
  | append_singleton history observation ih =>
      -- An observation that decides nothing only makes the rest longer.
      have hskip : commandsOf (history ++ [observation]) = commandsOf history →
          ∃ pre st w d post, history ++ [observation] = pre ++ .chose st w (some d) :: post ∧
            (commandsOf (history ++ [observation])).length = (commandsOf pre).length + 1 := by
        intro hsame
        rw [hsame] at h ⊢
        obtain ⟨pre, st, w, d, post, hsplit, hlength⟩ := ih h
        exact ⟨pre, st, w, d, post ++ [observation], by simp [hsplit], hlength⟩
      rcases observation with ⟨st, w, _ | d⟩ | ⟨w, d, o⟩
      · exact hskip (commandsOf_waited _ _ _)
      · exact ⟨history, st, w, d, [], rfl, by simp⟩
      · exact hskip (commandsOf_answered _ _ _ _)

/-- A `sync` message asks for a snapshot; every other one is a command. -/
def ClientMessage.isCommand : ClientMessage → Bool
  | .sync _ => false
  | _ => true

namespace Strategy

variable {policy : Strategy} {env : ChooseEnv} {st st' : StrategyState} {w : WorldView}
  {action : Option Decision}

/-- A decision does not change what has been sent. -/
theorem choose_sentTotal (h : policy.choose env st w = .ok (st', action)) :
    st'.sentTotal = st.sentTotal := by
  rw [(choose_attempts h).sentTotal]
  unfold StrategyState.enterTick
  split <;> rfl

/-- An outcome changes the accounting in the backoff only. -/
theorem noteOutcome_attempts (policy : Strategy) (st : StrategyState) (w : WorldView)
    (d : Decision) (o : CommandOutcome) (started : ℚ) :
    (policy.noteOutcome st w d o started).tick = st.tick ∧
    (policy.noteOutcome st w d o started).attempted = st.attempted ∧
    (policy.noteOutcome st w d o started).sentThisTick = st.sentThisTick ∧
    (policy.noteOutcome st w d o started).sentTotal = st.sentTotal ∧
    (policy.noteOutcome st w d o started).retryTick =
      if o.code = .RATE_LIMITED then max (w.tick + 1) (o.retryAfterTick.getD 0)
      else st.retryTick := by
  unfold noteOutcome
  dsimp only
  repeat' split
  all_goals exact ⟨rfl, rfl, rfl, rfl, rfl⟩

end Strategy

namespace Runner

def commands (r : Runner) : List (WorldView × Decision) := commandsOf r.history

/-- The commands handed to the connection. -/
def sentCommands (r : Runner) : List ClientMessage := r.session.sent.filter ClientMessage.isCommand

section Recording

variable {policy : Strategy} {w₀ : WorldView} {S : List WorldView} {trace : List RunnerEvent}
  {e : RunnerEvent} {r t : Runner}

/-- What the history says about decisions: each was made by the strategy on a
snapshot of the run, with the count of commands it had then. -/
structure Recorded (policy : Strategy) (w₀ : WorldView) (S : List WorldView) (r : Runner) :
    Prop where
  seen : r.session.world ∈ S
  decided : ∀ st w d, .chose st w (some d) ∈ r.history → w ∈ S ∧ policy.Decided st w d
  total : r.strategy.sentTotal = w₀.requestResults.length + r.commands.length
  numbered : ∀ pre st w action post, r.history = pre ++ .chose st w action :: post →
    st.sentTotal = w₀.requestResults.length + (commandsOf pre).length

namespace Recorded

/-- Nothing is decided. -/
theorem move (h : Recorded policy w₀ S r) (hseen : t.session.world ∈ S)
    (hhistory : t.history = r.history) (htotal : t.strategy.sentTotal = r.strategy.sentTotal) :
    Recorded policy w₀ S t := by
  refine ⟨hseen, ?_, ?_, ?_⟩
  · rw [hhistory]
    exact h.decided
  · rw [htotal, commands, hhistory]
    exact h.total
  · rw [hhistory]
    exact h.numbered

/-- One more observation. -/
theorem observe (h : Recorded policy w₀ S r) {observation : Observation}
    (hworld : t.session.world = r.session.world)
    (hhistory : t.history = r.history ++ [observation])
    (hdecided : ∀ st w d, observation = .chose st w (some d) → w ∈ S ∧ policy.Decided st w d)
    (htotal : t.strategy.sentTotal = w₀.requestResults.length + t.commands.length)
    (hnumber : ∀ st w action, observation = .chose st w action →
      st.sentTotal = r.strategy.sentTotal) : Recorded policy w₀ S t := by
  refine ⟨by rw [hworld]; exact h.seen, ?_, htotal, ?_⟩
  · intro st w d hmem
    rw [hhistory, List.mem_append, List.mem_singleton] at hmem
    rcases hmem with hmem | hnew
    · exact h.decided st w d hmem
    · exact hdecided st w d hnew.symm
  · intro pre st w action post hsplit
    rw [hhistory] at hsplit
    rcases List.eq_nil_or_concat post with rfl | ⟨post', last, rfl⟩
    · -- The new observation itself.
      obtain ⟨rfl, hlast⟩ := List.append_inj' hsplit rfl
      cases hlast
      rw [hnumber st w action rfl]
      exact h.total
    · rw [List.concat_eq_append, ← List.cons_append, ← List.append_assoc] at hsplit
      obtain ⟨hbefore, -⟩ := List.append_inj' hsplit rfl
      exact h.numbered pre st w action post' hbefore

theorem effect (h : Recorded policy w₀ S r) (hseen : ∀ w, e.snapshot? = some w → w ∈ S)
    (heff : Effect policy e r t) : Recorded policy w₀ S t := by
  cases heff with
  | @session s hworld hsent =>
      refine h.move ?_ rfl rfl
      rcases hworld with hworld | ⟨hdelivered, -⟩
      · rw [hworld]
        exact h.seen
      · exact hseen s.world hdelivered
  | begin hpc hworld hsent =>
      refine h.move ?_ rfl rfl
      rw [hworld]
      exact h.seen
  | sync hpc => exact h.move h.seen rfl rfl
  | reconcile hpc hincludes => exact h.move h.seen rfl rfl
  | raise error => exact h.move h.seen rfl rfl
  | wake hpc hnewer => exact h.move h.seen rfl rfl
  | @note w d started c o hpc hid =>
      refine h.observe rfl rfl ?_ ?_ ?_
      · intro st w d hchose
        cases hchose
      · simpa [commands, Strategy.noteOutcome_attempts] using h.total
      · intro st w action hchose
        cases hchose
  | complete elapsed hpc =>
      refine h.move h.seen rfl ?_
      exact (BaseStrategy.sameAttempts_observeLatency r.strategy elapsed).sentTotal
  | finish hpc hfinal => exact h.move h.seen rfl rfl
  | wait _ hpc hchoose =>
      refine h.observe rfl rfl ?_ ?_ ?_
      · intro st w d hchose
        cases hchose
      · simpa [commands, Strategy.choose_sentTotal hchoose] using h.total
      · intro st w action hchose
        cases hchose
        exact Strategy.choose_sentTotal hchoose
  | decide _ hpc hchoose =>
      refine h.observe rfl rfl ?_ ?_ ?_
      · intro st w d hchose
        cases hchose
        exact ⟨h.seen, Strategy.choose_decided hchoose⟩
      · have htotal := h.total
        simp only [commands] at htotal ⊢
        rw [commandsOf_decided, StrategyState.record_sentTotal, Strategy.choose_sentTotal hchoose,
          List.length_append, List.length_singleton]
        omega
      · intro st w action hchose
        cases hchose
        exact Strategy.choose_sentTotal hchoose

end Recorded

theorem run_recorded (hrun : Run (Step policy) (start w₀) trace r) :
    Recorded policy w₀ (w₀ :: snapshots trace) r := by
  apply run_invariant (owns_start w₀) hrun
  · refine ⟨List.mem_cons_self, ?_, rfl, ?_⟩
    · intro st w d hmem
      cases hmem
    · intro pre st w action post hsplit
      simp [start] at hsplit
  · intro e r t he h heff
    exact h.effect (fun w hw => List.mem_cons_of_mem w₀ (mem_snapshots he hw)) heff

/-! ### On the wire -/

/-- The commands sent are decided messages in their order; while the task of the last
one has not begun, that message is still to come. -/
structure InOrder (r : Runner) : Prop where
  sent : r.sentCommands.Sublist (r.commands.map fun c => c.2.message)
  next : ∀ w d started, r.pc = .sending w d started none →
    (r.sentCommands ++ [d.message]).Sublist (r.commands.map fun c => c.2.message)

namespace InOrder

/-- Neither a command nor a decision. -/
theorem move (h : InOrder r) (hsent : t.sentCommands = r.sentCommands)
    (hcommands : t.commands = r.commands)
    (hpc : ∀ w d started, t.pc = .sending w d started none → r.pc = .sending w d started none) :
    InOrder t := by
  refine ⟨?_, ?_⟩
  · rw [hsent, hcommands]
    exact h.sent
  · intro w d started hsending
    rw [hsent, hcommands]
    exact h.next w d started (hpc w d started hsending)

theorem effect (h : InOrder r) (heff : Effect policy e r t) : InOrder t := by
  cases heff with
  | @session s hworld hsent =>
      refine h.move ?_ rfl fun w d started hpc => hpc
      simp only [sentCommands]
      rw [hsent]
  | @begin s w d started c hpc hworld hsent =>
      have hnext := h.next w d started hpc
      constructor
      · rcases hsent with hsent | hsent
        · simp only [sentCommands, hsent]
          exact h.sent
        · -- The message of the decision goes out.
          simp only [sentCommands, hsent, List.filter_append]
          refine List.Sublist.trans ?_ hnext
          exact (List.Sublist.refl _).append List.filter_sublist
      · intro w' d' started' hsending
        cases hsending
  | sync hpc =>
      refine h.move ?_ rfl ?_
      · simp [sentCommands, Runner.sync, ClientMessage.isCommand, Codec.buildSync]
      · intro w d started hsending
        cases hsending
  | reconcile hpc hincludes => exact h.move rfl rfl (by simp)
  | raise error => exact h.move rfl rfl (by simp [Runner.raise])
  | wake hpc hnewer => exact h.move rfl rfl (by simp)
  | note hpc hid => exact h.move rfl (by simp [commands]) (by simp)
  | complete elapsed hpc => exact h.move rfl rfl (by simp)
  | finish hpc hfinal => exact h.move rfl rfl (by simp)
  | wait _ hpc hchoose => exact h.move rfl (by simp [commands]) (by simp)
  | @decide reads st d _ hpc hchoose =>
      have hcommands : ∀ l : List ClientMessage, l.Sublist (r.commands.map fun c => c.2.message) →
          (l ++ [d.message]).Sublist
            ((commandsOf (r.history ++ [.chose st r.session.world (some d)])).map
              fun c => c.2.message) := by
        intro l hl
        rw [commandsOf_decided, List.map_append]
        exact hl.append (List.Sublist.refl _)
      constructor
      · exact (List.sublist_append_left _ _).trans (hcommands _ h.sent)
      · intro w d' started' hsending
        cases hsending
        exact hcommands _ h.sent

end InOrder

/-- **Only decided commands are sent, in order and at most once each.** -/
theorem run_inOrder (hrun : Run (Step policy) (start w₀) trace r) : InOrder r := by
  apply run_invariant (owns_start w₀) hrun
  · refine ⟨List.nil_sublist _, ?_⟩
    intro w d started hsending
    cases hsending
  · intro e r t _ h heff
    exact h.effect heff

end Recording

end Runner

end PlanetCharlu
