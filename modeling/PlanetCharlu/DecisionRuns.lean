import PlanetCharlu.Commands

/-!
# Runs of decisions

A strategy object is used by calling `choose` and recording what it returns; between
two calls the runner notes a backoff, a latency or the time of a pending trade. A law
about sequences of decisions is one about such runs, from a fresh object on, whoever
makes the calls. The history of every run of the trading loop is one.
-/

namespace PlanetCharlu

open Runs

/-- Two states of a strategy that differ only in what the runner notes about outcomes,
and in the offer review. -/
structure SameMemory (a b : StrategyState) : Prop where
  tick : b.tick = a.tick
  attempted : b.attempted = a.attempted
  sentThisTick : b.sentThisTick = a.sentThisTick
  sentTotal : b.sentTotal = a.sentTotal
  partnerTurn : b.partnerTurn = a.partnerTurn
  lastAdTick : b.lastAdTick = a.lastAdTick
  knownSuppliers : b.knownSuppliers = a.knownSuppliers
  seenTransactions : b.seenTransactions = a.seenTransactions

namespace SameMemory

variable {a b c : StrategyState}

theorem refl (a : StrategyState) : SameMemory a a := ⟨rfl, rfl, rfl, rfl, rfl, rfl, rfl, rfl⟩

theorem trans (hab : SameMemory a b) (hbc : SameMemory b c) : SameMemory a c :=
  ⟨hbc.tick.trans hab.tick, hbc.attempted.trans hab.attempted,
    hbc.sentThisTick.trans hab.sentThisTick, hbc.sentTotal.trans hab.sentTotal,
    hbc.partnerTurn.trans hab.partnerTurn, hbc.lastAdTick.trans hab.lastAdTick,
    hbc.knownSuppliers.trans hab.knownSuppliers, hbc.seenTransactions.trans hab.seenTransactions⟩

theorem observeLatency (st : StrategyState) (seconds : ℚ) :
    SameMemory st (st.observeLatency seconds) := by
  unfold StrategyState.observeLatency
  split
  · exact ⟨rfl, rfl, rfl, rfl, rfl, rfl, rfl, rfl⟩
  · exact .refl st

theorem noteOutcome (policy : Strategy) (st : StrategyState) (w : WorldView) (d : Decision)
    (o : CommandOutcome) (started : ℚ) : SameMemory st (policy.noteOutcome st w d o started) := by
  unfold Strategy.noteOutcome
  dsimp only
  repeat' split
  all_goals exact ⟨rfl, rfl, rfl, rfl, rfl, rfl, rfl, rfl⟩

end SameMemory

/-- A returned decision is recorded. -/
def StrategyState.recorded (st : StrategyState) : Option Decision → StrategyState
  | none => st
  | some d => st.record d

/-- One use of a strategy object, where a message is encoded to `size` bytes. -/
inductive Strategy.Uses (s : Strategy) (size : ClientMessage → Nat) :
    StrategyState → Observation → StrategyState → Prop where
  | chose {st st₀ st' : StrategyState} {env : ChooseEnv} {w : WorldView} {action : Option Decision}
      (hencoded : env.encodedLength = size) (hmemory : SameMemory st st₀)
      (hchoose : s.choose env st₀ w = .ok (st', action)) :
      Uses s size st (.chose st' w action) (st'.recorded action)
  | answered {st st' : StrategyState} {w : WorldView} {d : Decision} {outcome : CommandOutcome}
      (hmemory : SameMemory st st') : Uses s size st (.answered w d outcome) st'

/-- **The history of the trading loop is a run of decisions.** -/
theorem Runner.run_uses {policy : Strategy} {size : ClientMessage → Nat} {w₀ : WorldView}
    {trace : List RunnerEvent} {r : Runner}
    (hrun : Run (Runner.Step policy) (Runner.start w₀) trace r)
    (hencoded : ∀ reads, .runs reads ∈ trace → reads.env.encodedLength = size) :
    ∃ st, Run (policy.Uses size) { sentTotal := w₀.requestResults.length } r.history st ∧
      SameMemory st r.strategy := by
  apply Runner.run_invariant (P := fun r => ∃ st,
    Run (policy.Uses size) { sentTotal := w₀.requestResults.length } r.history st ∧
      SameMemory st r.strategy) (Runner.owns_start w₀) hrun
  · exact ⟨_, .start, .refl _⟩
  · rintro e r t he ⟨st, huses, hmemory⟩ heffect
    cases heffect with
    | @note w d started _ o _ _ =>
        have hnoted := hmemory.trans (.noteOutcome policy r.strategy w d o started)
        exact ⟨_, .next huses (.answered hnoted), .refl _⟩
    | complete elapsed _ => exact ⟨st, huses, hmemory.trans (.observeLatency _ elapsed)⟩
    | @wait reads _ hreads _ hchoose =>
        have hsize := hencoded reads (hreads ▸ he)
        exact ⟨_, .next huses (.chose hsize hmemory hchoose), .refl _⟩
    | @decide reads _ _ hreads _ hchoose =>
        have hsize := hencoded reads (hreads ▸ he)
        exact ⟨_, .next huses (.chose hsize hmemory hchoose), .refl _⟩
    | _ => exact ⟨st, huses, hmemory⟩

end PlanetCharlu
