import PlanetCharlu.Commands

/-!
# The emergency part of the lifetime budget

`BaseStrategy` and `RestrainedTradingStrategy` keep the last `EMERGENCY_RESERVE`
request records for commands that save the station: withdrawals, accepted gifts,
accepted offers that net a critical resource, and purchases of one. Whatever else the
policies send leaves the reserve untouched, in every run.
-/

namespace PlanetCharlu

open Runs

namespace BaseStrategy

/-- The commands that may use the reserve. -/
inductive Emergency (st : StrategyState) (w : WorldView) : ClientMessage → Prop where
  | withdraw {runId rid offerId : String} : Emergency st w (.withdraw runId rid offerId)
  | acceptGift {runId rid : String} {o : Offer} (ho : o ∈ w.openOffersToMe)
      (hgift : o.isGift = true) : Emergency st w (.accept runId rid o.offerId)
  | acceptRescue {runId rid : String} {o : Offer} (ho : o ∈ w.openOffersToMe)
      (hnets : NetsCritical st w o.give o.receive) : Emergency st w (.accept runId rid o.offerId)
  | purchase {runId rid : String} {body : OfferBody} {need : Resource}
      (hcritical : need ∈ critical st w) (hbuys : 0 < quantity body.receive need) :
      Emergency st w (.offer runId rid body)

section

variable {p : Policy} {st : StrategyState} {w : WorldView}

/-- **Every move is an emergency or within the routine budget.** -/
theorem Move.emergency_or_routine {key : Key} {m : ClientMessage} (h : Move p st w key m) :
    Emergency st w m ∨ routineOk st w = true := by
  cases h with
  | withdraw hrisky ho => exact Or.inl .withdraw
  | accept hsafe ho =>
      rcases ho.reasoned with hgift | hobjection
      · exact Or.inl (.acceptGift ho.incoming hgift)
      · obtain ⟨-, -, -, hroutine | hrescue⟩ := tradeObjection_eq_none.mp hobjection
        · exact Or.inr hroutine
        · exact Or.inl (.acceptRescue ho.incoming (netsCritical_eq_true.mp hrescue))
  | advertise hsafe hroutine => exact Or.inr hroutine
  | @purchase rid ad need payment hsafe hcan hpurchase =>
      rcases hpurchase.rationed with hcritical | hroutine
      · refine Or.inl (.purchase hcritical ?_)
        rw [purchaseBody, quantity_bundleOf_self]
        exact hpurchase.positive
      · exact Or.inr hroutine
  | gift hsafe hcan hgift => exact Or.inr hgift.rationed

end

end BaseStrategy

open BaseStrategy

theorem Strategy.Decided.emergency_or_routine {policy : Strategy} (hlearning : policy ≠ .simplified)
    {st : StrategyState} {w : WorldView} {d : Decision} (h : policy.Decided st w d) :
    Emergency st w d.message ∨ routineOk st w = true := by
  have hmove := h.move
  cases policy with
  | base => exact hmove.emergency_or_routine
  | restrained => exact hmove.emergency_or_routine
  | simplified => exact absurd rfl hlearning

namespace Runner

section Law

variable {policy : Strategy} {w₀ : WorldView} {trace : List RunnerEvent} {r : Runner}

/-- **The emergency part of the budget is never spent on routine work.** At every
decision of a run, `sent_total` counts the results the first snapshot stored and the
decisions before; if at most `EMERGENCY_RESERVE` records are left, the command is an
emergency; and a command that is none leaves `EMERGENCY_RESERVE` records free. -/
theorem emergency_budget_kept (hlearning : policy ≠ .simplified)
    (hrun : Run (Step policy) (start w₀) trace r) :
    ∀ pre st w d post, r.history = pre ++ .chose st w (some d) :: post →
      st.sentTotal = w₀.requestResults.length + (commandsOf pre).length ∧
      ((w.rules.maxRequestRecordsPerStation : ℤ) - max st.sentTotal w.requestResults.length ≤
          EMERGENCY_RESERVE → Emergency st w d.message) ∧
      (¬ Emergency st w d.message →
        (max (st.record d).sentTotal w.requestResults.length : ℕ) ≤
          (w.rules.maxRequestRecordsPerStation : ℤ) - EMERGENCY_RESERVE) := by
  intro pre st w d post hsplit
  have hrecorded := run_recorded hrun
  have hmem : .chose st w (some d) ∈ r.history := by simp [hsplit]
  have hration := (hrecorded.decided st w d hmem).2.emergency_or_routine hlearning
  have hroutine : ¬ Emergency st w d.message →
      st.usedRecords w + EMERGENCY_RESERVE < w.rules.maxRequestRecordsPerStation := by
    intro hnot
    exact routineOk_eq_true.mp (hration.resolve_left hnot)
  unfold StrategyState.usedRecords at hroutine
  refine ⟨hrecorded.numbered pre st w (some d) post hsplit, ?_, ?_⟩
  · intro hleft
    by_contra hnot
    have hused := hroutine hnot
    omega
  · intro hnot
    have hused := hroutine hnot
    rw [StrategyState.record_sentTotal]
    omega

end Law

theorem emergency_budget_kept_sample :
    ∃ r, Run (Step .base) (start .sample) sampleTrace r ∧ r.history.length = 3 ∧
      ∀ pre st w d post, r.history = pre ++ .chose st w (some d) :: post →
        ¬ Emergency st w d.message →
          (max (st.record d).sentTotal w.requestResults.length : ℕ) ≤
            (w.rules.maxRequestRecordsPerStation : ℤ) - EMERGENCY_RESERVE := by
  obtain ⟨r, hrun, hlength⟩ := run_sampleTrace
  refine ⟨r, hrun, hlength, ?_⟩
  intro pre st w d post hsplit
  exact (emergency_budget_kept (by decide) hrun pre st w d post hsplit).2.2

end Runner

end PlanetCharlu
