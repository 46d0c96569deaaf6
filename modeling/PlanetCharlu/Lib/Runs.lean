import Mathlib

/-!
# Runs of a labelled transition relation

A system is a step relation `step : σ → ε → σ → Prop` on states `σ` with labels
`ε` (what the environment or the scheduler did). A run records the labels it
took, so that a property may speak about everything that happened, and an
invariant may use an assumption on the labels alone.
-/

namespace Runs

variable {σ ε : Type*}

/-- `Run step s₀ trace s`: performing the labels of `trace` in order leads from
`s₀` to `s`. -/
inductive Run (step : σ → ε → σ → Prop) (s₀ : σ) : List ε → σ → Prop where
  | start : Run step s₀ [] s₀
  | next {trace : List ε} {s t : σ} {e : ε} :
      Run step s₀ trace s → step s e t → Run step s₀ (trace ++ [e]) t

variable {step : σ → ε → σ → Prop} {s₀ s t : σ} {trace : List ε}

/-- A run goes on from where another one ended. -/
theorem Run.append {more : List ε} (hrun : Run step s₀ trace s) (hmore : Run step s more t) :
    Run step s₀ (trace ++ more) t := by
  induction hmore with
  | start => rwa [List.append_nil]
  | next _ hst ih =>
      rw [← List.append_assoc]
      exact .next ih hst

/-- A run of some of the steps is a run of all of them. -/
theorem Run.mono {step' : σ → ε → σ → Prop} (hrun : Run step s₀ trace s)
    (h : ∀ s e t, step s e t → step' s e t) : Run step' s₀ trace s := by
  induction hrun with
  | start => exact .start
  | next _ hst ih => exact .next ih (h _ _ _ hst)

/-- The invariant rule: what holds at the start and survives every step whose
label is admissible holds after every run of admissible labels. -/
theorem Run.invariant {P : σ → Prop} {A : ε → Prop} (hrun : Run step s₀ trace s)
    (hlabels : ∀ e ∈ trace, A e) (hstart : P s₀)
    (hstep : ∀ s e t, P s → A e → step s e t → P t) : P s := by
  induction hrun with
  | start => exact hstart
  | @next trace s t e hrun hst ih =>
      have hs : P s := ih fun e' he' => hlabels e' (List.mem_append_left _ he')
      exact hstep s e t hs (hlabels e (by simp)) hst

/-- The invariant rule for a property of the trace together with the state. -/
theorem Run.traceInvariant {P : List ε → σ → Prop} (hrun : Run step s₀ trace s)
    (hstart : P [] s₀)
    (hstep : ∀ trace s e t, Run step s₀ trace s → P trace s → step s e t →
      P (trace ++ [e]) t) : P trace s := by
  induction hrun with
  | start => exact hstart
  | @next trace s t e hrun hst ih => exact hstep trace s e t hrun ih hst

/-- A label of a run was performed after the run of the labels before it. -/
theorem Run.exists_before {before after : List ε} {e : ε}
    (hrun : Run step s₀ (before ++ e :: after) t) : ∃ r s, Run step s₀ before r ∧ step r e s := by
  generalize htrace : before ++ e :: after = trace at hrun
  induction hrun generalizing after with
  | start => exact absurd htrace (by simp)
  | @next trace s t e' hrun hst ih =>
      rcases List.eq_nil_or_concat after with rfl | ⟨rest, last, rfl⟩
      · obtain ⟨rfl, hlast⟩ := List.append_inj' htrace rfl
        cases hlast
        exact ⟨s, t, hrun, hst⟩
      · rw [List.concat_eq_append, ← List.cons_append, ← List.append_assoc] at htrace
        exact ih (List.append_inj' htrace rfl).1

/-! ### Runs that come to an end -/

/-- Where the steps of one kind make a measure smaller and no other admissible step makes
it larger, a run has no more steps of that kind than the measure allows. -/
theorem Run.countP_add_measure_le {kind : ε → Bool} {A : ε → Prop} {P : σ → Prop}
    (measure : σ → ℕ) (hrun : Run step s₀ trace s) (hlabels : ∀ e ∈ trace, A e) (hstart : P s₀)
    (hkeeps : ∀ s e t, P s → A e → step s e t → P t)
    (hkind : ∀ s e t, P s → kind e = true → step s e t → measure t < measure s)
    (hother : ∀ s e t, P s → A e → kind e = false → step s e t → measure t ≤ measure s) :
    trace.countP kind + measure s ≤ measure s₀ := by
  induction hrun with
  | start => simp
  | @next trace s t e hrun hst ih =>
      have hbefore : ∀ e' ∈ trace, A e' := fun e' he' => hlabels e' (List.mem_append_left _ he')
      have he : A e := hlabels e (by simp)
      have hs : P s := hrun.invariant hbefore hstart hkeeps
      have hcount := ih hbefore
      rw [List.countP_append]
      cases hkind' : kind e with
      | true =>
          have hless := hkind s e t hs hkind' hst
          simp only [List.countP_singleton, hkind', if_true]
          omega
      | false =>
          have hle := hother s e t hs he hkind' hst
          simp only [List.countP_singleton, hkind', Bool.false_eq_true, if_false]
          omega

/-- A sum of measures gets smaller with one of its terms. -/
theorem sum_map_set_lt {α : Type*} {measure : α → ℕ} {l : List α} {i : ℕ} {x y : α}
    (hx : l[i]? = some x) (hlt : measure y < measure x) :
    ((l.set i y).map measure).sum < (l.map measure).sum := by
  induction l generalizing i with
  | nil => simp at hx
  | cons z rest ih =>
      cases i with
      | zero =>
          simp only [List.getElem?_cons_zero, Option.some.injEq] at hx
          subst hx
          simpa using hlt
      | succ i =>
          simp only [List.getElem?_cons_succ] at hx
          simpa using ih hx

/-! ### Executable steps -/

/-- Perform labels with a step function, as far as it allows. -/
def replay (next : σ → ε → Option σ) (s : σ) (trace : List ε) : Option σ :=
  trace.foldlM next s

/-- A replay that gets through is a run. -/
theorem run_of_replay {next : σ → ε → Option σ} (hnext : ∀ s e t, next s e = some t → step s e t)
    (h : replay next s₀ trace = some s) : Run step s₀ trace s := by
  induction trace using List.reverseRecOn generalizing s with
  | nil =>
      cases h
      exact .start
  | append_singleton trace e ih =>
      rw [replay, List.foldlM_append, Option.bind_eq_bind, Option.bind_eq_some_iff] at h
      obtain ⟨r, hr, hlast⟩ := h
      refine .next (ih hr) (hnext r e s ?_)
      simpa using hlast

end Runs
