import PlanetCharlu.Lib.Runs

/-!
# Computations that act, return and raise

A computation is the set of its behaviours. A behaviour is what has been done so far and
how the computation stands; one that still runs may be cut off at any moment, so what holds
of all behaviours holds at all times. Exceptions pass through everything but a handler, and
a `finally` clause runs however its body ends.

A triple says that a transition system follows a computation: from every state with the
precondition the actions are a run of the system, which ends where the invariant holds, one
assertion after a return and another after an exception.
-/

namespace Computations

open Runs

variable {σ ε α β S : Type}

/-- How a computation stands. -/
inductive Outcome (ε α : Type) where
  | running
  | returned (value : α)
  | raised (error : ε)

def Computation (σ ε α : Type) : Type := List σ → Outcome ε α → Prop

namespace Computation

inductive Returning (a : α) : List σ → Outcome ε α → Prop where
  | running : Returning a [] .running
  | returned : Returning a [] (.returned a)

inductive Sequenced (m : Computation σ ε α) (f : α → Computation σ ε β) :
    List σ → Outcome ε β → Prop where
  | running {t : List σ} (h : m t .running) : Sequenced m f t .running
  | raised {t : List σ} {e : ε} (h : m t (.raised e)) : Sequenced m f t (.raised e)
  | next {t t' : List σ} {a : α} {o : Outcome ε β} (h : m t (.returned a)) (hnext : f a t' o) :
      Sequenced m f (t ++ t') o

instance : Monad (Computation σ ε) where
  pure a := Returning a
  bind m f := Sequenced m f

/-- `raise e`. -/
inductive Raising (e : ε) : List σ → Outcome ε α → Prop where
  | running : Raising e [] .running
  | raised : Raising e [] (.raised e)

def raises (e : ε) : Computation σ ε α := Raising e

/-- What an awaited operation does that is one action. It may raise once it has acted. -/
inductive Performing (x : σ) (errors : ε → Prop) : List σ → Outcome ε Unit → Prop where
  | running : Performing x errors [] .running
  | acting : Performing x errors [x] .running
  | returned : Performing x errors [x] (.returned ())
  | raised {e : ε} (he : errors e) : Performing x errors [x] (.raised e)

def performs (x : σ) (errors : ε → Prop) : Computation σ ε Unit := Performing x errors

/-- An operation with a result that acts when it succeeds and raises before it acts. -/
inductive Attempting (x : α → σ) (results : α → Prop) (errors : ε → Prop) :
    List σ → Outcome ε α → Prop where
  | running : Attempting x results errors [] .running
  | acting {a : α} (ha : results a) : Attempting x results errors [x a] .running
  | returned {a : α} (ha : results a) : Attempting x results errors [x a] (.returned a)
  | raised {e : ε} (he : errors e) : Attempting x results errors [] (.raised e)

def attempts (x : α → σ) (results : α → Prop) (errors : ε → Prop) : Computation σ ε α :=
  Attempting x results errors

/-- `try: … finally: …`. An exception of the clause replaces what the body left with. -/
inductive Finishing (m : Computation σ ε α) (clause : Computation σ ε Unit) :
    List σ → Outcome ε α → Prop where
  | running {t : List σ} (h : m t .running) : Finishing m clause t .running
  | returned {t t' : List σ} {a : α} {o : Outcome ε Unit} (h : m t (.returned a))
      (hclause : clause t' o) : Finishing m clause (t ++ t')
        (match o with
          | .running => .running
          | .returned _ => .returned a
          | .raised e => .raised e)
  | raised {t t' : List σ} {e : ε} {o : Outcome ε Unit} (h : m t (.raised e))
      (hclause : clause t' o) : Finishing m clause (t ++ t')
        (match o with
          | .running => .running
          | .returned _ => .raised e
          | .raised e' => .raised e')

def tryFinally (m : Computation σ ε α) (clause : Computation σ ε Unit) : Computation σ ε α :=
  Finishing m clause

/-- The task of a computation may be cancelled wherever it runs. -/
inductive Interrupting (m : Computation σ ε α) (e : ε) : List σ → Outcome ε α → Prop where
  | undisturbed {t : List σ} {o : Outcome ε α} (h : m t o) : Interrupting m e t o
  | interrupted {t : List σ} (h : m t .running) : Interrupting m e t (.raised e)

def interruptible (m : Computation σ ε α) (e : ε) : Computation σ ε α := Interrupting m e

end Computation

/-! ### Triples -/

/-- `I` holds while the computation runs, `Q` when it returns and `E` when it raises. -/
def Assertion (I : S → Prop) (Q : α → S → Prop) (E : ε → S → Prop) : Outcome ε α → S → Prop
  | .running => I
  | .returned a => Q a
  | .raised e => E e

/-- The system `step` follows every behaviour from a state of `P`. -/
def Triple (step : S → σ → S → Prop) (P : S → Prop) (m : Computation σ ε α) (I : S → Prop)
    (Q : α → S → Prop) (E : ε → S → Prop) : Prop :=
  ∀ s t o, P s → m t o → ∃ s', Run step s t s' ∧ Assertion I Q E o s'

namespace Triple

variable {step : S → σ → S → Prop} {P P' I I' : S → Prop} {Q Q' : α → S → Prop}
  {R : β → S → Prop} {E E' : ε → S → Prop} {m : Computation σ ε α}
  {f : α → Computation σ ε β} {x : σ} {e : ε}

theorem consequence (h : Triple step P m I Q E) (hP : ∀ s, P' s → P s)
    (hI : ∀ s, I s → I' s) (hQ : ∀ a s, Q a s → Q' a s) (hE : ∀ e s, E e s → E' e s) :
    Triple step P' m I' Q' E' := by
  intro s t o hs hm
  obtain ⟨s', hrun, hend⟩ := h s t o (hP s hs) hm
  refine ⟨s', hrun, ?_⟩
  cases o with
  | running => exact hI s' hend
  | returned a => exact hQ a s' hend
  | raised e => exact hE e s' hend

theorem pre (h : Triple step P m I Q E) (hP : ∀ s, P' s → P s) : Triple step P' m I Q E :=
  h.consequence hP (fun _ hs => hs) (fun _ _ hs => hs) fun _ _ hs => hs

theorem post (h : Triple step P m I Q E) (hQ : ∀ a s, Q a s → Q' a s) :
    Triple step P m I Q' E :=
  h.consequence (fun _ hs => hs) (fun _ hs => hs) hQ fun _ _ hs => hs

/-- One state at a time. -/
theorem of_forall (h : ∀ s, P s → Triple step (· = s) m I Q E) : Triple step P m I Q E := by
  intro s t o hs hm
  exact h s hs s t o rfl hm

theorem pure {a : α} (hI : ∀ s, P s → I s) (hQ : ∀ s, P s → Q a s) :
    Triple step P (Pure.pure a : Computation σ ε α) I Q E := by
  rintro s t o hs (_ | _)
  · exact ⟨s, .start, hI s hs⟩
  · exact ⟨s, .start, hQ s hs⟩

theorem raises (hI : ∀ s, P s → I s) (hE : ∀ s, P s → E e s) :
    Triple step P (Computation.raises e : Computation σ ε α) I Q E := by
  rintro s t o hs (_ | _)
  · exact ⟨s, .start, hI s hs⟩
  · exact ⟨s, .start, hE s hs⟩

theorem run_single {s s' : S} (h : step s x s') : Run step s [x] s' := by
  have hnone : Run step s [] s := .start
  exact hnone.next h

/-- The system takes the one action, to a state where all three assertions hold. -/
theorem performs {errors : ε → Prop} {Q : Unit → S → Prop} (hI : ∀ s, P s → I s)
    (hstep : ∀ s, P s → ∃ s', step s x s' ∧ I s' ∧ Q () s' ∧ ∀ e, errors e → E e s') :
    Triple step P (Computation.performs x errors) I Q E := by
  intro s t o hs hm
  obtain ⟨s', hx, hI', hQ', hE'⟩ := hstep s hs
  cases hm with
  | running => exact ⟨s, .start, hI s hs⟩
  | acting => exact ⟨s', run_single hx, hI'⟩
  | returned => exact ⟨s', run_single hx, hQ'⟩
  | raised he => exact ⟨s', run_single hx, hE' _ he⟩

theorem attempts {x : α → σ} {results : α → Prop} {errors : ε → Prop} (hI : ∀ s, P s → I s)
    (hE : ∀ e s, errors e → P s → E e s)
    (hstep : ∀ a s, results a → P s → ∃ s', step s (x a) s' ∧ I s' ∧ Q a s') :
    Triple step P (Computation.attempts x results errors) I Q E := by
  intro s t o hs hm
  cases hm with
  | running => exact ⟨s, .start, hI s hs⟩
  | acting ha =>
      obtain ⟨s', hx, hI', -⟩ := hstep _ s ha hs
      exact ⟨s', run_single hx, hI'⟩
  | returned ha =>
      obtain ⟨s', hx, -, hQ'⟩ := hstep _ s ha hs
      exact ⟨s', run_single hx, hQ'⟩
  | raised he => exact ⟨s, .start, hE _ s he hs⟩

theorem bind (hm : Triple step P m I Q E) (hf : ∀ a, Triple step (Q a) (f a) I R E) :
    Triple step P (m >>= f) I R E := by
  rintro s t o hs (h | h | ⟨h, hnext⟩)
  · exact hm s t .running hs h
  · exact hm s t (.raised _) hs h
  · obtain ⟨s', hrun, hend⟩ := hm s _ (.returned _) hs h
    obtain ⟨s'', hmore, hlast⟩ := hf _ s' _ _ hend hnext
    exact ⟨s'', hrun.append hmore, hlast⟩

/-- The clause keeps what its body has ended with. -/
theorem tryFinally {clause : Computation σ ε Unit} (hm : Triple step P m I Q E)
    (hreturned : ∀ a, Triple step (Q a) clause I (fun _ => Q' a) E')
    (hraised : ∀ e, Triple step (E e) clause I (fun _ => E' e) E') :
    Triple step P (Computation.tryFinally m clause) I Q' E' := by
  rintro s t o hs (h | ⟨h, hclause⟩ | ⟨h, hclause⟩)
  · exact hm s t .running hs h
  · rename_i t t' a o
    obtain ⟨s', hrun, hend⟩ := hm s t (.returned a) hs h
    obtain ⟨s'', hmore, hlast⟩ := hreturned a s' t' o hend hclause
    refine ⟨s'', hrun.append hmore, ?_⟩
    cases o with
    | running => exact hlast
    | returned => exact hlast
    | raised e => exact hlast
  · rename_i t t' e o
    obtain ⟨s', hrun, hend⟩ := hm s t (.raised e) hs h
    obtain ⟨s'', hmore, hlast⟩ := hraised e s' t' o hend hclause
    refine ⟨s'', hrun.append hmore, ?_⟩
    cases o with
    | running => exact hlast
    | returned => exact hlast
    | raised e => exact hlast

theorem interruptible (hm : Triple step P m I Q E) (hI : ∀ s, I s → E e s) :
    Triple step P (Computation.interruptible m e) I Q E := by
  rintro s t o hs (h | h)
  · exact hm s t o hs h
  · obtain ⟨s', hrun, hend⟩ := hm s t .running hs h
    exact ⟨s', hrun, hI s' hend⟩

end Triple

end Computations
