import Mathlib

/-!
# Readers

A reader takes something from the front of a text and leaves the rest. Two notions carry
the proofs about one. `Reads` says that it takes one text for one value, whatever
follows; `Local` says that all it takes it takes so, and decides by the part it takes and
by nothing behind it.
-/

namespace Readers

variable {τ α : Type*}

/-- What was read, and the text behind it. -/
abbrev Reader (τ α : Type*) := List τ → Option (α × List τ)

/-- The reader takes `u` for `a` whatever follows, where `stop` holds of what follows. -/
def Reads (stop : List τ → Prop) (p : Reader τ α) (u : List τ) (a : α) : Prop :=
  ∀ rest, stop rest → p (u ++ rest) = some (a, rest)

/-- What the reader makes of a text depends on the part it takes, which is not empty. -/
def Local (stop : List τ → Prop) (p : Reader τ α) : Prop :=
  ∀ text a rest, p text = some (a, rest) → ∃ u ≠ [], text = u ++ rest ∧ Reads stop p u a

/-- A reader with a bound on its steps takes `u` when the bound is at least its length. -/
def ReadsWithin (stop : List τ → Prop) (p : Nat → Reader τ α) (u : List τ) (a : α) : Prop :=
  ∀ n, u.length ≤ n → Reads stop (p n) u a

/-- Nothing is asked of what follows. -/
def Anything : List τ → Prop := fun _ => True

variable {stop : List τ → Prop} {p : Reader τ α} {u : List τ} {a : α}

theorem Reads.of_anything (h : Reads Anything p u a) : Reads stop p u a := by
  intro rest _
  exact h rest trivial

/-- A reader with its result made into something else. -/
def mapped {β : Type*} (f : α → β) (p : Reader τ α) : Reader τ β := fun text =>
  (p text).map fun (a, rest) => (f a, rest)

theorem Reads.mapped {β : Type*} (f : α → β) (h : Reads stop p u a) :
    Reads stop (Readers.mapped f p) u (f a) := by
  intro rest hrest
  rw [Readers.mapped, h rest hrest]
  rfl

theorem mapped_eq_some {β : Type*} {f : α → β} {text rest : List τ} {b : β}
    (h : mapped f p text = some (b, rest)) : ∃ a, p text = some (a, rest) ∧ f a = b := by
  simp only [mapped, Option.map_eq_some_iff] at h
  obtain ⟨⟨a, rest'⟩, ha, heq⟩ := h
  obtain ⟨rfl, rfl⟩ := Prod.mk.inj heq
  exact ⟨a, ha, rfl⟩

/-- **What is taken whole has no proper beginning that is taken for something.** -/
theorem Reads.eq_of_append {text more rest : List τ} {b : α} (h : p text = some (a, []))
    (hreads : Reads Anything p u b) (htext : text = u ++ rest ++ more) : rest = [] ∧ more = [] := by
  have hlonger : p text = some (b, rest ++ more) := by
    rw [htext, List.append_assoc]
    exact hreads (rest ++ more) trivial
  have hnil : [] = rest ++ more :=
    congrArg Prod.snd (Option.some_injective _ (h.symm.trans hlonger))
  exact List.append_eq_nil_iff.mp hnil.symm

end Readers
