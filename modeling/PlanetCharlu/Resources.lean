import Mathlib

/-!
# Resources and bundles (`domain/resources.py`)

The three resources and the nonnegative bundles the whole client computes with.
Quantities are naturals, so a bundle the source would refuse to construct
cannot be written down here. The one operation that can fail is `minus`, which
raises when the payment is not affordable.

Every operation has one lemma that says what it does to a single resource
(`quantity_…`). Later modules reason one resource at a time and never unfold a
bundle.
-/

namespace PlanetCharlu

/-- The exceptions the domain code can raise. -/
inductive PyError where
  | valueError (text : String)
  | keyError (key : Nat)
deriving DecidableEq, Repr

inductive Resource where
  | water
  | food
  | components
deriving DecidableEq, Repr

/-- The string value of the enum member, as used for sorting and log texts. -/
def Resource.value : Resource → String
  | .water => "water"
  | .food => "food"
  | .components => "components"

/-- `tuple(Resource)`: definition order. -/
def RESOURCES : List Resource := [.water, .food, .components]

@[simp] theorem mem_RESOURCES (r : Resource) : r ∈ RESOURCES := by
  cases r <;> simp [RESOURCES]

instance : Fintype Resource where
  elems := RESOURCES.toFinset
  complete r := by simp

structure Bundle where
  water : Nat := 0
  food : Nat := 0
  components : Nat := 0
deriving DecidableEq, Repr

def quantity (bundle : Bundle) : Resource → Nat
  | .water => bundle.water
  | .food => bundle.food
  | .components => bundle.components

theorem Bundle.ext_quantity {a b : Bundle} (h : ∀ r, quantity a r = quantity b r) : a = b := by
  have hw := h .water
  have hf := h .food
  have hc := h .components
  cases a
  cases b
  simp_all [quantity]

namespace Bundle

def zero : Bundle := {}

/-- The text a bundle has inside an error message. -/
def text (b : Bundle) : String :=
  "Bundle(water=" ++ toString b.water ++ ", food=" ++ toString b.food ++
    ", components=" ++ toString b.components ++ ")"

def isZero (b : Bundle) : Bool :=
  b.water == 0 && b.food == 0 && b.components == 0

def add (a b : Bundle) : Bundle where
  water := a.water + b.water
  food := a.food + b.food
  components := a.components + b.components

instance : Add Bundle := ⟨add⟩

/-- True if paying `cost` out of this bundle would not go negative. -/
def covers (a cost : Bundle) : Bool :=
  decide (a.water ≥ cost.water) && decide (a.food ≥ cost.food) &&
    decide (a.components ≥ cost.components)

/-- Subtract an affordable payment; raise if any resource is short. -/
def minus (a cost : Bundle) : Except PyError Bundle :=
  if !a.covers cost then
    .error (.valueError (cost.text ++ " exceeds " ++ a.text))
  else
    .ok { water := a.water - cost.water
          food := a.food - cost.food
          components := a.components - cost.components }

/-- Subtract an estimated cost, clamping shortfalls to zero. -/
def saturatingSubtract (a cost : Bundle) : Bundle where
  water := a.water - cost.water
  food := a.food - cost.food
  components := a.components - cost.components

end Bundle

/-! ### The helpers of `strategy.py` -/

def bundleOf (resource : Resource) (amount : Nat) : Bundle :=
  match resource with
  | .water => { water := amount }
  | .food => { food := amount }
  | .components => { components := amount }

def scaled (bundle : Bundle) (ticks : Nat) : Bundle where
  water := bundle.water * ticks
  food := bundle.food * ticks
  components := bundle.components * ticks

/-- `sum(quantity(bundle, r) for r in RESOURCES)`. -/
def units (bundle : Bundle) : Nat := (RESOURCES.map (quantity bundle)).sum

/-! ### One resource at a time -/

section PerResource

variable (a b : Bundle) (r : Resource)

@[simp] theorem quantity_zero : quantity Bundle.zero r = 0 := by cases r <;> rfl

@[simp] theorem quantity_add : quantity (a + b) r = quantity a r + quantity b r := by
  cases r <;> rfl

@[simp] theorem quantity_saturatingSubtract :
    quantity (a.saturatingSubtract b) r = quantity a r - quantity b r := by
  cases r <;> rfl

@[simp] theorem quantity_scaled (ticks : Nat) :
    quantity (scaled a ticks) r = quantity a r * ticks := by
  cases r <;> rfl

theorem quantity_bundleOf (s : Resource) (amount : Nat) :
    quantity (bundleOf s amount) r = if r = s then amount else 0 := by
  cases r <;> cases s <;> rfl

@[simp] theorem quantity_bundleOf_self (amount : Nat) :
    quantity (bundleOf r amount) r = amount := by
  simp [quantity_bundleOf]

@[simp] theorem quantity_bundleOf_of_ne {r s : Resource} (h : r ≠ s) (amount : Nat) :
    quantity (bundleOf s amount) r = 0 := by
  simp [quantity_bundleOf, h]

theorem covers_iff : a.covers b = true ↔ ∀ r, quantity b r ≤ quantity a r := by
  constructor
  · intro h r
    simp only [Bundle.covers, Bool.and_eq_true, decide_eq_true_eq] at h
    obtain ⟨⟨hw, hf⟩, hc⟩ := h
    cases r
    · exact hw
    · exact hf
    · exact hc
  · intro h
    simp only [Bundle.covers, Bool.and_eq_true, decide_eq_true_eq]
    exact ⟨⟨h .water, h .food⟩, h .components⟩

theorem isZero_iff : a.isZero = true ↔ ∀ r, quantity a r = 0 := by
  constructor
  · intro h r
    simp only [Bundle.isZero, Bool.and_eq_true, beq_iff_eq] at h
    cases r
    · exact h.1.1
    · exact h.1.2
    · exact h.2
  · intro h
    simp only [Bundle.isZero, Bool.and_eq_true, beq_iff_eq]
    exact ⟨⟨h .water, h .food⟩, h .components⟩

end PerResource

/-- An affordable payment goes through, and leaves what the estimate leaves. -/
theorem Bundle.minus_of_covers {a cost : Bundle} (h : a.covers cost = true) :
    a.minus cost = .ok (a.saturatingSubtract cost) := by
  simp [Bundle.minus, h, Bundle.saturatingSubtract]

/-- `minus` raises exactly on the payments the bundle does not cover. -/
theorem Bundle.minus_isOk_iff (a cost : Bundle) :
    (∃ rest, a.minus cost = .ok rest) ↔ a.covers cost = true := by
  constructor
  · rintro ⟨rest, h⟩
    by_contra hcov
    have hfalse : a.covers cost = false := by simpa using hcov
    simp [Bundle.minus, hfalse] at h
  · intro h
    exact ⟨_, Bundle.minus_of_covers h⟩

end PlanetCharlu
