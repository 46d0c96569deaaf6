import PlanetCharlu.Codec

/-!
# The operations that can raise

What `domain/resources.py`, `codec.py` and a division do where they cannot go on. A bundle
is checked when it is made, a quotient when it is taken, and a field of a message when it
is set. The numbers are integers, so that a difference may be negative and a sum may pass
`2 ^ 64`. Each operation has one lemma that says when it goes through and to what.
-/

namespace PlanetCharlu

inductive Raised where
  | valueError (text : String)
  | zeroDivisionError
deriving DecidableEq, Repr

namespace Raising

/-! ### Bundles -/

/-- `Bundle(…)`, with the check of `__post_init__`. -/
def bundle (water food components : Int) : Except Raised Bundle :=
  if water < 0 ∨ food < 0 ∨ components < 0 then
    .error (.valueError ("bundle quantities must be non-negative, got Bundle(water=" ++
      toString water ++ ", food=" ++ toString food ++ ", components=" ++ toString components ++
        ")"))
  else
    .ok { water := water.toNat, food := food.toNat, components := components.toNat }

def bundleOf (resource : Resource) (amount : Int) : Except Raised Bundle :=
  match resource with
  | .water => bundle amount 0 0
  | .food => bundle 0 amount 0
  | .components => bundle 0 0 amount

def scaled (b : Bundle) (ticks : Int) : Except Raised Bundle :=
  bundle (b.water * ticks) (b.food * ticks) (b.components * ticks)

/-- `Bundle.__add__`. -/
def add (a b : Bundle) : Except Raised Bundle :=
  bundle (a.water + b.water) (a.food + b.food) (a.components + b.components)

def minus (a cost : Bundle) : Except Raised Bundle :=
  if !a.covers cost then .error (.valueError (cost.text ++ " exceeds " ++ a.text))
  else
    bundle ((a.water : Int) - cost.water) ((a.food : Int) - cost.food)
      ((a.components : Int) - cost.components)

def saturatingSubtract (a cost : Bundle) : Except Raised Bundle :=
  bundle (max 0 ((a.water : Int) - cost.water)) (max 0 ((a.food : Int) - cost.food))
    (max 0 ((a.components : Int) - cost.components))

/-! ### Quotients and message fields -/

/-- `a / b`. -/
def trueDiv (a b : ℚ) : Except Raised ℚ :=
  if b = 0 then .error .zeroDivisionError else .ok (a / b)

/-- The value that a `uint64` field is set to. -/
def uint64 (value : Int) : Except Raised Nat :=
  if 0 ≤ value ∧ value < 2 ^ 64 then .ok value.toNat
  else .error (.valueError ("Value out of range: " ++ toString value))

/-- `Bundle.to_wire`. -/
def toWire (b : Bundle) : Except Raised Bundle := do
  return { water := ← uint64 b.water, food := ← uint64 b.food,
           components := ← uint64 b.components }

def buildAdvertise (runId requestId : String) (selling seeking : List Resource)
    (expiresTick : Int) : Except Raised ClientMessage := do
  return Codec.buildAdvertise runId requestId selling seeking (← uint64 expiresTick)

def buildOffer (runId requestId recipientId : String) (give receive : Bundle)
    (expiresTick : Int) : Except Raised ClientMessage := do
  return Codec.buildOffer runId requestId recipientId (← toWire give) (← toWire receive)
    (← uint64 expiresTick)

/-! ### When they go through -/

section GoesThrough

variable {a b : Bundle} {n : Nat} {i : Int}

theorem bundle_natCast (water food components : Nat) :
    bundle water food components = pure { water, food, components } := by
  have hnot : ¬((water : Int) < 0 ∨ (food : Int) < 0 ∨ (components : Int) < 0) := by omega
  rw [bundle, if_neg hnot]
  simp only [Int.toNat_natCast]
  rfl

theorem bundleOf_eq (resource : Resource) (hi : i = n) :
    bundleOf resource i = pure (PlanetCharlu.bundleOf resource n) := by
  subst hi
  cases resource
  · exact bundle_natCast n 0 0
  · exact bundle_natCast 0 n 0
  · exact bundle_natCast 0 0 n

theorem scaled_eq (b : Bundle) (hi : i = n) :
    scaled b i = pure (PlanetCharlu.scaled b n) := by
  subst hi
  rw [scaled]
  exact_mod_cast bundle_natCast (b.water * n) (b.food * n) (b.components * n)

@[simp] theorem add_eq (a b : Bundle) : add a b = pure (a + b) := by
  rw [add]
  exact_mod_cast bundle_natCast (a.water + b.water) (a.food + b.food)
    (a.components + b.components)

theorem max_zero_sub (m n : Nat) : max 0 ((m : Int) - n) = ((m - n : Nat) : Int) := by
  omega

@[simp] theorem saturatingSubtract_eq (a cost : Bundle) :
    saturatingSubtract a cost = pure (a.saturatingSubtract cost) := by
  rw [saturatingSubtract, max_zero_sub, max_zero_sub, max_zero_sub]
  exact bundle_natCast _ _ _

/-- A payment that is covered leaves what the estimate leaves. -/
theorem minus_eq {cost : Bundle} (hcovers : a.covers cost = true) :
    minus a cost = pure (a.saturatingSubtract cost) := by
  have hle := (covers_iff a cost).mp hcovers
  have hwater := hle .water
  have hfood := hle .food
  have hcomponents := hle .components
  simp only [quantity] at hwater hfood hcomponents
  rw [minus, hcovers, ← Nat.cast_sub hwater, ← Nat.cast_sub hfood, ← Nat.cast_sub hcomponents]
  exact bundle_natCast _ _ _

theorem trueDiv_eq (x : ℚ) {y : ℚ} (hy : y ≠ 0) : trueDiv x y = pure (x / y) :=
  if_neg hy

theorem uint64_eq (hi : i = n) (hn : n < 2 ^ 64) : uint64 i = pure n := by
  subst hi
  have hin : 0 ≤ (n : Int) ∧ (n : Int) < 2 ^ 64 := by omega
  rw [uint64, if_pos hin]
  rfl

/-- Every quantity fits into a field of a message. -/
def Fits (b : Bundle) : Prop := ∀ r, quantity b r < 2 ^ 64

theorem fits_bundleOf (resource : Resource) (hn : n < 2 ^ 64) :
    Fits (PlanetCharlu.bundleOf resource n) := by
  intro r
  rw [quantity_bundleOf]
  split
  · exact hn
  · exact Nat.two_pow_pos 64

theorem fits_zero : Fits Bundle.zero := by
  intro r
  rw [quantity_zero]
  exact Nat.two_pow_pos 64

theorem toWire_eq (hb : Fits b) : toWire b = pure b := by
  have hwater := uint64_eq rfl (hb .water)
  have hfood := uint64_eq rfl (hb .food)
  have hcomponents := uint64_eq rfl (hb .components)
  simp only [quantity] at hwater hfood hcomponents
  simp only [toWire, hwater, hfood, hcomponents, pure_bind]

theorem buildAdvertise_eq (runId requestId : String) (selling seeking : List Resource)
    (hi : i = n) (hn : n < 2 ^ 64) :
    buildAdvertise runId requestId selling seeking i =
      pure (Codec.buildAdvertise runId requestId selling seeking n) := by
  rw [buildAdvertise, uint64_eq hi hn, pure_bind]

theorem buildOffer_eq (runId requestId recipientId : String) (ha : Fits a) (hb : Fits b)
    (hi : i = n) (hn : n < 2 ^ 64) :
    buildOffer runId requestId recipientId a b i =
      pure (Codec.buildOffer runId requestId recipientId a b n) := by
  simp only [buildOffer, toWire_eq ha, toWire_eq hb, uint64_eq hi hn, pure_bind]

end GoesThrough

end Raising

end PlanetCharlu
