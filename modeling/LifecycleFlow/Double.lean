/-!
# Double precision numbers

Double precision numbers as exact values. A finite one is `± significand · 2 ^ exponent` in its one
canonical form, so equal numbers of equal sign are equal terms; all finite ones are whole multiples
of `2 ^ (-1074)`, which makes their order the order of integers. A quotient is rounded to the nearest
double, ties going to an even significand; the operations are exact arithmetic followed by this
rounding.
-/
namespace LifecycleFlow

/-- The one form in which a finite double is kept: 53 bits of significand, all of them used unless
the exponent is the least one. -/
def Canonical (significand : Nat) (exponent : Int) : Prop :=
  significand < Nat.pow 2 53 ∧ -1074 ≤ exponent ∧ exponent ≤ 971 ∧
    (Nat.pow 2 52 ≤ significand ∨ exponent = -1074)

instance (significand : Nat) (exponent : Int) : Decidable (Canonical significand exponent) := by
  unfold Canonical
  infer_instance

/-- A finite double: `± significand · 2 ^ exponent`. Zero keeps its sign. -/
structure FiniteDouble where
  negative : Bool
  significand : Nat
  exponent : Int
  canonical : Canonical significand exponent
  deriving DecidableEq

inductive Double
  | finite (x : FiniteDouble)
  | infinite (negative : Bool)
  | nan
  deriving DecidableEq

namespace FiniteDouble

def zero (negative : Bool) : FiniteDouble :=
  ⟨negative, 0, -1074, by decide⟩

/-- The number of times `2 ^ (-1074)` goes into the value. -/
def units (x : FiniteDouble) : Int :=
  let magnitude : Int := (x.significand * Nat.pow 2 (x.exponent + 1074).toNat : Nat)
  if x.negative then -magnitude else magnitude

def ratio (x : FiniteDouble) : Nat × Nat :=
  if 0 ≤ x.exponent then (x.significand * Nat.pow 2 x.exponent.toNat, 1)
  else (x.significand, Nat.pow 2 (-x.exponent).toNat)

@[simp] theorem units_zero (negative : Bool) : (zero negative).units = 0 := by
  cases negative <;> simp [zero, units]

end FiniteDouble

namespace Double

/-- The order of numbers; nothing is less than, or greater than, what is not a number. -/
def lt : Double → Double → Bool
  | .finite x, .finite y => decide (x.units < y.units)
  | .infinite s, .infinite t => s && !t
  | .infinite s, .finite _ => s
  | .finite _, .infinite t => !t
  | _, _ => false

/-- Equality of numbers: both zeros are equal, and what is not a number equals nothing. -/
def eq : Double → Double → Bool
  | .finite x, .finite y => decide (x.units = y.units)
  | .infinite s, .infinite t => s == t
  | _, _ => false

def le (a b : Double) : Bool :=
  a.lt b || a.eq b

end Double

/-- The whole number nearest to `num / den`; of two equally near ones the even one. -/
def roundHalfEven (num den : Nat) : Nat :=
  let q := num / den
  let r := num % den
  if 2 * r < den then q
  else if den < 2 * r then q + 1
  else if q % 2 = 0 then q else q + 1

namespace Double

def scaled (num den : Nat) (e : Int) : Nat × Nat :=
  if 0 ≤ e then (num, den * Nat.pow 2 e.toNat) else (num * Nat.pow 2 (-e).toNat, den)

/-- The exponent of the binade of `num / den`: dividing by that power of two leaves a value from
`2 ^ 52` up to `2 ^ 53`, or a lesser one where the exponent is already the least. -/
def binade (num den : Nat) : Int :=
  let e : Int := (num.log2 : Int) - den.log2 - 53
  let (a, b) := scaled num den e
  max (-1074) (if b * Nat.pow 2 53 ≤ a then e + 1 else e)

def roundedAt (num den : Nat) (e : Int) : Nat :=
  roundHalfEven (scaled num den e).1 (scaled num den e).2

def ofParts (negative : Bool) (significand : Nat) (exponent : Int) : Double :=
  if h : Canonical significand exponent then .finite ⟨negative, significand, exponent, h⟩
  else .infinite negative

/-- The double nearest to `± num / den`. A significand that is rounded up to 54 bits is the first
one of the next binade. -/
def ofRatio (negative : Bool) (num den : Nat) : Double :=
  if num = 0 then .finite (.zero negative)
  else
    let e := binade num den
    let q := roundedAt num den e
    if q = Nat.pow 2 53 then ofParts negative (Nat.pow 2 52) (e + 1) else ofParts negative q e

def ofInt (n : Int) : Double :=
  ofRatio (decide (n < 0)) n.natAbs 1

def mul (x y : FiniteDouble) : Double :=
  ofRatio (x.negative != y.negative) (x.ratio.1 * y.ratio.1) (x.ratio.2 * y.ratio.2)

def div (x y : FiniteDouble) : Double :=
  ofRatio (x.negative != y.negative) (x.ratio.1 * y.ratio.2) (x.ratio.2 * y.ratio.1)

def distance (x y : FiniteDouble) : Double :=
  ofRatio false (x.units - y.units).natAbs (Nat.pow 2 1074)

def epsilon : Double :=
  ofRatio false 1 (Nat.pow 2 52)

/-- Whether two numbers lie apart by less than the gap that follows one. -/
def near : Double → Double → Bool
  | .finite x, .finite y => (distance x y).lt epsilon
  | _, _ => false

end Double

end LifecycleFlow
