import LifecycleFlow.Json.Reader
import LifecycleFlow.Proofs.Resolution
import LifecycleFlow.Proofs.Rounding

/-!
# Comparing with a number

What the six comparisons of a variable with a number say about the numbers themselves. Less and
greater are the exact order, but equality has a tolerance. Main statement: the six comparisons agree
with each other exactly if the two numbers are the same or lie apart by the tolerance.
-/
namespace LifecycleFlow

namespace Double

/-- The least distance of two numbers that are not near: it lies half way between `epsilon` and the
double below it, and is rounded to `epsilon`. -/
def tolerance : ℚ :=
  2 ^ (-52 : Int) - 2 ^ (-106 : Int)

theorem tolerance_pos : 0 < tolerance := by
  norm_num [tolerance]

theorem exists_epsilon_eq : ∃ y, epsilon = .finite y ∧ y.value = 2 ^ (-52 : Int) := by
  refine ⟨⟨false, Nat.pow 2 52, -104, by decide⟩, rfl, ?_⟩
  norm_num [FiniteDouble.value]

theorem cast_pow_two (n : Nat) : ((Nat.pow 2 n : Nat) : ℚ) = 2 ^ (n : Int) := by
  rw [zpow_natCast]
  exact Nat.cast_pow 2 n

theorem exists_distance_eq (x y : FiniteDouble) :
    ∃ num den, 0 < den ∧ distance x y = ofRatio false num den ∧
      |x.value - y.value| = (num : ℚ) / den := by
  have hunits : |x.value - y.value| = (x.units - y.units).natAbs * 2 ^ (-1074 : Int) := by
    rw [FiniteDouble.value_eq_units, FiniteDouble.value_eq_units, ← sub_mul, ← Int.cast_sub,
      abs_mul, abs_of_pos (two_zpow_pos _), ← Int.cast_abs, Int.abs_eq_natAbs, Int.cast_natCast]
  -- The exponent is given a name, lest the power be computed.
  obtain ⟨n, hn⟩ : ∃ n, n = 1074 := ⟨_, rfl⟩
  refine ⟨(x.units - y.units).natAbs, Nat.pow 2 n, Nat.two_pow_pos n, by rw [distance, ← hn], ?_⟩
  rw [hunits, zpow_neg, cast_pow_two, div_eq_mul_inv, hn]
  rfl

theorem near_finite (x y : FiniteDouble) :
    near (.finite x) (.finite y) = decide (|x.value - y.value| < tolerance) := by
  obtain ⟨e, he, hepsilon⟩ := exists_epsilon_eq
  obtain ⟨num, den, hden, hdistance, habs⟩ := exists_distance_eq x y
  rw [Bool.eq_iff_iff, decide_eq_true_iff, near, hdistance, he, ofRatio_lt_finite_iff hden,
    hepsilon, rounded_lt_two_zpow_iff hden (by decide), habs, tolerance, lt_sub_iff_add_lt]
  norm_num

theorem lt_finite (x y : FiniteDouble) :
    lt (.finite x) (.finite y) = decide (x.value < y.value) := by
  rw [lt, decide_eq_decide, FiniteDouble.value_lt_value_iff]

theorem le_finite (x y : FiniteDouble) :
    le (.finite x) (.finite y) = decide (x.value ≤ y.value) := by
  rw [Bool.eq_iff_iff, le, lt_finite, eq, Bool.or_eq_true, decide_eq_true_iff, decide_eq_true_iff,
    decide_eq_true_iff, ← FiniteDouble.value_eq_value_iff, le_iff_lt_or_eq]

end Double

namespace JsonNumber

/-- A number that JSON can hold: a whole number of 64 bits, with or without a sign, or a double. -/
def Fits64 : JsonNumber → Prop
  | .whole n => -2 ^ 63 ≤ n ∧ n < 2 ^ 64
  | .double _ => True

/-- Whatever number a text spells is one of these. -/
theorem fits64_of_number? {negative : Bool} {whole fraction : List Char} {exponent : Option Int}
    {n : JsonNumber} (h : Json.number? negative whole fraction exponent = some n) : n.Fits64 := by
  rw [Json.number?] at h
  dsimp only at h
  by_cases hwhole : fraction = [] ∧ exponent = none ∧
      (if negative then 0 < Decimal.ofDigits 0 whole ∧ Decimal.ofDigits 0 whole ≤ Nat.pow 2 63
        else Decimal.ofDigits 0 whole < Nat.pow 2 64)
  · rw [if_pos hwhole] at h
    obtain rfl := Option.some.inj h
    cases negative <;> simp [Fits64] at hwhole ⊢ <;> omega
  · rw [if_neg hwhole] at h
    split at h
    · obtain ⟨x, -, rfl⟩ := Option.map_eq_some_iff.1 h
      trivial
    · cases h

/-- No number of JSON is too great for a finite double. -/
theorem Fits64.exists_toDouble_eq {n : JsonNumber} (h : n.Fits64) :
    ∃ x, n.toDouble = .finite x := by
  cases n with
  | double x => exact ⟨x, rfl⟩
  | whole n =>
    have hbits : n.natAbs ≤ 2 ^ 64 := by
      obtain ⟨hge, hlt⟩ := h
      omega
    apply Double.exists_ofRatio_eq_finite Nat.one_pos
    apply Double.rounded_lt_two_zpow Nat.one_pos (by decide)
    calc (n.natAbs : ℚ) / (1 : Nat) = n.natAbs := by rw [Nat.cast_one, div_one]
      _ ≤ 2 ^ (64 : Int) := by exact_mod_cast hbits
      _ ≤ 2 ^ (1024 - 1 : Int) := zpow_le_zpow_right₀ one_le_two (by decide)

end JsonNumber

namespace Condition

def comparedWith (known : Json.Object) (left : String) (r : FiniteDouble) (op : Comparison) :
    Option Bool :=
  (compare left op (.number (.finite r))).evaluate known

structure NumbersCompared (outcome : Comparison → Option Bool) (x r : ℚ) : Prop where
  less : outcome .less = some (decide (x < r))
  greater : outcome .greater = some (decide (r < x))
  lessOrEqual : outcome .lessOrEqual = some (decide (x ≤ r))
  greaterOrEqual : outcome .greaterOrEqual = some (decide (r ≤ x))
  equal : outcome .equal = some (decide (|x - r| < Double.tolerance))
  notEqual : outcome .notEqual = (outcome .equal).map (!·)

/-- The comparisons agree with each other: one of less, equal and greater holds and the other two do
not, and the remaining three follow from these. -/
structure Coherent (outcome : Comparison → Option Bool) : Prop where
  trichotomy :
    (outcome .less = some true ∧ outcome .equal = some false ∧ outcome .greater = some false) ∨
    (outcome .less = some false ∧ outcome .equal = some true ∧ outcome .greater = some false) ∨
    (outcome .less = some false ∧ outcome .equal = some false ∧ outcome .greater = some true)
  greaterOrEqual : outcome .greaterOrEqual = some true ↔
    outcome .greater = some true ∨ outcome .equal = some true
  lessOrEqual : outcome .lessOrEqual = some true ↔
    outcome .less = some true ∨ outcome .equal = some true
  notEqual : outcome .notEqual = (outcome .equal).map (!·)

variable {known : Json.Object} {left : String} {names : List String} {n : JsonNumber}
  {x : FiniteDouble} {outcome : Comparison → Option Bool} {a b : ℚ}

theorem numbersCompared_comparedWith (r : FiniteDouble) (href : Reference.ofText? left = some names)
    (hvalue : Reference.lookup known names = some (.number n)) (hx : n.toDouble = .finite x) :
    NumbersCompared (comparedWith known left r) x.value r.value := by
  have houtcome (op : Comparison) : comparedWith known left r op =
      some (op.holds (some (.number n)) (.number (.finite r))) := by
    rw [comparedWith, evaluate_compare href, hvalue]
  constructor
  · rw [houtcome, Comparison.holds, Comparison.ordered, hx, Double.lt_finite]
  · rw [houtcome, Comparison.holds, Comparison.ordered, hx, Double.lt_finite]
  · rw [houtcome, Comparison.holds, Comparison.ordered, hx, Double.le_finite]
  · rw [houtcome, Comparison.holds, Comparison.ordered, hx, Double.le_finite]
  · rw [houtcome, Comparison.holds, Comparison.equals, hx, Double.near_finite]
  · rw [houtcome, houtcome, Comparison.holds, Comparison.holds, Option.map_some]

/-- The tolerance is all that keeps the comparisons from agreeing: two numbers that are near but not
the same are equal and in an order. -/
theorem NumbersCompared.coherent_iff (h : NumbersCompared outcome a b) :
    Coherent outcome ↔ a = b ∨ Double.tolerance ≤ |a - b| := by
  constructor
  · intro hcoherent
    by_contra hnear
    obtain ⟨hne, hlt⟩ := not_or.1 hnear
    have hequal : outcome .equal = some true := by
      rw [h.equal, decide_eq_true (not_le.1 hlt)]
    obtain ⟨-, hunequal, -⟩ | ⟨hless, -, hgreater⟩ | ⟨-, hunequal, -⟩ := hcoherent.trichotomy
    · rw [hequal] at hunequal
      cases hunequal
    · rw [h.less, Option.some.injEq, decide_eq_false_iff_not, not_lt] at hless
      rw [h.greater, Option.some.injEq, decide_eq_false_iff_not, not_lt] at hgreater
      exact hne (le_antisymm hgreater hless)
    · rw [hequal] at hunequal
      cases hunequal
  · intro hfar
    have hequal : outcome .equal = some (decide (a = b)) := by
      rw [h.equal, Option.some.injEq, decide_eq_decide]
      constructor
      · intro hlt
        exact hfar.resolve_right (not_le.2 hlt)
      · rintro rfl
        rw [sub_self, abs_zero]
        exact Double.tolerance_pos
    constructor
    · rw [h.less, h.greater, hequal]
      rcases lt_trichotomy a b with hlt | heq | hgt
      · simp [hlt, hlt.ne, hlt.le]
      · simp [heq]
      · simp [hgt, hgt.ne', hgt.le]
    · rw [h.greaterOrEqual, h.greater, hequal]
      simpa [eq_comm] using le_iff_lt_or_eq (a := b) (b := a)
    · rw [h.lessOrEqual, h.less, hequal]
      simpa using le_iff_lt_or_eq
    · exact h.notEqual

/-- Comparing a variable that is a number with a number is always settled. The order of the numbers
is exact, but they are equal if they lie apart by less than the tolerance; so the comparisons agree
with each other exactly if the numbers are the same or lie apart by the tolerance. -/
theorem number_comparisons (r : FiniteDouble) (href : Reference.ofText? left = some names)
    (hvalue : Reference.lookup known names = some (.number n)) (hn : n.Fits64) :
    ∃ x : FiniteDouble, n.toDouble = .finite x ∧
      NumbersCompared (comparedWith known left r) x.value r.value ∧
      (Coherent (comparedWith known left r) ↔
        x.value = r.value ∨ Double.tolerance ≤ |x.value - r.value|) := by
  obtain ⟨x, hx⟩ := hn.exists_toDouble_eq
  have hcompared := numbersCompared_comparedWith r href hvalue hx
  exact ⟨x, hx, hcompared, hcompared.coherent_iff⟩

theorem number_comparisons_one_belowOne :
    let known : Json.Object := [("x", .number (.whole 1))]
    let belowOne : FiniteDouble := ⟨false, Nat.pow 2 53 - 1, -53, by decide⟩
    ∃ x : FiniteDouble, (JsonNumber.whole 1).toDouble = .finite x ∧
      NumbersCompared (comparedWith known "$x" belowOne) x.value belowOne.value ∧
      (Coherent (comparedWith known "$x" belowOne) ↔
        x.value = belowOne.value ∨ Double.tolerance ≤ |x.value - belowOne.value|) :=
  number_comparisons _ (show Reference.ofText? "$x" = some ["x"] by decide) rfl
    ⟨by decide, by decide⟩

/-- One is greater than the double below it, and yet equal to it. -/
theorem greater_and_equal_belowOne :
    let known : Json.Object := [("x", .number (.whole 1))]
    let belowOne : FiniteDouble := ⟨false, Nat.pow 2 53 - 1, -53, by decide⟩
    Reference.ofText? "$x" = some ["x"] ∧
      Reference.lookup known ["x"] = some (.number (.whole 1)) ∧
      comparedWith known "$x" belowOne .greater = some true ∧
      comparedWith known "$x" belowOne .equal = some true ∧
      ¬ Coherent (comparedWith known "$x" belowOne) := by
  intro known belowOne
  have href : Reference.ofText? "$x" = some ["x"] := by decide
  have hone : (JsonNumber.whole 1).toDouble = .finite ⟨false, Nat.pow 2 52, -52, by decide⟩ := rfl
  have hcompared : NumbersCompared (comparedWith known "$x" belowOne) _ belowOne.value :=
    numbersCompared_comparedWith belowOne href rfl hone
  have hgreater : comparedWith known "$x" belowOne .greater = some true := by
    rw [hcompared.greater]
    norm_num [FiniteDouble.value, belowOne]
  have hequal : comparedWith known "$x" belowOne .equal = some true := by
    rw [hcompared.equal]
    norm_num [FiniteDouble.value, belowOne, Double.tolerance]
  refine ⟨href, rfl, hgreater, hequal, ?_⟩
  intro hcoherent
  have htrichotomy := hcoherent.trichotomy
  rw [hgreater, hequal] at htrichotomy
  simp at htrichotomy

end Condition

end LifecycleFlow
