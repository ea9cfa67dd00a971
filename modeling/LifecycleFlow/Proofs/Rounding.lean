import LifecycleFlow.Double
import Mathlib.Algebra.Order.Field.Power
import Mathlib.Data.Rat.Cast.Order
import Mathlib.Tactic.FieldSimp
import Mathlib.Tactic.Linarith
import Mathlib.Tactic.Positivity
import Mathlib.Tactic.Ring

/-!
# What rounding gives

Rounding to doubles in terms of exact rational numbers: which number a quotient is rounded to, and
when that is too great for a finite double. Main statement: a quotient is rounded to less than a
power of two exactly if it lies below the point half way between that power and the number before
it.
-/
namespace LifecycleFlow

/-- A whole number is the nearest one to a quotient, and even if another one is as near. -/
structure Nearest (num den q : Nat) : Prop where
  le : 2 * (q * den) ≤ 2 * num + den
  ge : 2 * num ≤ 2 * (q * den) + den
  even : 2 * (q * den) = 2 * num + den ∨ 2 * num = 2 * (q * den) + den → q % 2 = 0

variable {num den q : Nat}

theorem nearest_roundHalfEven (num : Nat) (hden : 0 < den) :
    Nearest num den (roundHalfEven num den) := by
  have hdiv : num / den * den + num % den = num := Nat.div_add_mod' num den
  have hmod : num % den < den := Nat.mod_lt num hden
  have hsucc : (num / den + 1) * den = num / den * den + den := Nat.succ_mul _ _
  rw [roundHalfEven]
  split_ifs
  · constructor <;> omega
  · constructor <;> omega
  · constructor <;> omega
  · constructor <;> omega

theorem roundHalfEven_le (hden : 0 < den) (h : num ≤ q * den) : roundHalfEven num den ≤ q := by
  have hnear := (nearest_roundHalfEven num hden).le
  by_contra hlt
  have hnext : (q + 1) * den ≤ roundHalfEven num den * den :=
    Nat.mul_le_mul_right den (Nat.lt_of_not_le hlt)
  rw [Nat.succ_mul] at hnext
  omega

theorem le_roundHalfEven (hden : 0 < den) (h : q * den ≤ num) : q ≤ roundHalfEven num den := by
  have hnear := (nearest_roundHalfEven num hden).ge
  by_contra hlt
  have hnext : (roundHalfEven num den + 1) * den ≤ q * den :=
    Nat.mul_le_mul_right den (Nat.lt_of_not_le hlt)
  rw [Nat.succ_mul] at hnext
  omega

/-- What lies half way below an even number is rounded up to it. -/
theorem roundHalfEven_lt_iff (hden : 0 < den) (hq : q % 2 = 0) :
    roundHalfEven num den < q ↔ 2 * num + den < 2 * (q * den) := by
  have hnear := nearest_roundHalfEven num hden
  have hge := hnear.ge
  have hle := hnear.le
  constructor
  · intro h
    have hnext : (roundHalfEven num den + 1) * den ≤ q * den := Nat.mul_le_mul_right den h
    rw [Nat.succ_mul] at hnext
    apply lt_of_le_of_ne (by omega)
    intro htie
    have hq' : roundHalfEven num den + 1 = q := by
      apply Nat.eq_of_mul_eq_mul_right hden
      rw [Nat.succ_mul]
      omega
    have heven := hnear.even (.inr (by omega))
    omega
  · intro h
    by_contra hlt
    have hmul : q * den ≤ roundHalfEven num den * den :=
      Nat.mul_le_mul_right den (not_lt.1 hlt)
    omega

namespace Double

variable {e : Int}

theorem two_zpow_pos (e : Int) : (0 : ℚ) < 2 ^ e :=
  zpow_pos two_pos e

theorem two_zpow_eq_add (e : Int) : (2 : ℚ) ^ e = 2 ^ (e - 1) + 2 ^ (e - 1) := by
  rw [zpow_sub_one₀ two_ne_zero]
  ring

theorem scaled_snd_pos (num : Nat) (e : Int) (hden : 0 < den) : 0 < (scaled num den e).2 := by
  rw [scaled]
  split
  · exact Nat.mul_pos hden (Nat.two_pow_pos _)
  · exact hden

/-- A quotient scaled by a power of two, as a quotient of natural numbers. -/
theorem scaled_eq (num den : Nat) (e : Int) :
    ((scaled num den e).1 : ℚ) / (scaled num den e).2 = num / den / 2 ^ e := by
  rw [scaled]
  split
  · rename_i h
    obtain ⟨n, rfl⟩ := Int.eq_ofNat_of_zero_le h
    simp [div_div]
  · rename_i h
    obtain ⟨n, hn⟩ := Int.eq_ofNat_of_zero_le (show 0 ≤ -e by omega)
    have he : e = -(n : Int) := by omega
    subst he
    simp
    ring

theorem two_pow_log2_le (hnum : num ≠ 0) : (2 : ℚ) ^ (num.log2 : Int) ≤ num := by
  rw [zpow_natCast]
  exact_mod_cast Nat.log2_self_le hnum

theorem lt_two_pow_log2 : (num : ℚ) < 2 ^ ((num.log2 : Int) + 1) := by
  have h : num < 2 ^ (num.log2 + 1) := Nat.lt_log2_self
  exact_mod_cast h

theorem quotient_lt (num : Nat) (hden : 0 < den) :
    (num : ℚ) / den < 2 ^ ((num.log2 : Int) - den.log2 + 1) := by
  have hpos : (0 : ℚ) < den := Nat.cast_pos.2 hden
  rw [div_lt_iff₀ hpos]
  calc (num : ℚ) < 2 ^ ((num.log2 : Int) + 1) := lt_two_pow_log2
    _ = 2 ^ ((num.log2 : Int) - den.log2 + 1) * 2 ^ (den.log2 : Int) := by
      rw [← zpow_add₀ two_ne_zero]
      ring_nf
    _ ≤ 2 ^ ((num.log2 : Int) - den.log2 + 1) * den :=
      mul_le_mul_of_nonneg_left (two_pow_log2_le hden.ne') (two_zpow_pos _).le

theorem lt_quotient (hnum : num ≠ 0) (hden : 0 < den) :
    2 ^ ((num.log2 : Int) - den.log2 - 1) < (num : ℚ) / den := by
  have hpos : (0 : ℚ) < den := Nat.cast_pos.2 hden
  rw [lt_div_iff₀ hpos]
  calc 2 ^ ((num.log2 : Int) - den.log2 - 1) * (den : ℚ)
      < 2 ^ ((num.log2 : Int) - den.log2 - 1) * 2 ^ ((den.log2 : Int) + 1) :=
      mul_lt_mul_of_pos_left lt_two_pow_log2 (two_zpow_pos _)
    _ = 2 ^ (num.log2 : Int) := by
      rw [← zpow_add₀ two_ne_zero]
      ring_nf
    _ ≤ num := two_pow_log2_le hnum

theorem le_scaled_iff (hden : 0 < den) :
    q * (scaled num den e).2 ≤ (scaled num den e).1 ↔ (q : ℚ) * 2 ^ e ≤ num / den := by
  have hpos : (0 : ℚ) < (scaled num den e).2 := Nat.cast_pos.2 (scaled_snd_pos num e hden)
  rw [← le_div_iff₀ (two_zpow_pos e), ← scaled_eq, le_div_iff₀ hpos]
  exact_mod_cast Iff.rfl

theorem scaled_le_iff (hden : 0 < den) :
    (scaled num den e).1 ≤ q * (scaled num den e).2 ↔ (num : ℚ) / den ≤ q * 2 ^ e := by
  have hpos : (0 : ℚ) < (scaled num den e).2 := Nat.cast_pos.2 (scaled_snd_pos num e hden)
  rw [← div_le_iff₀ (two_zpow_pos e), ← scaled_eq, div_le_iff₀ hpos]
  exact_mod_cast Iff.rfl

theorem le_binade (num den : Nat) : -1074 ≤ binade num den :=
  le_max_left _ _

theorem binade_eq (hden : 0 < den) :
    let e : Int := num.log2 - den.log2 - 53
    binade num den = max (-1074) (if 2 ^ (e + 53) ≤ (num : ℚ) / den then e + 1 else e) := by
  intro e
  have hscaled : (scaled num den e).2 * Nat.pow 2 53 ≤ (scaled num den e).1 ↔
      2 ^ (e + 53) ≤ (num : ℚ) / den := by
    rw [Nat.mul_comm, le_scaled_iff hden, add_comm e, zpow_add₀ two_ne_zero]
    norm_num
  simp only [binade]
  exact congrArg (max (-1074)) (if_congr hscaled rfl rfl)

/-- A quotient lies in its binade, or below it where there is no lesser one. -/
theorem binade_spec (hnum : num ≠ 0) (hden : 0 < den) :
    (num : ℚ) / den < 2 ^ (binade num den + 53) ∧
      (binade num den = -1074 ∨ 2 ^ (binade num den + 52) ≤ (num : ℚ) / den) := by
  have hupper := quotient_lt num hden
  have hlower := lt_quotient hnum hden
  obtain ⟨e, he⟩ : ∃ e : Int, e = num.log2 - den.log2 - 53 := ⟨_, rfl⟩
  -- The least exponent for which the quotient is below the upper end of the binade.
  obtain ⟨k, hk, hlt, hle⟩ : ∃ k : Int, binade num den = max (-1074) k ∧
      (num : ℚ) / den < 2 ^ (k + 53) ∧ 2 ^ (k + 52) ≤ (num : ℚ) / den := by
    rw [binade_eq hden, ← he]
    split
    · rename_i hcond
      refine ⟨e + 1, rfl, ?_, ?_⟩
      · convert hupper using 2
        omega
      · convert hcond using 2
        omega
    · rename_i hcond
      refine ⟨e, rfl, not_le.1 hcond, hlower.le.trans' ?_⟩
      apply le_of_eq
      congr 1
      omega
  rw [hk]
  constructor
  · apply hlt.trans_le
    apply zpow_le_zpow_right₀ one_le_two
    omega
  · rcases max_choice (-1074) k with h | h
    · exact .inl h
    · exact .inr (by rwa [h])

/-- The number to which a quotient is rounded, also where it is too great for a finite double. -/
def rounded (num den : Nat) : ℚ :=
  roundedAt num den (binade num den) * 2 ^ binade num den

theorem roundedAt_le (hden : 0 < den) (h : (num : ℚ) / den ≤ q * 2 ^ e) : roundedAt num den e ≤ q :=
  roundHalfEven_le (scaled_snd_pos num e hden) ((scaled_le_iff hden).2 h)

theorem le_roundedAt (hden : 0 < den) (h : q * 2 ^ e ≤ (num : ℚ) / den) : q ≤ roundedAt num den e :=
  le_roundHalfEven (scaled_snd_pos num e hden) ((le_scaled_iff hden).2 h)

theorem roundedAt_zero (hden : 0 < den) : roundedAt 0 den e = 0 := by
  apply Nat.le_zero.1
  apply roundedAt_le hden
  simp

theorem roundedAt_lt_iff (hden : 0 < den) (hq : q % 2 = 0) :
    roundedAt num den e < q ↔ (num : ℚ) / den + 2 ^ (e - 1) < q * 2 ^ e := by
  have hpos : (0 : ℚ) < (scaled num den e).2 := Nat.cast_pos.2 (scaled_snd_pos num e hden)
  have hscaled : (num : ℚ) / den + 2 ^ (e - 1) =
      ((scaled num den e).1 / (scaled num den e).2 + 1 / 2) * 2 ^ e := by
    rw [scaled_eq, add_mul, div_mul_cancel₀ _ (two_zpow_pos e).ne', zpow_sub_one₀ two_ne_zero]
    ring
  rw [roundedAt, roundHalfEven_lt_iff (scaled_snd_pos num e hden) hq, hscaled,
    mul_lt_mul_iff_left₀ (two_zpow_pos e), ← lt_sub_iff_add_lt, div_lt_iff₀ hpos, ← @Nat.cast_lt ℚ]
  push_cast
  constructor <;> intro h <;> linarith

theorem two_zpow_add_natCast (e : Int) (n : Nat) :
    (2 : ℚ) ^ (e + n) = (Nat.pow 2 n : Nat) * 2 ^ e := by
  rw [zpow_add₀ two_ne_zero, zpow_natCast, mul_comm]
  norm_num

/-- A rounded significand has 53 bits, or is the least number of 54. -/
theorem roundedAt_binade_le (hnum : num ≠ 0) (hden : 0 < den) :
    roundedAt num den (binade num den) ≤ Nat.pow 2 53 := by
  apply roundedAt_le hden
  rw [← two_zpow_add_natCast]
  exact (binade_spec hnum hden).1.le

/-- A rounded significand has no fewer than 53 bits unless the exponent is the least one. -/
theorem le_roundedAt_binade (hnum : num ≠ 0) (hden : 0 < den) (h : binade num den ≠ -1074) :
    Nat.pow 2 52 ≤ roundedAt num den (binade num den) := by
  apply le_roundedAt hden
  rw [← two_zpow_add_natCast]
  exact (binade_spec hnum hden).2.resolve_left h

theorem rounded_zero (hden : 0 < den) : rounded 0 den = 0 := by
  rw [rounded, roundedAt_zero hden, Nat.cast_zero, zero_mul]

theorem rounded_le_two_zpow (hnum : num ≠ 0) (hden : 0 < den) :
    rounded num den ≤ 2 ^ (binade num den + 53) := by
  calc rounded num den
    _ ≤ (Nat.pow 2 53 : Nat) * 2 ^ binade num den :=
      mul_le_mul_of_nonneg_right (Nat.cast_le.2 (roundedAt_binade_le hnum hden)) (two_zpow_pos _).le
    _ = 2 ^ (binade num den + 53) := (two_zpow_add_natCast _ 53).symm

theorem two_zpow_le_rounded (hnum : num ≠ 0) (hden : 0 < den) (h : binade num den ≠ -1074) :
    2 ^ (binade num den + 52) ≤ rounded num den := by
  calc (2 : ℚ) ^ (binade num den + 52)
    _ = (Nat.pow 2 52 : Nat) * 2 ^ binade num den := two_zpow_add_natCast _ 52
    _ ≤ rounded num den :=
      mul_le_mul_of_nonneg_right (Nat.cast_le.2 (le_roundedAt_binade hnum hden h))
        (two_zpow_pos _).le

/-- A quotient is rounded to less than a power of two exactly if it lies below the point half way
between that power and the number before it. -/
theorem rounded_lt_two_zpow_iff (hden : 0 < den) (he : -1021 ≤ e) :
    rounded num den < 2 ^ e ↔ (num : ℚ) / den + 2 ^ (e - 54) < 2 ^ e := by
  have hdouble := two_zpow_eq_add e
  have hhalf : (2 : ℚ) ^ (e - 54) < 2 ^ (e - 1) := zpow_lt_zpow_right₀ one_lt_two (by omega)
  have hpos := two_zpow_pos (e - 54)
  by_cases hnum : num = 0
  · subst hnum
    rw [rounded_zero hden, Nat.cast_zero, zero_div, zero_add]
    exact iff_of_true (two_zpow_pos e) (by linarith)
  have hend := (binade_spec hnum hden).1
  rcases lt_trichotomy (binade num den) (e - 53) with hless | hsame | hgreater
  · -- The whole binade lies below the half of the power.
    have hbelow : (2 : ℚ) ^ (binade num den + 53) ≤ 2 ^ (e - 1) := by
      apply zpow_le_zpow_right₀ one_le_two
      omega
    have hrounded := rounded_le_two_zpow hnum hden
    apply iff_of_true
    · linarith
    · linarith
  · -- The power is the end of the binade, where the significand is rounded up.
    have hpower : (2 : ℚ) ^ e = (Nat.pow 2 53 : Nat) * 2 ^ (e - 53) := by
      rw [← two_zpow_add_natCast]
      congr 1
      omega
    rw [rounded, hsame, hpower, mul_lt_mul_iff_left₀ (two_zpow_pos _), Nat.cast_lt,
      roundedAt_lt_iff hden (by decide), show e - 53 - 1 = e - 54 by omega]
  · -- The binade starts at the power or above.
    have hleast : binade num den ≠ -1074 := by omega
    have habove : (2 : ℚ) ^ e ≤ 2 ^ (binade num den + 52) := by
      apply zpow_le_zpow_right₀ one_le_two
      omega
    have hquotient := (binade_spec hnum hden).2.resolve_left hleast
    have hrounded := two_zpow_le_rounded hnum hden hleast
    apply iff_of_false
    · linarith
    · linarith

theorem rounded_lt_two_zpow (hden : 0 < den) (he : -1021 ≤ e) (h : (num : ℚ) / den ≤ 2 ^ (e - 1)) :
    rounded num den < 2 ^ e := by
  have hhalf : (2 : ℚ) ^ (e - 54) < 2 ^ (e - 1) := zpow_lt_zpow_right₀ one_lt_two (by omega)
  rw [rounded_lt_two_zpow_iff hden he, two_zpow_eq_add e]
  exact add_lt_add_of_le_of_lt h hhalf

/-- The first power of two that is too great for a finite double. -/
def limit : ℚ :=
  2 ^ (1024 : Int)

theorem limit_le_two_zpow (h : 1024 ≤ e) : limit ≤ 2 ^ e :=
  zpow_le_zpow_right₀ one_le_two h

theorem two_zpow_le_limit (h : e ≤ 1024) : 2 ^ e ≤ limit :=
  zpow_le_zpow_right₀ one_le_two h

theorem limit_pos : 0 < limit :=
  two_zpow_pos 1024

end Double

namespace FiniteDouble

/-- The number that a finite double stands for. -/
def value (x : FiniteDouble) : ℚ :=
  (if x.negative then -1 else 1) * (x.significand * 2 ^ x.exponent)

theorem value_eq_units (x : FiniteDouble) : x.value = x.units * 2 ^ (-1074 : Int) := by
  obtain ⟨n, hn⟩ := Int.eq_ofNat_of_zero_le (show 0 ≤ x.exponent + 1074 by
    have := x.canonical.2.1
    omega)
  have hexponent : x.exponent = -1074 + n := by omega
  have hmagnitude : (x.significand : ℚ) * 2 ^ x.exponent =
      (x.significand * Nat.pow 2 (x.exponent + 1074).toNat : Nat) * 2 ^ (-1074 : Int) := by
    rw [hn, hexponent, Double.two_zpow_add_natCast, Int.toNat_natCast, Nat.cast_mul, mul_assoc]
  rw [value, hmagnitude, units]
  cases x.negative <;> simp

/-- The order of doubles is the order of the numbers that they stand for. -/
theorem value_lt_value_iff {x y : FiniteDouble} : x.value < y.value ↔ x.units < y.units := by
  rw [value_eq_units, value_eq_units, mul_lt_mul_iff_left₀ (Double.two_zpow_pos _), Int.cast_lt]

theorem value_eq_value_iff {x y : FiniteDouble} : x.value = y.value ↔ x.units = y.units := by
  rw [value_eq_units, value_eq_units, mul_left_inj' (Double.two_zpow_pos _).ne', Int.cast_inj]

theorem value_lt_limit (x : FiniteDouble) : x.value < Double.limit := by
  obtain ⟨hbits, -, hexponent, -⟩ := x.canonical
  have hmagnitude : (x.significand : ℚ) * 2 ^ x.exponent < Double.limit := by
    calc (x.significand : ℚ) * 2 ^ x.exponent
        < (Nat.pow 2 53 : Nat) * 2 ^ x.exponent :=
        mul_lt_mul_of_pos_right (Nat.cast_lt.2 hbits) (Double.two_zpow_pos _)
      _ = 2 ^ (x.exponent + 53) := (Double.two_zpow_add_natCast _ 53).symm
      _ ≤ Double.limit := Double.two_zpow_le_limit (by omega)
  have hnonneg : 0 ≤ (x.significand : ℚ) * 2 ^ x.exponent :=
    mul_nonneg (Nat.cast_nonneg _) (Double.two_zpow_pos _).le
  rw [value]
  cases x.negative with
  | false =>
    rw [if_neg Bool.false_ne_true, one_mul]
    exact hmagnitude
  | true =>
    rw [if_pos rfl, neg_one_mul]
    exact (neg_nonpos.2 hnonneg).trans_lt Double.limit_pos

end FiniteDouble

namespace Double

variable {m : Nat} {negative : Bool}

/-- Parts of 53 bits give the double that stands for them, unless they are too great. -/
theorem ofParts_spec (negative : Bool) (hm : m < Nat.pow 2 53) (he : -1074 ≤ e)
    (hfull : Nat.pow 2 52 ≤ m ∨ e = -1074) :
    (∃ x, ofParts negative m e = .finite x ∧
      x.value = (if negative then -1 else 1) * (m * 2 ^ e)) ∨
    (ofParts negative m e = .infinite negative ∧ limit ≤ m * 2 ^ e) := by
  rw [ofParts]
  split
  · exact .inl ⟨_, rfl, rfl⟩
  · rename_i hcanonical
    have hgreat : 972 ≤ e := by
      by_contra hlt
      exact hcanonical ⟨hm, he, by omega, hfull⟩
    have hm' : Nat.pow 2 52 ≤ m := hfull.resolve_right (by omega)
    refine .inr ⟨rfl, ?_⟩
    calc limit
      _ ≤ 2 ^ (e + 52) := limit_le_two_zpow (by omega)
      _ = (Nat.pow 2 52 : Nat) * 2 ^ e := two_zpow_add_natCast e 52
      _ ≤ m * 2 ^ e := mul_le_mul_of_nonneg_right (Nat.cast_le.2 hm') (two_zpow_pos e).le

/-- The double nearest to a quotient stands for the rounded quotient, and is infinite where that is
too great for a finite one. -/
theorem ofRatio_spec (negative : Bool) (num : Nat) (hden : 0 < den) :
    (∃ x, ofRatio negative num den = .finite x ∧
      x.value = (if negative then -1 else 1) * rounded num den) ∨
    (ofRatio negative num den = .infinite negative ∧ limit ≤ rounded num den) := by
  have hleast := le_binade num den
  by_cases hnum : num = 0
  · subst hnum
    refine .inl ⟨.zero negative, if_pos rfl, ?_⟩
    rw [rounded_zero hden, FiniteDouble.value, FiniteDouble.zero, Nat.cast_zero, zero_mul]
  · rw [ofRatio, if_neg hnum]
    dsimp only
    by_cases hcarry : roundedAt num den (binade num den) = Nat.pow 2 53
    · have hrounded : rounded num den = (Nat.pow 2 52 : Nat) * 2 ^ (binade num den + 1) := by
        rw [rounded, hcarry, ← two_zpow_add_natCast, ← two_zpow_add_natCast]
        congr 1
        omega
      rw [if_pos hcarry, hrounded]
      exact ofParts_spec negative (by decide) (by omega) (.inl le_rfl)
    · have hle := roundedAt_binade_le hnum hden
      rw [if_neg hcarry]
      apply ofParts_spec negative (by omega) hleast
      by_cases he : binade num den = -1074
      · exact .inr he
      · exact .inl (le_roundedAt_binade hnum hden he)

theorem exists_ofRatio_eq_finite (hden : 0 < den) (h : rounded num den < limit) :
    ∃ x, ofRatio negative num den = .finite x := by
  obtain ⟨x, hx, -⟩ | ⟨-, hgreat⟩ := ofRatio_spec negative num hden
  · exact ⟨x, hx⟩
  · exact absurd h (not_lt.2 hgreat)

theorem ofRatio_lt_finite_iff (hden : 0 < den) {y : FiniteDouble} :
    (ofRatio false num den).lt (.finite y) = true ↔ rounded num den < y.value := by
  obtain ⟨x, hx, hvalue⟩ | ⟨hx, hgreat⟩ := ofRatio_spec false num hden
  · rw [hx, lt, decide_eq_true_iff, ← FiniteDouble.value_lt_value_iff, hvalue]
    simp
  · rw [hx, lt]
    simpa using y.value_lt_limit.le.trans hgreat

end Double

end LifecycleFlow
