import Gatekeeper.Number.Shortest
import Mathlib.Data.Nat.Log
import Mathlib.Tactic.Ring
import Mathlib.Tactic.SplitIfs

/-!
# Whole numbers

What digits write is a whole number or infinite, and reading the value of a whole number gives that
number: where there are bits enough nothing is rounded, and numbers without bits enough for a
fraction are whole.
-/

set_option autoImplicit false

namespace Gatekeeper.Number

structure Whole (x : Number) (value : Nat) : Prop where
  finite : x.bits.toNat < infinityBits
  scaled : value * 2 ^ finestScale = x.significand * 2 ^ x.scale

theorem magnitudeBits_of_le {x : Number} (h : x.bits.toNat ≤ infinityBits) :
    x.magnitudeBits = x.bits.toNat := by
  apply Nat.mod_eq_of_lt
  exact Nat.lt_of_le_of_lt h (by decide)

theorem toNat_ofNat {m : Nat} (h : m ≤ infinityBits) :
    (⟨UInt64.ofNat m⟩ : Number).bits.toNat = m := by
  have small : m < UInt64.size := Nat.lt_of_le_of_lt h (by decide)
  exact UInt64.toNat_ofNat_of_lt' small

theorem log2_scaled {m k : Nat} (positive : m ≠ 0) : Nat.log2 (m * 2 ^ k) = Nat.log2 m + k := by
  have power : 0 < 2 ^ k := Nat.two_pow_pos k
  have product : m * 2 ^ k ≠ 0 := Nat.mul_ne_zero positive (Nat.ne_of_gt power)
  have low := Nat.log2_self_le positive
  have high := Nat.lt_log2_self (n := m)
  rw [Nat.log2_eq_iff product]
  constructor
  · rw [pow_add]
    exact Nat.mul_le_mul_right _ low
  · rw [show m.log2 + k + 1 = m.log2 + 1 + k by omega, pow_add]
    exact Nat.mul_lt_mul_of_pos_right high power

theorem roundHalfEven_mul (q : Nat) {d : Nat} (positive : 0 < d) :
    roundHalfEven (q * d) d = q := by
  simp [roundHalfEven, Nat.mul_div_cancel q positive, positive]

theorem roundHalfEven_bounds (num den : Nat) :
    num / den ≤ roundHalfEven num den ∧ roundHalfEven num den ≤ num / den + 1 := by
  unfold roundHalfEven
  dsimp only
  split_ifs <;> omega

def wholeScale (n : Nat) : Nat := Nat.log2 (n * 2 ^ finestScale) - 52

def wholeSignificand (n : Nat) : Nat :=
  roundHalfEven (n * 2 ^ finestScale) (2 ^ wholeScale n)

theorem ofNat_eq (n : Nat) : ofNat n =
    ⟨UInt64.ofNat (min (wholeScale n * exponentWeight + wholeSignificand n) infinityBits)⟩ := by
  simp only [ofNat, ofQuotient, scaleOf, Nat.div_one, Nat.one_mul, Nat.pow_eq, wholeSignificand,
    wholeScale]

theorem bits_ofNat_le (n : Nat) : (ofNat n).bits.toNat ≤ infinityBits := by
  rw [ofNat_eq, toNat_ofNat (Nat.min_le_right _ _)]
  exact Nat.min_le_right _ _

theorem ofNat_eq_infinity {n : Nat} (infinite : (ofNat n).isFinite = false) :
    ofNat n = infinity := by
  have bound := bits_ofNat_le n
  have least := of_decide_eq_false infinite
  rw [magnitudeBits_of_le bound] at least
  have bits : (ofNat n).bits = infinity.bits := by
    rw [← UInt64.toNat_inj, infinity, toNat_ofNat (Nat.le_refl _)]
    omega
  exact congrArg Number.mk bits

/-- Both fields of a number in one, whether or not the significand is a full one. -/
theorem magnitudeBits_eq (x : Number) :
    x.magnitudeBits = x.scale * exponentWeight + x.significand ∧
      x.significand < 2 * exponentWeight ∧ (x.significand < exponentWeight → x.scale = 0) := by
  have split := Nat.div_add_mod x.magnitudeBits exponentWeight
  have fraction : x.magnitudeBits % exponentWeight < exponentWeight := Nat.mod_lt _ (by decide)
  unfold significand scale
  split_ifs with subnormal
  · rw [Nat.div_eq_of_lt subnormal]
    omega
  · have full : 1 ≤ x.magnitudeBits / exponentWeight := by
      rw [Nat.le_div_iff_mul_le (by decide)]
      omega
    obtain ⟨e, he⟩ := Nat.exists_eq_add_of_le' full
    rw [he] at split ⊢
    rw [Nat.mul_add, Nat.mul_comm] at split
    rw [Nat.add_sub_cancel]
    omega

variable {x : Number} {value : Nat}

theorem Whole.wholeScale_eq (whole : Whole x value) : wholeScale value = x.scale := by
  obtain ⟨-, bound, subnormal⟩ := magnitudeBits_eq x
  rw [wholeScale, whole.scaled]
  by_cases full : exponentWeight ≤ x.significand
  · have positive : x.significand ≠ 0 := Nat.ne_of_gt (Nat.lt_of_lt_of_le (by decide) full)
    have length : x.significand.log2 = 52 := (Nat.log2_eq_iff positive).2 ⟨full, bound⟩
    rw [log2_scaled positive, length]
    omega
  · rw [subnormal (by omega), pow_zero, Nat.mul_one]
    by_cases zero : x.significand = 0
    · rw [zero]
      decide
    · have short : x.significand.log2 < 52 := (Nat.log2_lt zero).2 (Nat.lt_of_not_le full)
      omega

theorem Whole.ofNat_eq (whole : Whole x value) : ofNat value = x := by
  have fields := (magnitudeBits_eq x).1
  have same := magnitudeBits_of_le (Nat.le_of_lt whole.finite)
  have exact : wholeSignificand value = x.significand := by
    rw [wholeSignificand, whole.wholeScale_eq, whole.scaled]
    exact roundHalfEven_mul _ (Nat.two_pow_pos _)
  have bits := whole.finite
  rw [Number.ofNat_eq, whole.wholeScale_eq, exact, ← fields, same, Nat.min_eq_left (by omega)]
  simp

theorem wholeScale_add {n : Nat} (positive : n ≠ 0) :
    wholeScale n + 52 = n.log2 + finestScale := by
  have fine : 52 ≤ finestScale := by decide
  rw [wholeScale, log2_scaled positive]
  omega

theorem wholeSignificand_bounds {n : Nat} (positive : n ≠ 0) :
    exponentWeight ≤ wholeSignificand n ∧ wholeSignificand n ≤ 2 * exponentWeight := by
  have power : 0 < 2 ^ wholeScale n := Nat.two_pow_pos _
  have length := wholeScale_add positive
  have low := Nat.log2_self_le positive
  have high := Nat.lt_log2_self (n := n)
  have scaledLow : 2 ^ 52 * 2 ^ wholeScale n ≤ n * 2 ^ finestScale := by
    rw [← pow_add, show 52 + wholeScale n = n.log2 + finestScale by omega, pow_add]
    exact Nat.mul_le_mul_right _ low
  have scaledHigh : n * 2 ^ finestScale < 2 ^ 53 * 2 ^ wholeScale n := by
    rw [← pow_add, show 53 + wholeScale n = n.log2 + 1 + finestScale by omega, pow_add]
    exact Nat.mul_lt_mul_of_pos_right high (Nat.two_pow_pos _)
  have quotientLow := (Nat.le_div_iff_mul_le power).2 scaledLow
  have quotientHigh := (Nat.div_lt_iff_lt_mul power).2 scaledHigh
  obtain ⟨below, above⟩ := roundHalfEven_bounds (n * 2 ^ finestScale) (2 ^ wholeScale n)
  rw [wholeSignificand, exponentWeight]
  omega

/-- What a full significand and a scale make is worth their product, also where the significand has
one binary digit too many. -/
theorem worth_of_bits {s g : Nat} (bits : x.bits.toNat = s * exponentWeight + g)
    (finite : x.bits.toNat ≤ infinityBits) (low : exponentWeight ≤ g)
    (high : g ≤ 2 * exponentWeight) : x.significand * 2 ^ x.scale = g * 2 ^ s := by
  obtain ⟨fields, bound, subnormal⟩ := magnitudeBits_eq x
  rw [magnitudeBits_of_le finite, bits] at fields
  simp only [exponentWeight] at *
  have carried : (x.scale = s ∧ x.significand = g) ∨
      (x.scale = s + 1 ∧ x.significand = 2 ^ 52 ∧ g = 2 ^ 53) := by omega
  rcases carried with ⟨hs, hg⟩ | ⟨hs, hx, hg⟩
  · rw [hs, hg]
  · rw [hs, hx, hg]
    ring

/-- Digits write a whole number if they do not write an infinite one. -/
theorem whole_ofNat {n : Nat} (finite : (ofNat n).isFinite = true) :
    ∃ value, Whole (ofNat n) value := by
  have below : (ofNat n).bits.toNat < infinityBits := by
    have magnitude := of_decide_eq_true finite
    rwa [magnitudeBits_of_le (bits_ofNat_le n)] at magnitude
  have unrounded : (ofNat n).bits.toNat = wholeScale n * exponentWeight + wholeSignificand n := by
    have bits := below
    rw [ofNat_eq, toNat_ofNat (Nat.min_le_right _ _)] at bits ⊢
    omega
  by_cases zero : n = 0
  · subst zero
    have none : (ofNat 0).significand = 0 := by decide +kernel
    exact ⟨0, below, by rw [none, Nat.zero_mul, Nat.zero_mul]⟩
  · obtain ⟨low, high⟩ := wholeSignificand_bounds zero
    have worth := worth_of_bits unrounded (Nat.le_of_lt below) low high
    have length := wholeScale_add zero
    by_cases long : 52 ≤ n.log2
    · -- the last binary digit counts one or more
      have exponents : n.log2 - 52 + finestScale = wholeScale n := by omega
      refine ⟨wholeSignificand n * 2 ^ (n.log2 - 52), below, ?_⟩
      rw [worth, Nat.mul_assoc, ← pow_add, exponents]
    · refine ⟨n, below, ?_⟩
      have exact : n * 2 ^ finestScale = n * 2 ^ (52 - n.log2) * 2 ^ wholeScale n := by
        rw [Nat.mul_assoc, ← pow_add, show 52 - n.log2 + wholeScale n = finestScale by omega]
      rw [worth, wholeSignificand, exact, roundHalfEven_mul _ (Nat.two_pow_pos _)]

end Gatekeeper.Number
