import Gatekeeper.Proofs.Number.Whole
import Mathlib.Tactic.NormNum
import Std.Data.String.ToNat

/-!
# The digits of whole numbers

A whole number is written with digits alone, and reading them gives the number back. The search for
few digits never gets to a grid finer than that of the whole numbers, because on this grid the
number itself is found.
-/

set_option autoImplicit false

namespace Gatekeeper.Number

variable {x : Number} {value den : Nat} {d : Decimal}

theorem ofDigitChars_zeros (n places : Nat) :
    Nat.ofDigitChars 10 (zeros places) n = n * 10 ^ places := by
  induction places generalizing n with
  | zero => simp [zeros, Nat.ofDigitChars]
  | succ places ih =>
    have step : Nat.ofDigitChars 10 (zeros (places + 1)) n =
        Nat.ofDigitChars 10 (zeros places) (10 * n) := by
      simp [zeros, List.replicate_succ, Nat.ofDigitChars]
    rw [step, ih]
    ring

theorem Decimal.chars_whole (coefficient places : Nat) :
    let cs := (Decimal.mk coefficient (.ofNat places)).chars
    cs ≠ [] ∧ (∀ c ∈ cs, c.isDigit = true) ∧
      Nat.ofDigitChars 10 cs 0 = coefficient * 10 ^ places := by
  show Nat.toDigits 10 coefficient ++ zeros places ≠ [] ∧
    (∀ c ∈ Nat.toDigits 10 coefficient ++ zeros places, c.isDigit = true) ∧
      Nat.ofDigitChars 10 (Nat.toDigits 10 coefficient ++ zeros places) 0 = _
  refine ⟨by simp [Nat.toDigits_ne_nil], ?_, ?_⟩
  · intro c hc
    rcases List.mem_append.1 hc with digit | zero
    · exact Nat.isDigit_of_mem_toDigits (by decide) (by decide) digit
    · rw [(List.mem_replicate.1 zero).2]
      decide
  · rw [Nat.ofDigitChars_append, Nat.ofDigitChars_toDigits (by decide) (by decide),
      ofDigitChars_zeros]

theorem Decimal.toNumber_whole (coefficient places : Nat) :
    (Decimal.mk coefficient (.ofNat places)).toNumber = ofNat (coefficient * 10 ^ places) := rfl

theorem onGrid?_eq_some {num : Nat} {exponent : Int} (h : onGrid? x num den exponent = some d) :
    d.exponent = exponent ∧ d.toNumber = x := by
  simp only [onGrid?] at h
  split at h
  · rename_i below above
    split at h
    · cases h
      exact ⟨rfl, of_decide_eq_true below⟩
    · cases h
      exact ⟨rfl, of_decide_eq_true above⟩
  · rename_i below _
    cases h
    exact ⟨rfl, of_decide_eq_true below⟩
  · rename_i above
    cases h
    exact ⟨rfl, of_decide_eq_true above⟩
  · cases h

theorem onGrid?_ne_none {num n d' : Nat} {exponent : Int}
    (grid : perPowerOfTen num den exponent = (n, d'))
    (below : (Decimal.mk (n / d') exponent).toNumber = x) : onGrid? x num den exponent ≠ none := by
  rw [onGrid?, grid]
  dsimp only
  rw [decide_eq_true below]
  cases decide ((Decimal.mk (n / d' + 1) exponent).toNumber = x) with
  | true => dsimp only; split <;> exact Option.some_ne_none _
  | false => exact Option.some_ne_none _

/-- On the grid of the whole numbers a whole number is its own neighbour. -/
theorem onGrid?_whole (whole : Whole x value) (positive : 0 < den) :
    onGrid? x (value * den) den (.ofNat 0) ≠ none := by
  have grid : perPowerOfTen (value * den) den (.ofNat 0) = (value * den, den) := by
    simp [perPowerOfTen]
  have itself : (Decimal.mk value (.ofNat 0)).toNumber = x := by
    rw [Decimal.toNumber_whole, pow_zero, Nat.mul_one, whole.ofNat_eq]
  apply onGrid?_ne_none grid
  rw [Nat.mul_div_cancel value positive, itself]

/-- A search that has to stop short of this grid has used up all of its tries. -/
theorem search_whole (whole : Whole x value) (positive : 0 < den) (places tries : Nat) :
    (∀ d, search x (value * den) den (.ofNat places) tries = some d →
      d.toNumber = x ∧ ∃ k, d.exponent = .ofNat k) ∧
    (search x (value * den) den (.ofNat places) tries = none → tries ≤ places) := by
  induction tries generalizing places with
  | zero => simp [search]
  | succ tries ih =>
    rw [search]
    cases found : onGrid? x (value * den) den (.ofNat places) with
    | some d =>
      obtain ⟨exponent, reads⟩ := onGrid?_eq_some found
      refine ⟨?_, nofun⟩
      rintro d' same
      cases same
      exact ⟨reads, places, exponent⟩
    | none =>
      cases places with
      | zero => exact absurd found (onGrid?_whole whole positive)
      | succ places =>
        obtain ⟨reads, short⟩ := ih places
        have finer : Int.ofNat (places + 1) - 1 = Int.ofNat places := by simp
        rw [finer]
        exact ⟨reads, fun h => Nat.succ_le_succ (short h)⟩

theorem Whole.value_eq (whole : Whole x value) (coarse : finestScale ≤ x.scale) :
    value = x.significand * 2 ^ (x.scale - finestScale) := by
  have worth : value * 2 ^ finestScale =
      x.significand * 2 ^ (x.scale - finestScale) * 2 ^ finestScale := by
    rw [whole.scaled, Nat.mul_assoc, ← pow_add, Nat.sub_add_cancel coarse]
  exact Nat.eq_of_mul_eq_mul_right (Nat.two_pow_pos _) worth

theorem Whole.quotient_eq (whole : Whole x value) :
    ∃ den, 0 < den ∧ x.quotient = (value * den, den) := by
  unfold quotient
  split_ifs with coarse
  · refine ⟨1, Nat.one_pos, ?_⟩
    rw [whole.value_eq coarse, Nat.mul_one, Nat.pow_eq]
  · refine ⟨2 ^ (finestScale - x.scale), Nat.two_pow_pos _, ?_⟩
    have worth : value * 2 ^ (finestScale - x.scale) * 2 ^ x.scale =
        x.significand * 2 ^ x.scale := by
      rw [← whole.scaled, Nat.mul_assoc, ← pow_add, Nat.sub_add_cancel (Nat.le_of_not_le coarse)]
    rw [Nat.eq_of_mul_eq_mul_right (Nat.two_pow_pos _) worth, Nat.pow_eq]

/-- A value of eighteen digits leaves no bits for a fraction. -/
theorem Whole.coarse_of_long (whole : Whole x value) (long : 10 ^ 17 ≤ value) :
    finestScale ≤ x.scale := by
  by_contra fine
  have bound := (magnitudeBits_eq x).2.1
  have short : value * 2 ^ finestScale ≤ x.significand * 2 ^ finestScale := by
    rw [whole.scaled]
    exact Nat.mul_le_mul_left _ (Nat.pow_le_pow_right (by decide) (Nat.le_of_not_le fine))
  have small := Nat.le_of_mul_le_mul_right short (Nat.two_pow_pos _)
  rw [exponentWeight] at bound
  omega

theorem Whole.exact_eq (whole : Whole x value) (coarse : finestScale ≤ x.scale) :
    x.exact = ⟨value, .ofNat 0⟩ := by
  rw [exact, if_pos coarse, whole.value_eq coarse, Nat.pow_eq]
  rfl

/-- The shortest decimal of a positive whole number has no places after the point. -/
theorem Whole.shortest_eq (whole : Whole x value) (positive : value ≠ 0) :
    ∃ coefficient places, x.shortest = ⟨coefficient, .ofNat places⟩ ∧
      ofNat (coefficient * 10 ^ places) = x := by
  obtain ⟨den, hden, quotient⟩ := whole.quotient_eq
  have leading : leadingPower (value * den) den = .ofNat (decimalLength value) := by
    rw [leadingPower, if_pos (Nat.le_mul_of_pos_left _ (Nat.pos_of_ne_zero positive)),
      Nat.mul_div_cancel value hden]
  obtain ⟨reads, short⟩ := search_whole whole hden (decimalLength value) 18
  rw [shortest, quotient]
  dsimp only
  rw [leading]
  cases found : search x (value * den) den (.ofNat (decimalLength value)) 18 with
  | some d =>
    obtain ⟨number, places, exponent⟩ := reads d found
    obtain ⟨coefficient, e⟩ := d
    dsimp only at exponent
    subst exponent
    exact ⟨coefficient, places, rfl, number⟩
  | none =>
    have long : 10 ^ 17 ≤ value := by
      by_contra few
      have length := (Nat.length_toDigits_le_iff (b := 10) (k := 17) (by decide) (by decide)).2
        (Nat.lt_of_not_le few)
      have tries : 18 ≤ (Nat.toDigits 10 value).length := short found
      omega
    refine ⟨value, 0, whole.exact_eq (whole.coarse_of_long long), ?_⟩
    rw [pow_zero, Nat.mul_one, whole.ofNat_eq]

theorem Whole.magnitudeChars_eq (whole : Whole x value) :
    let cs := x.magnitudeChars
    cs ≠ [] ∧ (∀ c ∈ cs, c.isDigit = true) ∧ ofNat (Nat.ofDigitChars 10 cs 0) = x := by
  have magnitude := magnitudeBits_of_le (Nat.le_of_lt whole.finite)
  by_cases zero : x.magnitudeBits = 0
  · have nothing : value = 0 := by
      have fields := (magnitudeBits_eq x).1
      have none : x.significand = 0 := by omega
      have worth := whole.scaled
      rw [none, Nat.zero_mul] at worth
      exact (Nat.mul_eq_zero.1 worth).resolve_right (Nat.ne_of_gt (Nat.two_pow_pos _))
    rw [magnitudeChars, if_pos zero]
    refine ⟨List.cons_ne_nil _ _, List.forall_mem_singleton.2 rfl, ?_⟩
    rw [← whole.ofNat_eq, nothing]
    rfl
  · have something : value ≠ 0 := by
      rintro rfl
      have worth := whole.scaled
      rw [Nat.zero_mul] at worth
      have none := (Nat.mul_eq_zero.1 worth.symm).resolve_right (Nat.ne_of_gt (Nat.two_pow_pos _))
      obtain ⟨fields, -, subnormal⟩ := magnitudeBits_eq x
      rw [none, subnormal (by rw [none]; decide), Nat.zero_mul] at fields
      exact zero fields
    obtain ⟨coefficient, places, written, number⟩ := whole.shortest_eq something
    have same : (⟨UInt64.ofNat x.magnitudeBits⟩ : Number) = x := by simp [magnitude]
    obtain ⟨nonempty, digits, reads⟩ := Decimal.chars_whole coefficient places
    rw [magnitudeChars, if_neg zero, same, written]
    exact ⟨nonempty, digits, by rw [reads, number]⟩

theorem Whole.text_eq (whole : Whole x value) : x.text = String.ofList x.magnitudeChars := by
  have magnitude := magnitudeBits_of_le (Nat.le_of_lt whole.finite)
  have bits := whole.finite
  have below : infinityBits < signWeight := by decide
  have number : x.isNaN = false := by
    rw [isNaN, decide_eq_false_iff_not]
    omega
  have unsigned : x.isNegative = false := by
    rw [isNegative, decide_eq_false_iff_not]
    omega
  have finite : x.isInfinite = false := by
    rw [isInfinite, decide_eq_false_iff_not]
    omega
  simp [text, number, unsigned, finite]

/-- What finite digits write is written back in digits, and these read back to it. -/
theorem ofDigits_text {digits : String} (finite : (ofDigits digits).isFinite = true) :
    (ofDigits digits).text.toList ≠ [] ∧
      (∀ c ∈ (ofDigits digits).text.toList, c.isDigit = true) ∧
        ofDigits (ofDigits digits).text = ofDigits digits := by
  obtain ⟨value, whole⟩ := whole_ofNat finite
  obtain ⟨nonempty, all, reads⟩ := Whole.magnitudeChars_eq (x := ofDigits digits) whole
  have written : (ofDigits digits).text = String.ofList (ofDigits digits).magnitudeChars :=
    Whole.text_eq whole
  rw [written, String.toList_ofList]
  refine ⟨nonempty, all, ?_⟩
  rw [ofDigits, String.toList_ofList, reads]

/-- What digits write that is not finite is written as a word. -/
theorem ofDigits_text_infinite {digits : String} (infinite : (ofDigits digits).isFinite = false) :
    (ofDigits digits).text = "inf" := by
  have same : ofDigits digits = infinity := ofNat_eq_infinity infinite
  rw [same]
  decide +kernel

end Gatekeeper.Number
