import DecimalConformance.Decimal.Power
import DecimalConformance.Proofs.Decimal.IdealForm
import DecimalConformance.Proofs.Except

/-! Rounded products beyond the largest exponent.
An exponent says nothing about what is done to a coefficient.  So a factor whose exponent was held back
leads to the same product, held back as well, unless the other factor brings the exponent down again. -/
namespace DecimalConformance.Decimal

variable {a b c d : Decimal} {precision working : Nat} {mode : RoundingMode}

/-! ## Other exponents -/

/-- The decimal, so many places further up. -/
def lifted (d : Decimal) (places : Nat) : Decimal := ⟨d.coefficient, d.exponent + places⟩

@[simp] theorem digits_lifted (d : Decimal) (places : Nat) : (d.lifted places).digits = d.digits := rfl

@[simp] theorem digits_capped (d : Decimal) : d.capped.digits = d.digits := rfl

theorem product_lifted (a b : Decimal) (m n : Nat) :
    (a.lifted m).product (b.lifted n) = (a.product b).lifted (m + n) := by
  simp only [product, lifted, Nat.cast_add, mk.injEq, true_and]
  omega

/-- Rounding looks at the coefficient alone. -/
theorem roundFreely_lifted (d : Decimal) (precision : Nat) (mode : RoundingMode) (places : Nat) :
    (d.lifted places).roundFreely precision mode = (d.roundFreely precision mode).lifted places := by
  unfold roundFreely
  rw [digits_lifted]
  split_ifs
  · rfl
  · dsimp only [lifted]
    split_ifs <;> exact congrArg (Decimal.mk _) (by dsimp only; omega)

/-- A decimal lies above what is left of it by as many places as it was held back. -/
theorem lifted_capped (d : Decimal) :
    d = d.capped.lifted (d.exponent - exponentMax).toNat := by
  cases d
  simp only [lifted, capped, mk.injEq, true_and]
  omega

/-- Lifting changes nothing that is held back already. -/
theorem capped_lifted {places : Nat} (h : places = 0 ∨ exponentMax ≤ d.exponent) :
    (d.lifted places).capped = d.capped := by
  simp only [lifted, capped, mk.injEq, true_and]
  omega

theorem exponent_le_roundFreely (d : Decimal) (precision : Nat) (mode : RoundingMode) :
    d.exponent ≤ (d.roundFreely precision mode).exponent := by
  unfold roundFreely
  split_ifs
  · exact le_rfl
  · dsimp only
    split_ifs <;> dsimp only <;> omega

/-- It does not matter whether an exponent is held back before rounding, too. -/
theorem capped_roundFreely_capped (d : Decimal) (precision : Nat) (mode : RoundingMode) :
    (d.capped.roundFreely precision mode).capped = (d.roundFreely precision mode).capped := by
  conv_rhs => rw [lifted_capped d, roundFreely_lifted]
  refine (capped_lifted ?_).symm
  have least := exponent_le_roundFreely d.capped precision mode
  simp only [capped] at *
  omega

/-! ## Products -/

/-- The product rounded to the nearest decimal, whatever exponent that takes. -/
def freeProduct (working : Nat) (a b : Decimal) : Decimal :=
  (a.product b).roundFreely working .nearestEven

/-- A product that is given has its exponent held back, and nothing else is wrong with it. -/
theorem eq_capped_of_roundedProduct (filled : 0 < working)
    (h : roundedProduct a b working = .ok c) :
    ExponentFits (a.product b).exponent ∧ c = (freeProduct working a b).capped := by
  obtain ⟨exact, multiplied, rounded⟩ := exists_of_bind_eq_ok h
  obtain rfl := Except.ok.inj rounded
  unfold multiply at multiplied
  dsimp only at multiplied
  split_ifs at multiplied with fits
  obtain rfl := Except.ok.inj multiplied
  exact ⟨fits, round_eq_capped .nearestEven filled fits⟩

/-- Where a factor is held back, the product is unless the other factor brings its exponent down. -/
theorem capped_freeProduct (working : Nat) (left : exponentMax < a.exponent → 0 ≤ b.exponent)
    (right : exponentMax < b.exponent → 0 ≤ a.exponent) :
    (freeProduct working a.capped b.capped).capped = (freeProduct working a b).capped := by
  conv_rhs => rw [lifted_capped a, lifted_capped b, freeProduct, product_lifted, roundFreely_lifted]
  refine (capped_lifted ?_).symm
  have exponent : (a.capped.product b.capped).exponent =
      min exponentMax a.exponent + min exponentMax b.exponent := rfl
  have least := exponent_le_roundFreely (a.capped.product b.capped) working .nearestEven
  rw [← freeProduct, exponent] at least
  simp only [exponentMax] at *
  omega

theorem digits_freeProduct_le (filled : 0 < working) (a b : Decimal) :
    (freeProduct working a b).digits ≤ working := by
  rcases Nat.lt_or_ge working (a.product b).digits with long | short
  · exact (digits_roundFreely_of_lt .nearestEven filled long).le
  · rwa [freeProduct, roundFreely, if_pos (.inr short)]

/-! ## Leading digits -/

/-- The place of the leading digit, whether there is such an exponent or not. -/
def lead (d : Decimal) : Int := d.exponent + d.digits - 1

theorem exponent_le_lead (d : Decimal) : d.exponent ≤ d.lead := by
  have single := d.digits_pos
  rw [lead]
  omega

theorem abs_value_lead (nonzero : d.coefficient ≠ 0) :
    (10 : ℚ) ^ d.lead ≤ |d.value| ∧ |d.value| < 10 ^ (d.lead + 1) := by
  obtain ⟨least, most⟩ := abs_value_bounds nonzero
  have first : (d.digits : Int) - 1 + d.exponent = d.lead := by
    rw [lead]
    omega
  have next : (d.digits : Int) + d.exponent = d.lead + 1 := by
    rw [lead]
    omega
  rw [first] at least
  rw [next] at most
  exact ⟨least, most⟩

theorem product_ne_zero (left : a.coefficient ≠ 0) (right : b.coefficient ≠ 0) :
    (a.product b).coefficient ≠ 0 := Int.mul_ne_zero left right

/-- Leading digits make one of the two places where their product leads. -/
theorem lead_product (left : a.coefficient ≠ 0) (right : b.coefficient ≠ 0) :
    a.lead + b.lead ≤ (a.product b).lead ∧ (a.product b).lead ≤ a.lead + b.lead + 1 := by
  obtain ⟨leastLeft, mostLeft⟩ := abs_value_lead left
  obtain ⟨leastRight, mostRight⟩ := abs_value_lead right
  obtain ⟨least, most⟩ := abs_value_lead (product_ne_zero left right)
  rw [value_product, abs_mul] at least most
  have ten : (1 : ℚ) < 10 := by norm_num
  have below : (10 : ℚ) ^ (a.lead + b.lead) < 10 ^ ((a.product b).lead + 1) := by
    rw [zpow_add₀ (by norm_num)]
    exact (mul_le_mul leastLeft leastRight (by positivity) (abs_nonneg _)).trans_lt most
  have above : (10 : ℚ) ^ (a.product b).lead < 10 ^ (a.lead + 1 + (b.lead + 1)) := by
    rw [zpow_add₀ (by norm_num)]
    exact least.trans_lt (mul_lt_mul'' mostLeft mostRight (abs_nonneg _) (abs_nonneg _))
  have low := (zpow_lt_zpow_iff_right₀ ten).mp below
  have high := (zpow_lt_zpow_iff_right₀ ten).mp above
  omega

/-- A carry moves the leading digit by one place, and nothing else does. -/
theorem lead_roundFreely (d : Decimal) (mode : RoundingMode) (filled : 0 < precision) :
    d.lead ≤ (d.roundFreely precision mode).lead ∧
      (d.roundFreely precision mode).lead ≤ d.lead + 1 := by
  rcases Nat.lt_or_ge precision d.digits with long | short
  · have digits := digits_roundFreely_of_lt mode filled long
    obtain ⟨kept, carry, -, carried, -, -, free⟩ := roundFreely_of_lt mode filled long
    have single : carry ≤ 1 := by
      rw [carried]
      split <;> omega
    rw [free] at digits
    rw [free, lead, lead, digits]
    dsimp only
    omega
  · rw [roundFreely, if_pos (.inr short)]
    omega

theorem roundFreely_ne_zero (nonzero : d.coefficient ≠ 0) (precision : Nat) (mode : RoundingMode) :
    (d.roundFreely precision mode).coefficient ≠ 0 := by
  rw [← value_eq_zero_iff.ne] at nonzero ⊢
  intro zero
  have rounded := d.roundsTo_roundFreely precision mode
  rw [zero] at rounded
  exact nonzero rounded.eq_zero

theorem lead_freeProduct (filled : 0 < working) (left : a.coefficient ≠ 0) (right : b.coefficient ≠ 0) :
    a.lead + b.lead ≤ (freeProduct working a b).lead ∧
      (freeProduct working a b).lead ≤ a.lead + b.lead + 2 := by
  have product := lead_product left right
  have rounded := lead_roundFreely (a.product b) .nearestEven filled
  rw [freeProduct]
  omega

end DecimalConformance.Decimal
