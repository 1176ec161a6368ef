import Mathlib.Algebra.Order.Field.Power
import Mathlib.Data.Int.Log
import Mathlib.Data.Rat.Floor

namespace ResearchWorkbench

/-!
# Doubles

Rounding to the nearest double, ties to even, of numbers that are not too large for one.

* `roundHalfEven` — the nearest integer;
* `toDouble` — the nearest double, on rationals that are at most `2 ^ 1023` away from zero;
* `toDouble_mono` — rounding keeps the order of numbers that are not negative;
* `IsDouble`, `isDouble_mul_zpow` — the numbers that are not rounded.
-/

/-- The nearest integer, the even one of two. -/
def roundHalfEven (x : ℚ) : ℤ :=
  let below := ⌊x⌋
  if x - below < 1 / 2 then below
  else if 1 / 2 < x - below then below + 1
  else below + below % 2

/-- The exponent of the last bit of the doubles around a number. -/
def lastBit (x : ℚ) : ℤ := max (Int.log 2 x - 52) (-1074)

/-- The nearest double. -/
def toDouble (x : ℚ) : ℚ := roundHalfEven (x / 2 ^ lastBit |x|) * 2 ^ lastBit |x|

/-- The number is a double. -/
def IsDouble (x : ℚ) : Prop := toDouble x = x

instance instDecidableIsDouble (x : ℚ) : Decidable (IsDouble x) :=
  inferInstanceAs (Decidable (_ = _))

/-! ### The nearest integer -/

variable {x y : ℚ}

@[simp] theorem roundHalfEven_intCast (n : ℤ) : roundHalfEven n = n := by
  simp [roundHalfEven]

theorem roundHalfEven_bounds (x : ℚ) :
    ⌊x⌋ ≤ roundHalfEven x ∧ roundHalfEven x ≤ ⌊x⌋ + 1 := by
  simp only [roundHalfEven]
  split
  · omega
  · split <;> omega

theorem roundHalfEven_mono (h : x ≤ y) : roundHalfEven x ≤ roundHalfEven y := by
  have hfloor : ⌊x⌋ ≤ ⌊y⌋ := Int.floor_mono h
  rcases hfloor.lt_or_eq with hlt | heq
  · have hx := (roundHalfEven_bounds x).2
    have hy := (roundHalfEven_bounds y).1
    omega
  · -- both are between the same integers
    have hsub : x - ⌊x⌋ ≤ y - ⌊y⌋ := by
      rw [heq]
      linarith
    simp only [roundHalfEven]
    rw [heq] at hsub ⊢
    by_cases hx : x - ⌊y⌋ < 1 / 2
    · rw [if_pos hx]
      split
      · exact le_refl _
      · split <;> omega
    · rw [if_neg hx, if_neg (by linarith : ¬ y - ⌊y⌋ < 1 / 2)]
      by_cases hx' : 1 / 2 < x - ⌊y⌋
      · rw [if_pos hx', if_pos (by linarith : 1 / 2 < y - ⌊y⌋)]
      · rw [if_neg hx']
        split <;> omega

/-! ### The nearest double -/

theorem two_zpow_pos (k : ℤ) : (0 : ℚ) < 2 ^ k := zpow_pos (by norm_num) k

/-- A number has at most 53 bits above the last one. -/
theorem lt_of_lastBit (x : ℚ) : x < 2 ^ (lastBit x + 53) := by
  have hlog : x < 2 ^ (Int.log 2 x + 1) := by exact_mod_cast Int.lt_zpow_succ_log_self one_lt_two x
  refine hlog.trans_le (zpow_le_zpow_right₀ (by norm_num) ?_)
  unfold lastBit
  omega

theorem lastBit_mono (hx : 0 < x) (h : x ≤ y) : lastBit x ≤ lastBit y := by
  have hlog := Int.log_mono_right (b := 2) hx h
  unfold lastBit
  omega

@[simp] theorem toDouble_zero : toDouble 0 = 0 := by
  have h : roundHalfEven 0 = 0 := roundHalfEven_intCast 0
  simp [toDouble, h]

/-- Numbers of whole last bits are doubles. -/
theorem isDouble_of_eq {n : ℤ} (hx : 0 ≤ x) (h : x = n * 2 ^ lastBit x) : IsDouble x := by
  have hdiv : x / 2 ^ lastBit x = n := by
    rw [div_eq_iff (two_zpow_pos _).ne']
    exact h
  rw [IsDouble, toDouble, abs_of_nonneg hx, hdiv, roundHalfEven_intCast]
  exact h.symm

/-- No number is rounded beyond the next power of two. -/
theorem toDouble_le (hx : 0 ≤ x) : toDouble x ≤ 2 ^ (lastBit x + 53) := by
  have hle : x / 2 ^ lastBit x ≤ ((2 ^ 53 : ℤ) : ℚ) := by
    rw [div_le_iff₀ (two_zpow_pos _)]
    refine (lt_of_lastBit x).le.trans_eq ?_
    rw [zpow_add₀ two_ne_zero, mul_comm]
    norm_num
  have hround := roundHalfEven_mono hle
  rw [roundHalfEven_intCast] at hround
  rw [toDouble, abs_of_nonneg hx, zpow_add₀ two_ne_zero, mul_comm _ ((2 : ℚ) ^ (53 : ℤ))]
  refine mul_le_mul_of_nonneg_right ?_ (two_zpow_pos _).le
  exact_mod_cast hround

/-- No number is rounded below a power of two that is a double. -/
theorem le_toDouble (hx : 0 ≤ x) (h : 2 ^ (lastBit x + 52) ≤ x) :
    2 ^ (lastBit x + 52) ≤ toDouble x := by
  have hle : ((2 ^ 52 : ℤ) : ℚ) ≤ x / 2 ^ lastBit x := by
    rw [le_div_iff₀ (two_zpow_pos _)]
    refine le_trans (le_of_eq ?_) h
    rw [zpow_add₀ two_ne_zero, mul_comm]
    norm_num
  have hround := roundHalfEven_mono hle
  rw [roundHalfEven_intCast] at hround
  rw [toDouble, abs_of_nonneg hx, zpow_add₀ two_ne_zero, mul_comm _ ((2 : ℚ) ^ (52 : ℤ))]
  refine mul_le_mul_of_nonneg_right ?_ (two_zpow_pos _).le
  exact_mod_cast hround

theorem toDouble_nonneg (hx : 0 ≤ x) : 0 ≤ toDouble x := by
  have hdiv : ((0 : ℤ) : ℚ) ≤ x / 2 ^ lastBit x := by
    rw [Int.cast_zero]
    exact div_nonneg hx (two_zpow_pos _).le
  have hround := roundHalfEven_mono hdiv
  rw [roundHalfEven_intCast] at hround
  rw [toDouble, abs_of_nonneg hx]
  exact mul_nonneg (by exact_mod_cast hround) (two_zpow_pos _).le

/-- **Rounding keeps the order.** -/
theorem toDouble_mono (hx : 0 ≤ x) (h : x ≤ y) : toDouble x ≤ toDouble y := by
  rcases hx.eq_or_lt with rfl | hpos
  · rw [toDouble_zero]
    exact toDouble_nonneg h
  have hy : 0 ≤ y := hx.trans h
  rcases (lastBit_mono hpos h).eq_or_lt with heq | hlt
  · -- in the same steps
    rw [toDouble, toDouble, abs_of_nonneg hx, abs_of_nonneg hy, heq]
    refine mul_le_mul_of_nonneg_right ?_ (two_zpow_pos _).le
    exact_mod_cast roundHalfEven_mono (div_le_div_of_nonneg_right h (two_zpow_pos _).le)
  · -- with a power of two between them
    have hlog : lastBit y + 52 = Int.log 2 y := by
      unfold lastBit at hlt ⊢
      omega
    have hpower : (2 : ℚ) ^ (lastBit y + 52) ≤ y := by
      rw [hlog]
      exact_mod_cast Int.zpow_log_le_self one_lt_two (hpos.trans_le h)
    calc toDouble x ≤ 2 ^ (lastBit x + 53) := toDouble_le hx
      _ ≤ 2 ^ (lastBit y + 52) := zpow_le_zpow_right₀ (by norm_num) (by omega)
      _ ≤ toDouble y := le_toDouble hy hpower

/-- Few bits above the last one that a double may have. -/
theorem isDouble_mul_zpow {n : ℕ} (hn : n ≤ 2 ^ 53) {k : ℤ} (hk : -1074 ≤ k) :
    IsDouble (n * 2 ^ k) := by
  have hnonneg : (0 : ℚ) ≤ n * 2 ^ k := mul_nonneg n.cast_nonneg (two_zpow_pos k).le
  rcases n.eq_zero_or_pos with rfl | hpos
  · simp [IsDouble]
  have hx : (0 : ℚ) < n * 2 ^ k := mul_pos (by exact_mod_cast hpos) (two_zpow_pos k)
  by_cases hle : lastBit (n * 2 ^ k) ≤ k
  · refine isDouble_of_eq (n := n * 2 ^ (k - lastBit (n * 2 ^ k)).toNat) hnonneg ?_
    push_cast
    rw [← zpow_natCast, Int.toNat_of_nonneg (by omega), mul_assoc, ← zpow_add₀ two_ne_zero,
      Int.sub_add_cancel]
  · -- only the next power of two has one bit more
    have hlog : k + 53 ≤ Int.log 2 ((n : ℚ) * 2 ^ k) := by
      unfold lastBit at hle
      omega
    have hpower : (2 : ℚ) ^ (k + 53) ≤ n * 2 ^ k :=
      (zpow_le_zpow_right₀ (by norm_num) hlog).trans
        (by exact_mod_cast Int.zpow_log_le_self one_lt_two hx)
    have hge : 2 ^ 53 ≤ n := by
      rw [add_comm, zpow_add₀ two_ne_zero] at hpower
      have hcast := le_of_mul_le_mul_right hpower (two_zpow_pos k)
      exact_mod_cast hcast
    have hn' : n = 2 ^ 53 := le_antisymm hn hge
    subst hn'
    have hone : ((2 ^ 53 : ℕ) : ℚ) * 2 ^ k = 2 ^ (53 + k) := by
      rw [zpow_add₀ two_ne_zero]
      norm_num
    have hlast : lastBit (((2 ^ 53 : ℕ) : ℚ) * 2 ^ k) = k + 1 := by
      have hlog' : Int.log 2 ((2 : ℚ) ^ (53 + k)) = 53 + k := by
        exact_mod_cast Int.log_zpow (R := ℚ) one_lt_two (53 + k)
      rw [hone, lastBit, hlog']
      omega
    refine isDouble_of_eq (n := 2 ^ 52) hnonneg ?_
    rw [hlast, hone, show 53 + k = 52 + (k + 1) by omega, zpow_add₀ two_ne_zero]
    norm_num

end ResearchWorkbench
