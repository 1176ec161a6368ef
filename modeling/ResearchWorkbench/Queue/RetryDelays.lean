import ResearchWorkbench.Services.Jobs

namespace ResearchWorkbench

/-!
# Retry delays

How long `failJob` and `recoverExpiredJobs` let a job wait, and whether the database can hold it.

* `providerRetryAfterMs` — what a provider may ask for (`lib/providers/execution.ts`);
* `jitterMultiplier_le`, `delayLimit` — the jitter comes after the cap, and may double the delay;
* `writeDelay` — the writes of a delay, with the ranges of their types;
* `retry_delay_bounded` — a delay is at most the limit, and can be written if the limit can;
* `jitter_exceeds_maxDelayMs` — it is not at most `maxDelayMs`.
-/

/-! ### Providers -/

/-- `MAX_RETRY_AFTER_MS`. -/
def maxRetryAfterMs : ℕ := 24 * 60 * 60 * 1000

/-- `retryAfterMs` and `braveResetMs`, for the milliseconds that the headers ask for:
    `Math.min(MAX_RETRY_AFTER_MS, Math.max(0, Math.ceil(value)))`. -/
def providerRetryAfterMs (value : ℚ) : ℕ := min maxRetryAfterMs (max 0 ⌈value⌉).toNat

theorem providerRetryAfterMs_le (value : ℚ) : providerRetryAfterMs value ≤ maxRetryAfterMs :=
  min_le_left _ _

/-- What the error mapping hands on is at most a day. -/
theorem retryAfter_le (value : Option ℚ) :
    (value.map providerRetryAfterMs).getD 0 ≤ maxRetryAfterMs := by
  rcases value with _ | value
  · exact Nat.zero_le _
  · exact providerRetryAfterMs_le value

/-! ### The jitter -/

variable {policy : JobRetryPolicy} {random : ℚ} {attempt : ℕ}

/-- The policies that `parseJobRetryPolicy` admits. -/
theorem parseJobRetryPolicy_eq_ok (h : parseJobRetryPolicy policy = .ok policy) :
    1 ≤ policy.baseDelayMs ∧ policy.baseDelayMs ≤ policy.maxDelayMs ∧
      policy.maxDelayMs ≤ maxSafeInteger ∧ 0 ≤ policy.jitterRatio ∧ policy.jitterRatio ≤ 1 := by
  simp only [parseJobRetryPolicy, finiteInteger, bind_eq_ok, ensure_eq_ok, pure_eq_ok] at h
  rcases h with ⟨_, ⟨_, hbase, rfl⟩, _, ⟨_, hmax, rfl⟩, _, hratio, -⟩
  exact ⟨hbase.2, hmax.2, hmax.1, hratio⟩

theorem jitterMultiplier_nonneg (hratio : policy.jitterRatio ≤ 1) (hratio' : 0 ≤ policy.jitterRatio)
    (hrandom : 0 ≤ random) : 0 ≤ jitterMultiplier policy random := by
  unfold jitterMultiplier
  refine toDouble_nonneg (add_nonneg (toDouble_nonneg (by linarith)) (toDouble_nonneg ?_))
  exact mul_nonneg (toDouble_nonneg (mul_nonneg hrandom hratio')) (by norm_num)

/-- The multiplier grows with the random number. -/
theorem jitterMultiplier_le (hratio : 0 ≤ policy.jitterRatio) (hratio' : policy.jitterRatio ≤ 1)
    (hrandom : 0 ≤ random) (hrandom' : random ≤ 1) :
    jitterMultiplier policy random ≤ jitterMultiplier policy 1 := by
  have hmul : random * policy.jitterRatio ≤ 1 * policy.jitterRatio :=
    mul_le_mul_of_nonneg_right hrandom' hratio
  have hnonneg : 0 ≤ random * policy.jitterRatio := mul_nonneg hrandom hratio
  have hone : 0 ≤ toDouble (1 - policy.jitterRatio) := toDouble_nonneg (by linarith)
  have hdouble := toDouble_mono hnonneg hmul
  have htwice : toDouble (toDouble (random * policy.jitterRatio) * 2) ≤
      toDouble (toDouble (1 * policy.jitterRatio) * 2) :=
    toDouble_mono (mul_nonneg (toDouble_nonneg hnonneg) (by norm_num)) (by linarith)
  have htwice' : 0 ≤ toDouble (toDouble (random * policy.jitterRatio) * 2) :=
    toDouble_nonneg (mul_nonneg (toDouble_nonneg hnonneg) (by norm_num))
  exact toDouble_mono (add_nonneg hone htwice') (by linarith)

theorem isDouble_one : IsDouble 1 := by
  decide +kernel

theorem isDouble_two : IsDouble 2 := by
  decide +kernel

/-- From a half on, a double is so many last bits, and its difference from one is exact. -/
theorem exists_of_half_le (hdouble : IsDouble policy.jitterRatio)
    (hhalf : 1 / 2 ≤ policy.jitterRatio) (hratio : policy.jitterRatio ≤ 1) :
    ∃ n : ℕ, n ≤ 2 ^ 53 ∧ policy.jitterRatio = n * 2 ^ (-53 : ℤ) := by
  generalize policy.jitterRatio = r at *
  rcases hratio.eq_or_lt with rfl | hlt
  · exact ⟨2 ^ 53, le_refl _, by norm_num⟩
  · have hpos : 0 < r := by linarith
    have hlog : Int.log 2 r = -1 := by
      have hlow : -1 ≤ Int.log 2 r :=
        (Int.zpow_le_iff_le_log one_lt_two hpos).mp (by norm_num; linarith)
      have hhigh : Int.log 2 r < 0 :=
        (Int.lt_zpow_iff_log_lt one_lt_two hpos).mp (by norm_num; exact hlt)
      omega
    have hlast : lastBit r = -53 := by
      rw [lastBit, hlog]
      rfl
    have hround : r = roundHalfEven (r / 2 ^ (-53 : ℤ)) * 2 ^ (-53 : ℤ) := by
      have h := hdouble
      rw [IsDouble, toDouble, abs_of_pos hpos, hlast] at h
      exact h.symm
    generalize roundHalfEven (r / 2 ^ (-53 : ℤ)) = k at hround
    have hpower : (2 : ℚ) ^ (-53 : ℤ) = 1 / 2 ^ 53 := by norm_num
    rw [hpower] at hround
    have hk : (k : ℚ) = r * 2 ^ 53 := by
      rw [hround, mul_assoc]
      norm_num
    have hk0 : 0 ≤ k := by
      have : (0 : ℚ) ≤ k := by rw [hk]; linarith
      exact_mod_cast this
    have hk1 : k ≤ 2 ^ 53 := by
      have : (k : ℚ) ≤ 2 ^ 53 := by rw [hk]; linarith
      exact_mod_cast this
    refine ⟨k.toNat, by omega, ?_⟩
    rw [hpower]
    have hcast : ((k.toNat : ℤ) : ℚ) = k := by rw [Int.toNat_of_nonneg hk0]
    rw [Int.cast_natCast] at hcast
    rw [hcast]
    exact hround

/-- **Jitter at most doubles a delay.** -/
theorem jitterMultiplier_le_two (hdouble : IsDouble policy.jitterRatio)
    (hratio : 0 ≤ policy.jitterRatio) (hratio' : policy.jitterRatio ≤ 1) :
    jitterMultiplier policy 1 ≤ 2 := by
  have hone : 0 ≤ toDouble (1 - policy.jitterRatio) := toDouble_nonneg (by linarith)
  have hbound : toDouble (1 - policy.jitterRatio) +
      toDouble (toDouble (1 * policy.jitterRatio) * 2) ≤ 2 := by
    rw [one_mul, hdouble]
    by_cases hhalf : 1 / 2 ≤ policy.jitterRatio
    · rcases exists_of_half_le hdouble hhalf hratio' with ⟨n, hn, hr⟩
      have hsub : IsDouble (1 - policy.jitterRatio) := by
        have h := isDouble_mul_zpow (n := 2 ^ 53 - n) (by omega) (show -1074 ≤ (-53 : ℤ) by norm_num)
        rw [Nat.cast_sub hn, sub_mul, ← hr] at h
        have hpow : ((2 ^ 53 : ℕ) : ℚ) * 2 ^ (-53 : ℤ) = 1 := by norm_num
        rwa [hpow] at h
      have htwice : IsDouble (policy.jitterRatio * 2) := by
        have h := isDouble_mul_zpow hn (show -1074 ≤ (-52 : ℤ) by norm_num)
        have hpow : (2 : ℚ) ^ (-52 : ℤ) = 2 ^ (-53 : ℤ) * 2 := by norm_num
        rwa [hpow, ← mul_assoc, ← hr] at h
      rw [hsub, htwice]
      linarith
    · have hfirst : toDouble (1 - policy.jitterRatio) ≤ 1 :=
        (toDouble_mono (by linarith) (by linarith)).trans_eq isDouble_one
      have hsecond : toDouble (policy.jitterRatio * 2) ≤ 1 :=
        (toDouble_mono (by linarith) (by linarith)).trans_eq isDouble_one
      linarith
  have hnonneg : 0 ≤ toDouble (toDouble (1 * policy.jitterRatio) * 2) :=
    toDouble_nonneg (mul_nonneg (toDouble_nonneg (by linarith)) (by norm_num))
  exact (toDouble_mono (add_nonneg hone hnonneg) hbound).trans_eq isDouble_two

/-! ### The limit -/

/-- The largest delay of a policy: the capped delay with the largest jitter. -/
def delayLimit (policy : JobRetryPolicy) : ℕ :=
  (mathRound (toDouble (policy.maxDelayMs * jitterMultiplier policy 1))).toNat

theorem mathRound_mono {x y : ℚ} (h : x ≤ y) : mathRound x ≤ mathRound y :=
  Int.floor_mono (by linarith)

theorem delayLimit_le (h : parseJobRetryPolicy policy = .ok policy)
    (hdouble : IsDouble policy.jitterRatio) : delayLimit policy ≤ 2 * policy.maxDelayMs := by
  rcases parseJobRetryPolicy_eq_ok h with ⟨_, _, hmax, hratio, hratio'⟩
  have hnonneg := jitterMultiplier_nonneg hratio' hratio (show (0 : ℚ) ≤ 1 by norm_num)
  have htwice : IsDouble ((policy.maxDelayMs : ℚ) * 2) := by
    have h := isDouble_mul_zpow (n := policy.maxDelayMs) (by unfold maxSafeInteger at hmax; omega)
      (show -1074 ≤ (1 : ℤ) by norm_num)
    rwa [zpow_one] at h
  have hround : toDouble (policy.maxDelayMs * jitterMultiplier policy 1) ≤ policy.maxDelayMs * 2 :=
    (toDouble_mono (mul_nonneg (Nat.cast_nonneg _) hnonneg)
      (mul_le_mul_of_nonneg_left (jitterMultiplier_le_two hdouble hratio hratio')
        (Nat.cast_nonneg _))).trans_eq htwice
  have hint : mathRound ((policy.maxDelayMs : ℚ) * 2) = ((policy.maxDelayMs * 2 : ℕ) : ℤ) := by
    rw [mathRound, Int.floor_eq_iff]
    push_cast
    constructor <;> linarith
  have hle := mathRound_mono hround
  rw [hint] at hle
  unfold delayLimit
  omega

/-- The delay without a provider's: the doubled delay, capped, with its jitter. -/
def jitteredDelay (attempt : ℕ) (policy : JobRetryPolicy) (random : ℚ) : ℕ :=
  let exponential := min policy.maxDelayMs (policy.baseDelayMs * 2 ^ min (attempt - 1) 30)
  (max 0 (mathRound (toDouble (exponential * jitterMultiplier policy random)))).toNat

theorem jitteredDelay_le (h : parseJobRetryPolicy policy = .ok policy) (hrandom : 0 ≤ random)
    (hrandom' : random ≤ 1) : jitteredDelay attempt policy random ≤ delayLimit policy := by
  rcases parseJobRetryPolicy_eq_ok h with ⟨_, _, _, hratio, hratio'⟩
  have hnonneg := jitterMultiplier_nonneg hratio' hratio hrandom
  have hcapped : ((min policy.maxDelayMs (policy.baseDelayMs * 2 ^ min (attempt - 1) 30) : ℕ) : ℚ) ≤
      policy.maxDelayMs := by
    exact_mod_cast min_le_left _ _
  have hproduct := mul_le_mul hcapped (jitterMultiplier_le hratio hratio' hrandom hrandom') hnonneg
    (Nat.cast_nonneg _)
  have hround := mathRound_mono (toDouble_mono (mul_nonneg (Nat.cast_nonneg _) hnonneg) hproduct)
  simp only [jitteredDelay, delayLimit]
  omega

/-- The delay that is computed. -/
theorem calculateRetryDelayMs_eq (h : parseJobRetryPolicy policy = .ok policy)
    (hattempt : 1 ≤ attempt) (hattempt' : attempt ≤ maxSafeInteger) (hrandom : 0 ≤ random)
    (hrandom' : random ≤ 1) {retryAfterMs : Option ℕ}
    (hafter : retryAfterMs.getD 0 ≤ maxSafeInteger) :
    calculateRetryDelayMs attempt policy retryAfterMs random =
      .ok (max (jitteredDelay attempt policy random) (retryAfterMs.getD 0)) := by
  simp only [calculateRetryDelayMs, finiteInteger, bind_eq_ok, ensure_eq_ok, pure_eq_ok]
  exact ⟨attempt, ⟨(), ⟨hattempt', hattempt⟩, rfl⟩, policy, h, (), ⟨hrandom, hrandom'⟩, (), hafter,
    rfl⟩

/-! ### The writes -/

/-- The largest `BIGINT`; an interval counts its microseconds in one. -/
def maxBigint : ℕ := 9223372036854775807

/-- The first microsecond after 2000-01-01 that is no `TIMESTAMPTZ`. -/
def timestampEnd : ℤ := 9223371331200000000

/-- What `failJob` and `recoverExpiredJobs` write for a delay at a time in microseconds after
    2000-01-01: `scheduled_at = NOW() + ($3::bigint * INTERVAL '1 millisecond')`, and
    `retry_after_ms INTEGER`; none if a value is out of range. -/
def writeDelay (now : ℤ) (delay : ℕ) : Option (ℤ × ℕ) :=
  if delay ≤ maxBigint ∧ delay * 1000 ≤ maxBigint ∧ now + delay * 1000 < timestampEnd ∧
      delay ≤ maxInteger then
    some (now + delay * 1000, delay)
  else none

/-- An `INTEGER` of milliseconds is an interval, and a time as long as there is time for it. -/
theorem writeDelay_eq_some {now : ℤ} {delay : ℕ} (hdelay : delay ≤ maxInteger)
    (hnow : now + maxInteger * 1000 < timestampEnd) :
    writeDelay now delay = some (now + delay * 1000, delay) := by
  unfold writeDelay
  rw [if_pos]
  unfold maxInteger at *
  unfold maxBigint timestampEnd at *
  refine ⟨?_, ?_, ?_, hdelay⟩ <;> omega

/-- **Retry delays are bounded.**  For a policy that is admitted, and what a provider may ask for,
    there is a delay; it is at most the limit of the policy, which is at most twice `maxDelayMs`, or
    what the provider asks for; and if the limit is an `INTEGER`, `failJob` and `recoverExpiredJobs`
    get the delay and can write it. -/
theorem retry_delay_bounded (h : parseJobRetryPolicy policy = .ok policy)
    (hdouble : IsDouble policy.jitterRatio) (hattempt : 1 ≤ attempt)
    (hattempt' : attempt ≤ maxSafeInteger) (hrandom : 0 ≤ random) (hrandom' : random ≤ 1)
    (retryAfter : Option ℚ) :
    ∃ delay, calculateRetryDelayMs attempt policy (retryAfter.map providerRetryAfterMs) random =
        .ok delay ∧
      delay ≤ max (delayLimit policy) ((retryAfter.map providerRetryAfterMs).getD 0) ∧
      delayLimit policy ≤ 2 * policy.maxDelayMs ∧
      (delayLimit policy ≤ maxInteger →
        (∀ target, retryDelay target attempt policy (retryAfter.map providerRetryAfterMs) random =
          .ok (if target = .retryWait then some delay else none)) ∧
        ∀ now : ℤ, now + maxInteger * 1000 < timestampEnd →
          writeDelay now delay = some (now + delay * 1000, delay)) := by
  have hday := retryAfter_le retryAfter
  have hafter : (retryAfter.map providerRetryAfterMs).getD 0 ≤ maxSafeInteger :=
    hday.trans (by decide)
  have hdelay := calculateRetryDelayMs_eq h hattempt hattempt' hrandom hrandom' hafter
  have hle : max (jitteredDelay attempt policy random) ((retryAfter.map providerRetryAfterMs).getD 0)
      ≤ max (delayLimit policy) ((retryAfter.map providerRetryAfterMs).getD 0) :=
    max_le_max (jitteredDelay_le h hrandom hrandom') le_rfl
  refine ⟨_, hdelay, hle, delayLimit_le h hdouble, ?_⟩
  intro hlimit
  have hday' : (retryAfter.map providerRetryAfterMs).getD 0 ≤ maxInteger := hday.trans (by decide)
  have hinteger := hle.trans (max_le hlimit hday')
  refine ⟨?_, fun now hnow => writeDelay_eq_some hinteger hnow⟩
  intro target
  unfold retryDelay
  split
  · simp only [bind_eq_ok, ensure_eq_ok, pure_eq_ok]
    exact ⟨_, hdelay, (), hinteger, rfl⟩
  · rfl

/-- The default policy, at its last attempt, with a provider that asks for two minutes. -/
theorem retry_delay_bounded_default :
    ∃ delay, calculateRetryDelayMs 100 defaultJobRetryPolicy
        ((some 120000).map providerRetryAfterMs) 1 = .ok delay ∧
      delay ≤ max (delayLimit defaultJobRetryPolicy) 120000 := by
  rcases retry_delay_bounded parseJobRetryPolicy_default (by decide +kernel)
    (show 1 ≤ 100 by decide) (by decide) (show (0 : ℚ) ≤ 1 by norm_num) le_rfl (some 120000) with
    ⟨delay, hdelay, hle, _⟩
  refine ⟨delay, hdelay, ?_⟩
  have hprovider : ((some 120000).map providerRetryAfterMs).getD 0 = 120000 := by decide +kernel
  rw [hprovider] at hle
  exact hle

/-- **The jitter exceeds the cap.**  With the default policy, the delay after the 20th attempt may
    be 72 seconds, where `maxDelayMs` is a minute. -/
theorem jitter_exceeds_maxDelayMs :
    ¬ ∀ (policy : JobRetryPolicy) (attempt : ℕ) (random : ℚ) (retryAfter : Option ℚ),
      parseJobRetryPolicy policy = .ok policy → IsDouble policy.jitterRatio → 1 ≤ attempt →
      attempt ≤ 100 → 0 ≤ random → random ≤ 1 →
      ∃ delay, calculateRetryDelayMs attempt policy (retryAfter.map providerRetryAfterMs) random =
          .ok delay ∧
        delay ≤ max policy.maxDelayMs ((retryAfter.map providerRetryAfterMs).getD 0) := by
  intro hall
  rcases hall defaultJobRetryPolicy 20 1 none parseJobRetryPolicy_default (by decide +kernel)
    (by decide) (by decide) (by norm_num) (by norm_num) with ⟨delay, hdelay, hle⟩
  have hvalue : (calculateRetryDelayMs 20 defaultJobRetryPolicy none 1).toOption = some 72000 := by
    decide +kernel
  have hdelay' : (calculateRetryDelayMs 20 defaultJobRetryPolicy none 1).toOption = some delay :=
    congrArg Except.toOption hdelay
  rw [hvalue] at hdelay'
  cases hdelay'
  exact absurd hle (by decide)

end ResearchWorkbench
