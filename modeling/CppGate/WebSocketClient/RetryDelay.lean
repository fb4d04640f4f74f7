import CppGate.WebSocketClient.Connection
import Mathlib.Algebra.Order.Ring.Rat
import Mathlib.Data.Rat.Floor
import Mathlib.Tactic.Linarith

/-!
# The delay before a retry

`retryDelay` of `WebSocketClient.cpp`, in exact arithmetic. Its loop doubles the delay while it is
below the cap, and what it ends with is capped again: so the loop may stop early, and start above
the cap, without a difference (`min_doubled`).

What `scheduleRetry` hands to it is the number of failures in a row, and the jitter that it draws is
the caller's here.
-/

namespace CppGate.WebSocketClient

/-- `WebSocketClient::Reconnect`, as far as `retryDelay` reads it: counts of milliseconds. -/
structure Delays where
  initialDelay : ℤ := 500
  maxDelay : ℤ := 30000
  deriving DecidableEq, Repr

/-- The loop of `retryDelay`, with so many rounds to come. -/
def doubled (cap : ℚ) : ℕ → ℚ → ℚ
  | 0, delay => delay
  | rounds + 1, delay => if delay < cap then doubled cap rounds (delay * 2) else delay

/-- `delay` in `retryDelay`, before the jitter. The loop counts from 1 up to `attempt`. -/
def Delays.base (r : Delays) (attempt : ℕ) : ℚ :=
  min (doubled r.maxDelay (attempt - 1) r.initialDelay) r.maxDelay

/-- `static_cast<long long>`, which drops the fraction. -/
def truncate (x : ℚ) : ℤ :=
  x.num.tdiv x.den

/-- `retryDelay`, with the jitter that it draws. -/
def retryDelay (r : Delays) (attempt : ℕ) (jitter : ℚ) : ℤ :=
  truncate (r.base attempt * jitter)

/-! ### The loop -/

/-- **The loop is capped doubling**, wherever it stops. -/
theorem min_doubled (cap : ℚ) (rounds : ℕ) {delay : ℚ} (hdelay : 0 ≤ delay) :
    min (doubled cap rounds delay) cap = min (delay * 2 ^ rounds) cap := by
  induction rounds generalizing delay with
  | zero => rw [doubled, pow_zero, mul_one]
  | succ rounds ih =>
    rw [doubled]
    split
    · rw [ih (mul_nonneg hdelay zero_le_two), pow_succ', mul_assoc]
    · next hcap =>
      -- at the cap or above it the rounds that are left change nothing
      have hle : cap ≤ delay := not_lt.1 hcap
      have hgrown : delay ≤ delay * 2 ^ (rounds + 1) :=
        le_mul_of_one_le_right hdelay (one_le_pow₀ one_le_two)
      rw [min_eq_right hle, min_eq_right (hle.trans hgrown)]

/-- Dropping the fraction rounds down. -/
theorem truncate_of_nonneg {x : ℚ} (hx : 0 ≤ x) : truncate x = ⌊x⌋ := by
  rw [truncate, Int.tdiv_eq_ediv_of_nonneg (Rat.num_nonneg.2 hx)]
  exact (Rat.floor_def x).symm

variable {r : Delays}

/-- The loop doubles the delay up to its limit. -/
theorem Delays.base_eq (hinitial : 0 ≤ r.initialDelay) (attempt : ℕ) :
    r.base attempt = min ((r.initialDelay : ℚ) * 2 ^ (attempt - 1)) r.maxDelay :=
  min_doubled _ _ (Int.cast_nonneg hinitial)

theorem Delays.base_nonneg (hinitial : 0 ≤ r.initialDelay) (hmax : 0 ≤ r.maxDelay)
    (attempt : ℕ) : 0 ≤ r.base attempt := by
  rw [base_eq hinitial]
  exact le_min (mul_nonneg (Int.cast_nonneg hinitial) (by positivity)) (Int.cast_nonneg hmax)

/-- The delay does not go down. -/
theorem Delays.base_mono (hinitial : 0 ≤ r.initialDelay) : Monotone r.base := by
  intro attempt later hle
  have hpow : (2 : ℚ) ^ (attempt - 1) ≤ 2 ^ (later - 1) :=
    pow_le_pow_right₀ one_le_two (Nat.sub_le_sub_right hle 1)
  rw [base_eq hinitial, base_eq hinitial]
  exact min_le_min_right _ (mul_le_mul_of_nonneg_left hpow (Int.cast_nonneg hinitial))

/-! ### The delay -/

/-- **Retry delays follow the capped doubling**, up to the jitter. -/
theorem retryDelay_capped (hinitial : 0 ≤ r.initialDelay) (hmax : 0 ≤ r.maxDelay) (attempt : ℕ)
    {jitter : ℚ} (hlow : 4 / 5 ≤ jitter) (hhigh : jitter < 6 / 5) :
    r.base attempt = min ((r.initialDelay : ℚ) * 2 ^ (attempt - 1)) r.maxDelay ∧
      retryDelay r attempt jitter = ⌊r.base attempt * jitter⌋ ∧
      (∀ later, attempt ≤ later → r.base attempt ≤ r.base later) ∧
      r.base attempt ≤ r.maxDelay ∧
      ⌊4 / 5 * r.base attempt⌋ ≤ retryDelay r attempt jitter ∧
      retryDelay r attempt jitter ≤ ⌊6 / 5 * r.base attempt⌋ := by
  have hbase := Delays.base_nonneg hinitial hmax attempt
  have hjitter : 0 ≤ jitter := le_trans (by norm_num) hlow
  have hfloor : retryDelay r attempt jitter = ⌊r.base attempt * jitter⌋ :=
    truncate_of_nonneg (mul_nonneg hbase hjitter)
  refine ⟨Delays.base_eq hinitial attempt, hfloor, fun later hle ↦ Delays.base_mono hinitial hle,
    min_le_right _ _, ?_, ?_⟩
  · rw [hfloor, mul_comm]
    exact Int.floor_mono (mul_le_mul_of_nonneg_left hlow hbase)
  · rw [hfloor, mul_comm (6 / 5 : ℚ)]
    exact Int.floor_mono (mul_le_mul_of_nonneg_left hhigh.le hbase)

/-- The default delays before the eighth retry, with no jitter: the cap is reached. -/
theorem retryDelay_capped_eighth :
    retryDelay {} 8 1 = 30000 ∧ (({} : Delays).base 8 : ℚ) ≤ 30000 ∧
      retryDelay {} 8 1 ≤ ⌊6 / 5 * ({} : Delays).base 8⌋ := by
  obtain ⟨-, -, -, hcap, -, hhigh⟩ := retryDelay_capped (r := {}) (by decide) (by decide) 8
    (show 4 / 5 ≤ (1 : ℚ) by norm_num) (by norm_num)
  exact ⟨by decide +kernel, hcap, hhigh⟩

end CppGate.WebSocketClient
