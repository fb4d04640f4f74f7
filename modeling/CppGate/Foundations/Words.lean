import Mathlib.Data.Int.Basic
import Mathlib.Tactic.Positivity
import Mathlib.Tactic.Ring

/-!
# Wrapping machine words

The word arithmetics a 64-bit program computes with, as functions on the integers they stand for:
`signed` reduces an integer to the range of a signed word, `add` and `sub` are the operations of
unsigned words, which wrap at the ends of their range. Each is the exact operation as long as the
exact result is representable, and a counter that only these operations move holds its exact value
modulo `2 ^ w` (`add_mod`, `sub_mod`).
-/

namespace Word

/-- The value of an integer in a signed word of `w` bits. -/
def signed (w : ℕ) (x : ℤ) : ℤ :=
  x.bmod (2 ^ w)

/-- The sum of two unsigned words of `w` bits. -/
def add (w : ℕ) (n k : ℕ) : ℕ :=
  if n + k < 2 ^ w then n + k else n + k - 2 ^ w

/-- The difference of two unsigned words of `w` bits. -/
def sub (w : ℕ) (n k : ℕ) : ℕ :=
  if k ≤ n then n - k else n + 2 ^ w - k

/-- A representable integer is unchanged. -/
theorem signed_eq_self {w : ℕ} {x : ℤ} (hlo : -2 ^ w ≤ x) (hhi : x < 2 ^ w) :
    signed (w + 1) x = x := by
  have hpos : (0 : ℤ) < 2 ^ w := by positivity
  have hcast : ((2 ^ (w + 1) : ℕ) : ℤ) = 2 * 2 ^ w := by push_cast; ring
  refine Int.bmod_eq_of_le ?_ ?_ <;> rw [hcast] <;> omega

/-- A word of `w + 1` bits stays below `2 ^ w`. -/
theorem signed_lt (w : ℕ) (x : ℤ) : signed (w + 1) x < 2 ^ w := by
  have hpos : (0 : ℤ) < 2 ^ w := by positivity
  have hcast : ((2 ^ (w + 1) : ℕ) : ℤ) = 2 * 2 ^ w := by push_cast; ring
  have hlt : x.bmod (2 ^ (w + 1)) < _ := Int.bmod_lt (Nat.two_pow_pos (w + 1))
  rw [hcast] at hlt
  rw [signed]
  omega

/-- A sum that does not reach `2 ^ w` is exact. -/
theorem add_eq_of_lt {w n k : ℕ} (h : n + k < 2 ^ w) : add w n k = n + k :=
  if_pos h

/-- A difference that does not go below zero is exact. -/
theorem sub_eq_of_le {w n k : ℕ} (h : k ≤ n) : sub w n k = n - k :=
  if_pos h

/-- A counter that goes on has another value. -/
theorem add_one_ne {w : ℕ} (n : ℕ) (hw : 0 < w) : add w n 1 ≠ n := by
  have htwo : 2 ^ 1 ≤ 2 ^ w := Nat.pow_le_pow_right (by decide) hw
  rw [add]
  split <;> omega

/-- Counting up in words of `w` bits. -/
theorem add_mod {w : ℕ} (n : ℕ) {k : ℕ} (hk : k < 2 ^ w) :
    add w (n % 2 ^ w) k = (n + k) % 2 ^ w := by
  have hn : n % 2 ^ w < 2 ^ w := Nat.mod_lt n (Nat.two_pow_pos w)
  rw [Nat.add_mod, Nat.mod_eq_of_lt hk, add]
  split
  · next hlt => exact (Nat.mod_eq_of_lt hlt).symm
  · next hge =>
    have hless : n % 2 ^ w + k - 2 ^ w < 2 ^ w := by omega
    exact ((Nat.mod_eq_sub_mod (Nat.le_of_not_lt hge)).trans (Nat.mod_eq_of_lt hless)).symm

/-- Counting down in words of `w` bits. -/
theorem sub_mod {w n k : ℕ} (hkn : k ≤ n) (hk : k < 2 ^ w) :
    sub w (n % 2 ^ w) k = (n - k) % 2 ^ w := by
  have hn : n % 2 ^ w < 2 ^ w := Nat.mod_lt n (Nat.two_pow_pos w)
  have hexact : (n - k + k) % 2 ^ w = n % 2 ^ w := by rw [Nat.sub_add_cancel hkn]
  have hr : (n - k) % 2 ^ w < 2 ^ w := Nat.mod_lt _ (Nat.two_pow_pos w)
  have hadd : add w ((n - k) % 2 ^ w) k = n % 2 ^ w := (add_mod (n - k) hk).trans hexact
  rw [add] at hadd
  rw [sub]
  split at hadd <;> split <;> omega

end Word
