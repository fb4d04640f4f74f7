import Mathlib.Data.BitVec

/-!
# Prefixes of bit vectors

The first bits of a vector, counted from the most significant one, as networks use them: two vectors
that agree on a prefix (`Agree`), and a vector whose other bits are cleared (`IsPrefix`). Clearing
says on which prefix two vectors agree (`eq_iff_agree`).
-/

namespace BitPrefix

variable {w n : ℕ}

/-- The first `n` bits are the same. -/
def Agree (n : ℕ) (x y : BitVec w) : Prop :=
  ∀ i < n, x.getMsbD i = y.getMsbD i

instance (n : ℕ) (x y : BitVec w) : Decidable (Agree n x y) :=
  inferInstanceAs (Decidable (∀ i < n, x.getMsbD i = y.getMsbD i))

/-- The first `n` bits of a vector, and no others. -/
def IsPrefix (n : ℕ) (x prefixed : BitVec w) : Prop :=
  ∀ i < w, prefixed.getMsbD i = (decide (i < n) && x.getMsbD i)

/-- Clear all bits but the first `n`. -/
def clear (n : ℕ) (x : BitVec w) : BitVec w :=
  x &&& BitVec.allOnes w <<< (w - n)

theorem isPrefix_clear (n : ℕ) (x : BitVec w) : IsPrefix n x (clear n x) := by
  intro i hi
  rw [clear, BitVec.getMsbD_and, BitVec.getMsbD_shiftLeft, BitVec.getMsbD_allOnes, Bool.and_comm]
  congr 1
  rw [decide_eq_decide]
  omega

/-- **Two prefixes are equal exactly if the vectors agree.** -/
theorem eq_iff_agree {x y px py : BitVec w} (hn : n ≤ w) (hx : IsPrefix n x px)
    (hy : IsPrefix n y py) : px = py ↔ Agree n x y := by
  constructor
  · rintro rfl i hi
    have hxi := hx i (by omega)
    have hyi := hy i (by omega)
    rw [decide_eq_true hi, Bool.true_and] at hxi hyi
    exact hxi.symm.trans hyi
  · intro h
    refine BitVec.eq_of_getMsbD_eq fun i hi ↦ ?_
    rw [hx i hi, hy i hi]
    by_cases hin : i < n
    · rw [h i hin]
    · rw [decide_eq_false hin, Bool.false_and, Bool.false_and]

/-- Bits in front lengthen the prefix. -/
theorem agree_append_iff {v : ℕ} (z : BitVec v) {x y : BitVec w} :
    Agree (v + n) (z ++ x) (z ++ y) ↔ Agree n x y := by
  constructor
  · intro h i hi
    have hbit := h (v + i) (by omega)
    rwa [BitVec.getMsbD_append, BitVec.getMsbD_append, if_pos (Nat.le_add_right v i),
      if_pos (Nat.le_add_right v i), Nat.add_sub_cancel_left] at hbit
  · intro h i hi
    rw [BitVec.getMsbD_append, BitVec.getMsbD_append]
    split
    · exact h (i - v) (by omega)
    · rfl

end BitPrefix
