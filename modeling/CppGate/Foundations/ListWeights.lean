import Mathlib.Algebra.BigOperators.Group.List.Basic
import Mathlib.Tactic.Abel

/-!
# Weighing the entries of a list

A table of threads is a list that changes one entry at a time. What such a table holds altogether is
a sum of weights over its entries, and the two facts here say how one change moves the sum: by the
difference of the weights of the old and the new entry (`sum_map_set_add`), so not at all when the
change keeps every entry's weight (`sum_map_foldl_modify`).
-/

namespace List

variable {α M : Type*} [AddCommMonoid M]

/-- Replacing one entry exchanges its weight for the new one's. -/
theorem sum_map_set_add (f : α → M) {l : List α} {i : ℕ} {a : α} (h : l[i]? = some a) (b : α) :
    ((l.set i b).map f).sum + f a = (l.map f).sum + f b := by
  induction l generalizing i with
  | nil => simp at h
  | cons x l ih =>
    cases i with
    | zero =>
      obtain rfl : x = a := by simpa using h
      rw [set_cons_zero, map_cons, map_cons, sum_cons, sum_cons]
      abel
    | succ i =>
      rw [set_cons_succ, map_cons, map_cons, sum_cons, sum_cons, add_assoc, add_assoc,
        ih (by simpa using h)]

/-- A change that keeps each entry's weight keeps the sum. -/
theorem sum_map_modify (f : α → M) {g : α → α} (hg : ∀ a, f (g a) = f a) (l : List α) (i : ℕ) :
    ((l.modify i g).map f).sum = (l.map f).sum := by
  induction l generalizing i with
  | nil => cases i <;> rfl
  | cons x l ih =>
    cases i with
    | zero => simp [hg]
    | succ i => simp [ih]

/-- So does a series of such changes. -/
theorem sum_map_foldl_modify (f : α → M) {g : α → α} (hg : ∀ a, f (g a) = f a) (is : List ℕ)
    (l : List α) : ((is.foldl (fun l i ↦ l.modify i g) l).map f).sum = (l.map f).sum := by
  induction is generalizing l with
  | nil => rfl
  | cons i is ih => rw [foldl_cons, ih, sum_map_modify f hg]

/-- The entries such a series does not name stay as they are. -/
theorem getElem?_foldl_modify_of_not_mem {g : α → α} {is : List ℕ} {j : ℕ} (hj : j ∉ is)
    (l : List α) : (is.foldl (fun l i ↦ l.modify i g) l)[j]? = l[j]? := by
  induction is generalizing l with
  | nil => rfl
  | cons i is ih =>
    rw [mem_cons, not_or] at hj
    rw [foldl_cons, ih hj.2, getElem?_modify_ne _ _ (Ne.symm hj.1)]

/-- The entries it names once change once. -/
theorem getElem?_foldl_modify_of_mem {g : α → α} {is : List ℕ} {j : ℕ} (his : is.Nodup)
    (hj : j ∈ is) (l : List α) : (is.foldl (fun l i ↦ l.modify i g) l)[j]? = l[j]?.map g := by
  induction is generalizing l with
  | nil => exact absurd hj not_mem_nil
  | cons i is ih =>
    obtain ⟨hi, hnodup⟩ := nodup_cons.1 his
    rw [foldl_cons]
    rcases mem_cons.1 hj with rfl | hj
    · rw [getElem?_foldl_modify_of_not_mem hi, getElem?_modify_eq, Option.map_eq_map]
    · have hij : i ≠ j := fun h ↦ hi (h ▸ hj)
      rw [ih hnodup hj, getElem?_modify_ne _ _ hij]

end List
