import Mathlib.Data.List.Basic

/-!
# Histories in which everything fits what came before it

A law about the order of events says of each of them what must have happened before. `EachAfter P`
is the law whose requirement is `P`: it holds of every event of a history together with the events
that precede it. A history that grows at its end keeps the law as long as what is added fits
(`eachAfter_append`), so an invariant of a run needs to look at the latest events only.
-/

universe u

variable {ε : Type u} {P Q : List ε → ε → Prop} {history added : List ε} {event : ε}

/-- Every event fits the events before it. -/
def EachAfter (P : List ε → ε → Prop) (history : List ε) : Prop :=
  ∀ before event after, history = before ++ event :: after → P before event

theorem eachAfter_nil : EachAfter P [] :=
  fun _ _ _ h ↦ absurd h.symm (List.append_ne_nil_of_right_ne_nil _ (List.cons_ne_nil _ _))

/-- **A history that grows**: the old events fit what came before them, and each new one the old
events and the new ones before it. -/
theorem eachAfter_append : EachAfter P (history ++ added) ↔
    EachAfter P history ∧ EachAfter (fun before event ↦ P (history ++ before) event) added := by
  constructor
  · refine fun h ↦ ⟨fun before event after hsplit ↦ ?_, fun before event after hsplit ↦ ?_⟩
    · refine h before event (after ++ added) ?_
      rw [hsplit, List.append_assoc, List.cons_append]
    · refine h (history ++ before) event after ?_
      rw [hsplit, List.append_assoc]
  · rintro ⟨hold, hnew⟩ before event after hsplit
    rcases List.append_eq_append_iff.1 hsplit with ⟨more, rfl, hadded⟩ | ⟨rest, rfl, hrest⟩
    · exact hnew more event after hadded
    · cases rest with
      | nil =>
        have hfirst := hnew [] event after hrest.symm
        rwa [List.append_nil, List.append_nil] at hfirst
      | cons first rest =>
        rw [List.cons_append, List.cons.injEq] at hrest
        obtain ⟨rfl, -⟩ := hrest
        exact hold before event rest rfl

theorem eachAfter_singleton : EachAfter P [event] ↔ P [] event := by
  refine ⟨fun h ↦ h [] event [] rfl, fun h before other after hsplit ↦ ?_⟩
  cases before with
  | nil =>
    obtain ⟨rfl, -⟩ := List.cons.inj hsplit
    exact h
  | cons first before => exact absurd (List.cons.inj hsplit).2.symm (by simp)

/-- One more event. -/
theorem eachAfter_snoc : EachAfter P (history ++ [event]) ↔
    EachAfter P history ∧ P history event := by
  rw [eachAfter_append, eachAfter_singleton, List.append_nil]
