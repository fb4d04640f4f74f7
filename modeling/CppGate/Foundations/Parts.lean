import CppGate.Foundations.Machine

/-!
# Machines made of parts

Where a machine consists of parts that run side by side, a part follows a machine of its own if each
step of the whole leaves it alone or is one of its own steps. Parts come and go: a part may appear
in any state its machine reaches. What holds of every state of the part's machine then holds of the
part in every state of the whole (`ReachableVia.part`), however many parts there are and however
their steps interleave. What the steps of the whole are assumed to meet may be what makes those of
the part meet what is assumed there.
-/

universe u v w x

namespace Machine

variable {σ : Type u} {α : Type v} {S : Type w} {A : Type x} {M : Machine σ α} {N : Machine S A}
  {C : σ → α → Prop} {D : S → A → Prop}

/-- What one step of the whole may do to a part whose steps meet `C`. -/
inductive FollowsVia (M : Machine σ α) (C : σ → α → Prop) : Option σ → Option σ → Prop
  | stays (p : Option σ) : FollowsVia M C p p
  | steps (s : σ) (a : α) (t : σ) (hc : C s a) (h : M.step s a = some t) :
    FollowsVia M C (some s) (some t)
  | appears (p : Option σ) (t : σ) (h : M.ReachableVia C t) : FollowsVia M C p (some t)
  | goes (p : Option σ) : FollowsVia M C p none

/-- What one step of the whole may do to a part. -/
abbrev Follows (M : Machine σ α) : Option σ → Option σ → Prop :=
  M.FollowsVia fun _ _ ↦ True

theorem FollowsVia.reachable {p p' : Option σ} (h : M.FollowsVia C p p')
    (hp : ∀ s, p = some s → M.ReachableVia C s) : ∀ t, p' = some t → M.ReachableVia C t := by
  intro t ht
  cases h with
  | stays => exact hp t ht
  | steps s a t' hc hst => exact Option.some.inj ht ▸ (hp s rfl).step hc hst
  | appears _ t' hreach => exact Option.some.inj ht ▸ hreach
  | goes => exact absurd ht.symm (Option.some_ne_none t)

/-- **Parts reach what their own machine reaches.** -/
theorem ReachableVia.part {s : S} (h : N.ReachableVia D s) (part : S → Option σ)
    (hinit : ∀ s, N.Init s → M.FollowsVia C none (part s))
    (hstep : ∀ s a t, N.ReachableVia D s → D s a → N.step s a = some t →
      M.FollowsVia C (part s) (part t)) {p : σ} (hp : part s = some p) : M.ReachableVia C p := by
  have hall : N.ReachableVia D s ∧ ∀ p, part s = some p → M.ReachableVia C p := by
    refine h.invariant (I := fun s ↦ N.ReachableVia D s ∧
      ∀ p, part s = some p → M.ReachableVia C p) ?_ ?_
    · exact fun s hs ↦ ⟨.init hs, (hinit s hs).reachable fun s hnone ↦
        absurd hnone.symm (Option.some_ne_none s)⟩
    · exact fun s a t hs hd hst ↦ ⟨hs.1.step hd hst, (hstep s a t hs.1 hd hst).reachable hs.2⟩
  exact hall.2 p hp

/-- The parts of a machine whose steps need not meet anything. -/
theorem Reachable.part {s : S} (h : N.Reachable s) (part : S → Option σ)
    (hinit : ∀ s, N.Init s → M.Follows none (part s))
    (hstep : ∀ s a t, N.Reachable s → N.step s a = some t → M.Follows (part s) (part t)) {p : σ}
    (hp : part s = some p) : M.Reachable p :=
  ReachableVia.part h part hinit (fun s a t hs _ hst ↦ hstep s a t hs hst) hp

end Machine
