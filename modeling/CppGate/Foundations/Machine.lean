import Mathlib.Logic.Relation

/-!
# Labelled machines and their runs

A **labelled machine** is a set of initial states together with a partial step function: a label
that is not enabled in a state has no step there. Everything a concurrent component does is a run of
such a machine, so each invariant argument has the same two halves — it holds initially, and one
step preserves it — and is closed here once (`ReachableVia.invariant`).

* `ReachableVia C` restricts the steps to those that meet a condition `C` on the state before the
  step and the label. `Reachable` is the unrestricted case.
* `run` executes a list of labels, so a concrete run can be checked by evaluation; what it reaches
  is reachable (`run_reachable`).
* `logged` adds to each state the history of the run that led to it, `observed` what an observer has
  noted of it.
* `EveryStep P` says that `P` holds of every step a list of labels takes. Two such statements are
  compared step by step (`everyStep_congr`), under an invariant of the states passed through.
-/

universe u v

/-- A labelled machine: where runs start, and what a label does where it is enabled. -/
structure Machine (σ : Type u) (α : Type v) where
  /-- The states a run may start in. -/
  Init : σ → Prop
  /-- The step a label takes, or nothing where the label is not enabled. -/
  step : σ → α → Option σ

namespace Machine

variable {σ : Type u} {α : Type v} (M : Machine σ α)

/-! ### Reachability -/

/-- One step whose label meets `C` in the state it is taken from. -/
def Next (C : σ → α → Prop) (s t : σ) : Prop :=
  ∃ a, C s a ∧ M.step s a = some t

/-- The states reached from an initial one by steps that all meet `C`. -/
def ReachableVia (C : σ → α → Prop) (t : σ) : Prop :=
  ∃ s, M.Init s ∧ Relation.ReflTransGen (M.Next C) s t

/-- The states reached from an initial one. -/
def Reachable (t : σ) : Prop :=
  M.ReachableVia (fun _ _ ↦ True) t

variable {M}

theorem ReachableVia.init {C : σ → α → Prop} {s : σ} (h : M.Init s) : M.ReachableVia C s :=
  ⟨s, h, Relation.ReflTransGen.refl⟩

theorem ReachableVia.step {C : σ → α → Prop} {s t : σ} {a : α} (h : M.ReachableVia C s)
    (hc : C s a) (ha : M.step s a = some t) : M.ReachableVia C t := by
  obtain ⟨s₀, h₀, hs⟩ := h
  exact ⟨s₀, h₀, hs.tail ⟨a, hc, ha⟩⟩

theorem Reachable.init {s : σ} (h : M.Init s) : M.Reachable s :=
  ReachableVia.init h

theorem Reachable.step {s t : σ} {a : α} (h : M.Reachable s) (ha : M.step s a = some t) :
    M.Reachable t :=
  ReachableVia.step h trivial ha

/-- **The invariant rule.** What holds initially and is preserved by every step that meets `C` holds
of every state reached by such steps. -/
theorem ReachableVia.invariant {C : σ → α → Prop} {I : σ → Prop} (hinit : ∀ s, M.Init s → I s)
    (hstep : ∀ s a t, I s → C s a → M.step s a = some t → I t) {t : σ}
    (h : M.ReachableVia C t) : I t := by
  obtain ⟨s, hs, hst⟩ := h
  induction hst with
  | refl => exact hinit s hs
  | tail _ hnext ih =>
    obtain ⟨a, hc, ha⟩ := hnext
    exact hstep _ a _ ih hc ha

/-- Restricted runs are runs. -/
theorem ReachableVia.reachable {C : σ → α → Prop} {t : σ} (h : M.ReachableVia C t) :
    M.Reachable t :=
  h.invariant (fun _ hs ↦ Reachable.init hs) fun _ _ _ hs _ ha ↦ hs.step ha

/-- The invariant rule for unrestricted runs. -/
theorem Reachable.invariant {I : σ → Prop} (hinit : ∀ s, M.Init s → I s)
    (hstep : ∀ s a t, I s → M.step s a = some t → I t) {t : σ} (h : M.Reachable t) : I t :=
  ReachableVia.invariant hinit (fun s a t hi _ ha ↦ hstep s a t hi ha) h

variable (M)

/-! ### Runs as lists of labels -/

/-- Execute a list of labels, each where it is enabled. -/
def run : σ → List α → Option σ
  | s, [] => some s
  | s, a :: as => (M.step s a).bind fun t ↦ run t as

@[simp] theorem run_nil (s : σ) : M.run s [] = some s := rfl

theorem run_cons (s : σ) (a : α) (as : List α) :
    M.run s (a :: as) = (M.step s a).bind fun t ↦ M.run t as := rfl

variable {M}

/-- What every step preserves, a run preserves. -/
theorem run_invariant {I : σ → Prop} (hstep : ∀ s a t, I s → M.step s a = some t → I t) {s t : σ}
    (as : List α) (hs : I s) (h : M.run s as = some t) : I t := by
  induction as generalizing s with
  | nil =>
    rw [run_nil, Option.some.injEq] at h
    exact h ▸ hs
  | cons a as ih =>
    rw [run_cons, Option.bind_eq_some_iff] at h
    obtain ⟨u, hu, hrest⟩ := h
    exact ih (hstep s a u hs hu) hrest

/-- A run leads from a reachable state to a reachable one. -/
theorem Reachable.run {s t : σ} {as : List α} (hs : M.Reachable s) (h : M.run s as = some t) :
    M.Reachable t :=
  run_invariant (fun _ _ _ hu ha ↦ hu.step ha) as hs h

/-- What a list of labels reaches from an initial state is reachable. -/
theorem run_reachable {s t : σ} (as : List α) (hs : M.Init s) (h : M.run s as = some t) :
    M.Reachable t :=
  (Reachable.init hs).run h

/-- Where a function of the states carries each step of one machine to the step of another, it
carries runs to runs. -/
theorem run_map {τ : Type*} {N : Machine τ α} (f : σ → τ)
    (hstep : ∀ s a, N.step (f s) a = (M.step s a).map f) (s : σ) (as : List α) :
    N.run (f s) as = (M.run s as).map f := by
  induction as generalizing s with
  | nil => rfl
  | cons a as ih =>
    rw [run_cons, run_cons, hstep]
    cases M.step s a with
    | none => rfl
    | some t => exact ih t

variable (M)

/-! ### Histories -/

/-- The machine together with its history: each step appends the events that `log` reads off it. -/
def logged {ε : Type*} (log : σ → α → σ → List ε) : Machine (σ × List ε) α where
  Init x := M.Init x.1 ∧ x.2 = []
  step x a := (M.step x.1 a).map fun t ↦ (t, x.2 ++ log x.1 a t)

variable {M}

/-- A step with a history is a step. -/
theorem logged_step {ε : Type*} {log : σ → α → σ → List ε} {x y : σ × List ε} {a : α}
    (h : (M.logged log).step x a = some y) :
    M.step x.1 a = some y.1 ∧ y.2 = x.2 ++ log x.1 a y.1 := by
  obtain ⟨t, ht, rfl⟩ := Option.map_eq_some_iff.1 h
  exact ⟨ht, rfl⟩

/-- Keeping a log does not change what is reachable. -/
theorem Reachable.of_logged {ε : Type*} {log : σ → α → σ → List ε} {x : σ × List ε}
    (h : (M.logged log).Reachable x) : M.Reachable x.1 :=
  Reachable.invariant (M := M.logged log) (I := fun y ↦ M.Reachable y.1)
    (fun _ hy ↦ Reachable.init hy.1) (fun _ _ _ hy hstep ↦ hy.step (logged_step hstep).1) h

variable (M)

/-- The machine together with an observer, who revises the notes after each step. -/
def observed {η : Type*} (start : η) (note : η → σ → α → σ → η) : Machine (σ × η) α where
  Init x := M.Init x.1 ∧ x.2 = start
  step x a := (M.step x.1 a).map fun t ↦ (t, note x.2 x.1 a t)

variable {M}

/-- A step that is observed is a step. -/
theorem observed_step {η : Type*} {start : η} {note : η → σ → α → σ → η} {x y : σ × η} {a : α}
    (h : (M.observed start note).step x a = some y) :
    M.step x.1 a = some y.1 ∧ y.2 = note x.2 x.1 a y.1 := by
  obtain ⟨t, ht, rfl⟩ := Option.map_eq_some_iff.1 h
  exact ⟨ht, rfl⟩

/-- Every step can be observed. -/
theorem observed_of_step {η : Type*} {start : η} {note : η → σ → α → σ → η} {x : σ × η} {a : α}
    {t : σ} (h : M.step x.1 a = some t) :
    (M.observed start note).step x a = some (t, note x.2 x.1 a t) :=
  Option.map_eq_some_iff.2 ⟨t, h, rfl⟩

variable (M)

/-! ### Statements about every step of a run -/

/-- `P` holds of every step that the labels take from `s`, up to the first label that is not
enabled. -/
def EveryStep (P : σ → α → σ → Prop) : σ → List α → Prop
  | _, [] => True
  | s, a :: as => ∀ t, M.step s a = some t → P s a t ∧ EveryStep P t as

/-- A step property that can be tested is tested along a run by executing it. -/
instance decidableEveryStep (P : σ → α → σ → Prop) [∀ s a t, Decidable (P s a t)] :
    ∀ (s : σ) (as : List α), Decidable (M.EveryStep P s as)
  | _, [] => .isTrue trivial
  | s, a :: as =>
    match ha : M.step s a with
    | none => .isTrue fun t ht ↦ by rw [ha] at ht; exact absurd ht (Option.some_ne_none t).symm
    | some t =>
      have : Decidable (M.EveryStep P t as) := decidableEveryStep P t as
      decidable_of_iff (P s a t ∧ M.EveryStep P t as)
        ⟨fun h u hu ↦ by rw [ha, Option.some.injEq] at hu; exact hu ▸ h, fun h ↦ h t ha⟩

variable {M}

/-- What holds of every step of the labels holds along every run. -/
theorem everyStep_of_forall {P : σ → α → σ → Prop} {as : List α} (h : ∀ a ∈ as, ∀ s t, P s a t)
    (s : σ) : M.EveryStep P s as := by
  induction as generalizing s with
  | nil => trivial
  | cons a as ih =>
    exact fun t _ ↦ ⟨h a List.mem_cons_self s t, ih (fun b hb ↦ h b (List.mem_cons_of_mem a hb)) t⟩

/-- A weaker step property holds along the same labels. -/
theorem EveryStep.mono {P Q : σ → α → σ → Prop}
    (hpq : ∀ s a t, M.step s a = some t → P s a t → Q s a t) {s : σ} {as : List α}
    (h : M.EveryStep P s as) : M.EveryStep Q s as := by
  induction as generalizing s with
  | nil => trivial
  | cons a as ih =>
    intro t ht
    obtain ⟨hstep, hrest⟩ := h t ht
    exact ⟨hpq s a t ht hstep, ih hrest⟩

/-- What every step that meets `C` promises, where the invariant `I` holds, is kept by every run
whose steps all meet `C`. -/
theorem EveryStep.of_invariant {C P : σ → α → σ → Prop} {I : σ → Prop}
    (hstep : ∀ s a t, I s → C s a t → M.step s a = some t → P s a t ∧ I t) {s : σ} (hs : I s)
    {as : List α} (h : M.EveryStep C s as) : M.EveryStep P s as := by
  induction as generalizing s with
  | nil => trivial
  | cons a as ih =>
    intro t ht
    obtain ⟨hc, hrest⟩ := h t ht
    obtain ⟨hp, hi⟩ := hstep s a t hs hc ht
    exact ⟨hp, ih hi hrest⟩

/-- Two step properties that agree wherever the invariant `I` holds agree along every run that
starts in it. -/
theorem everyStep_congr {P Q : σ → α → σ → Prop} {I : σ → Prop}
    (hstep : ∀ s a t, I s → M.step s a = some t → I t)
    (hiff : ∀ s a t, I s → M.step s a = some t → (P s a t ↔ Q s a t)) {s : σ} (hs : I s)
    (as : List α) : M.EveryStep P s as ↔ M.EveryStep Q s as := by
  induction as generalizing s with
  | nil => exact Iff.rfl
  | cons a as ih =>
    refine forall_congr' fun t ↦ forall_congr' fun ha ↦ ?_
    rw [hiff s a t hs ha, ih (hstep s a t hs ha)]

/-- A property of the states that a step loses exactly where it breaks `P` holds at the end of a run
exactly if it held at the start and no step breaks `P`. The invariant `I` holds there too. -/
theorem everyStep_iff {C P : σ → α → σ → Prop} {I Q : σ → Prop}
    (hstep : ∀ s a t, I s → C s a t → M.step s a = some t → I t ∧ (Q t ↔ Q s ∧ P s a t))
    {s t : σ} (hs : I s) (as : List α) (hc : M.EveryStep C s as) (h : M.run s as = some t) :
    I t ∧ (Q t ↔ Q s ∧ M.EveryStep P s as) := by
  induction as generalizing s with
  | nil =>
    rw [run_nil, Option.some.injEq] at h
    exact h ▸ ⟨hs, ⟨fun hq ↦ ⟨hq, trivial⟩, fun hq ↦ hq.1⟩⟩
  | cons a as ih =>
    rw [run_cons, Option.bind_eq_some_iff] at h
    obtain ⟨u, hu, hrest⟩ := h
    obtain ⟨hmeets, hmeetrest⟩ := hc u hu
    obtain ⟨hi, hiff⟩ := hstep s a u hs hmeets hu
    have hevery : M.EveryStep P s (a :: as) ↔ P s a u ∧ M.EveryStep P u as :=
      ⟨fun hall ↦ hall u hu, fun hu' v hv ↦ Option.some.inj (hu.symm.trans hv) ▸ hu'⟩
    obtain ⟨hend, hrun⟩ := ih hi hmeetrest hrest
    exact ⟨hend, by rw [hrun, hiff, hevery, and_assoc]⟩

/-- What a run whose steps all meet `C` reaches is reached by such steps. -/
theorem ReachableVia.run {C : σ → α → Prop} {s t : σ} (hs : M.ReachableVia C s) (as : List α)
    (hc : M.EveryStep (fun s a _ ↦ C s a) s as) (h : M.run s as = some t) : M.ReachableVia C t := by
  induction as generalizing s with
  | nil =>
    rw [run_nil, Option.some.injEq] at h
    exact h ▸ hs
  | cons a as ih =>
    rw [run_cons, Option.bind_eq_some_iff] at h
    obtain ⟨u, hu, hrest⟩ := h
    obtain ⟨hcond, hevery⟩ := hc u hu
    exact ih (hs.step hcond hu) hevery hrest

end Machine
