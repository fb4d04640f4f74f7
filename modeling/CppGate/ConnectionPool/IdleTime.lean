import CppGate.ConnectionPool.Pool

/-!
# What `max_idle = never` means

`never` is the largest number of milliseconds, and checkOut() compares it with a time in
nanoseconds: converted to 64-bit nanoseconds it wraps to one millisecond below zero
(`toNanos_never`). Without a validate function checkOut() does not get as far as the comparison;
with one, every connection above `min_size` has been idle longer than that
(`expired_of_never`).

`idle_closed_only_when_broken` says exactly in which runs acquire() closes nothing for being idle.
-/

namespace CppGate.ConnectionPool

variable {cfg : Config} {s t : State}

/-! ### The comparison -/

theorem toNanos_never : toNanos never = -1000000 := by decide

/-- Without a validate function nothing is closed in checkOut(). -/
theorem usable_of_not_validate (hnever : cfg.options.maxIdle = never) (hv : cfg.validate = false)
    (idle : Idle) (aboveMin : Bool) (now : Time) (verdict : Verdict) :
    checkOut cfg idle aboveMin now verdict = .usable idle.connection := by
  have htimed : cfg.timed = false := by simp [Config.timed, hv, hnever]
  rw [checkOut, if_pos htimed]

/-- The time between two readings of the clock is exact while it is representable. -/
theorem signed_elapsed {since now : ℤ} (hle : since ≤ now) (hlt : now < since + 2 ^ 63) :
    Word.signed 64 (now - since) = now - since :=
  Word.signed_eq_self (w := 63) (by omega) (by omega)

/-- With a validate function, `never` expires every connection above `min_size`, however short its
idle time and whatever its validator says. -/
theorem expired_of_never (hnever : cfg.options.maxIdle = never) (hv : cfg.validate = true)
    {idle : Idle} {now : Time} (hle : idle.since ≤ now) (hlt : now < idle.since + 2 ^ 63)
    (verdict : Verdict) : checkOut cfg idle true now verdict = .expired := by
  have htimed : cfg.timed ≠ false := by simp [Config.timed, hv]
  have helapsed : 0 ≤ now - idle.since := Int.sub_nonneg_of_le hle
  rw [checkOut, if_neg htimed]
  refine if_pos ⟨?_, rfl⟩
  rw [hnever, toNanos_never, signed_elapsed hle hlt]
  exact lt_of_lt_of_le (by decide) helapsed

/-! ### What acquire() closes -/

/-- A call of checkOut(): its arguments, the clock it reads, and what its validator does if it is
called. -/
structure Check where
  idle : Idle
  aboveMin : Bool
  now : Time
  verdict : Verdict

/-- The call of checkOut() that a step completes. -/
def check (s : State) : Action → Option Check
  | .move i (.validated now verdict) =>
    match s.threads[i]? with
    | some (.checkingOut _ _ idle aboveMin) => some ⟨idle, aboveMin, now, verdict⟩
    | _ => none
  | _ => none

/-- What `never` promises of a step: an idle connection is closed only after its validator refused
it, and only if it really was idle longer than `validate_after_idle`. -/
def ClosedOnlyWhenBroken (cfg : Config) (s : State) (a : Action) (t : State) : Prop :=
  ∀ c ∈ check s a, t.destroyed = c.idle.connection :: s.destroyed →
    checkOut cfg c.idle c.aboveMin c.now c.verdict = .broken ∧ isValid c.verdict = false ∧
      cfg.options.validateAfterIdle * 1000000 < c.now - c.idle.since

/-- The checks that keep the promise: there is no validate function; or the connection is not above
`min_size` (or the clock went back, by a millisecond or more), and a refused connection that passes
the wrapped comparison with `validate_after_idle` passes the exact one. -/
def NotMisjudged (cfg : Config) (s : State) (a : Action) : Prop :=
  ∀ c ∈ check s a, cfg.validate = false ∨
    ¬(c.aboveMin = true ∧ -1000000 < Word.signed 64 (c.now - c.idle.since)) ∧
      (isValid c.verdict = false →
        toNanos cfg.options.validateAfterIdle < Word.signed 64 (c.now - c.idle.since) →
        cfg.options.validateAfterIdle * 1000000 < c.now - c.idle.since)

instance (cfg : Config) (s : State) (a : Action) (t : State) :
    Decidable (ClosedOnlyWhenBroken cfg s a t) :=
  inferInstanceAs (Decidable (∀ c ∈ check s a, _))

instance (cfg : Config) (s : State) (a : Action) : Decidable (NotMisjudged cfg s a) :=
  inferInstanceAs (Decidable (∀ c ∈ check s a, _))

/-- A step that completes a check hands the connection out, or closes it. -/
theorem destroyed_of_check {a : Action} {c : Check} (hc : c ∈ check s a)
    (h : step cfg s a = some t) :
    t.destroyed = c.idle.connection :: s.destroyed ↔
      checkOut cfg c.idle c.aboveMin c.now c.verdict ≠ .usable c.idle.connection := by
  unfold check at hc
  split at hc
  · next i now verdict =>
    split at hc
    · next timeout deadline idle aboveMin hthread =>
      obtain rfl := Option.some.inj hc
      have hstep : t = checkedOut s i timeout deadline idle
          (checkOut cfg idle aboveMin now verdict) := by
        rw [step, hthread] at h
        exact (Option.some.inj h).symm
      rw [hstep]
      -- the three outcomes of checkOut()
      unfold checkOut
      dsimp only
      split
      · simp [checkedOut]
      · split
        · simp [checkedOut]
        · split <;> simp [checkedOut]
    · cases hc
  · cases hc

/-- One check keeps the promise exactly when it meets the condition. -/
theorem closedOnlyWhenBroken_iff (hnever : cfg.options.maxIdle = never) {a : Action}
    (h : step cfg s a = some t) : ClosedOnlyWhenBroken cfg s a t ↔ NotMisjudged cfg s a := by
  refine forall_congr' fun c ↦ forall_congr' fun hc ↦ ?_
  rw [destroyed_of_check hc h]
  cases hv : cfg.validate with
  | false => simp [usable_of_not_validate hnever hv]
  | true =>
    have htimed : cfg.timed ≠ false := by simp [Config.timed, hv]
    rw [checkOut, if_neg htimed, hnever, toNanos_never, hv]
    dsimp only
    by_cases hexpired : -1000000 < Word.signed 64 (c.now - c.idle.since) ∧ c.aboveMin = true
    · rw [if_pos hexpired]
      simp [hexpired.1, hexpired.2]
    · have hkept : ¬(c.aboveMin = true ∧ -1000000 < Word.signed 64 (c.now - c.idle.since)) :=
        fun h ↦ hexpired ⟨h.2, h.1⟩
      rw [if_neg hexpired]
      by_cases hbroken : toNanos cfg.options.validateAfterIdle <
          Word.signed 64 (c.now - c.idle.since) ∧ isValid c.verdict = false
      · rw [if_pos ⟨rfl, hbroken⟩]
        simp only [hkept, hbroken, ne_eq, reduceCtorEq, not_false_eq_true, true_imp_iff, true_and,
          false_or]
      · rw [if_neg fun h ↦ hbroken h.2]
        simp only [hkept, ne_eq, not_true_eq_false, false_imp_iff, not_false_eq_true, true_and,
          reduceCtorEq, false_or, true_iff]
        exact fun hi hb ↦ absurd ⟨hb, hi⟩ hbroken

/-- **`never` in a run.** -/
theorem idle_closed_only_when_broken (hnever : cfg.options.maxIdle = never) (as : List Action) :
    (machine cfg).EveryStep (ClosedOnlyWhenBroken cfg) {} as ↔
      (machine cfg).EveryStep (fun s a _ ↦ NotMisjudged cfg s a) {} as :=
  Machine.everyStep_congr (I := fun _ ↦ True) (fun _ _ _ _ _ ↦ trivial)
    (fun _ _ _ _ h ↦ closedOnlyWhenBroken_iff hnever h) trivial as

/-- A pool with a validate function whose idle connections are never to be closed. -/
def neverIdle (minSize : ℕ) (h : minSize ≤ 10) : Config where
  options := { minSize, maxIdle := never }
  validate := true
  maxSize_pos := Nat.le_of_ble_eq_true rfl
  minSize_le := h
  maxSize_lt := show 10 < 2 ^ 64 by decide

/-- A connection is opened, given back, and taken again one second later. -/
def reused : List Action :=
  [.spawn, .move 0 (.callAcquire none), .move 0 (.lock 0), .move 0 (.factory true),
    .move 0 (.release 0), .move 0 (.clock 1000), .move 0 (.lock 0), .move 0 (.callAcquire none),
    .move 0 (.lock 0), .move 0 (.validated 1000001000 .valid)]

theorem idle_closed_only_when_broken_reused :
    (machine (neverIdle 1 (by decide))).EveryStep
      (ClosedOnlyWhenBroken (neverIdle 1 (by decide))) {} reused :=
  (idle_closed_only_when_broken rfl reused).2 (by decide)

/-- With a validator that accepts it and `min_size = 0`, the connection is closed all the same. -/
theorem never_closes_idle :
    ¬∀ cfg : Config, cfg.options.maxIdle = never → ∀ as,
      (machine cfg).EveryStep (ClosedOnlyWhenBroken cfg) {} as :=
  fun h ↦ absurd (h (neverIdle 0 (by decide)) rfl reused) (by decide)

end CppGate.ConnectionPool
