import CppGate.ConnectionPool.Invariant

/-!
# What the pool guarantees at every moment

The invariant read as guarantees about all runs of any number of threads:

* `slots_and_connections_accounted`: `open_` is the number of places holding a slot, it stays within
  `max_size`, no section subtracts more from it than it holds, and each connection the factory
  returned is in exactly one place or destroyed.
* `queued_only_when_exhausted`: a thread is queued, waits unserved or times out only while the pool
  is open, no connection is idle and every slot is in use.
-/

namespace CppGate.ConnectionPool

variable {cfg : Config} {s s' : State} {i : Tid} {t : Thread}

/-! ### What a section adds to `open_` and takes from it -/

/-- The slots that a move of a thread takes from `open_`: what close() finds idle, and the slot of a
connection given back after close() or dropped with nobody to take it. -/
def slotsFreedAt (s : State) : Thread → Move → ℕ
  | .returned _, .callClose => if s.closed then 0 else s.idle.length
  | .storing .., .lock _ => if s.closed then 1 else 0
  | .dropping _, .lock _ => if s.closed = false ∧ s.waiters ≠ [] then 0 else 1
  | _, _ => 0

/-- The slots that a move of a thread reserves in `open_`. -/
def slotsReservedAt (cfg : Config) (s : State) : Thread → Move → ℕ
  | .warmingUp, .lock _ => if s.closed = false ∧ s.open_ < cfg.options.minSize then 1 else 0
  | .acquiring .., .lock _ =>
    if s.closed = false ∧ s.idle = [] ∧ s.open_ < cfg.options.maxSize then 1 else 0
  | _, _ => 0

/-- What a step takes from `open_`. -/
def slotsFreed (s : State) : Action → ℕ
  | .spawn => 0
  | .move i m => ((s.threads[i]?).map fun t ↦ slotsFreedAt s t m).getD 0

/-- What a step adds to `open_`. -/
def slotsReserved (cfg : Config) (s : State) : Action → ℕ
  | .spawn => 0
  | .move i m => ((s.threads[i]?).map fun t ↦ slotsReservedAt cfg s t m).getD 0

/-- A section takes no more from `open_` than it holds. -/
theorem Inv.slotsFreedAt_le (h : Inv cfg s) (ht : s.threads[i]? = some t) (m : Move) :
    slotsFreedAt s t m ≤ s.open_ := by
  have hslots := h.slots_le ht
  unfold slotsFreedAt
  split
  · have := h.account
    rw [State.resting] at this
    split <;> omega
  · have hone : (1 : ℕ) ≤ s.open_ := hslots
    split <;> omega
  · have hone : (1 : ℕ) ≤ s.open_ := hslots
    split <;> omega
  · exact Nat.zero_le _

/-- **`open_` moves by exactly what the section reserves and frees**, with no wrap. -/
theorem Inv.open_moved (h : Inv cfg s) (ht : s.threads[i]? = some t) {m : Move}
    (hm : Moved cfg s i t m s') :
    s'.open_ + slotsFreedAt s t m = s.open_ + slotsReservedAt cfg s t m := by
  have hle := h.slotsFreedAt_le ht m
  cases hm with
  | callClose r =>
    unfold slotsFreedAt at hle ⊢
    unfold ConnectionPool.close
    dsimp only at hle ⊢
    split
    · rfl
    · next hopen =>
      rw [if_neg hopen] at hle
      show Word.sub 64 s.open_ s.idle.length + s.idle.length = s.open_ + 0
      rw [Word.sub_eq_of_le hle]
      omega
  | warmUp now =>
    unfold ConnectionPool.warmUp slotsReservedAt
    dsimp only
    split
    · next hfull =>
      rw [if_neg (by simp at hfull ⊢; exact fun hc ↦ hfull.resolve_left (by simp [hc]))]
      rfl
    · next hroom =>
      simp only [Bool.or_eq_true, decide_eq_true_eq, not_or, Nat.not_le] at hroom
      have hlt : s.open_ < cfg.options.maxSize := Nat.lt_of_lt_of_le hroom.2 cfg.minSize_le
      rw [if_pos ⟨Bool.eq_false_iff.2 hroom.1, hroom.2⟩]
      exact reserve_open_ hlt
  | acquire timeout deadline now =>
    unfold ConnectionPool.acquire slotsReservedAt
    dsimp only
    split
    · next hclosed =>
      rw [if_neg (by simp [hclosed])]
      rfl
    next hopen =>
    split
    · next hidle =>
      rw [if_neg (by simp [hidle])]
      rfl
    next hidle =>
    split
    · next hlt =>
      rw [if_pos ⟨Bool.eq_false_iff.2 hopen, hidle, hlt⟩]
      exact reserve_open_ hlt
    · next hlt =>
      rw [if_neg (fun hc ↦ hlt hc.2.2)]
      rfl
  | giveBack caller c since now =>
    unfold slotsFreedAt at hle ⊢
    unfold ConnectionPool.giveBack
    dsimp only at hle ⊢
    split
    · next hclosed =>
      rw [if_pos hclosed] at hle
      show Word.sub 64 s.open_ 1 + 1 = s.open_ + 0
      rw [Word.sub_eq_of_le hle]
      omega
    · split <;> rfl
  | dropped next now =>
    unfold slotsFreedAt at hle ⊢
    unfold ConnectionPool.dropped
    dsimp only at hle ⊢
    split
    · next hclosed hw =>
      rw [if_pos ⟨hclosed, by simp [hw]⟩]
      rfl
    · next hnone =>
      have hno : ¬(s.closed = false ∧ s.waiters ≠ []) := fun ⟨hc, hw⟩ ↦ by
        obtain ⟨w, rest, hw⟩ := List.exists_cons_of_ne_nil hw
        exact hnone w rest hc hw
      rw [if_neg hno] at hle ⊢
      show Word.sub 64 s.open_ 1 + 1 = s.open_ + 0
      rw [Word.sub_eq_of_le hle]
      omega
  | checkOut timeout deadline idle aboveMin now verdict =>
    cases checkOut cfg idle aboveMin now verdict <;> rfl
  | factory caller returns => cases caller <;> cases returns <;> rfl
  | wake deadline w hw =>
    unfold ConnectionPool.resume
    split
    · rfl
    · split <;> rfl
  | callWarmUp | callAcquire | release | discard | timeOut | clock => rfl

/-- A step changes `open_` by the slots that it reserves and frees. -/
theorem Inv.open_step (h : Inv cfg s) {a : Action} (ha : ConnectionPool.step cfg s a = some s') :
    slotsFreed s a ≤ s.open_ ∧ s'.open_ + slotsFreed s a = s.open_ + slotsReserved cfg s a := by
  rcases step_cases ha with ⟨rfl, rfl⟩ | ⟨i, m, t, rfl, ht, hm⟩
  · exact ⟨Nat.zero_le _, rfl⟩
  · rw [slotsFreed, slotsReserved, ht]
    exact ⟨h.slotsFreedAt_le ht m, h.open_moved ht hm⟩

/-! ### The guarantees -/

/-- **Accounting and ownership.** -/
theorem slots_and_connections_accounted (h : (machine cfg).Reachable s) :
    s.open_ = s.idle.length + s.handles.length + s.openings + s.transits + s.passedOn ∧
    s.open_ ≤ cfg.options.maxSize ∧
    (∀ a s', step cfg s a = some s' → slotsFreed s a ≤ s.open_ ∧
      s'.open_ + slotsFreed s a = s.open_ + slotsReserved cfg s a) ∧
    (s.places ++ s.destroyed).Perm (List.range s.opened) := by
  have hinv := Inv.reachable h
  refine ⟨?_, hinv.bound, fun a s' ha ↦ hinv.open_step ha, ?_⟩
  · have hslots := slots_eq_counts s
    have := hinv.account
    rw [State.resting] at this
    omega
  · refine List.perm_iff_count.2 fun c ↦ ?_
    rw [count_places, hinv.owner, List.count_range]
    rfl

/-- A pool of one connection, for runs on fixed inputs. -/
def single : Config where
  options := { maxSize := 1 }
  validate := false
  maxSize_pos := by decide
  minSize_le := by decide
  maxSize_lt := by decide

/-- One thread has the connection, a second one waits for it. -/
def contended : List Action :=
  [.spawn, .spawn, .move 0 (.callAcquire none), .move 0 (.lock 0), .move 0 (.factory true),
    .move 1 (.callAcquire none), .move 1 (.lock 0)]

theorem slots_and_connections_accounted_contended :
    ∃ s, (machine single).run {} contended = some s ∧ s.handles = [0] ∧ s.waiters = [1] ∧
      (s.places ++ s.destroyed).Perm (List.range s.opened) :=
  ⟨_, rfl, rfl, rfl, (slots_and_connections_accounted
    (Machine.run_reachable (M := machine single) contended rfl rfl)).2.2.2⟩

/-- **Nobody waits for what is there.** -/
theorem queued_only_when_exhausted (h : (machine cfg).Reachable s) :
    (s.waiters ≠ [] → s.closed = false ∧ s.idle = [] ∧ s.open_ = cfg.options.maxSize) ∧
    (∀ (i : Tid) (d : Time) (w : Waiter), s.threads[i]? = some (.waiting d w) →
      w.served = false → s.closed = false ∧ s.idle = [] ∧ s.open_ = cfg.options.maxSize) ∧
    (∀ i now s', step cfg s (.move i (.timeOut now)) = some s' →
      s.closed = false ∧ s.idle = [] ∧ s.open_ = cfg.options.maxSize) := by
  have hinv := Inv.reachable h
  have hwaits : ∀ (i : Tid) (d : Time) (w : Waiter), s.threads[i]? = some (.waiting d w) →
      w.served = false → s.closed = false ∧ s.idle = [] ∧ s.open_ = cfg.options.maxSize := by
    intro i d w ht hw
    obtain rfl := (hinv.queue.single i d w ht).eq_empty hw
    exact hinv.full (List.ne_nil_of_mem ((hinv.queue.mem_iff i).2 ⟨d, ht⟩))
  refine ⟨hinv.full, hwaits, fun i now s' ha ↦ ?_⟩
  obtain ⟨t, ht, hmove⟩ := Option.bind_eq_some_iff.1 ha
  cases moved_of_moveThread hmove with
  | timeOut d w now hnow hw => exact hwaits i d w ht hw

theorem queued_only_when_exhausted_contended :
    ∃ s, (machine single).run {} contended = some s ∧ s.waiters = [1] ∧ s.open_ = 1 :=
  ⟨_, rfl, rfl, ((queued_only_when_exhausted
    (Machine.run_reachable (M := machine single) contended rfl rfl)).1
      (List.cons_ne_nil 1 [])).2.2⟩

end CppGate.ConnectionPool
