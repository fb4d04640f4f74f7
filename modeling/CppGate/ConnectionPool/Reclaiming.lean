import CppGate.ConnectionPool.Invariant
import CppGate.ConnectionPool.IdleTime
import Mathlib.Data.List.Pairwise

/-!
# When idle connections are closed

`max_idle` is looked at in checkOut() only, for the connection that acquire() took from the back of
`idle_`. While the pool is used by one call at a time and the clock does not go back, `idle_` is
sorted: the connection at the back was used last. So if that one has been idle for too long, all of
them have, and acquire() closes them one by one; if it has not, it is handed out, and whatever lies
below it stays.

`idle_reclaimed_iff` says in which histories that leaves nothing behind: those in which acquire()
never finds, above `min_size`, a usable connection on top of one that has been idle for too long.
-/

namespace CppGate.ConnectionPool

variable {cfg : Config} {s s' : State} {i : Tid} {t t' : Thread} {m : Move} {a : Action}

/-! ### Sequential histories -/

def Thread.isReturned : Thread → Bool
  | .returned _ => true
  | _ => false

/-- The clock that a move reads. -/
def Move.reading : Move → Option Time
  | .lock now | .validated now _ | .timeOut now | .clock now => some now
  | _ => none

def Action.reading : Action → Option Time
  | .spawn => none
  | .move _ m => m.reading

/-- All threads but this one are outside the pool. -/
def State.alone (s : State) (i : Tid) : Bool :=
  (s.threads.set i (.returned .done)).all Thread.isReturned

/-- A step of a sequential history: a call has returned before the next one begins. -/
def State.inOrder (s : State) : Action → Bool
  | .spawn => true
  | .move i _ => s.alone i

/-- The clock does not go back, and the time between its readings is exact. -/
def Measured (s : State) (last : Time) (a : Action) : Bool :=
  a.reading.all (last ≤ ·) &&
    (check s a).all fun c ↦ Word.signed 64 (c.now - c.idle.since) == c.now - c.idle.since

/-- The pool in a sequential history, with the last reading of the clock. -/
def sequential (cfg : Config) : Machine (State × Time) Action where
  Init x := x.1 = {}
  step x a :=
    if x.1.inOrder a && Measured x.1 x.2 a then
      (step cfg x.1 a).map fun t ↦ (t, a.reading.getD x.2)
    else none

/-- The durations of the options are exact in nanoseconds, where they are compared with one. -/
structure Config.Exact (cfg : Config) : Prop where
  maxIdle : cfg.options.maxIdle ≠ never → toNanos cfg.options.maxIdle =
    cfg.options.maxIdle * 1000000
  validateAfterIdle : cfg.validate = true → toNanos cfg.options.validateAfterIdle =
    cfg.options.validateAfterIdle * 1000000

/-! ### The promise -/

/-- The connection has been idle for longer than `max_idle`. -/
def Idle.Overdue (cfg : Config) (now : Time) (idle : Idle) : Prop :=
  cfg.options.maxIdle ≠ never ∧ cfg.options.maxIdle * 1000000 < now - idle.since

instance (cfg : Config) (now : Time) (idle : Idle) : Decidable (idle.Overdue cfg now) :=
  inferInstanceAs (Decidable (_ ∧ _))

/-- acquire() has returned a connection to the thread. -/
def Thread.hasAcquired : Thread → Bool
  | .returned (.acquired _) => true
  | _ => false

/-- The step returns from acquire() with a connection. -/
def acquires (t : State) : Action → Bool
  | .spawn => false
  | .move i _ => t.threads[i]?.any Thread.hasAcquired

/-- **Idle connections above `min_size` are closed after `max_idle`**: no return from acquire()
leaves one. -/
def Reclaimed (cfg : Config) (_ : State × Time) (a : Action) (y : State × Time) : Prop :=
  acquires y.1 a = true → y.1.open_ ≤ cfg.options.minSize ∨ ∀ idle ∈ y.1.idle,
    ¬ idle.Overdue cfg y.2

/-- Above `min_size`, the connection that is checked has not been idle for too long and is not
refused by its validator, and the one that has been idle longest has. -/
def Buried (cfg : Config) (x : State × Time) (a : Action) : Prop :=
  ∃ c ∈ check x.1 a, cfg.options.minSize < x.1.open_ ∧ ¬ c.idle.Overdue cfg c.now ∧
    ¬ (cfg.validate = true ∧ cfg.options.validateAfterIdle * 1000000 < c.now - c.idle.since ∧
      isValid c.verdict = false) ∧
    ∃ oldest ∈ x.1.idle.getLast?, oldest.Overdue cfg c.now

instance (cfg : Config) (x : State × Time) (a : Action) (y : State × Time) :
    Decidable (Reclaimed cfg x a y) :=
  inferInstanceAs (Decidable (_ → _))

instance (cfg : Config) (x : State × Time) (a : Action) : Decidable (Buried cfg x a) :=
  inferInstanceAs (Decidable (∃ c ∈ check x.1 a, _))

/-! ### What is so in a sequential history -/

/-- What a thread has found holds until it goes on. -/
def Thread.Fits (cfg : Config) (s : State) (last : Time) : Thread → Prop
  | .checkingOut _ _ _ aboveMin => aboveMin = decide (cfg.options.minSize < s.open_)
  | .opening caller => caller = .warmUp ∨ s.idle = []
  | .storing _ _ now => cfg.options.maxIdle ≠ never → now ≤ last ∧ ∀ idle ∈ s.idle, idle.since ≤ now
  | .waiting _ w => w.served = false
  | _ => True

/-- The invariant of a sequential history: `idle_` is sorted by the time of last use. -/
structure InOrder (cfg : Config) (s : State) (last : Time) : Prop where
  pool : Inv cfg s
  sorted : cfg.options.maxIdle ≠ never → s.idle.Pairwise (fun x y ↦ y.since ≤ x.since)
  past : cfg.options.maxIdle ≠ never → ∀ idle ∈ s.idle, idle.since ≤ last
  fits : ∀ (j : Tid) (t : Thread), s.threads[j]? = some t → t.Fits cfg s last

variable {s₁ : State} {last last' : Time} {j : Tid}

/-- The other threads are outside the pool. -/
theorem returned_of_alone (h : s.alone i = true) (hj : s.threads[j]? = some t) (hne : j ≠ i) :
    t.isReturned = true := by
  refine List.all_eq_true.1 h t (List.mem_of_getElem? (i := j) ?_)
  rw [List.getElem?_set_ne hne.symm, hj]

/-- Nobody waits while another thread is in the pool. -/
theorem no_waiters_of_alone (hinv : Inv cfg s) (h : s.alone i = true)
    (ht : s.threads[i]? = some t) (hq : t.queued = false) : s.waiters = [] := by
  refine List.eq_nil_iff_forall_not_mem.2 fun j hj ↦ ?_
  obtain ⟨d, hd⟩ := (hinv.queue.mem_iff j).1 hj
  have hne : j ≠ i := fun heq ↦ hinv.queue.not_mem ht hq (heq ▸ hj)
  exact absurd (returned_of_alone h hd hne) Bool.false_ne_true

theorem fits_of_returned (h : t.isReturned = true) : t.Fits cfg s last := by
  cases t with
  | returned r => trivial
  | _ => exact absurd h Bool.false_ne_true

/-- A thread goes on alone: only what it found has to fit. -/
theorem fits_goto (halone : s.alone i = true) (hthreads : s₁.threads = s.threads)
    (hfits : t'.Fits cfg (s₁.goto i t') last') (j : Tid) (u : Thread)
    (hj : (s₁.goto i t').threads[j]? = some u) : u.Fits cfg (s₁.goto i t') last' := by
  rw [State.goto_threads, hthreads] at hj
  by_cases hne : j = i
  · subst hne
    rcases hold : s.threads[j]? with _ | t
    · rw [List.getElem?_set_self', hold] at hj
      exact absurd hj.symm (Option.some_ne_none u)
    · rw [List.getElem?_set_self', hold] at hj
      exact Option.some.inj hj ▸ hfits
  · rw [List.getElem?_set_ne (Ne.symm hne)] at hj
    exact fits_of_returned (returned_of_alone halone hj hne)

/-- A thread goes on alone, and nothing is put on top of `idle_`. -/
theorem InOrder.goto (h : InOrder cfg s last) (halone : s.alone i = true)
    (hpool : Inv cfg (s₁.goto i t')) (hthreads : s₁.threads = s.threads)
    (hidle : s₁.idle.Sublist s.idle) (hlast : last ≤ last')
    (hfits : t'.Fits cfg (s₁.goto i t') last') : InOrder cfg (s₁.goto i t') last' where
  pool := hpool
  sorted hmax := (h.sorted hmax).sublist hidle
  past hmax idle hmem := (h.past hmax idle (hidle.subset hmem)).trans hlast
  fits := fits_goto halone hthreads hfits

/-- A section that may serve a waiter finds none. -/
theorem InOrder.giveBack (h : InOrder cfg s last) (halone : s.alone i = true) {caller : Caller}
    {c : Conn} {now : Time} (ht : s.threads[i]? = some (.storing caller c now))
    (hpool : Inv cfg (giveBack s i caller c now)) (hlast : last ≤ last') :
    InOrder cfg (giveBack s i caller c now) last' := by
  have hfits (u : State) : (afterGiveBack caller).Fits cfg u last' := by
    cases caller <;> trivial
  rcases hclosed : s.closed with _ | _
  · have hwaiters := no_waiters_of_alone h.pool halone ht rfl
    have heq : ConnectionPool.giveBack s i caller c now =
        { s with idle := ⟨c, now⟩ :: s.idle }.goto i (afterGiveBack caller) := by
      rw [ConnectionPool.giveBack, hclosed, hwaiters]
      rfl
    rw [heq] at hpool ⊢
    have hstored := h.fits i _ ht
    refine ⟨hpool, fun hmax ↦ ?_, fun hmax idle hmem ↦ ?_, ?_⟩
    · exact List.pairwise_cons.2 ⟨(hstored hmax).2, h.sorted hmax⟩
    · rcases List.mem_cons.1 hmem with rfl | hmem
      · exact (hstored hmax).1.trans hlast
      · exact (h.past hmax idle hmem).trans hlast
    · exact fits_goto halone rfl (hfits _)
  · have heq : ConnectionPool.giveBack s i caller c now =
        ({ s with destroyed := c :: s.destroyed }.free 1).goto i (afterGiveBack caller) := by
      rw [ConnectionPool.giveBack, hclosed]
      rfl
    rw [heq] at hpool ⊢
    exact h.goto halone hpool rfl (List.Sublist.refl _) hlast (hfits _)

/-- The destruction of a connection leaves the idle ones in order. -/
theorem InOrder.dropped (h : InOrder cfg s last) (halone : s.alone i = true) {next : Next}
    (ht : s.threads[i]? = some (.dropping next)) (hpool : Inv cfg (dropped s i next))
    (hlast : last ≤ last') : InOrder cfg (dropped s i next) last' := by
  have hwaiters := no_waiters_of_alone h.pool halone ht rfl
  have heq : ConnectionPool.dropped s i next = (s.free 1).goto i (afterDropped next) := by
    rcases hclosed : s.closed with _ | _ <;> rw [ConnectionPool.dropped, hclosed, hwaiters]
  rw [heq] at hpool ⊢
  exact h.goto halone hpool rfl (List.Sublist.refl _) hlast (by cases next <;> trivial)

/-- close() leaves no idle connection. -/
theorem InOrder.close (h : InOrder cfg s last) (halone : s.alone i = true) {r : Result}
    (ht : s.threads[i]? = some (.returned r)) (hpool : Inv cfg (close s i))
    (hlast : last ≤ last') : InOrder cfg (close s i) last' := by
  have hwaiters := no_waiters_of_alone h.pool halone ht rfl
  rw [ConnectionPool.close, hwaiters] at hpool ⊢
  split_ifs at hpool ⊢
  · exact h.goto halone hpool rfl (List.Sublist.refl _) hlast trivial
  · exact h.goto halone hpool rfl (List.nil_sublist _) hlast trivial

/-- acquire() takes the newest idle connection, or none. -/
theorem InOrder.acquire (h : InOrder cfg s last) (halone : s.alone i = true) {timeout : ℤ}
    {deadline : Option Time} (now : Time)
    (hpool : Inv cfg (acquire cfg s i timeout deadline now)) (hlast : last ≤ last') :
    InOrder cfg (acquire cfg s i timeout deadline now) last' := by
  by_cases hclosed : s.closed = true
  · rw [ConnectionPool.acquire, if_pos hclosed] at hpool ⊢
    exact h.goto halone hpool rfl (List.Sublist.refl _) hlast trivial
  · rw [ConnectionPool.acquire, if_neg hclosed] at hpool ⊢
    rcases hidle : s.idle with _ | ⟨idle, rest⟩ <;> rw [hidle] at hpool
    · by_cases hroom : s.open_ < cfg.options.maxSize
      · rw [if_pos hroom] at hpool
        dsimp only
        rw [if_pos hroom]
        exact h.goto halone hpool rfl (List.Sublist.refl _) hlast (Or.inr hidle)
      · rw [if_neg hroom] at hpool
        dsimp only
        rw [if_neg hroom]
        exact h.goto halone hpool rfl (List.nil_sublist _) hlast rfl
    · exact h.goto halone hpool rfl (hidle ▸ List.sublist_cons_self idle rest) hlast rfl

/-- **Each step of a sequential history keeps `idle_` sorted.** -/
theorem InOrder.moved (h : InOrder cfg s last) (halone : s.alone i = true)
    (ht : s.threads[i]? = some t) (hm : Moved cfg s i t m s')
    (hreading : ∀ now ∈ m.reading, last ≤ now) : InOrder cfg s' (m.reading.getD last) := by
  have hpool : Inv cfg s' := h.pool.moved ht hm
  have hlast : last ≤ m.reading.getD last := by
    rcases hm : m.reading with _ | now
    · exact le_rfl
    · exact hreading now hm
  cases hm with
  | callWarmUp r => exact h.goto halone hpool rfl (List.Sublist.refl _) hlast trivial
  | callAcquire r timeout => exact h.goto halone hpool rfl (List.Sublist.refl _) hlast trivial
  | callClose r => exact h.close halone ht hpool hlast
  | release r c hc => exact h.goto halone hpool rfl (List.Sublist.refl _) hlast trivial
  | discard r c hc => exact h.goto halone hpool rfl (List.Sublist.refl _) hlast trivial
  | warmUp now =>
    rw [ConnectionPool.warmUp] at hpool ⊢
    split_ifs at hpool ⊢
    · exact h.goto halone hpool rfl (List.Sublist.refl _) hlast trivial
    · exact h.goto halone hpool rfl (List.Sublist.refl _) hlast (Or.inl rfl)
  | acquire timeout deadline now => exact h.acquire halone now hpool hlast
  | checkOut timeout deadline idle aboveMin now verdict =>
    rcases hout : ConnectionPool.checkOut cfg idle aboveMin now verdict with c | _ | _ <;>
      rw [hout] at hpool
    · exact h.goto halone hpool rfl (List.Sublist.refl _) hlast trivial
    · exact h.goto halone hpool rfl (List.Sublist.refl _) hlast trivial
    · exact h.goto halone hpool rfl (List.Sublist.refl _) hlast trivial
  | factory caller returns =>
    rcases returns with _ | _
    · exact h.goto halone hpool rfl (List.Sublist.refl _) hlast trivial
    · cases caller with
      | warmUp => exact h.goto halone hpool rfl (List.Sublist.refl _) hlast trivial
      | acquire => exact h.goto halone hpool rfl (List.Sublist.refl _) hlast trivial
      | release => exact h.goto halone hpool rfl (List.Sublist.refl _) hlast trivial
  | wake deadline w hw =>
    have hserved : w.served = false := h.fits i _ ht
    exact absurd (hserved.symm.trans hw) Bool.false_ne_true
  | timeOut deadline w now hnow hw =>
    exact h.goto halone hpool rfl (List.Sublist.refl _) hlast trivial
  | clock caller c now =>
    refine h.goto halone hpool rfl (List.Sublist.refl _) hlast fun hmax ↦ ?_
    have htimed : cfg.timed = true := by simp [Config.timed, hmax]
    rw [if_pos htimed]
    exact ⟨le_rfl, fun idle hmem ↦ (h.past hmax idle hmem).trans (hreading now rfl)⟩
  | giveBack caller c since now => exact h.giveBack halone ht hpool hlast
  | dropped next now => exact h.dropped halone ht hpool hlast

/-! ### What acquire() leaves behind -/

theorem acquires_goto (h : acquires (s₁.goto i t') (.move i m) = true) : t'.hasAcquired = true := by
  rw [acquires, State.goto_threads, List.getElem?_set_self'] at h
  rcases hold : s₁.threads[i]? with _ | t <;> rw [hold] at h
  · exact absurd h Bool.false_ne_true
  · exact h

/-- A move to a point that is not the return from acquire(). -/
theorem reclaimed_goto {x : State × Time} (ht' : t'.hasAcquired = false) :
    Reclaimed cfg x (.move i m) (s₁.goto i t', last') :=
  fun h ↦ absurd (ht'.symm.trans (acquires_goto h)) Bool.false_ne_true

/-- In a sorted `idle_`, the connection at the front has been idle longest. -/
theorem overdue_getLast {idles : List Idle} {now : Time}
    (hsorted : cfg.options.maxIdle ≠ never → idles.Pairwise fun x y ↦ y.since ≤ x.since) :
    (∃ oldest ∈ idles.getLast?, oldest.Overdue cfg now) ↔ ∃ idle ∈ idles, idle.Overdue cfg now := by
  constructor
  · rintro ⟨oldest, hmem, hoverdue⟩
    exact ⟨oldest, List.mem_of_getLast? hmem, hoverdue⟩
  · rintro ⟨idle, hmem, hmax, hoverdue⟩
    rcases List.eq_nil_or_concat idles with rfl | ⟨rest, oldest, rfl⟩
    · exact absurd hmem List.not_mem_nil
    · rw [List.concat_eq_append] at hmem hsorted ⊢
      refine ⟨oldest, by rw [List.getLast?_concat]; rfl, hmax, ?_⟩
      rcases List.mem_append.1 hmem with hrest | hlast
      · have hle : oldest.since ≤ idle.since := (List.pairwise_append.1 (hsorted hmax)).2.2 idle
          hrest oldest (List.mem_singleton_self oldest)
        exact lt_of_lt_of_le hoverdue (Int.sub_le_sub_left hle now)
      · exact List.mem_singleton.1 hlast ▸ hoverdue

/-- **One check.** What it leaves behind is under the connection that it hands out. -/
theorem InOrder.reclaimed_check (h : InOrder cfg s last) (hexact : cfg.Exact) {timeout : ℤ}
    {deadline : Option Time} {idle : Idle} {aboveMin : Bool}
    (ht : s.threads[i]? = some (.checkingOut timeout deadline idle aboveMin)) {now : Time}
    (verdict : Verdict) (hmeasured : Word.signed 64 (now - idle.since) = now - idle.since) :
    Reclaimed cfg (s, last) (.move i (.validated now verdict))
        (checkedOut s i timeout deadline idle (checkOut cfg idle aboveMin now verdict), now) ↔
      ¬ Buried cfg (s, last) (.move i (.validated now verdict)) := by
  have hcheck : check s (.move i (.validated now verdict)) =
      some ⟨idle, aboveMin, now, verdict⟩ := by rw [check, ht]
  have habove : aboveMin = decide (cfg.options.minSize < s.open_) := h.fits i _ ht
  -- With `never` nothing is overdue.
  by_cases hmax : cfg.options.maxIdle = never
  · refine iff_of_true (fun _ ↦ Or.inr fun x _ hx ↦ hx.1 hmax) ?_
    rintro ⟨c, -, -, -, -, oldest, -, hoverdue⟩
    exact hoverdue.1 hmax
  have htimed : cfg.timed ≠ false := by simp [Config.timed, hmax]
  have hexpired : toNanos cfg.options.maxIdle < Word.signed 64 (now - idle.since) ↔
      idle.Overdue cfg now := by
    rw [hexact.maxIdle hmax, hmeasured, Idle.Overdue]
    exact (and_iff_right hmax).symm
  have hrefused : (cfg.validate = true ∧ toNanos cfg.options.validateAfterIdle <
        Word.signed 64 (now - idle.since) ∧ isValid verdict = false) ↔
      (cfg.validate = true ∧ cfg.options.validateAfterIdle * 1000000 < now - idle.since ∧
        isValid verdict = false) := by
    refine and_congr_right fun hv ↦ ?_
    rw [hexact.validateAfterIdle hv, hmeasured]
  have hburied : Buried cfg (s, last) (.move i (.validated now verdict)) ↔
      cfg.options.minSize < s.open_ ∧ ¬ idle.Overdue cfg now ∧
        ¬ (cfg.validate = true ∧ toNanos cfg.options.validateAfterIdle <
          Word.signed 64 (now - idle.since) ∧ isValid verdict = false) ∧
        ∃ x ∈ s.idle, x.Overdue cfg now := by
    rw [Buried, hcheck, hrefused, ← overdue_getLast h.sorted]
    simp
  rw [hburied, checkOut, if_neg htimed]
  dsimp only
  by_cases hclosed : toNanos cfg.options.maxIdle < Word.signed 64 (now - idle.since) ∧
      aboveMin = true
  · rw [if_pos hclosed]
    exact iff_of_true (reclaimed_goto rfl) fun hb ↦ hb.2.1 (hexpired.1 hclosed.1)
  · rw [if_neg hclosed]
    by_cases hbroken : cfg.validate = true ∧ toNanos cfg.options.validateAfterIdle <
        Word.signed 64 (now - idle.since) ∧ isValid verdict = false
    · rw [if_pos hbroken]
      exact iff_of_true (reclaimed_goto rfl) fun hb ↦ hb.2.2.1 hbroken
    · rw [if_neg hbroken]
      have hacquires : acquires ({ s with handles := idle.connection :: s.handles }.goto i
          (.returned (.acquired idle.connection))) (.move i (.validated now verdict)) = true := by
        rw [acquires, State.goto_threads, List.getElem?_set_self', ht]
        rfl
      have hreclaimed : Reclaimed cfg (s, last) (.move i (.validated now verdict))
          (checkedOut s i timeout deadline idle (.usable idle.connection), now) ↔
            s.open_ ≤ cfg.options.minSize ∨ ∀ x ∈ s.idle, ¬ x.Overdue cfg now :=
        ⟨fun hr ↦ hr hacquires, fun hr _ ↦ hr⟩
      rw [hreclaimed]
      by_cases hmin : cfg.options.minSize < s.open_
      · have hnot : ¬ idle.Overdue cfg now := fun hoverdue ↦
          hclosed ⟨hexpired.2 hoverdue, by rw [habove, decide_eq_true hmin]⟩
        rw [or_iff_right (Nat.not_le.2 hmin)]
        exact ⟨fun hall hb ↦ hb.2.2.2.elim fun x hx ↦ hall x hx.1 hx.2,
          fun hb x hx hoverdue ↦ hb ⟨hmin, hnot, hbroken, x, hx, hoverdue⟩⟩
      · exact iff_of_true (Or.inl (Nat.not_lt.1 hmin)) fun hb ↦ hmin hb.1

/-- The clock is not read back. -/
theorem Measured.monotone (h : Measured s last a = true) : ∀ now ∈ a.reading, last ≤ now := by
  intro now hnow
  have hall := ((Bool.and_eq_true _ _).mp h).1
  rw [Option.mem_def.1 hnow] at hall
  exact of_decide_eq_true hall

/-- The time since the last use is computed without wrapping. -/
theorem Measured.exact (h : Measured s last a = true) {c : Check} (hc : c ∈ check s a) :
    Word.signed 64 (c.now - c.idle.since) = c.now - c.idle.since := by
  have hall := ((Bool.and_eq_true _ _).mp h).2
  rw [Option.mem_def.1 hc] at hall
  exact eq_of_beq hall

/-- Only a thread in checkOut() completes a check. -/
theorem checkingOut_of_check {c : Check} (hc : c ∈ check s (.move i m)) :
    ∃ timeout deadline idle aboveMin,
      s.threads[i]? = some (.checkingOut timeout deadline idle aboveMin) := by
  rcases m with _ | _ | _ | _ | _ | _ | ⟨now, verdict⟩ | _ | _ | _ | _
  case validated =>
    rcases hthread : s.threads[i]? with _ | t
    · rw [check, hthread] at hc
      exact absurd hc (Option.not_mem_none c)
    · cases t with
      | checkingOut timeout deadline idle aboveMin => exact ⟨_, _, _, _, rfl⟩
      | _ =>
        rw [check, hthread] at hc
        exact absurd hc (Option.not_mem_none c)
  all_goals exact absurd hc (Option.not_mem_none c)

/-- The moves that return from acquire(): a connection was checked, opened, or handed over. -/
theorem lands_of_moved (hm : Moved cfg s i t m s') :
    (∃ (u : State) (t' : Thread), s' = u.goto i t' ∧ t'.hasAcquired = false) ∨
      (∃ timeout deadline idle aboveMin, t = .checkingOut timeout deadline idle aboveMin) ∨
      (∃ caller, t = .opening caller) ∨
        ∃ deadline w, t = .waiting deadline w ∧ w.served = true := by
  cases hm with
  | callWarmUp r => exact Or.inl ⟨_, _, rfl, rfl⟩
  | callAcquire r timeout => exact Or.inl ⟨_, _, rfl, rfl⟩
  | callClose r =>
    unfold close
    split_ifs
    · exact Or.inl ⟨_, _, rfl, rfl⟩
    · exact Or.inl ⟨_, _, rfl, rfl⟩
  | release r c hc => exact Or.inl ⟨_, _, rfl, rfl⟩
  | discard r c hc => exact Or.inl ⟨_, _, rfl, rfl⟩
  | warmUp now =>
    unfold warmUp
    split_ifs
    · exact Or.inl ⟨_, _, rfl, rfl⟩
    · exact Or.inl ⟨_, _, rfl, rfl⟩
  | acquire timeout deadline now =>
    unfold acquire
    rcases s.idle with _ | ⟨idle, rest⟩ <;> dsimp only <;> split_ifs
    · exact Or.inl ⟨_, _, rfl, rfl⟩
    · exact Or.inl ⟨_, _, rfl, rfl⟩
    · exact Or.inl ⟨_, _, rfl, rfl⟩
    · exact Or.inl ⟨_, _, rfl, rfl⟩
    · exact Or.inl ⟨_, _, rfl, rfl⟩
  | checkOut timeout deadline idle aboveMin now verdict =>
    exact Or.inr (Or.inl ⟨_, _, _, _, rfl⟩)
  | factory caller returns => exact Or.inr (Or.inr (Or.inl ⟨_, rfl⟩))
  | wake deadline w hw => exact Or.inr (Or.inr (Or.inr ⟨_, _, rfl, hw⟩))
  | timeOut deadline w now hnow hw => exact Or.inl ⟨_, _, rfl, rfl⟩
  | clock caller c now => exact Or.inl ⟨_, _, rfl, rfl⟩
  | giveBack caller c since now =>
    have hafter : (afterGiveBack caller).hasAcquired = false := by cases caller <;> rfl
    unfold giveBack
    split_ifs
    · exact Or.inl ⟨_, _, rfl, hafter⟩
    · rcases s.waiters with _ | ⟨w, rest⟩
      · exact Or.inl ⟨_, _, rfl, hafter⟩
      · exact Or.inl ⟨_, _, rfl, hafter⟩
  | dropped next now =>
    have hafter : (afterDropped next).hasAcquired = false := by cases next <;> rfl
    unfold dropped
    rcases s.closed with _ | _ <;> rcases s.waiters with _ | ⟨w, rest⟩
    · exact Or.inl ⟨_, _, rfl, hafter⟩
    · exact Or.inl ⟨_, _, rfl, hafter⟩
    · exact Or.inl ⟨_, _, rfl, hafter⟩
    · exact Or.inl ⟨_, _, rfl, hafter⟩

/-- **One step of a sequential history** leaves nothing behind exactly when nothing is buried. -/
theorem InOrder.reclaimed_iff (h : InOrder cfg s last) (hexact : cfg.Exact)
    (ht : s.threads[i]? = some t) (hm : Moved cfg s i t m s')
    (hmeasured : Measured s last (.move i m) = true) :
    Reclaimed cfg (s, last) (.move i m) (s', m.reading.getD last) ↔
      ¬ Buried cfg (s, last) (.move i m) := by
  by_cases hchecking : ∃ timeout deadline idle aboveMin,
      t = .checkingOut timeout deadline idle aboveMin
  · obtain ⟨timeout, deadline, idle, aboveMin, rfl⟩ := hchecking
    obtain _ | _ | _ | _ | _ | _ | _ | ⟨_, _, _, _, now, verdict⟩ := hm
    have hcheck : check s (.move i (.validated now verdict)) =
        some ⟨idle, aboveMin, now, verdict⟩ := by rw [check, ht]
    exact h.reclaimed_check hexact ht verdict (Measured.exact hmeasured hcheck)
  · have hburied : ¬ Buried cfg (s, last) (.move i m) := by
      rintro ⟨c, hc, -⟩
      obtain ⟨timeout, deadline, idle, aboveMin, hthread⟩ := checkingOut_of_check hc
      exact hchecking ⟨_, _, _, _, Option.some.inj (ht.symm.trans hthread)⟩
    refine iff_of_true ?_ hburied
    rcases lands_of_moved hm with ⟨u, t', rfl, ht'⟩ | hchecks | ⟨caller, rfl⟩ |
      ⟨deadline, w, rfl, hw⟩
    · exact reclaimed_goto ht'
    · exact absurd hchecks hchecking
    · have hopening : caller = .warmUp ∨ s.idle = [] := h.fits i _ ht
      obtain _ | _ | _ | _ | _ | _ | _ | _ | ⟨_, returns⟩ := hm
      rcases returns with _ | _
      · exact reclaimed_goto rfl
      · cases caller with
        | warmUp => exact reclaimed_goto rfl
        | acquire =>
          have hnone : s.idle = [] := hopening.resolve_left Caller.noConfusion
          exact fun _ ↦ Or.inr fun x hx ↦ absurd (hnone ▸ hx) List.not_mem_nil
        | release =>
          have hnone : s.idle = [] := hopening.resolve_left Caller.noConfusion
          exact fun _ ↦ Or.inr fun x hx ↦ absurd (hnone ▸ hx) List.not_mem_nil
    · have hserved : w.served = false := h.fits i _ ht
      exact absurd (hserved.symm.trans hw) Bool.false_ne_true

/-! ### Histories -/

/-- What a step of a sequential history is: in order, with the clock read in order. -/
theorem sequential_step {x y : State × Time} (h : (sequential cfg).step x a = some y) :
    x.1.inOrder a = true ∧ Measured x.1 x.2 a = true ∧ step cfg x.1 a = some y.1 ∧
      y.2 = a.reading.getD x.2 := by
  by_cases hguard : (x.1.inOrder a && Measured x.1 x.2 a) = true
  · obtain ⟨t, ht, rfl⟩ := Option.map_eq_some_iff.1 ((if_pos hguard).symm.trans h)
    obtain ⟨horder, hmeasured⟩ := (Bool.and_eq_true _ _).mp hguard
    exact ⟨horder, hmeasured, ht, rfl⟩
  · exact absurd (h.symm.trans (if_neg hguard)) (Option.some_ne_none y)

theorem InOrder.init (cfg : Config) (start : Time) : InOrder cfg {} start :=
  ⟨Inv.init cfg, fun _ ↦ List.Pairwise.nil, fun _ _ hmem ↦ absurd hmem List.not_mem_nil,
    fun _ t ht ↦ absurd ht.symm (Option.some_ne_none t)⟩

theorem InOrder.spawn (h : InOrder cfg s last) {s' : State} (hstep : step cfg s .spawn = some s') :
    InOrder cfg s' last := by
  have hpool : Inv cfg s' := h.pool.step hstep
  obtain rfl := Option.some.inj hstep
  refine ⟨hpool, h.sorted, h.past, fun j t ht ↦ ?_⟩
  rcases Nat.lt_or_ge j s.threads.length with hlt | hge
  · rw [List.getElem?_append_left hlt] at ht
    have hfits := h.fits j t ht
    cases t <;> exact hfits
  · rw [List.getElem?_append_right hge] at ht
    obtain rfl : t = .returned .done := by
      simpa using List.mem_of_getElem? ht
    trivial

/-- Every step of a sequential history leaves the idle connections in order. -/
theorem InOrder.step {x y : State × Time} (h : InOrder cfg x.1 x.2)
    (hstep : (sequential cfg).step x a = some y) : InOrder cfg y.1 y.2 := by
  obtain ⟨horder, hmeasured, hstep, hlast⟩ := sequential_step hstep
  rw [hlast]
  obtain ⟨rfl, -⟩ | ⟨i, m, t, rfl, ht, hm⟩ := step_cases hstep
  · exact h.spawn hstep
  · exact h.moved horder ht hm (Measured.monotone hmeasured)

/-- **Idle connections above `min_size` are closed after `max_idle`** in a sequential history
exactly when acquire() never checks, above `min_size`, a usable connection on top of one that has
been idle for too long. -/
theorem idle_reclaimed_iff (hexact : cfg.Exact) (start : Time) (as : List Action) :
    (sequential cfg).EveryStep (Reclaimed cfg) ({}, start) as ↔
      (sequential cfg).EveryStep (fun x a _ ↦ ¬ Buried cfg x a) ({}, start) as := by
  refine Machine.everyStep_congr (I := fun x ↦ InOrder cfg x.1 x.2) (fun _ _ _ h hx ↦ h.step hx)
    (fun x a y h hx ↦ ?_) (InOrder.init cfg start) as
  obtain ⟨-, hmeasured, hstep, hlast⟩ := sequential_step hx
  obtain ⟨rfl, -⟩ | ⟨i, m, t, rfl, ht, hm⟩ := step_cases hstep
  · refine iff_of_true (fun hacquires ↦ absurd hacquires Bool.false_ne_true) ?_
    rintro ⟨c, hc, -⟩
    exact absurd hc (Option.not_mem_none c)
  · have hy : y = (y.1, m.reading.getD x.2) := Prod.ext rfl hlast
    rw [hy]
    exact h.reclaimed_iff hexact ht hm hmeasured

/-- A pool without a validate function, as its options are by default. -/
def byDefault : Config where
  options := {}
  validate := false
  maxSize_pos := Nat.le_of_ble_eq_true rfl
  minSize_le := Nat.zero_le 10
  maxSize_lt := by decide

theorem exact_byDefault : byDefault.Exact :=
  ⟨fun _ ↦ by decide, fun h ↦ absurd h Bool.false_ne_true⟩

/-- Two connections are opened and given back. -/
def twoIdle : List Action :=
  [.spawn, .move 0 (.callAcquire none), .move 0 (.lock 0), .move 0 (.factory true),
    .move 0 (.callAcquire none), .move 0 (.lock 0), .move 0 (.factory true),
    .move 0 (.release 0), .move 0 (.clock 0), .move 0 (.lock 0),
    .move 0 (.release 1), .move 0 (.clock 0), .move 0 (.lock 0)]

/-- Ten minutes later both are closed and a new one is opened. -/
theorem idle_reclaimed_iff_tenMinutes :
    (sequential byDefault).EveryStep (Reclaimed byDefault) ({}, 0)
      (twoIdle ++ [.move 0 (.callAcquire none), .move 0 (.lock 0),
        .move 0 (.validated 600000000000 .valid), .move 0 (.lock 600000000000),
        .move 0 (.lock 600000000000), .move 0 (.validated 600000000000 .valid),
        .move 0 (.lock 600000000000), .move 0 (.lock 600000000000), .move 0 (.factory true)]) :=
  (idle_reclaimed_iff exact_byDefault 0 _).2 (by decide +kernel)

/-- One of them is used every three minutes, and the other stays. -/
theorem second_stays : ¬ ∀ cfg : Config, cfg.Exact → ∀ (start : Time) (as : List Action),
    (sequential cfg).EveryStep (Reclaimed cfg) ({}, start) as := by
  intro h
  refine absurd (h byDefault exact_byDefault 0 (twoIdle ++ [.move 0 (.callAcquire none),
    .move 0 (.lock 0), .move 0 (.validated 180000000000 .valid), .move 0 (.release 1),
    .move 0 (.clock 180000000000), .move 0 (.lock 180000000000), .move 0 (.callAcquire none),
    .move 0 (.lock 180000000000), .move 0 (.validated 360000000000 .valid)])) ?_
  decide +kernel

end CppGate.ConnectionPool
