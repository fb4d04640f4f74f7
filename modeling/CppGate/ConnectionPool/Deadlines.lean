import CppGate.ConnectionPool.Guarantees
import CppGate.ConnectionPool.IdleTime

/-!
# When acquire() times out

acquire() computes its deadline as `Clock::now() + timeout`, in 64-bit nanoseconds. A thread comes
to that line at most once in a call: once it waits it leaves acquire(), with a connection or
without. So the deadline that a thread waits for is the time at which it first found the pool
exhausted, plus its timeout, as long as that sum is representable (`acquire_times_out_no_earlier`).

A sum past the end of the clock's range wraps to a time that has passed. For `never`, the
largest number of milliseconds, it is a millisecond ago, whatever the clock shows
(`deadline_never`).
-/

namespace CppGate.ConnectionPool

variable {cfg : Config} {s s' : State} {i : Tid} {t : Thread} {m : Move}

/-! ### What a caller asked for, and since when -/

/-- The pool has no connection and no free slot. -/
def Exhausted (cfg : Config) (s : State) : Prop :=
  s.closed = false ∧ s.idle = [] ∧ cfg.options.maxSize ≤ s.open_

instance (cfg : Config) (s : State) : Decidable (Exhausted cfg s) :=
  inferInstanceAs (Decidable (_ ∧ _ ∧ _))

/-- The beginning of a wait. -/
structure Wait where
  /-- In milliseconds. -/
  timeout : ℤ
  /-- The clock, as it is read there. -/
  now : ℤ
  deriving DecidableEq, Repr

/-- When the wait should end, in nanoseconds. -/
def Wait.deadline (wait : Wait) : ℤ :=
  wait.now + wait.timeout * 1000000

/-- The wait that a step begins. -/
def waitBegun (cfg : Config) (s : State) : Action → Option Wait
  | .move i (.lock now) =>
    match s.threads[i]? with
    | some (.acquiring timeout _) => if Exhausted cfg s then some ⟨timeout, now⟩ else none
    | _ => none
  | _ => none

/-- What an observer knows of a thread's last call of acquire(). -/
structure Asked where
  /-- Its timeout, in milliseconds. -/
  timeout : ℤ := 0
  /-- When it first found no connection and no free slot. -/
  since : Option Time := none
  deriving DecidableEq, Repr

/-- The observer looks at the clock when acquire() does. -/
def watch (cfg : Config) (asked : Tid → Asked) (s : State) (a : Action) (_ : State) : Tid → Asked :=
  match a with
  | .move i (.callAcquire timeout) =>
    Function.update asked i { timeout := timeout.getD cfg.options.acquireTimeout }
  | .move i (.lock now) =>
    if (waitBegun cfg s a).isSome then
      Function.update asked i { asked i with since := some ((asked i).since.getD now) }
    else
      asked
  | _ => asked

/-- The pool with an observer for each thread. -/
def watched (cfg : Config) : Machine (State × (Tid → Asked)) Action :=
  (machine cfg).observed (fun _ ↦ {}) (watch cfg)

/-- The timeout is over. -/
def Asked.Elapsed (asked : Asked) (now : Time) : Prop :=
  ∃ since ∈ asked.since, asked.timeout * 1000000 ≤ now - since

instance (asked : Asked) (now : Time) : Decidable (asked.Elapsed now) :=
  inferInstanceAs (Decidable (∃ since ∈ asked.since, _))

/-- If the step is a timeout, the time that the caller gave is over. -/
def NotEarly (x : State × (Tid → Asked)) : Action → Prop
  | .move i (.timeOut now) => (x.2 i).Elapsed now
  | _ => True

instance (x : State × (Tid → Asked)) (a : Action) : Decidable (NotEarly x a) := by
  unfold NotEarly
  split <;> infer_instance

/-- If the step begins a wait, its deadline is a time that the clock can show. -/
def DeadlineFits (cfg : Config) (s : State) (a : Action) : Prop :=
  ∀ wait ∈ waitBegun cfg s a, -2 ^ 63 ≤ wait.deadline ∧ wait.deadline < 2 ^ 63

instance (cfg : Config) (s : State) (a : Action) : Decidable (DeadlineFits cfg s a) :=
  inferInstanceAs (Decidable (∀ wait ∈ waitBegun cfg s a, _))

/-! ### The deadline of a thread -/

/-- How far a thread is in acquire(), as far as its timeout goes. -/
inductive Aim
  | elsewhere
  | before (timeout : ℤ) (deadline : Option Time)
  | waiting (deadline : Time)
  deriving DecidableEq, Repr

/-- The aim of a thread at a point of the code. -/
def Thread.aim : Thread → Aim
  | .acquiring timeout deadline => .before timeout deadline
  | .checkingOut timeout deadline _ _ => .before timeout deadline
  | .dropping (.retry timeout deadline) => .before timeout deadline
  | .waiting deadline _ => .waiting deadline
  | _ => .elsewhere

theorem aim_mapWaiter (f : Waiter → Waiter) (t : Thread) : (t.mapWaiter f).aim = t.aim := by
  cases t <;> rfl

theorem aim_afterGiveBack (caller : Caller) : (afterGiveBack caller).aim = .elsewhere := by
  cases caller <;> rfl

theorem aim_afterDropped (next : Next) : (afterDropped next).aim = (Thread.dropping next).aim := by
  cases next <;> rfl

/-- What a thread aims at after a move. -/
inductive Aimed (cfg : Config) (s : State) : Thread → Move → Aim → Prop
  | elsewhere (t : Thread) (m : Move) : Aimed cfg s t m .elsewhere
  /-- It goes on, without the lock or with the pool not exhausted. -/
  | kept (t : Thread) (m : Move) (hcall : ∀ timeout, m ≠ .callAcquire timeout)
    (hlock : ∀ timeout deadline, t = .acquiring timeout deadline → ¬Exhausted cfg s) :
    Aimed cfg s t m t.aim
  | called (r : Result) (timeout : Option ℤ) :
    Aimed cfg s (.returned r) (.callAcquire timeout)
      (.before (timeout.getD cfg.options.acquireTimeout) none)
  | waits (timeout : ℤ) (deadline : Option Time) (now : Time) (h : Exhausted cfg s) :
    Aimed cfg s (.acquiring timeout deadline) (.lock now)
      (.waiting (deadline.getD (Word.signed 64 (now + toNanos timeout))))

/-- Telling a waiter something leaves the aims. -/
theorem aims_modify (ts : List Thread) (w : Tid) (f : Waiter → Waiter) :
    (ts.modify w (Thread.mapWaiter f)).map Thread.aim = ts.map Thread.aim := by
  refine List.ext_getElem? fun j ↦ ?_
  rw [List.getElem?_map, List.getElem?_map, List.getElem?_modify]
  cases ts[j]? with
  | none => rfl
  | some t =>
    show some (Thread.aim (if w = j then t.mapWaiter f else t)) = some t.aim
    split
    · rw [aim_mapWaiter]
    · rfl

theorem aims_closeAll (ws : List Tid) (ts : List Thread) :
    (ws.foldl (fun ts w ↦ ts.modify w (Thread.mapWaiter Waiter.tellClosed)) ts).map Thread.aim =
      ts.map Thread.aim := by
  induction ws generalizing ts with
  | nil => rfl
  | cons w ws ih => rw [List.foldl_cons, ih, aims_modify]

/-- A move leads its thread to an aim that `Aimed` allows, and leaves the others' alone. -/
theorem aimed_moved (hm : Moved cfg s i t m s') :
    ∃ aim, Aimed cfg s t m aim ∧
      s'.threads.map Thread.aim = (s.threads.map Thread.aim).set i aim := by
  have hgo : ∀ (s₁ : State) (t' : Thread), s₁.threads.map Thread.aim = s.threads.map Thread.aim →
      Aimed cfg s t m t'.aim → ∃ aim, Aimed cfg s t m aim ∧
        (s₁.goto i t').threads.map Thread.aim = (s.threads.map Thread.aim).set i aim := by
    intro s₁ t' hthreads haim
    exact ⟨t'.aim, haim, by rw [State.goto_threads, List.map_set, hthreads]⟩
  cases hm with
  | callWarmUp r => exact hgo _ _ rfl (.elsewhere _ _)
  | callAcquire r timeout => exact hgo _ _ rfl (.called r timeout)
  | callClose r =>
    unfold close
    split
    · exact hgo _ _ rfl (.elsewhere _ _)
    · exact hgo _ _ (aims_closeAll _ _) (.elsewhere _ _)
  | release r c hc => exact hgo _ _ rfl (.elsewhere _ _)
  | discard r c hc => exact hgo _ _ rfl (.elsewhere _ _)
  | warmUp now =>
    unfold warmUp
    split
    · exact hgo _ _ rfl (.elsewhere _ _)
    · exact hgo _ _ rfl (.elsewhere _ _)
  | acquire timeout deadline now =>
    unfold acquire
    split
    · exact hgo _ _ rfl (.elsewhere _ _)
    next hopen =>
    split
    · next idle rest hidle =>
      refine hgo _ _ rfl (.kept (.acquiring timeout deadline) _ (fun _ h ↦ by cases h) ?_)
      rintro _ _ - ⟨-, hnone, -⟩
      rw [hidle] at hnone
      cases hnone
    next hidle =>
    split
    · exact hgo _ _ rfl (.elsewhere _ _)
    · next hfull =>
      exact hgo _ _ rfl (.waits timeout deadline now
        ⟨Bool.eq_false_iff.2 hopen, hidle, Nat.le_of_not_lt hfull⟩)
  | checkOut timeout deadline idle aboveMin now verdict =>
    cases checkOut cfg idle aboveMin now verdict with
    | usable c => exact hgo _ _ rfl (.elsewhere _ _)
    | expired | broken =>
      exact hgo _ _ rfl (.kept (.checkingOut timeout deadline idle aboveMin) _
        (fun _ h ↦ by cases h) (fun _ _ h ↦ by cases h))
  | factory caller returns =>
    cases caller <;> cases returns <;> exact hgo _ _ rfl (.elsewhere _ _)
  | wake d w hw =>
    unfold resume
    split
    · exact hgo _ _ rfl (.elsewhere _ _)
    split
    · exact hgo _ _ rfl (.elsewhere _ _)
    · exact hgo _ _ rfl (.elsewhere _ _)
  | timeOut d w now hnow hw => exact hgo _ _ rfl (.elsewhere _ _)
  | clock caller c now => exact hgo _ _ rfl (.elsewhere _ _)
  | giveBack caller c since now =>
    have haim : Aimed cfg s (.storing caller c since) (.lock now) (afterGiveBack caller).aim :=
      aim_afterGiveBack caller ▸ .elsewhere _ _
    unfold giveBack
    split
    · exact hgo _ _ rfl haim
    split
    · exact hgo _ _ (aims_modify _ _ _) haim
    · exact hgo _ _ rfl haim
  | dropped next now =>
    have haim : Aimed cfg s (.dropping next) (.lock now) (afterDropped next).aim :=
      aim_afterDropped next ▸ .kept (.dropping next) _ (fun _ h ↦ by cases h)
        (fun _ _ h ↦ by cases h)
    unfold dropped
    split
    · exact hgo _ _ (aims_modify _ _ _) haim
    · exact hgo _ _ rfl haim

/-! ### The deadline is the time of the first wait, plus the timeout -/

/-- What the observer knows of a thread fits where the thread is. -/
def Asked.Fits (asked : Asked) : Aim → Prop
  | .elsewhere => True
  | .before timeout deadline => deadline = none ∧ asked = { timeout }
  | .waiting deadline => ∃ since, asked.since = some since ∧
      deadline = since + asked.timeout * 1000000

/-- The observers' knowledge fits the threads. -/
def Fitting (x : State × (Tid → Asked)) : Prop :=
  ∀ (i : Tid) (t : Thread), x.1.threads[i]? = some t → (x.2 i).Fits t.aim

/-- The deadline is exact where it is representable: a 64-bit product and a 64-bit sum. -/
theorem deadline_eq {now timeout : ℤ} (hlo : -2 ^ 63 ≤ now + timeout * 1000000)
    (hhi : now + timeout * 1000000 < 2 ^ 63) :
    Word.signed 64 (now + toNanos timeout) = now + timeout * 1000000 := by
  rw [toNanos, Word.signed, Word.signed, Int.add_bmod_bmod]
  exact Word.signed_eq_self (w := 63) hlo hhi

/-- A call that finds the pool exhausted begins to wait at the time that it read. -/
theorem waitBegun_lock {timeout : ℤ} {deadline : Option Time} (now : Time)
    (ht : s.threads[i]? = some (.acquiring timeout deadline)) (h : Exhausted cfg s) :
    waitBegun cfg s (.move i (.lock now)) = some ⟨timeout, now⟩ := by
  rw [waitBegun, ht]
  exact if_pos h

/-- Only the first wait of a call is noted. -/
theorem waitBegun_eq_none (ht : s.threads[i]? = some t)
    (h : ∀ timeout deadline, t = .acquiring timeout deadline → ¬Exhausted cfg s) (now : Time) :
    waitBegun cfg s (.move i (.lock now)) = none := by
  rw [waitBegun, ht]
  cases t with
  | acquiring timeout deadline => exact if_neg (h timeout deadline rfl)
  | _ => rfl

theorem watch_of_ne (asked : Tid → Asked) {j : Tid} (hj : j ≠ i) :
    watch cfg asked s (.move i m) s' j = asked j := by
  cases m with
  | callAcquire timeout => exact Function.update_of_ne hj _ _
  | lock now =>
    rw [watch]
    split
    · exact Function.update_of_ne hj _ _
    · rfl
  | _ => rfl

/-- A move that asks for nothing and does not begin to wait is not noted. -/
theorem watch_kept (asked : Tid → Asked) (ht : s.threads[i]? = some t)
    (hcall : ∀ timeout, m ≠ .callAcquire timeout)
    (hlock : ∀ timeout deadline, t = .acquiring timeout deadline → ¬Exhausted cfg s) :
    watch cfg asked s (.move i m) s' = asked := by
  cases m with
  | callAcquire timeout => exact absurd rfl (hcall timeout)
  | lock now =>
    rw [watch, waitBegun_eq_none ht hlock]
    rfl
  | _ => rfl

/-- What the observer of the moving thread knows afterwards fits. -/
theorem fits_of_aimed {x : State × (Tid → Asked)} (hx : Fitting x)
    (ht : x.1.threads[i]? = some t) {aim : Aim} (haimed : Aimed cfg x.1 t m aim)
    (hdeadline : DeadlineFits cfg x.1 (.move i m)) :
    (watch cfg x.2 x.1 (.move i m) s' i).Fits aim := by
  have hfits := hx i t ht
  cases haimed with
  | elsewhere => trivial
  | kept _ _ hcall hlock =>
    rw [watch_kept x.2 ht hcall hlock]
    exact hfits
  | called r timeout =>
    rw [watch, Function.update_self]
    exact ⟨rfl, rfl⟩
  | waits timeout deadline now hex =>
    have hwait := waitBegun_lock now ht hex
    obtain ⟨rfl, hasked⟩ := hfits
    obtain ⟨hlo, hhi⟩ := hdeadline _ hwait
    rw [watch, hwait, hasked]
    exact ⟨now, by simp, by simpa using deadline_eq hlo hhi⟩

/-- A thread that times out has waited until its deadline. -/
theorem not_early_of_moved {x : State × (Tid → Asked)} (hx : Fitting x)
    (ht : x.1.threads[i]? = some t) (hm : Moved cfg x.1 i t m s') : NotEarly x (.move i m) := by
  cases hm with
  | timeOut d w now hnow hw =>
    obtain ⟨since, hsince, rfl⟩ := hx i _ ht
    exact ⟨since, hsince, Int.le_sub_left_of_add_le hnow⟩
  | _ => trivial

/-- A move whose deadline fits keeps the observers' knowledge fitting. -/
theorem fitting_moved {x : State × (Tid → Asked)} (hx : Fitting x)
    (ht : x.1.threads[i]? = some t) (hm : Moved cfg x.1 i t m s')
    (hdeadline : DeadlineFits cfg x.1 (.move i m)) :
    Fitting (s', watch cfg x.2 x.1 (.move i m) s') := by
  obtain ⟨aim, haimed, hthreads⟩ := aimed_moved hm
  intro j t' hj
  have haim : (s'.threads.map Thread.aim)[j]? = some t'.aim := by
    rw [List.getElem?_map, hj, Option.map_some]
  rw [hthreads] at haim
  rcases eq_or_ne i j with rfl | hne
  · have hlen : i < (x.1.threads.map Thread.aim).length := by
      rw [List.length_map]
      exact (List.getElem?_eq_some_iff.1 ht).1
    rw [List.getElem?_set_self hlen] at haim
    obtain rfl := Option.some.inj haim
    show (watch cfg x.2 x.1 (.move i m) s' i).Fits t'.aim
    exact fits_of_aimed hx ht haimed hdeadline
  · rw [List.getElem?_set_ne hne, List.getElem?_map] at haim
    obtain ⟨t, ht', htt'⟩ := Option.map_eq_some_iff.1 haim
    show (watch cfg x.2 x.1 (.move i m) s' j).Fits t'.aim
    rw [watch_of_ne x.2 hne.symm, ← htt']
    exact hx j t ht'

theorem fitting_spawn {x : State × (Tid → Asked)} (hx : Fitting x) :
    Fitting ({ x.1 with threads := x.1.threads ++ [.returned .done] }, x.2) := by
  intro j t hj
  rw [List.getElem?_append] at hj
  split at hj
  · exact hx j t hj
  · obtain rfl := List.mem_singleton.1 (List.mem_of_getElem? hj)
    trivial

/-- **A step** whose deadline fits keeps the knowledge of the observers, and times nobody out
early. -/
theorem fitting_step {x y : State × (Tid → Asked)} {a : Action} (hx : Fitting x)
    (hdeadline : DeadlineFits cfg x.1 a) (h : (watched cfg).step x a = some y) :
    NotEarly x a ∧ Fitting y := by
  obtain ⟨hstep, hnotes⟩ := Machine.observed_step h
  have hy : y = (y.1, watch cfg x.2 x.1 a y.1) := by rw [← hnotes]
  rw [hy]
  rcases step_cases hstep with ⟨rfl, hs⟩ | ⟨i, m, t, rfl, ht, hm⟩
  · refine ⟨trivial, ?_⟩
    rw [hs]
    exact fitting_spawn hx
  · exact ⟨not_early_of_moved hx ht hm, fitting_moved hx ht hm hdeadline⟩

theorem fitting_init {x : State × (Tid → Asked)} (h : (watched cfg).Init x) : Fitting x := by
  intro i t ht
  rw [show x.1 = {} from h.1] at ht
  simp at ht

/-! ### Deadlines that do not fit -/

/-- The wait that a step begins is one of acquire(), in an exhausted pool. -/
theorem exhausted_of_waitBegun {wait : Wait} {a : Action} (h : wait ∈ waitBegun cfg s a) :
    ∃ i deadline, a = .move i (.lock wait.now) ∧
      s.threads[i]? = some (.acquiring wait.timeout deadline) ∧ Exhausted cfg s := by
  unfold waitBegun at h
  split at h
  case h_2 => cases h
  next i now' =>
  split at h
  case h_2 => cases h
  next timeout' deadline ht =>
  split at h
  · next hex =>
    cases h
    exact ⟨i, deadline, rfl, ht, hex⟩
  · cases h

/-- The deadline for `never` is a millisecond ago. -/
theorem deadline_never {now : ℤ} (hlo : -2 ^ 63 + 1000000 ≤ now) (hhi : now < 2 ^ 63) :
    Word.signed 64 (now + toNanos never) = now - 1000000 := by
  rw [toNanos_never]
  exact Word.signed_eq_self (w := 63) (by omega) (by omega)

/-- In an exhausted pool acquire() waits. -/
theorem acquire_of_exhausted (h : Exhausted cfg s) (timeout : ℤ) (now : Time) :
    acquire cfg s i timeout none now = { s with waiters := s.waiters ++ [i] }.goto i
      (.waiting (Word.signed 64 (now + toNanos timeout)) {}) := by
  rw [acquire, if_neg (by simp [h.1]), h.2.1]
  exact if_neg (Nat.not_lt_of_le h.2.2)

/-- **A wait whose deadline does not fit can time out early**, at a time that the clock shows. -/
theorem early_of_not_fits {x y : State × (Tid → Asked)} {wait : Wait} {a : Action}
    (hx : Fitting x) (hwait : wait ∈ waitBegun cfg x.1 a) (h : (watched cfg).step x a = some y)
    (hnow : wait.now < 2 ^ 63) (hhi : 2 ^ 63 ≤ wait.deadline) :
    ∃ i later z, wait.now ≤ later ∧ later < 2 ^ 63 ∧
      (watched cfg).step y (.move i (.timeOut later)) = some z ∧
        ¬NotEarly y (.move i (.timeOut later)) := by
  obtain ⟨timeout, now⟩ := wait
  obtain ⟨i, deadline, rfl, ht, hex⟩ := exhausted_of_waitBegun hwait
  obtain ⟨rfl, hasked⟩ := hx i _ ht
  obtain ⟨hstep, hnotes⟩ := Machine.observed_step h
  -- what the thread waits for, and what its observer knows
  set d : ℤ := Word.signed 64 (now + toNanos timeout) with hd
  have hwaiting : y.1.threads[i]? = some (.waiting d {}) := by
    have hy : step cfg x.1 (.move i (.lock now)) = some (acquire cfg x.1 i timeout none now) := by
      rw [step, ht]
      rfl
    rw [← Option.some.inj (hy.symm.trans hstep), acquire_of_exhausted hex, State.goto_threads]
    exact List.getElem?_set_self (List.getElem?_eq_some_iff.1 ht).1
  have hsince : y.2 i = { timeout, since := some now } := by
    rw [hnotes, watch, hwait, hasked]
    exact Function.update_self ..
  have hlow : d < 2 ^ 63 := Word.signed_lt 63 _
  have hearly : max now d < now + timeout * 1000000 :=
    lt_of_lt_of_le (max_lt hnow hlow) hhi
  have htimeOut : step cfg y.1 (.move i (.timeOut (max now d))) = some (timeOut y.1 i) := by
    rw [step, hwaiting]
    exact if_pos ⟨le_max_right _ _, rfl⟩
  refine ⟨i, max now d, _, le_max_left _ _, max_lt hnow hlow, Machine.observed_of_step htimeOut,
    ?_⟩
  rintro ⟨since, hmem, hle⟩
  rw [hsince] at hmem hle
  obtain rfl := Option.some.inj hmem
  have hle' : timeout * 1000000 ≤ max now d - now := hle
  omega

/-! ### acquire() and its timeout -/

/-- **No acquire() times out early** in a run whose deadlines fit. The first deadline past the end
of the clock's range can be followed by a timeout that is early. -/
theorem acquire_times_out_no_earlier (cfg : Config) :
    (∀ as, (watched cfg).EveryStep (fun x a _ ↦ DeadlineFits cfg x.1 a) ({}, fun _ ↦ {}) as →
      (watched cfg).EveryStep (fun x a _ ↦ NotEarly x a) ({}, fun _ ↦ {}) as) ∧
    ∀ x a y, (watched cfg).ReachableVia (fun x a ↦ DeadlineFits cfg x.1 a) x →
      (watched cfg).step x a = some y →
      (∀ wait ∈ waitBegun cfg x.1 a,
        0 ≤ wait.timeout ∧ -2 ^ 63 ≤ wait.now ∧ wait.now < 2 ^ 63) →
      ¬DeadlineFits cfg x.1 a →
      ∃ i later z, later < 2 ^ 63 ∧ (∀ wait ∈ waitBegun cfg x.1 a, wait.now ≤ later) ∧
        (watched cfg).step y (.move i (.timeOut later)) = some z ∧
          ¬NotEarly y (.move i (.timeOut later)) := by
  have hinit : Fitting ({}, fun _ ↦ {}) :=
    fitting_init (show (watched cfg).Init ({}, fun _ ↦ {}) from ⟨rfl, rfl⟩)
  refine ⟨fun as ↦ Machine.EveryStep.of_invariant (fun x a y hx hfits hstep ↦
    fitting_step hx hfits hstep) hinit,
    fun x a y hx hstep hok hfits ↦ ?_⟩
  have hfitting : Fitting x :=
    hx.invariant (fun _ ↦ fitting_init) fun x a y hx hfits hstep ↦ (fitting_step hx hfits hstep).2
  obtain ⟨wait, hwait, hout⟩ : ∃ wait ∈ waitBegun cfg x.1 a,
      ¬(-2 ^ 63 ≤ wait.deadline ∧ wait.deadline < 2 ^ 63) := by
    simpa [DeadlineFits] using hfits
  obtain ⟨htimeout, hlo, hnow⟩ := hok wait hwait
  have hhi : 2 ^ 63 ≤ wait.deadline := by
    rw [Wait.deadline] at hout ⊢
    omega
  obtain ⟨i, later, z, hle, hlater, htimeOut, hearly⟩ :=
    early_of_not_fits hfitting hwait hstep hnow hhi
  refine ⟨i, later, z, hlater, fun wait' h ↦ ?_, htimeOut, hearly⟩
  rwa [Option.mem_unique h hwait]

/-- A second thread waits for the one connection. -/
def secondWaits (timeout : ℤ) (end_ : Time) : List Action :=
  [.spawn, .spawn, .move 0 (.callAcquire none), .move 0 (.lock 0), .move 0 (.factory true),
    .move 1 (.callAcquire (some timeout)), .move 1 (.lock 0), .move 1 (.timeOut end_)]

theorem acquire_times_out_no_earlier_oneSecond :
    (watched single).EveryStep (fun x a _ ↦ NotEarly x a) ({}, fun _ ↦ {})
      (secondWaits 1000 1000000000) :=
  (acquire_times_out_no_earlier single).1 _ (by decide)

/-- With `never` it times out where it began to wait. -/
theorem never_times_out_early :
    ¬∀ cfg as, (∀ i timeout, .move i (.callAcquire (some timeout)) ∈ as →
        0 ≤ timeout ∧ timeout < 2 ^ 63) →
      (watched cfg).EveryStep (fun x a _ ↦ NotEarly x a) ({}, fun _ ↦ {}) as := by
  intro h
  refine absurd (h single (secondWaits never 0) fun i timeout hmem ↦ ?_) (by decide)
  obtain ⟨-, rfl⟩ : i = 1 ∧ timeout = never := by simpa [secondWaits] using hmem
  decide

end CppGate.ConnectionPool
