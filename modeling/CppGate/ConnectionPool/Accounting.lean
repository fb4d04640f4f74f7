import CppGate.ConnectionPool.Waiters
import CppGate.Foundations.ListWeights

/-!
# Slots and connections are never lost

`open_` counts slots, and connections move between threads outside the lock, so the two facts that
make the pool sound are about the state as a whole: `open_` is the number of places that hold a slot
(`Inv.account`), and every connection the factory returned is in exactly one place or destroyed
(`Inv.owner`). Both are sums over the table of threads, so a move changes them by the difference
between the old and the new entry of the thread that moves; `Inv.goto` states that difference once,
and each section of the pool then only has to say what it does to the shared part.

The handed-over slots need the queue: the section that frees a slot writes into another thread's
waiter, and nothing is lost there because that thread is known to be waiting (`Queue.serve`).
-/

namespace CppGate.ConnectionPool

/-! ### What a thread holds -/

/-- openReserved() is in progress. -/
def Thread.isOpening : Thread → Bool
  | .opening _ => true
  | _ => false

/-- The thread has a connection, or the slot of one, between two sections: it is checking out,
giving back or dropping. -/
def Thread.inTransit : Thread → Bool
  | .checkingOut .. => true
  | .givingBack .. => true
  | .storing .. => true
  | .dropping _ => true
  | _ => false

/-- A connection or a slot was passed to the thread and it has not resumed yet. -/
def Thread.passedOn : Thread → Bool
  | .waiting _ w => w.connection.isSome || w.mayOpen
  | _ => false

/-- The slots of `open_` that a thread accounts for. -/
def Thread.slots (t : Thread) : ℕ :=
  t.isOpening.toNat + t.inTransit.toNat + t.passedOn.toNat

/-- The connections a thread holds. -/
def Thread.conns : Thread → List Conn
  | .checkingOut _ _ idle _ => [idle.connection]
  | .waiting _ w => w.connection.toList
  | .givingBack _ c => [c]
  | .storing _ c _ => [c]
  | _ => []

namespace State

/-- Reserved openings in progress. -/
def openings (s : State) : ℕ := s.threads.countP Thread.isOpening

/-- Connections being checked out, given back or dropped. -/
def transits (s : State) : ℕ := s.threads.countP Thread.inTransit

/-- Connections and slots passed to a waiter that has not resumed yet. -/
def passedOn (s : State) : ℕ := s.threads.countP Thread.passedOn

/-- The slots all threads account for. -/
def slots (s : State) : ℕ := (s.threads.map Thread.slots).sum

/-- The slots outside the threads: idle connections and handles. -/
def resting (s : State) : ℕ := s.idle.length + s.handles.length

/-- Where the live connections are: idle, in a handle, or with a thread. -/
def places (s : State) : List Conn :=
  s.idle.map Idle.connection ++ s.handles ++ s.threads.flatMap Thread.conns

/-- How often a connection occurs outside the threads, destroyed ones included. -/
def occurs (s : State) (c : Conn) : ℕ :=
  (s.idle.map Idle.connection).count c + s.handles.count c + s.destroyed.count c

/-- How often a connection occurs with a thread. -/
def carried (s : State) (c : Conn) : ℕ :=
  (s.threads.map fun t ↦ t.conns.count c).sum

/-- A connection the factory returned counts once. -/
def issued (s : State) (c : Conn) : ℕ :=
  if c < s.opened then 1 else 0

end State

theorem slots_eq_counts (s : State) : s.slots = s.openings + s.transits + s.passedOn := by
  rw [State.slots, State.openings, State.transits, State.passedOn]
  induction s.threads with
  | nil => rfl
  | cons t ts ih =>
    rw [List.map_cons, List.sum_cons, ih]
    simp only [List.countP_cons, Thread.slots, Bool.toNat, Bool.cond_eq_ite]
    omega

/-- A connection is counted where it occurs in the pool, or with a thread that carries it. -/
theorem count_places (s : State) (c : Conn) :
    (s.places ++ s.destroyed).count c = s.occurs c + s.carried c := by
  rw [State.places, State.occurs, State.carried]
  simp only [List.count_append, List.count_flatMap, Function.comp_def]
  omega

/-! ### The invariant -/

/-- The pool's invariant. -/
structure Inv (cfg : Config) (s : State) : Prop where
  /-- `waiters_` lists the threads that wait unserved. -/
  queue : Queue s.waiters s.threads
  /-- Each slot of `open_` is in one place. -/
  account : s.open_ = s.resting + s.slots
  /-- Each connection the factory returned is in one place, or destroyed. -/
  owner : ∀ c, s.occurs c + s.carried c = s.issued c
  /-- The limit. -/
  bound : s.open_ ≤ cfg.options.maxSize
  /-- Threads are queued only when there is nothing for them. -/
  full : s.waiters ≠ [] → s.closed = false ∧ s.idle = [] ∧ s.open_ = cfg.options.maxSize

theorem Inv.init (cfg : Config) : Inv cfg {} :=
  ⟨Queue.empty, rfl, fun _ ↦ rfl, Nat.zero_le _, fun h ↦ absurd rfl h⟩

variable {cfg : Config} {s s₁ : State} {i : Tid} {t t' : Thread}

/-- A thread that goes on exchanges its slots. -/
theorem slots_goto (ht : s.threads[i]? = some t) (t' : Thread) :
    (s.goto i t').slots + t.slots = s.slots + t'.slots :=
  List.sum_map_set_add Thread.slots ht t'

theorem carried_goto (ht : s.threads[i]? = some t) (t' : Thread) (c : Conn) :
    (s.goto i t').carried c + t.conns.count c = s.carried c + t'.conns.count c :=
  List.sum_map_set_add (fun t ↦ t.conns.count c) ht t'

/-- **One thread moves, the queue stays.** `s₁` is the shared state after the section; the
invariant holds again if what the section did to the shared state is what the thread gained or lost
by moving from `t` to `t'`. -/
theorem Inv.goto (h : Inv cfg s) (ht : s.threads[i]? = some t) (hq : t.queued = false)
    (ht' : t'.isWaiting = false) (hthreads : s₁.threads = s.threads)
    (hqueue : s₁.waiters = s.waiters)
    (haccount : s₁.open_ + s.resting + t.slots = s.open_ + s₁.resting + t'.slots)
    (howner : ∀ c, s₁.occurs c + t'.conns.count c + s.issued c =
      s.occurs c + t.conns.count c + s₁.issued c)
    (hbound : s₁.open_ ≤ cfg.options.maxSize)
    (hfull : s.waiters ≠ [] → s₁.closed = false ∧ s₁.idle = [] ∧
      s₁.open_ = cfg.options.maxSize) : Inv cfg (s₁.goto i t') := by
  have ht₁ : s₁.threads[i]? = some t := hthreads ▸ ht
  have hslots := slots_goto ht₁ t'
  have hsame : s₁.slots = s.slots := by rw [State.slots, State.slots, hthreads]
  refine ⟨?_, ?_, fun c ↦ ?_, hbound, fun hw ↦ hfull (hqueue ▸ hw)⟩
  · rw [State.goto_waiters, State.goto_threads, hqueue, hthreads]
    exact h.queue.goto ht hq ht'
  · have := h.account
    show s₁.open_ = s₁.resting + (s₁.goto i t').slots
    omega
  · have hcarried := carried_goto ht₁ t' c
    have hsame : s₁.carried c = s.carried c := by rw [State.carried, State.carried, hthreads]
    have := h.owner c
    have := howner c
    show s₁.occurs c + (s₁.goto i t').carried c = s₁.issued c
    omega

/-- **A hand-over.** The thread that frees a connection or a slot passes it to the front waiter
through `f`; nothing else changes, so it must lose exactly what the waiter is told. -/
theorem Inv.handOver (h : Inv cfg s) (ht : s.threads[i]? = some t) (hwaits : t.isWaiting = false)
    (ht' : t'.isWaiting = false) {w : Tid} {rest : List Tid} (hw : s.waiters = w :: rest)
    {f : Waiter → Waiter} (hf : (f {}).Single)
    (hpassed : ((f {}).connection.isSome || (f {}).mayOpen) = true)
    (hslots : t.slots = t'.slots + 1)
    (hconns : ∀ c, t.conns.count c = t'.conns.count c + (f {}).connection.toList.count c) :
    Inv cfg (({ s with waiters := rest }.notify w f).goto i t') := by
  obtain ⟨d, hd⟩ := (h.queue.mem_iff w).1 (hw ▸ List.mem_cons_self)
  have hne : w ≠ i := by
    rintro rfl
    obtain rfl : t = .waiting d {} := Option.some.inj (ht.symm.trans hd)
    simp [Thread.isWaiting] at hwaits
  -- the waiter's entry first, as the replacement of one entry by another
  have hnotify : ({ s with waiters := rest } : State).notify w f =
      ({ s with waiters := rest } : State).goto w (.waiting d (f {})) := by
    rw [State.notify, State.goto, List.modify_eq_set_getElem?, hd]
    rfl
  have hslotsw := slots_goto (s := { s with waiters := rest }) hd (.waiting d (f {}))
  have hcarriedw := carried_goto (s := { s with waiters := rest }) hd (.waiting d (f {}))
  rw [hnotify]
  set s₁ := ({ s with waiters := rest } : State).goto w (.waiting d (f {})) with hs₁
  have ht₁ : s₁.threads[i]? = some t := by
    rw [hs₁, State.goto_threads, List.getElem?_set_ne hne, ht]
  have hw₁ : (Thread.waiting d (f {})).slots = 1 := by
    simp [Thread.slots, Thread.isOpening, Thread.inTransit, Thread.passedOn, hpassed]
  have hslotsi := slots_goto ht₁ t'
  have hserved : (f {}).served = true := by rw [Waiter.served, hpassed, Bool.true_or]
  have hfull := h.full (by rw [hw]; exact List.cons_ne_nil w rest)
  refine ⟨?_, ?_, fun c ↦ ?_, h.bound, fun _ ↦ hfull⟩
  · have hq := (hw ▸ h.queue).serve hf hserved
    have hthreads : s₁.threads = s.threads.modify w (Thread.mapWaiter f) := by
      rw [← hnotify]
      rfl
    rw [State.goto_waiters, State.goto_threads, hthreads]
    exact hq.goto (hthreads ▸ ht₁) (Thread.queued_eq_false hwaits) ht'
  · have hacc := h.account
    have hzero : (Thread.waiting d {}).slots = 0 := rfl
    show s.open_ = s.resting + (s₁.goto i t').slots
    have hbase : ({ s with waiters := rest } : State).slots = s.slots := rfl
    omega
  · have hcarriedi := carried_goto ht₁ t' c
    have hown := h.owner c
    have hcw := hcarriedw c
    have hci := hconns c
    have hbase : ({ s with waiters := rest } : State).carried c = s.carried c := rfl
    have hzero : (Thread.waiting d {}).conns.count c = 0 := rfl
    have hone : (Thread.waiting d (f {})).conns.count c = (f {}).connection.toList.count c := rfl
    show s.occurs c + (s₁.goto i t').carried c = s.issued c
    omega

end CppGate.ConnectionPool
