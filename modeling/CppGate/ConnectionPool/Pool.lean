import CppGate.Foundations.Machine
import CppGate.Foundations.Words
import Mathlib.Tactic.Simps.Basic

/-!
# The connection pool

The pool of `ConnectionPool.h` and the threads inside it. Every section that holds `mutex_` is one
step; the factory and the validator run outside the lock, so each of their calls is a step of its
own whose outcome the label carries, as it does every reading of the clock. What a thread does on
its own between two such points — a destructor run after the lock is released, the move of a
connection into a handle — belongs to the step before it.

The state keeps the pool's fields and one entry for each thread, which says where in the pool's code
that thread is and what it holds there. A `Waiter` lives on the stack of the thread that waits, so
it is part of that thread's entry, and `waiters_` names threads. The handles that acquire() returned
are kept together: a handle is released or discarded by whichever thread has it then.

A connection is named by the number of the factory call that returned it, so `opened` numbers are in
use and `destroyed` lists those whose destructor has run.
-/

namespace CppGate.ConnectionPool

/-- A connection, named by the factory call that returned it. -/
abbrev Conn := ℕ

/-- A thread, as an index into the table of threads. -/
abbrev Tid := ℕ

/-- A reading of the steady clock: a signed 64-bit count of nanoseconds. -/
abbrev Time := ℤ

/-! ### Options -/

/-- `std::chrono::milliseconds::max()`. -/
def never : ℤ := 2 ^ 63 - 1

/-- The options, durations in milliseconds. -/
structure ConnectionPoolOptions where
  /-- Created by warmUp() and never closed for being idle. -/
  minSize : ℕ := 0
  /-- Connections open at the same time, in use or idle. -/
  maxSize : ℕ := 10
  /-- How long acquire() waits for a free connection. -/
  acquireTimeout : ℤ := 5000
  /-- An idle connection is validated when it has been idle longer than this. -/
  validateAfterIdle : ℤ := 30000
  /-- Idle connections above `minSize` are closed after this long. -/
  maxIdle : ℤ := 300000
  deriving DecidableEq, Repr

/-- What a pool is built from: options that the constructor accepts, and whether it was given a
validate function. -/
structure Config where
  options : ConnectionPoolOptions
  validate : Bool
  maxSize_pos : 0 < options.maxSize
  minSize_le : options.minSize ≤ options.maxSize
  /-- `max_size` is a `std::size_t`. -/
  maxSize_lt : options.maxSize < 2 ^ 64

/-- The constructor's checks. -/
def create (options : ConnectionPoolOptions) (factory validate : Bool)
    (hsize : options.maxSize < 2 ^ 64) : Except String Config :=
  if factory = false then
    .error "ConnectionPool: a factory is required"
  else if h : options.maxSize = 0 ∨ options.minSize > options.maxSize then
    .error "ConnectionPool: needs 0 <= min_size <= max_size and max_size > 0"
  else
    .ok ⟨options, validate, by omega, by omega, hsize⟩

/-- Idle checks are on: connections carry a timestamp. -/
def Config.timed (cfg : Config) : Bool :=
  cfg.validate || cfg.options.maxIdle != never

/-- A duration in milliseconds converted to the clock's nanoseconds, in 64 bits. -/
def toNanos (ms : ℤ) : ℤ :=
  Word.signed 64 (ms * 1000000)

/-! ### Threads -/

/-- An entry of `idle_`. -/
structure Idle where
  connection : Conn
  since : Time
  deriving DecidableEq, Repr

/-- A thread waiting in acquire(). -/
structure Waiter where
  /-- Handed over directly. -/
  connection : Option Conn := none
  /-- A slot was freed: open a new one. -/
  mayOpen : Bool := false
  closed : Bool := false
  deriving DecidableEq, Repr

/-- The predicate `wait_until` waits for. -/
def Waiter.served (w : Waiter) : Bool :=
  w.connection.isSome || w.mayOpen || w.closed

/-- What close() tells a waiter. -/
def Waiter.tellClosed (w : Waiter) : Waiter :=
  { w with closed := true }

/-- Whose call runs openReserved() or giveBack(). -/
inductive Caller
  | acquire
  | warmUp
  | release
  deriving DecidableEq, Repr

/-- Where a thread continues after dropped(): discard() returns, openReserved() rethrows what the
factory threw, and checkOut() makes acquire() try again. -/
inductive Next
  | done
  | rethrow
  | retry (timeout : ℤ) (deadline : Option Time)
  deriving DecidableEq, Repr

/-- How a thread's last call of the pool ended. -/
inductive Result
  | done
  | acquired (connection : Conn)
  | timedOut
  | closed
  | failed
  deriving DecidableEq, Repr

/-- Where a thread is in the pool's code, with the locals that matter there. -/
inductive Thread
  /-- Outside the pool. -/
  | returned (result : Result)
  /-- At the top of the loop of warmUp(). -/
  | warmingUp
  /-- At the top of the loop of acquire(). -/
  | acquiring (timeout : ℤ) (deadline : Option Time)
  /-- In checkOut(), with a connection taken from `idle_`. -/
  | checkingOut (timeout : ℤ) (deadline : Option Time) (idle : Idle) (aboveMin : Bool)
  /-- In openReserved(), before the factory's outcome is known. -/
  | opening (caller : Caller)
  /-- In `wait_until`. -/
  | waiting (deadline : Time) (waiter : Waiter)
  /-- At the start of giveBack(), before the clock is read. -/
  | givingBack (caller : Caller) (connection : Conn)
  /-- In giveBack(), before the lock. -/
  | storing (caller : Caller) (connection : Conn) (now : Time)
  /-- In dropped(), before the lock. -/
  | dropping (next : Next)
  deriving DecidableEq, Repr

/-- What a thread waiting unserved looks like: it is in `wait_until` with none of its waiter's
fields set. -/
def Thread.queued : Thread → Bool
  | .waiting _ w => !w.served
  | _ => false

/-- Change the waiter of a thread that waits. -/
def Thread.mapWaiter (f : Waiter → Waiter) : Thread → Thread
  | .waiting deadline w => .waiting deadline (f w)
  | t => t

/-! ### The state -/

/-- The pool and its threads. -/
structure State where
  /-- `idle_`, the vector's back first: most recently used first. -/
  idle : List Idle := []
  /-- `waiters_`, front first. -/
  waiters : List Tid := []
  /-- `open_`. -/
  open_ : ℕ := 0
  /-- `closed_`. -/
  closed : Bool := false
  threads : List Thread := []
  /-- The connections held by handles. -/
  handles : List Conn := []
  /-- How many factory calls returned a connection. -/
  opened : ℕ := 0
  /-- The connections whose destructor has run. -/
  destroyed : List Conn := []
  deriving DecidableEq, Repr

namespace State

/-- Move thread `i` to another point of the code. -/
@[simps] def goto (s : State) (i : Tid) (t : Thread) : State :=
  { s with threads := s.threads.set i t }

/-- `open_ -= n`, on a 64-bit unsigned word. -/
@[simps] def free (s : State) (n : ℕ) : State :=
  { s with open_ := Word.sub 64 s.open_ n }

/-- `++open_`. -/
@[simps] def reserve (s : State) : State :=
  { s with open_ := Word.add 64 s.open_ 1 }

/-- Change what a waiter says, through the pointer kept in `waiters_`. -/
@[simps] def notify (s : State) (i : Tid) (f : Waiter → Waiter) : State :=
  { s with threads := s.threads.modify i (Thread.mapWaiter f) }

end State

/-! ### The sections that hold the lock -/

/-- One round of the loop of warmUp(). -/
def warmUp (cfg : Config) (s : State) (i : Tid) : State :=
  if s.closed || decide (cfg.options.minSize ≤ s.open_) then
    s.goto i (.returned .done)
  else
    s.reserve.goto i (.opening .warmUp)

/-- One round of the loop of acquire(), up to where it unlocks or waits. `now` is the clock, read
only when the thread has to wait. -/
def acquire (cfg : Config) (s : State) (i : Tid) (timeout : ℤ) (deadline : Option Time)
    (now : Time) : State :=
  if s.closed then
    s.goto i (.returned .closed)
  else
    match s.idle with
    | idle :: rest =>
      { s with idle := rest }.goto i
        (.checkingOut timeout deadline idle (decide (cfg.options.minSize < s.open_)))
    | [] =>
      if s.open_ < cfg.options.maxSize then
        s.reserve.goto i (.opening .acquire)
      else
        { s with waiters := s.waiters ++ [i] }.goto i
          (.waiting (deadline.getD (Word.signed 64 (now + toNanos timeout))) {})

/-- After `wait_until` returned true. -/
def resume (s : State) (i : Tid) (w : Waiter) : State :=
  if w.closed then
    s.goto i (.returned .closed)
  else
    match w.connection with
    | some c => { s with handles := c :: s.handles }.goto i (.returned (.acquired c))
    | none => s.goto i (.opening .acquire)

/-- After `wait_until` returned false. -/
def timeOut (s : State) (i : Tid) : State :=
  { s with waiters := s.waiters.erase i }.goto i (.returned .timedOut)

/-- close(). The idle connections are destroyed after the lock is released. -/
def close (s : State) (i : Tid) : State :=
  if s.closed then
    s.goto i (.returned .done)
  else
    let s' := { s with closed := true, idle := [], destroyed := s.idle.map Idle.connection ++
      s.destroyed }.free s.idle.length
    { s' with
      threads := s.waiters.foldl
        (fun threads w ↦ threads.modify w (Thread.mapWaiter Waiter.tellClosed)) s'.threads
      waiters := [] }.goto i (.returned .done)

/-- Where a thread continues after giveBack(): warmUp() loops. -/
def afterGiveBack : Caller → Thread
  | .warmUp => .warmingUp
  | _ => .returned .done

/-- The section of giveBack(). -/
def giveBack (s : State) (i : Tid) (caller : Caller) (c : Conn) (now : Time) : State :=
  if s.closed then
    ({ s with destroyed := c :: s.destroyed }.free 1).goto i (afterGiveBack caller)
  else
    match s.waiters with
    | w :: rest =>
      ({ s with waiters := rest }.notify w fun w ↦ { w with connection := some c }).goto i
        (afterGiveBack caller)
    | [] =>
      { s with idle := ⟨c, now⟩ :: s.idle }.goto i (afterGiveBack caller)

/-- Where a thread continues after dropped(). -/
def afterDropped : Next → Thread
  | .done => .returned .done
  | .rethrow => .returned .failed
  | .retry timeout deadline => .acquiring timeout deadline

/-- The section of dropped(). -/
def dropped (s : State) (i : Tid) (next : Next) : State :=
  match s.closed, s.waiters with
  | false, w :: rest =>
    -- the slot stays counted in `open_`, the waiter opens a connection in it
    ({ s with waiters := rest }.notify w fun w ↦ { w with mayOpen := true }).goto i
      (afterDropped next)
  | _, _ => (s.free 1).goto i (afterDropped next)

/-! ### Outside the lock -/

/-- What the validate function does when it is called. -/
inductive Verdict
  | valid
  | invalid
  | throws
  deriving DecidableEq, Repr

/-- isValid(): a validator that throws has not found the connection usable. -/
def isValid : Verdict → Bool
  | .valid => true
  | .invalid => false
  | .throws => false

/-- The outcome of checkOut(): the connection, or why it is closed. -/
inductive CheckOut
  | usable (connection : Conn)
  | expired
  | broken
  deriving DecidableEq, Repr

/-- checkOut(), up to what it does with a connection that is not handed out. -/
def checkOut (cfg : Config) (idle : Idle) (aboveMin : Bool) (now : Time) (verdict : Verdict) :
    CheckOut :=
  if cfg.timed = false then
    .usable idle.connection
  else
    let idleFor := Word.signed 64 (now - idle.since)
    if toNanos cfg.options.maxIdle < idleFor ∧ aboveMin = true then
      .expired
    else if cfg.validate = true ∧ toNanos cfg.options.validateAfterIdle < idleFor ∧
        isValid verdict = false then
      .broken
    else
      .usable idle.connection

/-- acquire() around checkOut(): a connection becomes a handle, or is destroyed and its slot
dropped. -/
def checkedOut (s : State) (i : Tid) (timeout : ℤ) (deadline : Option Time) (idle : Idle) :
    CheckOut → State
  | .usable c => { s with handles := c :: s.handles }.goto i (.returned (.acquired c))
  | _ => { s with destroyed := idle.connection :: s.destroyed }.goto i
      (.dropping (.retry timeout deadline))

/-- openReserved() once the factory returned (`true`) or threw. -/
def openReserved (s : State) (i : Tid) (caller : Caller) : Bool → State
  | true =>
    match caller with
    | .warmUp => { s with opened := s.opened + 1 }.goto i (.givingBack .warmUp s.opened)
    | _ => { s with opened := s.opened + 1, handles := s.opened :: s.handles }.goto i
        (.returned (.acquired s.opened))
  | false => s.goto i (.dropping .rethrow)

/-- `giveBack` reads the clock before taking the lock, when idle checks are on. -/
def readClock (cfg : Config) (s : State) (i : Tid) (caller : Caller) (c : Conn) (now : Time) :
    State :=
  s.goto i (.storing caller c (if cfg.timed then now else 0))

/-! ### The machine -/

/-- What a thread does next, with what its environment answers there. -/
inductive Move
  | callWarmUp
  /-- acquire(timeout), or acquire() with the timeout of the options. -/
  | callAcquire (timeout : Option ℤ)
  | callClose
  | release (connection : Conn)
  | discard (connection : Conn)
  /-- Take the lock; `now` is the clock if the section reads it. -/
  | lock (now : Time)
  | validated (now : Time) (verdict : Verdict)
  | factory (returns : Bool)
  | wake
  | timeOut (now : Time)
  | clock (now : Time)
  deriving DecidableEq, Repr

/-- A label: a thread starts, or a thread moves. -/
inductive Action
  | spawn
  | move (i : Tid) (m : Move)
  deriving DecidableEq, Repr

/-- The step of thread `i`, which is at `t`. -/
def moveThread (cfg : Config) (s : State) (i : Tid) (t : Thread) (m : Move) : Option State :=
  match t, m with
  | .returned _, .callWarmUp => some (s.goto i .warmingUp)
  | .returned _, .callAcquire timeout =>
    some (s.goto i (.acquiring (timeout.getD cfg.options.acquireTimeout) none))
  | .returned _, .callClose => some (close s i)
  | .returned _, .release c =>
    if c ∈ s.handles then
      some ({ s with handles := s.handles.erase c }.goto i (.givingBack .release c))
    else none
  | .returned _, .discard c =>
    if c ∈ s.handles then
      some ({ s with handles := s.handles.erase c, destroyed := c :: s.destroyed }.goto i
        (.dropping .done))
    else none
  | .warmingUp, .lock _ => some (warmUp cfg s i)
  | .acquiring timeout deadline, .lock now => some (acquire cfg s i timeout deadline now)
  | .checkingOut timeout deadline idle aboveMin, .validated now verdict =>
    some (checkedOut s i timeout deadline idle (checkOut cfg idle aboveMin now verdict))
  | .opening caller, .factory returns => some (openReserved s i caller returns)
  | .waiting _ w, .wake => if w.served then some (resume s i w) else none
  | .waiting deadline w, .timeOut now =>
    if deadline ≤ now ∧ w.served = false then some (timeOut s i) else none
  | .givingBack caller c, .clock now => some (readClock cfg s i caller c now)
  | .storing caller c now, .lock _ => some (giveBack s i caller c now)
  | .dropping next, .lock _ => some (dropped s i next)
  | _, _ => none

/-- One step of the pool. -/
def step (cfg : Config) (s : State) : Action → Option State
  | .spawn => some { s with threads := s.threads ++ [.returned .done] }
  | .move i m => (s.threads[i]?).bind fun t ↦ moveThread cfg s i t m

/-- The pool, from its construction on. -/
def machine (cfg : Config) : Machine State Action where
  Init s := s = {}
  step := step cfg

/-! ### What a move can be -/

/-- The moves of a thread, one case for each point of the code it can be at. -/
inductive Moved (cfg : Config) (s : State) (i : Tid) : Thread → Move → State → Prop
  | callWarmUp (r : Result) : Moved cfg s i (.returned r) .callWarmUp (s.goto i .warmingUp)
  | callAcquire (r : Result) (timeout : Option ℤ) :
    Moved cfg s i (.returned r) (.callAcquire timeout)
      (s.goto i (.acquiring (timeout.getD cfg.options.acquireTimeout) none))
  | callClose (r : Result) : Moved cfg s i (.returned r) .callClose (close s i)
  | release (r : Result) (c : Conn) (hc : c ∈ s.handles) :
    Moved cfg s i (.returned r) (.release c)
      ({ s with handles := s.handles.erase c }.goto i (.givingBack .release c))
  | discard (r : Result) (c : Conn) (hc : c ∈ s.handles) :
    Moved cfg s i (.returned r) (.discard c)
      ({ s with handles := s.handles.erase c, destroyed := c :: s.destroyed }.goto i
        (.dropping .done))
  | warmUp (now : Time) : Moved cfg s i .warmingUp (.lock now) (warmUp cfg s i)
  | acquire (timeout : ℤ) (deadline : Option Time) (now : Time) :
    Moved cfg s i (.acquiring timeout deadline) (.lock now)
      (acquire cfg s i timeout deadline now)
  | checkOut (timeout : ℤ) (deadline : Option Time) (idle : Idle) (aboveMin : Bool) (now : Time)
      (verdict : Verdict) :
    Moved cfg s i (.checkingOut timeout deadline idle aboveMin) (.validated now verdict)
      (checkedOut s i timeout deadline idle (checkOut cfg idle aboveMin now verdict))
  | factory (caller : Caller) (returns : Bool) :
    Moved cfg s i (.opening caller) (.factory returns) (openReserved s i caller returns)
  | wake (deadline : Time) (w : Waiter) (hw : w.served = true) :
    Moved cfg s i (.waiting deadline w) .wake (resume s i w)
  | timeOut (deadline : Time) (w : Waiter) (now : Time) (hnow : deadline ≤ now)
      (hw : w.served = false) :
    Moved cfg s i (.waiting deadline w) (.timeOut now) (timeOut s i)
  | clock (caller : Caller) (c : Conn) (now : Time) :
    Moved cfg s i (.givingBack caller c) (.clock now) (readClock cfg s i caller c now)
  | giveBack (caller : Caller) (c : Conn) (since now : Time) :
    Moved cfg s i (.storing caller c since) (.lock now) (giveBack s i caller c since)
  | dropped (next : Next) (now : Time) :
    Moved cfg s i (.dropping next) (.lock now) (dropped s i next)

theorem moved_of_moveThread {cfg : Config} {s s' : State} {i : Tid} {t : Thread} {m : Move}
    (h : moveThread cfg s i t m = some s') : Moved cfg s i t m s' := by
  unfold moveThread at h
  split at h
  case h_4 | h_5 =>
    split at h
    · next hc => exact Option.some.inj h ▸ (by constructor; exact hc)
    · cases h
  case h_10 =>
    split at h
    · next hw => exact Option.some.inj h ▸ .wake _ _ hw
    · cases h
  case h_11 =>
    split at h
    · next hw => exact Option.some.inj h ▸ .timeOut _ _ _ hw.1 hw.2
    · cases h
  case h_15 => cases h
  all_goals
    cases h
    constructor

/-- A step starts a thread or moves one. -/
theorem step_cases {cfg : Config} {s s' : State} {a : Action} (h : step cfg s a = some s') :
    (a = .spawn ∧ s' = { s with threads := s.threads ++ [.returned .done] }) ∨
      ∃ i m t, a = .move i m ∧ s.threads[i]? = some t ∧ Moved cfg s i t m s' := by
  cases a with
  | spawn => exact Or.inl ⟨rfl, (Option.some.inj h).symm⟩
  | move i m =>
    obtain ⟨t, ht, hmove⟩ := Option.bind_eq_some_iff.1 h
    exact Or.inr ⟨i, m, t, rfl, ht, moved_of_moveThread hmove⟩

end CppGate.ConnectionPool
