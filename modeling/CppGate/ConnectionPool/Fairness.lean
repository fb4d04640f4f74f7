import CppGate.ConnectionPool.Guarantees
import CppGate.Foundations.FifoQueue

/-!
# First come, first served

What the threads that wait in acquire() see of `waiters_`: a thread joins when it begins to wait
unserved, and leaves when its waiter is told something, or when it gives up. These events are read
off the threads' own entries (`queueEvents`), so that `waiters_` is what has to be explained: it is
the queue that the events of the run lead to (`queue_log`), and what holds of every queue holds of
the threads.
-/

namespace CppGate.ConnectionPool

variable {cfg : Config} {s s' : State} {i j : Tid} {t t' : Thread}

/-! ### Joining and leaving -/

/-- How a thread's wait ends. -/
inductive Leave
  /-- giveBack() handed it a connection. -/
  | connection (c : Conn)
  /-- dropped() handed it a slot. -/
  | slot
  | closed
  | timedOut
  deriving DecidableEq, Repr

/-- The thread obtains something. -/
def Leave.served : Leave → Bool
  | .connection _ | .slot => true
  | .closed | .timedOut => false

/-- What a waiter was told, as acquire() reads it. -/
def Waiter.told (w : Waiter) : Option Leave :=
  if w.closed then
    some .closed
  else
    match w.connection with
    | some c => some (.connection c)
    | none => if w.mayOpen then some .slot else none

/-- What has happened to the threads' waits, oldest first. -/
abbrev History := List (Fifo.Event Tid Leave)

/-- What happens to one thread's wait between two states of its entry. -/
def observe (i : Tid) : Option Thread → Option Thread → History
  | some t, some (.waiting _ w) =>
    if t.queued then (w.told.map (.leave i)).toList else if w.served then [] else [.join i]
  | some t, some (.returned .timedOut) => if t.queued then [.leave i .timedOut] else []
  | _, _ => []

/-- What happens to the threads' waits between two tables of threads. -/
def waitEvents (ts ts' : List Thread) : History :=
  (List.range ts'.length).flatMap fun i ↦ observe i ts[i]? ts'[i]?

/-- What happens to the threads' waits in a step. -/
def queueEvents (s : State) (_ : Action) (s' : State) : History :=
  waitEvents s.threads s'.threads

/-! ### What a move does to the queue and the threads -/

/-- The five ways in which thread `i`, at `t`, changes `waiters_` and the table of threads. -/
inductive QueueMove (ws : List Tid) (ts : List Thread) (i : Tid) (t : Thread) :
    List Tid → List Thread → Prop
  /-- It moves on outside the queue. -/
  | goto (t' : Thread) (ht : t.queued = false) (ht' : t'.isWaiting = false) :
    QueueMove ws ts i t ws (ts.set i t')
  /-- It joins. -/
  | join (d : Time) (ht : t.isWaiting = false) :
    QueueMove ws ts i t (ws ++ [i]) (ts.set i (.waiting d {}))
  /-- It serves the front one. -/
  | serve (t' : Thread) (w : Tid) (rest : List Tid) (f : Waiter → Waiter) (how : Leave)
      (hws : ws = w :: rest) (hf : (f {}).told = some how) (hhow : how.served = true)
      (ht : t.isWaiting = false) (ht' : t'.isWaiting = false) :
    QueueMove ws ts i t rest ((ts.modify w (Thread.mapWaiter f)).set i t')
  /-- It gives up. -/
  | leave (d : Time) (ht : t = .waiting d {}) :
    QueueMove ws ts i t (ws.erase i) (ts.set i (.returned .timedOut))
  /-- It closes the pool. -/
  | close (ht : t.isWaiting = false) :
    QueueMove ws ts i t []
      ((ws.foldl (fun ts w ↦ ts.modify w (Thread.mapWaiter Waiter.tellClosed)) ts).set i
        (.returned .done))

/-- What a move of the pool does to the queue is one of the moves of a queue. -/
theorem queueMove_of_moved (h : Inv cfg s) (ht : s.threads[i]? = some t) {m : Move}
    (hm : Moved cfg s i t m s') :
    QueueMove s.waiters s.threads i t s'.waiters s'.threads := by
  cases hm with
  | callWarmUp r => exact .goto _ rfl rfl
  | callAcquire r timeout => exact .goto _ rfl rfl
  | callClose r =>
    unfold ConnectionPool.close
    split
    · exact .goto _ rfl rfl
    · exact .close rfl
  | release r c hc => exact .goto _ rfl rfl
  | discard r c hc => exact .goto _ rfl rfl
  | warmUp now =>
    unfold ConnectionPool.warmUp
    split <;> exact .goto _ rfl rfl
  | acquire timeout deadline now =>
    unfold ConnectionPool.acquire
    split
    · exact .goto _ rfl rfl
    split
    · exact .goto _ rfl rfl
    split
    · exact .goto _ rfl rfl
    · exact .join _ rfl
  | checkOut timeout deadline idle aboveMin now verdict =>
    cases checkOut cfg idle aboveMin now verdict <;> exact .goto _ rfl rfl
  | factory caller returns => cases caller <;> cases returns <;> exact .goto _ rfl rfl
  | wake d w hw =>
    have hq : (Thread.waiting d w).queued = false := by rw [Thread.queued, hw, Bool.not_true]
    unfold ConnectionPool.resume
    split
    · exact .goto _ hq rfl
    · split <;> exact .goto _ hq rfl
  | timeOut d w now hnow hw =>
    obtain rfl := (h.queue.single i d w ht).eq_empty hw
    exact .leave d rfl
  | clock caller c now => exact .goto _ rfl rfl
  | giveBack caller c since now =>
    have hwaits := afterGiveBack_isWaiting caller
    unfold ConnectionPool.giveBack
    split
    · exact .goto _ rfl hwaits
    split
    · next w rest hw => exact .serve _ w rest _ (.connection c) hw rfl rfl rfl hwaits
    · exact .goto _ rfl hwaits
  | dropped next now =>
    have hwaits : (afterDropped next).isWaiting = false := by cases next <;> rfl
    unfold ConnectionPool.dropped
    split
    · next w rest _ hw => exact .serve _ w rest _ .slot hw rfl rfl rfl hwaits
    · exact .goto _ rfl hwaits

/-! ### The events of a move -/

/-- A thread whose entry stays does nothing. -/
theorem observe_self (i : Tid) (o : Option Thread) : observe i o o = [] := by
  rcases o with - | t
  · rfl
  cases t with
  | waiting d w =>
    show (if !w.served then (w.told.map (Fifo.Event.leave i)).toList else
      if w.served then [] else [.join i]) = []
    cases hw : w.served with
    | true => rfl
    | false =>
      simp only [Waiter.served, Bool.or_eq_false_iff, Option.isSome_eq_false_iff,
        Option.isNone_iff_eq_none] at hw
      rw [Waiter.told, hw.1.1, hw.1.2, hw.2]
      rfl
  | returned r => cases r <;> rfl
  | _ => rfl

theorem observe_none (i : Tid) (o : Option Thread) : observe i o none = [] := by
  cases o <;> rfl

/-- A thread outside the queue that goes on outside `wait_until` does nothing. -/
theorem observe_outside (i : Tid) (ht : t.queued = false) (ht' : t'.isWaiting = false) :
    observe i (some t) (some t') = [] := by
  cases t' with
  | waiting d w => cases ht'
  | returned r =>
    cases r with
    | timedOut => exact if_neg (ht ▸ Bool.false_ne_true)
    | _ => rfl
  | _ => rfl

/-- Where the threads of a list do one thing each and all others nothing, the events are these
things, in the order of the table. -/
theorem waitEvents_of_list {ts ts' : List Thread} {js : List Tid} (hjs : js.Nodup)
    (g : Tid → Fifo.Event Tid Leave)
    (h : ∀ j, observe j ts[j]? ts'[j]? = if j ∈ js then [g j] else []) :
    ∃ l : List Tid, l.Perm js ∧ waitEvents ts ts' = l.map g := by
  refine ⟨(List.range ts'.length).filter (· ∈ js), ?_, ?_⟩
  · refine (List.perm_ext_iff_of_nodup (List.nodup_range.filter _) hjs).2 fun j ↦ ?_
    rw [List.mem_filter, List.mem_range, decide_eq_true_eq]
    refine ⟨And.right, fun hj ↦ ⟨?_, hj⟩⟩
    -- a thread that is not in the table does nothing
    by_contra hlen
    have hnone := h j
    rw [List.getElem?_eq_none (Nat.not_lt.1 hlen), if_pos hj] at hnone
    rw [observe_none] at hnone
    cases hnone
  · have hfun : (fun j ↦ observe j ts[j]? ts'[j]?) = fun j ↦ if j ∈ js then [g j] else [] :=
      funext h
    rw [waitEvents, hfun]
    induction List.range ts'.length with
    | nil => rfl
    | cons j l ih =>
      rw [List.flatMap_cons, ih, List.filter_cons]
      by_cases hj : j ∈ js
      · rw [if_pos hj, if_pos (decide_eq_true hj)]
        rfl
      · rw [if_neg hj, if_neg (by simpa using hj)]
        rfl

/-- Where one thread does one thing, that is the event. -/
theorem waitEvents_of_single {ts ts' : List Thread} {e : Fifo.Event Tid Leave}
    (hi : observe i ts[i]? ts'[i]? = [e])
    (hother : ∀ j, i ≠ j → observe j ts[j]? ts'[j]? = []) : waitEvents ts ts' = [e] := by
  have hone : ∀ j, observe j ts[j]? ts'[j]? = if j ∈ [i] then [e] else [] := by
    intro j
    rcases eq_or_ne i j with rfl | hij
    · rw [if_pos (List.mem_singleton_self i), hi]
    · rw [if_neg fun hj ↦ hij (List.mem_singleton.1 hj).symm, hother j hij]
  obtain ⟨l, hl, hevents⟩ := waitEvents_of_list (List.nodup_singleton i) (fun _ ↦ e) hone
  rw [hevents, List.perm_singleton.1 hl]
  rfl

/-- Where no thread does anything, there is no event. -/
theorem waitEvents_of_none {ts ts' : List Thread} (h : ∀ j, observe j ts[j]? ts'[j]? = []) :
    waitEvents ts ts' = [] := by
  rw [waitEvents, List.flatMap_eq_nil_iff]
  exact fun j _ ↦ h j

/-- close() tells those who are queued, and nobody else. -/
theorem observe_closeAll {ws : List Tid} {ts : List Thread} (hq : Queue ws ts)
    (ht : ts[i]? = some t) (hqt : t.queued = false) (j : Tid) :
    observe j ts[j]?
        ((ws.foldl (fun ts w ↦ ts.modify w (Thread.mapWaiter Waiter.tellClosed)) ts).set i
          (.returned .done))[j]? =
      if j ∈ ws then [.leave j .closed] else [] := by
  have hi : i ∉ ws := hq.not_mem ht hqt
  set told := ws.foldl (fun ts w ↦ ts.modify w (Thread.mapWaiter Waiter.tellClosed)) ts
    with htold
  have hti : told[i]? = some t := by
    rw [htold, List.getElem?_foldl_modify_of_not_mem hi, ht]
  have hlen : i < told.length := (List.getElem?_eq_some_iff.1 hti).1
  rcases eq_or_ne i j with rfl | hij
  · rw [if_neg hi, ht, List.getElem?_set_self hlen, observe_outside i hqt rfl]
  rw [List.getElem?_set_ne hij]
  by_cases hj : j ∈ ws
  · obtain ⟨d, hd⟩ := (hq.mem_iff j).1 hj
    rw [if_pos hj, htold, List.getElem?_foldl_modify_of_mem hq.nodup hj, hd]
    rfl
  · rw [if_neg hj, htold, List.getElem?_foldl_modify_of_not_mem hj, observe_self]

/-- **A move changes `waiters_` as its events say.** -/
theorem QueueMove.after {ws ws' : List Tid} {ts ts' : List Thread} (hq : Queue ws ts)
    (ht : ts[i]? = some t) (hm : QueueMove ws ts i t ws' ts') :
    (waitEvents ts ts').foldlM (Fifo.after Leave.served) ws = some ws' := by
  have hlen : i < ts.length := (List.getElem?_eq_some_iff.1 ht).1
  have hset : ∀ (t' : Thread) j, i ≠ j → observe j ts[j]? (ts.set i t')[j]? = [] := by
    intro t' j hij
    rw [List.getElem?_set_ne hij, observe_self]
  cases hm with
  | goto t' hqt ht' =>
    rw [waitEvents_of_none fun j ↦ ?_]
    · rfl
    rcases eq_or_ne i j with rfl | hij
    · rw [ht, List.getElem?_set_self hlen, observe_outside i hqt ht']
    · exact hset t' j hij
  | join d hw =>
    have hqt := Thread.queued_eq_false hw
    have hi : observe i ts[i]? (ts.set i (.waiting d {}))[i]? = [.join i] := by
      rw [ht, List.getElem?_set_self hlen]
      exact if_neg (hqt ▸ Bool.false_ne_true)
    rw [waitEvents_of_single hi (hset _), List.foldlM_cons, Fifo.after,
      if_neg (hq.not_mem ht hqt)]
    rfl
  | serve t' w rest f how hws hf hhow hwt hwt' =>
    subst hws
    have hqt := Thread.queued_eq_false hwt
    obtain ⟨d, hd⟩ := (hq.mem_iff w).1 List.mem_cons_self
    have hne : i ≠ w := fun h ↦ hq.not_mem ht hqt (h ▸ List.mem_cons_self)
    have hlen' : i < (ts.modify w (Thread.mapWaiter f)).length := by
      rwa [List.length_modify]
    have hw : observe w ts[w]? ((ts.modify w (Thread.mapWaiter f)).set i t')[w]? =
        [.leave w how] := by
      rw [List.getElem?_set_ne hne, List.getElem?_modify_eq, hd]
      show ((f {}).told.map (Fifo.Event.leave w)).toList = _
      rw [hf]
      rfl
    rw [waitEvents_of_single hw fun j hj ↦ ?_]
    · rw [List.foldlM_cons, Fifo.after, if_pos hhow, if_pos List.head?_cons]
      rfl
    rcases eq_or_ne i j with rfl | hij
    · rw [ht, List.getElem?_set_self hlen', observe_outside i hqt hwt']
    · rw [List.getElem?_set_ne hij, List.getElem?_modify_ne _ _ hj, observe_self]
  | leave d htd =>
    subst htd
    have hi : observe i ts[i]? (ts.set i (.returned .timedOut))[i]? = [.leave i .timedOut] := by
      rw [ht, List.getElem?_set_self hlen]
      rfl
    rw [waitEvents_of_single hi (hset _), List.foldlM_cons, Fifo.after,
      if_neg (show ¬Leave.timedOut.served = true from Bool.false_ne_true),
      if_pos ((hq.mem_iff i).2 ⟨d, ht⟩)]
    rfl
  | close hw =>
    have hqt := Thread.queued_eq_false hw
    obtain ⟨l, hl, hevents⟩ := waitEvents_of_list hq.nodup (fun j ↦ .leave j .closed)
      (observe_closeAll hq ht hqt)
    rw [hevents]
    exact Fifo.foldlM_leave_all rfl hl

/-! ### The history of a run -/

/-- **`waiters_` is the queue of the history.** -/
theorem queue_log {x : State × History}
    (h : ((machine cfg).logged queueEvents).Reachable x) :
    Fifo.queue Leave.served x.2 = some x.1.waiters := by
  refine (Machine.Reachable.invariant (M := (machine cfg).logged queueEvents)
    (I := fun x ↦ (machine cfg).Reachable x.1 ∧ Fifo.queue Leave.served x.2 = some x.1.waiters)
    (fun x hx ↦ ?_) (fun x a y hx hstep ↦ ?_) h).2
  · obtain ⟨hinit, hnil⟩ := hx
    refine ⟨Machine.Reachable.init hinit, ?_⟩
    rw [hnil, show x.1 = {} from hinit]
    rfl
  · obtain ⟨ha, hlog⟩ := Machine.logged_step hstep
    obtain ⟨hreach, hqueue⟩ := hx
    refine ⟨hreach.step ha, ?_⟩
    rw [hlog, Fifo.queue_append hqueue, queueEvents]
    have hinv := Inv.reachable hreach
    rcases step_cases ha with ⟨-, hs'⟩ | ⟨i, m, t, -, ht, hm⟩
    · rw [hs', waitEvents_of_none fun j ↦ ?_]
      · rfl
      show observe j x.1.threads[j]? (x.1.threads ++ [.returned .done])[j]? = []
      rcases Nat.lt_or_ge j x.1.threads.length with hj | hj
      · rw [List.getElem?_append_left hj, observe_self]
      · rw [List.getElem?_eq_none hj]
        rfl
    · exact (queueMove_of_moved hinv ht hm).after hinv.queue ht

/-! ### What a thread was told -/

/-- How acquire() goes on once its wait has ended. -/
def Leave.outcome (s : State) (i : Tid) : Leave → State
  | .connection c => { s with handles := c :: s.handles }.goto i (.returned (.acquired c))
  | .slot => s.goto i (.opening .acquire)
  | .closed => s.goto i (.returned .closed)
  | .timedOut => s.goto i (.returned .timedOut)

theorem served_of_told {w : Waiter} {how : Leave} (hw : w.told = some how) : w.served = true := by
  rw [Waiter.told] at hw
  rw [Waiter.served]
  rcases w with ⟨- | c, mayOpen, closed⟩ <;> cases mayOpen <;> cases closed <;>
    first | rfl | cases hw

/-- resume() does what the waiter was told. -/
theorem resume_of_told {w : Waiter} {how : Leave} (hw : w.told = some how) :
    resume s i w = how.outcome s i := by
  rcases w with ⟨connection, mayOpen, - | -⟩
  · rcases connection with - | c
    · obtain ⟨-, hslot⟩ := Option.ite_none_right_eq_some.1 hw
      obtain rfl := Option.some.inj hslot
      rfl
    · obtain rfl := Option.some.inj hw
      rfl
  · obtain rfl := Option.some.inj hw
    rfl

/-- Who leaves by what it is told still waits, and has been told so. -/
theorem told_of_leave_mem {a : Action} {how : Leave} (h : .leave i how ∈ queueEvents s a s')
    (hhow : how ≠ .timedOut) : ∃ d w, s'.threads[i]? = some (.waiting d w) ∧ w.told = some how := by
  obtain ⟨j, -, hj⟩ := List.mem_flatMap.1 h
  unfold observe at hj
  split at hj
  · next d w ht ht' =>
    split at hj
    · obtain ⟨how', hhow', heq⟩ := Option.map_eq_some_iff.1 (Option.mem_toList.1 hj)
      obtain ⟨rfl, rfl⟩ := Fifo.Event.leave.inj heq
      exact ⟨d, w, ht', hhow'⟩
    · split at hj
      · cases hj
      · cases List.mem_singleton.1 hj
  · split at hj
    · obtain ⟨-, rfl⟩ := Fifo.Event.leave.inj (List.mem_singleton.1 hj)
      exact absurd rfl hhow
    · cases hj
  · cases hj

/-- A move leaves the entries outside the queue alone, but for its own thread's. -/
theorem QueueMove.other {ws ws' : List Tid} {ts ts' : List Thread}
    (hm : QueueMove ws ts i t ws' ts') (hij : i ≠ j) (hj : j ∉ ws) : ts'[j]? = ts[j]? := by
  cases hm with
  | goto | join | leave => rw [List.getElem?_set_ne hij]
  | serve t' w rest f how hws =>
    have hwj : w ≠ j := fun h ↦ hj (hws ▸ h ▸ List.mem_cons_self)
    rw [List.getElem?_set_ne hij, List.getElem?_modify_ne _ _ hwj]
  | close => rw [List.getElem?_set_ne hij, List.getElem?_foldl_modify_of_not_mem hj]

/-- A thread that was told something keeps it until it wakes. -/
theorem Inv.told_kept (h : Inv cfg s) {d : Time} {w : Waiter} {how : Leave}
    (ht : s.threads[i]? = some (.waiting d w)) (hw : w.told = some how) {a : Action}
    (ha : ConnectionPool.step cfg s a = some s') (hne : a ≠ .move i .wake) :
    s'.threads[i]? = some (.waiting d w) := by
  have hserved := served_of_told hw
  rcases step_cases ha with ⟨-, rfl⟩ | ⟨j, m, t, rfl, htj, hm⟩
  · rw [← ht]
    exact List.getElem?_append_left (List.getElem?_eq_some_iff.1 ht).1
  rcases eq_or_ne j i with rfl | hji
  · obtain rfl := Option.some.inj (ht.symm.trans htj)
    cases hm with
    | wake => exact absurd rfl hne
    | timeOut _ _ now hnow hw' =>
      rw [hserved] at hw'
      cases hw'
  · rw [(queueMove_of_moved h htj hm).other hji, ht]
    refine h.queue.not_mem ht ?_
    rw [Thread.queued, hserved, Bool.not_true]

/-! ### The guarantee -/

/-- A thread that takes the lock while others are queued joins behind them. -/
theorem Inv.acquire_of_waiters (h : Inv cfg s) (hw : s.waiters ≠ []) (timeout : ℤ)
    (deadline : Option Time) (now : Time) :
    ∃ d, ConnectionPool.acquire cfg s i timeout deadline now =
      { s with waiters := s.waiters ++ [i] }.goto i (.waiting d {}) := by
  obtain ⟨hopen, hidle, hfull⟩ := h.full hw
  refine ⟨deadline.getD (Word.signed 64 (now + toNanos timeout)), ?_⟩
  rw [ConnectionPool.acquire, if_neg (hopen ▸ Bool.false_ne_true)]
  split
  · next idle rest hsome =>
    rw [hidle] at hsome
    cases hsome
  · rw [if_neg (by omega)]

/-- **First come, first served.** -/
theorem waiters_served_in_order {x : State × History}
    (h : ((machine cfg).logged queueEvents).Reachable x) :
    (∀ (xs ys zs rest : History) (i j : Tid) (how : Leave), how.served = true →
      x.2 = xs ++ .join i :: (ys ++ .join j :: (zs ++ .leave j how :: rest)) →
      (∀ e ∈ zs, ¬e.departs j) → ∃ e ∈ ys ++ zs, e.departs i) ∧
    (∀ (i : Tid) (timeout : ℤ) (deadline : Option Time) (now : Time) (s' : State),
      x.1.waiters ≠ [] → x.1.threads[i]? = some (.acquiring timeout deadline) →
      step cfg x.1 (.move i (.lock now)) = some s' →
      ∃ d, s' = { x.1 with waiters := x.1.waiters ++ [i] }.goto i (.waiting d {})) ∧
    (∀ (xs ys : History) (i : Tid) (how : Leave), x.2 = xs ++ .leave i how :: ys → .join i ∈ xs) ∧
    (∀ (xs ys zs : History) (i : Tid) (how how' : Leave),
      x.2 = xs ++ .leave i how :: (ys ++ .leave i how' :: zs) → .join i ∈ ys) ∧
    (∀ (xs ys : History) (i : Tid), x.2 = xs ++ .join i :: ys → (∀ e ∈ ys, ¬e.departs i) →
      i ∈ x.1.waiters ∧ ∃ d, x.1.threads[i]? = some (.waiting d {})) ∧
    (∀ (a : Action) (s' : State) (i : Tid) (how : Leave), step cfg x.1 a = some s' →
      .leave i how ∈ queueEvents x.1 a s' → how ≠ .timedOut →
      ∃ d w, s'.threads[i]? = some (.waiting d w) ∧ w.told = some how) ∧
    (∀ (i : Tid) (d : Time) (w : Waiter) (how : Leave),
      x.1.threads[i]? = some (.waiting d w) → w.told = some how →
      step cfg x.1 (.move i .wake) = some (how.outcome x.1 i) ∧
      ∀ (a : Action) (s' : State), step cfg x.1 a = some s' → a ≠ .move i .wake →
        s'.threads[i]? = some (.waiting d w)) := by
  have hinv := Inv.reachable (Machine.Reachable.of_logged h)
  have hqueue := queue_log h
  refine ⟨fun xs ys zs rest i j how hhow hx hzs ↦ ?_, fun i timeout deadline now s' hw ht ha ↦ ?_,
    fun xs ys i how hx ↦ ?_, fun xs ys zs i how how' hx ↦ ?_, fun xs ys i hx hys ↦ ?_,
    fun a s' i how ha hmem hhow ↦ told_of_leave_mem hmem hhow,
    fun i d w how ht hw ↦ ⟨?_, fun a s' ha hne ↦ hinv.told_kept ht hw ha hne⟩⟩
  · rw [hx] at hqueue
    exact Fifo.no_overtaking hhow hqueue hzs
  · obtain ⟨d, hd⟩ := hinv.acquire_of_waiters (i := i) hw timeout deadline now
    rw [step, ht] at ha
    exact ⟨d, (Option.some.inj ha).symm.trans hd⟩
  · rw [hx] at hqueue
    exact Fifo.joined_of_leave hqueue
  · rw [hx] at hqueue
    exact Fifo.leaves_once hqueue
  · rw [hx] at hqueue
    have hi := Fifo.mem_of_joined hqueue hys
    exact ⟨hi, (hinv.queue.mem_iff i).1 hi⟩
  · rw [step, ht]
    show (if w.served then some (resume x.1 i w) else none) = _
    rw [if_pos (served_of_told hw), resume_of_told hw]

/-- Two threads wait for the only connection; its handle is released. -/
def twoWaiting : List Action :=
  [.spawn, .spawn, .spawn, .move 0 (.callAcquire none), .move 0 (.lock 0), .move 0 (.factory true),
    .move 1 (.callAcquire none), .move 1 (.lock 0), .move 2 (.callAcquire none), .move 2 (.lock 0),
    .move 0 (.release 0), .move 0 (.clock 7), .move 0 (.lock 7)]

/-- Where that leads: the front one has been handed the connection and has not woken up yet. -/
def handedOver : State × History :=
  ({ waiters := [2], open_ := 1, opened := 1,
     threads := [.returned .done, .waiting 5000000000 { connection := some 0 },
       .waiting 5000000000 {}] },
    [.join 1, .join 2, .leave 1 (.connection 0)])

theorem waiters_served_in_order_twoWaiting :
    ((machine single).logged queueEvents).run ({}, []) twoWaiting = some handedOver ∧
      2 ∈ handedOver.1.waiters ∧
      step single handedOver.1 (.move 1 .wake) =
        some ((Leave.connection 0).outcome handedOver.1 1) := by
  have hrun : ((machine single).logged queueEvents).run ({}, []) twoWaiting = some handedOver := by
    decide +kernel
  have hinit : ((machine single).logged queueEvents).Init ({}, []) := ⟨rfl, rfl⟩
  obtain ⟨-, -, -, -, hwaits, -, htold⟩ := waiters_served_in_order
    (Machine.run_reachable twoWaiting hinit hrun)
  exact ⟨hrun, (hwaits [.join 1] [.leave 1 (.connection 0)] 2 rfl (by decide)).1,
    (htold 1 5000000000 { connection := some 0 } (.connection 0) rfl rfl).1⟩

end CppGate.ConnectionPool
