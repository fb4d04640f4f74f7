import CppGate.ConnectionPool.Fairness

/-!
# After close()

close() takes the idle connections and tells the queued threads, but factories, check-outs and
hand-overs go on outside the lock, and each of them finds `closed_` set on its own way back. What
holds from then on is that nothing rests in the pool any more (`Shut`), so that every slot of
`open_` and every live connection is with a handle or a thread: when these are through, none is
left.
-/

namespace CppGate.ConnectionPool

variable {cfg : Config} {s s' : State} {i j : Tid} {t : Thread} {m : Move} {a : Action}

/-! ### Closed for good -/

/-- Only close() changes `closed_`. -/
theorem closed_moved (hm : Moved cfg s i t m s') (hne : m ≠ .callClose) : s'.closed = s.closed := by
  cases hm with
  | callClose r => exact absurd rfl hne
  | warmUp now =>
    rw [warmUp]
    split <;> rfl
  | acquire timeout deadline now =>
    rw [acquire]
    split
    · rfl
    split
    · rfl
    · split <;> rfl
  | checkOut timeout deadline idle aboveMin now verdict =>
    cases checkOut cfg idle aboveMin now verdict <;> rfl
  | factory caller returns => cases caller <;> cases returns <;> rfl
  | wake d w hw =>
    rw [resume]
    split
    · rfl
    · split <;> rfl
  | giveBack caller c since now =>
    rw [giveBack]
    split
    · rfl
    · split <;> rfl
  | dropped next now =>
    rw [dropped]
    split <;> rfl
  | callWarmUp | callAcquire | release | discard | timeOut | clock => rfl

theorem closed_of_close : (close s i).closed = true := by
  rw [close]
  split
  · next hc => exact hc
  · rfl

/-- A closed pool keeps no connection idle. -/
def Shut (s : State) : Prop :=
  s.closed = true → s.idle = []

/-- No move gives a closed pool an idle connection. -/
theorem shut_moved (h : Shut s) (hm : Moved cfg s i t m s') : Shut s' := by
  cases hm with
  | callClose r =>
    rw [close]
    split
    · exact h
    · exact fun _ ↦ rfl
  | warmUp now =>
    rw [warmUp]
    split <;> exact h
  | acquire timeout deadline now =>
    rw [acquire]
    split
    · exact h
    next hopen =>
    -- all that follows is done by an open pool
    have hvoid : ∀ {p : Prop}, s.closed = true → p := fun hc ↦ absurd hc hopen
    split
    · exact hvoid
    · split <;> exact hvoid
  | checkOut timeout deadline idle aboveMin now verdict =>
    cases checkOut cfg idle aboveMin now verdict <;> exact h
  | factory caller returns => cases caller <;> cases returns <;> exact h
  | wake d w hw =>
    rw [resume]
    split
    · exact h
    · split <;> exact h
  | giveBack caller c since now =>
    rw [giveBack]
    split
    · exact h
    next hopen =>
    split
    · exact h
    · exact fun hc ↦ absurd hc hopen
  | dropped next now =>
    rw [dropped]
    split <;> exact h
  | callWarmUp | callAcquire | release | discard | timeOut | clock => exact h

/-- A closed pool stays closed. -/
theorem closed_step (hc : s.closed = true) (ha : step cfg s a = some s') : s'.closed = true := by
  rcases step_cases ha with ⟨-, rfl⟩ | ⟨i, m, t, -, -, hm⟩
  · exact hc
  by_cases hm' : m = .callClose
  · subst hm'
    cases hm with
    | callClose r => exact closed_of_close
  · rw [closed_moved hm hm', hc]

theorem Shut.reachable (h : (machine cfg).Reachable s) : Shut s := by
  refine Machine.Reachable.invariant (fun s hinit ↦ ?_) (fun s a s' hs ha ↦ ?_) h
  · rw [show s = {} from hinit]
    exact fun _ ↦ rfl
  · rcases step_cases ha with ⟨-, rfl⟩ | ⟨i, m, t, -, -, hm⟩
    · exact hs
    · exact shut_moved hs hm

/-- Nobody is queued in a closed pool. -/
theorem Inv.no_waiters (h : Inv cfg s) (hc : s.closed = true) : s.waiters = [] := by
  by_contra hw
  rw [(h.full hw).1] at hc
  cases hc

/-! ### The threads that are refused -/

/-- Thread `i` has been told that the pool is closed, or is about to find out. -/
def Refused (s : State) (i : Tid) : Prop :=
  s.closed = true ∧ ((∃ d, s.threads[i]? = some (.waiting d { closed := true })) ∨
    ∃ timeout deadline, s.threads[i]? = some (.acquiring timeout deadline))

/-- Whatever the other threads do, what thread `i` does next is to throw ConnectionPoolClosed, and
nothing keeps it from doing so. -/
def ThrowsClosed (cfg : Config) (s : State) (i : Tid) : Prop :=
  ∀ as s₁, (machine cfg).run s as = some s₁ → (∀ m, .move i m ∉ as) →
    (∃ m s₂, step cfg s₁ (.move i m) = some s₂) ∧
    ∀ m s₂, step cfg s₁ (.move i m) = some s₂ → s₂ = s₁.goto i (.returned .closed)

/-- The other threads leave it at that. -/
theorem Refused.step (h : Inv cfg s) (hr : Refused s i) (ha : ConnectionPool.step cfg s a = some s')
    (hne : ∀ m, a ≠ .move i m) : Refused s' i := by
  obtain ⟨hc, hi⟩ := hr
  have hkept : ∀ t, s.threads[i]? = some t → s'.threads[i]? = some t := by
    intro t ht
    rcases step_cases ha with ⟨-, rfl⟩ | ⟨j, m, u, rfl, hu, hm⟩
    · rw [← ht]
      exact List.getElem?_append_left (List.getElem?_eq_some_iff.1 ht).1
    · have hji : j ≠ i := fun h ↦ hne m (h ▸ rfl)
      rw [(queueMove_of_moved h hu hm).other hji, ht]
      rw [h.no_waiters hc]
      exact List.not_mem_nil
  refine ⟨closed_step hc ha, ?_⟩
  rcases hi with ⟨d, hd⟩ | ⟨timeout, deadline, ht⟩
  · exact Or.inl ⟨d, hkept _ hd⟩
  · exact Or.inr ⟨timeout, deadline, hkept _ ht⟩

/-- Its own step throws. -/
theorem Refused.throws (hr : Refused s i) :
    (∃ m s₂, ConnectionPool.step cfg s (.move i m) = some s₂) ∧
    ∀ m s₂, ConnectionPool.step cfg s (.move i m) = some s₂ →
      s₂ = s.goto i (.returned .closed) := by
  obtain ⟨hc, ⟨d, ht⟩ | ⟨timeout, deadline, ht⟩⟩ := hr
  · refine ⟨⟨.wake, s.goto i (.returned .closed), ?_⟩, fun m s₂ ha ↦ ?_⟩
    · rw [ConnectionPool.step, ht]
      rfl
    · rw [ConnectionPool.step, ht] at ha
      cases moved_of_moveThread ha with
      | wake => rfl
      | timeOut _ _ _ _ hw => cases hw
  · have hacquire : ∀ now, acquire cfg s i timeout deadline now = s.goto i (.returned .closed) :=
      fun now ↦ by rw [acquire, if_pos hc]
    refine ⟨⟨.lock 0, s.goto i (.returned .closed), ?_⟩, fun m s₂ ha ↦ ?_⟩
    · rw [ConnectionPool.step, ht, ← hacquire 0]
      rfl
    · rw [ConnectionPool.step, ht] at ha
      cases moved_of_moveThread ha with
      | acquire _ _ now => exact hacquire now

/-- A refused thread throws, whenever it is scheduled. -/
theorem Refused.throwsClosed (h : (machine cfg).Reachable s) (hr : Refused s i) :
    ThrowsClosed cfg s i := by
  intro as s₁ hrun hno
  induction as generalizing s with
  | nil =>
    obtain rfl := Option.some.inj hrun
    exact hr.throws
  | cons a as ih =>
    rw [Machine.run_cons] at hrun
    obtain ⟨u, hu, hrest⟩ := Option.bind_eq_some_iff.1 hrun
    have hne : ∀ m, a ≠ .move i m := fun m ha ↦ hno m (ha ▸ List.mem_cons_self)
    exact ih (h.step hu) (hr.step (Inv.reachable h) hu hne) hrest
      fun m hm ↦ hno m (List.mem_cons_of_mem a hm)

/-- close() refuses every thread that was queued. -/
theorem Inv.refused_of_close (h : Inv cfg s) {r : Result} (ht : s.threads[i]? = some (.returned r))
    (hj : j ∈ s.waiters) : Refused (ConnectionPool.close s i) j := by
  have hopen : s.closed = false := (h.full (List.ne_nil_of_mem hj)).1
  have hij : i ≠ j := fun hij ↦ h.queue.not_mem ht rfl (hij ▸ hj)
  obtain ⟨d, hd⟩ := (h.queue.mem_iff j).1 hj
  rw [ConnectionPool.close, if_neg (hopen ▸ Bool.false_ne_true)]
  refine ⟨rfl, Or.inl ⟨d, ?_⟩⟩
  show ((s.waiters.foldl _ s.threads).set i _)[j]? = _
  rw [List.getElem?_set_ne hij, List.getElem?_foldl_modify_of_mem h.queue.nodup hj, hd]
  rfl

/-! ### The guarantee -/

theorem conns_of_slots (ht : t.slots = 0) : t.conns = [] := by
  cases t with
  | waiting d w =>
    rw [Thread.slots, Thread.passedOn] at ht
    rcases w with ⟨- | c, mayOpen, closed⟩
    · rfl
    · cases ht
  | checkingOut | givingBack | storing => cases ht
  | _ => rfl

/-- When nobody holds anything of a closed pool, nothing is left. -/
theorem Inv.drained (h : Inv cfg s) (hidle : s.idle = []) (hhandles : s.handles = [])
    (hslots : s.slots = 0) : s.open_ = 0 ∧ s.destroyed.Perm (List.range s.opened) := by
  constructor
  · rw [h.account, State.resting, hidle, hhandles, hslots]
    rfl
  · refine List.perm_iff_count.2 fun c ↦ ?_
    -- who has no slot has no connection
    have hcarried : s.carried c = 0 := by
      refine List.sum_eq_zero fun n hn ↦ ?_
      obtain ⟨t, ht, rfl⟩ := List.mem_map.1 hn
      have hzero := List.sum_eq_zero_iff.1 hslots _ (List.mem_map_of_mem ht)
      rw [conns_of_slots hzero, List.count_nil]
    have howner := h.owner c
    rw [State.occurs, hidle, hhandles, hcarried] at howner
    rw [List.count_range, ← State.issued, ← howner]
    simp

/-- **close() is final, and the pool drains.** -/
theorem closed_for_good (h : (machine cfg).Reachable s) :
    (∀ i s', step cfg s (.move i .callClose) = some s' →
      s'.closed = true ∧ ∀ j ∈ s.waiters, ThrowsClosed cfg s' j) ∧
    (s.closed = true → ∀ as s', (machine cfg).run s as = some s' →
      s'.closed = true ∧ s'.idle = [] ∧ s'.waiters = [] ∧
      (∀ i timeout s₁, step cfg s' (.move i (.callAcquire timeout)) = some s₁ →
        ThrowsClosed cfg s₁ i) ∧
      (s'.openings = 0 → s'.transits = 0 → s'.passedOn = 0 → s'.handles = [] →
        s'.open_ = 0 ∧ s'.destroyed.Perm (List.range s'.opened))) := by
  refine ⟨fun i s' ha ↦ ?_, fun hc as s' hrun ↦ ?_⟩
  · obtain ⟨t, ht, hmove⟩ := Option.bind_eq_some_iff.1 ha
    cases moved_of_moveThread hmove with
    | callClose r =>
      have hs' := h.step (a := Action.move i .callClose) ha
      exact ⟨closed_of_close, fun j hj ↦
        ((Inv.reachable h).refused_of_close ht hj).throwsClosed hs'⟩
  · have hs' : (machine cfg).Reachable s' := h.run hrun
    have hinv := Inv.reachable hs'
    have hclosed : s'.closed = true :=
      Machine.run_invariant (M := machine cfg) (I := fun s ↦ s.closed = true)
        (fun _ _ _ hc ha ↦ closed_step hc ha) as hc hrun
    have hidle := Shut.reachable hs' hclosed
    refine ⟨hclosed, hidle, hinv.no_waiters hclosed, fun i timeout s₁ ha ↦ ?_,
      fun hopenings htransits hpassed hhandles ↦ ?_⟩
    · obtain ⟨t, ht, hmove⟩ := Option.bind_eq_some_iff.1 ha
      have hlen : i < s'.threads.length := (List.getElem?_eq_some_iff.1 ht).1
      cases moved_of_moveThread hmove with
      | callAcquire r =>
        have hs₁ := hs'.step (a := Action.move i (.callAcquire timeout)) ha
        have hacquiring := List.getElem?_set_self (a := Thread.acquiring
          (timeout.getD cfg.options.acquireTimeout) none) hlen
        exact Refused.throwsClosed hs₁ ⟨hclosed, Or.inr ⟨_, _, hacquiring⟩⟩
    · refine hinv.drained hidle hhandles ?_
      rw [slots_eq_counts, hopenings, htransits, hpassed]

/-- A thread has the connection, a second one waits for it, a third one closes the pool. -/
def closing : List Action :=
  [.spawn, .spawn, .spawn, .move 0 (.callAcquire none), .move 0 (.lock 0), .move 0 (.factory true),
    .move 1 (.callAcquire none), .move 1 (.lock 0), .move 2 .callClose]

/-- The waiting thread wakes up and the handle is released. -/
def draining : List Action :=
  [.move 1 .wake, .move 0 (.release 0), .move 0 (.clock 7), .move 0 (.lock 7)]

theorem closed_for_good_draining :
    ∃ s s', (machine single).run {} closing = some s ∧
      (machine single).run s draining = some s' ∧
      s'.open_ = 0 ∧ s'.destroyed.Perm (List.range 1) := by
  refine ⟨_, _, rfl, rfl, ?_⟩
  exact (((closed_for_good (Machine.run_reachable (M := machine single) closing rfl rfl)).2
    rfl draining _ rfl).2.2.2.2 (by decide) (by decide) (by decide) rfl)

end CppGate.ConnectionPool
