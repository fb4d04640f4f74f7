import CppGate.ConnectionPool.Accounting

/-!
# Every section keeps the pool's invariant

One lemma for each section of the pool and each point outside the lock where something changes
hands, then the step and the run (`Inv.step`, `Inv.reachable`). Each lemma says what its section
does to the shared state and leaves the rest to `Inv.goto` or, where a waiter is served,
`Inv.handOver`.
-/

namespace CppGate.ConnectionPool

variable {cfg : Config} {s : State} {i : Tid} {t : Thread}

/-! ### Reserving and freeing -/

theorem reserve_open_ (h : s.open_ < cfg.options.maxSize) : s.reserve.open_ = s.open_ + 1 := by
  have := cfg.maxSize_lt
  rw [State.reserve_open_, Word.add_eq_of_lt (by omega)]

theorem free_open_of_le {n : ℕ} (hn : n ≤ s.open_) : (s.free n).open_ = s.open_ - n := by
  rw [State.free_open_, Word.sub_eq_of_le hn]

/-- A thread's slot is part of `open_`. -/
theorem Inv.slots_le (h : Inv cfg s) (ht : s.threads[i]? = some t) : t.slots ≤ s.open_ := by
  have := h.account
  have hmem : t.slots ∈ s.threads.map Thread.slots :=
    List.mem_map_of_mem (List.mem_of_getElem? ht)
  have hle : t.slots ≤ s.slots := List.single_le_sum (fun _ _ ↦ Nat.zero_le _) _ hmem
  omega

/-! ### The sections -/

/-- warmUp() looks for a free slot below `min_size`. -/
theorem Inv.warmUp (h : Inv cfg s) (ht : s.threads[i]? = some .warmingUp) :
    Inv cfg (warmUp cfg s i) := by
  unfold ConnectionPool.warmUp
  split
  · exact h.goto ht rfl rfl rfl rfl rfl (fun _ ↦ rfl) h.bound h.full
  · next hroom =>
    simp only [Bool.or_eq_true, decide_eq_true_eq, not_or, Nat.not_le] at hroom
    have hlt : s.open_ < cfg.options.maxSize := Nat.lt_of_lt_of_le hroom.2 cfg.minSize_le
    have hopen := reserve_open_ hlt
    refine h.goto ht rfl rfl rfl rfl ?_ (fun _ ↦ rfl) (by omega) fun hw ↦ ?_
    · show s.reserve.open_ + s.resting + 0 = s.open_ + s.resting + 1
      omega
    · exact absurd (h.full hw).2.2 (by omega)

/-- acquire() takes an idle connection, reserves a slot, or joins the queue. -/
theorem Inv.acquire (h : Inv cfg s) {timeout : ℤ} {deadline : Option Time}
    (ht : s.threads[i]? = some (.acquiring timeout deadline)) (now : Time) :
    Inv cfg (acquire cfg s i timeout deadline now) := by
  unfold ConnectionPool.acquire
  split
  · exact h.goto ht rfl rfl rfl rfl rfl (fun _ ↦ rfl) h.bound h.full
  next hopen =>
  split
  · next idle rest hidle =>
    -- 1. an idle connection
    refine h.goto ht rfl rfl rfl rfl ?_ (fun c ↦ ?_) h.bound fun hw ↦ ?_
    · show s.open_ + s.resting + 0 = s.open_ + (rest.length + s.handles.length) + 1
      rw [State.resting, hidle, List.length_cons]
      omega
    · show (rest.map Idle.connection).count c + s.handles.count c + s.destroyed.count c +
        [idle.connection].count c + s.issued c = s.occurs c + 0 + s.issued c
      simp only [State.occurs, hidle, List.map_cons, List.count_cons, List.count_nil]
      omega
    · rw [(h.full hw).2.1] at hidle
      cases hidle
  · next hidle =>
    split
    · next hlt =>
      -- 2. room for a new one
      have hreserve := reserve_open_ hlt
      refine h.goto ht rfl rfl rfl rfl ?_ (fun _ ↦ rfl) (by omega) fun hw ↦ ?_
      · show s.reserve.open_ + s.resting + 0 = s.open_ + s.resting + 1
        omega
      · exact absurd (h.full hw).2.2 (by omega)
    · next hlt =>
      -- 3. wait for one to come back
      set d := deadline.getD (Word.signed 64 (now + toNanos timeout))
      have hslots := slots_goto (s := { s with waiters := s.waiters ++ [i] }) ht (.waiting d {})
      refine ⟨h.queue.push ht rfl d, ?_, fun c ↦ ?_, h.bound, fun _ ↦ ⟨?_, hidle, ?_⟩⟩
      · have := h.account
        have hbase : ({ s with waiters := s.waiters ++ [i] } : State).slots = s.slots := rfl
        have hold : (Thread.acquiring timeout deadline).slots = 0 := rfl
        have hnew : (Thread.waiting d {}).slots = 0 := rfl
        show s.open_ = s.resting + _
        omega
      · have := h.owner c
        have hcarried := carried_goto (s := { s with waiters := s.waiters ++ [i] }) ht
          (.waiting d {}) c
        have hbase : ({ s with waiters := s.waiters ++ [i] } : State).carried c = s.carried c := rfl
        have hold : (Thread.acquiring timeout deadline).conns.count c = 0 := rfl
        have hnew : (Thread.waiting d {}).conns.count c = 0 := rfl
        show s.occurs c + _ = s.issued c
        omega
      · exact Bool.eq_false_iff.2 hopen
      · have := h.bound
        show s.open_ = _
        omega

/-- A waiter that was served takes what it was given. -/
theorem Inv.resume (h : Inv cfg s) {d : Time} {w : Waiter}
    (ht : s.threads[i]? = some (.waiting d w)) (hw : w.served = true) :
    Inv cfg (resume s i w) := by
  have hq : (Thread.waiting d w).queued = false := by simp [Thread.queued, hw]
  unfold ConnectionPool.resume
  rcases h.queue.single i d w ht with rfl | ⟨c, rfl⟩ | rfl | rfl
  · exact absurd hw (by decide)
  · refine h.goto ht hq rfl rfl rfl ?_ (fun x ↦ ?_) h.bound h.full
    · show s.open_ + s.resting + 1 = s.open_ + (s.idle.length + (c :: s.handles).length) + 0
      rw [State.resting, List.length_cons]
      omega
    · show (s.idle.map Idle.connection).count x + (c :: s.handles).count x +
        s.destroyed.count x + 0 + s.issued x = s.occurs x + [c].count x + s.issued x
      simp only [State.occurs, List.count_cons, List.count_nil]
      omega
  · exact h.goto ht hq rfl rfl rfl rfl (fun _ ↦ rfl) h.bound h.full
  · exact h.goto ht hq rfl rfl rfl rfl (fun _ ↦ rfl) h.bound h.full

/-- A waiter whose time is over leaves the queue. -/
theorem Inv.timeOut (h : Inv cfg s) {d : Time} {w : Waiter}
    (ht : s.threads[i]? = some (.waiting d w)) (hw : w.served = false) :
    Inv cfg (timeOut s i) := by
  obtain rfl := (h.queue.single i d w ht).eq_empty hw
  have hslots := slots_goto ht (.returned .timedOut)
  refine ⟨h.queue.leave ht rfl, ?_, fun c ↦ ?_, h.bound, fun hne ↦ h.full fun hnil ↦ hne ?_⟩
  · have := h.account
    have hold : (Thread.waiting d {}).slots = 0 := rfl
    have hnew : (Thread.returned .timedOut).slots = 0 := rfl
    show s.open_ = s.resting + (s.goto i (.returned .timedOut)).slots
    omega
  · have := h.owner c
    have hcarried := carried_goto ht (.returned .timedOut) c
    have hold : (Thread.waiting d {}).conns.count c = 0 := rfl
    have hnew : (Thread.returned .timedOut).conns.count c = 0 := rfl
    show s.occurs c + (s.goto i (.returned .timedOut)).carried c = s.issued c
    omega
  · show s.waiters.erase i = []
    rw [hnil]
    rfl

/-- close() tells the queue, and takes the idle connections away. -/
theorem Inv.close (h : Inv cfg s) {r : Result} (ht : s.threads[i]? = some (.returned r)) :
    Inv cfg (close s i) := by
  unfold ConnectionPool.close
  split
  · exact h.goto ht rfl rfl rfl rfl rfl (fun _ ↦ rfl) h.bound h.full
  -- the waiters are told first: no entry's slots or connections change
  set s₁ : State := { s with
    threads := s.waiters.foldl
      (fun ts w ↦ ts.modify w (Thread.mapWaiter Waiter.tellClosed)) s.threads
    waiters := [] } with hs₁
  have hslots : s₁.slots = s.slots :=
    List.sum_map_foldl_modify Thread.slots (fun t ↦ by cases t <;> rfl) s.waiters s.threads
  have hcarried : ∀ c, s₁.carried c = s.carried c := fun c ↦
    List.sum_map_foldl_modify (fun t : Thread ↦ t.conns.count c) (fun t ↦ by cases t <;> rfl)
      s.waiters s.threads
  have h₁ : Inv cfg s₁ := by
    refine ⟨h.queue.closeAll, ?_, fun c ↦ ?_, h.bound, fun hne ↦ absurd rfl hne⟩
    · show s.open_ = s.resting + s₁.slots
      rw [hslots, h.account]
    · show s.occurs c + s₁.carried c = s.issued c
      rw [hcarried, h.owner]
  have ht₁ : s₁.threads[i]? = some (.returned r) := by
    have hnot : i ∉ s.waiters := h.queue.not_mem ht rfl
    show (s.waiters.foldl _ s.threads)[i]? = _
    rw [List.getElem?_foldl_modify_of_not_mem hnot, ht]
  have hidle : s.idle.length ≤ s.open_ := by
    rw [h.account, State.resting]
    omega
  have hfree : (s₁.free s.idle.length).open_ = s.open_ - s.idle.length :=
    free_open_of_le (s := s₁) hidle
  refine h₁.goto ht₁ rfl rfl rfl rfl ?_ (fun c ↦ ?_) ?_ fun hne ↦ absurd rfl hne
  · show (s₁.free s.idle.length).open_ + s.resting + 0 = s.open_ + (0 + s.handles.length) + 0
    rw [hfree, State.resting]
    omega
  · show 0 + s.handles.count c + (s.idle.map Idle.connection ++ s.destroyed).count c + 0 +
      s.issued c = s.occurs c + 0 + s.issued c
    rw [State.occurs, List.count_append]
    omega
  · have := h.bound
    show (s₁.free s.idle.length).open_ ≤ _
    omega

theorem afterGiveBack_slots (caller : Caller) : (afterGiveBack caller).slots = 0 := by
  cases caller <;> rfl

theorem afterGiveBack_conns (caller : Caller) : (afterGiveBack caller).conns = [] := by
  cases caller <;> rfl

theorem afterGiveBack_isWaiting (caller : Caller) : (afterGiveBack caller).isWaiting = false := by
  cases caller <;> rfl

/-- A connection given back goes to the first waiter, to the idle ones, or is destroyed. -/
theorem Inv.giveBack (h : Inv cfg s) {caller : Caller} {c : Conn} {now : Time}
    (ht : s.threads[i]? = some (.storing caller c now)) :
    Inv cfg (giveBack s i caller c now) := by
  have hslots := afterGiveBack_slots caller
  have hconns := afterGiveBack_conns caller
  have hwaits := afterGiveBack_isWaiting caller
  unfold ConnectionPool.giveBack
  split
  · next hclosed =>
    have hle : 1 ≤ s.open_ := (h.slots_le ht :)
    have hfree := free_open_of_le hle
    refine h.goto ht rfl hwaits (State.free_threads _ _) (State.free_waiters _ _) ?_
      (fun x ↦ ?_) ?_ fun hne ↦ ?_
    · rw [hslots]
      show (s.free 1).open_ + s.resting + 1 = s.open_ + s.resting + 0
      omega
    · rw [hconns]
      show (s.idle.map Idle.connection).count x + s.handles.count x +
        (c :: s.destroyed).count x + 0 + s.issued x = s.occurs x + [c].count x + s.issued x
      simp only [State.occurs, List.count_cons, List.count_nil]
      omega
    · have := h.bound
      show (s.free 1).open_ ≤ _
      omega
    · rw [(h.full hne).1] at hclosed
      cases hclosed
  next hclosed =>
  split
  · next w rest hw =>
    refine h.handOver ht rfl hwaits hw (Or.inr (Or.inl ⟨c, rfl⟩)) rfl ?_ fun x ↦ ?_
    · rw [hslots]
      rfl
    · rw [hconns]
      exact (Nat.zero_add _).symm
  · next hw =>
    refine h.goto ht rfl hwaits rfl rfl ?_ (fun x ↦ ?_) h.bound fun hne ↦ absurd hw hne
    · rw [hslots]
      show s.open_ + s.resting + 1 = s.open_ + (s.idle.length + 1 + s.handles.length) + 0
      rw [State.resting]
      omega
    · rw [hconns]
      show (c :: s.idle.map Idle.connection).count x + s.handles.count x +
        s.destroyed.count x + 0 + s.issued x = s.occurs x + [c].count x + s.issued x
      simp only [State.occurs, List.count_cons, List.count_nil]
      omega

/-- The slot of a connection that was destroyed goes to the first waiter, or is free. -/
theorem Inv.dropped (h : Inv cfg s) {next : Next} (ht : s.threads[i]? = some (.dropping next)) :
    Inv cfg (dropped s i next) := by
  have hslots : (afterDropped next).slots = 0 := by cases next <;> rfl
  have hconns : (afterDropped next).conns = [] := by cases next <;> rfl
  have hwaits : (afterDropped next).isWaiting = false := by cases next <;> rfl
  unfold ConnectionPool.dropped
  split
  · next w rest hclosed hw =>
    refine h.handOver ht rfl hwaits hw (Or.inr (Or.inr (Or.inl rfl))) rfl ?_ fun x ↦ ?_
    · rw [hslots]
      rfl
    · rw [hconns]
      rfl
  · next hnone =>
    have hle : 1 ≤ s.open_ := (h.slots_le ht :)
    have hfree := free_open_of_le hle
    refine h.goto ht rfl hwaits (State.free_threads _ _) (State.free_waiters _ _) ?_
      (fun x ↦ ?_) ?_ fun hne ↦ ?_
    · rw [hslots]
      show (s.free 1).open_ + s.resting + 1 = s.open_ + s.resting + 0
      omega
    · rw [hconns]
      rfl
    · have := h.bound
      show (s.free 1).open_ ≤ _
      omega
    · obtain ⟨w, rest, hw⟩ := List.exists_cons_of_ne_nil hne
      exact absurd hw (hnone w rest (h.full hne).1)

/-! ### Outside the lock -/

/-- A connection taken from the idle ones is usable, or is destroyed. -/
theorem Inv.checkedOut (h : Inv cfg s) {timeout : ℤ} {deadline : Option Time} {idle : Idle}
    {aboveMin : Bool} (ht : s.threads[i]? = some (.checkingOut timeout deadline idle aboveMin))
    {r : CheckOut} (hr : ∀ c, r = .usable c → c = idle.connection) :
    Inv cfg (checkedOut s i timeout deadline idle r) := by
  cases r with
  | usable c =>
    obtain rfl := hr c rfl
    refine h.goto ht rfl rfl rfl rfl ?_ (fun x ↦ ?_) h.bound h.full
    · show s.open_ + s.resting + 1 =
        s.open_ + (s.idle.length + (idle.connection :: s.handles).length) + 0
      rw [State.resting, List.length_cons]
      omega
    · show (s.idle.map Idle.connection).count x + (idle.connection :: s.handles).count x +
        s.destroyed.count x + 0 + s.issued x = s.occurs x + [idle.connection].count x + s.issued x
      simp only [State.occurs, List.count_cons, List.count_nil]
      omega
  | expired | broken =>
    refine h.goto ht rfl rfl rfl rfl rfl (fun x ↦ ?_) h.bound h.full
    show (s.idle.map Idle.connection).count x + s.handles.count x +
      (idle.connection :: s.destroyed).count x + 0 + s.issued x =
        s.occurs x + [idle.connection].count x + s.issued x
    simp only [State.occurs, List.count_cons, List.count_nil]
    omega

theorem checkOut_usable {idle : Idle} {aboveMin : Bool} {now : Time} {verdict : Verdict} {c : Conn}
    (h : checkOut cfg idle aboveMin now verdict = .usable c) : c = idle.connection := by
  unfold checkOut at h
  split at h
  · exact (CheckOut.usable.inj h).symm
  · dsimp only at h
    split at h
    · cases h
    · split at h
      · cases h
      · exact (CheckOut.usable.inj h).symm

/-- The connection the factory returns next has not occurred before. -/
theorem issued_opened (x : ℕ) :
    ({ s with opened := s.opened + 1 } : State).issued x = s.issued x + [s.opened].count x := by
  rw [List.count_singleton]
  show (if x < s.opened + 1 then 1 else 0) = (if x < s.opened then 1 else 0) + _
  simp only [beq_iff_eq]
  split_ifs <;> omega

/-- The open function returns with a connection, or throws. -/
theorem Inv.openReserved (h : Inv cfg s) {caller : Caller}
    (ht : s.threads[i]? = some (.opening caller)) (returns : Bool) :
    Inv cfg (openReserved s i caller returns) := by
  have hhandle : Inv cfg (({ s with
      opened := s.opened + 1, handles := s.opened :: s.handles } : State).goto i
        (.returned (.acquired s.opened))) := by
    refine h.goto ht rfl rfl rfl rfl ?_ (fun x ↦ ?_) h.bound h.full
    · show s.open_ + s.resting + 1 = s.open_ + (s.idle.length + (s.opened :: s.handles).length) + 0
      rw [State.resting, List.length_cons]
      omega
    · have := issued_opened (s := s) x
      show (s.idle.map Idle.connection).count x + (s.opened :: s.handles).count x +
        s.destroyed.count x + 0 + s.issued x =
          s.occurs x + 0 + ({ s with opened := s.opened + 1 } : State).issued x
      rw [this]
      simp only [State.occurs, List.count_cons, List.count_nil]
      omega
  cases returns with
  | true =>
    cases caller with
    | warmUp =>
      refine h.goto ht rfl rfl rfl rfl rfl (fun x ↦ ?_) h.bound h.full
      have := issued_opened (s := s) x
      show s.occurs x + [s.opened].count x + s.issued x =
        s.occurs x + 0 + ({ s with opened := s.opened + 1 } : State).issued x
      omega
    | acquire | release => exact hhandle
  | false => exact h.goto ht rfl rfl rfl rfl rfl (fun _ ↦ rfl) h.bound h.full

/-- A handle leaves the handles: what it held is with the thread now, or destroyed. -/
theorem Inv.unhandle (h : Inv cfg s) {r : Result} (ht : s.threads[i]? = some (.returned r))
    {c : Conn} (hc : c ∈ s.handles) {t' : Thread} (ht' : t'.isWaiting = false)
    (hslots : t'.slots = 1) (gone : List Conn)
    (hgone : ∀ x, gone.count x + t'.conns.count x = [c].count x) :
    Inv cfg (({ s with handles := s.handles.erase c, destroyed := gone ++ s.destroyed } :
      State).goto i t') := by
  refine h.goto ht rfl ht' rfl rfl ?_ (fun x ↦ ?_) h.bound h.full
  · have hlen := List.length_erase_of_mem hc
    have hpos := List.length_pos_of_mem hc
    rw [hslots]
    show s.open_ + s.resting + 0 = s.open_ + (s.idle.length + (s.handles.erase c).length) + 1
    rw [State.resting]
    omega
  · have hx := hgone x
    have herase := (List.perm_cons_erase hc).count_eq x
    show (s.idle.map Idle.connection).count x + (s.handles.erase c).count x +
      (gone ++ s.destroyed).count x + t'.conns.count x + s.issued x = s.occurs x + 0 + s.issued x
    simp only [State.occurs, List.count_append, List.count_cons, List.count_nil] at hx herase ⊢
    omega

/-! ### The step and the run -/

/-- **The step lemma.** -/
theorem Inv.moved (h : Inv cfg s) (ht : s.threads[i]? = some t) {m : Move} {s' : State}
    (hm : Moved cfg s i t m s') : Inv cfg s' := by
  cases hm with
  | callWarmUp r => exact h.goto ht rfl rfl rfl rfl rfl (fun _ ↦ rfl) h.bound h.full
  | callAcquire r timeout => exact h.goto ht rfl rfl rfl rfl rfl (fun _ ↦ rfl) h.bound h.full
  | callClose r => exact h.close ht
  | release r c hc => exact h.unhandle ht hc rfl rfl [] fun x ↦ Nat.zero_add _
  | discard r c hc => exact h.unhandle ht hc rfl rfl [c] fun x ↦ rfl
  | warmUp now => exact h.warmUp ht
  | acquire timeout deadline now => exact h.acquire ht now
  | checkOut timeout deadline idle aboveMin now verdict =>
    exact h.checkedOut ht fun c hc ↦ checkOut_usable hc
  | factory caller returns => exact h.openReserved ht returns
  | wake deadline w hw => exact h.resume ht hw
  | timeOut deadline w now hnow hw => exact h.timeOut ht hw
  | clock caller c now => exact h.goto ht rfl rfl rfl rfl rfl (fun _ ↦ rfl) h.bound h.full
  | giveBack caller c since now => exact h.giveBack ht
  | dropped next now => exact h.dropped ht

/-- Every step keeps the accounts of the pool. -/
theorem Inv.step {a : Action} {s' : State} (h : Inv cfg s) (ha : step cfg s a = some s') :
    Inv cfg s' := by
  rcases step_cases ha with ⟨-, rfl⟩ | ⟨i, m, t, -, ht, hm⟩
  · refine ⟨h.queue.spawn .done, ?_, fun c ↦ ?_, h.bound, h.full⟩
    · show s.open_ = s.resting + ((s.threads ++ [Thread.returned .done]).map Thread.slots).sum
      rw [List.map_append, List.sum_append, h.account]
      rfl
    · show s.occurs c + ((s.threads ++ [Thread.returned .done]).map fun t ↦ t.conns.count c).sum = _
      rw [List.map_append, List.sum_append]
      exact h.owner c
  · exact h.moved ht hm

/-- **The run lemma.** Every reachable state of the pool satisfies the invariant. -/
theorem Inv.reachable (h : (machine cfg).Reachable s) : Inv cfg s :=
  Machine.Reachable.invariant (fun _ h₀ ↦ h₀ ▸ Inv.init cfg) (fun _ _ _ hi ha ↦ hi.step ha) h

end CppGate.ConnectionPool
