import CppGate.ConnectionPool.Closing
import CppGate.ConnectionPool.IdleTime

/-!
# Idle expiry and `min_size`

Whether a connection may be closed for being idle is decided when it is taken (`above_min`, from
`open_` under the lock), and its slot is freed after the check, under the lock again. What counts in
between is `open_` without the slots about to be freed (`State.expiring`): while every check that
expires a connection finds that number above `min_size` (`ExpiresAboveMin`), `open_` never falls
below `min_size` (`open_stays_above_min`). The code compares `open_` itself, and two threads that
decide before either frees its slot close one connection too many (`overtaken_expiry`).
-/

namespace CppGate.ConnectionPool

variable {cfg : Config} {s s' : State} {i : Tid} {t t' : Thread} {m : Move} {a : Action}

/-! ### Slots about to be freed -/

/-- The thread closed a connection for being idle or broken, and still has to free its slot. -/
def Thread.isRetrying : Thread → Bool
  | .dropping (.retry _ _) => true
  | _ => false

/-- The thread is about to free the slot of a connection that was discarded or did not open. -/
def Thread.isAbandoning : Thread → Bool
  | .dropping .done | .dropping .rethrow => true
  | _ => false

/-- The slots that acquire() is about to free. -/
def State.expiring (s : State) : ℕ :=
  (s.threads.map fun t ↦ t.isRetrying.toNat).sum

/-- The slots of discarded connections and failed openings about to be freed. -/
def State.abandoned (s : State) : ℕ :=
  (s.threads.map fun t ↦ t.isAbandoning.toNat).sum

/-! ### The runs of the promise -/

/-- The step is part of a discard, a failed opening, a failed validation, or a close. -/
def Action.disturbs : Action → Bool
  | .move _ (.discard _) | .move _ (.factory false) | .move _ .callClose => true
  | _ => false

/-- A step of a run without any of these. -/
def Undisturbed (cfg : Config) (s : State) (a : Action) : Prop :=
  a.disturbs = false ∧
    ∀ c ∈ check s a, checkOut cfg c.idle c.aboveMin c.now c.verdict ≠ .broken

/-- The check finds its connection idle for too long; it was above `min_size` when it was taken. -/
def Check.Expired (cfg : Config) (c : Check) : Prop :=
  cfg.timed = true ∧ toNanos cfg.options.maxIdle < Word.signed 64 (c.now - c.idle.since) ∧
    c.aboveMin = true

/-- A check that expires a connection does so while `open_`, without the slots about to be freed, is
above `min_size`. -/
def ExpiresAboveMin (cfg : Config) (s : State) (a : Action) : Prop :=
  ∀ c ∈ check s a, c.Expired cfg → cfg.options.minSize + s.expiring < s.open_

instance (cfg : Config) (s : State) (a : Action) : Decidable (Undisturbed cfg s a) :=
  inferInstanceAs (Decidable (_ ∧ _))

instance (cfg : Config) (c : Check) : Decidable (c.Expired cfg) :=
  inferInstanceAs (Decidable (_ ∧ _))

instance (cfg : Config) (s : State) (a : Action) : Decidable (ExpiresAboveMin cfg s a) :=
  inferInstanceAs (Decidable (∀ c ∈ check s a, _))

/-- A step that completes no check. -/
theorem undisturbed_of_no_check (hd : a.disturbs = false) (hc : check s a = none) :
    Undisturbed cfg s a := by
  refine ⟨hd, fun c h ↦ ?_⟩
  rw [hc] at h
  cases h

/-- When the check says that a connection has expired. -/
theorem checkOut_expired_iff (c : Check) :
    checkOut cfg c.idle c.aboveMin c.now c.verdict = .expired ↔ c.Expired cfg := by
  unfold checkOut Check.Expired
  dsimp only
  split
  · next h => simp [h]
  next h =>
  rw [Bool.not_eq_false] at h
  split
  · next h' => simp [h, h'.1, h'.2]
  · next h' =>
    split
    · simp only [reduceCtorEq, h, true_and, false_iff]
      exact h'
    · simp only [reduceCtorEq, h, true_and, false_iff]
      exact h'

/-! ### What a move does to the slots about to be freed -/

theorem weight_goto (f : Thread → ℕ) (ht : s.threads[i]? = some t) (t' : Thread) :
    ((s.goto i t').threads.map f).sum + f t = (s.threads.map f).sum + f t' :=
  List.sum_map_set_add f ht t'

/-- A move that hands something over, for weights that do not look at the waiter. -/
theorem weight_notify (f : Thread → ℕ) (hf : ∀ g t, f (Thread.mapWaiter g t) = f t)
    (ht : s.threads[i]? = some t) (hw : t.isWaiting = false) (w : Tid) (g : Waiter → Waiter)
    (t' : Thread) :
    (((s.notify w g).goto i t').threads.map f).sum + f t = (s.threads.map f).sum + f t' := by
  have ht' : (s.notify w g).threads[i]? = some t := by
    rw [State.notify_threads, List.getElem?_modify, ht]
    cases t with
    | waiting d w => cases hw
    | _ => simp [Thread.mapWaiter]
  rw [weight_goto f ht', State.notify_threads, List.sum_map_modify f (hf g)]

/-- A check that does not hand its connection out. -/
def Rejected (cfg : Config) (s : State) (a : Action) : Prop :=
  ∃ c ∈ check s a, ∀ c', checkOut cfg c.idle c.aboveMin c.now c.verdict ≠ .usable c'

/-- A move that disturbs nothing leads to a thread that abandons no slot, and that has one to free
only if it rejected an idle connection. -/
theorem weight_moved (ht : s.threads[i]? = some t) (hm : Moved cfg s i t m s')
    (hd : (Action.move i m).disturbs = false) (f : Thread → ℕ)
    (hf : ∀ g t, f (Thread.mapWaiter g t) = f t) :
    ∃ t' : Thread, t'.isAbandoning = false ∧
      (t'.isRetrying = true → Rejected cfg s (.move i m)) ∧
      (s'.threads.map f).sum + f t = (s.threads.map f).sum + f t' := by
  have hgo : ∀ (s₁ : State) (t' : Thread), s₁.threads = s.threads → t'.isAbandoning = false →
      t'.isRetrying = false → ∃ t'' : Thread, t''.isAbandoning = false ∧
        (t''.isRetrying = true → Rejected cfg s (.move i m)) ∧
        ((s₁.goto i t').threads.map f).sum + f t = (s.threads.map f).sum + f t'' := by
    intro s₁ t' hthreads hquiet hretry
    refine ⟨t', hquiet, fun h ↦ absurd h (hretry ▸ Bool.false_ne_true), ?_⟩
    rw [← hthreads] at ht ⊢
    exact weight_goto f ht t'
  cases hm with
  | callWarmUp r => exact hgo _ _ rfl rfl rfl
  | callAcquire r timeout => exact hgo _ _ rfl rfl rfl
  | callClose r => cases hd
  | release r c hc => exact hgo _ _ rfl rfl rfl
  | discard r c hc => cases hd
  | warmUp now =>
    rw [warmUp]
    split <;> exact hgo _ _ rfl rfl rfl
  | acquire timeout deadline now =>
    rw [acquire]
    split
    · exact hgo _ _ rfl rfl rfl
    split
    · exact hgo _ _ rfl rfl rfl
    split <;> exact hgo _ _ rfl rfl rfl
  | checkOut timeout deadline idle aboveMin now verdict =>
    have hcheck : (⟨idle, aboveMin, now, verdict⟩ : Check) ∈
        check s (.move i (.validated now verdict)) := by
      rw [check, ht]
      rfl
    cases hr : checkOut cfg idle aboveMin now verdict with
    | usable c => exact hgo _ _ rfl rfl rfl
    | expired | broken =>
      refine ⟨.dropping (.retry timeout deadline), rfl, fun _ ↦ ⟨_, hcheck, fun c' hc' ↦ ?_⟩,
        weight_goto (s := { s with destroyed := idle.connection :: s.destroyed }) f ht _⟩
      rw [hr] at hc'
      cases hc'
  | factory caller returns =>
    cases returns with
    | false => cases hd
    | true => cases caller <;> exact hgo _ _ rfl rfl rfl
  | wake d w hw =>
    rw [resume]
    split
    · exact hgo _ _ rfl rfl rfl
    · split <;> exact hgo _ _ rfl rfl rfl
  | timeOut d w now hnow hw => exact hgo _ _ rfl rfl rfl
  | clock caller c now => exact hgo _ _ rfl rfl rfl
  | giveBack caller c since now =>
    have hquiet : (afterGiveBack caller).isAbandoning = false := by cases caller <;> rfl
    have hretry : (afterGiveBack caller).isRetrying = false := by cases caller <;> rfl
    rw [giveBack]
    split
    · exact hgo _ _ rfl hquiet hretry
    split
    · next w rest _ =>
      exact ⟨_, hquiet, fun h ↦ absurd h (hretry ▸ Bool.false_ne_true),
        weight_notify (s := { s with waiters := rest }) f hf ht rfl w _ _⟩
    · exact hgo _ _ rfl hquiet hretry
  | dropped next now =>
    have hquiet : (afterDropped next).isAbandoning = false := by cases next <;> rfl
    have hretry : (afterDropped next).isRetrying = false := by cases next <;> rfl
    rw [dropped]
    split
    · next w rest _ _ =>
      exact ⟨_, hquiet, fun h ↦ absurd h (hretry ▸ Bool.false_ne_true),
        weight_notify (s := { s with waiters := rest }) f hf ht rfl w _ _⟩
    · exact hgo _ _ rfl hquiet hretry

/-! ### The invariant of an undisturbed run -/

/-- An open pool that is about to free only slots of expired connections. -/
structure Calm (s : State) : Prop where
  opened : s.closed = false
  kept : s.abandoned = 0

/-- A pool that stays at or above `min_size` when it has freed the slots it is about to free. -/
def Spare (cfg : Config) (s : State) : Prop :=
  cfg.options.minSize + s.expiring ≤ s.open_

/-- A move that disturbs nothing keeps the pool calm. -/
theorem Calm.moved (h : Calm s) (ht : s.threads[i]? = some t) (hm : Moved cfg s i t m s')
    (hd : (Action.move i m).disturbs = false) : Calm s' := by
  have hne : m ≠ .callClose := by
    rintro rfl
    cases hd
  obtain ⟨t', hquiet, -, hsum⟩ := weight_moved ht hm hd (fun t ↦ t.isAbandoning.toNat)
    fun g t ↦ by cases t <;> rfl
  refine ⟨(closed_moved hm hne).trans h.opened, ?_⟩
  have hkept : (s.threads.map fun t ↦ t.isAbandoning.toNat).sum = 0 := h.kept
  show (s'.threads.map fun t ↦ t.isAbandoning.toNat).sum = 0
  rw [hquiet] at hsum
  simp only [Bool.toNat_false] at hsum
  omega

/-- In a calm pool a move frees at most the slot of an expired connection. -/
theorem Calm.slotsFreedAt_le (h : Calm s) (ht : s.threads[i]? = some t)
    (hd : (Action.move i m).disturbs = false) : slotsFreedAt s t m ≤ t.isRetrying.toNat := by
  unfold slotsFreedAt
  split
  · cases hd
  · rw [if_neg (h.opened ▸ Bool.false_ne_true)]
    exact Nat.zero_le _
  · next next now =>
    have hzero := List.sum_eq_zero_iff.1 h.kept _ (List.mem_map_of_mem (List.mem_of_getElem? ht))
    cases next with
    | retry timeout deadline =>
      show (if s.closed = false ∧ s.waiters ≠ [] then 0 else 1) ≤ 1
      split <;> omega
    | done | rethrow => cases hzero
  · exact Nat.zero_le _

/-- A connection that expires makes one more slot to be freed. -/
theorem expired_step {c : Check} (hc : c ∈ check s a) (hexpired : c.Expired cfg)
    (ha : step cfg s a = some s') : s'.open_ = s.open_ ∧ s'.expiring = s.expiring + 1 := by
  unfold check at hc
  split at hc
  · next i now verdict =>
    split at hc
    · next timeout deadline idle aboveMin ht =>
      obtain rfl := Option.some.inj hc
      rw [step, ht] at ha
      have hstep := (Option.some.inj ha).symm
      rw [(checkOut_expired_iff _).2 hexpired] at hstep
      subst hstep
      exact ⟨rfl, weight_goto (s := { s with destroyed := idle.connection :: s.destroyed })
        (fun t ↦ t.isRetrying.toNat) ht (.dropping (.retry timeout deadline))⟩
    · cases hc
  · cases hc

/-- Where no connection expires, the pool has as much to spare as before. -/
theorem Calm.spare_moved (h : Calm s) (hinv : Inv cfg s) (ht : s.threads[i]? = some t)
    (hm : Moved cfg s i t m s') (hu : Undisturbed cfg s (.move i m))
    (hno : ∀ c ∈ check s (.move i m), ¬c.Expired cfg) :
    s'.expiring ≤ s.expiring ∧ s.open_ + s'.expiring ≤ s'.open_ + s.expiring := by
  have hfreed := h.slotsFreedAt_le ht hu.1
  have hopen := hinv.open_moved ht hm
  obtain ⟨t', -, hretry, hsum⟩ := weight_moved ht hm hu.1 (fun t ↦ t.isRetrying.toNat)
    fun g t ↦ by cases t <;> rfl
  have hfalse : t'.isRetrying = false := by
    refine Bool.eq_false_iff.2 fun htrue ↦ ?_
    obtain ⟨c, hc, hreject⟩ := hretry htrue
    refine hno c hc ((checkOut_expired_iff c).1 ?_)
    cases hr : checkOut cfg c.idle c.aboveMin c.now c.verdict with
    | usable c' => exact absurd hr (hreject c')
    | expired => rfl
    | broken => exact absurd hr (hu.2 c hc)
  have hexpiring : s'.expiring + t.isRetrying.toNat = s.expiring := by
    rw [hfalse] at hsum
    exact hsum
  omega

/-! ### The run -/

/-- What a step of the promised runs keeps: a pool that frees the slots it is about to free does not
fall below `min_size`, unless it is below already. -/
structure Steady (cfg : Config) (s : State) : Prop where
  reachable : (machine cfg).Reachable s
  calm : Calm s
  spare : s.expiring = 0 ∨ Spare cfg s

/-- The condition under which `min_size` is kept. -/
def Careful (cfg : Config) (s : State) (a : Action) : Prop :=
  Undisturbed cfg s a ∧ ExpiresAboveMin cfg s a

instance (cfg : Config) (s : State) (a : Action) : Decidable (Careful cfg s a) :=
  inferInstanceAs (Decidable (_ ∧ _))

/-- A thread that starts has nothing to free. -/
theorem weight_spawn (f : Thread → ℕ) (hf : f (.returned .done) = 0) (ts : List Thread) :
    ((ts ++ [Thread.returned .done]).map f).sum = (ts.map f).sum := by
  rw [List.map_append, List.sum_append, List.map_singleton, List.sum_singleton, hf, Nat.add_zero]

/-- A step that disturbs nothing keeps the pool calm. -/
theorem Calm.step (h : Calm s) (hu : Undisturbed cfg s a)
    (ha : ConnectionPool.step cfg s a = some s') : Calm s' := by
  rcases step_cases ha with ⟨rfl, rfl⟩ | ⟨i, m, t, rfl, ht, hm⟩
  · exact ⟨h.opened, (weight_spawn _ rfl s.threads).trans h.kept⟩
  · exact h.moved ht hm hu.1

/-- Unless a connection expires, a step leaves a calm pool as much to spare as before. -/
theorem Calm.spare_step (h : Calm s) (hinv : Inv cfg s) (hu : Undisturbed cfg s a)
    (hno : ∀ c ∈ check s a, ¬c.Expired cfg) (ha : ConnectionPool.step cfg s a = some s') :
    s'.expiring ≤ s.expiring ∧ s.open_ + s'.expiring ≤ s'.open_ + s.expiring := by
  rcases step_cases ha with ⟨rfl, rfl⟩ | ⟨i, m, t, rfl, ht, hm⟩
  · have hsame : ({ s with threads := s.threads ++ [.returned .done] } : State).expiring =
        s.expiring := weight_spawn _ rfl s.threads
    exact ⟨hsame.le, by rw [hsame]⟩
  · exact h.spare_moved hinv ht hm hu hno

theorem Steady.init : Steady cfg {} :=
  ⟨Machine.Reachable.init rfl, ⟨rfl, rfl⟩, Or.inl rfl⟩

/-- **The step lemma.** -/
theorem Steady.step (h : Steady cfg s) (hc : Careful cfg s a)
    (ha : ConnectionPool.step cfg s a = some s') :
    Steady cfg s' ∧ (Spare cfg s → Spare cfg s') := by
  obtain ⟨hu, habove⟩ := hc
  have hreach : (machine cfg).Reachable s' := h.reachable.step (a := a) ha
  have hcalm := h.calm.step hu ha
  have hspare := h.spare
  unfold Spare at hspare ⊢
  by_cases hexpired : ∃ c ∈ check s a, c.Expired cfg
  · obtain ⟨c, hc, hce⟩ := hexpired
    have hroom := habove c hc hce
    obtain ⟨hopen, hmore⟩ := expired_step hc hce ha
    have hspare' : cfg.options.minSize + s'.expiring ≤ s'.open_ := by omega
    exact ⟨⟨hreach, hcalm, Or.inr hspare'⟩, fun _ ↦ hspare'⟩
  · push Not at hexpired
    obtain ⟨hless, hkept⟩ := h.calm.spare_step (Inv.reachable h.reachable) hu hexpired ha
    refine ⟨⟨hreach, hcalm, ?_⟩, by omega⟩
    show s'.expiring = 0 ∨ cfg.options.minSize + s'.expiring ≤ s'.open_
    omega

/-- warmUp() has returned: it took the lock for the last time, and opened no connection. -/
def WarmedUp (cfg : Config) (s s' : State) : Prop :=
  ∃ i now, s.threads[i]? = some .warmingUp ∧ step cfg s (.move i (.lock now)) = some s' ∧
    s'.threads[i]? = some (.returned .done)

/-- A successful warmUp() leaves an open pool with at least `min_size` connections. -/
theorem Steady.warmedUp (h : Steady cfg s) (hw : WarmedUp cfg s s') :
    Steady cfg s' ∧ Spare cfg s' := by
  obtain ⟨i, now, ht, ha, hdone⟩ := hw
  have hcareful : Careful cfg s (.move i (.lock now)) :=
    ⟨⟨rfl, nofun⟩, nofun⟩
  obtain ⟨hsteady, -⟩ := h.step hcareful ha
  refine ⟨hsteady, ?_⟩
  rw [ConnectionPool.step, ht] at ha
  obtain rfl := Option.some.inj ha
  have hlen : i < s.threads.length := (List.getElem?_eq_some_iff.1 ht).1
  rcases hsteady.spare with hzero | hspare
  · rw [Spare, hzero, Nat.add_zero]
    rw [warmUp] at hdone ⊢
    split at hdone
    · next hfull =>
      rw [if_pos hfull]
      rw [h.calm.opened, Bool.false_or, decide_eq_true_eq] at hfull
      exact hfull
    · -- it is opening a connection
      rw [State.goto_threads, List.getElem?_set_self (by exact hlen)] at hdone
      cases hdone
  · exact hspare

/-- **The run lemma.** -/
theorem Steady.run {as : List Action} (h : Steady cfg s) (hspare : Spare cfg s)
    (hall : (machine cfg).EveryStep (fun s a _ ↦ Careful cfg s a) s as)
    (hrun : (machine cfg).run s as = some s') : Spare cfg s' := by
  induction as generalizing s with
  | nil =>
    obtain rfl := Option.some.inj hrun
    exact hspare
  | cons a as ih =>
    rw [Machine.run_cons] at hrun
    obtain ⟨u, hu, hrest⟩ := Option.bind_eq_some_iff.1 hrun
    obtain ⟨hcareful, hall⟩ := hall u hu
    obtain ⟨hsteady, hkept⟩ := h.step hcareful hu
    exact ih hsteady (hkept hspare) hall hrest

/-- The pool is steady in every run of careful steps. -/
theorem Steady.reachable_via (h : (machine cfg).ReachableVia (Careful cfg) s) : Steady cfg s := by
  refine Machine.ReachableVia.invariant (fun s hinit ↦ ?_) (fun s a s' hs hc ha ↦ ?_) h
  · rw [show s = {} from hinit]
    exact Steady.init
  · exact (hs.step hc ha).1

/-! ### The condition is exact -/

/-- An undisturbed run leads from `s` below `min_size`. -/
def Sinks (cfg : Config) (s : State) : Prop :=
  ∃ as s', (machine cfg).run s as = some s' ∧
    (machine cfg).EveryStep (fun s a _ ↦ Undisturbed cfg s a) s as ∧
    s'.open_ < cfg.options.minSize

/-- A pool can sink if it can after an undisturbed step. -/
theorem Sinks.cons (hu : Undisturbed cfg s a) (ha : step cfg s a = some s') (h : Sinks cfg s') :
    Sinks cfg s := by
  obtain ⟨as, s'', hrun, hall, hbelow⟩ := h
  refine ⟨a :: as, s'', ?_, fun u hu' ↦ ?_, hbelow⟩
  · rw [Machine.run_cons, show (machine cfg).step s a = some s' from ha]
    exact hrun
  · obtain rfl := Option.some.inj (ha.symm.trans hu')
    exact ⟨hu, hall⟩

/-- With nobody queued, the slots about to be freed are freed. -/
theorem sinks_of_no_waiters {n : ℕ} (h : (machine cfg).Reachable s) (hw : s.waiters = [])
    (hn : s.expiring = n) (hbelow : s.open_ < cfg.options.minSize + n) : Sinks cfg s := by
  induction n generalizing s with
  | zero => exact ⟨[], s, rfl, trivial, hbelow⟩
  | succ n ih =>
    have hne : s.expiring ≠ 0 := by omega
    rw [State.expiring, Ne, List.sum_eq_zero_iff] at hne
    push Not at hne
    obtain ⟨x, hx, hxne⟩ := hne
    obtain ⟨t, hmem, rfl⟩ := List.mem_map.1 hx
    obtain ⟨i, ht⟩ := List.mem_iff_getElem?.1 hmem
    have hdropping : ∃ timeout deadline, t = .dropping (.retry timeout deadline) := by
      unfold Thread.isRetrying at hxne
      split at hxne
      · next timeout deadline => exact ⟨timeout, deadline, rfl⟩
      · exact absurd rfl hxne
    obtain ⟨timeout, deadline, rfl⟩ := hdropping
    have hstep : step cfg s (.move i (.lock 0)) =
        some ((s.free 1).goto i (.acquiring timeout deadline)) := by
      rw [step, ht]
      show some (dropped s i _) = _
      rw [dropped, hw]
      cases s.closed <;> rfl
    have hopen : (s.free 1).open_ = s.open_ - 1 :=
      free_open_of_le ((Inv.reachable h).slots_le ht :)
    have hpos : 1 ≤ s.open_ := ((Inv.reachable h).slots_le ht :)
    have hless := weight_goto (s := s.free 1) (fun t ↦ t.isRetrying.toNat) ht
      (.acquiring timeout deadline)
    refine Sinks.cons (undisturbed_of_no_check rfl rfl) hstep
      (ih (h.step (a := Action.move i (.lock 0)) hstep) hw ?_ ?_)
    · have hone : s.expiring = n + 1 := hn
      have hsum : ((s.free 1).goto i (.acquiring timeout deadline)).expiring + 1 =
          s.expiring := hless
      omega
    · show (s.free 1).open_ < _
      omega

/-- Queued threads may all give up first. -/
theorem sinks_of_below (h : (machine cfg).Reachable s)
    (hbelow : s.open_ < cfg.options.minSize + s.expiring) : Sinks cfg s := by
  generalize hws : s.waiters = ws
  induction ws generalizing s with
  | nil => exact sinks_of_no_waiters h hws rfl hbelow
  | cons w rest ih =>
    obtain ⟨d, ht⟩ := ((Inv.reachable h).queue.mem_iff w).1 (hws ▸ List.mem_cons_self)
    have hstep : step cfg s (.move w (.timeOut d)) = some (timeOut s w) := by
      rw [step, ht]
      exact if_pos ⟨le_rfl, rfl⟩
    have hsame : (timeOut s w).expiring = s.expiring :=
      weight_goto (s := { s with waiters := s.waiters.erase w }) (fun t ↦ t.isRetrying.toNat) ht
        (.returned .timedOut)
    refine Sinks.cons (undisturbed_of_no_check rfl rfl) hstep
      (ih (h.step (a := Action.move w (.timeOut d)) hstep) ?_ ?_)
    · rw [hsame]
      exact hbelow
    · show s.waiters.erase w = rest
      rw [hws, List.erase_cons_head]

/-- After an expiry against the condition the pool can sink. -/
theorem sinks_of_expiry (h : (machine cfg).Reachable s) (hno : ¬ExpiresAboveMin cfg s a)
    (ha : step cfg s a = some s') : Sinks cfg s' := by
  unfold ExpiresAboveMin at hno
  push Not at hno
  obtain ⟨c, hc, hexpired, hroom⟩ := hno
  obtain ⟨hopen, hmore⟩ := expired_step hc hexpired ha
  exact sinks_of_below (h.step (a := a) ha) (by omega)

/-! ### The promise -/

/-- **`min_size` in a run.** After a successful warmUp() a run without discards, failures and close
stays at or above `min_size` while its checks meet the condition; and a check that does not meet it
lets such a run go on to below `min_size`. -/
theorem open_stays_above_min (h : (machine cfg).ReachableVia (Careful cfg) s)
    (hw : WarmedUp cfg s s') :
    (∀ as s'', (machine cfg).EveryStep (fun s a _ ↦ Careful cfg s a) s' as →
      (machine cfg).run s' as = some s'' → cfg.options.minSize ≤ s''.open_) ∧
    (∀ as s'' a s₁, (machine cfg).run s' as = some s'' → step cfg s'' a = some s₁ →
      ¬ExpiresAboveMin cfg s'' a → Sinks cfg s₁) := by
  have hsteady := Steady.reachable_via h
  obtain ⟨hsteady', hspare⟩ := hsteady.warmedUp hw
  refine ⟨fun as s'' hall hrun ↦ ?_, fun as s'' a s₁ hrun ha hno ↦ ?_⟩
  · have hspare' := hsteady'.run hspare hall hrun
    exact Nat.le_of_add_right_le hspare'
  · exact sinks_of_expiry (hsteady'.reachable.run hrun) hno ha

/-- A pool that is to keep one of two connections. -/
def keepOne : Config where
  options := { minSize := 1, maxSize := 2 }
  validate := false
  maxSize_pos := by decide
  minSize_le := by decide
  maxSize_lt := by decide

/-- One thread of two warms the pool up. -/
def warmingUp : List Action :=
  [.spawn, .spawn, .move 0 .callWarmUp, .move 0 (.lock 0), .move 0 (.factory true),
    .move 0 (.clock 0), .move 0 (.lock 0)]

/-- The pool when warmUp() takes the lock for the last time. -/
def warm : State :=
  { idle := [⟨0, 0⟩], open_ := 1, threads := [.warmingUp, .returned .done], opened := 1 }

/-- Both threads have used a connection. -/
def bothUsed : List Action :=
  [.move 0 (.callAcquire none), .move 0 (.lock 0), .move 0 (.validated 0 .valid),
    .move 1 (.callAcquire none), .move 1 (.lock 0), .move 1 (.factory true),
    .move 0 (.release 0), .move 0 (.clock 0), .move 0 (.lock 0),
    .move 1 (.release 1), .move 1 (.clock 0), .move 1 (.lock 0)]

/-- Five minutes later one thread needs a connection: the first one it takes has expired. -/
def oneLater : List Action :=
  [.move 0 (.callAcquire none), .move 0 (.lock 0), .move 0 (.validated 300000000001 .valid),
    .move 0 (.lock 0), .move 0 (.lock 0), .move 0 (.validated 300000000001 .valid)]

/-- Five minutes later both need one, and take theirs before either frees a slot. -/
def bothLater : List Action :=
  [.move 0 (.callAcquire none), .move 1 (.callAcquire none), .move 0 (.lock 0), .move 1 (.lock 0),
    .move 0 (.validated 300000000001 .valid), .move 1 (.validated 300000000001 .valid),
    .move 0 (.lock 0), .move 1 (.lock 0)]

theorem warmedUp_warm : WarmedUp keepOne warm (warm.goto 0 (.returned .done)) :=
  ⟨0, 0, rfl, rfl, rfl⟩

theorem open_stays_above_min_oneLater :
    ∃ s, (machine keepOne).run (warm.goto 0 (.returned .done)) (bothUsed ++ oneLater) = some s ∧
      s.destroyed = [1] ∧ 1 ≤ s.open_ := by
  have hwarm : (machine keepOne).ReachableVia (Careful keepOne) warm :=
    (Machine.ReachableVia.init rfl).run warmingUp (by decide) (by decide +kernel)
  obtain ⟨hkept, -⟩ := open_stays_above_min hwarm warmedUp_warm
  exact ⟨_, rfl, rfl, hkept (bothUsed ++ oneLater) _ (by decide +kernel) rfl⟩

/-- **One connection too many.** Both connections expire, although one of them was to be kept. -/
theorem overtaken_expiry :
    ¬∀ (cfg : Config) (s s' : State), (machine cfg).ReachableVia (Undisturbed cfg) s →
      WarmedUp cfg s s' → ∀ as s'',
        (machine cfg).EveryStep (fun s a _ ↦ Undisturbed cfg s a) s' as →
        (machine cfg).run s' as = some s'' → cfg.options.minSize ≤ s''.open_ := by
  intro h
  have hwarm : (machine keepOne).ReachableVia (Undisturbed keepOne) warm :=
    (Machine.ReachableVia.init rfl).run warmingUp (by decide) (by decide +kernel)
  have hmin := h keepOne warm _ hwarm warmedUp_warm (bothUsed ++ bothLater) _
    (by decide +kernel) rfl
  exact absurd hmin (by decide)

end CppGate.ConnectionPool
