import CppGate.RingBuffer.Fifo
import Mathlib.Data.Finset.Card

/-!
# The capacity of a ring buffer

A buffer of `Size` slots is to hold at most `Size` items that nobody has read. The ticket of a slot
says whose turn it is: `pos` for the producer of a position, `pos + 1` for its consumer and
`pos + Size` for the producer of the next lap. These are told apart from two slots on, where
everything holds (`Inv`); with one slot the last two are the same number, so the second producer
does not wait for the consumer (`respectsCapacity_iff`), and the consumer, who has been overtaken,
loads the tail again and again (`pop_never_returns`).
-/

namespace CppGate.RingBuffer

variable {ι T : Type*} {ring : Ring}

/-! ### Items that nobody has read -/

/-- The positions whose push is complete. -/
def pushes (history : List (Event T)) : List ℕ :=
  history.filterMap fun
    | .published pos => some pos
    | _ => none

/-- The positions whose item was read. -/
def reads (history : List (Event T)) : List ℕ :=
  history.filterMap fun
    | .read pos => some pos
    | _ => none

/-- The pushed items that no pop has read, by their positions. -/
def unread (history : List (Event T)) : Finset ℕ :=
  (pushes history).toFinset \ (reads history).toFinset

/-- What is unread was published and not read. -/
theorem mem_unread {history : List (Event T)} {pos : ℕ} :
    pos ∈ unread history ↔ .published pos ∈ history ∧ .read pos ∉ history := by
  have hpushes : pos ∈ pushes history ↔ .published pos ∈ history := by
    refine List.mem_filterMap.trans ⟨?_, fun h ↦ ⟨_, h, rfl⟩⟩
    rintro ⟨e, he, hpos⟩
    cases e with
    | published => exact Option.some.inj hpos ▸ he
    | _ => exact absurd hpos.symm (Option.some_ne_none pos)
  have hreads : pos ∈ reads history ↔ .read pos ∈ history := by
    refine List.mem_filterMap.trans ⟨?_, fun h ↦ ⟨_, h, rfl⟩⟩
    rintro ⟨e, he, hpos⟩
    cases e with
    | read => exact Option.some.inj hpos ▸ he
    | _ => exact absurd hpos.symm (Option.some_ne_none pos)
  rw [unread, Finset.mem_sdiff, List.mem_toFinset, List.mem_toFinset, hpushes, hreads]

/-! ### The calls in progress -/

/-- The position whose item a thread has written and not yet published. -/
@[simp] def Thread.publishes : Thread T → Option ℕ
  | .publishing pos => some pos
  | _ => none

/-- The position whose item a thread is to read. -/
@[simp] def Thread.reads : Thread T → Option ℕ
  | .reading pos => some pos
  | _ => none

/-- Some thread is at a position, in the sense of `f`. -/
def InProgress (f : Thread T → Option ℕ) (threads : ι → Thread T) (pos : ℕ) : Prop :=
  ∃ i, f (threads i) = some pos

/-- What is not done yet is being done by a thread, and a slot is free again once its item was
read. -/
structure Calls (ring : Ring) (s : State ι T) (history : List (Event T)) : Prop where
  lapped : ∀ pos, pos + ring.size ≤ s.sequence (ring.slot pos) → .read pos ∈ history
  pushing : ∀ pos < s.head, .published pos ∈ history ∨ InProgress Thread.produces s.threads pos
  writing : ∀ pos, .wrote pos ∈ history →
    .published pos ∈ history ∨ InProgress Thread.publishes s.threads pos
  popping : ∀ pos < s.tail, .read pos ∈ history ∨ InProgress Thread.reads s.threads pos
  pushed : ∀ pos, .published pos ∈ history → pos < s.head
  read : ∀ pos, .read pos ∈ history → pos < s.tail

variable {s t : State ι T} {history events : List (Event T)} {i : ι} {thread : Thread T}

theorem calls_initial : Calls ring (initial ι T) [] where
  lapped pos hpos := by
    have hslot : ring.slot pos ≤ pos := (ring.slot_eq_mod pos).trans_le (Nat.mod_le pos _)
    have hsize := ring.size_pos
    have hticket : pos + ring.size ≤ ring.slot pos := hpos
    omega
  pushing pos hpos := absurd hpos (Nat.not_lt_zero pos)
  writing pos hpos := absurd hpos List.not_mem_nil
  popping pos hpos := absurd hpos (Nat.not_lt_zero pos)
  pushed pos hpos := absurd hpos List.not_mem_nil
  read pos hpos := absurd hpos List.not_mem_nil

/-- What may happen at an event, besides what `Justified` says. -/
def Allowed (ring : Ring) (history : List (Event T)) : Event T → Prop
  | .published _ => (unread history).card < ring.size
  | .wrote pos => ∀ earlier, .wrote earlier ∈ history → ring.slot earlier = ring.slot pos →
    .read earlier ∈ history
  | _ => True

/-- An unread item is where its slot's ticket says. -/
theorem Calls.ticket_of_unread (c : Calls ring s history) (h : Inv ring s history) {pos : ℕ}
    (hpos : pos ∈ unread history) : s.sequence (ring.slot pos) = pos + 1 := by
  obtain ⟨hpushed, hread⟩ := mem_unread.1 hpos
  have hlt := (h.published pos).1 hpushed
  have hlap : s.sequence (ring.slot pos) < pos + ring.size := by
    by_contra hle
    exact hread (c.lapped pos (Nat.le_of_not_lt hle))
  obtain ⟨p, hslot, hserves⟩ := h.serves _ (ring.slot_lt pos)
  rw [← hslot] at hlt hlap ⊢
  cases hserves with
  | free hticket =>
    rw [hticket] at hlt hlap
    rcases ring.eq_or_lap hslot.symm hlt.le with rfl | hnext <;> omega
  | full hticket =>
    rw [hticket] at hlt hlap ⊢
    rcases ring.eq_or_lap hslot.symm (Nat.lt_succ_iff.1 hlt) with rfl | hnext
    · rfl
    · omega

/-- **A push completes while there is room**: the unread items are in other slots. -/
theorem Calls.card_unread_lt (c : Calls ring s history) (h : Inv ring s history) {pos : ℕ}
    (hticket : s.sequence (ring.slot pos) = pos) : (unread history).card < ring.size := by
  have hmaps : ∀ q ∈ unread history,
      ring.slot q ∈ (Finset.range ring.size).erase (ring.slot pos) := by
    intro q hq
    refine Finset.mem_erase.2 ⟨fun hslot ↦ ?_, Finset.mem_range.2 (ring.slot_lt q)⟩
    have hunread := c.ticket_of_unread h hq
    rw [hslot, hticket] at hunread
    exact Ring.not_next h.size hslot.symm hunread
  have hinj : Set.InjOn ring.slot (unread history : Set ℕ) := by
    intro p hp q hq hslot
    have hticket := c.ticket_of_unread h (Finset.mem_coe.1 hp)
    rw [hslot, c.ticket_of_unread h (Finset.mem_coe.1 hq)] at hticket
    exact (Nat.succ_injective hticket).symm
  have hcard := Finset.card_le_card_of_injOn ring.slot hmaps hinj
  have hmem : ring.slot pos ∈ Finset.range ring.size := Finset.mem_range.2 (ring.slot_lt pos)
  rw [Finset.card_erase_of_mem hmem, Finset.card_range] at hcard
  have := ring.size_pos
  omega

/-- **A push writes where everything was read.** -/
theorem Calls.read_of_wrote (c : Calls ring s history) (h : Inv ring s history) {pos earlier : ℕ}
    {item : T} (hi : s.threads i = .writing pos item) (hwrote : .wrote earlier ∈ history)
    (hslot : ring.slot earlier = ring.slot pos) : .read earlier ∈ history := by
  obtain ⟨-, -, hticket⟩ : Knows ring s history (.writing pos item) := hi ▸ h.knows i
  rcases c.writing earlier hwrote with hpushed | ⟨j, hj⟩
  · have hlt := (h.published earlier).1 hpushed
    refine c.lapped earlier ?_
    rw [hslot, hticket] at hlt ⊢
    rcases ring.eq_or_lap hslot hlt.le with rfl | hlap
    · exact absurd hlt (lt_irrefl earlier)
    · exact hlap
  · -- nobody else holds the slot
    have hholds : (s.threads i).holds = some pos := by rw [hi, Thread.holds]
    cases hthread : s.threads j with
    | publishing p =>
      obtain rfl : p = earlier := by simpa [hthread] using hj
      have hholds' : (s.threads j).holds = some p := by rw [hthread, Thread.holds]
      obtain rfl := h.holder_unique hholds' hholds hslot
      simp [hi] at hthread
    | _ => simp [hthread] at hj

/-! ### Steps -/

variable [DecidableEq ι]

/-- What a thread was doing it still does, or has done. -/
theorem InProgress.moved {f : Thread T → Option ℕ} {e : Event T} {pos : ℕ}
    (h : e ∈ history ∨ InProgress f s.threads pos)
    (hmoved : f (s.threads i) = some pos → e ∈ events ∨ f thread = some pos) :
    e ∈ history ++ events ∨ InProgress f (Function.update s.threads i thread) pos := by
  rcases h with h | ⟨j, hj⟩
  · exact Or.inl (List.mem_append_left _ h)
  rcases eq_or_ne j i with rfl | hne
  · refine (hmoved hj).imp (List.mem_append_right _) fun hthread ↦ ⟨j, ?_⟩
    rwa [Function.update_self]
  · refine Or.inr ⟨j, ?_⟩
    rwa [Function.update_of_ne hne]

/-- A step of thread `i`, by what it adds. -/
theorem Calls.moved (c : Calls ring s history)
    (hthreads : t.threads = Function.update s.threads i thread)
    (hlapped : ∀ pos, pos + ring.size ≤ t.sequence (ring.slot pos) →
      pos + ring.size ≤ s.sequence (ring.slot pos) ∨ .read pos ∈ history)
    (hhead : ∀ pos < t.head, pos < s.head ∨ thread.produces = some pos)
    (htail : ∀ pos < t.tail, pos < s.tail ∨ thread.reads = some pos)
    (hkept : s.head ≤ t.head ∧ s.tail ≤ t.tail)
    (hproduces : ∀ pos, (s.threads i).produces = some pos →
      .published pos ∈ events ∨ thread.produces = some pos)
    (hpublishes : ∀ pos, (s.threads i).publishes = some pos →
      .published pos ∈ events ∨ thread.publishes = some pos)
    (hreads : ∀ pos, (s.threads i).reads = some pos →
      .read pos ∈ events ∨ thread.reads = some pos)
    (hwrote : ∀ pos, .wrote pos ∈ events → thread.publishes = some pos)
    (hpushed : ∀ pos, .published pos ∈ events → pos < t.head)
    (hread : ∀ pos, .read pos ∈ events → pos < t.tail) : Calls ring t (history ++ events) := by
  have hself (f : Thread T → Option ℕ) (pos : ℕ) (h : f thread = some pos) :
      InProgress f (Function.update s.threads i thread) pos :=
    ⟨i, by rw [Function.update_self]; exact h⟩
  constructor
  case lapped =>
    exact fun pos hpos ↦ List.mem_append_left _ ((hlapped pos hpos).elim (c.lapped pos) id)
  case pushing =>
    intro pos hpos
    rw [hthreads]
    rcases hhead pos hpos with hlt | hnew
    · exact InProgress.moved (c.pushing pos hlt) (hproduces pos)
    · exact Or.inr (hself _ pos hnew)
  case writing =>
    intro pos hpos
    rw [hthreads]
    rcases List.mem_append.1 hpos with hold | hnew
    · exact InProgress.moved (c.writing pos hold) (hpublishes pos)
    · exact Or.inr (hself _ pos (hwrote pos hnew))
  case popping =>
    intro pos hpos
    rw [hthreads]
    rcases htail pos hpos with hlt | hnew
    · exact InProgress.moved (c.popping pos hlt) (hreads pos)
    · exact Or.inr (hself _ pos hnew)
  case pushed =>
    exact fun pos hpos ↦ (List.mem_append.1 hpos).elim
      (fun h ↦ (c.pushed pos h).trans_le hkept.1) (hpushed pos)
  case read =>
    exact fun pos hpos ↦ (List.mem_append.1 hpos).elim
      (fun h ↦ (c.read pos h).trans_le hkept.2) (hread pos)

/-- A step that leaves the shared memory alone and finishes nothing. -/
theorem Calls.quiet (c : Calls ring s history) (hevents : events = [] ∨ events = [.empty])
    (hproduces : (s.threads i).produces = thread.produces)
    (hpublishes : (s.threads i).publishes = thread.publishes)
    (hreads : (s.threads i).reads = thread.reads) :
    Calls ring (s.goto i thread) (history ++ events) := by
  refine c.moved rfl (fun pos ↦ Or.inl) (fun pos ↦ Or.inl) (fun pos ↦ Or.inl) ⟨le_rfl, le_rfl⟩
    (fun pos h ↦ Or.inr (hproduces ▸ h)) (fun pos h ↦ Or.inr (hpublishes ▸ h))
    (fun pos h ↦ Or.inr (hreads ▸ h)) ?_ ?_ ?_ <;>
  rcases hevents with rfl | rfl <;> simp

/-- Each access keeps track of the calls, and is allowed. -/
theorem Calls.access (c : Calls ring s history) (h : Inv ring s history) {spurious : Bool}
    (haccess : access ring s i spurious (s.threads i) = some (t, events)) :
    Calls ring t (history ++ events) ∧ ∀ e, events = [e] → Allowed ring history e := by
  have hknows := h.knows i
  rcases hi : s.threads i with _ | ⟨pos, item⟩ | ⟨pos, item⟩ | pos | pos | pos | _ | pos |
    ⟨pos, out⟩ <;> rw [hi] at haccess hknows
  case idle => exact absurd haccess.symm (Option.some_ne_none _)
  case waiting =>
    simp only [RingBuffer.access] at haccess
    split_ifs at haccess with hturn <;> cases haccess
    · exact ⟨c.quiet (Or.inl rfl) (by simp [hi, Thread.produces]) (by simp [hi]) (by simp [hi]),
        by simp⟩
    · exact ⟨(List.append_nil history).symm ▸ c, by simp⟩
  case writing =>
    cases haccess
    refine ⟨c.moved rfl (fun _ ↦ Or.inl) (fun _ ↦ Or.inl) (fun _ ↦ Or.inl) ⟨le_rfl, le_rfl⟩
      ?_ ?_ ?_ ?_ ?_ ?_, ?_⟩
    case refine_7 =>
      rintro _ ⟨⟩ earlier hwrote hslot
      exact c.read_of_wrote h hi hwrote hslot
    all_goals simp [hi, Thread.produces]
  case publishing =>
    cases haccess
    refine ⟨c.moved rfl ?_ (fun _ ↦ Or.inl) (fun _ ↦ Or.inl) ⟨le_rfl, le_rfl⟩
      ?_ ?_ ?_ ?_ ?_ ?_, ?_⟩
    case refine_1 =>
      intro q hq
      refine Or.inl ?_
      by_cases hslot : ring.slot q = ring.slot pos
      · dsimp only [State.goto] at hq
        rw [hslot, Function.update_self] at hq
        rw [hslot, hknows.2.1]
        have hne : pos + 1 ≠ q + ring.size :=
          fun heq ↦ Ring.not_next h.size ((ring.slot_add_size q).trans hslot) heq.symm
        omega
      · dsimp only [State.goto] at hq
        rwa [Function.update_of_ne hslot] at hq
    case refine_8 =>
      rintro _ ⟨⟩
      exact c.card_unread_lt h hknows.2.1
    case refine_6 =>
      intro q hq
      obtain rfl : q = pos := by simpa using hq
      exact hknows.1
    all_goals simp [hi, Thread.produces]
  case checking =>
    simp only [RingBuffer.access] at haccess
    split_ifs at haccess with hready hbelow <;> cases haccess
    · exact ⟨c.quiet (Or.inl rfl) (by simp [hi, Thread.produces]) (by simp [hi]) (by simp [hi]),
        by simp⟩
    · refine ⟨c.quiet (Or.inr rfl) (by simp [hi, Thread.produces]) (by simp [hi]) (by simp [hi]),
        ?_⟩
      rintro _ ⟨⟩
      trivial
    · exact ⟨c.quiet (Or.inl rfl) (by simp [hi, Thread.produces]) (by simp [hi]) (by simp [hi]),
        by simp⟩
  case advancing =>
    simp only [RingBuffer.access] at haccess
    split_ifs at haccess with hexchange <;> cases haccess
    · refine ⟨c.moved rfl (fun _ ↦ Or.inl) (fun _ ↦ Or.inl) ?_ ⟨le_rfl, ?_⟩
        ?_ ?_ ?_ ?_ ?_ ?_, ?_⟩
      case refine_1 =>
        intro q hq
        rcases Nat.lt_succ_iff_lt_or_eq.1 hq with hlt | rfl
        · exact Or.inl (hexchange.1.symm ▸ hlt)
        · exact Or.inr rfl
      case refine_2 => exact hexchange.1.trans_le (Nat.le_succ pos)
      case refine_9 =>
        rintro _ ⟨⟩
        trivial
      all_goals simp [hi, Thread.produces]
    · exact ⟨c.quiet (Or.inl rfl) (by simp [hi, Thread.produces]) (by simp [hi]) (by simp [hi]),
        by simp⟩
  case reloading =>
    cases haccess
    exact ⟨c.quiet (Or.inl rfl) (by simp [hi, Thread.produces]) (by simp [hi]) (by simp [hi]),
      by simp⟩
  case reading =>
    cases haccess
    refine ⟨c.moved rfl (fun _ ↦ Or.inl) (fun _ ↦ Or.inl) (fun _ ↦ Or.inl) ⟨le_rfl, le_rfl⟩
      ?_ ?_ ?_ ?_ ?_ ?_, ?_⟩
    case refine_6 =>
      intro q hq
      obtain rfl : q = pos := by simpa using hq
      exact hknows.1
    case refine_7 =>
      rintro _ ⟨⟩
      trivial
    all_goals simp [hi, Thread.produces]
  case freeing =>
    cases haccess
    refine ⟨c.moved rfl ?_ (fun _ ↦ Or.inl) (fun _ ↦ Or.inl) ⟨le_rfl, le_rfl⟩
      ?_ ?_ ?_ ?_ ?_ ?_, ?_⟩
    case refine_1 =>
      intro q hq
      by_cases hslot : ring.slot q = ring.slot pos
      · dsimp only [State.goto] at hq
        rw [hslot, Function.update_self] at hq
        rcases ring.eq_or_lap hslot (Nat.add_le_add_iff_right.1 hq) with rfl | hlap
        · exact Or.inr hknows.2.2.1
        · refine Or.inl ?_
          rw [hslot, hknows.2.1]
          omega
      · dsimp only [State.goto] at hq
        rw [Function.update_of_ne hslot] at hq
        exact Or.inl hq
    case refine_8 =>
      rintro _ ⟨⟩
      trivial
    all_goals simp [hi, Thread.produces]

/-- **Each step** keeps track of the calls, and is allowed. -/
theorem Calls.step (c : Calls ring s history) (h : Inv ring s history) {a : Action ι T}
    (hstep : step ring s a = some (t, events)) :
    Calls ring t (history ++ events) ∧ ∀ e, events = [e] → Allowed ring history e := by
  cases a with
  | push i item =>
    rw [RingBuffer.step] at hstep
    rcases hi : s.threads i <;> rw [hi] at hstep
    case idle =>
      cases hstep
      refine ⟨c.moved rfl (fun _ ↦ Or.inl) ?_ (fun _ ↦ Or.inl) ⟨Nat.le_succ _, le_rfl⟩
        ?_ ?_ ?_ ?_ ?_ ?_, ?_⟩
      case refine_1 =>
        intro q hq
        rcases Nat.lt_succ_iff_lt_or_eq.1 hq with hlt | rfl
        · exact Or.inl hlt
        · exact Or.inr rfl
      case refine_8 =>
        rintro _ ⟨⟩
        trivial
      all_goals simp [hi, Thread.produces]
    all_goals exact absurd hstep.symm (Option.some_ne_none _)
  | pop i =>
    rw [RingBuffer.step] at hstep
    rcases hi : s.threads i <;> rw [hi] at hstep
    case idle =>
      cases hstep
      exact ⟨c.quiet (Or.inl rfl) (by simp [hi, Thread.produces]) (by simp [hi]) (by simp [hi]),
        by simp⟩
    all_goals exact absurd hstep.symm (Option.some_ne_none _)
  | next i spurious => exact c.access h hstep

/-- **The run lemma**: every call of a run is where the buffer allows it. -/
theorem calls_of_reachable (hsize : 2 ≤ ring.size) {x : State ι T × List (Event T)}
    (h : (machine ring ι T).Reachable x) :
    Calls ring x.1 x.2 ∧ ∀ before e after, x.2 = before ++ e :: after → Allowed ring before e := by
  refine (h.invariant (I := fun x ↦ Inv ring x.1 x.2 ∧ Calls ring x.1 x.2 ∧
    ∀ before e after, x.2 = before ++ e :: after → Allowed ring before e) ?_ ?_).2
  · rintro x rfl
    exact ⟨inv_initial hsize, calls_initial, fun before e after hsplit ↦
      absurd hsplit.symm (by simp)⟩
  · rintro x a y ⟨hinv, hcalls, hallowed⟩ hstep
    obtain ⟨⟨t, events⟩, hstep', rfl⟩ := Option.map_eq_some_iff.1 hstep
    obtain ⟨hcalls', hnew⟩ := hcalls.step hinv hstep'
    refine ⟨(hinv.step hstep').1, hcalls', ?_⟩
    obtain rfl | ⟨e, rfl, -⟩ := (hinv.step hstep').2
    · exact (List.append_nil x.2).symm ▸ hallowed
    · exact split_concat hallowed (hnew e rfl)

/-! ### A pop on its own -/

@[simp] theorem goto_goto (s : State ι T) (i : ι) (thread thread' : Thread T) :
    (s.goto i thread).goto i thread' = s.goto i thread' := by
  simp [State.goto]

@[simp] theorem goto_threads_self (s : State ι T) (i : ι) (thread : Thread T) :
    (s.goto i thread).threads i = thread :=
  Function.update_self ..

/-- The accesses of one thread while no other moves, until its call returns. -/
def runAlone (ring : Ring) (i : ι) :
    State ι T × List (Event T) → List Bool → State ι T × List (Event T)
  | x, [] => x
  | x, spurious :: rest =>
    match (machine ring ι T).step x (.next i spurious) with
    | some y => runAlone ring i y rest
    | none => x

/-- A call of pop() while no other thread moves. -/
def popAlone (ring : Ring) (x : State ι T × List (Event T)) (i : ι) (spurious : List Bool) :
    State ι T × List (Event T) :=
  match (machine ring ι T).step x (.pop i) with
  | some y => runAlone ring i y spurious
  | none => x

/-- A compare-exchange, which follows a load each time, fails so many times without a reason. -/
def failing (failures : ℕ) : List Bool :=
  (List.replicate failures [false, true]).flatten ++ List.replicate 4 false

theorem failing_succ (failures : ℕ) :
    failing (failures + 1) = false :: true :: failing failures := by
  simp [failing, List.replicate_succ]

/-- The first access of a thread on its own. -/
theorem runAlone_cons {x : State ι T × List (Event T)} {thread : Thread T} {spurious : Bool}
    (hi : x.1.threads i = thread) (h : access ring x.1 i spurious thread = some (t, events))
    (rest : List Bool) :
    runAlone ring i x (spurious :: rest) = runAlone ring i (t, x.2 ++ events) rest := by
  have hstep : (machine ring ι T).step x (.next i spurious) = some (t, x.2 ++ events) := by
    simp [machine, step, hi, h]
  rw [runAlone, hstep]

theorem runAlone_idle {x : State ι T × List (Event T)} (hi : x.1.threads i = .idle)
    (spurious : List Bool) : runAlone ring i x spurious = x := by
  cases spurious with
  | nil => rfl
  | cons b rest =>
    have hstep : (machine ring ι T).step x (.next i b) = none := by
      simp [machine, step, hi, access]
    rw [runAlone, hstep]

/-- A pop() that runs alone begins with the check of its slot. -/
theorem popAlone_of_idle (hi : s.threads i = .idle) (spurious : List Bool) :
    popAlone ring (s, history) i spurious =
      runAlone ring i (s.goto i (.checking s.tail), history) spurious := by
  have hstep : (machine ring ι T).step (s, history) (.pop i) =
      some (s.goto i (.checking s.tail), history ++ []) := by
    simp [machine, step, hi]
  rw [popAlone, hstep, List.append_nil]

/-- Where nothing is published, pop() returns false after its first load. -/
theorem popAlone_empty (hi : s.threads i = .idle)
    (hticket : s.sequence (ring.slot s.tail) ≤ s.tail) (failures : ℕ) :
    popAlone ring (s, history) i (failing failures) = (s.goto i .idle, history ++ [.empty]) := by
  obtain ⟨rest, hrest⟩ : ∃ rest, failing failures = false :: rest := by
    cases failures with
    | zero => exact ⟨_, rfl⟩
    | succ n => exact ⟨_, failing_succ n⟩
  have hload : access ring (s.goto i (.checking s.tail)) i false (.checking s.tail) =
      some (s.goto i .idle, [.empty]) := by
    have hne : (s.sequence (ring.slot s.tail) : ℤ) - (s.tail + 1) ≠ 0 := by omega
    have hlt : (s.sequence (ring.slot s.tail) : ℤ) - (s.tail + 1) < 0 := by omega
    rw [access]
    exact (if_neg hne).trans ((if_pos hlt).trans (by rw [goto_goto]))
  rw [popAlone_of_idle hi, hrest, runAlone_cons (goto_threads_self ..) hload]
  exact runAlone_idle (goto_threads_self ..) rest

/-- Where the item at the tail is published, pop() takes it, however often the exchange fails. -/
theorem popAlone_item (hi : s.threads i = .idle)
    (hticket : s.sequence (ring.slot s.tail) = s.tail + 1) (failures : ℕ) :
    popAlone ring (s, history) i (failing failures) =
      ({ s with
        tail := s.tail + 1
        sequence := Function.update s.sequence (ring.slot s.tail) (s.tail + ring.size) }.goto i
          .idle,
        history ++ [.advanced s.tail, .read s.tail,
          .returned s.tail (s.data (ring.slot s.tail))]) := by
  have hload (b : Bool) : access ring (s.goto i (.checking s.tail)) i b (.checking s.tail) =
      some (s.goto i (.advancing s.tail), []) := by
    have hzero : (s.sequence (ring.slot s.tail) : ℤ) - (s.tail + 1) = 0 := by omega
    rw [access]
    exact (if_pos hzero).trans (by rw [goto_goto])
  rw [popAlone_of_idle hi]
  induction failures with
  | zero =>
    have hexchange : access ring (s.goto i (.advancing s.tail)) i false (.advancing s.tail) =
        some ({ s with tail := s.tail + 1 }.goto i (.reading s.tail), [.advanced s.tail]) := by
      rw [access]
      exact (if_pos ⟨rfl, rfl⟩).trans (by simp [State.goto])
    show runAlone ring i _ [false, false, false, false] = _
    rw [runAlone_cons (goto_threads_self ..) (hload false),
      runAlone_cons (goto_threads_self ..) hexchange,
      runAlone_cons (goto_threads_self ..) rfl, runAlone_cons (goto_threads_self ..) rfl, runAlone]
    simp [State.goto]
  | succ n ih =>
    have hexchange : access ring (s.goto i (.advancing s.tail)) i true (.advancing s.tail) =
        some (s.goto i (.checking s.tail), []) := by
      rw [access]
      exact (if_neg (by simp)).trans (by simp [State.goto])
    rw [failing_succ, runAlone_cons (goto_threads_self ..) (hload false),
      runAlone_cons (goto_threads_self ..) hexchange, List.append_nil, List.append_nil, ih]

/-- **Where the ticket at the tail is too large, pop() does not return.** -/
theorem pop_never_returns (hi : s.threads i = .idle)
    (hticket : s.tail + 1 < s.sequence (ring.slot s.tail)) (spurious : List Bool) :
    (popAlone ring (s, history) i spurious).1.threads i ≠ .idle := by
  have hload (b : Bool) : access ring (s.goto i (.checking s.tail)) i b (.checking s.tail) =
      some (s.goto i .reloading, []) := by
    have hne : (s.sequence (ring.slot s.tail) : ℤ) - (s.tail + 1) ≠ 0 := by omega
    have hge : ¬(s.sequence (ring.slot s.tail) : ℤ) - (s.tail + 1) < 0 := by omega
    rw [access]
    exact (if_neg hne).trans ((if_neg hge).trans (by rw [goto_goto]))
  have hreload (b : Bool) : access ring (s.goto i .reloading) i b .reloading =
      some (s.goto i (.checking s.tail), []) := by
    rw [access, goto_goto]
    rfl
  -- the thread is in one of two places, whatever the compare-exchange would answer
  have hloop : ∀ thread : Thread T, thread = .checking s.tail ∨ thread = .reloading →
      (runAlone ring i (s.goto i thread, history) spurious).1.threads i ≠ .idle := by
    induction spurious with
    | nil =>
      rintro thread (rfl | rfl) <;> rw [runAlone, goto_threads_self] <;> simp
    | cons b rest ih =>
      rintro thread (rfl | rfl)
      · rw [runAlone_cons (goto_threads_self ..) (hload b), List.append_nil]
        exact ih _ (Or.inr rfl)
      · rw [runAlone_cons (goto_threads_self ..) (hreload b), List.append_nil]
        exact ih _ (Or.inl rfl)
  rw [popAlone_of_idle hi]
  exact hloop _ (Or.inl rfl)

/-! ### Which sizes are respected -/

/-- **A buffer that respects its capacity**, in all runs of any threads. -/
structure RespectsCapacity (ring : Ring) (ι T : Type*) [DecidableEq ι] : Prop where
  /-- A push completes only while fewer than `Size` pushed items are unread. -/
  completes : ∀ x, (machine ring ι T).Reachable x → ∀ before pos after,
    x.2 = before ++ .published pos :: after → (unread before).card < ring.size
  /-- No unread item is overwritten. -/
  overwrites : ∀ x, (machine ring ι T).Reachable x → ∀ before pos after,
    x.2 = before ++ .wrote pos :: after → ∀ earlier, .wrote earlier ∈ before →
      ring.slot earlier = ring.slot pos → .read earlier ∈ before
  /-- While no other call is in progress pop() returns the oldest unread item, or false. -/
  pops : ∀ x, (machine ring ι T).Reachable x → (∀ j, x.1.threads j = .idle) →
    ∀ (i : ι) (failures : ℕ), ∃ y, popAlone ring x i (failing failures) = y ∧
      (∀ j, y.1.threads j = .idle) ∧
        (unread x.2 = ∅ ∧ y.2 = x.2 ++ [.empty] ∨
          ∃ pos ∈ unread x.2, (∀ q ∈ unread x.2, pos ≤ q) ∧ ∃ item, .claimed pos item ∈ x.2 ∧
            y.2 = x.2 ++ [.advanced pos, .read pos, .returned pos (some item)])

theorem idle_goto (hidle : ∀ j, s.threads j = .idle) (i j : ι) :
    (s.goto i .idle).threads j = .idle := by
  rcases eq_or_ne j i with rfl | hne
  · exact Function.update_self ..
  · exact (Function.update_of_ne hne ..).trans (hidle j)

omit [DecidableEq ι] in
/-- While no call is in progress the unread items begin at the tail. -/
theorem Calls.tail_of_idle (c : Calls ring s history) (h : Inv ring s history)
    (hidle : ∀ j, s.threads j = .idle) :
    (∀ q ∈ unread history, s.tail ≤ q) ∧
      (s.tail ∈ unread history ∨ unread history = ∅ ∧ s.sequence (ring.slot s.tail) ≤ s.tail) := by
  have hle : ∀ q ∈ unread history, s.tail ≤ q := by
    intro q hq
    by_contra hlt
    rcases c.popping q (Nat.lt_of_not_le hlt) with hread | ⟨j, hj⟩
    · exact (mem_unread.1 hq).2 hread
    · simp [hidle j] at hj
  refine ⟨hle, ?_⟩
  have htail : .read s.tail ∉ history := fun hread ↦ lt_irrefl _ (c.read _ hread)
  by_cases hpushed : .published s.tail ∈ history
  · exact Or.inl (mem_unread.2 ⟨hpushed, htail⟩)
  · refine Or.inr ⟨Finset.eq_empty_of_forall_notMem fun q hq ↦ hpushed ?_, ?_⟩
    · have hlt : s.tail < s.head := (hle q hq).trans_lt (c.pushed q (mem_unread.1 hq).1)
      refine (c.pushing s.tail hlt).resolve_right ?_
      rintro ⟨j, hj⟩
      simp [hidle j, Thread.produces] at hj
    · rw [h.published] at hpushed
      exact Nat.le_of_not_lt hpushed

/-- **From two slots on the capacity is respected.** -/
theorem respectsCapacity_of_two_le (hsize : 2 ≤ ring.size) : RespectsCapacity ring ι T where
  completes x hx before pos after hsplit :=
    (calls_of_reachable hsize hx).2 before (.published pos) after hsplit
  overwrites x hx before pos after hsplit :=
    (calls_of_reachable hsize hx).2 before (.wrote pos) after hsplit
  pops := by
    rintro ⟨s, history⟩ hx hidle i failures
    obtain ⟨hcalls, -⟩ := calls_of_reachable hsize hx
    obtain ⟨hinv, -⟩ := inv_of_reachable hsize hx
    obtain ⟨hle, htail | ⟨hempty, hticket⟩⟩ := hcalls.tail_of_idle hinv hidle
    · have hticket := hcalls.ticket_of_unread hinv htail
      obtain ⟨-, -, item, hdata, hclaimed⟩ := hinv.serves_of_published hticket
      refine ⟨_, popAlone_item (hidle i) hticket failures, idle_goto hidle i,
        Or.inr ⟨s.tail, htail, hle, item, hclaimed, ?_⟩⟩
      rw [hdata]
    · exact ⟨_, popAlone_empty (hidle i) hticket failures, idle_goto hidle i,
        Or.inl ⟨hempty, rfl⟩⟩

/-- What a push whose turn it is leaves. -/
def State.pushed (ring : Ring) (s : State ι T) (i : ι) (item : T) : State ι T :=
  { s with
    head := s.head + 1
    data := Function.update s.data (ring.slot s.head) (some item)
    sequence := Function.update s.sequence (ring.slot s.head) (s.head + 1) }.goto i .idle

/-- A push() that runs alone, when its slot is free. -/
theorem Reachable.pushed (h : (machine ring ι T).Reachable (s, history))
    (hi : s.threads i = .idle) (hturn : s.sequence (ring.slot s.head) = s.head) (item : T) :
    (machine ring ι T).Reachable (s.pushed ring i item,
      history ++ [.claimed s.head item, .wrote s.head, .published s.head]) := by
  have hrun : (machine ring ι T).run (s, history)
      [.push i item, .next i false, .next i false, .next i false] =
        some (s.pushed ring i item,
          history ++ [.claimed s.head item, .wrote s.head, .published s.head]) := by
    simp [Machine.run_cons, machine, step, access, State.goto, State.pushed, hi, hturn]
  exact h.run hrun

/-- **With one slot a second push overwrites the first item.** The consumer then finds the ticket of
a lap that it has not reached. -/
theorem overtaken_of_size_one (hsize : ring.size = 1) (i : ι) (first second : T) :
    ∃ x, (machine ring ι T).Reachable x ∧ (∀ j, x.1.threads j = .idle) ∧
      x.1.tail + 1 < x.1.sequence (ring.slot x.1.tail) ∧
      x.2 = [.claimed 0 first, .wrote 0, .published 0, .claimed 1 second, .wrote 1,
        .published 1] := by
  have hslot (pos : ℕ) : ring.slot pos = 0 := by rw [ring.slot_eq_mod, hsize, Nat.mod_one]
  have hidle : ∀ j, (initial ι T).threads j = .idle := fun _ ↦ rfl
  have hinit : (machine ring ι T).Reachable (initial ι T, []) := Machine.Reachable.init rfl
  have hfirst := Reachable.pushed hinit (hidle i) (hslot 0) first
  have hidle' : ∀ j, ((initial ι T).pushed ring i first).threads j = .idle := idle_goto hidle i
  have hsecond := Reachable.pushed hfirst (hidle' i)
    (by simp [initial, State.pushed, State.goto, hslot]) second
  refine ⟨_, hsecond, idle_goto hidle' i, ?_, rfl⟩
  simp [initial, State.pushed, State.goto, hslot]

/-- A buffer of one slot does not keep its capacity. -/
theorem not_respectsCapacity_of_size_one (hsize : ring.size = 1) [Nonempty ι] [Nonempty T] :
    ¬RespectsCapacity ring ι T := by
  intro h
  obtain ⟨item⟩ := ‹Nonempty T›
  obtain ⟨i⟩ := ‹Nonempty ι›
  obtain ⟨x, hx, -, -, hhistory⟩ := overtaken_of_size_one hsize i item item
  have hlt := h.completes x hx
    [.claimed 0 item, .wrote 0, .published 0, .claimed 1 item, .wrote 1] 1 [] hhistory
  have hunread : unread [Event.claimed 0 item, .wrote 0, .published 0, .claimed 1 item, .wrote 1] =
      {0} := rfl
  rw [hunread, hsize, Finset.card_singleton] at hlt
  exact lt_irrefl 1 hlt

/-- The size is two at least, unless less was asked for. -/
theorem size_create (reqSize : ℕ) :
    2 ≤ reqSize ∧ 2 ≤ (create reqSize).size ∨ reqSize < 2 ∧ (create reqSize).size = 1 := by
  rcases Nat.lt_or_ge reqSize 2 with hlt | hge
  · refine Or.inr ⟨hlt, ?_⟩
    show 2 ^ Nat.clog 2 reqSize = 1
    rw [Nat.clog_of_right_le_one (Nat.lt_succ_iff.1 hlt), Nat.pow_zero]
  · refine Or.inl ⟨hge, ?_⟩
    have hpos : 0 < Nat.clog 2 reqSize := Nat.clog_pos (by decide) hge
    exact Nat.le_self_pow hpos.ne' 2

/-- **Every requested size but 0 and 1 is respected**, by any threads and for any items. -/
theorem respectsCapacity_iff [Nonempty ι] [Nonempty T] (reqSize : ℕ) :
    RespectsCapacity (create reqSize) ι T ↔ 2 ≤ reqSize := by
  rcases size_create reqSize with ⟨hreq, hsize⟩ | ⟨hreq, hsize⟩
  · exact iff_of_true (respectsCapacity_of_two_le hsize) hreq
  · exact iff_of_false (not_respectsCapacity_of_size_one hsize) (Nat.not_le_of_lt hreq)

theorem respectsCapacity_three : RespectsCapacity (create 3) Bool ℕ :=
  (respectsCapacity_iff 3).2 (by decide)

/-- Two pushes into a buffer of one slot complete, and no pop returns after them. -/
theorem one_slot_loses_item : (¬RespectsCapacity (create 1) Unit ℕ) ∧
    ∃ x, (machine (create 1) Unit ℕ).Reachable x ∧
      x.2 = [.claimed 0 10, .wrote 0, .published 0, .claimed 1 20, .wrote 1, .published 1] ∧
      ∀ spurious, (popAlone (create 1) x () spurious).1.threads () ≠ .idle := by
  have hsize : (create 1).size = 1 := ((size_create 1).resolve_left (by decide)).2
  obtain ⟨⟨s, history⟩, hx, hidle, hticket, hhistory⟩ :=
    overtaken_of_size_one hsize () (10 : ℕ) 20
  exact ⟨not_respectsCapacity_of_size_one hsize, (s, history), hx, hhistory,
    pop_never_returns (hidle ()) hticket⟩

end CppGate.RingBuffer
