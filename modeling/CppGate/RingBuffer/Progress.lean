import CppGate.RingBuffer.Capacity
import Mathlib.Order.Interval.Finset.Nat

/-!
# Push and pop do not deadlock

A push() that has claimed its position waits until the ticket of its slot is that position. What it
waits for belongs to an earlier lap of the slot: a push() in progress, an item that was pushed and
not taken, or a pop() in progress (`waits_for`). So if all calls in progress wait, the buffer is
full, and the next pop() gives the push that has waited longest its turn (`stuck_is_full`).

This takes two facts about the tickets beside `Inv` and `Calls`: nobody overtakes a push() that
waits, and a position that was popped is freed by its own pop() (`Turns`).
-/

namespace CppGate.RingBuffer

variable {ι T : Type*} {ring : Ring}

/-! ### Turns -/

/-- The position whose turn a thread waits for. -/
def Thread.waits : Thread T → Option ℕ
  | .waiting pos _ => some pos
  | _ => none

/-- A thread waits and its turn has not come: its next access changes nothing. -/
def Spins (ring : Ring) (s : State ι T) (i : ι) : Prop :=
  ∃ pos, (s.threads i).waits = some pos ∧ s.sequence (ring.slot pos) ≠ pos

/-- What is known of the tickets that threads wait for. -/
structure Turns (ring : Ring) (s : State ι T) : Prop where
  /-- A push() that waits has not been overtaken. -/
  behind : ∀ i pos, (s.threads i).waits = some pos → s.sequence (ring.slot pos) ≤ pos
  /-- A position that was popped is free for the next lap, or its pop() is in progress. -/
  freed : ∀ pos < s.tail,
    pos + ring.size ≤ s.sequence (ring.slot pos) ∨ InProgress Thread.consumes s.threads pos

variable {s t : State ι T} {history events : List (Event T)} {i : ι} {thread : Thread T}

/-- Who waits for its turn is to produce. -/
theorem produces_of_waits {pos : ℕ} (h : thread.waits = some pos) : thread.produces = some pos := by
  cases thread with
  | waiting p item => exact h
  | _ => exact absurd h.symm (Option.some_ne_none pos)

theorem turns_initial : Turns ring (initial ι T) :=
  ⟨fun _ pos h ↦ absurd h.symm (Option.some_ne_none pos),
    fun pos hpos ↦ absurd hpos (Nat.not_lt_zero pos)⟩

variable [DecidableEq ι]

/-- A step of thread `i`, by what it changes. -/
theorem Turns.moved (h : Turns ring s) (hthreads : t.threads = Function.update s.threads i thread)
    (hsequence : ∀ q, s.sequence q ≤ t.sequence q)
    (hthread : ∀ pos, thread.waits = some pos → t.sequence (ring.slot pos) ≤ pos)
    (hothers : ∀ j pos, j ≠ i → (s.threads j).waits = some pos → t.sequence (ring.slot pos) ≤ pos)
    (htail : ∀ pos < t.tail, pos < s.tail ∨ thread.consumes = some pos)
    (hconsumes : ∀ pos, (s.threads i).consumes = some pos →
      pos + ring.size ≤ t.sequence (ring.slot pos) ∨ thread.consumes = some pos) :
    Turns ring t where
  behind j pos hj := by
    rw [hthreads] at hj
    rcases eq_or_ne j i with rfl | hne
    · rw [Function.update_self] at hj
      exact hthread pos hj
    · rw [Function.update_of_ne hne] at hj
      exact hothers j pos hne hj
  freed pos hpos := by
    have hself (hnew : thread.consumes = some pos) : InProgress Thread.consumes t.threads pos :=
      ⟨i, by rw [hthreads, Function.update_self]; exact hnew⟩
    rcases htail pos hpos with hold | hnew
    · rcases h.freed pos hold with hfree | ⟨j, hj⟩
      · exact Or.inl (hfree.trans (hsequence _))
      · rcases eq_or_ne j i with rfl | hne
        · exact (hconsumes pos hj).imp_right hself
        · exact Or.inr ⟨j, by rw [hthreads, Function.update_of_ne hne]; exact hj⟩
    · exact Or.inr (hself hnew)

/-- A step that leaves the tickets and the tail alone. -/
theorem Turns.quiet (h : Turns ring s) (hthreads : t.threads = Function.update s.threads i thread)
    (hsequence : t.sequence = s.sequence) (htail : t.tail = s.tail)
    (hthread : thread.waits = none) (hconsumes : thread.consumes = (s.threads i).consumes) :
    Turns ring t :=
  h.moved hthreads (fun q ↦ (congrFun hsequence q).ge)
    (fun pos hw ↦ absurd (hw.symm.trans hthread) (Option.some_ne_none pos))
    (fun j pos _ hj ↦ (congrFun hsequence _).trans_le (h.behind j pos hj))
    (fun _ hpos ↦ Or.inl (htail ▸ hpos)) fun _ hpos ↦ Or.inr (hconsumes.trans hpos)

/-- A thread that holds a slot gives it the next ticket. -/
theorem Turns.signal (h : Turns ring s) {pos ticket : ℕ}
    (hholds : (s.threads i).holds = some pos) (hnext : s.sequence (ring.slot pos) ≤ ticket)
    (hothers : ∀ j q, j ≠ i → (s.threads j).waits = some q → ring.slot q = ring.slot pos →
      ticket ≤ q)
    (hconsumes : ∀ q, (s.threads i).consumes = some q → q = pos ∧ q + ring.size ≤ ticket) :
    Turns ring
      ({ s with sequence := Function.update s.sequence (ring.slot pos) ticket }.goto i .idle) := by
  refine h.moved rfl (le_update_self_iff.2 hnext)
    (fun q hq ↦ absurd hq.symm (Option.some_ne_none q)) (fun j q hne hj ↦ ?_) (fun _ ↦ Or.inl)
    fun q hq ↦ Or.inl ?_
  · show Function.update s.sequence (ring.slot pos) ticket (ring.slot q) ≤ q
    by_cases hslot : ring.slot q = ring.slot pos
    · rw [hslot, Function.update_self]
      exact hothers j q hne hj hslot
    · rw [Function.update_of_ne hslot]
      exact h.behind j q hj
  · obtain ⟨rfl, hle⟩ := hconsumes q hq
    show q + ring.size ≤ Function.update s.sequence (ring.slot q) ticket (ring.slot q)
    rw [Function.update_self]
    exact hle

/-- Each access keeps track of the turns. -/
theorem Turns.access (h : Turns ring s) (hinv : Inv ring s history) {spurious : Bool}
    (haccess : access ring s i spurious (s.threads i) = some (t, events)) : Turns ring t := by
  have hknows := hinv.knows i
  cases hi : s.threads i with
  | idle =>
    rw [hi] at haccess
    exact absurd haccess.symm (Option.some_ne_none _)
  | waiting pos item =>
    rw [hi, RingBuffer.access] at haccess
    split at haccess <;> cases haccess
    · exact h.quiet rfl rfl rfl rfl (by rw [hi]; rfl)
    · exact h
  | writing pos item =>
    rw [hi] at haccess
    cases haccess
    exact h.quiet rfl rfl rfl rfl (by rw [hi]; rfl)
  | publishing pos =>
    rw [hi] at haccess hknows
    cases haccess
    have hticket : s.sequence (ring.slot pos) = pos := hknows.2.1
    refine h.signal (by rw [hi]; rfl) (hticket.trans_le (Nat.le_succ pos))
      (fun j q hne hj hslot ↦ ?_) fun q hq ↦ ?_
    · have hle := h.behind j q hj
      rw [hslot, hticket] at hle
      refine lt_of_le_of_ne hle fun heq ↦ hne ?_
      exact hinv.producers j i q (produces_of_waits hj) (by rw [hi, heq]; rfl)
    · rw [hi] at hq
      exact absurd hq.symm (Option.some_ne_none q)
  | checking pos =>
    rw [hi] at haccess
    simp only [RingBuffer.access] at haccess
    split_ifs at haccess <;> cases haccess <;>
      exact h.quiet rfl rfl rfl rfl (by rw [hi]; rfl)
  | advancing pos =>
    rw [hi] at haccess
    simp only [RingBuffer.access] at haccess
    split_ifs at haccess with hexchange <;> cases haccess
    · refine h.moved rfl (fun _ ↦ le_rfl) (fun q hq ↦ absurd hq.symm (Option.some_ne_none q))
        (fun j q _ hj ↦ h.behind j q hj) (fun q hq ↦ ?_) fun q hq ↦ ?_
      · rcases Nat.lt_succ_iff_lt_or_eq.1 hq with hlt | rfl
        · exact Or.inl (hlt.trans_eq hexchange.1.symm)
        · exact Or.inr rfl
      · rw [hi] at hq
        exact absurd hq.symm (Option.some_ne_none q)
    · exact h.quiet rfl rfl rfl rfl (by rw [hi]; rfl)
  | reloading =>
    rw [hi] at haccess
    cases haccess
    exact h.quiet rfl rfl rfl rfl (by rw [hi]; rfl)
  | reading pos =>
    rw [hi] at haccess
    cases haccess
    exact h.quiet rfl rfl rfl rfl (by rw [hi]; rfl)
  | freeing pos out =>
    rw [hi] at haccess hknows
    cases haccess
    have hticket : s.sequence (ring.slot pos) = pos + 1 := hknows.2.1
    have hsize := ring.size_pos
    refine h.signal (by rw [hi]; rfl) (hticket.trans_le (Nat.add_le_add_left hsize pos))
      (fun j q _ hj hslot ↦ ?_) fun q hq ↦ ?_
    · have hle := h.behind j q hj
      rw [hslot, hticket] at hle
      rcases ring.eq_or_lap hslot.symm (Nat.le_of_succ_le hle) with rfl | hlap
      · exact absurd hle (Nat.not_succ_le_self pos)
      · exact hlap
    · rw [hi] at hq
      obtain rfl := Option.some.inj hq
      exact ⟨rfl, le_rfl⟩

/-- **The step lemma**: no push() that waits is overtaken. -/
theorem Turns.step (h : Turns ring s) (hinv : Inv ring s history) (c : Calls ring s history)
    {a : Action ι T} (hstep : step ring s a = some (t, events)) : Turns ring t := by
  cases a with
  | push i item =>
    rw [RingBuffer.step] at hstep
    split at hstep
    · next hi =>
      cases hstep
      refine h.moved rfl (fun _ ↦ le_rfl) (fun pos hthread ↦ ?_)
        (fun j q _ hj ↦ h.behind j q hj) (fun _ ↦ Or.inl) fun q hq ↦ ?_
      · obtain rfl := Option.some.inj hthread
        by_contra hlt
        exact lt_irrefl _ (c.pushed s.head ((hinv.published s.head).2 (Nat.lt_of_not_le hlt)))
      · rw [hi] at hq
        exact absurd hq.symm (Option.some_ne_none q)
    · exact absurd hstep.symm (Option.some_ne_none _)
  | pop i =>
    rw [RingBuffer.step] at hstep
    split at hstep
    · next hi =>
      cases hstep
      exact h.quiet rfl rfl rfl rfl (by rw [hi]; rfl)
    · exact absurd hstep.symm (Option.some_ne_none _)
  | next i spurious => exact h.access hinv hstep

/-- **The run lemma.** -/
theorem turns_of_reachable (hsize : 2 ≤ ring.size) {x : State ι T × List (Event T)}
    (h : (machine ring ι T).Reachable x) : Turns ring x.1 := by
  refine (h.invariant (I := fun x ↦ (machine ring ι T).Reachable x ∧ Turns ring x.1) ?_ ?_).2
  · rintro x rfl
    exact ⟨.init rfl, turns_initial⟩
  · rintro x a y ⟨hx, hturns⟩ hstep
    obtain ⟨⟨t, events⟩, hstep', rfl⟩ := Option.map_eq_some_iff.1 hstep
    exact ⟨hx.step hstep, hturns.step (inv_of_reachable hsize hx).1
      (calls_of_reachable hsize hx).1 hstep'⟩

/-! ### What a push waits for -/

omit [DecidableEq ι] in
/-- **What a push() waits for**: a call in progress, or an item that nobody has taken, a lap of its
slot or more before its own position. -/
theorem waits_for (h : Inv ring s history) (c : Calls ring s history) (hturns : Turns ring s)
    {pos : ℕ} (hwaits : (s.threads i).waits = some pos) (hturn : s.sequence (ring.slot pos) ≠ pos) :
    ∃ earlier, earlier + ring.size ≤ pos ∧
      (InProgress Thread.produces s.threads earlier ∨
        s.sequence (ring.slot earlier) = earlier + 1 ∧ s.tail ≤ earlier ∨
        InProgress Thread.consumes s.threads earlier) := by
  have hlt := lt_of_le_of_ne (hturns.behind i pos hwaits) hturn
  have hpos := (h.knows i).produces_lt (produces_of_waits hwaits)
  obtain ⟨p, hslot, hserves⟩ := h.serves _ (ring.slot_lt pos)
  rw [← hslot] at hlt
  cases hserves with
  | free hticket =>
    rw [hticket] at hlt
    refine ⟨p, (ring.eq_or_lap hslot hlt.le).resolve_left hlt.ne, Or.inl ?_⟩
    refine (c.pushing p (hlt.trans hpos)).resolve_left fun hpublished ↦ ?_
    exact absurd ((h.published p).1 hpublished) (Nat.not_lt.2 hticket.le)
  | full hticket =>
    rw [hticket] at hlt
    have hlap : p + ring.size ≤ pos := (ring.eq_or_lap hslot (by omega)).resolve_left (by omega)
    refine ⟨p, hlap, Or.inr ?_⟩
    rcases Nat.lt_or_ge p s.tail with htaken | hleft
    · refine Or.inr ((hturns.freed p htaken).resolve_left fun hfreed ↦ ?_)
      have hsize := h.size
      omega
    · exact Or.inl ⟨hticket, hleft⟩

/-! ### Where every call waits -/

/-- Every call in progress waits. -/
def Stuck (ring : Ring) (s : State ι T) : Prop :=
  ∀ i, s.threads i = .idle ∨ Spins ring s i

omit [DecidableEq ι] in
/-- In a stuck buffer no pop() is under way. -/
theorem Stuck.not_consuming (hstuck : Stuck ring s) (pos : ℕ) :
    ¬InProgress Thread.consumes s.threads pos := by
  rintro ⟨i, hi⟩
  rcases hstuck i with hidle | ⟨q, hwaits, -⟩
  · rw [hidle] at hi
    exact absurd hi.symm (Option.some_ne_none pos)
  · cases hthread : s.threads i <;> rw [hthread] at hi hwaits
    case reading | freeing => exact absurd hwaits.symm (Option.some_ne_none q)
    all_goals exact absurd hi.symm (Option.some_ne_none pos)

omit [DecidableEq ι] in
theorem Stuck.not_reading (hstuck : Stuck ring s) (pos : ℕ) :
    ¬InProgress Thread.reads s.threads pos := by
  rintro ⟨i, hi⟩
  refine hstuck.not_consuming pos ⟨i, ?_⟩
  cases hthread : s.threads i <;> rw [hthread] at hi
  case reading => exact hi
  all_goals exact absurd hi.symm (Option.some_ne_none pos)

omit [DecidableEq ι] in
/-- A push() in progress waits, and its turn has not come. -/
theorem Stuck.spins (hstuck : Stuck ring s) {pos : ℕ}
    (hpushing : InProgress Thread.produces s.threads pos) :
    ∃ i, (s.threads i).waits = some pos ∧ s.sequence (ring.slot pos) ≠ pos := by
  obtain ⟨i, hi⟩ := hpushing
  rcases hstuck i with hidle | ⟨q, hwaits, hturn⟩
  · rw [hidle] at hi
    exact absurd hi.symm (Option.some_ne_none pos)
  · obtain rfl := Option.some.inj ((produces_of_waits hwaits).symm.trans hi)
    exact ⟨i, hwaits, hturn⟩

omit [DecidableEq ι] in
/-- Where every call waits, each slot whose position was claimed holds an item that nobody has
taken. -/
theorem Stuck.full (hstuck : Stuck ring s) (h : Inv ring s history) (c : Calls ring s history)
    (hturns : Turns ring s) {pos : ℕ} (htail : s.tail ≤ pos) (hlap : pos < s.tail + ring.size)
    (hhead : pos < s.head) : s.sequence (ring.slot pos) = pos + 1 := by
  obtain ⟨p, hslot, hserves⟩ := h.serves _ (ring.slot_lt pos)
  have hsize := h.size
  cases hserves with
  | free hticket hle hlt =>
    have heq : p = pos := by
      rcases Nat.le_total p pos with hpq | hpq
      · exact (ring.eq_or_lap hslot hpq).resolve_right (by omega)
      · exact ((ring.eq_or_lap hslot.symm hpq).resolve_right (by omega)).symm
    subst heq
    have hpushing := (c.pushing p hhead).resolve_left fun hpublished ↦
      absurd ((h.published p).1 hpublished) (Nat.not_lt.2 hticket.le)
    obtain ⟨i, -, hturn⟩ := hstuck.spins hpushing
    exact absurd hticket hturn
  | full hticket hlt =>
    have hle : s.tail ≤ p := by
      by_contra htaken
      rcases hturns.freed p (Nat.lt_of_not_le htaken) with hfreed | hconsuming
      · omega
      · exact hstuck.not_consuming p hconsuming
    have heq : p = pos := by
      rcases Nat.le_total p pos with hpq | hpq
      · exact (ring.eq_or_lap hslot hpq).resolve_right (by omega)
      · exact ((ring.eq_or_lap hslot.symm hpq).resolve_right (by omega)).symm
    subst heq
    exact hticket

omit [DecidableEq ι] in
/-- Where every call waits, those that wait are a lap ahead of the tail. -/
theorem Stuck.lap (hstuck : Stuck ring s) (h : Inv ring s history) (c : Calls ring s history)
    (hturns : Turns ring s) {pos : ℕ} (hwaits : (s.threads i).waits = some pos)
    (hturn : s.sequence (ring.slot pos) ≠ pos) : s.tail + ring.size ≤ pos := by
  induction pos using Nat.strong_induction_on generalizing i with
  | _ pos ih =>
    obtain ⟨earlier, hlap, hpushing | ⟨-, hleft⟩ | hconsuming⟩ := waits_for h c hturns hwaits hturn
    · -- it waits for a push() that waits itself
      obtain ⟨j, hwaits', hturn'⟩ := hstuck.spins hpushing
      have hsize := h.size
      exact (ih earlier (by omega) hwaits' hturn').trans (by omega)
    · omega
    · exact absurd hconsuming (hstuck.not_consuming earlier)

omit [DecidableEq ι] in
/-- Where every call waits and one does, the unread items fill the buffer. -/
theorem Stuck.unread_eq (hstuck : Stuck ring s) (h : Inv ring s history) (c : Calls ring s history)
    (hturns : Turns ring s) (hhead : s.tail + ring.size ≤ s.head) :
    unread history = Finset.Ico s.tail (s.tail + ring.size) := by
  ext pos
  rw [Finset.mem_Ico]
  constructor
  · intro hunread
    refine ⟨?_, (h.serves_of_published (c.ticket_of_unread h hunread)).1⟩
    by_contra htaken
    rcases c.popping pos (Nat.lt_of_not_le htaken) with hread | hreading
    · exact (mem_unread.1 hunread).2 hread
    · exact hstuck.not_reading pos hreading
  · rintro ⟨htail, hlap⟩
    have hticket := hstuck.full h c hturns htail hlap (hlap.trans_le hhead)
    refine mem_unread.2 ⟨(h.published pos).2 (hticket ▸ Nat.lt_succ_self pos), fun hread ↦ ?_⟩
    exact absurd (c.read pos hread) (Nat.not_lt.2 htail)

omit [DecidableEq ι] in
/-- Where every call waits and one does, the push() of the next lap is among them. -/
theorem Stuck.next (hstuck : Stuck ring s) (h : Inv ring s history) (c : Calls ring s history)
    (hturns : Turns ring s) (hhead : s.tail + ring.size < s.head) :
    ∃ j, Spins ring s j ∧ (s.threads j).waits = some (s.tail + ring.size) := by
  have hpushing : InProgress Thread.produces s.threads (s.tail + ring.size) := by
    refine (c.pushing _ hhead).resolve_left fun hpublished ↦ ?_
    have hunread : s.tail + ring.size ∈ unread history := by
      refine mem_unread.2 ⟨hpublished, fun hread ↦ ?_⟩
      exact absurd (c.read _ hread) (Nat.not_lt.2 (Nat.le_add_right _ _))
    rw [hstuck.unread_eq h c hturns hhead.le, Finset.mem_Ico] at hunread
    exact lt_irrefl _ hunread.2
  obtain ⟨j, hwaits, hturn⟩ := hstuck.spins hpushing
  exact ⟨j, ⟨_, hwaits, hturn⟩, hwaits⟩

/-- **Push and pop do not deadlock.** If all calls in progress wait for their turn, the buffer is
full: its slots hold the items from the tail on. Then a pop() takes the item at the tail, however
often its exchange fails, and the push() that has waited longest has its turn. -/
theorem stuck_is_full (hsize : 2 ≤ ring.size) {x : State ι T × List (Event T)}
    (h : (machine ring ι T).Reachable x) (hstuck : Stuck ring x.1) (hbusy : ∃ i, Spins ring x.1 i) :
    unread x.2 = Finset.Ico x.1.tail (x.1.tail + ring.size) ∧
      ∀ i, x.1.threads i = .idle → ∀ failures, ∃ y item j,
        popAlone ring x i (failing failures) = y ∧ y.1.threads i = .idle ∧
          y.2 = x.2 ++ [.advanced x.1.tail, .read x.1.tail, .returned x.1.tail (some item)] ∧
          Spins ring x.1 j ∧ (y.1.threads j).waits = some (x.1.tail + ring.size) ∧
          y.1.sequence (ring.slot (x.1.tail + ring.size)) = x.1.tail + ring.size := by
  obtain ⟨s, history⟩ := x
  have hinv := (inv_of_reachable hsize h).1
  have hcalls := (calls_of_reachable hsize h).1
  have hturns := turns_of_reachable hsize h
  have hhead : s.tail + ring.size < s.head := by
    obtain ⟨i, pos, hwaits, hturn⟩ := hbusy
    exact (hstuck.lap hinv hcalls hturns hwaits hturn).trans_lt
      ((hinv.knows i).produces_lt (produces_of_waits hwaits))
  refine ⟨hstuck.unread_eq hinv hcalls hturns hhead.le, fun i hi failures ↦ ?_⟩
  have hticket : s.sequence (ring.slot s.tail) = s.tail + 1 :=
    hstuck.full hinv hcalls hturns le_rfl (Nat.lt_add_of_pos_right ring.size_pos)
      ((Nat.le_add_right _ _).trans_lt hhead)
  obtain ⟨-, -, item, hdata, -⟩ := hinv.serves_of_published hticket
  obtain ⟨j, hspins, hwaits⟩ := hstuck.next hinv hcalls hturns hhead
  have hne : j ≠ i := by
    rintro rfl
    rw [hi] at hwaits
    exact absurd hwaits.symm (Option.some_ne_none _)
  refine ⟨_, item, j, popAlone_item hi hticket failures, goto_threads_self .., ?_, hspins, ?_, ?_⟩
  · rw [hdata]
  · exact (congrArg Thread.waits (Function.update_of_ne hne ..)).trans hwaits
  · show Function.update s.sequence (ring.slot s.tail) (s.tail + ring.size)
      (ring.slot (s.tail + ring.size)) = _
    rw [ring.slot_add_size, Function.update_self]

/-- Two items fill a buffer of size 2, and a third push waits. -/
def overfills : List (Action Bool ℕ) :=
  [.push true 10, .next true false, .next true false, .next true false,
    .push true 20, .next true false, .next true false, .next true false,
    .push true 30, .next true false]

theorem stuck_is_full_overfills :
    ∃ x, (machine ⟨2, 1, rfl⟩ Bool ℕ).run (initial Bool ℕ, []) overfills = some x ∧
      unread x.2 = Finset.Ico 0 2 ∧
        ∃ y item j, popAlone ⟨2, 1, rfl⟩ x false (failing 3) = y ∧ y.1.threads false = .idle ∧
          y.2 = x.2 ++ [.advanced 0, .read 0, .returned 0 (some item)] ∧
          Spins ⟨2, 1, rfl⟩ x.1 j ∧ (y.1.threads j).waits = some 2 ∧
          y.1.sequence (Ring.slot ⟨2, 1, rfl⟩ 2) = 2 := by
  have hinit : (machine ⟨2, 1, rfl⟩ Bool ℕ).Reachable (initial Bool ℕ, []) := .init rfl
  obtain ⟨x, hrun, hidle, hwaits, hturn, htail⟩ : ∃ x,
      (machine ⟨2, 1, rfl⟩ Bool ℕ).run (initial Bool ℕ, []) overfills = some x ∧
        x.1.threads false = .idle ∧ (x.1.threads true).waits = some 2 ∧
        x.1.sequence (Ring.slot ⟨2, 1, rfl⟩ 2) = 1 ∧ x.1.tail = 0 := ⟨_, rfl, rfl, rfl, rfl, rfl⟩
  have hspins : Spins ⟨2, 1, rfl⟩ x.1 true := ⟨2, hwaits, by rw [hturn]; decide⟩
  have hstuck : Stuck ⟨2, 1, rfl⟩ x.1 := by
    rintro (- | -)
    · exact Or.inl hidle
    · exact Or.inr hspins
  have hfull := stuck_is_full le_rfl (hinit.run hrun) hstuck ⟨true, hspins⟩
  rw [htail] at hfull
  exact ⟨x, hrun, hfull.1, hfull.2 false hidle 3⟩

end CppGate.RingBuffer
