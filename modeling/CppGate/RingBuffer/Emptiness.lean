import CppGate.RingBuffer.Capacity

/-!
# What empty() means

`RingBuffer::empty` loads the head and the tail, in an order that is up to the compiler, and other
threads push and pop between the two loads. So its answer is about a stretch of time: "empty" says
that everything pushed before the call was taken before it returned, and "not empty" that at some
moment in between an item was pushed and not taken (`empty_answers`). In neither case does it say
anything of what pop() will return: the push at the tail may be in progress.
-/

namespace CppGate.RingBuffer

variable {ι T : Type*} [DecidableEq ι] {ring : Ring}

/-- Which of the two loads comes first. -/
inductive LoadOrder
  | headFirst
  | tailFirst
  deriving DecidableEq, Repr

/-- `empty`, with the state at the first load and the state at the second. -/
def empty (order : LoadOrder) (first second : State ι T) : Bool :=
  match order with
  | .headFirst => first.head == second.tail
  | .tailFirst => first.tail == second.head

/-! ### The two counters -/

/-- What a step does to the counters: they grow, and not both. -/
structure Counts (s t : State ι T) : Prop where
  head : s.head ≤ t.head
  tail : s.tail ≤ t.tail
  apart : s.head < t.head → t.tail = s.tail

omit [DecidableEq ι] in
theorem counts_same {s t : State ι T} (hhead : t.head = s.head) (htail : s.tail ≤ t.tail) :
    Counts s t :=
  ⟨hhead.ge, htail, fun h ↦ absurd h (Nat.not_lt.2 hhead.le)⟩

/-- An access moves head and tail forward only. -/
theorem counts_access {s t : State ι T} {i : ι} {spurious : Bool} {thread : Thread T}
    {events : List (Event T)} (h : access ring s i spurious thread = some (t, events)) :
    Counts s t := by
  cases thread with
  | idle => exact absurd h.symm (Option.some_ne_none _)
  | writing | publishing | reloading | reading | freeing =>
    cases h
    exact counts_same rfl le_rfl
  | waiting pos item =>
    rw [access] at h
    split at h <;> cases h <;> exact counts_same rfl le_rfl
  | checking pos =>
    simp only [access] at h
    split_ifs at h <;> cases h <;> exact counts_same rfl le_rfl
  | advancing pos =>
    simp only [access] at h
    split_ifs at h with hexchange <;> cases h
    · exact counts_same rfl (hexchange.1.trans_le (Nat.le_succ pos))
    · exact counts_same rfl le_rfl

/-- **The step lemma**: head and tail do not go back. -/
theorem counts_step {x y : State ι T × List (Event T)} {a : Action ι T}
    (h : (machine ring ι T).step x a = some y) : Counts x.1 y.1 := by
  obtain ⟨⟨t, events⟩, hstep, rfl⟩ := Option.map_eq_some_iff.1 h
  cases a with
  | push i item =>
    rw [step] at hstep
    split at hstep
    · cases hstep
      exact ⟨Nat.le_succ _, le_rfl, fun _ ↦ rfl⟩
    · exact absurd hstep.symm (Option.some_ne_none _)
  | pop i =>
    rw [step] at hstep
    split at hstep
    · cases hstep
      exact counts_same rfl le_rfl
    · exact absurd hstep.symm (Option.some_ne_none _)
  | next i spurious => exact counts_access hstep

/-- Both counters grow along a run. -/
theorem counts_run {x y : State ι T × List (Event T)} {as : List (Action ι T)}
    (h : (machine ring ι T).run x as = some y) : x.1.head ≤ y.1.head ∧ x.1.tail ≤ y.1.tail := by
  refine Machine.run_invariant
    (I := fun y : State ι T × List (Event T) ↦ x.1.head ≤ y.1.head ∧ x.1.tail ≤ y.1.tail)
    (fun z a w hz hstep ↦ ?_) as ⟨le_rfl, le_rfl⟩ h
  have hcounts := counts_step hstep
  exact ⟨hz.1.trans hcounts.head, hz.2.trans hcounts.tail⟩

/-- The tail does not pass the head. -/
theorem tail_le_head (hsize : 2 ≤ ring.size) {x : State ι T × List (Event T)}
    (h : (machine ring ι T).Reachable x) : x.1.tail ≤ x.1.head := by
  obtain ⟨hcalls, -⟩ := calls_of_reachable hsize h
  obtain ⟨hinv, -⟩ := inv_of_reachable hsize h
  by_contra hlt
  have hpublished := (hinv.published x.1.head).2 (hinv.lt_sequence (Nat.lt_of_not_le hlt))
  exact lt_irrefl _ (hcalls.pushed _ hpublished)

/-! ### Items at the counters -/

omit [DecidableEq ι] in
/-- The positions that were claimed are those before the head. -/
theorem claimed_iff {s : State ι T} {history : List (Event T)} (h : Inv ring s history) (pos : ℕ) :
    (∃ item, .claimed pos item ∈ history) ↔ pos < s.head := by
  rw [← List.mem_range, ← h.claimed, List.mem_map]
  constructor
  · rintro ⟨item, hmem⟩
    exact ⟨(pos, item), List.mem_filterMap.2 ⟨_, hmem, rfl⟩, rfl⟩
  · rintro ⟨⟨pos', item⟩, hmem, rfl⟩
    obtain ⟨e, he, heq⟩ := List.mem_filterMap.1 hmem
    refine ⟨item, ?_⟩
    cases e with
    | claimed p v =>
      obtain ⟨rfl, rfl⟩ := Prod.mk.inj (Option.some.inj heq)
      exact he
    | _ => exact absurd heq nofun

omit [DecidableEq ι] in
theorem advanced_iff {s : State ι T} {history : List (Event T)} (h : Inv ring s history)
    (pos : ℕ) : .advanced pos ∈ history ↔ pos < s.tail := by
  rw [← List.mem_range, ← h.advanced]
  constructor
  · exact fun hmem ↦ List.mem_filterMap.2 ⟨_, hmem, rfl⟩
  · intro hmem
    obtain ⟨e, he, heq⟩ := List.mem_filterMap.1 hmem
    cases e with
    | advanced p =>
      obtain rfl := Option.some.inj heq
      exact he
    | _ => exact absurd heq nofun

/-- An item that was pushed and not taken. -/
def Holds (history : List (Event T)) : Prop :=
  ∃ pos item, .claimed pos item ∈ history ∧ .advanced pos ∉ history

omit [DecidableEq ι] in
/-- Where the tail is behind the head, an item was pushed and not taken. -/
theorem holds_of_lt {s : State ι T} {history : List (Event T)} (h : Inv ring s history)
    (hlt : s.tail < s.head) : Holds history := by
  obtain ⟨item, hclaimed⟩ := (claimed_iff h s.tail).2 hlt
  exact ⟨s.tail, item, hclaimed, fun hadvanced ↦ lt_irrefl _ ((advanced_iff h _).1 hadvanced)⟩

/-- If something is pushed along a run, there is a moment at which it is not taken. -/
theorem holds_of_head_lt (hsize : 2 ≤ ring.size) {x y : State ι T × List (Event T)}
    (hx : (machine ring ι T).Reachable x) (as : List (Action ι T))
    (hrun : (machine ring ι T).run x as = some y) (hlt : x.1.head < y.1.head) :
    ∃ before z, before <+: as ∧ (machine ring ι T).run x before = some z ∧ Holds z.2 := by
  induction as generalizing x with
  | nil =>
    obtain rfl := Option.some.inj hrun
    exact absurd hlt (lt_irrefl _)
  | cons a as ih =>
    rw [Machine.run_cons] at hrun
    obtain ⟨w, hw, hrest⟩ := Option.bind_eq_some_iff.1 hrun
    have hreach := hx.step hw
    have hcounts := counts_step hw
    rcases hcounts.head.eq_or_lt with hsame | hnext
    · obtain ⟨before, z, hprefix, hz, hholds⟩ := ih hreach hrest (hsame ▸ hlt)
      refine ⟨a :: before, z, List.cons_prefix_cons.2 ⟨rfl, hprefix⟩, ?_, hholds⟩
      rw [Machine.run_cons, hw, Option.bind_some, hz]
    · refine ⟨[a], w, List.cons_prefix_cons.2 ⟨rfl, List.nil_prefix⟩, ?_, ?_⟩
      · rw [Machine.run_cons, hw]
        rfl
      · refine holds_of_lt (inv_of_reachable hsize hreach).1 ?_
        rw [hcounts.apart hnext]
        exact (tail_le_head hsize hx).trans_lt hnext

/-- **What empty() means.** In either order of the loads, with anything in between: if it returns
true, everything that was pushed when it was called was taken when it returned; if it returns
false, there was a moment in between at which an item was pushed and not taken. -/
theorem empty_answers (hsize : 2 ≤ ring.size) {x y : State ι T × List (Event T)}
    (hx : (machine ring ι T).Reachable x) {as : List (Action ι T)}
    (hrun : (machine ring ι T).run x as = some y) (order : LoadOrder) :
    (empty order x.1 y.1 = true →
      ∀ pos item, .claimed pos item ∈ x.2 → .advanced pos ∈ y.2) ∧
    (empty order x.1 y.1 = false →
      ∃ before z, before <+: as ∧ (machine ring ι T).run x before = some z ∧ Holds z.2) := by
  have hinv := (inv_of_reachable hsize hx).1
  have hinv' := (inv_of_reachable hsize (hx.run hrun)).1
  have hle := tail_le_head hsize hx
  have hle' := tail_le_head hsize (hx.run hrun)
  obtain ⟨hhead, htail⟩ := counts_run hrun
  have hnow (hlt : x.1.tail < x.1.head) :
      ∃ before z, before <+: as ∧ (machine ring ι T).run x before = some z ∧ Holds z.2 :=
    ⟨[], x, List.nil_prefix, rfl, holds_of_lt hinv hlt⟩
  cases order with
  | headFirst =>
    refine ⟨fun hempty pos item hclaimed ↦ (advanced_iff hinv' pos).2 ?_, fun hempty ↦ ?_⟩
    · have heq : x.1.head = y.1.tail := beq_iff_eq.1 hempty
      exact heq ▸ (claimed_iff hinv pos).1 ⟨item, hclaimed⟩
    · have hne : x.1.head ≠ y.1.tail := beq_eq_false_iff_ne.1 hempty
      rcases hle.lt_or_eq with hlt | heq
      · exact hnow hlt
      · exact holds_of_head_lt hsize hx as hrun (by omega)
  | tailFirst =>
    refine ⟨fun hempty pos item hclaimed ↦ (advanced_iff hinv' pos).2 ?_, fun hempty ↦ ?_⟩
    · have heq : x.1.tail = y.1.head := beq_iff_eq.1 hempty
      have hpos := (claimed_iff hinv pos).1 ⟨item, hclaimed⟩
      omega
    · have hne : x.1.tail ≠ y.1.head := beq_eq_false_iff_ne.1 hempty
      rcases hle.lt_or_eq with hlt | heq
      · exact hnow hlt
      · exact holds_of_head_lt hsize hx as hrun (by omega)

/-- A push and a pop between the loads: the head is 0 and the tail 1, so the buffer is not empty,
which it is both before and after. -/
def betweenLoads : List (Action Bool ℕ) :=
  [.push true 10, .next true false, .next true false, .next true false,
    .pop false, .next false false, .next false false, .next false false, .next false false]

theorem empty_answers_betweenLoads :
    ∃ y, (machine ⟨2, 1, rfl⟩ Bool ℕ).run (initial Bool ℕ, []) betweenLoads = some y ∧
      empty .headFirst (initial Bool ℕ) y.1 = false ∧
        ∃ before z, before <+: betweenLoads ∧
          (machine ⟨2, 1, rfl⟩ Bool ℕ).run (initial Bool ℕ, []) before = some z ∧ Holds z.2 := by
  have hinit : (machine ⟨2, 1, rfl⟩ Bool ℕ).Reachable (initial Bool ℕ, []) := .init rfl
  obtain ⟨y, hrun, hnot⟩ : ∃ y,
      (machine ⟨2, 1, rfl⟩ Bool ℕ).run (initial Bool ℕ, []) betweenLoads = some y ∧
        empty .headFirst (initial Bool ℕ) y.1 = false := ⟨_, rfl, rfl⟩
  exact ⟨y, hrun, hnot, (empty_answers le_rfl hinit hrun .headFirst).2 hnot⟩

end CppGate.RingBuffer
