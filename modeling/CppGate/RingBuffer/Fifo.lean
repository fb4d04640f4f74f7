import CppGate.RingBuffer.RingBuffer
import Mathlib.Data.List.Nodup
import Mathlib.Data.List.Range

/-!
# The ring buffer is a FIFO that loses and duplicates nothing

The sequence number of a slot is a ticket: the position whose turn it is to be written there, or the
next number once that position is published. So each slot serves one position at a time, on one lap
(`Serves`), and no position gets there before the one a lap earlier was read. A thread that holds a
slot is the only one that can change its ticket: positions are claimed one by one, by the fetch-and-
add of the head and the compare-exchange of the tail.
-/

namespace CppGate.RingBuffer

variable {ι T : Type*} {ring : Ring}

/-! ### Histories -/

/-- The claimed positions and their items. -/
def claims (history : List (Event T)) : List (ℕ × T) :=
  history.filterMap fun
    | .claimed pos item => some (pos, item)
    | _ => none

/-- The positions that the tail was advanced from. -/
def advances (history : List (Event T)) : List ℕ :=
  history.filterMap fun
    | .advanced pos => some pos
    | _ => none

/-- The positions whose pop() returned. -/
def returns (history : List (Event T)) : List ℕ :=
  history.filterMap fun
    | .returned pos _ => some pos
    | _ => none

/-- **A FIFO that loses and duplicates nothing**, as its history says. The tail is as many positions
from the start as it was advanced. -/
structure IsFifo (ring : Ring) (history : List (Event T)) : Prop where
  /-- Each position is claimed once. -/
  claimed : (claims history).map Prod.fst = List.range (claims history).length
  /-- Each position is popped once, in increasing order. -/
  advanced : advances history = List.range (advances history).length
  returned : (returns history).Nodup ∧ returns history ⊆ advances history
  /-- What a pop returns is what the producer of its position pushed. -/
  values : ∀ pos out, .returned pos out ∈ history →
    ∃ item, out = some item ∧ .claimed pos item ∈ history
  /-- A slot is written after the item of its previous lap was read. -/
  overwritten : ∀ before pos after, history = before ++ .wrote pos :: after → ring.size ≤ pos →
    .read (pos - ring.size) ∈ before
  /-- A pop that returned false found the item at the tail unpublished. -/
  empty : ∀ before after, history = before ++ .empty :: after →
    .published (advances before).length ∉ before

/-! ### Who holds a slot -/

/-- The position that a thread is to push. -/
def Thread.produces : Thread T → Option ℕ
  | .waiting pos _ | .writing pos _ | .publishing pos => some pos
  | _ => none

/-- The position that a thread has popped and not yet freed. -/
def Thread.consumes : Thread T → Option ℕ
  | .reading pos | .freeing pos _ => some pos
  | _ => none

/-- What a thread knows of its position: a producer whose turn it is finds its own ticket there, a
consumer the next one. -/
def Knows (ring : Ring) (s : State ι T) (history : List (Event T)) : Thread T → Prop
  | .idle | .reloading => True
  | .waiting pos item => pos < s.head ∧ .claimed pos item ∈ history
  | .writing pos item =>
    pos < s.head ∧ .claimed pos item ∈ history ∧ s.sequence (ring.slot pos) = pos
  | .publishing pos => pos < s.head ∧ s.sequence (ring.slot pos) = pos ∧
    ∃ item, s.data (ring.slot pos) = some item ∧ .claimed pos item ∈ history
  | .checking pos => pos ≤ s.tail
  | .advancing pos => pos ≤ s.tail ∧ pos < s.sequence (ring.slot pos)
  | .reading pos => pos < s.tail ∧ s.sequence (ring.slot pos) = pos + 1 ∧
    ∃ item, s.data (ring.slot pos) = some item ∧ .claimed pos item ∈ history
  | .freeing pos out => pos < s.tail ∧ s.sequence (ring.slot pos) = pos + 1 ∧
    .read pos ∈ history ∧ ∃ item, out = some item ∧ .claimed pos item ∈ history

/-- The position that a slot serves: it is free for its producer, or full for its consumer. -/
inductive Serves (ring : Ring) (s : State ι T) (history : List (Event T)) (pos : ℕ) : Prop
  | free (hsequence : s.sequence (ring.slot pos) = pos) (htail : s.tail ≤ pos)
      (hlap : pos < s.tail + ring.size)
      (hread : ring.size ≤ pos → .read (pos - ring.size) ∈ history)
  | full (hsequence : s.sequence (ring.slot pos) = pos + 1) (hlap : pos < s.tail + ring.size)
      (htail : s.tail ≤ pos + ring.size)
      (hitem : ∃ item, s.data (ring.slot pos) = some item ∧ .claimed pos item ∈ history)

/-- The invariant of a buffer and its history. -/
structure Inv (ring : Ring) (s : State ι T) (history : List (Event T)) : Prop where
  /-- The two tickets of a position are told apart. -/
  size : 2 ≤ ring.size
  serves : ∀ i < ring.size, ∃ pos, ring.slot pos = i ∧ Serves ring s history pos
  knows : ∀ i, Knows ring s history (s.threads i)
  producers : ∀ i j pos, (s.threads i).produces = some pos → (s.threads j).produces = some pos →
    i = j
  consumers : ∀ i j pos, (s.threads i).consumes = some pos → (s.threads j).consumes = some pos →
    i = j
  published : ∀ pos, .published pos ∈ history ↔ pos < s.sequence (ring.slot pos)
  claimed : (claims history).map Prod.fst = List.range s.head
  advanced : advances history = List.range s.tail
  returned : (returns history).Nodup ∧
    ∀ pos ∈ returns history, pos < s.tail ∧ pos + ring.size ≤ s.sequence (ring.slot pos)

/-! ### Slots and their holders -/

/-- The position whose slot a thread holds. -/
def Thread.holds : Thread T → Option ℕ
  | .writing pos _ | .publishing pos | .reading pos | .freeing pos _ => some pos
  | _ => none

variable {s t : State ι T} {history history' : List (Event T)}

/-- What a thread knows stays true while nobody touches the slot it holds. -/
theorem Knows.mono {thread : Thread T} (h : Knows ring s history thread) (hhead : s.head ≤ t.head)
    (htail : s.tail ≤ t.tail) (hhistory : history ⊆ history')
    (hsequence : ∀ i, s.sequence i ≤ t.sequence i)
    (hkeep : ∀ pos, thread.holds = some pos →
      t.sequence (ring.slot pos) = s.sequence (ring.slot pos) ∧
        t.data (ring.slot pos) = s.data (ring.slot pos)) : Knows ring t history' thread := by
  cases thread with
  | idle => trivial
  | reloading => trivial
  | waiting pos item => exact ⟨h.1.trans_le hhead, hhistory h.2⟩
  | writing pos item =>
    obtain ⟨hpos, hclaimed, hticket⟩ := h
    exact ⟨hpos.trans_le hhead, hhistory hclaimed, (hkeep pos rfl).1.trans hticket⟩
  | publishing pos =>
    obtain ⟨hpos, hticket, item, hdata, hclaimed⟩ := h
    obtain ⟨hsame, hdata'⟩ := hkeep pos rfl
    exact ⟨hpos.trans_le hhead, hsame.trans hticket, item, hdata'.trans hdata, hhistory hclaimed⟩
  | checking pos => exact h.trans htail
  | advancing pos => exact ⟨h.1.trans htail, h.2.trans_le (hsequence _)⟩
  | reading pos =>
    obtain ⟨hpos, hticket, item, hdata, hclaimed⟩ := h
    obtain ⟨hsame, hdata'⟩ := hkeep pos rfl
    exact ⟨hpos.trans_le htail, hsame.trans hticket, item, hdata'.trans hdata, hhistory hclaimed⟩
  | freeing pos out =>
    obtain ⟨hpos, hticket, hread, item, hout, hclaimed⟩ := h
    exact ⟨hpos.trans_le htail, (hkeep pos rfl).1.trans hticket, hhistory hread, item, hout,
      hhistory hclaimed⟩

/-- The ticket that the holder of a slot finds there. -/
theorem Knows.ticket {thread : Thread T} (h : Knows ring s history thread) {pos : ℕ}
    (hholds : thread.holds = some pos) :
    thread.produces = some pos ∧ s.sequence (ring.slot pos) = pos ∨
      thread.consumes = some pos ∧ s.sequence (ring.slot pos) = pos + 1 := by
  cases thread with
  | writing p item =>
    obtain rfl : p = pos := Option.some.inj hholds
    exact Or.inl ⟨rfl, h.2.2⟩
  | publishing p =>
    obtain rfl : p = pos := Option.some.inj hholds
    exact Or.inl ⟨rfl, h.2.1⟩
  | reading p =>
    obtain rfl : p = pos := Option.some.inj hholds
    exact Or.inr ⟨rfl, h.2.1⟩
  | freeing p out =>
    obtain rfl : p = pos := Option.some.inj hholds
    exact Or.inr ⟨rfl, h.2.1⟩
  | _ => exact absurd hholds.symm (Option.some_ne_none pos)

/-- Positions of one slot are not next to each other. -/
theorem Ring.not_next (hsize : 2 ≤ ring.size) {p q : ℕ} (hslot : ring.slot p = ring.slot q) :
    p ≠ q + 1 := by
  rintro rfl
  rcases ring.eq_or_lap hslot.symm (Nat.le_succ q) with h | h <;> omega

/-- **A slot has one holder.** -/
theorem Inv.holder_unique (h : Inv ring s history) {i j : ι} {p q : ℕ}
    (hi : (s.threads i).holds = some p) (hj : (s.threads j).holds = some q)
    (hslot : ring.slot p = ring.slot q) : i = j := by
  rcases (h.knows i).ticket hi with ⟨hp, hticket⟩ | ⟨hp, hticket⟩ <;>
    rcases (h.knows j).ticket hj with ⟨hq, hticket'⟩ | ⟨hq, hticket'⟩ <;>
    rw [hslot, hticket'] at hticket
  · exact h.producers i j p hp (hticket ▸ hq)
  · exact absurd hticket.symm (Ring.not_next h.size hslot)
  · exact absurd hticket (Ring.not_next h.size hslot.symm)
  · exact h.consumers i j p hp (Nat.succ_injective hticket ▸ hq)

/-- A producer's position was claimed before the head, a consumer's popped before the tail. -/
theorem Knows.produces_lt {thread : Thread T} (h : Knows ring s history thread) {pos : ℕ}
    (hproduces : thread.produces = some pos) : pos < s.head := by
  cases thread with
  | waiting p item => exact Option.some.inj hproduces ▸ h.1
  | writing p item => exact Option.some.inj hproduces ▸ h.1
  | publishing p => exact Option.some.inj hproduces ▸ h.1
  | _ => exact absurd hproduces.symm (Option.some_ne_none pos)

/-- A thread consumes what is before the tail. -/
theorem Knows.consumes_lt {thread : Thread T} (h : Knows ring s history thread) {pos : ℕ}
    (hconsumes : thread.consumes = some pos) : pos < s.tail := by
  cases thread with
  | reading p => exact Option.some.inj hconsumes ▸ h.1
  | freeing p out => exact Option.some.inj hconsumes ▸ h.1
  | _ => exact absurd hconsumes.symm (Option.some_ne_none pos)

/-- Another holder is at another slot. -/
theorem Inv.slot_ne (h : Inv ring s history) {i j : ι} {pos q : ℕ}
    (hi : (s.threads i).holds = some pos) (hj : (s.threads j).holds = some q) (hne : j ≠ i) :
    ring.slot q ≠ ring.slot pos :=
  fun hslot ↦ hne (h.holder_unique hj hi hslot)

/-- The position that a slot serves, from its ticket. -/
theorem Inv.serves_of_ticket (h : Inv ring s history) {pos : ℕ}
    (hticket : s.sequence (ring.slot pos) = pos) :
    s.tail ≤ pos ∧ pos < s.tail + ring.size ∧
      (ring.size ≤ pos → .read (pos - ring.size) ∈ history) := by
  obtain ⟨p, hslot, hserves⟩ := h.serves _ (ring.slot_lt pos)
  cases hserves with
  | free hsequence htail hlap hread =>
    rw [hslot, hticket] at hsequence
    subst hsequence
    exact ⟨htail, hlap, hread⟩
  | full hsequence =>
    rw [hslot, hticket] at hsequence
    exact absurd hsequence (Ring.not_next h.size hslot.symm)

/-- A ticket that is published belongs to an item that was pushed. -/
theorem Inv.serves_of_published (h : Inv ring s history) {pos : ℕ}
    (hticket : s.sequence (ring.slot pos) = pos + 1) :
    pos < s.tail + ring.size ∧ s.tail ≤ pos + ring.size ∧
      ∃ item, s.data (ring.slot pos) = some item ∧ .claimed pos item ∈ history := by
  obtain ⟨p, hslot, hserves⟩ := h.serves _ (ring.slot_lt pos)
  cases hserves with
  | free hsequence =>
    rw [hslot, hticket] at hsequence
    exact absurd hsequence.symm (Ring.not_next h.size hslot)
  | full hsequence hlap htail hitem =>
    rw [hslot, hticket] at hsequence
    obtain rfl : pos = p := Nat.succ_injective hsequence
    exact ⟨hlap, htail, hitem⟩

/-- The tail has passed published positions only. -/
theorem Inv.lt_sequence (h : Inv ring s history) {pos : ℕ} (hpos : pos < s.tail) :
    pos < s.sequence (ring.slot pos) := by
  have hsize := h.size
  obtain ⟨p, hslot, hserves⟩ := h.serves _ (ring.slot_lt pos)
  rw [← hslot]
  cases hserves with
  | free hsequence htail => omega
  | full hsequence hlap htail =>
    rcases Nat.le_total pos p with hle | hle
    · omega
    · rcases ring.eq_or_lap hslot hle with heq | hnext <;> omega

/-- A published position at the tail is the one that its slot serves. -/
theorem Inv.sequence_tail (h : Inv ring s history)
    (hpublished : s.tail < s.sequence (ring.slot s.tail)) :
    s.sequence (ring.slot s.tail) = s.tail + 1 := by
  obtain ⟨p, hslot, hserves⟩ := h.serves _ (ring.slot_lt s.tail)
  rw [← hslot] at hpublished ⊢
  have hlap (hlt : p < s.tail + ring.size) (hle : s.tail ≤ p) : p = s.tail := by
    rcases ring.eq_or_lap hslot.symm hle with heq | hnext <;> omega
  cases hserves with
  | free hsequence htail hlt =>
    obtain rfl := hlap hlt htail
    omega
  | full hsequence hlt => rw [hsequence, hlap hlt (by omega)]

/-- What serves a position goes on doing so while its slot is left alone. -/
theorem Serves.mono {pos : ℕ} (h : Serves ring s history pos) (htail : t.tail = s.tail)
    (hhistory : history ⊆ history')
    (hsequence : t.sequence (ring.slot pos) = s.sequence (ring.slot pos))
    (hdata : t.data (ring.slot pos) = s.data (ring.slot pos)) : Serves ring t history' pos := by
  cases h with
  | free hticket hle hlap hread =>
    exact .free (hsequence.trans hticket) (htail ▸ hle) (htail ▸ hlap)
      fun hpos ↦ hhistory (hread hpos)
  | full hticket hlap hle hitem =>
    obtain ⟨item, hitem, hclaimed⟩ := hitem
    exact .full (hsequence.trans hticket) (htail ▸ hlap) (htail ▸ hle)
      ⟨item, hdata.trans hitem, hhistory hclaimed⟩

theorem inv_initial (hsize : 2 ≤ ring.size) : Inv ring (initial ι T) [] where
  size := hsize
  serves i hi := by
    have hslot : ring.slot i = i := (ring.slot_eq_mod i).trans (Nat.mod_eq_of_lt hi)
    exact ⟨i, hslot, .free hslot (Nat.zero_le i) (hi.trans_eq (Nat.zero_add _).symm)
      fun hlap ↦ absurd hi (Nat.not_lt.2 hlap)⟩
  knows _ := trivial
  producers _ _ pos hpos := absurd hpos.symm (Option.some_ne_none pos)
  consumers _ _ pos hpos := absurd hpos.symm (Option.some_ne_none pos)
  published pos := by
    have hslot : ring.slot pos ≤ pos := (ring.slot_eq_mod pos).trans_le (Nat.mod_le pos _)
    exact ⟨fun hmem ↦ absurd hmem List.not_mem_nil, fun hlt ↦ absurd hslot (Nat.not_le.2 hlt)⟩
  claimed := rfl
  advanced := rfl
  returned := ⟨List.nodup_nil, fun _ hpos ↦ absurd hpos List.not_mem_nil⟩

/-! ### What happens before an event -/

/-- What has to happen before an event. -/
def Justified (ring : Ring) (history : List (Event T)) : Event T → Prop
  | .returned pos out => ∃ item, out = some item ∧ .claimed pos item ∈ history
  | .wrote pos => ring.size ≤ pos → .read (pos - ring.size) ∈ history
  | .empty => .published (advances history).length ∉ history
  | _ => True

/-- A pop that finds the sequence number below is at the tail, and nothing is published there. -/
theorem Inv.justified_empty (h : Inv ring s history) {pos : ℕ} (hpos : pos ≤ s.tail)
    (hsequence : s.sequence (ring.slot pos) ≤ pos) : Justified ring history .empty := by
  have htail : pos = s.tail := by
    by_contra hne
    exact absurd (h.lt_sequence (lt_of_le_of_ne hpos hne)) (Nat.not_lt.2 hsequence)
  subst htail
  rw [Justified, h.advanced, List.length_range, h.published]
  exact Nat.not_lt.2 hsequence

/-- Every event of a history was justified when it happened. -/
def Recorded (ring : Ring) (history : List (Event T)) : Prop :=
  ∀ before e after, history = before ++ e :: after → Justified ring before e

/-- What was true of each event when it happened stays so when a history goes on. -/
theorem split_concat {P : List (Event T) → Event T → Prop}
    (h : ∀ before e after, history = before ++ e :: after → P before e) {e : Event T}
    (he : P history e) (before : List (Event T)) (e' : Event T) (after : List (Event T))
    (hsplit : history ++ [e] = before ++ e' :: after) : P before e' := by
  rcases List.eq_nil_or_concat after with rfl | ⟨after, last, rfl⟩
  · obtain ⟨rfl, hlast⟩ := List.append_inj' hsplit rfl
    exact (List.cons.inj hlast).1 ▸ he
  · rw [List.concat_eq_append, ← List.cons_append, ← List.append_assoc] at hsplit
    exact h before e' after (List.append_inj' hsplit rfl).1

theorem Recorded.snoc (h : Recorded ring history) {e : Event T} (he : Justified ring history e) :
    Recorded ring (history ++ [e]) :=
  split_concat h he

/-! ### Steps that leave the slots alone -/

theorem claims_append (xs ys : List (Event T)) : claims (xs ++ ys) = claims xs ++ claims ys :=
  List.filterMap_append

theorem advances_append (xs ys : List (Event T)) :
    advances (xs ++ ys) = advances xs ++ advances ys :=
  List.filterMap_append

theorem returns_append (xs ys : List (Event T)) :
    returns (xs ++ ys) = returns xs ++ returns ys :=
  List.filterMap_append

variable [DecidableEq ι]

/-- One thread goes on, and what it has is its own. -/
theorem unique_update {β : Type*} {f : Thread T → Option β} {threads : ι → Thread T} {i : ι}
    {thread : Thread T}
    (h : ∀ j k pos, f (threads j) = some pos → f (threads k) = some pos → j = k)
    (hnew : ∀ pos, f thread = some pos →
      f (threads i) = some pos ∨ ∀ j, f (threads j) ≠ some pos) (j k : ι) (pos : β)
    (hj : f (Function.update threads i thread j) = some pos)
    (hk : f (Function.update threads i thread k) = some pos) : j = k := by
  by_cases hji : j = i <;> by_cases hki : k = i
  · rw [hji, hki]
  · rw [hji, Function.update_self] at hj
    rw [Function.update_of_ne hki] at hk
    rcases hnew pos hj with hi | hnone
    · rw [hji]
      exact h i k pos hi hk
    · exact absurd hk (hnone k)
  · rw [hki, Function.update_self] at hk
    rw [Function.update_of_ne hji] at hj
    rcases hnew pos hk with hi | hnone
    · rw [hki]
      exact h j i pos hj hi
    · exact absurd hj (hnone j)
  · rw [Function.update_of_ne hji] at hj
    rw [Function.update_of_ne hki] at hk
    exact h j k pos hj hk

/-- The other threads know what they knew. -/
theorem knows_update {i : ι} {thread : Thread T} (h : Inv ring s history)
    (hhead : s.head ≤ t.head) (htail : s.tail ≤ t.tail) (hhistory : history ⊆ history')
    (hsequence : ∀ k, s.sequence k ≤ t.sequence k)
    (hkeep : ∀ j, j ≠ i → ∀ pos, (s.threads j).holds = some pos →
      t.sequence (ring.slot pos) = s.sequence (ring.slot pos) ∧
        t.data (ring.slot pos) = s.data (ring.slot pos))
    (hknows : Knows ring t history' thread) (j : ι) :
    Knows ring t history' (Function.update s.threads i thread j) := by
  by_cases hji : j = i
  · rw [hji, Function.update_self]
    exact hknows
  · rw [Function.update_of_ne hji]
    exact (h.knows j).mono hhead htail hhistory hsequence (hkeep j hji)

/-- A step of one thread that changes no shared memory. -/
theorem Inv.quiet (h : Inv ring s history) {i : ι} (thread : Thread T) {events : List (Event T)}
    (hknows : Knows ring s (history ++ events) thread)
    (hproduces : ∀ pos, thread.produces = some pos → (s.threads i).produces = some pos)
    (hconsumes : ∀ pos, thread.consumes = some pos → (s.threads i).consumes = some pos)
    (hclaims : claims events = []) (hadvances : advances events = [])
    (hreturns : returns events = []) (hpublished : ∀ pos, .published pos ∉ events) :
    Inv ring (s.goto i thread) (history ++ events) where
  size := h.size
  serves k hk := by
    obtain ⟨pos, hslot, hserves⟩ := h.serves k hk
    exact ⟨pos, hslot, hserves.mono rfl (List.subset_append_left _ _) rfl rfl⟩
  knows := knows_update (t := s.goto i thread) h le_rfl le_rfl (List.subset_append_left _ _)
    (fun _ ↦ le_rfl) (fun _ _ _ _ ↦ ⟨rfl, rfl⟩) (hknows.mono le_rfl le_rfl (List.Subset.refl _)
      (fun _ ↦ le_rfl) fun _ _ ↦ ⟨rfl, rfl⟩)
  producers := unique_update h.producers fun pos hpos ↦ Or.inl (hproduces pos hpos)
  consumers := unique_update h.consumers fun pos hpos ↦ Or.inl (hconsumes pos hpos)
  published pos := by
    rw [List.mem_append, or_iff_left (hpublished pos)]
    exact h.published pos
  claimed := by
    rw [claims_append, hclaims, List.append_nil]
    exact h.claimed
  advanced := by
    rw [advances_append, hadvances, List.append_nil]
    exact h.advanced
  returned := by
    rw [returns_append, hreturns, List.append_nil]
    exact h.returned

/-- The same without an event. -/
theorem Inv.silent (h : Inv ring s history) {i : ι} (thread : Thread T)
    (hknows : Knows ring s history thread)
    (hproduces : ∀ pos, thread.produces = some pos → (s.threads i).produces = some pos)
    (hconsumes : ∀ pos, thread.consumes = some pos → (s.threads i).consumes = some pos) :
    Inv ring (s.goto i thread) (history ++ []) :=
  h.quiet thread ((List.append_nil history).symm ▸ hknows) hproduces hconsumes rfl rfl rfl
    fun _ ↦ List.not_mem_nil

/-! ### Steps that change a slot -/

/-- A push claims the next position. -/
theorem Inv.claim (h : Inv ring s history) (i : ι) (item : T) :
    Inv ring ({ s with head := s.head + 1 }.goto i (.waiting s.head item))
      (history ++ [.claimed s.head item]) where
  size := h.size
  serves k hk := by
    obtain ⟨pos, hslot, hserves⟩ := h.serves k hk
    exact ⟨pos, hslot, hserves.mono rfl (List.subset_append_left _ _) rfl rfl⟩
  knows := by
    have hmem : Event.claimed s.head item ∈ history ++ [.claimed s.head item] :=
      List.mem_append_right _ (List.mem_singleton_self _)
    exact knows_update (s := s) h (Nat.le_succ s.head) le_rfl (List.subset_append_left _ _)
      (fun _ ↦ le_rfl) (fun _ _ _ _ ↦ ⟨rfl, rfl⟩) ⟨Nat.lt_succ_self s.head, hmem⟩
  producers := unique_update h.producers fun pos hpos ↦ by
    obtain rfl : s.head = pos := Option.some.inj hpos
    exact Or.inr fun j hj ↦ lt_irrefl _ ((h.knows j).produces_lt hj)
  consumers := unique_update h.consumers fun pos hpos ↦ absurd hpos.symm (Option.some_ne_none pos)
  published pos := by
    rw [List.mem_append, or_iff_left (by simp)]
    exact h.published pos
  claimed := by
    rw [claims_append, List.map_append, h.claimed]
    exact List.range_succ.symm
  advanced := by
    rw [advances_append]
    exact (List.append_nil _).trans h.advanced
  returned := by
    rw [returns_append]
    exact (List.append_nil (returns history)).symm ▸ h.returned

/-- A pop advances the tail over a published position. -/
theorem Inv.advance (h : Inv ring s history) {i : ι} {pos : ℕ} (htail : s.tail = pos)
    (hpublished : pos < s.sequence (ring.slot pos)) :
    Inv ring ({ s with tail := pos + 1 }.goto i (.reading pos)) (history ++ [.advanced pos]) := by
  subst htail
  have hticket := h.sequence_tail hpublished
  have hsize := h.size
  -- No other position is served by the slot of the tail.
  have hfree (p : ℕ) (hslot : ring.slot p = ring.slot s.tail) (hp : s.sequence (ring.slot p) = p) :
      False := Ring.not_next h.size hslot (by rw [← hp, hslot, hticket])
  have hlapped (p : ℕ) (hp : s.sequence (ring.slot p) = p + 1) : p + ring.size ≠ s.tail := by
    intro hlap
    have hslot : ring.slot p = ring.slot s.tail := by rw [← hlap, ring.slot_add_size]
    rw [hslot, hticket] at hp
    omega
  constructor
  case size => exact h.size
  case serves =>
    intro k hk
    obtain ⟨p, hslot, hserves⟩ := h.serves k hk
    refine ⟨p, hslot, ?_⟩
    cases hserves with
    | free hsequence hle hlap hread =>
      have hne : s.tail ≠ p := fun heq ↦ hfree p (by rw [heq]) hsequence
      exact .free hsequence (lt_of_le_of_ne hle hne) (hlap.trans (by simp [State.goto]))
        fun hpos ↦ List.mem_append_left _ (hread hpos)
    | full hsequence hlap hle hitem =>
      obtain ⟨item, hdata, hclaimed⟩ := hitem
      exact .full hsequence (hlap.trans (by simp [State.goto]))
        (lt_of_le_of_ne hle (hlapped p hsequence).symm)
        ⟨item, hdata, List.mem_append_left _ hclaimed⟩
  case knows =>
    obtain ⟨-, -, item, hdata, hclaimed⟩ := h.serves_of_published hticket
    exact knows_update (s := s) h le_rfl (Nat.le_succ _) (List.subset_append_left _ _)
      (fun _ ↦ le_rfl) (fun _ _ _ _ ↦ ⟨rfl, rfl⟩)
      ⟨Nat.lt_succ_self _, hticket, item, hdata, List.mem_append_left _ hclaimed⟩
  case producers =>
    exact unique_update h.producers fun pos hpos ↦ absurd hpos.symm (Option.some_ne_none pos)
  case consumers =>
    refine unique_update h.consumers fun pos hpos ↦ ?_
    obtain rfl : s.tail = pos := Option.some.inj hpos
    exact Or.inr fun j hj ↦ lt_irrefl _ ((h.knows j).consumes_lt hj)
  case published =>
    intro pos
    rw [List.mem_append, or_iff_left (by simp)]
    exact h.published pos
  case claimed =>
    rw [claims_append]
    exact (congrArg _ (List.append_nil _)).trans h.claimed
  case advanced =>
    rw [advances_append, h.advanced]
    exact List.range_succ.symm
  case returned =>
    rw [returns_append, show returns [Event.advanced s.tail] = ([] : List ℕ) from rfl,
      List.append_nil]
    exact ⟨h.returned.1, fun pos hpos ↦
      ⟨(h.returned.2 pos hpos).1.trans (Nat.lt_succ_self _), (h.returned.2 pos hpos).2⟩⟩

/-- A producer whose turn it is writes its item. -/
theorem Inv.write (h : Inv ring s history) {i : ι} {pos : ℕ} {item : T}
    (hi : s.threads i = .writing pos item) :
    Inv ring ({ s with data := Function.update s.data (ring.slot pos) (some item) }.goto i
      (.publishing pos)) (history ++ [.wrote pos]) := by
  obtain ⟨hpos, hclaimed, hticket⟩ : Knows ring s history (.writing pos item) := hi ▸ h.knows i
  have hholds : (s.threads i).holds = some pos := by rw [hi, Thread.holds]
  constructor
  case size => exact h.size
  case serves =>
    intro k hk
    by_cases hslot : k = ring.slot pos
    · obtain ⟨htail, hlap, hread⟩ := h.serves_of_ticket hticket
      exact ⟨pos, hslot.symm, .free hticket htail hlap fun hpos ↦
        List.mem_append_left _ (hread hpos)⟩
    · obtain ⟨p, rfl, hserves⟩ := h.serves k hk
      exact ⟨p, rfl, hserves.mono rfl (List.subset_append_left _ _) rfl
        (Function.update_of_ne hslot _ _)⟩
  case knows =>
    exact knows_update (s := s) h le_rfl le_rfl (List.subset_append_left _ _) (fun _ ↦ le_rfl)
      (fun j hj q hq ↦ ⟨rfl, Function.update_of_ne (h.slot_ne hholds hq hj) _ _⟩)
      ⟨hpos, hticket, item, Function.update_self _ _ _, List.mem_append_left _ hclaimed⟩
  case producers =>
    exact unique_update h.producers fun q hq ↦ Or.inl (by rw [hi, ← hq]; rfl)
  case consumers =>
    exact unique_update h.consumers fun q hq ↦ absurd hq.symm (Option.some_ne_none q)
  case published =>
    intro q
    rw [List.mem_append, or_iff_left (by simp)]
    exact h.published q
  case claimed =>
    rw [claims_append]
    exact (congrArg _ (List.append_nil _)).trans h.claimed
  case advanced =>
    rw [advances_append]
    exact (List.append_nil _).trans h.advanced
  case returned =>
    rw [returns_append]
    exact (List.append_nil (returns history)).symm ▸ h.returned

/-- The holder of a slot signals who is next, and goes on without it. -/
theorem Inv.signal (h : Inv ring s history) {i : ι} {pos next : ℕ} {events : List (Event T)}
    (hholds : (s.threads i).holds = some pos) (hnext : s.sequence (ring.slot pos) ≤ next)
    (hserves : ∃ p, ring.slot p = ring.slot pos ∧
      Serves ring { s with sequence := Function.update s.sequence (ring.slot pos) next }
        (history ++ events) p)
    (hpublished : ∀ q, .published q ∈ history ++ events ↔
      q < Function.update s.sequence (ring.slot pos) next (ring.slot q))
    (hclaims : claims events = []) (hadvances : advances events = [])
    (hreturns : (returns (history ++ events)).Nodup ∧ ∀ q ∈ returns (history ++ events),
      q < s.tail ∧
        q + ring.size ≤ Function.update s.sequence (ring.slot pos) next (ring.slot q)) :
    Inv ring
      ({ s with sequence := Function.update s.sequence (ring.slot pos) next }.goto i .idle)
      (history ++ events) where
  size := h.size
  serves k hk := by
    by_cases hslot : k = ring.slot pos
    · obtain ⟨p, hp, hserves⟩ := hserves
      exact ⟨p, hp.trans hslot.symm, hserves.mono rfl (List.Subset.refl _) rfl rfl⟩
    · obtain ⟨p, rfl, hserves⟩ := h.serves k hk
      exact ⟨p, rfl, hserves.mono rfl (List.subset_append_left _ _)
        (Function.update_of_ne hslot _ _) rfl⟩
  knows := by
    exact knows_update (s := s) h le_rfl le_rfl (List.subset_append_left _ _)
      (le_update_self_iff.2 hnext)
      (fun j hj q hq ↦ ⟨Function.update_of_ne (h.slot_ne hholds hq hj) _ _, rfl⟩) trivial
  producers := unique_update h.producers fun q hq ↦ absurd hq.symm (Option.some_ne_none q)
  consumers := unique_update h.consumers fun q hq ↦ absurd hq.symm (Option.some_ne_none q)
  published := hpublished
  claimed := by
    rw [claims_append, hclaims, List.append_nil]
    exact h.claimed
  advanced := by
    rw [advances_append, hadvances, List.append_nil]
    exact h.advanced
  returned := hreturns

/-- A producer publishes its item: the consumer is next. -/
theorem Inv.publish (h : Inv ring s history) {i : ι} {pos : ℕ}
    (hi : s.threads i = .publishing pos) :
    Inv ring
      ({ s with sequence := Function.update s.sequence (ring.slot pos) (pos + 1) }.goto i .idle)
      (history ++ [.published pos]) := by
  obtain ⟨-, hticket, item, hdata, hclaimed⟩ : Knows ring s history (.publishing pos) :=
    hi ▸ h.knows i
  have hholds : (s.threads i).holds = some pos := by rw [hi, Thread.holds]
  obtain ⟨htail, hlap, -⟩ := h.serves_of_ticket hticket
  have hnext : s.sequence (ring.slot pos) ≤ pos + 1 := hticket.trans_le (Nat.le_succ pos)
  refine h.signal hholds hnext
    ⟨pos, rfl, .full (Function.update_self _ _ _) hlap (htail.trans (Nat.le_add_right _ _))
      ⟨item, hdata, List.mem_append_left _ hclaimed⟩⟩ (fun q ↦ ?_) rfl rfl ?_
  · rw [List.mem_append, List.mem_singleton, Event.published.injEq, h.published q]
    by_cases hslot : ring.slot q = ring.slot pos
    · rw [hslot, Function.update_self, hticket]
      omega
    · rw [Function.update_of_ne hslot, or_iff_left fun heq ↦ hslot (congrArg _ heq)]
  · rw [returns_append, show returns [Event.published pos] = ([] : List ℕ) from rfl,
      List.append_nil]
    exact ⟨h.returned.1, fun q hq ↦
      ⟨(h.returned.2 q hq).1, (h.returned.2 q hq).2.trans (le_update_self_iff.2 hnext _)⟩⟩

/-- A consumer frees its slot: the producer of the next lap is next. -/
theorem Inv.free (h : Inv ring s history) {i : ι} {pos : ℕ} {out : Option T}
    (hi : s.threads i = .freeing pos out) :
    Inv ring
      ({ s with sequence := Function.update s.sequence (ring.slot pos) (pos + ring.size) }.goto i
        .idle)
      (history ++ [.returned pos out]) := by
  have hsize := h.size
  obtain ⟨hpos, hticket, hread, -⟩ : Knows ring s history (.freeing pos out) := hi ▸ h.knows i
  have hholds : (s.threads i).holds = some pos := by rw [hi, Thread.holds]
  obtain ⟨-, htail, -⟩ := h.serves_of_published hticket
  have hnext : s.sequence (ring.slot pos) ≤ pos + ring.size := by omega
  refine h.signal hholds hnext
    ⟨pos + ring.size, ring.slot_add_size pos, .free ?_ htail (Nat.add_lt_add_right hpos _)
      fun _ ↦ ?_⟩ (fun q ↦ ?_) rfl rfl ?_
  · exact (congrArg _ (ring.slot_add_size pos)).trans (Function.update_self _ _ _)
  · rw [Nat.add_sub_cancel]
    exact List.mem_append_left _ hread
  · rw [List.mem_append, or_iff_left (by simp), h.published q]
    by_cases hslot : ring.slot q = ring.slot pos
    · rw [hslot, Function.update_self, hticket]
      rcases Nat.le_total pos q with hle | hle
      · rcases ring.eq_or_lap hslot.symm hle with heq | hnext <;> omega
      · omega
    · rw [Function.update_of_ne hslot]
  · have hnew : pos ∉ returns history := fun hmem ↦ by
      have := (h.returned.2 pos hmem).2
      omega
    rw [returns_append, show returns [Event.returned pos out] = [pos] from rfl]
    refine ⟨List.concat_eq_append ▸ List.Nodup.concat hnew h.returned.1, fun q hq ↦ ?_⟩
    rcases List.mem_append.1 hq with hq | hq
    · obtain ⟨hlt, hle⟩ := h.returned.2 q hq
      exact ⟨hlt, hle.trans (le_update_self_iff.2 hnext _)⟩
    · obtain rfl : q = pos := List.mem_singleton.1 hq
      exact ⟨hpos, by rw [Function.update_self]⟩

/-! ### Runs -/

/-- Each access keeps the invariant, and does one thing at most. -/
theorem Inv.access (h : Inv ring s history) {i : ι} {spurious : Bool} {events : List (Event T)}
    (haccess : access ring s i spurious (s.threads i) = some (t, events)) :
    Inv ring t (history ++ events) ∧
      (events = [] ∨ ∃ e, events = [e] ∧ Justified ring history e) := by
  have hknows := h.knows i
  rcases hi : s.threads i with _ | ⟨pos, item⟩ | ⟨pos, item⟩ | pos | pos | pos | _ | pos |
    ⟨pos, out⟩ <;> rw [hi] at haccess hknows
  case idle => exact absurd haccess.symm (Option.some_ne_none _)
  case waiting =>
    simp only [RingBuffer.access] at haccess
    split_ifs at haccess with hturn <;> cases haccess
    · exact ⟨h.silent (.writing pos item) ⟨hknows.1, hknows.2, hturn⟩ (fun p hp ↦ hi ▸ hp)
        fun p hp ↦ hi ▸ hp, Or.inl rfl⟩
    · exact ⟨(List.append_nil history).symm ▸ h, Or.inl rfl⟩
  case writing =>
    cases haccess
    exact ⟨h.write hi, Or.inr ⟨_, rfl, (h.serves_of_ticket hknows.2.2).2.2⟩⟩
  case publishing =>
    cases haccess
    exact ⟨h.publish hi, Or.inr ⟨_, rfl, trivial⟩⟩
  case checking =>
    simp only [RingBuffer.access] at haccess
    split_ifs at haccess with hready hbelow <;> cases haccess
    · exact ⟨h.silent (.advancing pos) ⟨hknows, by omega⟩ (fun p hp ↦ hi ▸ hp)
        fun p hp ↦ hi ▸ hp, Or.inl rfl⟩
    · exact ⟨h.quiet .idle trivial (fun p hp ↦ hi ▸ hp) (fun p hp ↦ hi ▸ hp) rfl rfl
        rfl (by simp), Or.inr ⟨_, rfl, h.justified_empty hknows (by omega)⟩⟩
    · exact ⟨h.silent .reloading trivial (fun p hp ↦ hi ▸ hp) fun p hp ↦ hi ▸ hp, Or.inl rfl⟩
  case advancing =>
    simp only [RingBuffer.access] at haccess
    split_ifs at haccess with hexchange <;> cases haccess
    · exact ⟨h.advance hexchange.1 hknows.2, Or.inr ⟨_, rfl, trivial⟩⟩
    · exact ⟨h.silent (.checking s.tail) le_rfl (fun p hp ↦ hi ▸ hp) fun p hp ↦ hi ▸ hp, Or.inl rfl⟩
  case reloading =>
    cases haccess
    exact ⟨h.silent (.checking s.tail) le_rfl (fun p hp ↦ hi ▸ hp) fun p hp ↦ hi ▸ hp, Or.inl rfl⟩
  case reading =>
    cases haccess
    obtain ⟨hpos, hticket, item, hdata, hclaimed⟩ := hknows
    exact ⟨h.quiet (.freeing pos (s.data (ring.slot pos)))
      ⟨hpos, hticket, by simp, item, hdata, List.mem_append_left _ hclaimed⟩ (fun p hp ↦ hi ▸ hp)
      (fun p hp ↦ hi ▸ hp) rfl rfl rfl (by simp), Or.inr ⟨_, rfl, trivial⟩⟩
  case freeing =>
    cases haccess
    exact ⟨h.free hi, Or.inr ⟨_, rfl, hknows.2.2.2⟩⟩

/-- **Each step keeps the invariant**, and does one thing at most. -/
theorem Inv.step (h : Inv ring s history) {a : Action ι T} {events : List (Event T)}
    (hstep : step ring s a = some (t, events)) :
    Inv ring t (history ++ events) ∧
      (events = [] ∨ ∃ e, events = [e] ∧ Justified ring history e) := by
  cases a with
  | push i item =>
    rw [RingBuffer.step] at hstep
    rcases hi : s.threads i <;> rw [hi] at hstep
    case idle =>
      cases hstep
      exact ⟨h.claim i item, Or.inr ⟨_, rfl, trivial⟩⟩
    all_goals exact absurd hstep.symm (Option.some_ne_none _)
  | pop i =>
    rw [RingBuffer.step] at hstep
    rcases hi : s.threads i <;> rw [hi] at hstep
    case idle =>
      cases hstep
      exact ⟨h.silent (.checking s.tail) le_rfl (fun p hp ↦ hi ▸ hp) fun p hp ↦ hi ▸ hp, Or.inl rfl⟩
    all_goals exact absurd hstep.symm (Option.some_ne_none _)
  | next i spurious => exact h.access hstep

/-- **The run lemma.** -/
theorem inv_of_reachable (hsize : 2 ≤ ring.size) {x : State ι T × List (Event T)}
    (h : (machine ring ι T).Reachable x) : Inv ring x.1 x.2 ∧ Recorded ring x.2 := by
  refine h.invariant (I := fun x ↦ Inv ring x.1 x.2 ∧ Recorded ring x.2) ?_ ?_
  · rintro x rfl
    exact ⟨inv_initial hsize, fun before e after hsplit ↦ absurd hsplit.symm (by simp)⟩
  · rintro x a y ⟨hinv, hrecorded⟩ hstep
    obtain ⟨⟨t, events⟩, hstep', rfl⟩ := Option.map_eq_some_iff.1 hstep
    obtain ⟨hinv', rfl | ⟨e, rfl, he⟩⟩ := hinv.step hstep'
    · exact ⟨hinv', (List.append_nil x.2).symm ▸ hrecorded⟩
    · exact ⟨hinv', hrecorded.snoc he⟩

/-- **The ring buffer is a FIFO that loses and duplicates nothing**, for any size from two on, any
threads and any interleaving of their accesses. -/
theorem isFifo_of_reachable (hsize : 2 ≤ ring.size) {x : State ι T × List (Event T)}
    (h : (machine ring ι T).Reachable x) : IsFifo ring x.2 := by
  obtain ⟨hinv, hrecorded⟩ := inv_of_reachable hsize h
  exact {
    claimed := by
      have hlength := congrArg List.length hinv.claimed
      rw [List.length_map, List.length_range] at hlength
      rw [hinv.claimed, hlength]
    advanced := by rw [hinv.advanced, List.length_range]
    returned := ⟨hinv.returned.1, fun pos hpos ↦ by
      rw [hinv.advanced]
      exact List.mem_range.2 (hinv.returned.2 pos hpos).1⟩
    values := fun pos out hreturned ↦ by
      obtain ⟨before, after, hsplit⟩ := List.append_of_mem hreturned
      obtain ⟨item, hout, hclaimed⟩ := hrecorded before _ after hsplit
      exact ⟨item, hout, hsplit ▸ List.mem_append_left _ hclaimed⟩
    overwritten := fun before pos after hsplit ↦ hrecorded before _ after hsplit
    empty := fun before after hsplit ↦ hrecorded before _ after hsplit }

/-- A pop finds nothing, two pushes fill a buffer of size 2, a third waits for its lap, a pop fails
to exchange the tail and then takes the first item. -/
theorem isFifo_of_reachable_lap : IsFifo ⟨2, 1, rfl⟩
    [.empty, .claimed 0 10, .wrote 0, .published 0, .claimed 1 20, .wrote 1, .published 1,
      .claimed 2 30, .advanced 0, .read 0, .returned 0 (some 10), .wrote 2, .published 2] := by
  have hrun : ∃ t, (machine ⟨2, 1, rfl⟩ Bool ℕ).run (initial Bool ℕ, [])
      [.pop true, .next true false, .push false 10, .next false false, .next false false,
        .next false false, .push true 20, .next true false, .next true false, .next true false,
        .push false 30, .next false false, .pop true, .next true false, .next true true,
        .next true false, .next true false, .next true false, .next true false,
        .next false false, .next false false, .next false false] =
      some (t, [.empty, .claimed 0 10, .wrote 0, .published 0, .claimed 1 20, .wrote 1,
        .published 1, .claimed 2 30, .advanced 0, .read 0, .returned 0 (some 10), .wrote 2,
        .published 2]) := ⟨_, rfl⟩
  obtain ⟨t, hrun⟩ := hrun
  exact isFifo_of_reachable le_rfl (Machine.run_reachable _ rfl hrun)

end CppGate.RingBuffer
