import CppGate.Foundations.Machine
import Mathlib.Algebra.Group.Nat.Defs
import Mathlib.Data.Nat.Log
import Mathlib.Logic.Function.Basic

/-!
# A lock-free ring buffer

`RingBuffer.h`: any number of threads push and pop. A push claims the next position by a fetch-and-
add, waits until the slot of that position is its own, writes the item and publishes it; a pop
advances the tail by a compare-exchange once the item there is published, reads it and frees the
slot for the next lap. What a slot is ready for is written in its sequence number.

Each access of shared memory is one step of a thread, and the steps of all threads are interleaved
in any order. Positions are natural numbers here: they do not wrap.
-/

namespace CppGate.RingBuffer

/-! ### Slots -/

/-- `std::bit_ceil`. -/
def bitCeil (n : ℕ) : ℕ :=
  2 ^ Nat.clog 2 n

/-- The size of a buffer, a power of two. -/
structure Ring where
  size : ℕ
  isPow : ∃ k, size = 2 ^ k

/-- `create`, and the constructor that takes a size. -/
def create (reqSize : ℕ) : Ring where
  size := bitCeil reqSize
  isPow := ⟨Nat.clog 2 reqSize, rfl⟩

namespace Ring

variable (ring : Ring)

/-- `Mask`. -/
def mask : ℕ :=
  ring.size - 1

/-- The index of the slot of a position: `pos & Mask`. -/
def slot (pos : ℕ) : ℕ :=
  pos &&& ring.mask

theorem size_pos : 0 < ring.size := by
  obtain ⟨k, hk⟩ := ring.isPow
  rw [hk]
  exact Nat.two_pow_pos k

/-- The mask of a power of two is the remainder. -/
theorem slot_eq_mod (pos : ℕ) : ring.slot pos = pos % ring.size := by
  obtain ⟨k, hk⟩ := ring.isPow
  rw [slot, mask, hk, Nat.and_two_pow_sub_one_eq_mod]

theorem slot_lt (pos : ℕ) : ring.slot pos < ring.size := by
  rw [slot_eq_mod]
  exact Nat.mod_lt pos ring.size_pos

/-- The next lap uses the same slots. -/
@[simp] theorem slot_add_size (pos : ℕ) : ring.slot (pos + ring.size) = ring.slot pos := by
  rw [slot_eq_mod, slot_eq_mod, Nat.add_mod_right]

/-- Two positions of one slot are equal, or a lap apart. -/
theorem eq_or_lap {p q : ℕ} (h : ring.slot p = ring.slot q) (hpq : p ≤ q) :
    p = q ∨ p + ring.size ≤ q := by
  rw [slot_eq_mod, slot_eq_mod] at h
  have hdvd : ring.size ∣ q - p := Nat.dvd_of_mod_eq_zero (Nat.sub_mod_eq_zero_of_mod_eq h.symm)
  rcases Nat.eq_zero_or_pos (q - p) with hzero | hpos
  · exact Or.inl (by omega)
  · exact Or.inr (by have := Nat.le_of_dvd hpos hdvd; omega)

end Ring

/-! ### Threads -/

/-- What a thread does next. -/
inductive Thread (T : Type*)
  | idle
  /-- push() waits for its turn. -/
  | waiting (pos : ℕ) (item : T)
  /-- It writes the item. -/
  | writing (pos : ℕ) (item : T)
  /-- It signals the consumer. -/
  | publishing (pos : ℕ)
  /-- pop() loads the sequence number. -/
  | checking (pos : ℕ)
  /-- It tries to advance the tail. -/
  | advancing (pos : ℕ)
  /-- Another consumer moved past it: it loads the tail. -/
  | reloading
  /-- It reads the item. -/
  | reading (pos : ℕ)
  /-- It signals the producer of the next lap. -/
  | freeing (pos : ℕ) (out : Option T)

variable {ι T : Type*}

/-- The buffer and its threads. The data of a slot that was never written is undefined. -/
structure State (ι T : Type*) where
  head : ℕ
  tail : ℕ
  data : ℕ → Option T
  sequence : ℕ → ℕ
  threads : ι → Thread T

/-- A new buffer. -/
def initial (ι T : Type*) : State ι T where
  head := 0
  tail := 0
  data _ := none
  sequence i := i
  threads _ := .idle

/-- What happens next. -/
inductive Action (ι T : Type*)
  /-- An idle thread calls push(), which claims a position. -/
  | push (i : ι) (item : T)
  /-- An idle thread calls pop(), which loads the tail. -/
  | pop (i : ι)
  /-- A thread makes its next access. A weak compare-exchange may fail without a reason. -/
  | next (i : ι) (spurious : Bool)

/-- What a thread has done. -/
inductive Event (T : Type*)
  | claimed (pos : ℕ) (item : T)
  | wrote (pos : ℕ)
  | published (pos : ℕ)
  | advanced (pos : ℕ)
  | read (pos : ℕ)
  /-- pop() returned true with what it read. -/
  | returned (pos : ℕ) (out : Option T)
  /-- pop() returned false. -/
  | empty

variable [DecidableEq ι]

/-- A thread goes on. -/
def State.goto (s : State ι T) (i : ι) (thread : Thread T) : State ι T :=
  { s with threads := Function.update s.threads i thread }

/-- The next access of a thread, and what it has done by it. -/
def access (ring : Ring) (s : State ι T) (i : ι) (spurious : Bool) :
    Thread T → Option (State ι T × List (Event T))
  | .idle => none
  | .waiting pos item =>
    if s.sequence (ring.slot pos) = pos then some (s.goto i (.writing pos item), [])
    else some (s, [])
  | .writing pos item =>
    some ({ s with data := Function.update s.data (ring.slot pos) (some item) }.goto i
      (.publishing pos), [.wrote pos])
  | .publishing pos =>
    some ({ s with sequence := Function.update s.sequence (ring.slot pos) (pos + 1) }.goto i .idle,
      [.published pos])
  | .checking pos =>
    let diff : ℤ := s.sequence (ring.slot pos) - (pos + 1)
    if diff = 0 then some (s.goto i (.advancing pos), [])
    else if diff < 0 then some (s.goto i .idle, [.empty])
    else some (s.goto i .reloading, [])
  | .advancing pos =>
    if s.tail = pos ∧ !spurious then
      some ({ s with tail := pos + 1 }.goto i (.reading pos), [.advanced pos])
    else some (s.goto i (.checking s.tail), [])
  | .reloading => some (s.goto i (.checking s.tail), [])
  | .reading pos => some (s.goto i (.freeing pos (s.data (ring.slot pos))), [.read pos])
  | .freeing pos out =>
    some ({ s with
      sequence := Function.update s.sequence (ring.slot pos) (pos + ring.size) }.goto i .idle,
      [.returned pos out])

/-- One step of the buffer. -/
def step (ring : Ring) (s : State ι T) : Action ι T → Option (State ι T × List (Event T))
  | .push i item =>
    match s.threads i with
    | .idle => some ({ s with head := s.head + 1 }.goto i (.waiting s.head item),
        [.claimed s.head item])
    | _ => none
  | .pop i =>
    match s.threads i with
    | .idle => some (s.goto i (.checking s.tail), [])
    | _ => none
  | .next i spurious => access ring s i spurious (s.threads i)

/-- The runs of a buffer, with what its threads have done. -/
def machine (ring : Ring) (ι T : Type*) [DecidableEq ι] :
    Machine (State ι T × List (Event T)) (Action ι T) where
  Init x := x = (initial ι T, [])
  step x a := (step ring x.1 a).map fun y ↦ (y.1, x.2 ++ y.2)

end CppGate.RingBuffer
