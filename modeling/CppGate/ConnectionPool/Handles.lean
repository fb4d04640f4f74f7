import CppGate.Foundations.Machine
import Mathlib.Data.List.Basic
import Mathlib.Logic.Function.Basic
import Mathlib.Tactic.Simps.Basic

/-!
# Handles

`Pooled` of `ConnectionPool.h`: a pointer to the pool and an optional connection. A move empties the
source, a release or a discard empties the handle, and each calls the pool for a connection that the
handle had.

What carries it is that a handle has a connection exactly if it has a pool (`Inv.shape`): so no
connection is destroyed without a call, and the moved-from value that `std::move` leaves in an
optional is reset before anybody can see it. A connection is then a token that the operations pass
on, from one handle to another or to the pool (`handles_linear`).

Handles are objects at addresses `ι`, of pools `π`. Each connection that acquire() returns is named
by the number of that call.
-/

namespace CppGate.ConnectionPool

universe u v

variable {ι : Type u} {π : Type v}

/-! ### One handle -/

/-- What a `T` contains: a connection, or nothing after it was moved from. -/
inductive Content
  | connection (lease : ℕ)
  | movedFrom
  deriving DecidableEq, Repr

/-- `Pooled`. -/
structure Pooled (π : Type v) where
  pool : Option π := none
  connection : Option Content := none
  deriving DecidableEq, Repr

/-- A call of the pool. -/
inductive PoolCall (π : Type v)
  | giveBack (pool : π) (content : Content)
  /-- `dropped`, with what was destroyed before it. -/
  | dropped (pool : π) (content : Content)
  deriving DecidableEq, Repr

namespace PoolCall

def pool : PoolCall π → π
  | .giveBack pool _ | .dropped pool _ => pool

def content : PoolCall π → Content
  | .giveBack _ content | .dropped _ content => content

def isDropped : PoolCall π → Bool
  | .giveBack .. => false
  | .dropped .. => true

end PoolCall

namespace Pooled

/-- `std::move(*connection_)`, once its result is constructed: the optional still has a value. -/
def moveOut (h : Pooled π) : Pooled π :=
  { h with connection := h.connection.map fun _ ↦ .movedFrom }

/-- `connection_.reset()`. -/
def resetConnection (h : Pooled π) : Pooled π :=
  { h with connection := none }

/-- `pool_.reset()`, or what a move leaves of `pool_`. -/
def resetPool (h : Pooled π) : Pooled π :=
  { h with pool := none }

/-- `release`. -/
def release (h : Pooled π) : Pooled π × List (PoolCall π) :=
  match h.connection, h.pool with
  | some content, some pool => (h.moveOut.resetConnection.resetPool, [.giveBack pool content])
  | _, _ => (h.resetConnection.resetPool, [])

/-- `discard`. -/
def discard (h : Pooled π) : Pooled π × List (PoolCall π) :=
  match h.connection, h.pool with
  | some content, some pool => (h.resetConnection.resetPool, [.dropped pool content])
  | _, _ => (h.resetConnection.resetPool, [])

/-- `Pooled(Pooled&&)`: the new handle, and the other. -/
def moveConstruct (other : Pooled π) : Pooled π × Pooled π :=
  let this : Pooled π := { pool := other.pool }
  let other := other.resetPool
  match other.connection with
  | some content => ({ this with connection := some content }, other.moveOut.resetConnection)
  | none => (this, other.resetConnection)

/-- `operator=(Pooled&&)` for another handle: this one, the other, and the calls. -/
def moveAssign (this other : Pooled π) : Pooled π × Pooled π × List (PoolCall π) :=
  let (this, calls) := this.release
  let this := { this with pool := other.pool }
  let other := other.resetPool
  match other.connection with
  | some content =>
    ({ this with connection := some content }, other.moveOut.resetConnection, calls)
  | none => (this, other.resetConnection, calls)

/-- The connection that a handle holds. -/
def lease (h : Pooled π) : Option ℕ :=
  match h.connection with
  | some (.connection n) => some n
  | _ => none

@[simp] theorem release_empty : ({} : Pooled π).release = ({}, []) := rfl

@[simp] theorem discard_empty : ({} : Pooled π).discard = ({}, []) := rfl

theorem release_full (pool : π) (n : ℕ) :
    release ⟨some pool, some (.connection n)⟩ = ({}, [.giveBack pool (.connection n)]) := rfl

theorem discard_full (pool : π) (n : ℕ) :
    discard ⟨some pool, some (.connection n)⟩ = ({}, [.dropped pool (.connection n)]) := rfl

/-- A move construction hands over whatever there is. -/
theorem moveConstruct_eq (other : Pooled π) : other.moveConstruct = (other, {}) := by
  obtain ⟨pool, _ | content⟩ := other <;> rfl

/-- A move assignment is a release and a move construction in its place. -/
theorem moveAssign_eq (this other : Pooled π) :
    this.moveAssign other = (other, {}, this.release.2) := by
  obtain ⟨pool, _ | content⟩ := other
  · rcases this with ⟨_ | _, _ | _⟩ <;> rfl
  · rcases this with ⟨_ | _, _ | _⟩ <;> rfl

end Pooled

/-! ### Any number of handles -/

/-- The handles of a program, and what they have called. -/
structure Handles (ι : Type u) (π : Type v) where
  /-- The handle at an address, if there is one. -/
  objects : ι → Option (Pooled π)
  /-- The pool of each connection that acquire() has returned. -/
  leases : List π := []
  calls : List (PoolCall π) := []

namespace Handles

/-- What is done with handles. -/
inductive Action (ι : Type u) (π : Type v)
  /-- acquire() returns a handle. -/
  | acquire (i : ι) (pool : π)
  | default (i : ι)
  | moveConstruct (i j : ι)
  | moveAssign (i j : ι)
  | release (i : ι)
  | discard (i : ι)
  | destroy (i : ι)

variable [DecidableEq ι]

/-- Change what is at an address. -/
@[simps] def put (s : Handles ι π) (i : ι) (object : Option (Pooled π)) : Handles ι π :=
  { s with objects := Function.update s.objects i object }

/-- The pool is called. -/
@[simps] def call (s : Handles ι π) (calls : List (PoolCall π)) : Handles ι π :=
  { s with calls := s.calls ++ calls }

/-- One step: objects are constructed where there is none, and used where there is one. -/
def step (s : Handles ι π) : Action ι π → Option (Handles ι π)
  | .acquire i pool =>
    match s.objects i with
    | none =>
      let this : Pooled π := ⟨some pool, some (.connection s.leases.length)⟩
      some ({ s with leases := s.leases ++ [pool] }.put i (some this))
    | some _ => none
  | .default i =>
    match s.objects i with
    | none => some (s.put i (some {}))
    | some _ => none
  | .moveConstruct i j =>
    match s.objects i, s.objects j with
    | none, some other =>
      let (this, other) := other.moveConstruct
      some ((s.put j (some other)).put i (some this))
    | _, _ => none
  | .moveAssign i j =>
    match s.objects i, s.objects j with
    | some this, some other =>
      if i = j then
        some s
      else
        let (this, other, calls) := this.moveAssign other
        some (((s.put j (some other)).put i (some this)).call calls)
    | _, _ => none
  | .release i =>
    (s.objects i).map fun this ↦ (s.put i (some this.release.1)).call this.release.2
  | .discard i =>
    (s.objects i).map fun this ↦ (s.put i (some this.discard.1)).call this.discard.2
  | .destroy i =>
    (s.objects i).map fun this ↦ (s.put i none).call this.release.2

/-- The connection that the handle at an address holds. -/
def held (s : Handles ι π) (i : ι) : Option ℕ :=
  (s.objects i).bind Pooled.lease

/-- The calls of the pool with a connection. -/
def callsOf (s : Handles ι π) (n : ℕ) : List (PoolCall π) :=
  s.calls.filter fun call ↦ call.content = .connection n

/-- The connections on whose handle a step calls discard(). -/
def discards (s : Handles ι π) : Action ι π → List ℕ
  | .discard i => (s.held i).toList
  | _ => []

/-- The handle that a step leaves empty. -/
def Action.empties : Action ι π → Option ι
  | .moveConstruct _ j => some j
  | .moveAssign i j => if i = j then none else some j
  | .release i | .discard i => some i
  | _ => none

/-- Handles and the connections that were discarded. -/
def machine (ι : Type u) (π : Type v) [DecidableEq ι] :
    Machine (Handles ι π × List ℕ) (Action ι π) :=
  Machine.logged ⟨fun s ↦ s = { objects := fun _ ↦ none }, step⟩ fun s a _ ↦ s.discards a

/-! ### The invariant -/

/-- The invariant of the handles, and of the connections that were discarded. -/
structure Inv (s : Handles ι π) (discarded : List ℕ) : Prop where
  /-- A handle has a pool exactly if it has a connection, and that is one of the pool's. -/
  shape : ∀ i h, s.objects i = some h → h = {} ∨
    ∃ n pool, s.leases[n]? = some pool ∧ h = ⟨some pool, some (.connection n)⟩
  unique : ∀ i j n, s.held i = some n → s.held j = some n → i = j
  /-- A connection is held, or one call has ended it. -/
  settled : ∀ n < s.leases.length,
    (∃ i, s.held i = some n) ∧ s.callsOf n = [] ∧ n ∉ discarded ∨
      (∀ i, s.held i ≠ some n) ∧ ∃ call, s.callsOf n = [call] ∧
        s.leases[n]? = some call.pool ∧ (call.isDropped = true ↔ n ∈ discarded)
  known : ∀ call ∈ s.calls, ∃ n < s.leases.length, call.content = .connection n
  discarded_lt : ∀ n ∈ discarded, n < s.leases.length

variable {s t : Handles ι π} {discarded : List ℕ} {i j : ι}

/-- Storing an object changes what that handle holds, and no other. -/
theorem held_put (s : Handles ι π) (i : ι) (object : Option (Pooled π)) :
    (s.put i object).held = Function.update s.held i (object.bind Pooled.lease) := by
  funext k
  by_cases hk : k = i
  · subst hk
    rw [held, put_objects, Function.update_self, Function.update_self]
  · rw [held, put_objects, Function.update_of_ne hk, Function.update_of_ne hk, held]

omit [DecidableEq ι] in
@[simp] theorem held_call (s : Handles ι π) (calls : List (PoolCall π)) :
    (s.call calls).held = s.held := rfl

omit [DecidableEq ι] in
theorem callsOf_call (s : Handles ι π) (calls : List (PoolCall π)) (n : ℕ) :
    (s.call calls).callsOf n =
      s.callsOf n ++ calls.filter fun call ↦ call.content = .connection n :=
  List.filter_append ..

omit [DecidableEq ι] in
/-- What a handle holds is one of the leases. -/
theorem Inv.held_lt (h : Inv s discarded) {n : ℕ} (hi : s.held i = some n) :
    n < s.leases.length := by
  obtain ⟨object, hobject, hlease⟩ := Option.bind_eq_some_iff.1 hi
  rcases h.shape i object hobject with rfl | ⟨m, pool, hm, rfl⟩
  · cases hlease
  · obtain rfl : m = n := Option.some.inj hlease
    exact (List.getElem?_eq_some_iff.1 hm).1

omit [DecidableEq ι] in
theorem Inv.init : Inv ({ objects := fun _ ↦ none } : Handles ι π) [] where
  shape _ _ h := absurd h.symm (Option.some_ne_none _)
  unique _ _ _ h := absurd h.symm (Option.some_ne_none _)
  settled _ h := absurd h (Nat.not_lt_zero _)
  known _ h := absurd h List.not_mem_nil
  discarded_lt _ h := absurd h List.not_mem_nil

/-- What is at an address changes, but not who holds what. -/
theorem Inv.replaced (h : Inv s discarded) (hi : s.held i = none) {object : Option (Pooled π)}
    (hobject : ∀ this ∈ object, this = {}) : Inv (s.put i object) discarded := by
  have hlease : object.bind Pooled.lease = none := by
    cases object with
    | none => rfl
    | some this => rw [hobject this rfl]; rfl
  have hheld : (s.put i object).held = s.held := by
    rw [held_put, hlease, ← hi, Function.update_eq_self]
  constructor
  case shape =>
    intro k this hk
    rw [put_objects] at hk
    by_cases heq : k = i
    · subst heq
      rw [Function.update_self] at hk
      exact Or.inl (hobject this hk)
    · rw [Function.update_of_ne heq] at hk
      exact h.shape k this hk
  case unique =>
    rw [hheld]
    exact h.unique
  case settled =>
    rw [hheld]
    exact h.settled
  case known => exact h.known
  case discarded_lt => exact h.discarded_lt

/-- **A call of the pool ends what a handle held**, if it held something. -/
theorem Inv.ended (h : Inv s discarded) {n : ℕ} {pool : π}
    (hi : s.objects i = some ⟨some pool, some (.connection n)⟩) {object : Option (Pooled π)}
    (hobject : ∀ this ∈ object, this = {}) {c : PoolCall π} (hcontent : c.content = .connection n)
    (hpool : c.pool = pool) :
    Inv ((s.put i object).call [c]) (discarded ++ if c.isDropped then [n] else []) := by
  have hheld : s.held i = some n := by rw [held, hi]; rfl
  have hn := h.held_lt hheld
  have hlease : object.bind Pooled.lease = none := by
    cases object with
    | none => rfl
    | some this => rw [hobject this rfl]; rfl
  have hmine : s.leases[n]? = some pool := by
    rcases h.shape i _ hi with hempty | ⟨m, pool', hm, heq⟩
    · cases hempty
    · cases heq
      exact hm
  obtain ⟨-, hnone, hkept⟩ | ⟨hfree, -⟩ := h.settled n hn
  swap
  · exact absurd hheld (hfree i)
  -- nobody holds it any more, and the others hold what they held
  have hafter : ∀ k m, ((s.put i object).call [c]).held k = some m ↔
      k ≠ i ∧ s.held k = some m := by
    intro k m
    rw [held_call, held_put, hlease]
    by_cases hk : k = i
    · subst hk
      simp
    · rw [Function.update_of_ne hk]
      simp [hk]
  have hcalls : ∀ m, ((s.put i object).call [c]).callsOf m =
      s.callsOf m ++ if m = n then [c] else [] := by
    intro m
    have hput : (s.put i object).callsOf m = s.callsOf m := rfl
    rw [callsOf_call, hput]
    by_cases hm : m = n
    · subst hm
      rw [if_pos rfl, List.filter_cons_of_pos (by simpa using hcontent), List.filter_nil]
    · have hne : ¬(c.content = .connection m) := by
        rw [hcontent]
        exact fun heq ↦ hm (Content.connection.inj heq).symm
      rw [if_neg hm, List.filter_cons_of_neg (by simpa using hne), List.filter_nil]
  have hdrops : ∀ m, m ∈ discarded ++ (if c.isDropped then [n] else []) ↔
      m ∈ discarded ∨ c.isDropped = true ∧ m = n := by
    intro m
    rw [List.mem_append]
    split <;> simp_all
  constructor
  case shape =>
    intro k this hk
    rw [call_objects, put_objects] at hk
    by_cases heq : k = i
    · subst heq
      rw [Function.update_self] at hk
      exact Or.inl (hobject this hk)
    · rw [Function.update_of_ne heq] at hk
      exact h.shape k this hk
  case unique =>
    intro k l m hk hl
    exact h.unique k l m ((hafter k m).1 hk).2 ((hafter l m).1 hl).2
  case settled =>
    intro m hm
    rw [hcalls]
    by_cases hmn : m = n
    · subst hmn
      refine Or.inr ⟨fun k hk ↦ ?_, c, ?_, hmine.trans (congrArg some hpool.symm), ?_⟩
      · obtain ⟨hne, hk⟩ := (hafter k m).1 hk
        exact hne (h.unique k i m hk hheld)
      · rw [hnone, if_pos rfl, List.nil_append]
      · rw [hdrops]
        exact ⟨fun hd ↦ Or.inr ⟨hd, rfl⟩, fun hd ↦ (hd.resolve_left hkept).1⟩
    · rw [if_neg hmn, List.append_nil]
      have hsame : (m ∈ discarded ++ if c.isDropped then [n] else []) ↔ m ∈ discarded :=
        (hdrops m).trans (or_iff_left fun hd ↦ hmn hd.2)
      rcases h.settled m hm with ⟨⟨k, hk⟩, hcall, hfresh⟩ | ⟨hfree, d, hd, hpools, hiff⟩
      · refine Or.inl ⟨⟨k, (hafter k m).2 ⟨?_, hk⟩⟩, hcall, fun hd ↦ hfresh (hsame.1 hd)⟩
        rintro rfl
        exact hmn (Option.some.inj (hk.symm.trans hheld))
      · exact Or.inr ⟨fun k hk ↦ hfree k ((hafter k m).1 hk).2, d, hd, hpools,
          hiff.trans hsame.symm⟩
  case known =>
    intro d hd
    rcases List.mem_append.1 hd with hd | hd
    · exact h.known d hd
    · obtain rfl := List.mem_singleton.1 hd
      exact ⟨n, hn, hcontent⟩
  case discarded_lt =>
    intro m hm
    rcases (hdrops m).1 hm with hm | ⟨-, rfl⟩
    · exact h.discarded_lt m hm
    · exact hn

/-- acquire() returns a handle with another connection. -/
theorem Inv.acquire (h : Inv s discarded) (hi : s.objects i = none) (pool : π) :
    Inv ({ s with leases := s.leases ++ [pool] }.put i
      (some ⟨some pool, some (.connection s.leases.length)⟩)) discarded := by
  have hlast : (s.leases ++ [pool])[s.leases.length]? = some pool := List.getElem?_concat_length ..
  have hlength : (s.leases ++ [pool]).length = s.leases.length + 1 := List.length_append
  have hkept : ∀ {n : ℕ}, n < s.leases.length → (s.leases ++ [pool])[n]? = s.leases[n]? :=
    fun hn ↦ List.getElem?_append_left hn
  -- the others hold what they held, and `i` the new one
  have hafter : ∀ k n, ({ s with leases := s.leases ++ [pool] }.put i
      (some ⟨some pool, some (.connection s.leases.length)⟩)).held k = some n ↔
        k = i ∧ n = s.leases.length ∨ s.held k = some n := by
    intro k n
    rw [held_put]
    by_cases hk : k = i
    · subst hk
      have hnone : s.held k = none := by rw [held, hi]; rfl
      rw [Function.update_self, hnone]
      simp [Pooled.lease, eq_comm]
    · rw [Function.update_of_ne hk]
      simp only [hk, false_and, false_or]
      exact Iff.rfl
  constructor
  case shape =>
    intro k this hk
    rw [put_objects] at hk
    by_cases heq : k = i
    · subst heq
      rw [Function.update_self, Option.some.injEq] at hk
      exact Or.inr ⟨s.leases.length, pool, hlast, hk.symm⟩
    · rw [Function.update_of_ne heq] at hk
      rcases h.shape k this hk with hempty | ⟨n, pool', hn, hthis⟩
      · exact Or.inl hempty
      · exact Or.inr ⟨n, pool', (hkept (List.getElem?_eq_some_iff.1 hn).1).trans hn, hthis⟩
  case unique =>
    intro k l n hk hl
    rcases (hafter k n).1 hk with ⟨rfl, hkn⟩ | hkn <;>
      rcases (hafter l n).1 hl with ⟨rfl, hln⟩ | hln
    · rfl
    · exact absurd (h.held_lt hln) (hkn ▸ Nat.lt_irrefl _)
    · exact absurd (h.held_lt hkn) (hln ▸ Nat.lt_irrefl _)
    · exact h.unique k l n hkn hln
  case settled =>
    intro n hn
    have hn' : n < s.leases.length ∨ n = s.leases.length := by
      rw [put_leases, hlength] at hn
      omega
    rcases hn' with hn' | rfl
    · rcases h.settled n hn' with ⟨⟨k, hk⟩, hcalls, hfresh⟩ | ⟨hfree, c, hc, hpool, hiff⟩
      · exact Or.inl ⟨⟨k, (hafter k n).2 (Or.inr hk)⟩, hcalls, hfresh⟩
      · refine Or.inr ⟨fun k hk ↦ ?_, c, hc, (hkept hn').trans hpool, hiff⟩
        rcases (hafter k n).1 hk with ⟨-, rfl⟩ | hk
        · exact Nat.lt_irrefl _ hn'
        · exact hfree k hk
    · refine Or.inl ⟨⟨i, (hafter i _).2 (Or.inl ⟨rfl, rfl⟩)⟩, ?_, fun hd ↦ ?_⟩
      · refine List.filter_eq_nil_iff.2 fun c hc ↦ ?_
        obtain ⟨m, hm, hcontent⟩ := h.known c hc
        rw [hcontent, decide_eq_true_eq, Content.connection.injEq]
        exact Nat.ne_of_lt hm
      · exact Nat.lt_irrefl _ (h.discarded_lt _ hd)
  case known =>
    intro c hc
    obtain ⟨n, hn, hcontent⟩ := h.known c hc
    exact ⟨n, by rw [put_leases, hlength]; exact Nat.lt_succ_of_lt hn, hcontent⟩
  case discarded_lt =>
    intro n hn
    rw [put_leases, hlength]
    exact Nat.lt_succ_of_lt (h.discarded_lt n hn)

/-- **A move** passes on what the other handle holds to one that holds nothing. -/
theorem Inv.moved (h : Inv s discarded) (hi : s.held i = none) (hij : i ≠ j)
    {other : Pooled π} (hj : s.objects j = some other) :
    Inv ((s.put j (some {})).put i (some other)) discarded := by
  have hother : s.held j = other.lease := by rw [held, hj]; rfl
  have hafter : ∀ k n, ((s.put j (some {})).put i (some other)).held k = some n ↔
      k = i ∧ s.held j = some n ∨ k ≠ i ∧ k ≠ j ∧ s.held k = some n := by
    intro k n
    rw [held_put, held_put]
    by_cases hki : k = i
    · subst hki
      rw [Function.update_self, hother]
      simp
    · rw [Function.update_of_ne hki]
      by_cases hkj : k = j
      · subst hkj
        rw [Function.update_self]
        simp [hki, Pooled.lease]
      · rw [Function.update_of_ne hkj]
        simp [hki, hkj]
  have hanyone : ∀ n, (∃ k, ((s.put j (some {})).put i (some other)).held k = some n) ↔
      ∃ k, s.held k = some n := by
    intro n
    constructor
    · rintro ⟨k, hk⟩
      rcases (hafter k n).1 hk with ⟨-, hk⟩ | ⟨-, -, hk⟩
      · exact ⟨j, hk⟩
      · exact ⟨k, hk⟩
    · rintro ⟨k, hk⟩
      by_cases hkj : k = j
      · exact ⟨i, (hafter i n).2 (Or.inl ⟨rfl, hkj ▸ hk⟩)⟩
      · have hki : k ≠ i := by
          rintro rfl
          exact Option.some_ne_none n (hk.symm.trans hi)
        exact ⟨k, (hafter k n).2 (Or.inr ⟨hki, hkj, hk⟩)⟩
  constructor
  case shape =>
    intro k this hk
    rw [put_objects] at hk
    by_cases hki : k = i
    · subst hki
      rw [Function.update_self] at hk
      exact h.shape j this (hj.trans hk)
    · rw [Function.update_of_ne hki, put_objects] at hk
      by_cases hkj : k = j
      · subst hkj
        rw [Function.update_self] at hk
        exact Or.inl (Option.some.inj hk).symm
      · rw [Function.update_of_ne hkj] at hk
        exact h.shape k this hk
  case unique =>
    intro k l n hk hl
    rcases (hafter k n).1 hk with ⟨rfl, hkn⟩ | ⟨-, hkj, hkn⟩ <;>
      rcases (hafter l n).1 hl with ⟨rfl, hln⟩ | ⟨-, hlj, hln⟩
    · rfl
    · exact absurd (h.unique l j n hln hkn) hlj
    · exact absurd (h.unique k j n hkn hln) hkj
    · exact h.unique k l n hkn hln
  case settled =>
    intro n hn
    rcases h.settled n hn with ⟨hheld, hcalls, hfresh⟩ | ⟨hfree, hended⟩
    · exact Or.inl ⟨(hanyone n).2 hheld, hcalls, hfresh⟩
    · refine Or.inr ⟨fun k hk ↦ ?_, hended⟩
      obtain ⟨l, hl⟩ := (hanyone n).1 ⟨k, hk⟩
      exact hfree l hl
  case known => exact h.known
  case discarded_lt => exact h.discarded_lt

/-! ### The operations -/

/-- release(), after which the handle is empty or ends. -/
theorem Inv.release (h : Inv s discarded) {this : Pooled π} (hi : s.objects i = some this)
    {object : Option (Pooled π)} (hobject : ∀ this ∈ object, this = {}) :
    Inv ((s.put i object).call this.release.2) discarded := by
  rcases h.shape i this hi with rfl | ⟨n, pool, -, rfl⟩
  · have hnone : s.held i = none := by rw [held, hi]; rfl
    have hkept := h.replaced hnone hobject
    have hsame : (s.put i object).call ({} : Pooled π).release.2 = s.put i object := by
      rw [Pooled.release_empty, call, List.append_nil]
    rwa [hsame]
  · have hended := h.ended hi hobject (c := .giveBack pool (.connection n)) rfl rfl
    rwa [PoolCall.isDropped, if_neg Bool.false_ne_true, List.append_nil] at hended

/-- discard(), after which the handle is empty. -/
theorem Inv.discard (h : Inv s discarded) {this : Pooled π} (hi : s.objects i = some this) :
    Inv ((s.put i (some {})).call this.discard.2) (discarded ++ (s.held i).toList) := by
  have hobject : ∀ this ∈ some ({} : Pooled π), this = {} := fun _ h ↦ (Option.some.inj h).symm
  rcases h.shape i this hi with rfl | ⟨n, pool, -, rfl⟩
  · have hnone : s.held i = none := by rw [held, hi]; rfl
    have hkept := h.replaced hnone hobject
    have hsame : (s.put i (some {})).call ({} : Pooled π).discard.2 = s.put i (some {}) := by
      rw [Pooled.discard_empty, call, List.append_nil]
    rwa [hsame, hnone, Option.toList_none, List.append_nil]
  · have hheld : s.held i = some n := by rw [held, hi]; rfl
    rw [hheld]
    exact h.ended hi hobject (c := .dropped pool (.connection n)) rfl rfl

omit [DecidableEq ι] in
/-- A handle that is released or discarded is empty. -/
theorem Inv.released (h : Inv s discarded) {this : Pooled π} (hi : s.objects i = some this) :
    this.release.1 = {} ∧ this.discard.1 = {} := by
  rcases h.shape i this hi with rfl | ⟨n, pool, -, rfl⟩
  · exact ⟨rfl, rfl⟩
  · exact ⟨rfl, rfl⟩

/-- Every action keeps the accounts of the handles. -/
theorem Inv.step (h : Inv s discarded) {a : Action ι π} (ha : s.step a = some t) :
    Inv t (discarded ++ s.discards a) := by
  cases a with
  | acquire i pool =>
    rw [show discarded ++ s.discards (.acquire i pool) = discarded from List.append_nil _]
    rw [Handles.step] at ha
    split at ha
    · next hi => exact Option.some.inj ha ▸ h.acquire hi pool
    · cases ha
  | default i =>
    rw [show discarded ++ s.discards (.default i) = discarded from List.append_nil _]
    rw [Handles.step] at ha
    split at ha
    · next hi =>
      have hnone : s.held i = none := by rw [held, hi]; rfl
      exact Option.some.inj ha ▸ h.replaced hnone fun _ h ↦ (Option.some.inj h).symm
    · cases ha
  | moveConstruct i j =>
    rw [show discarded ++ s.discards (.moveConstruct i j) = discarded from List.append_nil _]
    rw [Handles.step] at ha
    split at ha
    · next other hi hj =>
      rw [Pooled.moveConstruct_eq] at ha
      have hij : i ≠ j := by
        rintro rfl
        exact Option.some_ne_none other (hj.symm.trans hi)
      have hnone : s.held i = none := by rw [held, hi]; rfl
      exact Option.some.inj ha ▸ h.moved hnone hij hj
    · cases ha
  | moveAssign i j =>
    rw [show discarded ++ s.discards (.moveAssign i j) = discarded from List.append_nil _]
    rw [Handles.step] at ha
    split at ha
    · next this other hi hj =>
      split at ha
      · exact Option.some.inj ha ▸ h
      · next hij =>
        rw [Pooled.moveAssign_eq] at ha
        -- the release first, then the move
        have hempty : ∀ left ∈ some ({} : Pooled π), left = {} :=
          fun _ h ↦ (Option.some.inj h).symm
        have hreleased := h.release hi hempty
        have hnone : ((s.put i (some {})).call this.release.2).held i = none := by
          rw [held_call, held_put, Function.update_self]
          rfl
        have hj' : ((s.put i (some {})).call this.release.2).objects j = some other := by
          rw [call_objects, put_objects, Function.update_of_ne (Ne.symm hij), hj]
        have hmoved := hreleased.moved hnone hij hj'
        have hsame : ((((s.put i (some {})).call this.release.2).put j (some {})).put i
            (some other)) =
              ((s.put j (some {})).put i (some other)).call this.release.2 := by
          rw [put, put, put, call, call]
          dsimp only
          rw [Function.update_comm hij, Function.update_idem]
          rfl
        rw [hsame] at hmoved
        exact Option.some.inj ha ▸ hmoved
    · cases ha
  | release i =>
    rw [show discarded ++ s.discards (.release i) = discarded from List.append_nil _]
    obtain ⟨this, hi, rfl⟩ := Option.map_eq_some_iff.1 ha
    exact h.release hi fun _ hthis ↦ (Option.some.inj hthis) ▸ (h.released hi).1
  | discard i =>
    obtain ⟨this, hi, rfl⟩ := Option.map_eq_some_iff.1 ha
    rw [(h.released hi).2]
    exact h.discard hi
  | destroy i =>
    rw [show discarded ++ s.discards (.destroy i) = discarded from List.append_nil _]
    obtain ⟨this, hi, rfl⟩ := Option.map_eq_some_iff.1 ha
    exact h.release hi fun _ hthis ↦ absurd hthis (Option.not_mem_none _)

theorem inv_of_reachable {x : Handles ι π × List ℕ} (h : (machine ι π).Reachable x) :
    Inv x.1 x.2 := by
  refine h.invariant (I := fun x ↦ Inv x.1 x.2) ?_ fun x a y hx hstep ↦ ?_
  · rintro ⟨s, discarded⟩ ⟨rfl, rfl⟩
    exact Inv.init
  · obtain ⟨hstep, hlog⟩ := Machine.logged_step hstep
    rw [hlog]
    exact hx.step hstep

omit [DecidableEq ι] in
/-- A handle that holds nothing has no pool either. -/
theorem Inv.eq_empty (h : Inv s discarded) {this : Pooled π} (hi : s.objects i = some this)
    (hthis : this.connection = none) : this = {} := by
  rcases h.shape i this hi with hempty | ⟨n, pool, -, rfl⟩
  · exact hempty
  · cases hthis

/-- The handle that an action empties is empty afterwards. -/
theorem Inv.empties (h : Inv s discarded) {a : Action ι π} (ha : s.step a = some t)
    (hi : a.empties = some i) : t.objects i = some {} := by
  cases a with
  | acquire | default | destroy => cases hi
  | moveConstruct k j =>
    obtain rfl := Option.some.inj hi
    rw [Handles.step] at ha
    split at ha
    · next other hk hj =>
      rw [Pooled.moveConstruct_eq] at ha
      obtain rfl := Option.some.inj ha
      have hne : j ≠ k := by
        rintro rfl
        exact Option.some_ne_none other (hj.symm.trans hk)
      rw [put_objects, Function.update_of_ne hne, put_objects, Function.update_self]
    · cases ha
  | moveAssign k j =>
    rw [Action.empties] at hi
    rw [Handles.step] at ha
    split at ha
    · split at ha
      · next heq =>
        rw [if_pos heq] at hi
        cases hi
      · next hne =>
        rw [if_neg hne] at hi
        obtain rfl := Option.some.inj hi
        rw [Pooled.moveAssign_eq] at ha
        obtain rfl := Option.some.inj ha
        rw [call_objects, put_objects, Function.update_of_ne (Ne.symm hne), put_objects,
          Function.update_self]
    · cases ha
  | release k =>
    obtain rfl := Option.some.inj hi
    obtain ⟨this, hk, rfl⟩ := Option.map_eq_some_iff.1 ha
    rw [call_objects, put_objects, Function.update_self, (h.released hk).1]
  | discard k =>
    obtain rfl := Option.some.inj hi
    obtain ⟨this, hk, rfl⟩ := Option.map_eq_some_iff.1 ha
    rw [call_objects, put_objects, Function.update_self, (h.released hk).2]

/-! ### Linearity -/

/-- **Pooled handles are linear**, in every state of every run. -/
theorem handles_linear {x : Handles ι π × List ℕ} (h : (machine ι π).Reachable x) :
    -- a connection is held by one handle, or led to one call, of its own pool
    (∀ n < x.1.leases.length,
      (∃ i, ∀ j, x.1.held j = some n ↔ j = i) ∧ x.1.callsOf n = [] ∨
        (∀ i, x.1.held i ≠ some n) ∧ ∃ call, x.1.callsOf n = [call] ∧
          x.1.leases[n]? = some call.pool ∧ (call.isDropped = true ↔ n ∈ x.2)) ∧
    (∀ call ∈ x.1.calls, ∃ n < x.1.leases.length, call.content = .connection n) ∧
    -- moved-from, released and discarded handles are empty
    (∀ a y, (machine ι π).step x a = some y → ∀ i, a.empties = some i →
      y.1.objects i = some {}) ∧
    -- and nothing happens to them
    ∀ i this, x.1.objects i = some this → this.connection = none →
      x.1.step (.release i) = some x.1 ∧ x.1.step (.discard i) = some x.1 ∧
        x.1.step (.destroy i) = some (x.1.put i none) := by
  have hinv := inv_of_reachable h
  refine ⟨fun n hn ↦ ?_, hinv.known, fun a y hstep i hi ↦ ?_, fun i this hi hthis ↦ ?_⟩
  · rcases hinv.settled n hn with ⟨⟨i, hi⟩, hcalls, -⟩ | hended
    · refine Or.inl ⟨⟨i, fun j ↦ ⟨fun hj ↦ hinv.unique j i n hj hi, ?_⟩⟩, hcalls⟩
      rintro rfl
      exact hi
    · exact Or.inr hended
  · exact hinv.empties (Machine.logged_step hstep).1 hi
  · obtain rfl := hinv.eq_empty hi hthis
    have hcalled : ∀ s : Handles ι π, s.call [] = s := fun s ↦ by rw [call, List.append_nil]
    have hsame : x.1.put i (some {}) = x.1 := by rw [put, ← hi, Function.update_eq_self]
    refine ⟨?_, ?_, ?_⟩
    · rw [Handles.step, hi, Option.map_some, Pooled.release_empty, hcalled, hsame]
    · rw [Handles.step, hi, Option.map_some, Pooled.discard_empty, hcalled, hsame]
    · rw [Handles.step, hi, Option.map_some, Pooled.release_empty, hcalled]

/-- A connection is moved to a new handle, over a full one and over an empty one, and discarded. -/
def movedOn : List (Action ℕ Unit) :=
  [.acquire 0 (), .moveConstruct 1 0, .acquire 2 (), .moveAssign 2 1, .moveAssign 2 2,
    .moveAssign 0 2, .discard 0, .release 0, .destroy 0]

theorem handles_linear_movedOn :
    ∃ x, (machine ℕ Unit).run ({ objects := fun _ ↦ none }, []) movedOn = some x ∧
      x.1.calls = [.giveBack () (.connection 1), .dropped () (.connection 0)] ∧
      ∀ i, x.1.held i ≠ some 0 := by
  obtain ⟨x, hrun, hcalls, hlength⟩ :
      ∃ x, (machine ℕ Unit).run ({ objects := fun _ ↦ none }, []) movedOn = some x ∧
        x.1.calls = [.giveBack () (.connection 1), .dropped () (.connection 0)] ∧
        x.1.leases.length = 2 := ⟨_, rfl, rfl, rfl⟩
  refine ⟨x, hrun, hcalls, ?_⟩
  have hx := Machine.run_reachable (M := machine ℕ Unit) movedOn ⟨rfl, rfl⟩ hrun
  rcases (handles_linear hx).1 0 (hlength ▸ Nat.zero_lt_two) with ⟨-, hnone⟩ | ⟨hfree, -⟩
  · rw [callsOf, hcalls] at hnone
    exact absurd hnone (by decide)
  · exact hfree

end Handles

end CppGate.ConnectionPool
