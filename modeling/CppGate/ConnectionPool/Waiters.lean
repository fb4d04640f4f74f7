import CppGate.ConnectionPool.Pool

/-!
# The queue of waiting threads

What `waiters_` means: it lists, without repetition, exactly the threads that are in `wait_until`
with none of their waiter's fields set (`Queue.mem_iff`), and a waiter never has two of its fields
set (`Queue.single`), so whoever serves a waiter gives it exactly one thing.

`Queue` depends on `waiters_` and the table of threads only. Its lemmas follow the ways the pool's
sections change the two: a thread outside the queue moves on (`Queue.goto`), a thread joins at the
back (`Queue.push`), the front one is served (`Queue.serve`), a thread leaves by its timeout
(`Queue.leave`), close() tells all of them (`Queue.closeAll`).
-/

namespace CppGate.ConnectionPool

/-- The states of a waiter: nothing said yet, or exactly one thing. -/
def Waiter.Single (w : Waiter) : Prop :=
  w = {} ∨ (∃ c, w = { connection := some c }) ∨ w = { mayOpen := true } ∨ w = { closed := true }

/-- A waiter that was not served was told nothing. -/
theorem Waiter.Single.eq_empty {w : Waiter} (h : w.Single) (hs : w.served = false) : w = {} := by
  rcases h with rfl | ⟨c, rfl⟩ | rfl | rfl
  · rfl
  all_goals simp [Waiter.served] at hs

/-- The thread is in `wait_until`, served or not. -/
def Thread.isWaiting : Thread → Bool
  | .waiting _ _ => true
  | _ => false

theorem Thread.isWaiting_of_queued {t : Thread} (h : t.queued = true) : t.isWaiting = true := by
  cases t <;> simp_all [Thread.queued, Thread.isWaiting]

theorem Thread.queued_eq_false {t : Thread} (h : t.isWaiting = false) : t.queued = false :=
  Bool.eq_false_iff.2 fun hqueued ↦
    absurd (Thread.isWaiting_of_queued hqueued) (h ▸ Bool.false_ne_true)

/-- `waiters_` and the threads agree. -/
structure Queue (waiters : List Tid) (threads : List Thread) : Prop where
  /-- A thread is queued once. -/
  nodup : waiters.Nodup
  /-- The queued threads are those waiting unserved. -/
  mem_iff : ∀ i : Tid, i ∈ waiters ↔ ∃ d, threads[i]? = some (.waiting d {})
  /-- A waiter has been told at most one thing. -/
  single : ∀ (i : Tid) (d : Time) (w : Waiter), threads[i]? = some (.waiting d w) → w.Single

namespace Queue

variable {ws : List Tid} {ts : List Thread} {i : Tid} {t t' : Thread}

theorem empty : Queue [] [] :=
  ⟨List.nodup_nil, by simp, by simp⟩

/-- A thread that is not waiting unserved is not in the queue. -/
theorem not_mem (h : Queue ws ts) (ht : ts[i]? = some t) (hq : t.queued = false) : i ∉ ws := by
  intro hi
  obtain ⟨d, hd⟩ := (h.mem_iff i).1 hi
  obtain rfl : t = .waiting d {} := Option.some.inj (ht.symm.trans hd)
  simp [Thread.queued, Waiter.served] at hq

/-- A thread outside the queue moves to a point that is not `wait_until`. -/
theorem goto (h : Queue ws ts) (ht : ts[i]? = some t) (hq : t.queued = false)
    (ht' : t'.isWaiting = false) : Queue ws (ts.set i t') := by
  have hlen : i < ts.length := (List.getElem?_eq_some_iff.1 ht).1
  have hset : ∀ d w, (ts.set i t')[i]? ≠ some (.waiting d w) := by
    intro d w hw
    rw [List.getElem?_set_self hlen] at hw
    simp [← Option.some.inj hw.symm, Thread.isWaiting] at ht'
  refine ⟨h.nodup, fun j ↦ ?_, fun j d w hj ↦ ?_⟩
  · rcases eq_or_ne i j with rfl | hij
    · exact iff_of_false (h.not_mem ht hq) fun ⟨d, hd⟩ ↦ hset d {} hd
    · rw [List.getElem?_set_ne hij]
      exact h.mem_iff j
  · rcases eq_or_ne i j with rfl | hij
    · exact absurd hj (hset d w)
    · rw [List.getElem?_set_ne hij] at hj
      exact h.single j d w hj

/-- A thread outside the queue joins at the back. -/
theorem push (h : Queue ws ts) (ht : ts[i]? = some t) (hq : t.queued = false) (d : Time) :
    Queue (ws ++ [i]) (ts.set i (.waiting d {})) := by
  have hlen : i < ts.length := (List.getElem?_eq_some_iff.1 ht).1
  refine ⟨?_, fun j ↦ ?_, fun j e w hj ↦ ?_⟩
  · refine List.Nodup.append h.nodup (List.nodup_singleton i) fun j hj hji ↦ ?_
    rw [List.mem_singleton] at hji
    exact h.not_mem ht hq (hji ▸ hj)
  · rw [List.mem_append, List.mem_singleton]
    rcases eq_or_ne i j with rfl | hij
    · exact iff_of_true (Or.inr rfl) ⟨d, List.getElem?_set_self hlen⟩
    · rw [List.getElem?_set_ne hij, h.mem_iff j]
      exact ⟨fun hj ↦ hj.resolve_right (Ne.symm hij), Or.inl⟩
  · rcases eq_or_ne i j with rfl | hij
    · rw [List.getElem?_set_self hlen] at hj
      cases hj
      exact Or.inl rfl
    · rw [List.getElem?_set_ne hij] at hj
      exact h.single j e w hj

/-- The front of the queue is served. -/
theorem serve (h : Queue (i :: ws) ts) {f : Waiter → Waiter} (hf : (f {}).Single)
    (hserved : (f {}).served = true) : Queue ws (ts.modify i (Thread.mapWaiter f)) := by
  obtain ⟨d, hd⟩ := (h.mem_iff i).1 List.mem_cons_self
  have hi : (ts.modify i (Thread.mapWaiter f))[i]? = some (.waiting d (f {})) := by
    rw [List.getElem?_modify_eq, hd]
    rfl
  obtain ⟨hnot, hnodup⟩ := List.nodup_cons.1 h.nodup
  refine ⟨hnodup, fun j ↦ ?_, fun j e w hj ↦ ?_⟩
  · rcases eq_or_ne i j with rfl | hij
    · refine iff_of_false hnot fun ⟨e, he⟩ ↦ ?_
      obtain ⟨-, hw⟩ := Thread.waiting.inj (Option.some.inj (hi.symm.trans he))
      rw [hw] at hserved
      exact absurd hserved (by decide)
    · rw [List.getElem?_modify_ne _ _ hij, ← h.mem_iff j, List.mem_cons]
      exact ⟨Or.inr, fun hj ↦ hj.resolve_left (Ne.symm hij)⟩
  · rcases eq_or_ne i j with rfl | hij
    · obtain ⟨-, rfl⟩ := Thread.waiting.inj (Option.some.inj (hi.symm.trans hj))
      exact hf
    · rw [List.getElem?_modify_ne _ _ hij] at hj
      exact h.single j e w hj

/-- A queued thread leaves, wherever it stands in the queue. -/
theorem leave (h : Queue ws ts) {d : Time} (ht : ts[i]? = some (.waiting d {}))
    (ht' : t'.isWaiting = false) : Queue (ws.erase i) (ts.set i t') := by
  have hlen : i < ts.length := (List.getElem?_eq_some_iff.1 ht).1
  have hset : ∀ d w, (ts.set i t')[i]? ≠ some (.waiting d w) := by
    intro d w hw
    rw [List.getElem?_set_self hlen] at hw
    simp [← Option.some.inj hw.symm, Thread.isWaiting] at ht'
  refine ⟨h.nodup.erase i, fun j ↦ ?_, fun j e w hj ↦ ?_⟩
  · rw [h.nodup.mem_erase_iff]
    rcases eq_or_ne i j with rfl | hij
    · exact iff_of_false (fun hi ↦ hi.1 rfl) fun ⟨e, he⟩ ↦ hset e {} he
    · rw [List.getElem?_set_ne hij, ← h.mem_iff j]
      exact ⟨And.right, fun hj ↦ ⟨Ne.symm hij, hj⟩⟩
  · rcases eq_or_ne i j with rfl | hij
    · exact absurd hj (hset e w)
    · rw [List.getElem?_set_ne hij] at hj
      exact h.single j e w hj

/-- close() tells every queued thread, front to back. -/
theorem closeAll (h : Queue ws ts) : Queue []
    (ws.foldl (fun ts w ↦ ts.modify w (Thread.mapWaiter Waiter.tellClosed)) ts) := by
  induction ws generalizing ts with
  | nil => exact h
  | cons i ws ih =>
    rw [List.foldl_cons]
    exact ih (h.serve (Or.inr (Or.inr (Or.inr rfl))) rfl)

/-- A thread starts. -/
theorem spawn (h : Queue ws ts) (r : Result) : Queue ws (ts ++ [.returned r]) := by
  have hget : ∀ (j : Tid) (d : Time) (w : Waiter), (ts ++ [.returned r])[j]? = some (.waiting d w) ↔
      ts[j]? = some (.waiting d w) := by
    intro j d w
    rcases Nat.lt_trichotomy j ts.length with hj | rfl | hj
    · rw [List.getElem?_append_left hj]
    · simp
    · rw [List.getElem?_eq_none (by simp; omega), List.getElem?_eq_none (by omega)]
  refine ⟨h.nodup, fun j ↦ ?_, fun j d w hj ↦ h.single j d w ((hget j d w).1 hj)⟩
  rw [h.mem_iff j]
  exact exists_congr fun d ↦ (hget j d {}).symm

end Queue

end CppGate.ConnectionPool
