import CppGate.WebSocketSession.SendQueue

/-!
# What the counter of pending messages counts

`pending_` is counted up on the thread that sends and down on the strand, at five places. What it
counts is `owed`: the messages in the queue, those whose task has not run, and those whose task a
thread has yet to post. Every step moves the two by the same amount. Without the last ones the count
is one short while a thread is between its two statements (`counted_before_posted`).

With it goes the write loop, which is restarted by the message that finds the queue empty: the queue
is empty only while nothing is written, since the message being written stays in it.
-/

namespace CppGate.WebSocketSession

variable {limit : ℕ} {s t : State}

/-- The messages that were sent and are still to be written: queued, posted, or to be posted. -/
def State.owed (s : State) : ℕ :=
  s.writeQueue.length + s.tasks.countP Task.isSend + s.sending.length

/-- What the session knows of its messages. The limit is a `std::size_t`, as is the counter. -/
structure Accounted (limit : ℕ) (s : State) : Prop where
  pending : limit < 2 ^ 64 → s.pending = s.owed % 2 ^ 64
  bounded : s.writeQueue.length ≤ limit
  /-- One async_write at a time. -/
  single : s.writing.length ≤ 1
  /-- It writes the first message of the queue. -/
  front : ∀ w ∈ s.writing, s.writeQueue.head? = some w.message

theorem Accounted.init : Accounted limit {} :=
  ⟨fun _ ↦ rfl, Nat.zero_le _, Nat.zero_le _, fun _ hw ↦ absurd hw List.not_mem_nil⟩

/-! ### The write loop -/

/-- do_write() begins to write the first message of the queue, if there is one. -/
theorem Accounted.doWrite (h : Accounted limit s) (hidle : s.writing = []) :
    Accounted limit (doWrite s) := by
  rw [WebSocketSession.doWrite]
  split
  · exact h
  · next message rest hqueue =>
    refine ⟨h.pending, h.bounded, ?_, fun w hw ↦ ?_⟩
    · rw [hidle]
      exact le_rfl
    · rw [hidle, List.nil_append, List.mem_singleton] at hw
      rw [hw, hqueue, List.head?_cons]

/-- Nothing is written while the queue is empty. -/
theorem Accounted.writing_eq_nil (h : Accounted limit s) (hqueue : s.writeQueue = []) :
    s.writing = [] := by
  refine List.eq_nil_iff_forall_not_mem.2 fun w hw ↦ ?_
  have hfront := h.front w hw
  rw [hqueue] at hfront
  exact Option.some_ne_none _ hfront.symm

/-- The outstanding write is the only one. -/
theorem Accounted.rest_eq_nil (h : Accounted limit s) {w : Write} {writing : List Write}
    (hw : s.writing = w :: writing) : writing = [] := by
  have hsingle := h.single
  rw [hw, List.length_cons] at hsingle
  exact List.length_eq_zero_iff.1 (by omega)

/-! ### Tasks and completions -/

/-- A posted task that is no send owes nothing. -/
theorem Accounted.post (h : Accounted limit s) {task : Task} (htask : task.isSend = false) :
    Accounted limit { s with tasks := s.tasks ++ [task] } := by
  refine ⟨fun hlimit ↦ ?_, h.bounded, h.single, h.front⟩
  rw [h.pending hlimit, State.owed, State.owed, List.countP_append, List.countP_singleton, htask]
  rfl

/-- A thread counts its message. -/
theorem Accounted.count (h : Accounted limit s) (message : Message) :
    Accounted limit (s.count message) := by
  refine ⟨fun hlimit ↦ ?_, h.bounded, h.single, h.front⟩
  have howed : (s.count message).owed = s.owed + 1 := by
    show _ + (s.sending ++ [message]).length = _
    rw [List.length_append, List.length_singleton, ← Nat.add_assoc]
    rfl
  rw [howed, ← Word.add_mod s.owed (Nat.one_lt_two_pow (by decide)), ← h.pending hlimit]
  rfl

/-- A message that is posted was counted before. -/
theorem owed_post {i : ℕ} {message : Message} (hi : s.sending[i]? = some message) :
    (s.post i message).owed = s.owed := by
  obtain ⟨hlt, -⟩ := List.getElem?_eq_some_iff.1 hi
  show s.writeQueue.length + (s.tasks ++ [Task.send message]).countP Task.isSend +
    (s.sending.eraseIdx i).length = _
  have hsend : [Task.send message].countP Task.isSend = 1 := rfl
  rw [List.countP_append, hsend, List.length_eraseIdx_of_lt hlt, State.owed]
  omega

/-- A thread posts the task of the message that it counted. -/
theorem Accounted.postSend (h : Accounted limit s) {i : ℕ} {message : Message}
    (hi : s.sending[i]? = some message) : Accounted limit (s.post i message) :=
  ⟨fun hlimit ↦ (h.pending hlimit).trans (by rw [owed_post hi]), h.bounded, h.single, h.front⟩

/-- A posted close begins to close the stream. -/
theorem Accounted.runClose (h : Accounted limit s) {code : CloseCode} {tasks : List Task}
    (htasks : s.tasks = .close code :: tasks) :
    Accounted limit (runClose { s with tasks } code) := by
  have hpending (hlimit : limit < 2 ^ 64) :
      s.pending = ({ s with tasks } : State).owed % 2 ^ 64 := by
    rw [h.pending hlimit, State.owed, State.owed, htasks,
      List.countP_cons_of_neg Bool.false_ne_true]
  rw [WebSocketSession.runClose]
  split <;> exact ⟨hpending, h.bounded, h.single, h.front⟩

/-- The task of a send has run: what it owed is now in the queue, or was dropped. -/
theorem Accounted.runSend (h : Accounted limit s) {message : Message} {tasks : List Task}
    (htasks : s.tasks = .send message :: tasks) :
    Accounted limit (runSend limit { s with tasks } message) := by
  have howed : s.owed = s.writeQueue.length + tasks.countP Task.isSend + s.sending.length + 1 := by
    rw [State.owed, htasks, List.countP_cons_of_pos rfl]
    omega
  have hsettled (hlimit : limit < 2 ^ 64) : Word.sub 64 s.pending 1 =
      (s.writeQueue.length + tasks.countP Task.isSend + s.sending.length) % 2 ^ 64 := by
    rw [h.pending hlimit, Word.sub_mod (by omega) (Nat.one_lt_two_pow (by decide)), howed,
      Nat.add_sub_cancel]
  rw [WebSocketSession.runSend]
  dsimp only
  split
  · exact ⟨hsettled, h.bounded, h.single, h.front⟩
  split
  · have hclose : (Task.close policyError).isSend = false := rfl
    have hdropped : Accounted limit
        { ({ s with tasks, sent := s.sent ++ [message] } : State).settle 1 with
          overflowed := true } := ⟨hsettled, h.bounded, h.single, h.front⟩
    exact hdropped.post hclose
  next hfull =>
  -- the message joins the queue
  let queued : State := { s with
    tasks, sent := s.sent ++ [message], writeQueue := s.writeQueue ++ [message] }
  have hlength : queued.writeQueue.length = s.writeQueue.length + 1 := List.length_append
  have hqueued : Accounted limit queued := by
    refine ⟨fun hlimit ↦ ?_, by omega, h.single, fun w hw ↦ ?_⟩
    · show s.pending = (queued.writeQueue.length + tasks.countP Task.isSend + s.sending.length) %
        2 ^ 64
      rw [h.pending hlimit, howed, hlength]
      congr 1
      omega
    · rw [List.head?_append, h.front w hw, Option.some_or]
  split
  · next hone =>
    refine hqueued.doWrite (h.writing_eq_nil (List.length_eq_zero_iff.1 ?_))
    change queued.writeQueue.length = 1 at hone
    omega
  · exact hqueued

/-- A written message is counted down. -/
theorem Accounted.onWritten (h : Accounted limit s) {w : Write} {writing : List Write}
    (hw : s.writing = w :: writing) : Accounted limit (onWritten { s with writing } w.message) := by
  have hcons : s.writeQueue = w.message :: s.writeQueue.tail :=
    (List.cons_head?_tail (h.front w (hw ▸ List.mem_cons_self))).symm
  have hlength : s.writeQueue.length = s.writeQueue.tail.length + 1 := congrArg List.length hcons
  obtain rfl := h.rest_eq_nil hw
  refine Accounted.doWrite
    ⟨fun hlimit ↦ ?_, ?_, Nat.zero_le _, fun _ hw' ↦ absurd hw' List.not_mem_nil⟩ rfl
  · show Word.sub 64 s.pending 1 =
      (s.writeQueue.tail.length + s.tasks.countP Task.isSend + s.sending.length) % 2 ^ 64
    rw [h.pending hlimit, Word.sub_mod (by rw [State.owed]; omega) (Nat.one_lt_two_pow (by decide)),
      State.owed, hlength]
    congr 1
    omega
  · have hbounded := h.bounded
    show s.writeQueue.tail.length ≤ limit
    omega

/-- The whole queue is counted down when a write has failed. -/
theorem Accounted.onWriteFailed (h : Accounted limit s) {w : Write} {writing : List Write}
    (hw : s.writing = w :: writing) :
    Accounted limit (onWriteFailed { s with writing }) := by
  have hbounded := h.bounded
  obtain rfl := h.rest_eq_nil hw
  refine ⟨fun hlimit ↦ ?_, Nat.zero_le _, Nat.zero_le _, fun _ hw' ↦ absurd hw' List.not_mem_nil⟩
  show Word.sub 64 s.pending s.writeQueue.length =
    (0 + s.tasks.countP Task.isSend + s.sending.length) % 2 ^ 64
  rw [h.pending hlimit, Word.sub_mod (by rw [State.owed]; omega) (by omega), State.owed]
  congr 1
  omega

/-- **The step lemma**: the counter and what it counts go together. -/
theorem Accounted.step (h : Accounted limit s) {a : Action}
    (ha : WebSocketSession.step limit s a = some t) : Accounted limit t := by
  cases stepped_of_step ha with
  | send message => exact h.count message
  | post i message hi => exact h.postSend hi
  | close code => exact h.post rfl
  | runSend message tasks htasks => exact h.runSend htasks
  | runClose code tasks htasks => exact h.runClose htasks
  | written w writing hw => exact h.onWritten hw
  | failed w writing hw => exact h.onWriteFailed hw
  | lost => exact ⟨h.pending, h.bounded, h.single, h.front⟩

/-- The accounts are kept in every run. -/
theorem Accounted.reachable (h : (machine limit).Reachable s) : Accounted limit s := by
  refine h.invariant (fun s hs ↦ ?_) fun _ _ _ hs ha ↦ hs.step ha
  obtain rfl := hs
  exact Accounted.init

/-! ### The accounts of every run -/

/-- The step with which a send counts its message. -/
def Action.isSend : Action → Bool
  | .send _ => true
  | _ => false

@[simp] theorem owed_doWrite (s : State) : (doWrite s).owed = s.owed := by
  rw [doWrite]
  split <;> rfl

/-- A close task owes nothing. -/
theorem owed_close (s : State) (code : CloseCode) : (close s code).owed = s.owed := by
  show _ + (s.tasks ++ [Task.close code]).countP Task.isSend + _ = _
  rw [List.countP_append]
  rfl

/-- Only a send adds to what is owed. -/
theorem owed_step {a : Action} (ha : step limit s a = some t) (hsend : a.isSend = false) :
    t.owed ≤ s.owed := by
  cases stepped_of_step ha with
  | send => exact absurd hsend.symm Bool.false_ne_true
  | post i message hi => exact (owed_post hi).le
  | close code => exact (owed_close s code).le
  | runSend message tasks htasks =>
    have howed : s.owed =
        s.writeQueue.length + tasks.countP Task.isSend + s.sending.length + 1 := by
      rw [State.owed, htasks, List.countP_cons_of_pos rfl]
      omega
    have hqueued : (s.writeQueue ++ [message]).length + tasks.countP Task.isSend +
        s.sending.length = s.owed := by
      rw [List.length_append, howed, List.length_singleton]
      omega
    rw [runSend]
    dsimp only
    split
    · exact howed ▸ Nat.le_succ _
    split
    · exact (owed_close _ policyError).trans_le (howed ▸ Nat.le_succ _)
    split
    · exact (owed_doWrite _).trans_le hqueued.le
    · exact hqueued.le
  | runClose code tasks htasks =>
    have howed : s.owed = s.writeQueue.length + tasks.countP Task.isSend + s.sending.length := by
      rw [State.owed, htasks, List.countP_cons_of_neg Bool.false_ne_true]
    rw [runClose]
    split <;> exact howed.ge
  | written w writing =>
    refine (owed_doWrite _).trans_le (Nat.add_le_add_right (Nat.add_le_add_right ?_ _) _)
    show s.writeQueue.tail.length ≤ s.writeQueue.length
    rw [List.length_tail]
    exact Nat.sub_le _ _
  | failed w writing =>
    exact Nat.add_le_add_right (Nat.add_le_add_right (Nat.zero_le _) _) _
  | lost => exact le_rfl

/-- **The accounts of the send queue.** In every run `pending_` counts the queued messages, the
posted tasks and the sends that are about to post theirs, so it never goes below zero as long as
these can be counted at all; the queue stays within its limit, and one async_write at a time is
outstanding, of the first message in it. -/
theorem send_queue_accounted (hlimit : limit < 2 ^ 64) (h : (machine limit).Reachable s) :
    s.pending = s.owed % 2 ^ 64 ∧
      (s.owed < 2 ^ 64 → s.pending = s.owed ∧
        ∀ a t, step limit s a = some t → a.isSend = false → t.pending ≤ s.pending) ∧
      s.writeQueue.length ≤ limit ∧ s.writing.length ≤ 1 ∧
      ∀ w ∈ s.writing, s.writeQueue.head? = some w.message := by
  have haccounted := Accounted.reachable h
  have hpending := haccounted.pending hlimit
  refine ⟨hpending, fun hfits ↦ ?_, haccounted.bounded, haccounted.single, haccounted.front⟩
  have hexact : s.pending = s.owed := hpending.trans (Nat.mod_eq_of_lt hfits)
  refine ⟨hexact, fun a t ha hsend ↦ ?_⟩
  rw [(haccounted.step ha).pending hlimit, hexact]
  exact (Nat.mod_le _ _).trans (owed_step ha hsend)

/-- Two messages for a queue of one: the second is dropped, and the write of the first fails. -/
def dropsOne : List Action :=
  [.send ⟨[1], true⟩, .send ⟨[2], true⟩, .post 0, .post 0, .task, .task, .written false]

theorem send_queue_accounted_dropsOne :
    ∃ s, (machine 1).run {} dropsOne = some s ∧ s.owed = 0 ∧ s.pending = s.owed % 2 ^ 64 ∧
      s.writing.length ≤ 1 := by
  have hrun := Machine.run_reachable (M := machine 1) dropsOne rfl rfl
  have haccounted := send_queue_accounted (by decide) hrun
  exact ⟨_, rfl, rfl, haccounted.1, haccounted.2.2.2.1⟩

/-- A thread has counted its message and not posted it: `pending_` is one more than the queue and
the posted tasks. -/
theorem counted_before_posted :
    ¬ ∀ limit ≥ 1, ∀ s, (machine limit).Reachable s →
      s.pending = s.writeQueue.length + s.tasks.countP Task.isSend :=
  fun h ↦ absurd (h 1 le_rfl _ (Machine.run_reachable (M := machine 1) [.send ⟨[1], true⟩] rfl rfl))
    (by decide)

end CppGate.WebSocketSession
