import CppGate.WebSocketSession.Accounting

/-!
# What a WebSocket client receives

The messages written to a client are meant to be a prefix of those sent to it. A message that finds
the queue full is dropped, and close() only posts its task: a send task that was posted in between
and finds room again writes its message after the gap.

`delivered_prefix_of_sent` is the guarantee for all runs in which that does not happen.
-/

namespace CppGate.WebSocketSession

variable {limit : ℕ} {s t : State}

/-- A send task finds room after a message was dropped for a full queue, while `closing_` is not
set: the branch that leaves a gap. (After a failed write nothing is written. The close that was
posted with the drop sets `closing_` unless the stream is no longer open.) -/
def RoomAfterOverflow (limit : ℕ) (s : State) (a : Action) : Prop :=
  a = .task ∧ s.tasks.head?.map Task.isSend = some true ∧ s.overflowed = true ∧
    s.closing = false ∧ s.failed = false ∧ s.writeQueue.length < limit

instance (limit : ℕ) (s : State) (a : Action) : Decidable (RoomAfterOverflow limit s a) :=
  inferInstanceAs (Decidable (_ ∧ _))

/-- What keeps the messages in order: those delivered, followed by those that are queued, are the
first ones sent — all of them, as long as nothing was dropped. -/
structure InOrder (s : State) : Prop where
  delivered : s.delivered <+: s.sent
  queued : s.failed = false → s.delivered ++ s.writeQueue <+: s.sent
  complete : s.failed = false → s.closing = false → s.overflowed = false →
    s.delivered ++ s.writeQueue = s.sent

theorem InOrder.init : InOrder {} where
  delivered := List.prefix_rfl
  queued _ := List.prefix_rfl
  complete _ _ _ := rfl

/-- What the write loop does keeps the order: it only starts to write the first message. -/
theorem InOrder.doWrite (h : InOrder s) : InOrder (doWrite s) := by
  unfold WebSocketSession.doWrite
  split
  · exact h
  · exact ⟨h.delivered, h.queued, h.complete⟩

/-- A dropped message was sent; the queue stays as it is. -/
theorem InOrder.drop (h : InOrder s) {message : Message} (ht : t.delivered = s.delivered)
    (hsent : t.sent = s.sent ++ [message]) (hqueue : t.writeQueue = s.writeQueue)
    (hfailed : t.failed = s.failed) (hdropped : t.closing = true ∨ t.overflowed = true) :
    InOrder t where
  delivered := by
    rw [ht, hsent]
    exact h.delivered.trans (List.prefix_append _ _)
  queued hok := by
    rw [ht, hsent, hqueue]
    exact (h.queued (hfailed ▸ hok)).trans (List.prefix_append _ _)
  complete _ hclosing hover := by
    rcases hdropped with hc | ho
    · exact absurd (hclosing.symm.trans hc) Bool.false_ne_true
    · exact absurd (hover.symm.trans ho) Bool.false_ne_true

/-- A send task queues its message, or drops it for good. -/
theorem InOrder.runSend (h : InOrder s) {message : Message}
    (hroom : s.overflowed = true → s.closing = true ∨ s.failed = true ∨
      limit ≤ s.writeQueue.length) : InOrder (runSend limit s message) := by
  unfold WebSocketSession.runSend
  dsimp only
  split
  · next hclosing => exact h.drop rfl rfl rfl rfl (Or.inl hclosing)
  next hclosing =>
  split
  · exact h.drop rfl rfl rfl rfl (Or.inr rfl)
  next hfull =>
  -- room: the message follows everything sent before it, unless writing has failed
  have hall (hok : s.failed = false) : s.delivered ++ s.writeQueue = s.sent := by
    refine h.complete hok (Bool.eq_false_iff.2 hclosing) (Bool.eq_false_iff.2 fun hover ↦ ?_)
    rcases hroom hover with hc | hf | hl
    · exact hclosing hc
    · exact absurd (hok.symm.trans hf) Bool.false_ne_true
    · exact hfull hl
  have hqueued : InOrder
      { s with sent := s.sent ++ [message], writeQueue := s.writeQueue ++ [message] } :=
    { delivered := h.delivered.trans (List.prefix_append _ _)
      queued := fun hok ↦ by
        show s.delivered ++ (s.writeQueue ++ [message]) <+: s.sent ++ [message]
        rw [← List.append_assoc, hall hok]
      complete := fun hok _ _ ↦ by
        show s.delivered ++ (s.writeQueue ++ [message]) = s.sent ++ [message]
        rw [← List.append_assoc, hall hok] }
  split
  · exact hqueued.doWrite
  · exact hqueued

/-- The first message was written. -/
theorem InOrder.written (h : InOrder s) {w : Write} {writing : List Write}
    (hhead : s.writeQueue.head? = some w.message) (hok : s.failed = false) :
    InOrder (onWritten { s with writing } w.message) := by
  have hcons : s.writeQueue = w.message :: s.writeQueue.tail :=
    (List.cons_head?_tail hhead).symm
  have hmove : s.delivered ++ [w.message] ++ s.writeQueue.tail = s.delivered ++ s.writeQueue := by
    rw [List.append_assoc, List.singleton_append, ← hcons]
  refine InOrder.doWrite ⟨?_, fun _ ↦ ?_, fun _ hclosing hover ↦ ?_⟩
  · show s.delivered ++ [w.message] <+: s.sent
    exact (List.prefix_append _ _).trans (hmove ▸ h.queued hok)
  · exact hmove ▸ h.queued hok
  · exact hmove.trans (h.complete hok hclosing hover)

/-- Every step that does not write past a gap keeps the order. The message being written is the
first in the queue. -/
theorem InOrder.step (h : InOrder s) (hfront : ∀ w ∈ s.writing, s.writeQueue.head? = some w.message)
    {a : Action} (hcond : ¬RoomAfterOverflow limit s a)
    (ha : WebSocketSession.step limit s a = some t) : InOrder t := by
  rcases stepped_of_step ha with _ | _ | _ | ⟨message, tasks, htasks⟩ | ⟨code, tasks, htasks⟩ |
    ⟨w, writing, hw, hok⟩ | ⟨w, writing, hw⟩ | _
  · exact ⟨h.delivered, h.queued, h.complete⟩
  · exact ⟨h.delivered, h.queued, h.complete⟩
  · exact ⟨h.delivered, h.queued, h.complete⟩
  · have htail : InOrder { s with tasks } := ⟨h.delivered, h.queued, h.complete⟩
    refine htail.runSend fun hover ↦ ?_
    by_contra hroom
    push Not at hroom
    exact hcond ⟨rfl, by rw [htasks]; rfl, hover, Bool.eq_false_iff.2 hroom.1,
      Bool.eq_false_iff.2 hroom.2.1, hroom.2.2⟩
  · unfold runClose
    split
    · exact ⟨h.delivered, h.queued, h.complete⟩
    · exact ⟨h.delivered, h.queued, fun _ hclosing ↦ absurd hclosing.symm Bool.false_ne_true⟩
  · rw [State.writable, Bool.and_eq_true, Bool.not_eq_true', Bool.not_eq_true'] at hok
    exact h.written (hfront w (hw ▸ List.mem_cons_self)) hok.2
  · exact ⟨h.delivered, fun hok ↦ absurd hok.symm Bool.false_ne_true,
      fun hok ↦ absurd hok.symm Bool.false_ne_true⟩
  · exact ⟨h.delivered, h.queued, h.complete⟩

/-- **No gap**, in every run in which no send task finds room after a drop while `closing_` is not
set. -/
theorem delivered_prefix_of_sent
    (h : (machine limit).ReachableVia (fun s a ↦ ¬RoomAfterOverflow limit s a) s) :
    s.delivered <+: s.sent := by
  have hinv : InOrder s ∧ Accounted limit s := by
    refine h.invariant (I := fun s ↦ InOrder s ∧ Accounted limit s) (fun s hs ↦ ?_)
      fun s a t hs hc ha ↦ ?_
    · obtain rfl := hs
      exact ⟨InOrder.init, Accounted.init⟩
    · exact ⟨hs.1.step hs.2.front hc ha, hs.2.step ha⟩
  exact hinv.1.delivered

/-- A text message of one byte, for runs on fixed inputs. -/
def byte (b : UInt8) : Message :=
  ⟨[b], true⟩

/-- Three messages for a queue of one: the second is dropped, and the close runs before the third.
-/
def closedInTime : List Action :=
  [.send (byte 1), .post 0, .send (byte 2), .post 0, .task, .task, .task, .send (byte 3), .post 0,
    .written true, .task]

/-- The same three messages, sent at once: the third finds room before the close runs. -/
def overtaken : List Action :=
  [.send (byte 1), .post 0, .send (byte 2), .post 0, .send (byte 3), .post 0, .task, .task,
    .written true, .task, .written true]

theorem delivered_prefix_of_sent_closedInTime :
    ∃ s, (machine 1).run {} closedInTime = some s ∧ s.delivered = [byte 1] ∧
      s.delivered <+: s.sent :=
  ⟨_, rfl, rfl, delivered_prefix_of_sent
    ((Machine.ReachableVia.init (M := machine 1) rfl).run closedInTime (by decide) rfl)⟩

theorem overtaken_leaves_gap :
    ¬∀ limit ≥ 1, ∀ s, (machine limit).Reachable s → s.delivered <+: s.sent :=
  fun h ↦ absurd (h 1 le_rfl _ (Machine.run_reachable (M := machine 1) overtaken rfl rfl))
    (by decide)

end CppGate.WebSocketSession
