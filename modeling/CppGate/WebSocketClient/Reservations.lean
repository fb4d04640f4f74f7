import CppGate.WebSocketClient.QueueSteps
import Mathlib.Data.List.Perm.Basic

/-!
# What the counter of pending messages counts

send() reserves a place on the calling thread, by a loop of compare-exchanges that never goes above
the limit, and three places on the strand give places back: a task that finds another connection, a
write that completed, and `closed`, for the whole queue at once. The counter is the length of the
queue and the places reserved by calls whose task has not run, in every state.

The writes need more than counting. The completion of a write finds its message at the front of the
queue because an open connection has one write of its own at a time, and those of earlier streams
are told apart by their generation. Generations are `unsigned`, so after 2 ^ 32 attempts a number is
taken again; what follows about the writes is about runs in which no write of the earlier stream is
outstanding when that happens (`WritesApart`).
-/

namespace CppGate.WebSocketClient

open CppGate.WebSocketSession (Message)

/-! ### Places -/

/-- A running call of send() that has reserved a place. -/
def Sender.hasPlace : Sender → Bool
  | .capture _ | .post _ _ => true
  | _ => false

/-- The places reserved by calls of send() whose task has not run. -/
def Connection.reserved (s : Connection) : ℕ :=
  s.senders.countP Sender.hasPlace + s.sendTasks.length

/-- What the connection knows of its messages. The limit is a `std::size_t`, as is the counter. -/
structure Accounted (cfg : Config) (s : Connection) : Prop where
  pending : cfg.sendQueueLimit < 2 ^ 64 →
    s.pending = s.writeQueue.length + s.reserved ∧ s.pending ≤ cfg.sendQueueLimit
  /-- Messages are queued on an open connection only. -/
  cleared : s.state.isOpen = false → s.writeQueue = []

variable {cfg : Config} {s t : Connection}

theorem SameSends.reserved (h : SameSends s t) : t.reserved = s.reserved := by
  rw [Connection.reserved, Connection.reserved, h.senders, h.sendTasks]

/-- The places of the running calls, one of them apart. -/
theorem countP_senders {i : ℕ} {sender : Sender} (h : s.senders[i]? = some sender) :
    s.senders.countP Sender.hasPlace =
      (s.senders.eraseIdx i).countP Sender.hasPlace + sender.hasPlace.toNat := by
  obtain ⟨hi, rfl⟩ := List.getElem?_eq_some_iff.1 h
  rw [← (List.getElem_cons_eraseIdx_perm hi).countP_eq, List.countP_cons, Bool.toNat,
    Bool.cond_eq_ite]

/-- One of the running calls takes its next step. -/
theorem countP_senders_set {i : ℕ} {sender : Sender} (h : s.senders[i]? = some sender)
    (next : Sender) : (s.senders.set i next).countP Sender.hasPlace =
      (s.senders.eraseIdx i).countP Sender.hasPlace + next.hasPlace.toNat := by
  obtain ⟨hi, rfl⟩ := List.getElem?_eq_some_iff.1 h
  rw [(List.set_perm_cons_eraseIdx hi next).countP_eq, List.countP_cons, Bool.toNat,
    Bool.cond_eq_ite]

/-- What no step of sending changes. -/
theorem Accounted.moved (h : Accounted cfg s) (hmoved : Moved s t) : Accounted cfg t := by
  cases hmoved with
  | kept hsame hopen hopened hconnecting =>
    refine ⟨fun hlimit ↦ ?_, fun ht ↦ ?_⟩
    · rw [hsame.pending, hsame.writeQueue, hsame.reserved]
      exact h.pending hlimit
    · rw [hsame.writeQueue]
      refine h.cleared (Bool.eq_false_iff.2 fun hs ↦ ?_)
      exact Bool.false_ne_true (ht.symm.trans (hopen hs))
  | closed hopen hsame hdown =>
    refine ⟨fun hlimit ↦ ?_, fun _ ↦ hsame.writeQueue⟩
    obtain ⟨hpending, hbounded⟩ := h.pending hlimit
    have hleft : s.cleared.pending = s.reserved := by
      show Word.sub 64 s.pending s.writeQueue.length = s.reserved
      rw [Word.sub_eq_of_le (by omega), hpending, Nat.add_sub_cancel_left]
    have hreserved : s.cleared.reserved = s.reserved := rfl
    have hqueue : s.cleared.writeQueue = [] := rfl
    rw [hsame.pending, hsame.writeQueue, hsame.reserved, hleft, hqueue, hreserved]
    exact ⟨(Nat.zero_add _).symm, by omega⟩
  | attempted hclosed hsame hconnecting =>
    refine ⟨fun hlimit ↦ ?_, fun _ ↦ ?_⟩
    · rw [hsame.pending, hsame.writeQueue, hsame.reserved]
      exact h.pending hlimit
    · rw [hsame.writeQueue]
      exact h.cleared hclosed

/-- Beginning a write is no matter of places. -/
theorem Accounted.write (h : Accounted cfg s) (gen : ℕ) : Accounted cfg (write s gen) := by
  rw [write_eq]
  exact ⟨h.pending, h.cleared⟩

/-- **A call of send()** reserves a place only below the limit. -/
theorem Accounted.sender (h : Accounted cfg s) (i : ℕ) (spurious : Bool) {sender : Sender}
    (hsender : s.senders[i]? = some sender) : Accounted cfg (send cfg s i spurious sender) := by
  have hcount := countP_senders hsender
  have hset := countP_senders_set hsender
  have hcleared : (send cfg s i spurious sender).state.isOpen = false →
      (send cfg s i spurious sender).writeQueue = [] := by
    rw [send_eq]
    exact h.cleared
  refine ⟨fun hlimit ↦ ?_, hcleared⟩
  have hpending := h.pending hlimit
  rw [Connection.reserved, hcount] at hpending
  cases sender with
  | load message =>
    refine ⟨?_, hpending.2⟩
    show s.pending = s.writeQueue.length +
      ((s.senders.set i (.reserve message s.pending)).countP Sender.hasPlace + s.sendTasks.length)
    rw [hset]
    exact hpending.1
  | reserve message current =>
    rw [send]
    split
    · exact hpending
    split
    · next hfree hcas =>
      obtain ⟨hcurrent, -⟩ := hcas
      have hadd : Word.add 64 current 1 = current + 1 := Word.add_eq_of_lt (by omega)
      refine ⟨?_, by show Word.add 64 current 1 ≤ _; omega⟩
      show Word.add 64 current 1 = s.writeQueue.length +
        ((s.senders.set i (.capture message)).countP Sender.hasPlace + s.sendTasks.length)
      rw [hset, hadd, ← hcurrent, hpending.1]
      show _ + (_ + 0 + _) + 1 = _ + (_ + 1 + _)
      omega
    · refine ⟨?_, hpending.2⟩
      show s.pending = s.writeQueue.length +
        ((s.senders.set i (.reserve message s.pending)).countP Sender.hasPlace + s.sendTasks.length)
      rw [hset]
      exact hpending.1
  | capture message =>
    refine ⟨?_, hpending.2⟩
    show s.pending = s.writeQueue.length +
      ((s.senders.set i (.post message s.generation)).countP Sender.hasPlace + s.sendTasks.length)
    rw [hset]
    exact hpending.1
  | post message gen =>
    refine ⟨?_, hpending.2⟩
    show s.pending = s.writeQueue.length + ((s.senders.eraseIdx i).countP Sender.hasPlace +
      ((s.tasks ++ [Task.send message gen]).filterMap Task.send?).length)
    rw [List.filterMap_append, List.length_append, hpending.1]
    show _ + (_ + 1 + s.sendTasks.length) = _ + (_ + (s.sendTasks.length + 1))
    omega

/-- The task of a send() has run: its place is now a message's in the queue, or free. -/
theorem Accounted.task (h : Accounted cfg s) {message : Message} {gen : ℕ} {tasks : List Task}
    (ht : s.tasks = .send message gen :: tasks) :
    Accounted cfg (runSend { s with tasks := tasks } message gen) := by
  have hreserved : s.reserved =
      s.senders.countP Sender.hasPlace + ((tasks.filterMap Task.send?).length + 1) := by
    rw [Connection.reserved, Connection.sendTasks, ht]
    rfl
  rw [runSend]
  split
  · refine ⟨fun hlimit ↦ ?_, h.cleared⟩
    obtain ⟨hpending, hbounded⟩ := h.pending hlimit
    have hsub : Word.sub 64 s.pending 1 = s.pending - 1 := Word.sub_eq_of_le (by omega)
    refine ⟨?_, ?_⟩
    · show Word.sub 64 s.pending 1 = s.writeQueue.length +
        (s.senders.countP Sender.hasPlace + (tasks.filterMap Task.send?).length)
      omega
    · show Word.sub 64 s.pending 1 ≤ _
      omega
  · next hopen =>
    have hstate : s.state = .opened := Classical.byContradiction fun hs ↦ hopen (Or.inl hs)
    have hqueued : Accounted cfg
        { s with tasks := tasks, writeQueue := s.writeQueue ++ [message] } := by
      refine ⟨fun hlimit ↦ ⟨?_, (h.pending hlimit).2⟩, fun hclosed ↦ ?_⟩
      · show s.pending = (s.writeQueue ++ [message]).length +
          (s.senders.countP Sender.hasPlace + (tasks.filterMap Task.send?).length)
        rw [(h.pending hlimit).1, hreserved, List.length_append, List.length_singleton]
        omega
      · change s.state.isOpen = false at hclosed
        rw [hstate] at hclosed
        exact Bool.noConfusion hclosed
    dsimp only
    split
    · exact hqueued.write _
    · exact hqueued

/-- The completion of a write settles its message. -/
theorem Accounted.written (h : Accounted cfg s) (write : Write) (ec : Option ErrorCode) :
    Accounted cfg (onWrite { s with writes := s.writes.erase write } write.gen ec) := by
  rcases onWrite_cases { s with writes := s.writes.erase write } write.gen ec with
    heq | ⟨-, hne, heq⟩
  · rw [heq]
    exact ⟨h.pending, h.cleared⟩
  have hlength : 0 < s.writeQueue.length := List.length_pos_of_ne_nil hne
  have hpopped : Accounted cfg { s with
      writes := s.writes.erase write
      writeQueue := s.writeQueue.tail
      pending := Word.sub 64 s.pending 1 } := by
    refine ⟨fun hlimit ↦ ?_, fun hclosed ↦ ?_⟩
    · obtain ⟨hpending, hbounded⟩ := h.pending hlimit
      have hsub : Word.sub 64 s.pending 1 = s.pending - 1 := Word.sub_eq_of_le (by omega)
      refine ⟨?_, ?_⟩
      · show Word.sub 64 s.pending 1 = s.writeQueue.tail.length + s.reserved
        rw [List.length_tail]
        omega
      · show Word.sub 64 s.pending 1 ≤ _
        omega
    · exact absurd (h.cleared hclosed) hne
  rw [heq]
  split
  · exact hpopped
  · exact hpopped.write _

/-- **The step lemma** of the counter. -/
theorem Accounted.step (h : Accounted cfg s) (hinv : Inv cfg s) {action : Action}
    (hstep : step cfg s action = some t) : Accounted cfg t := by
  cases sent_of_step hinv hstep with
  | moved _ _ _ hmoved => exact h.moved hmoved
  | send message hconnected =>
    refine ⟨fun hlimit ↦ ?_, h.cleared⟩
    have hload : (s.senders ++ [Sender.load message]).countP Sender.hasPlace =
        s.senders.countP Sender.hasPlace := by
      rw [List.countP_append]
      rfl
    show s.pending = s.writeQueue.length +
      ((s.senders ++ [Sender.load message]).countP Sender.hasPlace + s.sendTasks.length) ∧ _
    rw [hload]
    exact h.pending hlimit
  | sender i spurious sender hsender => exact h.sender i spurious hsender
  | task message gen tasks ht => exact h.task ht
  | written write ec => exact h.written write ec

/-- **The run lemma** of the counter. -/
theorem accounted_of_reachable (h : (machine cfg).Reachable s) : Accounted cfg s := by
  refine (h.invariant (I := fun s ↦ Inv cfg s ∧ Accounted cfg s) (fun s hs ↦ ?_)
    fun s action t ⟨hinv, hs⟩ hstep ↦ ⟨inv_step s action t hinv hstep, hs.step hinv hstep⟩).2
  refine ⟨inv_init s hs, ?_⟩
  obtain rfl := hs
  exact ⟨fun _ ↦ ⟨rfl, Nat.zero_le _⟩, fun _ ↦ rfl⟩

/-! ### Writes -/

/-- The outstanding writes of the current generation. -/
def Connection.ownWrites (s : Connection) : List Write :=
  s.writes.filter fun write ↦ write.gen = s.generation

/-- No attempt takes the generation of a stream of which a write is outstanding. -/
def WritesApart (cfg : Config) (s : Connection) (action : Action) : Prop :=
  ∀ t, step cfg s action = some t → t.generation ≠ s.generation →
    ∀ write ∈ s.writes, write.gen ≠ t.generation

/-- An open connection writes the front of its queue, and nothing else. -/
structure WritesFront (s : Connection) : Prop where
  single : s.ownWrites.length ≤ 1
  front : s.state.isOpen = true → ∀ write ∈ s.ownWrites, s.writeQueue.head? = some write.message
  fresh : s.state = .connecting → s.ownWrites = []

theorem SameSends.ownWrites (h : SameSends s t) : t.ownWrites = s.ownWrites := by
  rw [Connection.ownWrites, Connection.ownWrites, h.writes, h.generation]

/-- An open connection with an empty queue writes nothing. -/
theorem WritesFront.ownWrites_eq_nil (h : WritesFront s) (hopen : s.state.isOpen = true)
    (hqueue : s.writeQueue = []) : s.ownWrites = [] := by
  refine List.eq_nil_iff_forall_not_mem.2 fun write hwrite ↦ ?_
  have hfront := h.front hopen write hwrite
  rw [hqueue] at hfront
  exact Option.some_ne_none _ hfront.symm

/-- `write` begins the one write of an open connection. -/
theorem WritesFront.write (hidle : s.ownWrites = []) (hopen : s.state.isOpen = true) :
    WritesFront (write s s.generation) := by
  have hconnecting : s.state ≠ .connecting := fun hs ↦ by
    rw [hs] at hopen
    exact Bool.false_ne_true hopen
  rw [WebSocketClient.write]
  split
  · refine ⟨by rw [hidle]; exact Nat.zero_le _, fun _ write hwrite ↦ ?_, fun _ ↦ hidle⟩
    rw [hidle] at hwrite
    exact absurd hwrite List.not_mem_nil
  · next message rest hqueue =>
    have hone : (⟨s.generation, message⟩ :: s.writes).filter
        (fun write ↦ write.gen = s.generation) = [⟨s.generation, message⟩] := by
      rw [List.filter_cons_of_pos (by exact decide_eq_true rfl)]
      exact congrArg _ hidle
    refine ⟨?_, fun _ write hwrite ↦ ?_, fun hs ↦ absurd hs hconnecting⟩
    · show (List.filter _ (_ :: s.writes)).length ≤ 1
      exact (congrArg List.length hone).le
    · change write ∈ (⟨s.generation, message⟩ :: s.writes).filter _ at hwrite
      rw [hone, List.mem_singleton] at hwrite
      show s.writeQueue.head? = some write.message
      rw [hwrite, hqueue, List.head?_cons]

/-- The connection goes on without sending. -/
theorem WritesFront.moved (h : WritesFront s) (hmoved : Moved s t)
    (hapart : t.generation ≠ s.generation → ∀ write ∈ s.writes, write.gen ≠ t.generation) :
    WritesFront t := by
  cases hmoved with
  | kept hsame hopen hopened hconnecting =>
    refine ⟨?_, fun ht write hwrite ↦ ?_, fun ht ↦ ?_⟩
    · rw [hsame.ownWrites]
      exact h.single
    · rw [hsame.ownWrites] at hwrite
      rw [hsame.writeQueue]
      rcases hopened ht with hs | hs
      · exact h.front hs write hwrite
      · rw [h.fresh hs] at hwrite
        exact absurd hwrite List.not_mem_nil
    · rw [hsame.ownWrites]
      exact h.fresh (hconnecting ht)
  | closed hopen hsame hdown =>
    refine ⟨?_, fun ht ↦ ?_, fun ht ↦ ?_⟩
    · rw [hsame.ownWrites]
      exact h.single
    · rcases hdown with hs | hs <;> rw [hs] at ht <;> exact absurd ht Bool.false_ne_true
    · rcases hdown with hs | hs <;> rw [hs] at ht <;> exact ConnectionState.noConfusion ht
  | attempted hclosed hsame hconnecting =>
    have hnew : t.generation ≠ s.generation := by
      rw [hsame.generation]
      exact Word.add_one_ne s.generation (by decide)
    have hnone : t.ownWrites = [] := by
      refine List.filter_eq_nil_iff.2 fun write hwrite hgen ↦ ?_
      rw [hsame.writes] at hwrite
      exact hapart hnew write hwrite (of_decide_eq_true hgen)
    refine ⟨?_, fun ht ↦ ?_, fun _ ↦ hnone⟩
    · rw [hnone]
      exact Nat.zero_le _
    · rw [hconnecting] at ht
      exact absurd ht Bool.false_ne_true

/-- A send task that finds the queue empty begins a write. -/
theorem WritesFront.task (h : WritesFront s) {message : Message} {gen : ℕ} (tasks : List Task) :
    WritesFront (runSend { s with tasks := tasks } message gen) := by
  rw [runSend]
  split
  · exact ⟨h.single, h.front, h.fresh⟩
  next htaken =>
  have hstate : s.state = .opened := Classical.byContradiction fun hs ↦ htaken (Or.inl hs)
  have hopen : s.state.isOpen = true := by rw [hstate]; rfl
  dsimp only
  split
  · next hone =>
    refine WritesFront.write (s := { s with
      tasks := tasks, writeQueue := s.writeQueue ++ [message] }) ?_ hopen
    rw [List.length_append, List.length_singleton] at hone
    exact h.ownWrites_eq_nil hopen (List.length_eq_zero_iff.1 (by omega))
  · refine ⟨h.single, fun _ write hwrite ↦ ?_, h.fresh⟩
    rw [List.head?_append, h.front hopen write hwrite, Option.some_or]

/-- The completion of a write begins the next one. -/
theorem WritesFront.written (h : WritesFront s)
    (hcleared : s.state.isOpen = false → s.writeQueue = []) {write : Write}
    (hwrite : write ∈ s.writes) (ec : Option ErrorCode) :
    WritesFront (onWrite { s with writes := s.writes.erase write } write.gen ec) := by
  have hsub : ((s.writes.erase write).filter fun w ↦ w.gen = s.generation).Sublist s.ownWrites :=
    List.erase_sublist.filter _
  have hkept : WritesFront { s with writes := s.writes.erase write } := by
    refine ⟨hsub.length_le.trans h.single, fun hopen w hw ↦ h.front hopen w (hsub.subset hw),
      fun hs ↦ ?_⟩
    have hnil := h.fresh hs
    rw [hnil] at hsub
    exact List.sublist_nil.1 hsub
  rcases onWrite_cases { s with writes := s.writes.erase write } write.gen ec with
    heq | ⟨hgen, hne, heq⟩
  · rw [heq]
    exact hkept
  have hopen : s.state.isOpen = true := by
    rw [← Bool.not_eq_false]
    exact fun hclosed ↦ hne (hcleared hclosed)
  -- the completed write was the only one of this generation
  have hidle : (s.writes.erase write).filter (fun w ↦ w.gen = s.generation) = [] := by
    have hown : write ∈ s.ownWrites := List.mem_filter.2 ⟨hwrite, decide_eq_true hgen⟩
    have hsingle := h.single
    have hlength : ((s.writes.erase write).filter fun w ↦ w.gen = s.generation).length =
        s.ownWrites.length - 1 := by
      rw [← List.countP_eq_length_filter, List.countP_erase, if_pos ⟨hwrite, decide_eq_true hgen⟩,
        List.countP_eq_length_filter, Connection.ownWrites]
    exact List.length_eq_zero_iff.1 (by omega)
  have hpopped : WritesFront { s with
      writes := s.writes.erase write
      writeQueue := s.writeQueue.tail
      pending := Word.sub 64 s.pending 1 } := by
    refine ⟨hkept.single, fun _ w hw ↦ ?_, hkept.fresh⟩
    have hnone : w ∈ (s.writes.erase write).filter fun w ↦ w.gen = s.generation := hw
    rw [hidle] at hnone
    exact absurd hnone List.not_mem_nil
  rw [heq]
  split
  · exact hpopped
  · rw [hgen]
    exact WritesFront.write hidle hopen

/-- **The step lemma** of the writes. -/
theorem WritesFront.step (h : WritesFront s) (hinv : Inv cfg s) (hacc : Accounted cfg s)
    {action : Action} (hapart : WritesApart cfg s action) (hstep : step cfg s action = some t) :
    WritesFront t := by
  have happly := hapart t hstep
  cases sent_of_step hinv hstep with
  | moved _ _ _ hmoved => exact h.moved hmoved happly
  | send => exact ⟨h.single, h.front, h.fresh⟩
  | sender =>
    rw [send_eq]
    exact ⟨h.single, h.front, h.fresh⟩
  | task message gen tasks => exact h.task tasks
  | written write ec hwrite => exact h.written hacc.cleared hwrite ec

/-- **The run lemma** of the writes. -/
theorem writesFront_of_reachable (h : (machine cfg).ReachableVia (WritesApart cfg) s) :
    WritesFront s := by
  refine (h.invariant (I := fun s ↦ Inv cfg s ∧ Accounted cfg s ∧ WritesFront s)
    (fun s hs ↦ ?_) ?_).2.2
  · refine ⟨inv_init s hs, accounted_of_reachable (Machine.Reachable.init hs), ?_⟩
    obtain rfl := hs
    exact ⟨Nat.zero_le _, fun _ _ hwrite ↦ absurd hwrite List.not_mem_nil, fun _ ↦ rfl⟩
  · intro s action t ⟨hinv, hacc, hfront⟩ hapart hstep
    exact ⟨inv_step s action t hinv hstep, hacc.step hinv hstep,
      hfront.step hinv hacc hapart hstep⟩

/-! ### The accounts of every run -/

/-- **The accounts of a client's send queue.** In every run the counter is the length of the queue
and the reserved places, so it stays within the limit and never goes below zero, and a stopped
connection with no reserved place left has none pending. Messages are queued while the connection is
open only. Unless a generation is taken again while a write still carries it, one async_write of the
current generation is outstanding at most: of the front of the queue while the connection is open,
and one that `closed` left behind otherwise. -/
theorem reservations_accounted (hlimit : cfg.sendQueueLimit < 2 ^ 64)
    (h : (machine cfg).Reachable s) :
    s.pending = s.writeQueue.length + s.reserved ∧ s.pending ≤ cfg.sendQueueLimit ∧
      (s.state = .stopped → s.reserved = 0 → s.pending = 0) ∧
      (s.state.isOpen = false → s.writeQueue = []) ∧
      ((machine cfg).ReachableVia (WritesApart cfg) s → s.ownWrites.length ≤ 1 ∧
        (s.state.isOpen = true →
          ∀ write ∈ s.ownWrites, s.writeQueue.head? = some write.message)) := by
  have hacc := accounted_of_reachable h
  obtain ⟨hpending, hbounded⟩ := hacc.pending hlimit
  refine ⟨hpending, hbounded, fun hs hreserved ↦ ?_, hacc.cleared, fun hvia ↦ ?_⟩
  · have hqueue : s.writeQueue = [] := hacc.cleared (by rw [hs]; rfl)
    rw [hpending, hqueue, hreserved]
    rfl
  · have hfront := writesFront_of_reachable hvia
    exact ⟨hfront.single, hfront.front⟩

/-- A connection without callbacks that does not try again. -/
def single : Config where
  url := .inr {}

/-- A message is being written when the server goes away. -/
def droppedWriting : List Action :=
  [.start, .complete (.resolve 1) {}, .complete (.connect 1) {}, .complete (.upgrade 1) {},
    .send ⟨[104, 105], true⟩, .sender 0 false, .sender 0 false, .sender 0 false, .sender 0 false,
    .task]

/-- A call of send() has reserved its place when the server goes away. -/
def droppedReserving : List Action :=
  [.start, .complete (.resolve 1) {}, .complete (.connect 1) {}, .complete (.upgrade 1) {},
    .send ⟨[104, 105], true⟩, .sender 0 false, .sender 0 false]

/-- After the end of an open connection its write is still outstanding, with the current generation
and an empty queue; and a stopped connection without a task may have a place reserved. -/
theorem left_behind :
    (∃ s, (machine single).run { callbacks := {} }
        (droppedWriting ++ [.complete (.read 1) { ec := some .closed }]) = some s ∧
      ¬∀ write ∈ s.ownWrites, s.writeQueue.head? = some write.message) ∧
    ∃ s, (machine single).run { callbacks := {} }
        (droppedReserving ++ [.complete (.read 1) { ec := some .closed }]) = some s ∧
      s.state = .stopped ∧ s.tasks = [] ∧ s.pending = 1 := by
  refine ⟨⟨_, rfl, fun h ↦ ?_⟩, _, rfl, rfl, rfl, rfl⟩
  exact Option.some_ne_none _ (h ⟨1, ⟨[104, 105], true⟩⟩ List.mem_cons_self).symm

theorem reservations_accounted_writing :
    ∃ s, (machine single).run { callbacks := {} } droppedWriting = some s ∧ s.pending = 1 ∧
      s.pending = s.writeQueue.length + s.reserved ∧ s.ownWrites.length ≤ 1 ∧
      ∀ write ∈ s.ownWrites, s.writeQueue.head? = some write.message := by
  have hinit : (machine single).ReachableVia (WritesApart single)
      { callbacks := {} } :=
    Machine.ReachableVia.init rfl
  have hapart : (machine single).EveryStep (fun s action _ ↦ WritesApart single s action)
      { callbacks := {} } droppedWriting := by
    refine Machine.EveryStep.mono (P := fun s _ t ↦ t.generation = s.generation ∨ s.writes = [])
      (fun s action t hstep h u hu hne write hwrite ↦ ?_) (by decide)
    obtain rfl : t = u := Option.some.inj (hstep.symm.trans hu)
    rcases h with h | h
    · exact absurd h hne
    · rw [h] at hwrite
      exact absurd hwrite List.not_mem_nil
  have hvia := hinit.run droppedWriting hapart rfl
  have haccounts := reservations_accounted (by decide) hvia.reachable
  have hwrites := haccounts.2.2.2.2 hvia
  exact ⟨_, rfl, rfl, haccounts.1, hwrites.1, hwrites.2 rfl⟩

end CppGate.WebSocketClient
