import CppGate.WebSocketClient.Reservations

/-!
# Messages keep their order and their connection

One queue and one write loop serve all the streams of a connection, one after the other. For each
stream an observer notes whose send() captured its generation, which of their tasks found it open,
and what was handed to async_write on it: in order, the last are a prefix of the second, and each of
those is one of the first.

Only the number tells the streams apart, and it is an `unsigned`: after 2 ^ 32 attempts a stream has
the number of an earlier one, and takes the messages of a send() that is still on its way. So the
result is about runs in which no attempt takes a number that such a send() carries (`SendsApart`).
-/

namespace CppGate.WebSocketClient

open CppGate.WebSocketSession (Message)

/-! ### What is noted of a stream -/

/-- The notes on one stream. -/
structure Stream where
  /-- The messages whose send() captured its generation. -/
  captured : List Message := []
  /-- Those whose task ran while it was open. -/
  taken : List Message := []
  /-- Those handed to async_write on it. -/
  handed : List Message := []
  deriving DecidableEq, Repr

/-- What was handed is a prefix of what was taken, and that was captured, each message once. -/
structure InOrder (stream : Stream) : Prop where
  handed : stream.handed <+: stream.taken
  taken : stream.taken.Subperm stream.captured

/-- The message whose send() captures the generation in a step. -/
def captures (s : Connection) : Action → List Message
  | .sender i _ =>
    match s.senders[i]? with
    | some (.capture message) => [message]
    | _ => []
  | _ => []

/-- The message whose task finds its connection open in a step. -/
def takes (s : Connection) : Action → List Message
  | .task =>
    match s.tasks with
    | .send message gen :: _ => if s.state = .opened ∧ gen = s.generation then [message] else []
    | _ => []
  | _ => []

/-- The messages handed to async_write in a step. -/
def hands (s : Connection) (action : Action) (t : Connection) : List Message :=
  let before := match action with
    | .written write _ => s.writes.erase write
    | _ => s.writes
  (t.writes.diff before).map Write.message

/-- Note a step on a stream. -/
def Stream.note (stream : Stream) (s : Connection) (action : Action) (t : Connection) : Stream where
  captured := stream.captured ++ captures s action
  taken := stream.taken ++ takes s action
  handed := stream.handed ++ hands s action t

/-- Note a step: an attempt begins a new stream. The latest stream comes first. -/
def noteStep (streams : List Stream) (s : Connection) (action : Action) (t : Connection) :
    List Stream :=
  match streams with
  | [] => []
  | current :: past =>
    if t.generation = s.generation then current.note s action t :: past
    else ({} : Stream).note s action t :: current :: past

/-- The runs of a connection, with the notes on its streams. -/
def streamed (cfg : Config) : Machine (Connection × List Stream) Action :=
  (machine cfg).observed [{}] noteStep

/-! ### Sends on their way -/

/-- A call of send() that is about to post its task. -/
def Sender.posts? : Sender → Option (Message × ℕ)
  | .post message gen => some (message, gen)
  | _ => none

/-- The sends that have captured a generation and whose task has not run. -/
def Connection.sends (s : Connection) : List (Message × ℕ) :=
  s.sendTasks ++ s.senders.filterMap Sender.posts?

/-- The messages among them that captured the current generation. -/
def Connection.onTheWay (s : Connection) : List Message :=
  (s.sends.filter fun send ↦ send.2 = s.generation).map Prod.fst

/-- No attempt takes the generation that a send on its way has captured. -/
def SendsApart (cfg : Config) (s : Connection) (action : Action) : Prop :=
  ∀ t, step cfg s action = some t → t.generation ≠ s.generation →
    ∀ send ∈ s.sends, send.2 ≠ t.generation

variable {cfg : Config} {s t : Connection}

/-- What does not send leaves the sends that are on their way. -/
theorem SameSends.sends (h : SameSends s t) : t.sends = s.sends := by
  rw [Connection.sends, Connection.sends, h.sendTasks, h.senders]

theorem SameSends.onTheWay (h : SameSends s t) : t.onTheWay = s.onTheWay := by
  rw [Connection.onTheWay, Connection.onTheWay, h.sends, h.generation]

/-- What was added to the writes is what was handed. -/
theorem hands_eq {action : Action} (before added : List Write)
    (hbefore : hands s action t = (t.writes.diff before).map Write.message)
    (hwrites : t.writes = added ++ before) (hadded : added.length ≤ 1) :
    hands s action t = added.map Write.message := by
  have hperm : (t.writes.diff before).Perm added := by
    rw [hwrites, List.perm_iff_count]
    intro write
    rw [List.count_diff, List.count_append, Nat.add_sub_cancel]
  rw [hbefore]
  rcases added with - | ⟨write, rest⟩
  · rw [hperm.eq_nil]
  · obtain rfl : rest = [] := List.length_eq_zero_iff.1 (by
      rw [List.length_cons] at hadded
      omega)
    rw [List.perm_singleton.1 hperm]

/-- The posts of the running calls, one of them apart. -/
theorem posts_cons (sender : Sender) (senders : List Sender) :
    (sender :: senders).filterMap Sender.posts? =
      sender.posts?.toList ++ senders.filterMap Sender.posts? := by
  cases sender <;> rfl

/-- A running send() is one of the sends on their way, if it is about to post. -/
theorem posts_perm {i : ℕ} {sender : Sender} (h : s.senders[i]? = some sender) :
    (s.senders.filterMap Sender.posts?).Perm
      (sender.posts?.toList ++ (s.senders.eraseIdx i).filterMap Sender.posts?) := by
  obtain ⟨hi, rfl⟩ := List.getElem?_eq_some_iff.1 h
  rw [← posts_cons]
  exact (List.getElem_cons_eraseIdx_perm hi).symm.filterMap _

theorem posts_set_perm {i : ℕ} {sender : Sender} (h : s.senders[i]? = some sender)
    (next : Sender) : ((s.senders.set i next).filterMap Sender.posts?).Perm
      (next.posts?.toList ++ (s.senders.eraseIdx i).filterMap Sender.posts?) := by
  obtain ⟨hi, rfl⟩ := List.getElem?_eq_some_iff.1 h
  rw [← posts_cons]
  exact (List.set_perm_cons_eraseIdx hi next).filterMap _

/-- **A call of send()** that captures the generation puts its message on the way. -/
theorem sends_sender (cfg : Config) (i : ℕ) (spurious : Bool) {sender : Sender}
    (hsender : s.senders[i]? = some sender) :
    (send cfg s i spurious sender).sends.Perm
      ((captures s (.sender i spurious)).map (·, s.generation) ++ s.sends) := by
  have hposts := posts_perm hsender
  have hset := posts_set_perm hsender
  have hsame (next : Sender) (hnone : sender.posts? = none) (hnext : next.posts? = none) :
      (s.sendTasks ++ (s.senders.set i next).filterMap Sender.posts?).Perm s.sends := by
    refine List.Perm.append_left _ ((hset next).trans ?_)
    rw [hnext]
    rw [hnone] at hposts
    exact hposts.symm
  have hcaptures (hne : ∀ message, sender ≠ .capture message) :
      captures s (.sender i spurious) = [] := by
    rw [captures, hsender]
    cases sender with
    | capture message => exact absurd rfl (hne message)
    | _ => rfl
  cases sender with
  | load message =>
    rw [hcaptures fun _ ↦ Sender.noConfusion]
    exact hsame _ rfl rfl
  | reserve message current =>
    rw [hcaptures fun _ ↦ Sender.noConfusion, send]
    split
    · refine List.Perm.append_left _ ?_
      exact hposts.symm
    split
    · exact hsame _ rfl rfl
    · exact hsame _ rfl rfl
  | capture message =>
    have hcaptured : captures s (.sender i spurious) = [message] := by rw [captures, hsender]
    rw [hcaptured]
    refine (List.Perm.append_left s.sendTasks
      ((hset (.post message s.generation)).trans (hposts.symm.cons _))).trans ?_
    exact List.perm_middle
  | post message gen =>
    rw [hcaptures fun _ ↦ Sender.noConfusion]
    refine List.Perm.trans ?_ (List.Perm.append_left s.sendTasks hposts.symm)
    show ((s.tasks ++ [Task.send message gen]).filterMap Task.send? ++ _).Perm _
    rw [List.filterMap_append, List.append_assoc]
    exact List.Perm.refl _

/-! ### The invariant -/

/-- What the notes on the current stream say about the connection: what was taken and not yet
written is the queue, whose front has been handed over. -/
structure Following (s : Connection) (stream : Stream) : Prop where
  handed : stream.handed <+: stream.taken
  queued : s.state.isOpen = true → ∃ done, stream.taken = done ++ s.writeQueue ∧
    stream.handed = done ++ s.writeQueue.head?.toList
  fresh : s.state = .connecting → stream.taken = [] ∧ stream.handed = []
  captured : (stream.taken ++ s.onTheWay).Subperm stream.captured

/-- A stream that is followed is in order. -/
theorem Following.inOrder {stream : Stream} (h : Following s stream) : InOrder stream :=
  ⟨h.handed, (List.sublist_append_left _ _).subperm.trans h.captured⟩

/-- What a step adds to the notes. -/
theorem following_note {action : Action} {stream : Stream} {captured taken handed : List Message}
    (hcaptures : captures s action = captured) (htakes : takes s action = taken)
    (hhands : hands s action t = handed) (h : Following t
      ⟨stream.captured ++ captured, stream.taken ++ taken, stream.handed ++ handed⟩) :
    Following t (stream.note s action t) := by
  rw [Stream.note, hcaptures, htakes, hhands]
  exact h

/-- Nothing is noted of a step that is not one of sending. -/
theorem note_of_silent {action : Action} (hsilent : Silent s action) (hwrites : t.writes = s.writes)
    (stream : Stream) : stream.note s action t = stream := by
  have hcaptures : captures s action = [] := by
    cases action with
    | sender => exact hsilent.elim
    | _ => rfl
  have htakes : takes s action = [] := by
    cases action with
    | task =>
      obtain ⟨code, tasks, ht⟩ := hsilent
      rw [takes, ht]
    | _ => rfl
  have hhands : hands s action t = [] := by
    refine hands_eq s.writes [] ?_ hwrites (Nat.zero_le _)
    cases action with
    | written => exact hsilent.elim
    | _ => rfl
  rw [Stream.note, hcaptures, htakes, hhands, List.append_nil, List.append_nil, List.append_nil]

/-- A step that sends nothing is noted as nothing. -/
theorem following_of_silent {action : Action} (hsilent : Silent s action)
    (hwrites : t.writes = s.writes) {stream : Stream} (h : Following t stream) :
    Following t (stream.note s action t) := by
  rw [note_of_silent hsilent hwrites]
  exact h

/-- The connection goes on without sending. -/
theorem Following.kept {stream : Stream} (h : Following s stream)
    (hcleared : s.state.isOpen = false → s.writeQueue = []) (hsame : SameSends s t)
    (hopened : t.state.isOpen = true → s.state.isOpen = true ∨ s.state = .connecting)
    (hconnecting : t.state = .connecting → s.state = .connecting) : Following t stream := by
  refine ⟨h.handed, fun ht ↦ ?_, fun ht ↦ h.fresh (hconnecting ht), ?_⟩
  · rw [hsame.writeQueue]
    rcases hopened ht with hs | hs
    · exact h.queued hs
    · obtain ⟨htaken, hhanded⟩ := h.fresh hs
      rw [hcleared (by rw [hs]; rfl), htaken, hhanded]
      exact ⟨[], rfl, rfl⟩
  · rw [hsame.onTheWay]
    exact h.captured

/-- The end of an open connection loses what its queue still held. -/
theorem Following.closed {stream : Stream} (h : Following s stream)
    (hsame : SameSends s.cleared t) (hdown : t.state.isDown) : Following t stream := by
  refine ⟨h.handed, fun ht ↦ ?_, fun ht ↦ ?_, ?_⟩
  · rcases hdown with hs | hs <;> rw [hs] at ht <;> exact absurd ht Bool.false_ne_true
  · rcases hdown with hs | hs <;> rw [hs] at ht <;> exact ConnectionState.noConfusion ht
  · rw [hsame.onTheWay]
    exact h.captured

/-- A new stream begins with nothing on its way. -/
theorem following_attempted (hsame : SameSends s.renewed t) (hconnecting : t.state = .connecting)
    (hapart : t.generation ≠ s.generation → ∀ send ∈ s.sends, send.2 ≠ t.generation) :
    t.generation ≠ s.generation ∧ Following t {} := by
  have hnew : t.generation ≠ s.generation := by
    rw [hsame.generation]
    exact Word.add_one_ne s.generation (by decide)
  have hsends : t.sends = s.sends := hsame.sends
  have hnone : t.onTheWay = [] := by
    refine List.map_eq_nil_iff.2 (List.filter_eq_nil_iff.2 fun send hsend hgen ↦ ?_)
    rw [hsends] at hsend
    exact hapart hnew send hsend (of_decide_eq_true hgen)
  refine ⟨hnew, List.prefix_rfl, fun ht ↦ ?_, fun _ ↦ ⟨rfl, rfl⟩, ?_⟩
  · rw [hconnecting] at ht
    exact absurd ht Bool.false_ne_true
  · rw [hnone]
    exact List.Subperm.refl _

/-- A call of send() goes on. -/
theorem Following.sender {stream : Stream} (h : Following s stream) (i : ℕ) (spurious : Bool)
    {sender : Sender} (hsender : s.senders[i]? = some sender) :
    Following (send cfg s i spurious sender)
      (stream.note s (.sender i spurious) (send cfg s i spurious sender)) := by
  have hsends := sends_sender cfg i spurious hsender
  have heq := send_eq cfg s i spurious sender
  generalize send cfg s i spurious sender = t at hsends heq ⊢
  have hwrites : t.writes = s.writes := by rw [heq]
  have hqueue : t.writeQueue = s.writeQueue := by rw [heq]
  have hstate : t.state = s.state := by rw [heq]
  have hgen : t.generation = s.generation := by rw [heq]
  have hhands : hands s (.sender i spurious) t = [] :=
    hands_eq s.writes [] rfl hwrites (Nat.zero_le _)
  have hway : t.onTheWay.Perm (captures s (.sender i spurious) ++ s.onTheWay) := by
    have hfilter := (hsends.filter fun send ↦ send.2 = s.generation).map Prod.fst
    have hall : ((captures s (.sender i spurious)).map (·, s.generation)).filter
        (fun send ↦ send.2 = s.generation) =
          (captures s (.sender i spurious)).map (·, s.generation) := by
      refine List.filter_eq_self.2 fun send hsend ↦ ?_
      obtain ⟨message, -, rfl⟩ := List.mem_map.1 hsend
      exact decide_eq_true rfl
    have hfst : ((captures s (.sender i spurious)).map (·, s.generation)).map Prod.fst =
        captures s (.sender i spurious) := by
      rw [List.map_map]
      exact List.map_id _
    rw [List.filter_append, hall, List.map_append, hfst] at hfilter
    rw [Connection.onTheWay, hgen]
    exact hfilter
  have hmoved : (stream.taken ++ t.onTheWay).Perm
      (captures s (.sender i spurious) ++ (stream.taken ++ s.onTheWay)) := by
    refine (hway.append_left stream.taken).trans ?_
    rw [← List.append_assoc, ← List.append_assoc]
    exact List.perm_append_comm.append_right _
  rw [Stream.note, hhands, List.append_nil]
  refine ⟨?_, ?_, ?_, ?_⟩ <;> dsimp only [takes]
  · rw [List.append_nil]
    exact h.handed
  · rw [hstate, hqueue, List.append_nil]
    exact h.queued
  · rw [hstate, List.append_nil]
    exact h.fresh
  · rw [List.append_nil]
    refine hmoved.subperm.trans (List.Subperm.trans ?_ List.perm_append_comm.subperm)
    exact (List.subperm_append_left _).2 h.captured

/-- What the task of a send() leaves on the way. -/
theorem onTheWay_task {message : Message} {gen : ℕ} {tasks : List Task}
    (ht : s.tasks = .send message gen :: tasks) :
    s.onTheWay =
      (if gen = s.generation then [message] else []) ++ { s with tasks := tasks }.onTheWay := by
  have hsends : s.sends = (message, gen) :: { s with tasks := tasks }.sends := by
    rw [Connection.sends, Connection.sendTasks, ht]
    rfl
  rw [Connection.onTheWay, hsends, List.filter_cons]
  by_cases hgen : gen = s.generation
  · rw [if_pos (by exact decide_eq_true hgen), if_pos hgen]
    rfl
  · rw [if_neg (by exact fun h ↦ hgen (of_decide_eq_true h)), if_neg hgen]
    rfl

/-- **The task of a send()** that finds its connection open queues the message, and hands it over if
it is alone. -/
theorem Following.task {stream : Stream} (h : Following s stream) {message : Message} {gen : ℕ}
    {tasks : List Task} (ht : s.tasks = .send message gen :: tasks) :
    Following (runSend { s with tasks := tasks } message gen)
      (stream.note s .task (runSend { s with tasks := tasks } message gen)) := by
  have hway := onTheWay_task ht
  have hcaptures : captures s .task = [] := rfl
  have hnone (t : Connection) (hwrites : t.writes = s.writes) : hands s .task t = [] :=
    hands_eq s.writes [] rfl hwrites (Nat.zero_le _)
  rw [runSend]
  split
  · next hlost =>
    have htakes : takes s .task = [] := by
      rw [takes, ht]
      refine if_neg fun hopen ↦ ?_
      rcases hlost with hs | hgen
      · exact hs hopen.1
      · exact hgen hopen.2
    refine following_note hcaptures htakes (hnone _ rfl) ?_
    simp only [List.append_nil]
    refine ⟨h.handed, h.queued, h.fresh, List.Subperm.trans ?_ h.captured⟩
    rw [hway]
    exact ((List.sublist_append_right _ _).append_left _).subperm
  next hfound =>
  obtain ⟨hstate, hgen⟩ : s.state = .opened ∧ gen = s.generation := by
    exact ⟨Classical.byContradiction fun hs ↦ hfound (Or.inl hs),
      Classical.byContradiction fun hg ↦ hfound (Or.inr hg)⟩
  have htakes : takes s .task = [message] := by
    rw [takes, ht]
    exact if_pos ⟨hstate, hgen⟩
  have hopen : s.state.isOpen = true := by rw [hstate]; rfl
  have hconnecting : s.state ≠ .connecting := fun hs ↦ by
    rw [hs] at hopen
    exact Bool.false_ne_true hopen
  have hcaptured : (stream.taken ++ [message] ++ { s with tasks := tasks }.onTheWay).Subperm
      stream.captured := by
    have hall := h.captured
    rw [hway, if_pos hgen, ← List.append_assoc] at hall
    exact hall
  obtain ⟨done, htaken, hhanded⟩ := h.queued hopen
  dsimp only
  split
  · next hone =>
    have hempty : s.writeQueue = [] := by
      rw [List.length_append, List.length_singleton] at hone
      exact List.length_eq_zero_iff.1 (by omega)
    have hwrite : write { s with tasks := tasks, writeQueue := s.writeQueue ++ [message] }
        s.generation = { s with
          tasks := tasks
          writeQueue := [message]
          writes := ⟨s.generation, message⟩ :: s.writes } := by
      rw [hempty]
      rfl
    rw [hwrite]
    have hhands : hands s .task { s with
        tasks := tasks
        writeQueue := [message]
        writes := ⟨s.generation, message⟩ :: s.writes } = [message] :=
      hands_eq s.writes [⟨s.generation, message⟩] rfl rfl le_rfl
    refine following_note hcaptures htakes hhands ?_
    rw [hempty] at htaken hhanded
    simp only [List.head?_nil, Option.toList_none, List.append_nil] at htaken hhanded
    refine ⟨?_, fun _ ↦ ⟨done, ?_, ?_⟩, fun hs ↦ absurd hs hconnecting, ?_⟩
    · rw [htaken, hhanded]
    · rw [htaken]
    · rw [hhanded, List.head?_cons, Option.toList_some]
    · rw [List.append_nil]
      exact hcaptured
  · next hmore =>
    obtain ⟨front, rest, hqueue⟩ := List.exists_cons_of_ne_nil
      (fun hnil : s.writeQueue = [] ↦ hmore (by rw [hnil]; rfl))
    refine following_note hcaptures htakes (hnone _ rfl) ?_
    simp only [List.append_nil]
    refine ⟨h.handed.trans (List.prefix_append _ _), fun _ ↦ ⟨done, ?_, ?_⟩,
      fun hs ↦ absurd hs hconnecting, hcaptured⟩
    · rw [htaken, List.append_assoc]
    · rw [hhanded, hqueue]
      rfl

/-- **A completed write** leaves the queue, and the next message is handed over. -/
theorem Following.written {stream : Stream} (h : Following s stream)
    (hcleared : s.state.isOpen = false → s.writeQueue = []) (write : Write)
    (ec : Option ErrorCode) :
    Following (onWrite { s with writes := s.writes.erase write } write.gen ec)
      (stream.note s (.written write ec)
        (onWrite { s with writes := s.writes.erase write } write.gen ec)) := by
  have hnone (t : Connection) (hwrites : t.writes = s.writes.erase write) :
      hands s (.written write ec) t = [] :=
    hands_eq (s.writes.erase write) [] rfl hwrites (Nat.zero_le _)
  have hcaptures : captures s (.written write ec) = [] := rfl
  have htakes : takes s (.written write ec) = [] := rfl
  rcases onWrite_cases { s with writes := s.writes.erase write } write.gen ec with
    heq | ⟨-, hne, heq⟩
  · rw [heq]
    refine following_note hcaptures htakes (hnone _ rfl) ?_
    simp only [List.append_nil]
    exact ⟨h.handed, h.queued, h.fresh, h.captured⟩
  have hopen : s.state.isOpen = true := by
    rw [← Bool.not_eq_false]
    exact fun hclosed ↦ hne (hcleared hclosed)
  have hconnecting : s.state ≠ .connecting := fun hs ↦ by
    rw [hs] at hopen
    exact Bool.false_ne_true hopen
  obtain ⟨front, rest, hqueue⟩ := List.exists_cons_of_ne_nil hne
  obtain ⟨done, htaken, hhanded⟩ := h.queued hopen
  rw [hqueue] at htaken hhanded
  have htaken' : stream.taken = done ++ [front] ++ rest := by
    rw [htaken, List.append_assoc]
    rfl
  rw [heq]
  dsimp only
  rw [hqueue, List.tail_cons]
  split
  · next hempty =>
    obtain rfl : rest = [] := List.isEmpty_iff.1 hempty
    refine following_note hcaptures htakes (hnone _ rfl) ?_
    simp only [List.append_nil]
    exact ⟨h.handed, fun _ ↦ ⟨done ++ [front], htaken', hhanded.trans (List.append_nil _).symm⟩,
      fun hs ↦ absurd hs hconnecting, h.captured⟩
  · next hmore =>
    obtain ⟨next, others, rfl⟩ := List.exists_cons_of_ne_nil
      (fun hnil : rest = [] ↦ hmore (by rw [hnil]; rfl))
    refine following_note hcaptures htakes
      (hands_eq (s.writes.erase write) [⟨write.gen, next⟩] rfl rfl le_rfl) ?_
    simp only [List.append_nil]
    refine ⟨?_, fun _ ↦ ⟨done ++ [front], htaken', by rw [hhanded]; rfl⟩,
      fun hs ↦ absurd hs hconnecting, h.captured⟩
    rw [htaken', hhanded]
    exact (List.prefix_append_right_inj _).2 (List.prefix_append [next] others)

/-! ### Runs -/

/-- The notes on every stream: the current one follows the connection, the others are complete. -/
def Followed (s : Connection) (streams : List Stream) : Prop :=
  ∃ current past, streams = current :: past ∧ Following s current ∧ ∀ stream ∈ past, InOrder stream

theorem Followed.inOrder {streams : List Stream} (h : Followed s streams) :
    ∀ stream ∈ streams, InOrder stream := by
  obtain ⟨current, past, rfl, hcurrent, hpast⟩ := h
  intro stream hstream
  rcases List.mem_cons.1 hstream with rfl | hstream
  · exact hcurrent.inOrder
  · exact hpast stream hstream

/-- **The step lemma.** -/
theorem followed_step {streams : List Stream} (h : Followed s streams) (hinv : Inv cfg s)
    (hacc : Accounted cfg s) {action : Action} (hapart : SendsApart cfg s action)
    (hstep : step cfg s action = some t) : Followed t (noteStep streams s action t) := by
  have happly := hapart t hstep
  obtain ⟨current, past, rfl, hcurrent, hpast⟩ := h
  have hsame (hgen : t.generation = s.generation) (hnote : Following t (current.note s action t)) :
      Followed t (noteStep (current :: past) s action t) := by
    rw [noteStep, if_pos hgen]
    exact ⟨_, _, rfl, hnote, hpast⟩
  cases sent_of_step hinv hstep with
  | moved _ _ hsilent hmoved =>
    cases hmoved with
    | kept hkept hopen hopened hconnecting =>
      exact hsame hkept.generation (following_of_silent hsilent hkept.writes
        (hcurrent.kept hacc.cleared hkept hopened hconnecting))
    | closed hopen hkept hdown =>
      exact hsame hkept.generation
        (following_of_silent hsilent hkept.writes (hcurrent.closed hkept hdown))
    | attempted hclosed hkept hconnecting =>
      obtain ⟨hnew, hbegun⟩ := following_attempted hkept hconnecting happly
      rw [noteStep, if_neg hnew, note_of_silent hsilent hkept.writes]
      refine ⟨_, _, rfl, hbegun, fun stream hstream ↦ ?_⟩
      rcases List.mem_cons.1 hstream with rfl | hstream
      · exact hcurrent.inOrder
      · exact hpast stream hstream
  | send message =>
    have hsilent : Silent s (.send message) := trivial
    let loading : Connection := { s with senders := s.senders ++ [.load message] }
    have hwrites : loading.writes = s.writes := rfl
    have hsends : loading.sends = s.sends := by
      show s.sendTasks ++ (s.senders ++ [Sender.load message]).filterMap Sender.posts? = _
      rw [List.filterMap_append]
      exact congrArg _ (List.append_nil _)
    have hfollowing : Following loading current := by
      refine ⟨hcurrent.handed, hcurrent.queued, hcurrent.fresh, ?_⟩
      rw [Connection.onTheWay, hsends]
      exact hcurrent.captured
    exact hsame rfl (following_of_silent hsilent hwrites hfollowing)
  | sender i spurious sender hsender =>
    exact hsame (by rw [send_eq]) (hcurrent.sender i spurious hsender)
  | task message gen tasks ht =>
    exact hsame (by rw [runSend_eq]) (hcurrent.task ht)
  | written write ec hwrite =>
    exact hsame (by rw [onWrite_eq]) (hcurrent.written hacc.cleared write ec)

/-- **The run lemma.** -/
theorem followed_of_reachable {x : Connection × List Stream}
    (h : (streamed cfg).ReachableVia (fun x action ↦ SendsApart cfg x.1 action) x) :
    Followed x.1 x.2 := by
  refine (h.invariant (M := streamed cfg)
    (I := fun x ↦ Inv cfg x.1 ∧ Accounted cfg x.1 ∧ Followed x.1 x.2) ?_ ?_).2.2
  · intro x hx
    obtain ⟨hinit, hnotes⟩ := hx
    refine ⟨inv_init x.1 hinit, accounted_of_reachable (Machine.Reachable.init hinit), ?_⟩
    obtain ⟨s, streams⟩ := x
    obtain ⟨rfl, rfl⟩ : s = { callbacks := cfg.callbacks } ∧ streams = [{}] := ⟨hinit, hnotes⟩
    exact ⟨{}, [], rfl, ⟨List.prefix_rfl, fun h ↦ absurd h Bool.false_ne_true, fun _ ↦ ⟨rfl, rfl⟩,
      List.Subperm.refl _⟩, fun _ h ↦ absurd h List.not_mem_nil⟩
  · intro x action y ⟨hinv, hacc, hfollowed⟩ hapart hstep
    obtain ⟨hstep', hnotes⟩ := Machine.observed_step hstep
    refine ⟨inv_step x.1 action y.1 hinv hstep', hacc.step hinv hstep', ?_⟩
    rw [hnotes]
    exact followed_step hfollowed hinv hacc hapart hstep'

/-- **Messages keep their order and their connection.** In every run in which no attempt takes the
generation number of a send on its way, what was handed to async_write on a stream is a prefix, in
the order of the tasks, of the messages whose task found the stream open, and each of those is one
whose send() captured its generation. -/
theorem messages_in_order {x : Connection × List Stream}
    (h : (streamed cfg).ReachableVia (fun x action ↦ SendsApart cfg x.1 action) x) :
    ∀ stream ∈ x.2, InOrder stream :=
  (followed_of_reachable h).inOrder

/-- A message is handed over and written while another one waits. -/
def twoMessages : List Action :=
  droppedWriting ++ [.send ⟨[33], true⟩, .sender 0 false, .sender 0 false, .sender 0 false,
    .sender 0 false, .task, .written ⟨1, ⟨[104, 105], true⟩⟩ none]

theorem messages_in_order_two :
    ∃ t stream past, (streamed single).run ({ callbacks := {} }, [{}]) twoMessages =
        some (t, stream :: past) ∧
      stream.handed = [⟨[104, 105], true⟩, ⟨[33], true⟩] ∧ InOrder stream := by
  have hinit : (streamed single).ReachableVia (fun x action ↦ SendsApart single x.1 action)
      ({ callbacks := {} }, [{}]) := Machine.ReachableVia.init ⟨rfl, rfl⟩
  have hapart : (streamed single).EveryStep (fun x action _ ↦ SendsApart single x.1 action)
      ({ callbacks := {} }, [{}]) twoMessages := by
    refine Machine.EveryStep.mono
      (P := fun x _ y ↦ y.1.generation = x.1.generation ∨ x.1.sends = [])
      (fun x action y hstep h t ht hne send hsend ↦ ?_) (by decide +kernel)
    obtain rfl : y.1 = t := Option.some.inj ((Machine.observed_step hstep).1.symm.trans ht)
    rcases h with h | h
    · exact absurd h hne
    · rw [h] at hsend
      exact absurd hsend List.not_mem_nil
  have hreached := hinit.run twoMessages hapart rfl
  exact ⟨_, _, _, rfl, rfl, messages_in_order hreached _ List.mem_cons_self⟩

/-! ### A number that is taken again -/

/-- A connection without callbacks that tries again. -/
def retrying : Config where
  url := .inr {}
  reconnect := { enabled := true }

/-- "hi". -/
def greeting : Message := ⟨[104, 105], true⟩

/-- The connection waits to try again, and a call of send() has yet to post its task. -/
def waitingAt (gen failures : ℕ) : Connection where
  state := .waiting
  callbacks := {}
  generation := gen
  failures := failures
  starting := false
  operations := [.retryTimer]
  senders := [.post greeting 1]
  pending := 1

/-- It tries again. -/
def attemptingAt (gen failures : ℕ) : Connection :=
  { waitingAt gen failures with state := .connecting, operations := [.resolve gen] }

/-- The connection opens, send() captures its generation, and the server goes away. -/
def delayed : List Action :=
  [.start, .complete (.resolve 1) {}, .complete (.connect 1) {}, .complete (.upgrade 1) {},
    .send greeting, .sender 0 false, .sender 0 false, .sender 0 false,
    .complete (.read 1) { ec := some .closed }]

/-- The connection opens again. -/
def reopened : List Action :=
  [.complete .retryTimer {}, .complete (.resolve 1) {}, .complete (.connect 1) {},
    .complete (.upgrade 1) {}]

/-- It is open again, and nobody is told. -/
def openAt (gen : ℕ) : Connection :=
  { waitingAt gen 0 with state := .opened, connected := true, operations := [.read gen] }

theorem step_waitingAt (gen failures : ℕ) :
    step retrying (waitingAt gen failures) (.complete .retryTimer {}) =
      some (attemptingAt (Word.add 32 gen 1) failures) := rfl

/-- An attempt that fails leaves the connection waiting for the next one. -/
theorem step_attemptingAt (gen failures : ℕ) :
    step retrying (attemptingAt gen failures) (.complete (.resolve gen) { ec := some (.other 1) }) =
      some (waitingAt gen (Word.add 32 failures 1)) := by
  have hmem : .resolve gen ∈ (attemptingAt gen failures).operations := List.mem_singleton_self _
  have hfresh : ¬stale ((attemptingAt gen failures).without (.resolve gen)) gen = true :=
    not_stale (s := attemptingAt gen failures) rfl nofun (.resolve gen)
  have hwithout : (attemptingAt gen failures).without (.resolve gen) =
      { attemptingAt gen failures with operations := [] } := by
    rw [Connection.without]
    exact congrArg (fun operations ↦ { attemptingAt gen failures with operations := operations })
      (List.erase_cons_head ..)
  rw [step, if_pos hmem, handle, if_neg hfresh, hwithout]
  rfl

theorem streamed_step (streams : List Stream) {action : Action}
    (hstep : step cfg s action = some t) :
    (streamed cfg).step (s, streams) action = some (t, noteStep streams s action t) :=
  congrArg (Option.map fun t ↦ (t, noteStep streams s action t)) hstep

/-- Nothing is noted of an attempt that fails, but that there was one. -/
theorem reachable_retry {gen failures : ℕ} {current : Stream} {past : List Stream}
    (h : (streamed retrying).Reachable (waitingAt gen failures, current :: past)) :
    ∃ failures past, (streamed retrying).Reachable
      (waitingAt (Word.add 32 gen 1) failures, {} :: past) := by
  have hnew : Word.add 32 gen 1 ≠ gen := Word.add_one_ne gen (by decide)
  have hattempt := streamed_step (current :: past) (step_waitingAt gen failures)
  rw [noteStep, if_neg (by exact hnew)] at hattempt
  have hsame : (waitingAt (Word.add 32 gen 1) (Word.add 32 failures 1)).generation =
      (attemptingAt (Word.add 32 gen 1) failures).generation := rfl
  have hfailed := streamed_step ({} :: current :: past)
    (step_attemptingAt (Word.add 32 gen 1) failures)
  rw [noteStep, if_pos hsame] at hfailed
  exact ⟨_, _, (h.step hattempt).step hfailed⟩

/-- After `k + 1` attempts that failed, only the generation tells. -/
theorem reachable_retries (k : ℕ) : ∃ failures past, (streamed retrying).Reachable
    (waitingAt ((k + 2) % 2 ^ 32) failures, {} :: past) := by
  induction k with
  | zero =>
    have hdelayed : (streamed retrying).Reachable
        (waitingAt 1 1, [{ captured := [greeting] }, {}]) :=
      Machine.run_reachable (M := streamed retrying) (s := ({ callbacks := {} }, [{}])) delayed
        ⟨rfl, rfl⟩ rfl
    exact reachable_retry hdelayed
  | succ k ih =>
    obtain ⟨failures, past, hreached⟩ := ih
    have hnext : Word.add 32 ((k + 2) % 2 ^ 32) 1 = (k + 1 + 2) % 2 ^ 32 :=
      Word.add_mod (k + 2) (by decide)
    exact hnext ▸ reachable_retry hreached

/-- **A message on another connection.** The send() captured generation 1, and its task runs when
that number is taken again: the message is handed over on a stream that it was never meant for. -/
theorem generation_reused : ∃ x, (streamed retrying).Reachable x ∧
    ∃ stream ∈ x.2, stream.handed = [greeting] ∧ stream.captured = [] ∧ ¬InOrder stream := by
  obtain ⟨failures, past, hreached⟩ := reachable_retries (2 ^ 32 - 2)
  have hzero : (2 ^ 32 - 2 + 2) % 2 ^ 32 = 0 := by norm_num
  rw [hzero] at hreached
  have hopened : (streamed retrying).run (waitingAt 0 failures, {} :: past) reopened =
      some (openAt 1, {} :: {} :: past) := rfl
  have hsent : (streamed retrying).run (openAt 1, {} :: {} :: past) [.sender 0 false, .task] =
      some ({ openAt 1 with
        senders := [], writeQueue := [greeting], writes := [⟨1, greeting⟩] },
        { taken := [greeting], handed := [greeting] } :: {} :: past) := rfl
  refine ⟨_, (hreached.run hopened).run hsent, _, List.mem_cons_self, rfl, rfl, fun h ↦ ?_⟩
  exact absurd h.taken.length_le (by decide)

end CppGate.WebSocketClient
