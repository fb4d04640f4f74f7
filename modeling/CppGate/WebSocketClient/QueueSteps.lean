import CppGate.WebSocketClient.EventGrammar

/-!
# What the handlers do to the send queue

The queue, the counter and the generation belong to the whole connection, while its streams come and
go. Apart from the steps of sending itself, only two things touch them (`Moved`): `closed` empties
the queue and gives its places back, and `attempt` takes the next generation. Whatever else runs
leaves them alone.
-/

namespace CppGate.WebSocketClient

open CppGate.WebSocketSession (CloseCode Message)

/-! ### The relation -/

/-- The message and the generation of a task of send(). -/
def Task.send? : Task → Option (Message × ℕ)
  | .send message gen => some (message, gen)
  | .close _ => none

/-- The posted tasks of send(). -/
def Connection.sendTasks (s : Connection) : List (Message × ℕ) :=
  s.tasks.filterMap Task.send?

/-- Everything that sending is about stays the same. -/
structure SameSends (s t : Connection) : Prop where
  generation : t.generation = s.generation
  pending : t.pending = s.pending
  writeQueue : t.writeQueue = s.writeQueue
  sendTasks : t.sendTasks = s.sendTasks
  writes : t.writes = s.writes
  senders : t.senders = s.senders

/-- Neither open nor about to be. -/
def ConnectionState.isDown (state : ConnectionState) : Prop :=
  state = .waiting ∨ state = .stopped

/-- What `closed` does to the queue and the counter. -/
def Connection.cleared (s : Connection) : Connection :=
  { s with pending := Word.sub 64 s.pending s.writeQueue.length, writeQueue := [] }

/-- What `attempt` does to the generation. -/
def Connection.renewed (s : Connection) : Connection :=
  { s with generation := Word.add 32 s.generation 1 }

/-- A step that is not one of sending. -/
inductive Moved (s t : Connection) : Prop
  | kept (hsame : SameSends s t) (hopen : s.state.isOpen = true → t.state.isOpen = true)
      (hopened : t.state.isOpen = true → s.state.isOpen = true ∨ s.state = .connecting)
      (hconnecting : t.state = .connecting → s.state = .connecting)
  | closed (hopen : s.state.isOpen = true) (hsame : SameSends s.cleared t) (hdown : t.state.isDown)
  | attempted (hclosed : s.state.isOpen = false) (hsame : SameSends s.renewed t)
      (hconnecting : t.state = .connecting)

variable {cfg : Config} {s t u : Connection}

theorem SameSends.refl : SameSends s s :=
  ⟨rfl, rfl, rfl, rfl, rfl, rfl⟩

theorem SameSends.trans (h : SameSends s t) (h' : SameSends t u) : SameSends s u :=
  ⟨h'.generation.trans h.generation, h'.pending.trans h.pending,
    h'.writeQueue.trans h.writeQueue, h'.sendTasks.trans h.sendTasks,
    h'.writes.trans h.writes, h'.senders.trans h.senders⟩

theorem SameSends.cleared (h : SameSends s t) : SameSends s.cleared t.cleared := by
  refine ⟨h.generation, ?_, rfl, h.sendTasks, h.writes, h.senders⟩
  show Word.sub 64 t.pending t.writeQueue.length = Word.sub 64 s.pending s.writeQueue.length
  rw [h.pending, h.writeQueue]

theorem SameSends.renewed (h : SameSends s t) : SameSends s.renewed t.renewed := by
  refine ⟨?_, h.pending, h.writeQueue, h.sendTasks, h.writes, h.senders⟩
  show Word.add 32 t.generation 1 = Word.add 32 s.generation 1
  rw [h.generation]

/-- A change of other fields first. -/
theorem Moved.of_same (h : Moved t u) (hsame : SameSends s t) (hstate : t.state = s.state) :
    Moved s u := by
  cases h with
  | kept hsame' hopen hopened hconnecting =>
    rw [hstate] at hopen hopened hconnecting
    exact .kept (hsame.trans hsame') hopen hopened hconnecting
  | closed hopen hsame' hdown =>
    exact .closed (hstate ▸ hopen) (hsame.cleared.trans hsame') hdown
  | attempted hclosed hsame' hconnecting =>
    exact .attempted (hstate ▸ hclosed) (hsame.renewed.trans hsame') hconnecting

/-- A change of other fields only. -/
theorem moved_same (hsame : SameSends s t) (hstate : t.state = s.state) : Moved s t :=
  .kept hsame (fun h ↦ by rwa [hstate]) (fun h ↦ Or.inl (by rwa [← hstate]))
    fun h ↦ hstate.symm.trans h

/-- A connection that is not open stays so. -/
theorem moved_down (hclosed : s.state.isOpen = false) (hsame : SameSends s t)
    (hdown : t.state.isDown) : Moved s t := by
  have ht : t.state.isOpen = false ∧ t.state ≠ .connecting := by
    rcases hdown with ht | ht <;> rw [ht] <;> exact ⟨rfl, nofun⟩
  exact .kept hsame (fun h ↦ absurd (h.symm.trans hclosed) Bool.noConfusion)
    (fun h ↦ absurd (h.symm.trans ht.1) Bool.noConfusion) (fun h ↦ absurd h ht.2)

/-! ### The functions -/

/-- scheduleRetry() does not send, and the connection is down. -/
theorem sameSends_scheduleRetry (cfg : Config) (s : Connection) (c : Completion) :
    SameSends s (scheduleRetry cfg s c) ∧ (scheduleRetry cfg s c).state.isDown := by
  rw [scheduleRetry]
  split
  · exact ⟨⟨rfl, rfl, rfl, rfl, rfl, rfl⟩, Or.inr rfl⟩
  dsimp only
  split
  · exact ⟨⟨rfl, rfl, rfl, rfl, rfl, rfl⟩, Or.inr rfl⟩
  · exact ⟨⟨rfl, rfl, rfl, rfl, rfl, rfl⟩, Or.inl rfl⟩

/-- A failed attempt had nothing in its queue. -/
theorem moved_attemptFailed (hclosed : s.state.isOpen = false) (ec : ErrorCode) (c : Completion) :
    Moved s (attemptFailed cfg s ec c) := by
  rw [attemptFailed]
  split
  · exact moved_down hclosed ⟨rfl, rfl, rfl, rfl, rfl, rfl⟩ (Or.inr rfl)
  · obtain ⟨hsame, hdown⟩ := sameSends_scheduleRetry cfg (emit s (.onError ec)) c
    have hemit : SameSends s (emit s (.onError ec)) := ⟨rfl, rfl, rfl, rfl, rfl, rfl⟩
    exact moved_down hclosed (hemit.trans hsame) hdown

/-- The end of an open connection drops its queue. -/
theorem moved_closed (hopen : s.state.isOpen = true) (code : CloseCode) (c : Completion) :
    Moved s (closed cfg s code c) := by
  let ended : Connection := emit { s with
    connected := false
    pending := Word.sub 64 s.pending s.writeQueue.length
    writeQueue := [] } (.onClose code)
  have hended : SameSends s.cleared ended := ⟨rfl, rfl, rfl, rfl, rfl, rfl⟩
  rw [closed]
  split
  · exact .closed hopen (hended.trans ⟨rfl, rfl, rfl, rfl, rfl, rfl⟩) (Or.inr rfl)
  · obtain ⟨hsame, hdown⟩ := sameSends_scheduleRetry cfg ended c
    exact .closed hopen (hended.trans hsame) hdown

/-- `attempt` takes the next generation, or stops. -/
theorem moved_attempt (hclosed : s.state.isOpen = false) : Moved s (attempt s) := by
  rw [attempt]
  split
  · exact moved_down hclosed ⟨rfl, rfl, rfl, rfl, rfl, rfl⟩ (Or.inr rfl)
  · exact .attempted hclosed ⟨rfl, rfl, rfl, rfl, rfl, rfl⟩ rfl

theorem moved_finishOwnClose (hopen : s.state.isOpen = true) (c : Completion) :
    Moved s (finishOwnClose cfg s c) := by
  rw [finishOwnClose]
  split <;> exact moved_closed hopen _ c

theorem moved_ended (hopen : s.state.isOpen = true) (ec : ErrorCode) (c : Completion) :
    Moved s (ended cfg s ec c) := by
  rw [ended]
  split
  · have hdone : SameSends s { s with readDone := true } := ⟨rfl, rfl, rfl, rfl, rfl, rfl⟩
    have hopen' : ({ s with readDone := true } : Connection).state.isOpen = true := hopen
    dsimp only
    split
    · exact (moved_finishOwnClose hopen' c).of_same hdone rfl
    · exact moved_same hdone rfl
  split
  · exact moved_closed hopen _ c
  split
  · have hemit : SameSends s (emit s (.onError ec)) := ⟨rfl, rfl, rfl, rfl, rfl, rfl⟩
    have hopen' : (emit s (.onError ec)).state.isOpen = true := hopen
    exact (moved_closed hopen' _ c).of_same hemit rfl
  · exact moved_closed hopen _ c

/-- A read that fails ends the connection, and another one does not send. -/
theorem moved_onRead (hopen : s.state.isOpen = true) (gen : ℕ) (c : Completion) :
    Moved s (onRead cfg s gen c) := by
  rw [onRead]
  split
  · exact moved_ended hopen _ c
  · exact moved_same ⟨rfl, rfl, rfl, rfl, rfl, rfl⟩ rfl

theorem moved_onClosed (hopen : s.state.isOpen = true) (c : Completion) :
    Moved s (onClosed cfg s c) := by
  have hdone : SameSends s { s with closeDone := true, closeResult := c.ec } :=
    ⟨rfl, rfl, rfl, rfl, rfl, rfl⟩
  have hopen' : ({ s with closeDone := true, closeResult := c.ec } : Connection).state.isOpen =
    true := hopen
  rw [onClosed]
  split
  · exact (moved_finishOwnClose hopen' c).of_same hdone rfl
  · exact moved_same hdone rfl

/-- A step of an attempt begins the next one. -/
theorem moved_begin (s : Connection) (operation : Operation) : Moved s (s.begin operation) :=
  moved_same ⟨rfl, rfl, rfl, rfl, rfl, rfl⟩ rfl

theorem moved_attemptStep (hclosed : s.state.isOpen = false) (c : Completion)
    (hnext : Moved s t) : Moved s (attemptStep cfg s c t) := by
  rw [attemptStep]
  split
  · exact moved_attemptFailed hclosed _ c
  · exact hnext

theorem moved_onConnect (hclosed : s.state.isOpen = false) (gen : ℕ) (c : Completion) :
    Moved s (onConnect cfg s gen c) := by
  rw [onConnect]
  split
  · exact moved_begin s _
  split
  · exact moved_attemptFailed hclosed _ c
  · exact moved_begin s _

/-- The upgrade opens the connection that was being established, or ends the attempt. -/
theorem moved_onUpgrade (hs : s.state = .connecting) (gen : ℕ) (c : Completion) :
    Moved s (onUpgrade cfg s gen c) := by
  have hclosed : s.state.isOpen = false := by rw [hs]; rfl
  rw [onUpgrade]
  split
  · dsimp only
    split
    · exact moved_down hclosed ⟨rfl, rfl, rfl, rfl, rfl, rfl⟩ (Or.inr rfl)
    · exact moved_down hclosed ⟨rfl, rfl, rfl, rfl, rfl, rfl⟩ (Or.inr rfl)
  · exact moved_attemptFailed hclosed _ c
  · have hopen (h : s.state.isOpen = true) : False := by
      rw [hclosed] at h
      exact Bool.false_ne_true h
    dsimp only
    split
    · exact .kept ⟨rfl, rfl, rfl, rfl, rfl, rfl⟩ (fun h ↦ (hopen h).elim) (fun _ ↦ Or.inr hs) nofun
    · exact .kept ⟨rfl, rfl, rfl, rfl, rfl, rfl⟩ (fun h ↦ (hopen h).elim) (fun _ ↦ Or.inr hs) nofun

theorem moved_start (h : Inv cfg s) (hstarting : s.starting = true) : Moved s (start cfg s) := by
  have hclosed : s.state.isOpen = false := by
    rcases h.starting hstarting with hs | ⟨hs, -⟩ <;> rw [hs] <;> rfl
  rw [start]
  split
  · exact moved_down hclosed ⟨rfl, rfl, rfl, rfl, rfl, rfl⟩ (Or.inr rfl)
  · next target _ =>
    have hclosed' : ({ s with starting := false, target := target } : Connection).state.isOpen =
      false := hclosed
    exact (moved_attempt hclosed').of_same ⟨rfl, rfl, rfl, rfl, rfl, rfl⟩ rfl

/-- **A close request** finds the queue of an open connection still to be closed: only a connection
that is closing itself would have been stopped with messages in its queue, and it ignores the
request. -/
theorem moved_doClose (h : Inv cfg s) (code : CloseCode) : Moved s (doClose s code) := by
  rw [doClose]
  split
  · exact moved_same SameSends.refl rfl
  next hgo =>
  have hout := h.outstanding
  dsimp only
  cases hs : s.state with
  | opened =>
    exact .kept ⟨rfl, rfl, rfl, rfl, rfl, rfl⟩ (fun _ ↦ rfl) (fun _ ↦ Or.inl (by rw [hs]; rfl))
      nofun
  | connecting => exact moved_same ⟨rfl, rfl, rfl, rfl, rfl, rfl⟩ hs.symm
  | closing =>
    rw [hs] at hout
    rw [hout.2.2, Bool.true_or] at hgo
    exact absurd rfl hgo
  | _ => exact moved_down (by rw [hs]; rfl) ⟨rfl, rfl, rfl, rfl, rfl, rfl⟩ (Or.inr rfl)

/-! ### Completions -/

/-- The handlers of an attempt. -/
theorem moved_handle_connecting (h : Inv cfg s) (hs : s.state = .connecting)
    {operation : Operation} (hop : operation ∈ s.operations) (c : Completion) :
    Moved (s.without operation) (handle cfg (s.without operation) c operation) := by
  have hout : Outstanding s .connecting := hs ▸ h.outstanding
  have hclosed : (s.without operation).state.isOpen = false := by
    show s.state.isOpen = false
    rw [hs]
    rfl
  have hstep : operation = .resolve s.generation ∨ operation = .connect s.generation ∨
      operation = .tlsHandshake s.generation ∨ operation = .upgrade s.generation := by
    rcases hout with hout | hout | hout | hout <;> rw [hout, List.mem_singleton] at hop <;>
      simp only [hop, true_or, or_true]
  have hfresh := not_stale hs nofun operation
  rcases hstep with rfl | rfl | rfl | rfl <;> rw [handle, if_neg hfresh]
  · exact moved_attemptStep hclosed c (moved_begin _ _)
  · exact moved_attemptStep hclosed c (moved_onConnect hclosed _ c)
  · exact moved_attemptStep hclosed c (moved_begin _ _)
  · have hs' : (s.without (.upgrade s.generation)).state = .connecting := hs
    exact moved_onUpgrade hs' _ c

/-- The handlers of an open connection. -/
theorem moved_handle_open (h : Inv cfg s) (hs : s.state.isOpen = true)
    {operation : Operation} (hop : operation ∈ s.operations) (c : Completion) :
    Moved (s.without operation) (handle cfg (s.without operation) c operation) := by
  have hopen : (s.without operation).state.isOpen = true := hs
  have hstep : (∃ gen, operation = .read gen) ∨ ∃ gen code, operation = .close gen code := by
    have hout := h.outstanding
    cases hstate : s.state with
    | opened =>
      rw [hstate] at hout
      rw [hout.1, List.mem_singleton] at hop
      exact Or.inl ⟨_, hop⟩
    | closing =>
      rw [hstate] at hout
      rcases List.mem_append.1 (hout.1.mem_iff.1 hop) with hmem | hmem
      · split at hmem
        · exact absurd hmem List.not_mem_nil
        · exact Or.inl ⟨_, List.mem_singleton.1 hmem⟩
      · split at hmem
        · exact absurd hmem List.not_mem_nil
        · exact Or.inr ⟨_, _, List.mem_singleton.1 hmem⟩
    | _ =>
      rw [hstate] at hs
      exact absurd hs Bool.false_ne_true
  rcases hstep with ⟨gen, rfl⟩ | ⟨gen, code, rfl⟩ <;> rw [handle] <;> split
  · exact moved_same SameSends.refl rfl
  · exact moved_onRead hopen gen c
  · exact moved_same SameSends.refl rfl
  · exact moved_onClosed hopen c

/-- **A completion** leaves what sending is about alone, unless it ends an open connection or begins
an attempt. -/
theorem moved_handle (h : Inv cfg s) {operation : Operation} (hop : operation ∈ s.operations)
    (c : Completion) : Moved s (handle cfg (s.without operation) c operation) := by
  have hwithout : SameSends s (s.without operation) := ⟨rfl, rfl, rfl, rfl, rfl, rfl⟩
  refine Moved.of_same ?_ hwithout rfl
  cases hs : s.state with
  | idle =>
    have hout : Outstanding s .idle := hs ▸ h.outstanding
    exact absurd hout (List.ne_nil_of_mem hop)
  | connecting => exact moved_handle_connecting h hs hop c
  | opened => exact moved_handle_open h (by rw [hs]; rfl) hop c
  | closing => exact moved_handle_open h (by rw [hs]; rfl) hop c
  | waiting =>
    have hout : Outstanding s .waiting := hs ▸ h.outstanding
    have hops : s.operations = [.retryTimer] := hout.resolve_left (List.ne_nil_of_mem hop)
    obtain rfl : operation = .retryTimer := by rwa [hops, List.mem_singleton] at hop
    have hclosed : (s.without .retryTimer).state.isOpen = false := by
      show s.state.isOpen = false
      rw [hs]
      rfl
    rw [handle, onRetryTimer]
    split
    · exact moved_same SameSends.refl rfl
    · exact moved_attempt hclosed
  | stopped =>
    have hstate : (s.without operation).state = .stopped := hs
    rw [handle_of_stopped hstate]
    exact moved_same SameSends.refl rfl

/-- The completion of a write is ignored, or the message in front leaves the queue and the next one
is written. -/
theorem onWrite_cases (s : Connection) (gen : ℕ) (ec : Option ErrorCode) :
    onWrite s gen ec = s ∨
      gen = s.generation ∧ s.writeQueue ≠ [] ∧ onWrite s gen ec =
        if s.writeQueue.tail.isEmpty then
          { s with writeQueue := s.writeQueue.tail, pending := Word.sub 64 s.pending 1 }
        else
          write { s with
            writeQueue := s.writeQueue.tail
            pending := Word.sub 64 s.pending 1 } gen := by
  rw [onWrite]
  split
  · exact Or.inl rfl
  · next hgo =>
    rw [stale, Bool.or_eq_true, Bool.or_eq_true, Bool.or_eq_true, bne_iff_ne] at hgo
    refine Or.inr ⟨Classical.byContradiction fun hne ↦ hgo (Or.inl (Or.inl (Or.inl hne))),
      fun hqueue ↦ ?_, rfl⟩
    exact hgo (Or.inl (Or.inr (List.isEmpty_iff.2 hqueue)))

/-! ### Steps -/

/-- Not a step of sending. -/
def Silent (s : Connection) : Action → Prop
  | .sender _ _ | .written _ _ => False
  | .task => ∃ code tasks, s.tasks = .close code :: tasks
  | _ => True

/-- What a step does to the queue: one of the steps of sending, or a move. -/
inductive Sent (cfg : Config) (s : Connection) : Action → Connection → Prop
  | moved (action : Action) (t : Connection) (hsilent : Silent s action) (h : Moved s t) :
    Sent cfg s action t
  | send (message : Message) (hconnected : s.connected = true) :
    Sent cfg s (.send message) { s with senders := s.senders ++ [.load message] }
  | sender (i : ℕ) (spurious : Bool) (sender : Sender) (hsender : s.senders[i]? = some sender) :
    Sent cfg s (.sender i spurious) (WebSocketClient.send cfg s i spurious sender)
  | task (message : Message) (gen : ℕ) (tasks : List Task)
    (ht : s.tasks = .send message gen :: tasks) :
    Sent cfg s .task (runSend { s with tasks := tasks } message gen)
  | written (write : Write) (ec : Option ErrorCode) (hwrite : write ∈ s.writes) :
    Sent cfg s (.written write ec)
      (onWrite { s with writes := s.writes.erase write } write.gen ec)

/-- Every step is one of sending, or a move. -/
theorem sent_of_step (h : Inv cfg s) {action : Action} (hstep : step cfg s action = some t) :
    Sent cfg s action t := by
  cases stepped_of_step hstep with
  | start hstarting => exact .moved _ _ trivial (moved_start h hstarting)
  | close code =>
    have htasks : (s.tasks ++ [Task.close code]).filterMap Task.send? = s.sendTasks := by
      rw [List.filterMap_append]
      exact List.append_nil _
    exact .moved _ _ trivial (moved_same ⟨rfl, rfl, rfl, htasks, rfl, rfl⟩ rfl)
  | destroy => exact .moved _ _ trivial (moved_same ⟨rfl, rfl, rfl, rfl, rfl, rfl⟩ rfl)
  | send message hconnected => exact .send message hconnected
  | unconnected => exact .moved _ _ trivial (moved_same SameSends.refl rfl)
  | sender i spurious sender hsender => exact .sender i spurious sender hsender
  | task task tasks ht =>
    cases task with
    | close code =>
      have htasks : tasks.filterMap Task.send? = s.sendTasks := by
        rw [Connection.sendTasks, ht]
        rfl
      have h' : Inv cfg { s with tasks := tasks } := h.frame rfl
      exact .moved _ _ ⟨code, tasks, ht⟩
        ((moved_doClose h' code).of_same ⟨rfl, rfl, rfl, htasks, rfl, rfl⟩ rfl)
    | send message gen => exact .task message gen tasks ht
  | complete operation c hop => exact .moved _ _ trivial (moved_handle h hop c)
  | written write ec hwrite => exact .written write ec hwrite

end CppGate.WebSocketClient
