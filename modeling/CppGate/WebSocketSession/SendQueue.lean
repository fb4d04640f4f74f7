import CppGate.Foundations.Machine
import CppGate.Foundations.Words

/-!
# The send queue of a server WebSocket session

The part of `WebSocketSession.h` that writes messages: send_internal(), the write loop and close().
Calls come from any thread and only post a task; a send counts its message first, which is a step of
its own (`State.count`, `State.post`). The strand runs the tasks in the order they were posted, one
at a time, and the completion of an async_write is one more handler there, at any time after the
write began.

Of Boost.Beast two things are assumed, and built into when a write may succeed: after a failed
async_write no later one succeeds, and none that was started after async_close began.
-/

namespace CppGate.WebSocketSession

/-- `boost::beast::websocket::close_code`. -/
abbrev CloseCode := ℕ

/-- `close_code::policy_error`. -/
def policyError : CloseCode := 1008

/-- `ws_message`. -/
structure Message where
  data : List UInt8
  isText : Bool
  deriving DecidableEq, Repr

/-- A task posted to the strand. -/
inductive Task
  | send (message : Message)
  | close (code : CloseCode)
  deriving DecidableEq, Repr

/-- The task of a send. -/
def Task.isSend : Task → Bool
  | .send _ => true
  | .close _ => false

/-- An outstanding async_write. -/
structure Write where
  message : Message
  /-- It was started after async_close began. -/
  afterClose : Bool
  deriving DecidableEq, Repr

/-- The session, the strand, and the history of what was sent. -/
structure State where
  /-- `write_queue_`. -/
  writeQueue : List Message := []
  /-- `pending_`. -/
  pending : ℕ := 0
  /-- `closing_`. -/
  closing : Bool := false
  /-- `ws.is_open()`. -/
  isOpen : Bool := true
  /-- The messages of the threads that have counted one and not posted its task yet. -/
  sending : List Message := []
  /-- Posted to the strand and not run yet, first posted first. -/
  tasks : List Task := []
  /-- Outstanding, first started first. -/
  writing : List Write := []
  /-- The messages whose send task ran, in that order. -/
  sent : List Message := []
  /-- The messages whose async_write completed successfully, in that order. -/
  delivered : List Message := []
  /-- A message was dropped because the queue was full. -/
  overflowed : Bool := false
  /-- An async_write failed. -/
  failed : Bool := false
  /-- What async_close was called with. -/
  closedWith : Option CloseCode := none
  deriving DecidableEq, Repr

/-! ### The session's functions -/

/-- `pending_ -= n`. -/
def State.settle (s : State) (n : ℕ) : State :=
  { s with pending := Word.sub 64 s.pending n }

/-- `do_write`. -/
def doWrite (s : State) : State :=
  match s.writeQueue with
  | [] => s
  | message :: _ => { s with writing := s.writing ++ [⟨message, s.closing⟩] }

/-- `close`, from any thread. -/
def close (s : State) (code : CloseCode) : State :=
  { s with tasks := s.tasks ++ [.close code] }

/-- `++pending_`, with which send_internal() begins. -/
def State.count (s : State) (message : Message) : State :=
  { s with pending := Word.add 64 s.pending 1, sending := s.sending ++ [message] }

/-- The post that follows, by the `i`-th of the threads that have come so far. -/
def State.post (s : State) (i : ℕ) (message : Message) : State :=
  { s with sending := s.sending.eraseIdx i, tasks := s.tasks ++ [.send message] }

/-- `send_internal`, both statements: on the strand no task of the session runs in between. -/
def sendInternal (s : State) (message : Message) : State :=
  (s.count message).post s.sending.length message

/-- The task that close() posts. -/
def runClose (s : State) (code : CloseCode) : State :=
  if s.closing || !s.isOpen then
    s
  else
    { s with closing := true, closedWith := some code }

/-- The task that send_internal() posts. -/
def runSend (limit : ℕ) (s : State) (message : Message) : State :=
  let s := { s with sent := s.sent ++ [message] }
  if s.closing then
    s.settle 1
  else if limit ≤ s.writeQueue.length then
    -- slow consumer
    close { s.settle 1 with overflowed := true } policyError
  else
    let s := { s with writeQueue := s.writeQueue ++ [message] }
    -- start the write loop if idle
    if s.writeQueue.length = 1 then doWrite s else s

/-- `on_write` without an error. -/
def onWritten (s : State) (message : Message) : State :=
  doWrite { s.settle 1 with
    writeQueue := s.writeQueue.tail
    delivered := s.delivered ++ [message] }

/-- `on_write` with an error. -/
def onWriteFailed (s : State) : State :=
  { s.settle s.writeQueue.length with writeQueue := [], failed := true }

/-! ### The machine -/

/-- What happens next. -/
inductive Action
  /-- A thread begins to send a message, and counts it. -/
  | send (message : Message)
  /-- The `i`-th thread that has counted one posts it. -/
  | post (i : ℕ)
  /-- A thread closes or stops the session. -/
  | close (code : CloseCode)
  /-- The strand runs the next task. -/
  | task
  /-- An outstanding write completes, successfully or not. -/
  | written (success : Bool)
  /-- The stream is no longer open: the peer closed it, or reading failed. -/
  | lost
  deriving DecidableEq, Repr

/-- A write that may still succeed. -/
def State.writable (s : State) (w : Write) : Bool :=
  !w.afterClose && !s.failed

/-- One step of the session, with `websocket_send_queue_limit = limit`. -/
def step (limit : ℕ) (s : State) : Action → Option State
  | .send message => some (s.count message)
  | .post i => (s.sending[i]?).map (s.post i)
  | .close code => some (close s code)
  | .task =>
    match s.tasks with
    | [] => none
    | .send message :: tasks => some (runSend limit { s with tasks } message)
    | .close code :: tasks => some (runClose { s with tasks } code)
  | .written success =>
    match s.writing, success with
    | [], _ => none
    | w :: writing, true =>
      if s.writable w then some (onWritten { s with writing } w.message) else none
    | _ :: writing, false => some (onWriteFailed { s with writing })
  | .lost => some { s with isOpen := false }

/-- The session, from the end of its handshake on. -/
def machine (limit : ℕ) : Machine State Action where
  Init s := s = {}
  step := step limit

/-- The steps of the session, one case for each handler. -/
inductive Stepped (limit : ℕ) (s : State) : Action → State → Prop
  | send (message : Message) : Stepped limit s (.send message) (s.count message)
  | post (i : ℕ) (message : Message) (hi : s.sending[i]? = some message) :
    Stepped limit s (.post i) (s.post i message)
  | close (code : CloseCode) : Stepped limit s (.close code) (close s code)
  | runSend (message : Message) (tasks : List Task) (htasks : s.tasks = .send message :: tasks) :
    Stepped limit s .task (runSend limit { s with tasks } message)
  | runClose (code : CloseCode) (tasks : List Task) (htasks : s.tasks = .close code :: tasks) :
    Stepped limit s .task (runClose { s with tasks } code)
  | written (w : Write) (writing : List Write) (hw : s.writing = w :: writing)
    (hok : s.writable w = true) :
    Stepped limit s (.written true) (onWritten { s with writing } w.message)
  | failed (w : Write) (writing : List Write) (hw : s.writing = w :: writing) :
    Stepped limit s (.written false) (onWriteFailed { s with writing })
  | lost : Stepped limit s .lost { s with isOpen := false }

/-- Every step is one of them. -/
theorem stepped_of_step {limit : ℕ} {s t : State} {a : Action} (h : step limit s a = some t) :
    Stepped limit s a t := by
  unfold step at h
  split at h
  · exact Option.some.inj h ▸ .send _
  · obtain ⟨message, hi, rfl⟩ := Option.map_eq_some_iff.1 h
    exact .post _ _ hi
  · exact Option.some.inj h ▸ .close _
  · split at h
    · exact absurd h.symm (Option.some_ne_none t)
    · next htasks => exact Option.some.inj h ▸ .runSend _ _ htasks
    · next htasks => exact Option.some.inj h ▸ .runClose _ _ htasks
  · split at h
    · exact absurd h.symm (Option.some_ne_none t)
    · next hw =>
      split at h
      · next hok => exact Option.some.inj h ▸ .written _ _ hw hok
      · exact absurd h.symm (Option.some_ne_none t)
    · next hw => exact Option.some.inj h ▸ .failed _ _ hw
  · exact Option.some.inj h ▸ .lost

end CppGate.WebSocketSession
