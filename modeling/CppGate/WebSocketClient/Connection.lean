import CppGate.Foundations.Machine
import CppGate.Foundations.Text
import CppGate.Foundations.Words
import CppGate.WebSocketSession.SendQueue

/-!
# A connection of the WebSocket client

`WsConnection` of `WebSocketClient.cpp`: six states, one chain of asynchronous operations for each
attempt to connect, and two concurrent operations (read and close) while a connection is being
closed. All handlers run on the connection's strand, so each completion and each posted task is one
step here. Calls of send() run on any thread: each of their atomic accesses is a step.

An operation that is outstanding may complete at any time and in any order, with whatever the label
says: an error, a message, a close code. The operations that an earlier attempt left behind are
among them, and are told apart by their generation only. Cancelling an operation changes nothing,
since a completion may already be on its way.

The callbacks without an executor run where they are delivered, those with one are handed to it
there. Either way `delivered` lists them in the order the connection delivers them.
-/

namespace CppGate.WebSocketClient

open CppGate.WebSocketSession (CloseCode Message)

/-! ### Options, requests and events -/

namespace CloseCode

/-- `CloseCode::none`. -/
def none : CloseCode := 0

/-- `CloseCode::normal`. -/
def normal : CloseCode := 1000

/-- `CloseCode::going_away`. -/
def goingAway : CloseCode := 1001

/-- `CloseCode::no_status`. -/
def noStatus : CloseCode := 1005

/-- `CloseCode::abnormal`. -/
def abnormal : CloseCode := 1006

end CloseCode

/-- `boost::system::error_code`: those that the connection compares with or reports itself, and the
others. -/
inductive ErrorCode
  /-- `websocket::error::upgrade_declined`. -/
  | upgradeDeclined
  /-- `websocket::error::closed`. -/
  | closed
  /-- `net::error::operation_aborted`. -/
  | operationAborted
  /-- `client_error::upgrade_rejected`. -/
  | upgradeRejected
  /-- `client_error::gave_up`. -/
  | gaveUp
  | other (value : ℕ)
  deriving DecidableEq, Repr

/-- `WebSocketClient::Reconnect`, without the delays: what retryDelay() draws is part of a label. -/
structure Reconnect where
  enabled : Bool := false
  maxAttempts : ℕ := 0
  deriving DecidableEq, Repr

/-- A call of one of the user's callbacks. -/
inductive Event
  | onOpen
  | onMessage (message : Message)
  | onClose (code : CloseCode)
  | onError (ec : ErrorCode)
  | onReconnecting (attempt : ℕ) (delay : ℕ)
  deriving DecidableEq, Repr

/-- `WebSocketClient::Callbacks`: which of them are set. -/
structure Callbacks where
  onOpen : Bool := false
  onMessage : Bool := false
  onClose : Bool := false
  onError : Bool := false
  onReconnecting : Bool := false
  deriving DecidableEq, Repr

/-- Whether the callback of an event is set. -/
def Callbacks.wants (callbacks : Callbacks) : Event → Bool
  | .onOpen => callbacks.onOpen
  | .onMessage _ => callbacks.onMessage
  | .onClose _ => callbacks.onClose
  | .onError _ => callbacks.onError
  | .onReconnecting _ _ => callbacks.onReconnecting

/-- `Target`, as far as the connection looks at it. -/
structure Target where
  tls : Bool := false
  deriving DecidableEq, Repr

/-- What connect() was given. -/
structure Config where
  /-- What parseUrl() makes of the request's URL. -/
  url : ErrorCode ⊕ Target
  reconnect : Reconnect := {}
  callbacks : Callbacks := {}
  sendQueueLimit : ℕ := 32
  deriving DecidableEq, Repr

/-! ### The connection -/

/-- `WsConnection::State`. -/
inductive ConnectionState
  | idle
  | connecting
  | opened
  | closing
  | waiting
  | stopped
  deriving DecidableEq, Repr

/-- An outstanding operation other than a write, with the generation its handler captured. -/
inductive Operation
  | resolve (gen : ℕ)
  | connect (gen : ℕ)
  | tlsHandshake (gen : ℕ)
  | upgrade (gen : ℕ)
  | read (gen : ℕ)
  | close (gen : ℕ) (code : CloseCode)
  | retryTimer
  deriving DecidableEq, Repr

/-- An outstanding async_write. -/
structure Write where
  gen : ℕ
  message : Message
  deriving DecidableEq, Repr

/-- A task posted to the strand. -/
inductive Task
  | close (code : CloseCode)
  | send (message : Message) (gen : ℕ)
  deriving DecidableEq, Repr

/-- A call of send() that found the connection connected: what it does next. -/
inductive Sender
  /-- Load `pending`. -/
  | load (message : Message)
  /-- Try to replace the value `current` of `pending`. -/
  | reserve (message : Message) (current : ℕ)
  /-- Load `generation`. -/
  | capture (message : Message)
  /-- Post the task. -/
  | post (message : Message) (gen : ℕ)
  deriving DecidableEq, Repr

/-- `WsConnection`, its client's `closed`, the strand, the outstanding operations, and the events
delivered so far. -/
structure Connection where
  state : ConnectionState := .idle
  callbacks : Callbacks
  target : Target := {}
  stopRequested : Bool := false
  failures : ℕ := 0
  generation : ℕ := 0
  requestedCode : CloseCode := CloseCode.normal
  closeDone : Bool := false
  closeResult : Option ErrorCode := none
  readDone : Bool := false
  connected : Bool := false
  pending : ℕ := 0
  writeQueue : List Message := []
  upgradeStatus : ℕ := 0
  protocol : Text := []
  /-- `client->closed`. -/
  clientClosed : Bool := false
  /-- What start() dispatched has not run yet. -/
  starting : Bool := true
  tasks : List Task := []
  operations : List Operation := []
  writes : List Write := []
  senders : List Sender := []
  delivered : List Event := []
  deriving DecidableEq, Repr

/-- What a handler finds when it runs. Each handler looks at some of it. -/
structure Completion where
  /-- The operation's error. -/
  ec : Option ErrorCode := none
  /-- The error of setting SNI. -/
  sni : Option ErrorCode := none
  /-- The status of the answer to the upgrade. -/
  status : ℕ := 101
  /-- Its `Sec-WebSocket-Protocol`. -/
  subprotocol : Text := []
  /-- What the read buffer holds. -/
  message : Message := ⟨[], true⟩
  /-- The stream's `reason().code`. -/
  reason : CloseCode := CloseCode.none
  /-- What retryDelay() returns, should it be called. -/
  delay : ℕ := 0
  deriving DecidableEq, Repr

/-! ### Events -/

/-- `emitOpen`, `emitMessage`, `emitClose`, `emitError`, `emitReconnecting`: deliver an event if its
callback is set. -/
def emit (s : Connection) (event : Event) : Connection :=
  { s with delivered := s.delivered ++ [event].filter s.callbacks.wants }

/-! ### Attempts -/

/-- `stop`: nothing more will be called. -/
def stop (s : Connection) : Connection :=
  { s with state := .stopped, connected := false, callbacks := {} }

/-- `stale`. -/
def stale (s : Connection) (gen : ℕ) : Bool :=
  gen != s.generation || s.state == .stopped

/-- Begin an operation. -/
def Connection.begin (s : Connection) (operation : Operation) : Connection :=
  { s with operations := operation :: s.operations }

/-- An operation is no longer outstanding. -/
def Connection.without (s : Connection) (operation : Operation) : Connection :=
  { s with operations := s.operations.erase operation }

/-- `attempt`. -/
def attempt (s : Connection) : Connection :=
  if s.stopRequested || s.clientClosed then
    stop s
  else
    let gen := Word.add 32 s.generation 1
    { s with state := .connecting, generation := gen }.begin (.resolve gen)

/-- What start() dispatches. -/
def start (cfg : Config) (s : Connection) : Connection :=
  let s := { s with starting := false }
  match cfg.url with
  | .inl ec => stop (emit s (.onError ec))
  | .inr target => attempt { s with target := target }

/-- `scheduleRetry`. -/
def scheduleRetry (cfg : Config) (s : Connection) (c : Completion) : Connection :=
  if !cfg.reconnect.enabled || s.stopRequested || s.clientClosed then
    stop s
  else
    let s := { s with failures := Word.add 32 s.failures 1 }
    if 0 < cfg.reconnect.maxAttempts ∧ cfg.reconnect.maxAttempts < s.failures then
      stop (emit s (.onError .gaveUp))
    else
      (emit { s with state := .waiting } (.onReconnecting s.failures c.delay)).begin .retryTimer

/-- `attemptFailed`. -/
def attemptFailed (cfg : Config) (s : Connection) (ec : ErrorCode) (c : Completion) : Connection :=
  if s.stopRequested then stop s else scheduleRetry cfg (emit s (.onError ec)) c

/-- `onResolve`. -/
def onResolve (s : Connection) (gen : ℕ) : Connection :=
  s.begin (.connect gen)

/-- `upgrade`. -/
def upgrade (s : Connection) (gen : ℕ) : Connection :=
  s.begin (.upgrade gen)

/-- `onConnect`. -/
def onConnect (cfg : Config) (s : Connection) (gen : ℕ) (c : Completion) : Connection :=
  if !s.target.tls then
    upgrade s gen
  else
    match c.sni with
    | some ec => attemptFailed cfg s ec c
    | none => s.begin (.tlsHandshake gen)

/-- `read`. -/
def read (s : Connection) (gen : ℕ) : Connection :=
  s.begin (.read gen)

/-- `closeOpen`. -/
def closeOpen (s : Connection) (code : CloseCode) : Connection :=
  { s with state := .closing, requestedCode := code }.begin (.close s.generation code)

/-- `onUpgrade`. -/
def onUpgrade (cfg : Config) (s : Connection) (gen : ℕ) (c : Completion) : Connection :=
  match c.ec with
  | some .upgradeDeclined =>
    let s := { s with upgradeStatus := c.status }
    stop (if s.stopRequested then s else emit s (.onError .upgradeRejected))
  | some ec => attemptFailed cfg s ec c
  | none =>
    let s := { s with
      protocol := c.subprotocol
      upgradeStatus := 0
      failures := 0 }
    let s := read (emit { s with state := .opened, connected := true } .onOpen) gen
    -- close() came during the handshake: close now that it's open
    if s.stopRequested then closeOpen s CloseCode.normal else s

/-! ### The open connection -/

/-- `peerCode`. -/
def peerCode (c : Completion) : CloseCode :=
  if c.reason = CloseCode.none then CloseCode.noStatus else c.reason

/-- `closed`. -/
def closed (cfg : Config) (s : Connection) (code : CloseCode) (c : Completion) : Connection :=
  let s := { s with
    connected := false
    pending := Word.sub 64 s.pending s.writeQueue.length
    writeQueue := [] }
  let s := emit s (.onClose code)
  if s.stopRequested || s.clientClosed then stop s else scheduleRetry cfg s c

/-- `finishOwnClose`: the server's echoed code, or abnormal if the close handshake failed. -/
def finishOwnClose (cfg : Config) (s : Connection) (c : Completion) : Connection :=
  match s.closeResult with
  | some _ => closed cfg s CloseCode.abnormal c
  | none => closed cfg s (if c.reason = CloseCode.none then s.requestedCode else c.reason) c

/-- `ended`. -/
def ended (cfg : Config) (s : Connection) (ec : ErrorCode) (c : Completion) : Connection :=
  if s.state = .closing ∧ ec = .operationAborted then
    let s := { s with readDone := true }
    if s.closeDone then finishOwnClose cfg s c else s
  else if ec = .closed then
    closed cfg s (peerCode c) c
  else if !s.stopRequested ∧ ec ≠ .operationAborted then
    closed cfg (emit s (.onError ec)) CloseCode.abnormal c
  else
    closed cfg s CloseCode.abnormal c

/-- `onRead`. -/
def onRead (cfg : Config) (s : Connection) (gen : ℕ) (c : Completion) : Connection :=
  match c.ec with
  | some ec => ended cfg s ec c
  -- also during our own close: reads continue until the close completes
  | none => read (emit s (.onMessage c.message)) gen

/-- The handler of async_close. -/
def onClosed (cfg : Config) (s : Connection) (c : Completion) : Connection :=
  let s := { s with closeDone := true, closeResult := c.ec }
  if s.readDone then finishOwnClose cfg s c else s

/-- The handler of the retry timer. -/
def onRetryTimer (s : Connection) (c : Completion) : Connection :=
  if c.ec.isSome ∨ s.state ≠ .waiting then s else attempt s

/-- `doClose`. Cancelling the pending step or the timer leaves their completions to come. -/
def doClose (s : Connection) (code : CloseCode) : Connection :=
  if s.stopRequested || s.state == .stopped then
    s
  else
    let s := { s with stopRequested := true }
    match s.state with
    | .opened => closeOpen s code
    | .connecting => s
    | _ => stop s

/-! ### Sending -/

/-- `write`. -/
def write (s : Connection) (gen : ℕ) : Connection :=
  match s.writeQueue with
  | [] => s
  | message :: _ => { s with writes := ⟨gen, message⟩ :: s.writes }

/-- The task that send() posts. -/
def runSend (s : Connection) (message : Message) (gen : ℕ) : Connection :=
  if s.state ≠ .opened ∨ gen ≠ s.generation then
    { s with pending := Word.sub 64 s.pending 1 }
  else
    let s := { s with writeQueue := s.writeQueue ++ [message] }
    if s.writeQueue.length = 1 then write s s.generation else s

/-- The handler of async_write. -/
def onWrite (s : Connection) (gen : ℕ) (ec : Option ErrorCode) : Connection :=
  if stale s gen || s.writeQueue.isEmpty || ec.isSome then
    s
  else
    let s := { s with
      writeQueue := s.writeQueue.tail
      pending := Word.sub 64 s.pending 1 }
    if s.writeQueue.isEmpty then s else write s gen

/-- The next access of the `i`-th running call of send(). A weak compare-exchange may fail without a
reason. -/
def send (cfg : Config) (s : Connection) (i : ℕ) (spurious : Bool) : Sender → Connection
  | .load message => { s with senders := s.senders.set i (.reserve message s.pending) }
  | .reserve message current =>
    if cfg.sendQueueLimit ≤ current then
      { s with senders := s.senders.eraseIdx i }
    else if s.pending = current ∧ !spurious then
      { s with
        pending := Word.add 64 current 1
        senders := s.senders.set i (.capture message) }
    else
      { s with senders := s.senders.set i (.reserve message s.pending) }
  | .capture message => { s with senders := s.senders.set i (.post message s.generation) }
  | .post message gen =>
    { s with
      tasks := s.tasks ++ [.send message gen]
      senders := s.senders.eraseIdx i }

/-! ### The machine -/

/-- What happens next. -/
inductive Action
  /-- The strand runs what start() dispatched. -/
  | start
  /-- A thread calls close(), or the last handle goes away, or the client's destructor closes. -/
  | close (code : CloseCode)
  /-- The client's destructor sets `closed`. -/
  | destroy
  /-- A thread calls send(). -/
  | send (message : Message)
  /-- The `i`-th running call of send() goes on. -/
  | sender (i : ℕ) (spurious : Bool)
  /-- The strand runs the next task. -/
  | task
  /-- An operation completes. -/
  | complete (operation : Operation) (c : Completion)
  /-- A write completes. -/
  | written (write : Write) (ec : Option ErrorCode)
  deriving DecidableEq, Repr

/-- Run a task. -/
def runTask (s : Connection) : Task → Connection
  | .close code => doClose s code
  | .send message gen => runSend s message gen

/-- An error ends the attempt, without one it goes on. -/
def attemptStep (cfg : Config) (s : Connection) (c : Completion) (next : Connection) : Connection :=
  match c.ec with
  | some ec => attemptFailed cfg s ec c
  | none => next

/-- The handler of an operation. Every one but the timer's ignores a completion that is stale. -/
def handle (cfg : Config) (s : Connection) (c : Completion) : Operation → Connection
  | .resolve gen => if stale s gen then s else attemptStep cfg s c (onResolve s gen)
  | .connect gen => if stale s gen then s else attemptStep cfg s c (onConnect cfg s gen c)
  | .tlsHandshake gen => if stale s gen then s else attemptStep cfg s c (upgrade s gen)
  | .upgrade gen => if stale s gen then s else onUpgrade cfg s gen c
  | .read gen => if stale s gen then s else onRead cfg s gen c
  | .close gen _ => if stale s gen then s else onClosed cfg s c
  | .retryTimer => onRetryTimer s c

/-- One step of a connection. -/
def step (cfg : Config) (s : Connection) : Action → Option Connection
  | .start => if s.starting then some (start cfg s) else none
  | .close code => some { s with tasks := s.tasks ++ [.close code] }
  | .destroy => some { s with clientClosed := true }
  | .send message =>
    some (if s.connected then { s with senders := s.senders ++ [.load message] } else s)
  | .sender i spurious => s.senders[i]?.map (send cfg s i spurious)
  | .task =>
    match s.tasks with
    | [] => none
    | task :: tasks => some (runTask { s with tasks := tasks } task)
  | .complete operation c =>
    if operation ∈ s.operations then
      some (handle cfg (s.without operation) c operation)
    else
      none
  | .written write ec =>
    if write ∈ s.writes then
      some (onWrite { s with writes := s.writes.erase write } write.gen ec)
    else
      none

/-- The runs of a connection. -/
def machine (cfg : Config) : Machine Connection Action where
  Init s := s = { callbacks := cfg.callbacks }
  step := step cfg

/-- The steps of a connection, with what each of them needs. -/
inductive Stepped (cfg : Config) (s : Connection) : Action → Connection → Prop
  | start (hstarting : s.starting = true) : Stepped cfg s .start (start cfg s)
  | close (code : CloseCode) :
    Stepped cfg s (.close code) { s with tasks := s.tasks ++ [.close code] }
  | destroy : Stepped cfg s .destroy { s with clientClosed := true }
  | send (message : Message) (hconnected : s.connected = true) :
    Stepped cfg s (.send message) { s with senders := s.senders ++ [.load message] }
  | unconnected (message : Message) : Stepped cfg s (.send message) s
  | sender (i : ℕ) (spurious : Bool) (sender : Sender) (hsender : s.senders[i]? = some sender) :
    Stepped cfg s (.sender i spurious) (send cfg s i spurious sender)
  | task (task : Task) (tasks : List Task) (ht : s.tasks = task :: tasks) :
    Stepped cfg s .task (runTask { s with tasks := tasks } task)
  | complete (operation : Operation) (c : Completion) (hop : operation ∈ s.operations) :
    Stepped cfg s (.complete operation c) (handle cfg (s.without operation) c operation)
  | written (write : Write) (ec : Option ErrorCode) (hwrite : write ∈ s.writes) :
    Stepped cfg s (.written write ec)
      (onWrite { s with writes := s.writes.erase write } write.gen ec)

theorem stepped_of_step {cfg : Config} {s t : Connection} {action : Action}
    (h : step cfg s action = some t) : Stepped cfg s action t := by
  cases action with
  | start =>
    obtain ⟨hstarting, h⟩ := Option.ite_none_right_eq_some.1 h
    exact Option.some.inj h ▸ .start hstarting
  | close code => exact Option.some.inj h ▸ .close code
  | destroy => exact Option.some.inj h ▸ .destroy
  | send message =>
    rw [← Option.some.inj h]
    split
    · next hconnected => exact .send message hconnected
    · exact .unconnected message
  | sender i spurious =>
    obtain ⟨sender, hsender, rfl⟩ := Option.map_eq_some_iff.1 h
    exact .sender i spurious sender hsender
  | task =>
    rw [step] at h
    split at h
    · exact absurd h.symm (Option.some_ne_none t)
    · next ht => exact Option.some.inj h ▸ .task _ _ ht
  | complete operation c =>
    obtain ⟨hop, h⟩ := Option.ite_none_right_eq_some.1 h
    exact Option.some.inj h ▸ .complete operation c hop
  | written write ec =>
    obtain ⟨hwrite, h⟩ := Option.ite_none_right_eq_some.1 h
    exact Option.some.inj h ▸ .written write ec hwrite

end CppGate.WebSocketClient
