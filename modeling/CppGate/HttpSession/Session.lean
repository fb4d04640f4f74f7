import CppGate.Foundations.Machine
import CppGate.Http.Message
import Mathlib.Data.List.Perm.Basic

/-!
# A session of the HTTP server

`HttpSession.h` with what `SessionRegistry.h` does for one session. A session detects TLS or begins
with the TLS handshake, reads requests one after the other, routes them and writes the responses,
and ends with a TLS shutdown, with draining what the client still sends, or by starting nothing
more. Everything runs on the session's strand except run(), stopAll() and the stop() it calls, which
may come from any thread: each of their accesses to the registry and to the strand is a step.

An operation completes in two steps: first its outcome is there and its handler queued, then the
handler runs. Cancelling the operation gives it the outcome `operationAborted`, but only while it
has no other one. An operation may be composed of several smaller ones. Where one of these
completes, the operation goes on when that is handled (`Completion.part`).

The buffer is modelled by whether it holds anything. What was parsed, and what the router makes of
it, come with the completion of the read that found it.
-/

namespace CppGate.HttpSession

open Http

/-! ### Operations -/

/-- `boost::beast::error_code`, as far as the session tells them apart. -/
inductive ErrorCode
  /-- `http::error::end_of_stream`. -/
  | endOfStream
  /-- `http::error::body_limit`. -/
  | bodyLimit
  /-- `http::error::header_limit`. -/
  | headerLimit
  /-- `http::error::partial_message`. -/
  | partialMessage
  /-- `http::error::need_more`. -/
  | needMore
  /-- Any other error of the category of `http::error`. -/
  | malformed (value : ℕ)
  /-- `net::error::operation_aborted`. -/
  | operationAborted
  | other (value : ℕ)
  deriving DecidableEq, Repr

/-- `ec.category() == http::make_error_code(http::error::bad_method).category()`. -/
def ErrorCode.isHttp : ErrorCode → Bool
  | .operationAborted | .other _ => false
  | _ => true

/-- What the handler of a successful operation finds. Each handler looks at some of it. -/
structure Found where
  /-- The result of async_detect_ssl. -/
  tls : Bool := false
  /-- The buffer still holds something that the operation did not use. -/
  left : Bool := false
  /-- `parser_->get()`. -/
  request : Request := { method := .get, target := "/".toList }
  /-- `websocket::is_upgrade`. -/
  isUpgrade : Bool := false
  /-- How route() ends, and the response it leaves. -/
  routed : Outcome × HttpResponse := (.returned, { status := 204 })
  deriving DecidableEq, Repr

/-- The outcome of an operation. -/
inductive Completion
  /-- A part of it completed: the operation goes on, with bytes for the parser or not. -/
  | part (bytes : Bool)
  /-- It failed. For the parser's errors: whether the target was still empty. -/
  | error (ec : ErrorCode) (targetEmpty : Bool)
  | success (found : Found)
  deriving DecidableEq, Repr

/-- What an asynchronous operation does. -/
inductive Kind
  | detect
  | handshake
  | header
  /-- The write of the 100 Continue. -/
  | continueWrite
  | body
  | write (response : HttpResponse)
  | linger
  | shutdown
  deriving DecidableEq, Repr

/-- An operation whose handler has not run: outstanding, or completed and its handler queued. -/
structure Operation where
  kind : Kind
  done : Option Completion := none
  deriving DecidableEq, Repr

/-- A task posted to the strand. -/
inductive Task
  /-- on_run(). -/
  | run
  /-- on_stop(). -/
  | stop
  /-- What do_write() posts. -/
  | write
  deriving DecidableEq, Repr

/-! ### The session -/

/-- The alternative of `stream_`. -/
inductive Stream
  | plain
  | tls
  deriving DecidableEq, Repr

/-- `http::request_parser`, as far as on_stop() looks at it. -/
structure Parser where
  gotSome : Bool
  deriving DecidableEq, Repr

/-- Where run() is. -/
inductive Launch
  /-- Not called yet. -/
  | created
  /-- The registry has the session, nothing is dispatched yet. -/
  | added
  /-- on_run() is dispatched. -/
  | launched
  /-- The registry was stopping. -/
  | refused
  deriving DecidableEq, Repr

/-- The template parameters of `HttpSession`, and Beast's messages. -/
structure Config where
  withPlain : Bool
  withSsl : Bool
  plain_or_ssl : withPlain = true ∨ withSsl = true
  beast : Beast

/-- The session, its registry as the session sees it, the strand and the operations. -/
structure Session where
  stream : Stream
  parser : Option Parser := none
  /-- `buffer_` holds something. -/
  buffered : Bool := false
  responseQueue : List HttpResponse := []
  linger : Bool := false
  lingering : Bool := false
  waiting : Bool := false
  /-- `sessions_->stopping()`. -/
  stopping : Bool := false
  /-- `sessions_` has the session. -/
  registered : Bool := false
  launch : Launch := .created
  /-- Calls of stopAll() that took the session from the registry and have not called its stop(). -/
  stoppers : ℕ := 0
  tasks : List Task := []
  operations : List Operation := []
  /-- on_stop() has run. -/
  stopRan : Bool := false
  deriving DecidableEq, Repr

/-- `parser_ && parser_->got_some()`. -/
def Session.gotSome (s : Session) : Bool :=
  s.parser.any Parser.gotSome

/-- Start an operation. -/
def Session.start (s : Session) (kind : Kind) : Session :=
  { s with operations := { kind := kind } :: s.operations }

/-- The handler of an operation runs. -/
def Session.without (s : Session) (operation : Operation) : Session :=
  { s with operations := s.operations.erase operation }

/-- An operation completes, and its handler is queued. -/
def Session.finish (s : Session) (kind : Kind) (c : Completion) : Session :=
  { s with operations := { kind := kind, done := some c } :: s.operations.erase { kind := kind } }

/-- Post a task to the strand. -/
def Session.post (s : Session) (task : Task) : Session :=
  { s with tasks := s.tasks ++ [task] }

/-! ### Stopping -/

/-- An operation after its socket was cancelled. -/
def Operation.cancelled (operation : Operation) : Operation :=
  if operation.done = none then
    { operation with done := some (.error .operationAborted false) }
  else
    operation

/-- `get_lowest_layer(hs).cancel()`. -/
def cancel (s : Session) : Session :=
  { s with operations := s.operations.map Operation.cancelled }

/-- `on_stop`. -/
def onStop (s : Session) : Session :=
  let s := { s with stopRan := true }
  if s.lingering || s.waiting && !s.gotSome then cancel s else s

/-- `SessionRegistry::add`, called by run(). -/
def add (s : Session) : Session :=
  if s.stopping then
    { s with launch := .refused }
  else
    { s with registered := true, launch := .added }

/-- `SessionRegistry::stopAll`, up to the calls of stop(). -/
def stopAll (s : Session) : Session :=
  { s with
    stopping := true
    stoppers := if s.registered then s.stoppers + 1 else s.stoppers }

/-- `stop`. -/
def stop (s : Session) : Session :=
  s.post .stop

/-! ### The end of the connection -/

/-- `read_linger`. -/
def readLinger (s : Session) : Session :=
  s.start .linger

/-- `do_linger`. -/
def doLinger (s : Session) : Session :=
  readLinger { s with lingering := true }

/-- `do_eof`. -/
def doEof (s : Session) : Session :=
  match s.stream with
  | .tls => if s.linger then doLinger s else s.start .shutdown
  | .plain => if s.linger then doLinger s else s

/-- `on_linger`. -/
def onLinger (s : Session) : Completion → Session
  | .success _ => readLinger s
  | _ => s

/-! ### Writing -/

/-- `do_write`. -/
def doWrite (s : Session) : Session :=
  if s.responseQueue.isEmpty then s else s.post .write

/-- `queue_write`. -/
def queueWrite (s : Session) (response : HttpResponse) : Session :=
  let s := { s with responseQueue := s.responseQueue ++ [response] }
  if s.responseQueue.length = 1 then doWrite s else s

/-- What do_write() posts. -/
def runWrite (s : Session) : Session :=
  match s.responseQueue with
  | [] => s
  | response :: rest => { s with responseQueue := rest }.start (.write response)

/-- `http::obsolete_reason`, for the statuses of `errorStatus`. -/
def obsoleteReason (status : ℕ) : Text :=
  if status = 413 then "Payload Too Large".toList
  else if status = 414 then "URI Too Long".toList
  else if status = 431 then "Request Header Fields Too Large".toList
  else if status = 400 then "Bad Request".toList
  else "<unknown-status>".toList

/-- The response of send_error(). -/
def errorResponse (beast : Beast) (status : ℕ) : HttpResponse :=
  let res : HttpResponse :=
    { status
      fields := set [] "Content-Type".toList "text/plain".toList
      body := obsoleteReason status }
  ((res.setKeepAlive beast false).preparePayload beast).2

/-- `send_error`. -/
def sendError (beast : Beast) (s : Session) (status : ℕ) : Session :=
  queueWrite { s with linger := true } (errorResponse beast status)

/-! ### Reading -/

/-- `do_read`. What the buffer holds is parsed at once. -/
def doRead (s : Session) : Session :=
  { s with waiting := true, parser := some { gotSome := s.buffered } }.start .header

/-- `error_status`. -/
def errorStatus (ec : ErrorCode) (targetEmpty : Bool) : Option ℕ :=
  if ec = .bodyLimit then
    some 413
  else if ec = .headerLimit then
    some (if targetEmpty then 414 else 431)
  else if ec.isHttp ∧ ec ≠ .partialMessage ∧ ec ≠ .needMore then
    some 400
  else
    none

/-- The response to a request, after route(). -/
def answer (beast : Beast) (s : Session) (response : HttpResponse) : HttpResponse :=
  -- tell the client this connection ends after the response
  if s.stopping then response.setKeepAlive beast false else response

/-- `on_read`. -/
def onRead (beast : Beast) (s : Session) (c : Completion) : Session :=
  let s := { s with waiting := false }
  match c with
  | .error .endOfStream _ => doEof s
  | .error ec targetEmpty =>
    match errorStatus ec targetEmpty with
    | some status => sendError beast s status
    | none => s
  | .success found =>
    let s := { s with buffered := found.left }
    -- an upgrade goes on in a WebSocket session of its own
    if found.isUpgrade then
      s
    else
      match found.routed with
      | (.returned, response) => queueWrite s (answer beast s response)
      -- the exception leaves the handler
      | (.threw, _) => s
  | .part _ => s

/-- `read_body`. -/
def readBody (s : Session) : Session :=
  s.start .body

/-- The field `Expect` is `100-continue`. -/
def expectsContinue (req : Request) : Bool :=
  Text.iequals ((find req.fields "Expect".toList).getD []) "100-continue".toList

/-- `on_read_header`. -/
def onReadHeader (beast : Beast) (s : Session) (c : Completion) : Session :=
  match c with
  | .success found =>
    let s := { s with parser := some { gotSome := true }, buffered := found.left }
    if 11 ≤ found.request.version ∧ expectsContinue found.request then s.start .continueWrite
    else readBody s
  | _ => onRead beast s c

/-- The handler of the write of the 100 Continue. -/
def onContinue (s : Session) : Completion → Session
  | .success _ => readBody s
  | _ => s

/-- `on_write`. -/
def onWrite (s : Session) (keepAlive : Bool) (c : Completion) : Session :=
  match c with
  | .success _ =>
    if s.responseQueue.isEmpty then
      -- while stopping, no new request on this connection
      if keepAlive && !s.stopping then doRead s else doEof s
    else
      doWrite s
  | _ => doEof s

/-! ### The beginning of the connection -/

/-- `on_run`. -/
def onRun (s : Session) : Session :=
  let s := { s with waiting := true }
  match s.stream with
  | .plain => s.start .detect
  | .tls => s.start .handshake

/-- `on_ssl_session`. -/
def onSslSession (s : Session) : Session :=
  { s with stream := .tls, waiting := true }.start .handshake

/-- `on_detect`. Detection reads at least one byte into the buffer before it succeeds. -/
def onDetect (cfg : Config) (s : Session) (c : Completion) : Session :=
  let s := { s with waiting := false }
  match c with
  | .success found =>
    let s := { s with buffered := true }
    if found.tls then
      if cfg.withSsl then onSslSession s else s
    else
      if cfg.withPlain then doRead s else s
  | _ => s

/-- `on_handshake`. -/
def onHandshake (s : Session) (c : Completion) : Session :=
  let s := { s with waiting := false }
  match c with
  | .success found => doRead { s with buffered := found.left }
  | _ => s

/-! ### The machine -/

/-- An operation goes on. What the header read got is in the parser. -/
def goOn (s : Session) (kind : Kind) (bytes : Bool) : Session :=
  if kind = .header ∧ bytes then
    { s with parser := some { gotSome := true } }.start kind
  else
    s.start kind

/-- The handler of an operation. -/
def handle (cfg : Config) (s : Session) (kind : Kind) (c : Completion) : Session :=
  match c with
  | .part bytes => goOn s kind bytes
  | c =>
    match kind with
    | .detect => onDetect cfg s c
    | .handshake => onHandshake s c
    | .header => onReadHeader cfg.beast s c
    | .continueWrite => onContinue s c
    | .body => onRead cfg.beast s c
    | .write response => onWrite s (response.keepAlive cfg.beast) c
    | .linger => onLinger s c
    | .shutdown => s

/-- Run a task. -/
def runTask (s : Session) : Task → Session
  | .run => onRun s
  | .stop => onStop s
  | .write => runWrite s

/-- What happens next. -/
inductive Action
  /-- run() calls add(). -/
  | run
  /-- run() dispatches on_run(). -/
  | dispatch
  /-- A thread calls stopAll(). -/
  | stopAll
  /-- A call of stopAll() calls the session's stop(). -/
  | stop
  /-- The strand runs the next task. -/
  | task
  /-- An outstanding operation completes. -/
  | complete (kind : Kind) (c : Completion)
  /-- The strand runs the handler of a completed operation. -/
  | handle (kind : Kind) (c : Completion)
  deriving DecidableEq, Repr

/-- One step of a session. -/
def step (cfg : Config) (s : Session) : Action → Option Session
  | .run => if s.launch = .created then some (add s) else none
  | .dispatch =>
    if s.launch = .added then some ({ s with launch := .launched }.post .run) else none
  | .stopAll => some (stopAll s)
  | .stop => if 0 < s.stoppers then some (stop { s with stoppers := s.stoppers - 1 }) else none
  | .task =>
    match s.tasks with
    | [] => none
    | task :: tasks => some (runTask { s with tasks := tasks } task)
  | .complete kind c =>
    if { kind := kind } ∈ s.operations then some (s.finish kind c) else none
  | .handle kind c =>
    if { kind := kind, done := some c } ∈ s.operations then
      some (handle cfg (s.without { kind := kind, done := some c }) kind c)
    else
      none

/-- The runs of a session. -/
def machine (cfg : Config) : Machine Session Action where
  Init s := s = { stream := if cfg.withPlain then .plain else .tls }
  step := step cfg

/-- The steps of a session, with what each of them needs. -/
inductive Stepped (cfg : Config) (s : Session) : Action → Session → Prop
  | run (hlaunch : s.launch = .created) : Stepped cfg s .run (add s)
  | dispatch (hlaunch : s.launch = .added) :
    Stepped cfg s .dispatch ({ s with launch := .launched }.post .run)
  | stopAll : Stepped cfg s .stopAll (stopAll s)
  | stop (hstoppers : 0 < s.stoppers) :
    Stepped cfg s .stop (stop { s with stoppers := s.stoppers - 1 })
  | task (task : Task) (tasks : List Task) (ht : s.tasks = task :: tasks) :
    Stepped cfg s .task (runTask { s with tasks := tasks } task)
  | complete (kind : Kind) (c : Completion) (hmem : { kind := kind } ∈ s.operations) :
    Stepped cfg s (.complete kind c) (s.finish kind c)
  | handle (kind : Kind) (c : Completion)
    (hmem : { kind := kind, done := some c } ∈ s.operations) :
    Stepped cfg s (.handle kind c) (handle cfg (s.without { kind := kind, done := some c }) kind c)

/-- Every step is one of those in `Stepped`. -/
theorem stepped_of_step {cfg : Config} {s t : Session} {action : Action}
    (h : step cfg s action = some t) : Stepped cfg s action t := by
  cases action with
  | run =>
    obtain ⟨hlaunch, h⟩ := Option.ite_none_right_eq_some.1 h
    exact Option.some.inj h ▸ .run hlaunch
  | dispatch =>
    obtain ⟨hlaunch, h⟩ := Option.ite_none_right_eq_some.1 h
    exact Option.some.inj h ▸ .dispatch hlaunch
  | stopAll => exact Option.some.inj h ▸ .stopAll
  | stop =>
    obtain ⟨hstoppers, h⟩ := Option.ite_none_right_eq_some.1 h
    exact Option.some.inj h ▸ .stop hstoppers
  | task =>
    rw [step] at h
    split at h
    · exact absurd h.symm (Option.some_ne_none t)
    · next ht => exact Option.some.inj h ▸ .task _ _ ht
  | complete kind c =>
    obtain ⟨hmem, h⟩ := Option.ite_none_right_eq_some.1 h
    exact Option.some.inj h ▸ .complete kind c hmem
  | handle kind c =>
    obtain ⟨hmem, h⟩ := Option.ite_none_right_eq_some.1 h
    exact Option.some.inj h ▸ .handle kind c hmem

end CppGate.HttpSession
