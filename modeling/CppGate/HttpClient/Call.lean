import CppGate.Foundations.Machine
import CppGate.Foundations.Words
import CppGate.Http.Message
import Mathlib.Tactic.Simps.Basic

/-!
# One call of the HTTP client

`CallState` of `HttpClient.cpp`: the chain of asynchronous steps that carries a request from send()
to its result, with the retry on a new connection, the aborts and the progress reports. Everything
runs on the call's strand, so the completion of a step is one step of this machine.

What a step completes with — a new connection, a parsed header, an error — is carried by the label.
Connections `κ` and responses `ρ` are therefore whatever the environment makes them: here a
connection is only held, given back to the client, or dropped, and a response only delivered.

A callback runs where it is delivered and reaches the call only through posted aborts, which are
labels of their own.
-/

namespace CppGate.HttpClient

open Http

universe u v

/-- A reading of the steady clock, in nanoseconds. -/
abbrev Time := ℤ

/-! ### Errors and results -/

/-- `client_error`, as far as calls end with it. -/
inductive ClientError
  | timeout
  | cancelled
  | responseTooLarge
  | invalidUrl
  | unsupportedScheme
  | closed
  deriving DecidableEq, Repr

/-- `boost::system::error_code`: the client's own errors, those that fail() distinguishes, and the
others. -/
inductive ErrorCode
  | client (error : ClientError)
  /-- `http::error::body_limit`. -/
  | bodyLimit
  /-- `http::error::buffer_overflow`. -/
  | bufferOverflow
  /-- `beast::error::timeout`. -/
  | timeout
  | other (value : ℕ)
  deriving DecidableEq, Repr

/-- `HttpClient::Result`. -/
inductive Result (ρ : Type v)
  | error (code : ErrorCode)
  | response (response : ρ)
  deriving DecidableEq, Repr

/-- `Progress::Direction`. -/
inductive Direction
  | upload
  | download
  deriving DecidableEq, Repr

/-- `HttpClient::Progress`. -/
structure Progress where
  direction : Direction
  transferred : ℕ
  total : Option ℕ
  deriving DecidableEq, Repr

/-- `idempotent`. -/
def idempotent : Verb → Bool
  | .get | .head | .options | .put | .delete | .trace => true
  | _ => false

/-! ### The call -/

/-- What is outstanding for a call: an asynchronous step, or the dispatch with which send() started
it, on an open or a closed client. -/
inductive Op
  | start
  | refuse
  | resolve
  | connect
  | handshake
  | writeHeader
  | writeBody
  | readHeader
  | readBody
  deriving DecidableEq, Repr

/-- An asynchronous step: resolve, connect, handshake, write or read. -/
def Op.isStep : Op → Bool
  | .start | .refuse => false
  | _ => true

/-- What the parser knows of a message once its header is complete. -/
structure Message (ρ : Type v) where
  response : ρ
  /-- `keep_alive()` of the message. -/
  keepAlive : Bool
  contentLength : Option ℕ
  /-- The size of the body so far. -/
  bodySize : ℕ
  isDone : Bool
  deriving DecidableEq, Repr

/-- `response_parser`. -/
inductive Parser (ρ : Type v)
  /-- Just made. -/
  | fresh
  /-- It got some of a header. -/
  | started
  | message (message : Message ρ)
  deriving DecidableEq, Repr

/-- `got_some`. -/
def Parser.gotSome {ρ : Type v} : Parser ρ → Bool
  | .fresh => false
  | _ => true

/-- `detail::Target`, as far as the call uses it after the request is built. -/
structure Target where
  key : Text
  tls : Bool
  deriving DecidableEq, Repr

/-- `CallState`. -/
structure Call (κ : Type u) (ρ : Type v) where
  method : Verb
  /-- The size of the request's body. -/
  bodySize : ℕ
  /-- The callbacks that are set. -/
  onProgress : Bool := false
  onComplete : Bool := true
  target : Target := ⟨[], false⟩
  parser : Option (Parser ρ) := none
  conn : Option κ := none
  reused : Bool := false
  retried : Bool := false
  finished : Bool := false
  aborted : Option ClientError := none
  upDone : ℕ := 0
  downDone : ℕ := 0
  downTotal : Option ℕ := none
  reportedBytes : ℕ := 0
  reportedAt : Time := 0
  /-- begin() has run, or finish() in its place. -/
  begun : Bool := false
  /-- What is outstanding. -/
  pending : List Op := [.start]
  /-- The connection given to putIdle(). -/
  released : Option κ := none
  /-- What the promise was set to, each time. -/
  promise : List (Result ρ) := []
  /-- What onComplete was called with, each time. -/
  completed : List (Result ρ) := []
  /-- What onProgress was called with, each time. -/
  progressed : List Progress := []
  deriving DecidableEq, Repr

variable {κ : Type u} {ρ : Type v}

namespace Call

/-- Start an asynchronous step. -/
@[simps] def await (s : Call κ ρ) (op : Op) : Call κ ρ :=
  { s with pending := s.pending ++ [op] }

/-- A step completes, its handler runs. -/
@[simps] def complete (s : Call κ ρ) (op : Op) : Call κ ρ :=
  { s with pending := s.pending.erase op }

/-! ### Ending -/

/-- `finish`. -/
def finish (s : Call κ ρ) (result : Result ρ) : Call κ ρ :=
  if s.finished then
    s
  else
    { s with
      finished := true
      conn := none
      promise := s.promise ++ [result]
      completed := if s.onComplete then s.completed ++ [result] else s.completed
      onComplete := false
      onProgress := false }

/-- `abort`: the pending step completes with an error, handled where it lands. -/
def abort (s : Call κ ρ) (why : ClientError) : Call κ ρ :=
  if s.finished || s.aborted.isSome then s else { s with aborted := some why }

/-- `resolve`. -/
def resolve (s : Call κ ρ) : Call κ ρ :=
  s.await .resolve

/-- Whether fail() tries again: a kept-alive connection the server closed in the meantime. -/
def retries (s : Call κ ρ) (duringWrite : Bool) : Bool :=
  let nothingReceived := !(s.parser.any Parser.gotSome)
  s.reused && !s.retried && nothingReceived && (idempotent s.method || duringWrite)

/-- `fail`. -/
def fail (s : Call κ ρ) (ec : ErrorCode) (duringWrite : Bool) : Call κ ρ :=
  match s.aborted with
  | some why => s.finish (.error (.client why))
  | none =>
    if ec = .bodyLimit ∨ ec = .bufferOverflow then
      s.finish (.error (.client .responseTooLarge))
    else if ec = .timeout then
      s.finish (.error (.client .timeout))
    else if s.retries duringWrite then
      resolve { s with
        retried := true
        reused := false
        conn := none
        upDone := 0
        reportedBytes := 0
        parser := none }
    else
      s.finish (.error ec)

/-- `progress`, with the clock it reads. -/
def progress (s : Call κ ρ) (direction : Direction) (done : ℕ) (total : Option ℕ) (last : Bool)
    (now : Time) : Call κ ρ :=
  if !s.onProgress then
    s
  else if !last && decide (Word.sub 64 done s.reportedBytes < 64 * 1024) &&
      decide (now - s.reportedAt < 100 * 1000000) then
    s
  else
    { s with
      reportedBytes := done
      reportedAt := now
      progressed := s.progressed ++ [⟨direction, done, total⟩] }

/-- The call gets an error, or is tried again on a new connection. -/
theorem fail_eq (s : Call κ ρ) (ec : ErrorCode) (duringWrite : Bool) :
    (∃ error, s.fail ec duringWrite = s.finish (.error error)) ∨
      s.aborted = none ∧ ec ∉ [.bodyLimit, .bufferOverflow, .timeout] ∧
        s.retries duringWrite = true ∧ s.fail ec duringWrite = resolve { s with
          retried := true
          reused := false
          conn := none
          upDone := 0
          reportedBytes := 0
          parser := none } := by
  rw [fail]
  rcases haborted : s.aborted with _ | why
  · dsimp only
    split_ifs with hlimit htimeout hretries
    · exact Or.inl ⟨_, rfl⟩
    · exact Or.inl ⟨_, rfl⟩
    · refine Or.inr ⟨rfl, fun hmem ↦ ?_, hretries, rfl⟩
      simp only [List.mem_cons, List.not_mem_nil, or_false] at hmem
      tauto
    · exact Or.inl ⟨_, rfl⟩
  · exact Or.inl ⟨_, rfl⟩

/-- A progress report touches nothing but itself. -/
theorem progress_eq (s : Call κ ρ) (direction : Direction) (done : ℕ) (total : Option ℕ)
    (last : Bool) (now : Time) : ∃ reportedBytes reportedAt progressed,
      s.progress direction done total last now =
        { s with reportedBytes, reportedAt, progressed } := by
  rw [progress]
  split_ifs
  · exact ⟨_, _, _, rfl⟩
  · exact ⟨_, _, _, rfl⟩
  · exact ⟨_, _, _, rfl⟩

/-! ### The response -/

/-- `succeed`. -/
def succeed (s : Call κ ρ) (message : Message ρ) : Call κ ρ :=
  let keepAlive := message.keepAlive && s.aborted.isNone
  let s := if keepAlive then { s with released := s.conn, conn := none } else s
  s.finish (.response message.response)

/-- `readBody`, with the message parsed so far. -/
def readBody (s : Call κ ρ) (message : Message ρ) (now : Time) : Call κ ρ :=
  if message.isDone then
    let s := { s with downDone := message.bodySize }
    let total := some (s.downTotal.getD s.downDone)
    (s.progress .download s.downDone total true now).succeed message
  else
    s.await .readBody

/-- `readHeader`. -/
def readHeader (s : Call κ ρ) : Call κ ρ :=
  await { s with reportedBytes := 0, parser := some .fresh } .readHeader

/-- After the header was read. -/
def onHeader (s : Call κ ρ) (message : Message ρ) (now : Time) : Call κ ρ :=
  -- a HEAD response announces the size of a body it doesn't send
  let downTotal :=
    if message.contentLength.isSome && s.method != .head then message.contentLength
    else s.downTotal
  readBody { s with parser := some (.message message), downTotal } message now

/-- After some of the body was read. -/
def onBody (s : Call κ ρ) (message : Message ρ) (now : Time) : Call κ ρ :=
  let s := { s with parser := some (.message message), downDone := message.bodySize }
  (s.progress .download s.downDone s.downTotal false now).readBody message now

/-! ### The request -/

/-- `writeHeader`. -/
def writeHeader (s : Call κ ρ) : Call κ ρ :=
  s.await .writeHeader

/-- `writeBody`, once it is known whether the serializer is done. -/
def writeBody (s : Call κ ρ) (isDone : Bool) (now : Time) : Call κ ρ :=
  if isDone then
    readHeader (if s.bodySize ≠ 0 then
      s.progress .upload s.upDone (some s.bodySize) true now else s)
  else
    s.await .writeBody

/-- After `n` bytes of the body were written. -/
def onWritten (s : Call κ ρ) (n : ℕ) (isDone : Bool) (now : Time) : Call κ ρ :=
  let s := { s with upDone := s.upDone + n }
  -- the serializer may finish with an empty write: only a body has upload progress
  let s := if s.bodySize ≠ 0 then s.progress .upload s.upDone (some s.bodySize) false now else s
  s.writeBody isDone now

/-! ### The connection -/

/-- `onConnect`; `sni` is whether the host name could be set. -/
def onConnect (s : Call κ ρ) (sni : Except ErrorCode Unit) : Call κ ρ :=
  if !s.target.tls then
    s.writeHeader
  else
    match sni with
    | .error code => s.finish (.error code)
    | .ok _ => s.await .handshake

/-- `onResolve`, with the new connection. -/
def onResolve (s : Call κ ρ) (conn : κ) : Call κ ρ :=
  match s.aborted with
  | some why => s.finish (.error (.client why))
  | none => await { s with conn := some conn } .connect

/-- `connect`, with what takeIdle() found. -/
def connect (s : Call κ ρ) (idle : Option κ) : Call κ ρ :=
  match idle with
  | some conn => writeHeader { s with conn := some conn, reused := true }
  | none => s.resolve

/-- `begin`, with what parseUrl() made of the URL. -/
def begin (s : Call κ ρ) (target : Except ErrorCode Target) (idle : Option κ) : Call κ ρ :=
  match target with
  | .error code => s.finish (.error code)
  | .ok target => connect { s with target } idle

end Call

/-! ### The machine -/

/-- What happens to a call: a step completes, or the call is aborted. -/
inductive Event (κ : Type u) (ρ : Type v)
  | begin (target : Except ErrorCode Target) (idle : Option κ)
  | refuse
  | resolved (result : Except ErrorCode κ)
  | connected (result : Except ErrorCode (Except ErrorCode Unit))
  | handshaken (result : Except ErrorCode Unit)
  | headerWritten (result : Except ErrorCode Bool) (now : Time)
  | bodyWritten (result : Except ErrorCode (ℕ × Bool)) (now : Time)
  /-- With an error comes how far the parser got. -/
  | headerRead (result : Except (ErrorCode × Parser ρ) (Message ρ)) (now : Time)
  | bodyRead (result : Except ErrorCode (Message ρ)) (now : Time)
  /-- The deadline, Call::cancel() or ~HttpClient. -/
  | abort (why : ClientError)

/-- What an event completes. -/
def Event.op : Event κ ρ → Option Op
  | .begin .. => some .start
  | .refuse => some .refuse
  | .resolved _ => some .resolve
  | .connected _ => some .connect
  | .handshaken _ => some .handshake
  | .headerWritten .. => some .writeHeader
  | .bodyWritten .. => some .writeBody
  | .headerRead .. => some .readHeader
  | .bodyRead .. => some .readBody
  | .abort _ => none

namespace Call

/-- The handler of an event. -/
def handle (s : Call κ ρ) : Event κ ρ → Call κ ρ
  | .begin target idle => Call.begin { s with begun := true } target idle
  | .refuse => finish { s with begun := true } (.error (.client .closed))
  | .resolved (.error ec) => s.fail ec false
  | .resolved (.ok conn) => s.onResolve conn
  | .connected (.error ec) => s.fail ec false
  | .connected (.ok sni) => s.onConnect sni
  | .handshaken (.error ec) => s.fail ec false
  | .handshaken (.ok _) => s.writeHeader
  | .headerWritten (.error ec) _ => s.fail ec true
  | .headerWritten (.ok isDone) now => s.writeBody isDone now
  | .bodyWritten (.error ec) _ => s.fail ec true
  | .bodyWritten (.ok (n, isDone)) now => s.onWritten n isDone now
  | .headerRead (.error (ec, parser)) _ => fail { s with parser := some parser } ec false
  | .headerRead (.ok message) now => s.onHeader message now
  | .bodyRead (.error ec) _ => s.fail ec false
  | .bodyRead (.ok message) now => s.onBody message now
  | .abort why => s.abort why

/-- begin() throws for a TRACE request with a body, on a thread of the client: the process ends.
Here that is no step; `Hosted` has the call that is left behind. -/
def throws (s : Call κ ρ) : Event κ ρ → Bool
  | .begin (.ok _) _ => s.method == .trace && s.bodySize != 0
  | _ => false

/-- One event of a call. -/
def step (s : Call κ ρ) (e : Event κ ρ) : Option (Call κ ρ) :=
  if s.throws e then
    none
  else
    match e.op with
    | none => some (s.handle e)
    | some op => if op ∈ s.pending then some ((s.complete op).handle e) else none

/-- A completion runs the handler of what was outstanding. -/
theorem handle_of_step {s t : Call κ ρ} {e : Event κ ρ} {op : Op} (hop : e.op = some op)
    (h : s.step e = some t) : op ∈ s.pending ∧ t = (s.complete op).handle e := by
  rw [step, hop] at h
  split at h
  · exact absurd h.symm (Option.some_ne_none t)
  · dsimp only at h
    split at h
    · next hmem => exact ⟨hmem, (Option.some.inj h).symm⟩
    · exact absurd h.symm (Option.some_ne_none t)

/-- What send() makes of a request, on an open or a closed client. -/
def IsNew (onComplete : Bool) (s : Call κ ρ) : Prop :=
  ∃ (method : Verb) (bodySize : ℕ) (onProgress closed : Bool),
    s = { method, bodySize, onProgress, onComplete,
          pending := [if closed then .refuse else .start] }

/-- A call with or without an onComplete callback, from send() on. -/
def machine (κ : Type u) (ρ : Type v) (onComplete : Bool) : Machine (Call κ ρ) (Event κ ρ) where
  Init := IsNew onComplete
  step := step

end Call

end CppGate.HttpClient
