import CppGate.HttpClient.Call
import Mathlib.Logic.Function.Basic

/-!
# The HTTP client, its connections and the servers behind them

`ClientImpl` of `HttpClient.cpp` with any number of calls, the store of idle connections they share,
and servers that answer.

A `Connection` is owned by whoever holds its `unique_ptr`: one call, or the store. What the server
has sent and nobody has read yet is its `wire`: headers, each followed by the pieces of its body. A
call reads into a buffer of its own, which ends with the call; since it only ever holds what was
read from the call's present connection, the two are kept together (`Link`). Every response is
marked with the call whose request it answers.

Servers conform to HTTP/1.1: on each connection they answer the requests in the order they arrived,
each with any number of interim responses and one final response of the announced length.
-/

namespace CppGate.HttpClient

open Http

/-! ### Connections -/

/-- A response, as the server sends it. -/
structure Response where
  /-- The call whose request it answers. -/
  call : ℕ
  status : ℕ
  /-- Its version and Connection field keep the connection open. -/
  keepAlive : Bool
  /-- How many pieces its body is announced to have; without a length it ends with the connection.
  -/
  length : Option ℕ
  deriving DecidableEq, Repr

/-- A 1xx response. -/
def Response.interim (r : Response) : Bool :=
  decide (100 ≤ r.status ∧ r.status < 200)

/-- A response that ends with its header: to a HEAD request, or 1xx, 204 or 304. -/
def Response.headerOnly (method : Verb) (r : Response) : Bool :=
  method == .head || bodyless r.status

/-- What a server writes. -/
inductive Piece
  | header (response : Response)
  | body
  deriving DecidableEq, Repr

/-- A request that arrived at a server. -/
structure Asked where
  call : ℕ
  method : Verb
  deriving DecidableEq, Repr

/-- `Connection`, with what happens at its other end. -/
structure Connection where
  key : Text
  /-- The requests that arrived and have no final response yet, oldest first. -/
  unanswered : List Asked := []
  /-- Sent by the server and not read. -/
  wire : List Piece := []
  /-- The server closed its side. -/
  closed : Bool := false
  deriving DecidableEq, Repr

/-- A call's connection and its buffer. -/
structure Link where
  connection : Connection
  buffer : List Piece := []
  deriving DecidableEq, Repr

namespace Link

/-- A request arrives at the server. -/
def ask (link : Link) (asked : Asked) : Link :=
  { link with connection.unanswered := link.connection.unanswered ++ [asked] }

/-- What has arrived once `k` more pieces have. -/
def arrived (link : Link) (k : ℕ) : List Piece :=
  link.buffer ++ link.connection.wire.take k

/-- Leave `buffer` of what has arrived once `k` more pieces have. -/
def keep (link : Link) (k : ℕ) (buffer : List Piece) : Link :=
  { link with connection.wire := link.connection.wire.drop k, buffer }

/-- `async_read_header`: the parser takes the header that has arrived first. -/
def readHeader (link : Link) (method : Verb) (k : ℕ) : Option (Message Response × Link) :=
  match link.arrived k with
  | .header r :: rest =>
    let message : Message Response :=
      { response := r
        keepAlive := r.keepAlive
        contentLength := r.length
        bodySize := 0
        isDone := r.headerOnly method || r.length == some 0 }
    some (message, link.keep k rest)
  | _ => none

/-- `async_read_some`: the parser takes `j` pieces of the body, or sees the end of the connection.
-/
def readBody (link : Link) (message : Message Response) (k j : ℕ) (eof : Bool) :
    Option (Message Response × Link) :=
  if (link.arrived k).length < j then
    none
  else
    let rest := (link.arrived k).drop j
    let bodySize := message.bodySize + j
    match message.response.length with
    | some n =>
      if n < bodySize || eof then
        none
      else
        some ({ message with bodySize, isDone := bodySize == n }, link.keep k rest)
    | none =>
      -- the body ends with the connection
      if eof && !(link.connection.closed && (link.connection.wire.drop k).isEmpty && rest.isEmpty)
      then
        none
      else
        some ({ message with bodySize, isDone := eof }, link.keep k rest)

end Link

/-! ### Idle connections -/

/-- The options that the store uses. -/
structure Options where
  maxIdlePerHost : ℕ := 8
  /-- In milliseconds. -/
  idleTimeout : ℤ := 30000
  deriving DecidableEq, Repr

/-- `idle_timeout` as takeIdle() compares with it: in the nanoseconds of the clock, in 64 bits. (The
other side is the difference of two readings of the clock, and representable.) -/
def Options.idleNanos (options : Options) : Time :=
  Word.signed 64 (options.idleTimeout * 1000000)

/-- A connection in the store. -/
structure Idle where
  connection : Connection
  idleSince : Time
  deriving DecidableEq, Repr

/-- The loop of takeIdle() over the connections of a key, the vector's back first; those that
expired are closed. -/
def takeIdle (options : Options) (now : Time) : List Idle → Option Connection × List Idle
  | [] => (none, [])
  | idle :: rest =>
    if now - idle.idleSince < options.idleNanos then
      (some idle.connection, rest)
    else
      takeIdle options now rest

/-! ### The client -/

/-- A call over real connections. -/
abbrev ClientCall := Call Link Response

/-- `ClientImpl`, and the calls made with it. -/
structure Client where
  calls : List ClientCall := []
  /-- The idle connections of each key. -/
  idle : Text → List Idle := fun _ ↦ []
  closed : Bool := false

namespace Client

/-- `putIdle`; the call's buffer is not part of the connection. -/
def putIdle (options : Options) (s : Client) (connection : Connection) (now : Time) : Client :=
  if s.closed || decide (options.maxIdlePerHost ≤ (s.idle connection.key).length) then
    s
  else
    let list := ⟨connection, now⟩ :: s.idle connection.key
    { s with idle := Function.update s.idle connection.key list }

/-- Call `i`, which is at `call`, goes on with an event. -/
def advance (options : Options) (s : Client) (i : ℕ) (call : ClientCall)
    (e : Event Link Response) (now : Time) : Option Client :=
  (call.step e).map fun call ↦
    let s := { s with calls := s.calls.set i { call with released := none } }
    match call.released with
    | some link => s.putIdle options link.connection now
    | none => s

/-- The completion of what a call waits for. -/
inductive Completion
  | begin (target : Except ErrorCode Target)
  | refuse
  | resolved (result : Except ErrorCode Unit)
  | connected (result : Except ErrorCode (Except ErrorCode Unit))
  | handshaken (result : Except ErrorCode Unit)
  | headerWritten (result : Except ErrorCode Bool)
  | bodyWritten (result : Except ErrorCode (ℕ × Bool))
  /-- The header is complete once this many pieces more have arrived. -/
  | headerRead (result : Except (ErrorCode × Parser Response) ℕ)
  /-- This many pieces more have arrived, and so many were parsed; or the connection ended. -/
  | bodyRead (result : Except ErrorCode (ℕ × ℕ × Bool))
  | abort (why : ClientError)

/-- A completion of call `i`, which is at `call`, at time `now`. -/
def complete (options : Options) (s : Client) (i : ℕ) (call : ClientCall) (now : Time) :
    Completion → Option Client
  | .begin (.error ec) => s.advance options i call (.begin (.error ec) none) now
  | .begin (.ok target) =>
    let (found, rest) := takeIdle options now (s.idle target.key)
    advance options { s with idle := Function.update s.idle target.key rest } i call
      (.begin (.ok target) (found.map fun connection ↦ ⟨connection, []⟩)) now
  | .refuse => s.advance options i call .refuse now
  | .resolved (.error ec) => s.advance options i call (.resolved (.error ec)) now
  | .resolved (.ok _) =>
    s.advance options i call (.resolved (.ok ⟨{ key := call.target.key }, []⟩)) now
  | .connected result => s.advance options i call (.connected result) now
  | .handshaken result => s.advance options i call (.handshaken result) now
  | .headerWritten (.error ec) => s.advance options i call (.headerWritten (.error ec) now) now
  | .headerWritten (.ok isDone) =>
    -- the server can answer from here
    let conn := call.conn.map fun link ↦ link.ask ⟨i, call.method⟩
    s.advance options i { call with conn } (.headerWritten (.ok isDone) now) now
  | .bodyWritten result => s.advance options i call (.bodyWritten result now) now
  | .headerRead (.error failure) => s.advance options i call (.headerRead (.error failure) now) now
  | .headerRead (.ok k) =>
    match call.conn with
    | none => none
    | some link =>
      (link.readHeader call.method k).bind fun (message, link) ↦
        s.advance options i { call with conn := some link } (.headerRead (.ok message) now) now
  | .bodyRead (.error ec) => s.advance options i call (.bodyRead (.error ec) now) now
  | .bodyRead (.ok (k, j, eof)) =>
    match call.conn, call.parser with
    | some link, some (.message message) =>
      (link.readBody message k j eof).bind fun (message, link) ↦
        s.advance options i { call with conn := some link } (.bodyRead (.ok message) now) now
    | _, _ => none
  | .abort why => s.advance options i call (.abort why) now

end Client

/-! ### Servers -/

/-- Whether a body of `n` pieces is what the header announces. -/
def Response.fits (method : Verb) (r : Response) (n : ℕ) : Bool :=
  if r.headerOnly method then n == 0 else r.length.all (· == n)

/-- What a server does on a connection. -/
inductive Reply
  /-- An interim response to the oldest request. -/
  | interim (response : Response)
  /-- The final response to the oldest request, with its body. -/
  | final (response : Response) (n : ℕ)
  | hangUp
  deriving DecidableEq, Repr

/-- What a server's reply does to the connection, if it may reply so. -/
def Connection.serve (c : Connection) : Reply → Option Connection
  | .interim r =>
    match c.unanswered with
    | [] => none
    | asked :: _ =>
      if c.closed = false ∧ r.call = asked.call ∧ r.interim = true then
        some { c with wire := c.wire ++ [.header r] }
      else
        none
  | .final r n =>
    match c.unanswered with
    | [] => none
    | asked :: rest =>
      if c.closed = false ∧ r.call = asked.call ∧ r.interim = false ∧
          r.fits asked.method n = true then
        some { c with
          unanswered := rest
          wire := c.wire ++ .header r :: List.replicate n .body
          closed := !r.headerOnly asked.method && r.length.isNone }
      else
        none
  | .hangUp => some { c with closed := true }

/-! ### The machine -/

/-- A label: a call is made or goes on, the client is destroyed, or a server replies on the
connection of a call or on an idle one. -/
inductive Action
  | send (method : Verb) (bodySize : ℕ) (onProgress onComplete : Bool)
  | complete (i : ℕ) (now : Time) (completion : Client.Completion)
  | destroy
  | serveCall (i : ℕ) (reply : Reply)
  | serveIdle (key : Text) (j : ℕ) (reply : Reply)

/-- A server's interim response. -/
def Action.isInterim : Action → Bool
  | .serveCall _ (.interim _) | .serveIdle _ _ (.interim _) => true
  | _ => false

/-- One step of the client and its servers. -/
def Client.step (options : Options) (s : Client) : Action → Option Client
  | .send method bodySize onProgress onComplete =>
    let call : ClientCall :=
      { method, bodySize, onProgress, onComplete
        pending := [if s.closed then .refuse else .start] }
    some { s with calls := s.calls ++ [call] }
  | .complete i now completion =>
    (s.calls[i]?).bind fun call ↦ s.complete options i call now completion
  | .destroy => some { s with closed := true, idle := fun _ ↦ [] }
  | .serveCall i reply =>
    (s.calls[i]?).bind fun call ↦ call.conn.bind fun link ↦
      (link.connection.serve reply).map fun connection ↦
        { s with calls := s.calls.set i { call with conn := some { link with connection } } }
  | .serveIdle key j reply =>
    (s.idle key)[j]?.bind fun idle ↦ (idle.connection.serve reply).map fun connection ↦
      { s with idle := Function.update s.idle key ((s.idle key).set j { idle with connection }) }

/-- A client, from its construction on. -/
def clientMachine (options : Options) : Machine Client Action where
  Init s := s = {}
  step := Client.step options

end CppGate.HttpClient
