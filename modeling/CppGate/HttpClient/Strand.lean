import CppGate.HttpClient.Sharing

/-!
# The strand of a call

The handlers of a call run one at a time on its strand, those that were posted to it in the order
they were posted. send() posts begin(), or finish() where the client is closed; Call::cancel() and
~HttpClient post aborts; the deadline that begin() sets aborts the call itself.

send() registers the call before it posts begin(), so the abort of ~HttpClient may come first, but
then the store of idle connections has been emptied (`Shared.no_idle_of_closed`). There is no `Call`
to cancel before send() has returned.
-/

namespace CppGate.HttpClient

universe u v

variable {κ : Type u} {ρ : Type v}

/-! ### The machine -/

/-- A handler that was posted to the strand. -/
inductive Posted
  /-- begin(), or finish() in its place. -/
  | begin
  | abort (why : ClientError)
  deriving DecidableEq, Repr

/-- A call on its strand. -/
structure Strand (κ : Type u) (ρ : Type v) where
  sending : Sending κ ρ
  /-- What was posted and has not run, the oldest first. -/
  posted : List Posted := []
  /-- send() has posted begin(). -/
  dispatched : Bool := false
  /-- The client is closed. -/
  closed : Bool
  /-- ~HttpClient found the call in flight, and its abort is not posted yet. -/
  inFlight : Bool := false

/-- What happens on the strand, or is posted to it. -/
inductive Act (κ : Type u) (ρ : Type v)
  /-- The end of send(). -/
  | dispatch
  /-- `Call::cancel`. -/
  | cancel
  /-- ~HttpClient closes the client and looks which calls are in flight. -/
  | close
  /-- ~HttpClient posts its abort. -/
  | evict
  /-- A handler runs; a write that it completes has handed over `n` octets. -/
  | handle (e : Event κ ρ) (n : ℕ)

/-- The handler of an event, where it is posted. -/
def Event.posted : Event κ ρ → Option Posted
  | .begin .. | .refuse => some .begin
  | .abort .timeout => none
  | .abort why => some (.abort why)
  | _ => none

namespace Strand

/-- Whether an event may happen. -/
def ready (x : Strand κ ρ) : Event κ ρ → Bool
  -- what parseUrl() rejects a URL with
  | .begin (.error ec) _ => ec == .client .invalidUrl || ec == .client .unsupportedScheme
  -- the store of a closed client is empty
  | .begin (.ok _) idle => !(idle.isSome && x.closed)
  -- begin() sets the deadline
  | .abort .timeout => x.sending.call.begun
  | .abort why => why == .cancelled || why == .closed
  | _ => true

/-- The handler of an event is about to run, the oldest one of those that were posted. -/
def take (x : Strand κ ρ) (e : Event κ ρ) : Option (Strand κ ρ) :=
  if x.ready e then
    match e.posted, x.posted with
    | none, _ => some x
    | some _, [] => none
    | some handler, first :: rest =>
      if first = handler then some { x with posted := rest } else none
  else
    none

/-- One step of the strand. -/
def step (x : Strand κ ρ) : Act κ ρ → Option (Strand κ ρ)
  | .dispatch =>
    if x.dispatched then none
    else some { x with dispatched := true, posted := x.posted ++ [.begin] }
  | .cancel =>
    if x.dispatched then some { x with posted := x.posted ++ [.abort .cancelled] } else none
  | .close => if x.closed then none else some { x with closed := true, inFlight := true }
  | .evict =>
    if x.inFlight then some { x with inFlight := false, posted := x.posted ++ [.abort .closed] }
    else none
  | .handle e n => (x.take e).bind fun x ↦ (x.sending.step (e, n)).map fun sending ↦
      { x with sending }

end Strand

/-- A call on its strand, from its registration in send() on. -/
def strandMachine (κ : Type u) (ρ : Type v) (onComplete : Bool) :
    Machine (Strand κ ρ) (Act κ ρ) where
  Init x := ∃ (sending : Sending κ ρ) (closed : Bool), sending.IsNew onComplete ∧
    sending.call.pending = [if closed then .refuse else .start] ∧ x = { sending, closed }
  step := Strand.step

/-- Once the client is closed, begin() finds no idle connection: the store is empty. -/
theorem Shared.no_idle_of_closed {options : Options} {s t : Shared ρ}
    (h : (sharedMachine ρ options).Reachable s) (hclosed : s.closed = true) {i : ℕ} {now : Time}
    {target : Except ErrorCode Target} {idle : Option Conn}
    (hstep : s.step options (.go i now (.begin target idle)) = some t) : idle = none := by
  have hempty := (inv_of_reachable h).closed hclosed
  rw [Shared.step] at hstep
  split at hstep
  · cases hstep
  obtain ⟨call, -, hstep⟩ := Option.bind_eq_some_iff.1 hstep
  obtain ⟨u, hbring, -⟩ := Option.bind_eq_some_iff.1 hstep
  obtain ⟨n, hbrings⟩ := brings_of_bring hbring
  rcases idle with _ | conn
  · rfl
  · obtain ⟨key, m, stored, -, hget, -⟩ := hbrings.pooled conn rfl
    have hnone : (s.idle key)[m]? = some stored := hget
    rw [hempty key] at hnone
    cases hnone

/-! ### Handlers -/

/-- Whether an operation uses the socket of the call's connection. -/
def Op.onSocket : Op → Bool
  | .start | .refuse | .resolve => false
  | _ => true

/-- A completion with an error. -/
def Event.fails : Event κ ρ → Bool
  | .resolved (.error _) | .connected (.error _) | .handshaken (.error _)
  | .headerWritten (.error _) _ | .bodyWritten (.error _) _ | .headerRead (.error _) _
  | .bodyRead (.error _) _ => true
  | _ => false

/-- The host name could not be set for TLS. -/
def Event.sniFails : Event κ ρ → Bool
  | .connected (.ok (.error _)) => true
  | _ => false

namespace Call

/-- A handler ends the call. -/
structure Over (s t : Call κ ρ) (result : Result ρ) : Prop where
  begun : t.begun = s.begun
  aborted : t.aborted = s.aborted
  pending : t.pending = s.pending
  finished : t.finished = true
  promise : t.promise = s.promise ++ [result]

/-- A handler starts the next operation. -/
structure On (s t : Call κ ρ) (op : Op) : Prop where
  begun : t.begun = s.begun
  aborted : t.aborted = s.aborted
  pending : t.pending = s.pending ++ [op]
  finished : t.finished = s.finished
  promise : t.promise = s.promise
  conn : t.conn.isSome = op.onSocket

/-- A handler ends the call with one of some results, or starts one of some operations. -/
inductive Leads (s t : Call κ ρ) (results : Result ρ → Prop) (ops : Op → Prop) : Prop
  | ended (result : Result ρ) (h : s.Over t result) (hresult : results result)
  | on (op : Op) (h : s.On t op) (hop : ops op)

variable {s t : Call κ ρ}

/-- Between two handlers the call has a connection where the outstanding operation uses one. -/
def Wired (s : Call κ ρ) : Prop :=
  ∀ op ∈ s.pending, s.conn.isSome = op.onSocket

theorem over_finish (hfinished : s.finished = false) (result : Result ρ) :
    s.Over (s.finish result) result := by
  rw [finish, if_neg (Bool.eq_false_iff.1 hfinished)]
  exact ⟨rfl, rfl, rfl, rfl, rfl⟩

theorem on_await {op : Op} (hconn : s.conn.isSome = op.onSocket) : s.On (s.await op) op :=
  ⟨rfl, rfl, rfl, rfl, rfl, hconn⟩

/-- The abort comes before every other error. -/
theorem leads_fail (hfinished : s.finished = false) (ec : ErrorCode) (duringWrite : Bool) :
    s.Leads (s.fail ec duringWrite)
      (fun result ↦ ∀ why, s.aborted = some why → result = .error (.client why))
      (fun op ↦ op = .resolve ∧ s.aborted = none) := by
  cases haborted : s.aborted with
  | some why =>
    have heq : s.fail ec duringWrite = s.finish (.error (.client why)) := by rw [fail, haborted]
    rw [heq]
    exact .ended _ (over_finish hfinished _) fun why' hwhy ↦ by rw [Option.some.inj hwhy]
  | none =>
    rcases s.fail_eq ec duringWrite with ⟨error, heq⟩ | ⟨-, -, -, heq⟩
    · rw [heq]
      exact .ended _ (over_finish hfinished _) fun why hwhy ↦
        absurd hwhy.symm (Option.some_ne_none why)
    · rw [heq]
      exact .on .resolve ⟨rfl, rfl, rfl, rfl, rfl, rfl⟩ ⟨rfl, rfl⟩

/-- After the lookup an aborted call ends, and another one connects. -/
theorem leads_onResolve (hfinished : s.finished = false) (conn : κ) :
    s.Leads (s.onResolve conn)
      (fun result ↦ ∀ why, s.aborted = some why → result = .error (.client why))
      (fun op ↦ op = .connect ∧ s.aborted = none) := by
  rw [onResolve]
  cases haborted : s.aborted with
  | some why =>
    exact .ended _ (over_finish hfinished _) fun why' hwhy ↦ by rw [Option.some.inj hwhy]
  | none => exact .on .connect ⟨rfl, haborted.symm, rfl, rfl, rfl, rfl⟩ ⟨rfl, rfl⟩

/-- With the host name set, onConnect() goes on. -/
theorem on_onConnect (hconn : s.conn.isSome = true) :
    ∃ op ∈ [Op.handshake, .writeHeader], s.On (s.onConnect (.ok ())) op := by
  unfold onConnect
  split
  · exact ⟨.writeHeader, by simp, on_await hconn⟩
  · exact ⟨.handshake, by simp, on_await hconn⟩

/-- Writing on, or reading the header. -/
theorem on_writeBody (hconn : s.conn.isSome = true) (isDone : Bool) (now : Time) :
    ∃ op ∈ [Op.writeBody, .readHeader], s.On (s.writeBody isDone now) op := by
  cases isDone with
  | false => exact ⟨.writeBody, by simp, on_await hconn⟩
  | true =>
    refine ⟨.readHeader, by simp, ?_⟩
    rw [writeBody, if_pos rfl]
    split
    · obtain ⟨reportedBytes, reportedAt, progressed, heq⟩ :=
        s.progress_eq .upload s.upDone (some s.bodySize) true now
      rw [heq]
      exact ⟨rfl, rfl, rfl, rfl, rfl, hconn⟩
    · exact ⟨rfl, rfl, rfl, rfl, rfl, hconn⟩

theorem on_onWritten (hconn : s.conn.isSome = true) (n : ℕ) (isDone : Bool) (now : Time) :
    ∃ op ∈ [Op.writeBody, .readHeader], s.On (s.onWritten n isDone now) op := by
  rw [onWritten]
  dsimp only
  split
  · obtain ⟨reportedBytes, reportedAt, progressed, heq⟩ :=
      progress_eq { s with upDone := s.upDone + n } .upload (s.upDone + n) (some s.bodySize) false
        now
    rw [heq]
    obtain ⟨op, hop, h⟩ := on_writeBody (s := { s with
      upDone := s.upDone + n, reportedBytes, reportedAt, progressed }) hconn isDone now
    exact ⟨op, hop, h.begun, h.aborted, h.pending, h.finished, h.promise, h.conn⟩
  · obtain ⟨op, hop, h⟩ := on_writeBody (s := { s with upDone := s.upDone + n }) hconn isDone now
    exact ⟨op, hop, h.begun, h.aborted, h.pending, h.finished, h.promise, h.conn⟩

theorem over_succeed (hfinished : s.finished = false) (message : Message ρ) :
    s.Over (s.succeed message) (.response message.response) := by
  rw [succeed]
  split
  · have h := over_finish (s := { s with released := s.conn, conn := none }) hfinished
      (.response message.response)
    exact ⟨h.begun, h.aborted, h.pending, h.finished, h.promise⟩
  · exact over_finish hfinished _

/-- A part of the response ends the call if it was the last one. -/
theorem leads_readBody (hfinished : s.finished = false) (hconn : s.conn.isSome = true)
    (message : Message ρ) (now : Time) :
    s.Leads (s.readBody message now)
      (fun result ↦ message.isDone = true ∧ result = .response message.response)
      (fun op ↦ op = .readBody) := by
  cases hdone : message.isDone with
  | true =>
    rw [readBody, if_pos hdone]
    dsimp only
    obtain ⟨reportedBytes, reportedAt, progressed, heq⟩ :=
      progress_eq { s with downDone := message.bodySize } .download message.bodySize
        (some (s.downTotal.getD message.bodySize)) true now
    rw [heq]
    have h := over_succeed (s := { s with
      downDone := message.bodySize, reportedBytes, reportedAt, progressed }) hfinished message
    exact .ended _ ⟨h.begun, h.aborted, h.pending, h.finished, h.promise⟩ ⟨rfl, rfl⟩
  | false =>
    rw [readBody, if_neg (Bool.eq_false_iff.1 hdone)]
    exact .on .readBody (on_await hconn) rfl

/-- What a handler leads to does not depend on the fields that it sets first. -/
theorem Leads.of_eq {c : Call κ ρ} {results : Result ρ → Prop} {ops : Op → Prop}
    (h : c.Leads t results ops) (hbegun : c.begun = s.begun) (haborted : c.aborted = s.aborted)
    (hpending : c.pending = s.pending) (hfinished : c.finished = s.finished)
    (hpromise : c.promise = s.promise) : s.Leads t results ops := by
  cases h with
  | ended result h hresult =>
    exact .ended result ⟨h.begun.trans hbegun, h.aborted.trans haborted, h.pending.trans hpending,
      h.finished, hpromise ▸ h.promise⟩ hresult
  | on op h hop =>
    exact .on op ⟨h.begun.trans hbegun, h.aborted.trans haborted, hpending ▸ h.pending,
      h.finished.trans hfinished, h.promise.trans hpromise, h.conn⟩ hop

/-- A header ends the call with its message, or the body is read. -/
theorem leads_onHeader (hfinished : s.finished = false) (hconn : s.conn.isSome = true)
    (message : Message ρ) (now : Time) :
    s.Leads (s.onHeader message now)
      (fun result ↦ message.isDone = true ∧ result = .response message.response)
      (fun op ↦ op = .readBody) :=
  (leads_readBody (s := { s with
    parser := some (.message message)
    downTotal := if message.contentLength.isSome && s.method != .head then message.contentLength
      else s.downTotal }) hfinished hconn message now).of_eq rfl rfl rfl rfl rfl

theorem leads_onBody (hfinished : s.finished = false) (hconn : s.conn.isSome = true)
    (message : Message ρ) (now : Time) :
    s.Leads (s.onBody message now)
      (fun result ↦ message.isDone = true ∧ result = .response message.response)
      (fun op ↦ op = .readBody) := by
  rw [onBody]
  dsimp only
  obtain ⟨reportedBytes, reportedAt, progressed, heq⟩ := progress_eq
    { s with parser := some (.message message), downDone := message.bodySize } .download
    message.bodySize s.downTotal false now
  rw [heq]
  exact (leads_readBody (s := { s with
    parser := some (.message message), downDone := message.bodySize, reportedBytes, reportedAt,
    progressed }) hfinished hconn message now).of_eq rfl rfl rfl rfl rfl

/-! ### Steps -/

/-- What a call ends with once it is aborted. -/
def Decides (e : Event κ ρ) (why : ClientError) (result : Result ρ) : Prop :=
  match e with
  | .begin (.error ec) _ => result = .error ec
  | .refuse => result = .error (.client .closed)
  | _ => result = .error (.client why) ∨ ∃ message, e.message = some message ∧
      message.isDone = true ∧ result = .response message.response

/-- A step that fails after an abort ends the call with the abort's error. -/
theorem decides_of_fails {e : Event κ ρ} (h : e.fails = true) (why : ClientError) :
    Decides e why (.error (.client why)) := by
  cases e with
  | begin => cases h
  | refuse => cases h
  | _ => exact Or.inl rfl

/-- What a call goes on with although it is aborted. -/
def Follows (e : Event κ ρ) (op : Op) : Prop :=
  match e with
  | .begin (.error _) _ | .refuse => False
  | .begin (.ok _) idle => op = if idle.isSome then .writeHeader else .resolve
  | _ => e.fails = false ∧ e.source = none ∧ op ≠ .connect ∧ op.onSocket = true

/-- What the completion of an operation makes of a call. -/
inductive Turns (s : Call κ ρ) (e : Event κ ρ) (t : Call κ ρ) : Prop
  | ended (result : Result ρ) (hfinished : t.finished = true) (hpending : t.pending = [])
      (hpromise : t.promise = [result])
      (hdecides : ∀ why, s.aborted = some why → Decides e why result)
  | on (op : Op) (hfinished : t.finished = false) (hpending : t.pending = [op])
      (hpromise : t.promise = []) (hconn : t.conn.isSome = op.onSocket)
      (hfollows : s.aborted.isSome = true → Follows e op)

/-- What a handler leads to, in terms of the first abort. -/
theorem Leads.turns {onComplete : Bool} {c : Call κ ρ} {e : Event κ ρ}
    {results : Result ρ → Prop} {ops : Op → Prop} (h : c.Leads t results ops)
    (hc : c.Running onComplete) (haborted : c.aborted = s.aborted)
    (hresults : ∀ result, results result → ∀ why, s.aborted = some why → Decides e why result)
    (hops : ∀ op, ops op → s.aborted.isSome = true → Follows e op) :
    t.begun = true ∧ t.aborted = s.aborted ∧ s.Turns e t := by
  obtain ⟨hfinished, hbegun, hpending, hpromise, -⟩ := hc
  cases h with
  | ended result h hresult =>
    refine ⟨h.begun.trans hbegun, h.aborted.trans haborted, .ended result h.finished
      (h.pending.trans hpending) ?_ (hresults result hresult)⟩
    rw [h.promise, hpromise, List.nil_append]
  | on op h hop =>
    refine ⟨h.begun.trans hbegun, h.aborted.trans haborted, .on op (h.finished.trans hfinished) ?_
      (h.promise.trans hpromise) h.conn (hops op hop)⟩
    rw [h.pending, hpending, List.nil_append]

/-- An operation fails. -/
theorem turns_of_fails {onComplete : Bool} {c : Call κ ρ} {e : Event κ ρ}
    (hc : c.Running onComplete) (haborted : c.aborted = s.aborted) (ec : ErrorCode)
    (duringWrite : Bool) (hfails : e.fails = true) :
    (c.fail ec duringWrite).begun = true ∧ (c.fail ec duringWrite).aborted = s.aborted ∧
      s.Turns e (c.fail ec duringWrite) := by
  refine (leads_fail hc.1 ec duringWrite).turns hc haborted (fun result h why hwhy ↦ ?_)
    fun op h hsome ↦ ?_
  · rw [h why (haborted.trans hwhy)]
    exact decides_of_fails hfails why
  · rw [← haborted, h.2] at hsome
    cases hsome

/-- An operation on the socket succeeds, and the next one starts. -/
theorem turns_of_on {onComplete : Bool} {c : Call κ ρ} {e : Event κ ρ} {ops : List Op}
    (h : ∃ op ∈ ops, c.On t op) (hc : c.Running onComplete) (haborted : c.aborted = s.aborted)
    (hops : ∀ op ∈ ops, Follows e op) :
    t.begun = true ∧ t.aborted = s.aborted ∧ s.Turns e t := by
  obtain ⟨op, hop, hon⟩ := h
  have hleads : c.Leads t (fun _ ↦ False) (· ∈ ops) := .on op hon hop
  exact hleads.turns hc haborted (fun _ h ↦ h.elim) fun op hop _ ↦ hops op hop

/-- **What a completion does**, where the host name can be set for TLS. -/
theorem turns_of_step {onComplete : Bool} (hs : s.Settled onComplete) (hw : s.Wired)
    {e : Event κ ρ} {op : Op} (hop : e.op = some op) (he : s.step e = some t)
    (hsni : e.sniFails = false) :
    t.begun = true ∧ t.aborted = s.aborted ∧ s.Turns e t := by
  obtain ⟨hmem, rfl⟩ := handle_of_step hop he
  obtain ⟨hrun, hfirst⟩ := hs.complete hmem
  have hconn : (s.complete op).conn.isSome = op.onSocket := hw op hmem
  cases e with
  | abort why => cases hop
  | begin target idle =>
    obtain rfl := Option.some.inj hop
    rcases target with ec | target
    · have h : Leads { s.complete .start with begun := true }
          (begin { s.complete .start with begun := true } (.error ec) idle)
          (fun result ↦ result = .error ec) fun _ ↦ False :=
        .ended _ (over_finish hfirst.1 _) rfl
      exact h.turns hfirst rfl (fun _ h _ _ ↦ h) fun _ h ↦ h.elim
    · rcases idle with _ | conn
      · have hnone : (s.complete .start).conn.isSome = false := hconn
        have h : On { s.complete .start with begun := true }
            (begin { s.complete .start with begun := true } (.ok target) none) .resolve :=
          ⟨rfl, rfl, rfl, rfl, rfl, hnone⟩
        exact turns_of_on ⟨.resolve, List.mem_singleton_self _, h⟩ hfirst rfl fun op hop ↦
          List.mem_singleton.1 hop
      · have h : On { s.complete .start with begun := true }
            (begin { s.complete .start with begun := true } (.ok target) (some conn))
            .writeHeader := ⟨rfl, rfl, rfl, rfl, rfl, rfl⟩
        exact turns_of_on ⟨.writeHeader, List.mem_singleton_self _, h⟩ hfirst rfl fun op hop ↦
          List.mem_singleton.1 hop
  | refuse =>
    obtain rfl := Option.some.inj hop
    have h : Leads { s.complete .refuse with begun := true }
        (finish { s.complete .refuse with begun := true } (.error (.client .closed)))
        (fun result ↦ result = .error (.client .closed)) fun _ ↦ False :=
      .ended _ (over_finish hfirst.1 _) rfl
    exact h.turns hfirst rfl (fun _ h _ _ ↦ h) fun _ h ↦ h.elim
  | resolved result =>
    obtain rfl := Option.some.inj hop
    have hc := hrun rfl
    rcases result with ec | conn
    · exact turns_of_fails (s := s) (e := .resolved (.error ec)) hc rfl ec false rfl
    · refine (leads_onResolve hc.1 conn).turns hc rfl (fun result h why hwhy ↦ ?_)
        fun op h hsome ↦ ?_
      · exact Or.inl (h why hwhy)
      · have hnone : s.aborted = none := h.2
        rw [hnone] at hsome
        cases hsome
  | connected result =>
    obtain rfl := Option.some.inj hop
    have hc := hrun rfl
    rcases result with ec | sni
    · exact turns_of_fails (s := s) (e := .connected (.error ec)) hc rfl ec false rfl
    · rcases sni with ec | _
      · cases hsni
      · have hops : ∀ op ∈ [Op.handshake, .writeHeader], op ≠ .connect ∧ op.onSocket = true := by
          decide
        refine turns_of_on (on_onConnect hconn) hc rfl fun op hop ↦ ?_
        exact ⟨rfl, rfl, hops op hop⟩
  | handshaken result =>
    obtain rfl := Option.some.inj hop
    have hc := hrun rfl
    rcases result with ec | _
    · exact turns_of_fails (s := s) (e := .handshaken (.error ec)) hc rfl ec false rfl
    · refine turns_of_on ⟨.writeHeader, List.mem_singleton_self _, on_await hconn⟩ hc rfl
        fun op hop ↦ ?_
      obtain rfl := List.mem_singleton.1 hop
      exact ⟨rfl, rfl, nofun, rfl⟩
  | headerWritten result now =>
    obtain rfl := Option.some.inj hop
    have hc := hrun rfl
    rcases result with ec | isDone
    · exact turns_of_fails (s := s) (e := .headerWritten (.error ec) now) hc rfl ec true rfl
    · have hops : ∀ op ∈ [Op.writeBody, .readHeader], op ≠ .connect ∧ op.onSocket = true := by
        decide
      refine turns_of_on (on_writeBody hconn isDone now) hc rfl fun op hop ↦ ?_
      exact ⟨rfl, rfl, hops op hop⟩
  | bodyWritten result now =>
    obtain rfl := Option.some.inj hop
    have hc := hrun rfl
    rcases result with ec | ⟨n, isDone⟩
    · exact turns_of_fails (s := s) (e := .bodyWritten (.error ec) now) hc rfl ec true rfl
    · have hops : ∀ op ∈ [Op.writeBody, .readHeader], op ≠ .connect ∧ op.onSocket = true := by
        decide
      refine turns_of_on (on_onWritten hconn n isDone now) hc rfl fun op hop ↦ ?_
      exact ⟨rfl, rfl, hops op hop⟩
  | headerRead result now =>
    obtain rfl := Option.some.inj hop
    have hc := hrun rfl
    rcases result with ⟨ec, parser⟩ | message
    · have hc' : Running onComplete { s.complete .readHeader with parser := some parser } := hc
      exact turns_of_fails (s := s) (e := .headerRead (.error (ec, parser)) now) hc' rfl ec false
        rfl
    · refine (leads_onHeader hc.1 hconn message now).turns hc rfl (fun result h _ _ ↦ ?_)
        fun op hop _ ↦ ?_
      · exact Or.inr ⟨message, rfl, h⟩
      · subst hop
        exact ⟨rfl, rfl, nofun, rfl⟩
  | bodyRead result now =>
    obtain rfl := Option.some.inj hop
    have hc := hrun rfl
    rcases result with ec | message
    · exact turns_of_fails (s := s) (e := .bodyRead (.error ec) now) hc rfl ec false rfl
    · refine (leads_onBody hc.1 hconn message now).turns hc rfl (fun result h _ _ ↦ ?_)
        fun op hop _ ↦ ?_
      · exact Or.inr ⟨message, rfl, h⟩
      · subst hop
        exact ⟨rfl, rfl, nofun, rfl⟩

end Call

end CppGate.HttpClient
