import CppGate.HttpClient.Call

/-!
# The attempts of a call

What a call hands to the network, octet by octet. The serializer is made anew for each attempt, so
an attempt hands over the request from its first octet; how far it got is what the completions of
the write steps say.

A write step that fails did not hand over the last octet of its data. The last write of a body may
have no data left: the serializer may finish with an empty write.
-/

namespace CppGate.HttpClient

open Http

universe u v

variable {κ : Type u} {ρ : Type v}

/-! ### Attempts -/

/-- Where a connection came from. -/
inductive Source (κ : Type u)
  | pooled (conn : κ)
  | opened (conn : κ)

/-- How an attempt failed. -/
structure Failure where
  duringWrite : Bool
  /-- The parser got some of a response. -/
  received : Bool
  aborted : Bool

/-- A connection that the request was written to. -/
structure Attempt (κ : Type u) where
  conn : Option κ
  source : Option (Source κ)
  /-- What was handed to the network on it. -/
  handed : Text := []
  failure : Option Failure := none

/-- The attempt hands over some more. -/
@[simps] def Attempt.hand (a : Attempt κ) (octets : Text) : Attempt κ :=
  { a with handed := a.handed ++ octets }

@[simps] def Attempt.fail (a : Attempt κ) (failure : Failure) : Attempt κ :=
  { a with failure := some failure }

@[simp] theorem Attempt.hand_nil (a : Attempt κ) : a.hand [] = a := by
  rw [Attempt.hand, List.append_nil]

/-- The connection that an event brings. -/
def Event.source : Event κ ρ → Option (Source κ)
  | .begin _ (some conn) => some (.pooled conn)
  | .resolved (.ok conn) => some (.opened conn)
  | _ => none

/-- The failure of a step of an attempt. -/
def Event.failure (aborted : Bool) : Event κ ρ → Option Failure
  | .headerWritten (.error _) _ | .bodyWritten (.error _) _ =>
    some { duringWrite := true, received := false, aborted }
  | .headerRead (.error (_, parser)) _ =>
    some { duringWrite := false, received := parser.gotSome, aborted }
  | .bodyRead (.error _) _ => some { duringWrite := false, received := true, aborted }
  | _ => none

/-! ### Sending -/

/-- A call and the octets of its request, `req` once it is serialized. -/
structure Sending (κ : Type u) (ρ : Type v) where
  call : Call κ ρ
  header : Text
  body : Text
  /-- What `serializer` has not handed over yet. -/
  left : Text := []
  /-- Where the current connection came from. -/
  source : Option (Source κ) := none
  current : Option (Attempt κ) := none
  ended : List (Attempt κ) := []

namespace Sending

/-- The request. -/
def octets (s : Sending κ ρ) : Text :=
  s.header ++ s.body

/-- All attempts, the first one first. -/
def attempts (s : Sending κ ρ) : List (Attempt κ) :=
  s.ended ++ s.current.toList

/-- Whether a step may complete so, after it handed over `n` octets. -/
def allows (s : Sending κ ρ) (n : ℕ) : Event κ ρ → Bool
  | .headerWritten (.error _) _ => decide (n < s.header.length)
  | .headerWritten (.ok isDone) _ => n == s.header.length && (!isDone || s.body.isEmpty)
  | .bodyWritten (.error _) _ => decide (n < s.left.length) || n == 0 && s.left.isEmpty
  | .bodyWritten (.ok (m, isDone)) _ =>
    n == m && decide (n ≤ s.left.length) && (!isDone || n == s.left.length)
  | _ => n == 0

/-- The network takes the next octets. -/
def hand (s : Sending κ ρ) (n : ℕ) : Sending κ ρ :=
  { s with
    left := s.left.drop n
    current := s.current.map fun a ↦ a.hand (s.left.take n) }

/-- The call goes on: the attempt has failed, or another one starts with a new serializer, or
neither. -/
def goOn (s : Sending κ ρ) (e : Event κ ρ) (call : Call κ ρ) : Sending κ ρ :=
  match e.failure s.call.aborted.isSome with
  | some failure =>
    { s with
      call
      source := none
      current := none
      ended := s.ended ++ (s.current.map fun a ↦ a.fail failure).toList }
  | none =>
    let source := e.source.or s.source
    if e.op.isSome ∧ .writeHeader ∈ call.pending then
      { s with
        call
        source
        left := s.octets
        current := some { conn := call.conn, source }
        ended := s.attempts }
    else
      { s with call, source }

/-- One event of the call, and how many octets the step that it completes handed over. -/
def step (s : Sending κ ρ) (e : Event κ ρ × ℕ) : Option (Sending κ ρ) :=
  if s.allows e.2 e.1 then (s.call.step e.1).map (s.hand e.2 |>.goOn e.1) else none

/-- What send() makes of a request with this header and this body. -/
def IsNew (onComplete : Bool) (s : Sending κ ρ) : Prop :=
  ∃ (call : Call κ ρ) (header body : Text), call.IsNew onComplete ∧ call.bodySize = body.length ∧
    s = { call, header, body }

/-- A call from send() on, with what it hands to the network. -/
def machine (κ : Type u) (ρ : Type v) (onComplete : Bool) :
    Machine (Sending κ ρ) (Event κ ρ × ℕ) where
  Init := IsNew onComplete
  step := step

/-- A step of the request is a step of its call. -/
theorem call_of_step {s t : Sending κ ρ} {x : Event κ ρ × ℕ} (h : s.step x = some t) :
    s.allows x.2 x.1 = true ∧
      ∃ call, s.call.step x.1 = some call ∧ t = (s.hand x.2).goOn x.1 call := by
  have hallows : s.allows x.2 x.1 = true := by
    by_contra hnot
    rw [step, if_neg hnot] at h
    exact absurd h.symm (Option.some_ne_none _)
  rw [step, if_pos hallows] at h
  obtain ⟨call, hcall, rfl⟩ := Option.map_eq_some_iff.1 h
  exact ⟨hallows, call, hcall, rfl⟩

end Sending

/-! ### What the handlers leave -/

theorem goOn_call (s : Sending κ ρ) (e : Event κ ρ) (call : Call κ ρ) :
    (s.goOn e call).call = call := by
  rw [Sending.goOn]
  split
  · rfl
  · dsimp only
    split <;> rfl

theorem goOn_body (s : Sending κ ρ) (e : Event κ ρ) (call : Call κ ρ) :
    (s.goOn e call).body = s.body := by
  rw [Sending.goOn]
  split
  · rfl
  · dsimp only
    split <;> rfl

/-! ### What the handlers do -/

namespace Call

/-- What a progress report leaves as it is, among others. -/
structure Keeps (s t : Call κ ρ) : Prop where
  pending : t.pending = s.pending
  method : t.method = s.method
  reused : t.reused = s.reused
  retried : t.retried = s.retried
  parser : t.parser = s.parser

/-- The call is over. -/
structure Ends (s t : Call κ ρ) : Prop where
  pending : t.pending = s.pending
  method : t.method = s.method

/-- The call waits for the next step, and the retry is as it was. -/
structure Awaits (s t : Call κ ρ) (op : Op) : Prop where
  pending : t.pending = s.pending ++ [op]
  method : t.method = s.method
  reused : t.reused = s.reused
  retried : t.retried = s.retried

variable {s t u : Call κ ρ}

/-- An end after a progress report is an end. -/
theorem Keeps.ends (h : s.Keeps t) (hends : t.Ends u) : s.Ends u :=
  ⟨hends.pending.trans h.pending, hends.method.trans h.method⟩

theorem Keeps.awaits (h : s.Keeps t) {op : Op} (hawaits : t.Awaits u op) : s.Awaits u op :=
  ⟨h.pending ▸ hawaits.pending, hawaits.method.trans h.method, hawaits.reused.trans h.reused,
    hawaits.retried.trans h.retried⟩

variable (s)

theorem awaits_await (op : Op) : s.Awaits (s.await op) op :=
  ⟨rfl, rfl, rfl, rfl⟩

theorem ends_finish (result : Result ρ) : s.Ends (s.finish result) := by
  by_cases hfinished : s.finished = true
  · rw [finish, if_pos hfinished]
    exact ⟨rfl, rfl⟩
  · rw [finish, if_neg hfinished]
    exact ⟨rfl, rfl⟩

/-- A progress report keeps the rest of the call. -/
theorem keeps_progress (direction : Direction) (done : ℕ) (total : Option ℕ) (last : Bool)
    (now : Time) : s.Keeps (s.progress direction done total last now) := by
  obtain ⟨reportedBytes, reportedAt, progressed, heq⟩ :=
    s.progress_eq direction done total last now
  rw [heq]
  exact ⟨rfl, rfl, rfl, rfl, rfl⟩

/-- What fail() does: the call is over, or it is tried again on a new connection. -/
theorem fail_cases (ec : ErrorCode) (duringWrite : Bool) :
    s.Ends (s.fail ec duringWrite) ∨
      s.aborted = none ∧ ec ∉ [.bodyLimit, .bufferOverflow, .timeout] ∧
        s.retries duringWrite = true ∧ s.fail ec duringWrite = resolve { s with
          retried := true
          reused := false
          conn := none
          upDone := 0
          reportedBytes := 0
          parser := none } := by
  rcases s.fail_eq ec duringWrite with ⟨error, heq⟩ | hretried
  · exact Or.inl (heq ▸ s.ends_finish _)
  · exact Or.inr hretried

theorem ends_succeed (message : Message ρ) : s.Ends (s.succeed message) := by
  have hgiven : s.Keeps (if (message.keepAlive && s.aborted.isNone) = true then
      { s with released := s.conn, conn := none } else s) := by
    split_ifs
    · exact ⟨rfl, rfl, rfl, rfl, rfl⟩
    · exact ⟨rfl, rfl, rfl, rfl, rfl⟩
  exact hgiven.ends (ends_finish _ _)

/-- readBody() ends the call, or reads on. -/
theorem readBody_cases (message : Message ρ) (now : Time) :
    s.Ends (s.readBody message now) ∨
      s.Awaits (s.readBody message now) .readBody ∧
        (s.readBody message now).parser = s.parser := by
  by_cases hdone : message.isDone = true
  · rw [readBody, if_pos hdone]
    have hsize : s.Keeps { s with downDone := message.bodySize } := ⟨rfl, rfl, rfl, rfl, rfl⟩
    exact Or.inl (hsize.ends ((keeps_progress _ _ _ _ _ _).ends (ends_succeed _ message)))
  · rw [readBody, if_neg hdone]
    exact Or.inr ⟨s.awaits_await _, rfl⟩

/-- A header that completes the response ends the call; otherwise the body is read. -/
theorem onHeader_cases (message : Message ρ) (now : Time) :
    s.Ends (s.onHeader message now) ∨
      s.Awaits (s.onHeader message now) .readBody ∧
        (s.onHeader message now).parser = some (.message message) := by
  rcases readBody_cases { s with
      parser := some (.message message)
      downTotal := if (message.contentLength.isSome && s.method != .head) = true then
        message.contentLength else s.downTotal } message now with h | ⟨h, hparser⟩
  · exact Or.inl ⟨h.pending, h.method⟩
  · exact Or.inr ⟨⟨h.pending, h.method, h.reused, h.retried⟩, hparser⟩

theorem onBody_cases (message : Message ρ) (now : Time) :
    s.Ends (s.onBody message now) ∨
      s.Awaits (s.onBody message now) .readBody ∧
        (s.onBody message now).parser = some (.message message) := by
  have hreport := keeps_progress { s with
    parser := some (.message message)
    downDone := message.bodySize } .download message.bodySize s.downTotal false now
  rcases readBody_cases _ message now with h | ⟨h, hparser⟩
  · exact Or.inl ⟨(hreport.ends h).pending, (hreport.ends h).method⟩
  · have hawaits := hreport.awaits h
    exact Or.inr ⟨⟨hawaits.pending, hawaits.method, hawaits.reused, hawaits.retried⟩,
      hparser.trans hreport.parser⟩

/-- writeBody() writes on, or reads the response. -/
theorem awaits_writeBody (isDone : Bool) (now : Time) :
    s.Awaits (s.writeBody isDone now) (if isDone then .readHeader else .writeBody) := by
  rcases isDone with _ | _
  · exact s.awaits_await _
  · have hreport : s.Keeps (if s.bodySize ≠ 0 then
        s.progress .upload s.upDone (some s.bodySize) true now else s) := by
      split_ifs
      · exact keeps_progress _ _ _ _ _ _
      · exact ⟨rfl, rfl, rfl, rfl, rfl⟩
    exact ⟨by rw [← hreport.pending]; rfl, hreport.method, hreport.reused, hreport.retried⟩

/-- A write that completes the request is followed by the read of the header, any other by a write.
-/
theorem awaits_onWritten (n : ℕ) (isDone : Bool) (now : Time) :
    s.Awaits (s.onWritten n isDone now) (if isDone then .readHeader else .writeBody) := by
  have hreport : Keeps { s with upDone := s.upDone + n } (if s.bodySize ≠ 0 then
      progress { s with upDone := s.upDone + n } .upload (s.upDone + n) (some s.bodySize) false now
      else { s with upDone := s.upDone + n }) := by
    split_ifs
    · exact keeps_progress _ _ _ _ _ _
    · exact ⟨rfl, rfl, rfl, rfl, rfl⟩
  have hawaits := hreport.awaits (awaits_writeBody _ isDone now)
  exact ⟨hawaits.pending, hawaits.method, hawaits.reused, hawaits.retried⟩

/-- onConnect() ends the call, starts the handshake, or writes. -/
theorem onConnect_cases (sni : Except ErrorCode Unit) :
    s.Ends (s.onConnect sni) ∨
      ∃ op ∈ [Op.writeHeader, .handshake], s.Awaits (s.onConnect sni) op ∧
        (s.onConnect sni).conn = s.conn := by
  unfold onConnect
  split_ifs
  · exact Or.inr ⟨.writeHeader, by simp, s.awaits_await _, rfl⟩
  · rcases sni with ec | _
    · exact Or.inl (s.ends_finish _)
    · exact Or.inr ⟨.handshake, by simp, s.awaits_await _, rfl⟩

/-- After the lookup the call ends, if it was aborted, or connects on a new connection. -/
theorem onResolve_cases (conn : κ) :
    s.Ends (s.onResolve conn) ∨
      s.Awaits (s.onResolve conn) .connect ∧ (s.onResolve conn).conn = some conn := by
  rw [onResolve]
  rcases s.aborted with _ | why
  · exact Or.inr ⟨⟨rfl, rfl, rfl, rfl⟩, rfl⟩
  · exact Or.inl (s.ends_finish _)

/-- begin() ends the call, resolves, or writes on a connection from the pool. -/
theorem begin_cases (target : Except ErrorCode Target) (idle : Option κ) :
    s.Ends (s.begin target idle) ∨ s.Awaits (s.begin target idle) .resolve ∨
      ∃ conn, idle = some conn ∧ (s.begin target idle).pending = s.pending ++ [.writeHeader] ∧
        (s.begin target idle).method = s.method ∧ (s.begin target idle).retried = s.retried ∧
        (s.begin target idle).reused = true ∧ (s.begin target idle).conn = some conn := by
  rcases target with ec | target
  · exact Or.inl (s.ends_finish _)
  · rcases idle with _ | conn
    · exact Or.inr (Or.inl ⟨rfl, rfl, rfl, rfl⟩)
    · exact Or.inr (Or.inr ⟨conn, rfl, rfl, rfl, rfl, rfl, rfl⟩)

end Call

end CppGate.HttpClient
