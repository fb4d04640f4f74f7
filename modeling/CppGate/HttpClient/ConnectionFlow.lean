import CppGate.HttpClient.Attempts
import CppGate.HttpClient.Completion

/-!
# The connection of a call

What a call does with its connection, handler by handler: most keep or drop it (`Retains`), two take
another one, and only the one that completes a response gives it to putIdle() (`Gives`). The
inversion of a step (`flow_of_step`) is all that the store of idle connections has to know of a
call.
-/

namespace CppGate.HttpClient

universe u v

variable {κ : Type u} {ρ : Type v} {onComplete : Bool}

def Source.conn : Source κ → κ
  | .pooled conn | .opened conn => conn

/-- The message that a read completes with. -/
def Event.message : Event κ ρ → Option (Message ρ)
  | .headerRead (.ok message) _ | .bodyRead (.ok message) _ => some message
  | _ => none

namespace Call

variable {s t u : Call κ ρ}

/-- The call keeps its connection or drops it. -/
def Retains (s t : Call κ ρ) : Prop :=
  (t.conn = s.conn ∨ t.conn = none) ∧ t.released = s.released

/-- The call is over and gave its connection to putIdle(). -/
def Gives (s t : Call κ ρ) : Prop :=
  t.conn = none ∧ t.released = s.conn ∧ t.finished = true

/-- A message with which succeed() gives the connection to putIdle(). -/
def Releases (s : Call κ ρ) (message : Message ρ) : Prop :=
  message.isDone = true ∧ message.keepAlive = true ∧ s.aborted = none

/-- What a step does with the connection. -/
inductive Flow (s : Call κ ρ) (e : Event κ ρ) (t : Call κ ρ) : Prop
  | retains (h : Retains s t)
  | takes (source : Source κ) (he : e.source = some source) (hconn : t.conn = some source.conn)
      (hreleased : t.released = s.released)
  | gives (message : Message ρ) (he : e.message = some message) (hreleases : s.Releases message)
      (h : Gives s t)

/-! ### The handlers -/

theorem retains_finish (s : Call κ ρ) (result : Result ρ) : Retains s (s.finish result) := by
  rw [finish]
  split
  · exact ⟨.inl rfl, rfl⟩
  · exact ⟨.inr rfl, rfl⟩

/-- A failure drops the connection, also for the second attempt. -/
theorem retains_fail (s : Call κ ρ) (ec : ErrorCode) (duringWrite : Bool) :
    Retains s (s.fail ec duringWrite) := by
  rcases s.fail_eq ec duringWrite with ⟨error, heq⟩ | ⟨-, -, -, heq⟩
  · exact heq ▸ s.retains_finish _
  · exact heq ▸ ⟨.inr rfl, rfl⟩

theorem Retains.progress (h : Retains s t) (direction : Direction) (done : ℕ) (total : Option ℕ)
    (last : Bool) (now : Time) : Retains s (t.progress direction done total last now) := by
  obtain ⟨reportedBytes, reportedAt, progressed, heq⟩ :=
    t.progress_eq direction done total last now
  rw [heq]
  exact h

theorem retains_writeBody (h : Retains s t) (isDone : Bool) (now : Time) :
    Retains s (t.writeBody isDone now) := by
  unfold Call.writeBody
  split
  · split
    · exact h.progress ..
    · exact h
  · exact h

theorem retains_onWritten (s : Call κ ρ) (n : ℕ) (isDone : Bool) (now : Time) :
    Retains s (s.onWritten n isDone now) := by
  have hwritten : Retains s { s with upDone := s.upDone + n } := ⟨.inl rfl, rfl⟩
  unfold Call.onWritten
  dsimp only
  split
  · exact retains_writeBody (hwritten.progress ..) isDone now
  · exact retains_writeBody hwritten isDone now

/-- A connect that succeeds leaves the connection, and TLS that cannot be set up drops it. -/
theorem retains_onConnect (s : Call κ ρ) (sni : Except ErrorCode Unit) :
    Retains s (s.onConnect sni) := by
  unfold Call.onConnect
  split
  · exact ⟨.inl rfl, rfl⟩
  · split
    · exact s.retains_finish _
    · exact ⟨.inl rfl, rfl⟩

/-- A complete response is delivered, and its connection given away or dropped. -/
theorem succeed_flow (hfinished : s.finished = false) (message : Message ρ) :
    (message.keepAlive = true → s.aborted = none → Gives s (s.succeed message)) ∧
      (¬(message.keepAlive = true ∧ s.aborted = none) → Retains s (s.succeed message)) := by
  have hcondition : (message.keepAlive && s.aborted.isNone) = true ↔
      message.keepAlive = true ∧ s.aborted = none := by
    rw [Bool.and_eq_true, Option.isNone_iff_eq_none]
  unfold Call.succeed
  dsimp only
  constructor
  · intro hkeep haborted
    rw [if_pos (hcondition.2 ⟨hkeep, haborted⟩), finish, hfinished, if_neg Bool.false_ne_true]
    exact ⟨rfl, rfl, rfl⟩
  · intro hnot
    rw [if_neg (mt hcondition.1 hnot)]
    exact s.retains_finish _

/-- The last read gives the connection to putIdle() exactly if the message allows that. -/
theorem readBody_flow (hfinished : s.finished = false) (message : Message ρ) (now : Time) :
    (s.Releases message → Gives s (s.readBody message now)) ∧
      (¬ s.Releases message → Retains s (s.readBody message now)) := by
  unfold Call.readBody
  dsimp only
  split
  · next hdone =>
    obtain ⟨reportedBytes, reportedAt, progressed, heq⟩ :=
      progress_eq { s with downDone := message.bodySize } .download message.bodySize
        (some (s.downTotal.getD message.bodySize)) true now
    rw [heq]
    set r : Call κ ρ :=
      { s with downDone := message.bodySize, reportedBytes, reportedAt, progressed }
    obtain ⟨hgives, hretains⟩ := succeed_flow (s := r) hfinished message
    exact ⟨fun ⟨_, hkeep, haborted⟩ ↦ hgives hkeep haborted,
      fun hnot ↦ hretains fun h ↦ hnot ⟨hdone, h⟩⟩
  · next hdone => exact ⟨fun h ↦ absurd h.1 hdone, fun _ ↦ ⟨.inl rfl, rfl⟩⟩

theorem onBody_flow (hfinished : s.finished = false) (message : Message ρ) (now : Time) :
    (s.Releases message → Gives s (s.onBody message now)) ∧
      (¬ s.Releases message → Retains s (s.onBody message now)) := by
  unfold Call.onBody
  dsimp only
  obtain ⟨reportedBytes, reportedAt, progressed, heq⟩ := progress_eq
    { s with parser := some (.message message), downDone := message.bodySize } .download
    message.bodySize s.downTotal false now
  rw [heq]
  set r : Call κ ρ := { s with
    parser := some (.message message), downDone := message.bodySize, reportedBytes, reportedAt,
    progressed }
  exact readBody_flow (s := r) hfinished message now

/-- A header without a body does so as well. -/
theorem onHeader_flow (hfinished : s.finished = false) (message : Message ρ) (now : Time) :
    (s.Releases message → Gives s (s.onHeader message now)) ∧
      (¬ s.Releases message → Retains s (s.onHeader message now)) := by
  unfold Call.onHeader
  dsimp only
  generalize (if message.contentLength.isSome && s.method != .head then message.contentLength
    else s.downTotal) = downTotal
  set r : Call κ ρ := { s with parser := some (.message message), downTotal }
  exact readBody_flow (s := r) hfinished message now

/-- A new connection is taken, unless the call was aborted in the meantime. -/
theorem onResolve_flow (s : Call κ ρ) (conn : κ) :
    Retains s (s.onResolve conn) ∨
      (s.onResolve conn).conn = some conn ∧ (s.onResolve conn).released = s.released := by
  unfold Call.onResolve
  split
  · exact .inl (s.retains_finish _)
  · exact .inr ⟨rfl, rfl⟩

/-- An idle connection is taken. -/
theorem begin_flow (s : Call κ ρ) (target : Except ErrorCode Target) (idle : Option κ) :
    Retains s (s.begin target idle) ∨ ∃ conn, idle = some conn ∧
      (s.begin target idle).conn = some conn ∧ (s.begin target idle).released = s.released := by
  unfold Call.begin
  split
  · exact .inl (s.retains_finish _)
  · unfold Call.connect
    split
    · next conn => exact .inr ⟨conn, rfl, rfl, rfl⟩
    · exact .inl ⟨.inl rfl, rfl⟩

/-! ### The events -/

/-- A read that completes with a message gives the connection away or not. -/
theorem step_message (hs : Settled onComplete s) {e : Event κ ρ} {message : Message ρ}
    (hmessage : e.message = some message) (he : s.step e = some t) :
    (s.Releases message → Gives s t) ∧ (¬ s.Releases message → Retains s t) := by
  cases e with
  | headerRead result now =>
    obtain ⟨hmem, rfl⟩ := handle_of_step rfl he
    have hfinished := ((hs.complete hmem).1 rfl).1
    rcases result with failure | message'
    · cases hmessage
    · obtain rfl := Option.some.inj hmessage
      exact onHeader_flow hfinished message' now
  | bodyRead result now =>
    obtain ⟨hmem, rfl⟩ := handle_of_step rfl he
    have hfinished := ((hs.complete hmem).1 rfl).1
    rcases result with ec | message'
    · cases hmessage
    · obtain rfl := Option.some.inj hmessage
      exact onBody_flow hfinished message' now
  | _ => cases hmessage

/-- What a step does with the connection, one case for each event. -/
theorem flow_of_step (hs : Settled onComplete s) {e : Event κ ρ} (he : s.step e = some t) :
    Flow s e t := by
  cases hmessage : e.message with
  | some message =>
    obtain ⟨hgives, hretains⟩ := step_message hs hmessage he
    by_cases hreleases : s.Releases message
    · exact .gives message hmessage hreleases (hgives hreleases)
    · exact .retains (hretains hreleases)
  | none =>
    cases e with
    | abort why =>
      obtain rfl := Option.some.inj he
      refine .retains ?_
      show Retains s (s.abort why)
      unfold Call.abort
      split
      · exact ⟨.inl rfl, rfl⟩
      · exact ⟨.inl rfl, rfl⟩
    | begin target idle =>
      obtain ⟨-, rfl⟩ := handle_of_step rfl he
      rcases begin_flow { s.complete .start with begun := true } target idle with
        h | ⟨conn, rfl, hconn, hreleased⟩
      · exact .retains h
      · exact .takes (.pooled conn) rfl hconn hreleased
    | refuse =>
      obtain ⟨-, rfl⟩ := handle_of_step rfl he
      exact .retains (retains_finish { s.complete .refuse with begun := true } _)
    | resolved result =>
      obtain ⟨-, rfl⟩ := handle_of_step rfl he
      rcases result with ec | conn
      · exact .retains ((s.complete .resolve).retains_fail ec false)
      · rcases (s.complete .resolve).onResolve_flow conn with h | ⟨hconn, hreleased⟩
        · exact .retains h
        · exact .takes (.opened conn) rfl hconn hreleased
    | connected result =>
      obtain ⟨-, rfl⟩ := handle_of_step rfl he
      rcases result with ec | sni
      · exact .retains ((s.complete .connect).retains_fail ec false)
      · exact .retains ((s.complete .connect).retains_onConnect sni)
    | handshaken result =>
      obtain ⟨-, rfl⟩ := handle_of_step rfl he
      rcases result with ec | _
      · exact .retains ((s.complete .handshake).retains_fail ec false)
      · exact .retains ⟨.inl rfl, rfl⟩
    | headerWritten result now =>
      obtain ⟨-, rfl⟩ := handle_of_step rfl he
      rcases result with ec | isDone
      · exact .retains ((s.complete .writeHeader).retains_fail ec true)
      · exact .retains (retains_writeBody (t := s.complete .writeHeader) ⟨.inl rfl, rfl⟩ isDone now)
    | bodyWritten result now =>
      obtain ⟨-, rfl⟩ := handle_of_step rfl he
      rcases result with ec | ⟨n, isDone⟩
      · exact .retains ((s.complete .writeBody).retains_fail ec true)
      · exact .retains ((s.complete .writeBody).retains_onWritten n isDone now)
    | headerRead result now =>
      obtain ⟨-, rfl⟩ := handle_of_step rfl he
      rcases result with ⟨ec, parser⟩ | message
      · exact .retains (retains_fail { s.complete .readHeader with parser := some parser } ec false)
      · cases hmessage
    | bodyRead result now =>
      obtain ⟨-, rfl⟩ := handle_of_step rfl he
      rcases result with ec | message
      · exact .retains ((s.complete .readBody).retains_fail ec false)
      · cases hmessage

end Call

end CppGate.HttpClient
