import CppGate.HttpClient.Call

/-!
# Every call completes exactly once

While a handler of a call runs nothing is outstanding for it (`Running`), and each of the functions
that end a handler either starts one step or ends the call (`Settled`). An abort starts nothing and
ends nothing: it leaves the outstanding step to fail.

`CompletesOnce` reads this for every order of completions, retries and aborts. What it does not
cover is begin() itself: building the message may throw, on a thread of the client, and then the
process ends and the call is never completed. `completes_once_iff` says that this is the only way.
-/

namespace CppGate.HttpClient

open Http

universe u v

variable {κ : Type u} {ρ : Type v} {onComplete : Bool}

namespace Call

variable {s t : Call κ ρ}

/-- A handler of the call runs: nothing is outstanding, and nothing was delivered. -/
def Running (onComplete : Bool) (s : Call κ ρ) : Prop :=
  s.finished = false ∧ s.begun = true ∧ s.pending = [] ∧ s.promise = [] ∧ s.completed = [] ∧
    s.onComplete = onComplete

/-- Between two handlers: one step is outstanding, or the call was ended by one result. -/
def Settled (onComplete : Bool) (s : Call κ ρ) : Prop :=
  (s.finished = false ∧ (∃ op, s.pending = [op] ∧ op.isStep = s.begun) ∧ s.promise = [] ∧
    s.completed = [] ∧ s.onComplete = onComplete) ∨
  (s.finished = true ∧ s.pending = [] ∧
    ∃ result, s.promise = [result] ∧ s.completed = if onComplete then [result] else [])

/-! ### How a handler ends -/

/-- The handler ends the call. -/
theorem Running.finish (h : Running onComplete s) (result : Result ρ) :
    Settled onComplete (s.finish result) := by
  obtain ⟨hfinished, -, hpending, hpromise, hcompleted, rfl⟩ := h
  refine Or.inr ?_
  rw [Call.finish, hfinished, if_neg Bool.false_ne_true]
  exact ⟨rfl, hpending, result, by rw [hpromise, List.nil_append],
    by rw [hcompleted, List.nil_append]⟩

/-- The handler starts the next step. -/
theorem Running.await (h : Running onComplete s) {op : Op} (hop : op.isStep = true) :
    Settled onComplete (s.await op) := by
  obtain ⟨hfinished, hbegun, hpending, hpromise, hcompleted, hcallback⟩ := h
  refine Or.inl ⟨hfinished, ⟨op, ?_, ?_⟩, hpromise, hcompleted, hcallback⟩
  · rw [await_pending, hpending, List.nil_append]
  · rw [hop, await_begun, hbegun]

/-- A progress report ends nothing. -/
theorem Running.progress (h : Running onComplete s) (direction : Direction) (done : ℕ)
    (total : Option ℕ) (last : Bool) (now : Time) :
    Running onComplete (s.progress direction done total last now) := by
  obtain ⟨reportedBytes, reportedAt, progressed, heq⟩ :=
    s.progress_eq direction done total last now
  rw [heq]
  exact h

/-- A failure ends the call or starts the second attempt. -/
theorem Running.fail (h : Running onComplete s) (ec : ErrorCode) (duringWrite : Bool) :
    Settled onComplete (s.fail ec duringWrite) := by
  rcases s.fail_eq ec duringWrite with ⟨error, heq⟩ | ⟨-, -, -, heq⟩
  · rw [heq]
    exact h.finish _
  · rw [heq]
    exact Running.await h rfl

theorem Running.succeed (h : Running onComplete s) (message : Message ρ) :
    Settled onComplete (s.succeed message) := by
  have hreleased : Running onComplete { s with released := s.conn, conn := none } := h
  unfold Call.succeed
  dsimp only
  split
  · exact hreleased.finish _
  · exact h.finish _

theorem Running.readBody (h : Running onComplete s) (message : Message ρ) (now : Time) :
    Settled onComplete (s.readBody message now) := by
  have hdone : Running onComplete { s with downDone := message.bodySize } := h
  unfold Call.readBody
  dsimp only
  split
  · exact (hdone.progress ..).succeed message
  · exact h.await rfl

theorem Running.onBody (h : Running onComplete s) (message : Message ρ) (now : Time) :
    Settled onComplete (s.onBody message now) := by
  have hparsed : Running onComplete
      { s with parser := some (.message message), downDone := message.bodySize } := h
  exact (hparsed.progress ..).readBody message now

theorem Running.onHeader (h : Running onComplete s) (message : Message ρ) (now : Time) :
    Settled onComplete (s.onHeader message now) := by
  have hparsed (downTotal : Option ℕ) : Running onComplete
      { s with parser := some (.message message), downTotal } := h
  exact (hparsed _).readBody message now

theorem Running.readHeader (h : Running onComplete s) : Settled onComplete s.readHeader :=
  Running.await h rfl

/-- The request is complete and the response is read, or the body is written on. -/
theorem Running.writeBody (h : Running onComplete s) (isDone : Bool) (now : Time) :
    Settled onComplete (s.writeBody isDone now) := by
  unfold Call.writeBody
  split
  · split
    · exact (h.progress ..).readHeader
    · exact h.readHeader
  · exact h.await rfl

theorem Running.onWritten (h : Running onComplete s) (n : ℕ) (isDone : Bool) (now : Time) :
    Settled onComplete (s.onWritten n isDone now) := by
  have hwritten : Running onComplete { s with upDone := s.upDone + n } := h
  unfold Call.onWritten
  dsimp only
  split
  · exact (hwritten.progress ..).writeBody isDone now
  · exact hwritten.writeBody isDone now

theorem Running.onConnect (h : Running onComplete s) (sni : Except ErrorCode Unit) :
    Settled onComplete (s.onConnect sni) := by
  unfold Call.onConnect
  split
  · exact h.await rfl
  · split
    · exact h.finish _
    · exact h.await rfl

/-- An aborted call ends here, and another one connects. -/
theorem Running.onResolve (h : Running onComplete s) (conn : κ) :
    Settled onComplete (s.onResolve conn) := by
  unfold Call.onResolve
  split
  · exact h.finish _
  · exact Running.await h rfl

/-- A URL that cannot be parsed ends the call, and another one starts its first step. -/
theorem Running.begin (h : Running onComplete s) (target : Except ErrorCode Target)
    (idle : Option κ) : Settled onComplete (s.begin target idle) := by
  unfold Call.begin
  split
  · exact h.finish _
  · unfold Call.connect
    split
    · exact Running.await h rfl
    · exact Running.await h rfl

/-! ### The events -/

/-- What was outstanding completes: its handler runs, as the first one if it was the start. -/
theorem Settled.complete (h : Settled onComplete s) {op : Op} (hop : op ∈ s.pending) :
    (op.isStep = true → Running onComplete (s.complete op)) ∧
      Running onComplete { s.complete op with begun := true } := by
  rcases h with ⟨hfinished, ⟨op', hpending, hstep⟩, hpromise, hcompleted, hcallback⟩ |
    ⟨-, hpending, -⟩
  · obtain rfl : op = op' := by rwa [hpending, List.mem_singleton] at hop
    have herase : s.pending.erase op = [] := by rw [hpending, List.erase_cons_head]
    exact ⟨fun hop ↦ ⟨hfinished, hstep ▸ hop, herase, hpromise, hcompleted, hcallback⟩,
      hfinished, rfl, herase, hpromise, hcompleted, hcallback⟩
  · rw [hpending] at hop
    exact absurd hop List.not_mem_nil

/-- An abort changes none of it. -/
theorem Settled.abort (h : Settled onComplete s) (why : ClientError) :
    Settled onComplete (s.abort why) := by
  unfold Call.abort
  split
  · exact h
  · exact h

/-- **The step lemma**: every handler leaves one step outstanding, or ends the call. -/
theorem Settled.step (h : Settled onComplete s) {e : Event κ ρ} (he : s.step e = some t) :
    Settled onComplete t := by
  cases e with
  | abort why =>
    obtain rfl := Option.some.inj he
    exact h.abort why
  | begin target idle =>
    obtain ⟨hmem, rfl⟩ := handle_of_step rfl he
    exact (h.complete hmem).2.begin target idle
  | refuse =>
    obtain ⟨hmem, rfl⟩ := handle_of_step rfl he
    exact (h.complete hmem).2.finish _
  | resolved result =>
    obtain ⟨hmem, rfl⟩ := handle_of_step rfl he
    have hrun := (h.complete hmem).1 rfl
    rcases result with ec | conn
    · exact hrun.fail ec false
    · exact hrun.onResolve conn
  | connected result =>
    obtain ⟨hmem, rfl⟩ := handle_of_step rfl he
    have hrun := (h.complete hmem).1 rfl
    rcases result with ec | sni
    · exact hrun.fail ec false
    · exact hrun.onConnect sni
  | handshaken result =>
    obtain ⟨hmem, rfl⟩ := handle_of_step rfl he
    have hrun := (h.complete hmem).1 rfl
    rcases result with ec | _
    · exact hrun.fail ec false
    · exact hrun.await rfl
  | headerWritten result now =>
    obtain ⟨hmem, rfl⟩ := handle_of_step rfl he
    have hrun := (h.complete hmem).1 rfl
    rcases result with ec | isDone
    · exact hrun.fail ec true
    · exact hrun.writeBody isDone now
  | bodyWritten result now =>
    obtain ⟨hmem, rfl⟩ := handle_of_step rfl he
    have hrun := (h.complete hmem).1 rfl
    rcases result with ec | ⟨n, isDone⟩
    · exact hrun.fail ec true
    · exact hrun.onWritten n isDone now
  | headerRead result now =>
    obtain ⟨hmem, rfl⟩ := handle_of_step rfl he
    have hrun := (h.complete hmem).1 rfl
    rcases result with ⟨ec, parser⟩ | message
    · have hparser : Running onComplete { s.complete .readHeader with parser := some parser } :=
        hrun
      exact hparser.fail ec false
    · exact hrun.onHeader message now
  | bodyRead result now =>
    obtain ⟨hmem, rfl⟩ := handle_of_step rfl he
    have hrun := (h.complete hmem).1 rfl
    rcases result with ec | message
    · exact hrun.fail ec false
    · exact hrun.onBody message now

theorem Settled.pending_eq_nil (h : Settled onComplete s) (hfinished : s.finished = true) :
    s.pending = [] := by
  rcases h with ⟨hrunning, -⟩ | ⟨-, hpending, -⟩
  · exact absurd (hrunning.symm.trans hfinished) Bool.false_ne_true
  · exact hpending

/-- Nothing happens to a call that is over. -/
theorem Settled.eq_of_finished (h : Settled onComplete s) (hfinished : s.finished = true)
    {e : Event κ ρ} (he : s.step e = some t) : t = s := by
  cases hop : e.op with
  | some op =>
    obtain ⟨hmem, -⟩ := handle_of_step hop he
    rw [h.pending_eq_nil hfinished] at hmem
    exact absurd hmem List.not_mem_nil
  | none =>
    cases e with
    | abort why =>
      obtain rfl := Option.some.inj he
      show s.abort why = s
      rw [Call.abort, hfinished, Bool.true_or, if_pos rfl]
    | _ => cases hop

/-- **The run lemma**, from send() on. -/
theorem Settled.reachable (h : (machine κ ρ onComplete).Reachable s) : Settled onComplete s := by
  refine Machine.Reachable.invariant (fun s hs ↦ ?_) (fun s e t hs he ↦ hs.step he) h
  obtain ⟨method, bodySize, onProgress, closed, rfl⟩ := hs
  exact Or.inl ⟨rfl, ⟨_, rfl, by cases closed <;> rfl⟩, rfl, rfl, rfl⟩

/-- Exactly once: until the call is over one step is outstanding for it, or the dispatch of send();
then none is, and the promise was set once, and onComplete called once if there is one. -/
def CompletesOnce (onComplete : Bool) (s : Call κ ρ) : Prop :=
  (s.finished = false →
    (∃ op, s.pending = [op] ∧ (op.isStep = true ↔ s.begun = true)) ∧
      s.promise = [] ∧ s.completed = []) ∧
  (s.finished = true → s.pending = [] ∧
    ∃ result, s.promise = [result] ∧ s.completed = if onComplete then [result] else [])

/-- Between two handlers the call is completed exactly once. -/
theorem Settled.completesOnce (h : Settled onComplete s) : CompletesOnce onComplete s := by
  rcases h with ⟨hfinished, ⟨op, hpending, hstep⟩, hpromise, hcompleted, -⟩ |
    ⟨hfinished, hpending, result, hpromise, hcompleted⟩
  · exact ⟨fun _ ↦ ⟨⟨op, hpending, by rw [hstep]⟩, hpromise, hcompleted⟩,
      fun hf ↦ absurd (hfinished.symm.trans hf) Bool.false_ne_true⟩
  · exact ⟨fun hf ↦ absurd (hf.symm.trans hfinished) Bool.false_ne_true,
      fun _ ↦ ⟨hpending, result, hpromise, hcompleted⟩⟩

end Call

/-! ### Exceptions -/

/-- What begin() builds the message from. -/
structure Request where
  method : Verb
  /-- The size of the body. -/
  bodySize : ℕ
  /-- The sizes of the names and of the values, without the blanks around them, of the header
  fields: Host, User-Agent, and those of the request. -/
  fields : List (ℕ × ℕ) := []
  deriving DecidableEq, Repr

/-- Whether Boost.Beast throws for the message: `set` does for a name or a value longer than
`limit`, and `prepare_payload` does for a TRACE request with a body. -/
def Request.throws (limit : ℕ) (r : Request) : Bool :=
  r.fields.any (fun field ↦ decide (limit < field.1 ∨ limit < field.2)) ||
    (r.method == .trace && r.bodySize != 0)

/-- The event in which begin() builds the message: parseUrl() has accepted the URL. -/
def Event.builds : Event κ ρ → Bool
  | .begin (.ok _) _ => true
  | _ => false

/-- A call with its request and with the process it is made in. -/
structure Hosted (κ : Type u) (ρ : Type v) where
  request : Request
  call : Call κ ρ
  /-- An exception has left begin(), on a thread of the client that has no handler for it:
  `std::terminate` was called. -/
  terminated : Bool := false

namespace Hosted

open Call

variable {limit : ℕ} {s t : Hosted κ ρ} {e : Event κ ρ}

/-- Whether begin() throws. -/
def throws (limit : ℕ) (s : Hosted κ ρ) (e : Event κ ρ) : Bool :=
  e.builds && s.request.throws limit

/-- An exception leaves begin(): nothing was started, and the process ends. -/
def terminate (s : Hosted κ ρ) : Hosted κ ρ :=
  { s with call := { s.call.complete .start with begun := true }, terminated := true }

/-- One event of a call. -/
def step (limit : ℕ) (s : Hosted κ ρ) (e : Event κ ρ) : Option (Hosted κ ρ) :=
  if s.terminated then
    none
  else if s.throws limit e then
    if .start ∈ s.call.pending then some s.terminate else none
  else
    (s.call.step e).map fun call ↦ { s with call }

/-- A call from send() on, on an open or a closed client; a name or a value of a header field may be
`limit` bytes long. -/
def machine (κ : Type u) (ρ : Type v) (limit : ℕ) (onComplete : Bool) :
    Machine (Hosted κ ρ) (Event κ ρ) where
  Init s := ∃ (request : Request) (onProgress closed : Bool), s =
    { request
      call :=
        { method := request.method, bodySize := request.bodySize, onProgress, onComplete
          pending := [if closed then .refuse else .start] } }
  step := step limit

/-- An event either ends the process or is one of the call. -/
theorem step_cases (h : s.step limit e = some t) :
    s.terminated = false ∧
      (s.throws limit e = true ∧ .start ∈ s.call.pending ∧ t = s.terminate ∨
        s.throws limit e = false ∧ ∃ call, s.call.step e = some call ∧ t = { s with call }) := by
  rw [step] at h
  split at h
  · exact absurd h.symm (Option.some_ne_none t)
  next hlive =>
  refine ⟨Bool.eq_false_iff.2 hlive, ?_⟩
  split at h
  · next hthrows =>
    obtain ⟨hstart, h⟩ := Option.ite_none_right_eq_some.1 h
    exact .inl ⟨hthrows, hstart, (Option.some.inj h).symm⟩
  · next hthrows =>
    obtain ⟨call, hcall, rfl⟩ := Option.map_eq_some_iff.1 h
    exact .inr ⟨Bool.eq_false_iff.2 hthrows, call, hcall, rfl⟩

/-- Where begin() throws the call is left with nothing outstanding and without a result. -/
theorem not_completesOnce_terminate (h : Settled onComplete s.call)
    (hstart : .start ∈ s.call.pending) : ¬ CompletesOnce onComplete s.terminate.call := by
  intro honce
  rcases h with ⟨hfinished, ⟨op, hpending, -⟩, -⟩ | ⟨-, hpending, -⟩
  · obtain ⟨op', hpending', -⟩ := (honce.1 hfinished).1
    obtain rfl : .start = op := by rwa [hpending, List.mem_singleton] at hstart
    have hnone : s.terminate.call.pending = [] := by
      show s.call.pending.erase .start = []
      rw [hpending, List.erase_cons_head]
    exact absurd (hnone.symm.trans hpending') (List.cons_ne_nil _ _).symm
  · rw [hpending] at hstart
    exact absurd hstart List.not_mem_nil

/-- A process that has ended does nothing. -/
theorem eq_of_terminated (h : s.terminated = true) {es : List (Event κ ρ)}
    (hrun : (machine κ ρ limit onComplete).run s es = some t) : es = [] ∧ t = s := by
  cases es with
  | nil => exact ⟨rfl, (Option.some.inj hrun).symm⟩
  | cons e es =>
    obtain ⟨u, hstep, -⟩ := Option.bind_eq_some_iff.1 hrun
    exact absurd (h.symm.trans (step_cases hstep).1) Bool.false_ne_true.symm

/-- Between two events of a call that has not ended the process. -/
theorem completesOnce_run (hlive : s.terminated = false) (hsettled : Settled onComplete s.call)
    {es : List (Event κ ρ)} (hrun : (machine κ ρ limit onComplete).run s es = some t) :
    CompletesOnce onComplete t.call ↔ ∀ e ∈ es, s.throws limit e = false := by
  induction es generalizing s with
  | nil =>
    obtain rfl := Option.some.inj hrun
    exact iff_of_true hsettled.completesOnce (List.forall_mem_nil _)
  | cons e es ih =>
    obtain ⟨u, hstep, hrest⟩ := Option.bind_eq_some_iff.1 hrun
    rw [List.forall_mem_cons]
    obtain ⟨-, ⟨hthrows, hstart, rfl⟩ | ⟨hthrows, call, hcall, rfl⟩⟩ := step_cases hstep
    · obtain ⟨-, rfl⟩ := eq_of_terminated rfl hrest
      refine iff_of_false (not_completesOnce_terminate hsettled hstart) fun hall ↦ ?_
      exact Bool.false_ne_true (hall.1.symm.trans hthrows)
    · have hafter : Settled onComplete call := hsettled.step hcall
      have htail := @ih { s with call } hlive hafter hrest
      rw [htail, and_iff_right hthrows]
      exact Iff.rfl

/-- **Exactly once**: however its steps complete, the call is completed exactly once, and never left
with nothing outstanding before that, if and only if begin() has not thrown. -/
theorem completes_once_iff {s₀ s : Hosted κ ρ} {es : List (Event κ ρ)}
    (hnew : (machine κ ρ limit onComplete).Init s₀)
    (hrun : (machine κ ρ limit onComplete).run s₀ es = some s) :
    CompletesOnce onComplete s.call ↔
      ((∃ e ∈ es, e.builds = true) → s₀.request.throws limit = false) := by
  obtain ⟨request, onProgress, closed, rfl⟩ := hnew
  rw [completesOnce_run rfl (Settled.reachable (.init ⟨_, _, _, closed, rfl⟩)) hrun]
  constructor
  · rintro hall ⟨e, he, hbuilds⟩
    have hthrows := hall e he
    rwa [throws, hbuilds, Bool.true_and] at hthrows
  · intro hcond e he
    rw [throws]
    cases hbuilds : e.builds with
    | false => rfl
    | true => exact hcond ⟨e, he, hbuilds⟩

/-- A GET without a body and with an onComplete callback, as send() makes it. -/
def plainGet : Hosted Unit Unit where
  request := ⟨.get, 0, [(4, 9), (10, 9)]⟩
  call := { method := .get, bodySize := 0 }

/-- It fails on a kept-alive connection, is cancelled too late, and succeeds on a new one. -/
def secondAttempt : List (Event Unit Unit) :=
  [.begin (.ok ⟨[], false⟩) (some ()), .headerWritten (.error (.other 32)) 0, .resolved (.ok ()),
    .connected (.ok (.ok ())), .headerWritten (.ok true) 0,
    .headerRead (.ok ⟨(), true, some 0, 0, true⟩) 0, .abort .cancelled]

theorem completes_once_iff_secondAttempt :
    ∃ s, (machine Unit Unit 65533 true).run plainGet secondAttempt = some s ∧
      s.call.finished = true ∧ s.call.pending = [] ∧
        ∃ result, s.call.promise = [result] ∧ s.call.completed = [result] := by
  obtain ⟨s, hrun, hfinished⟩ : ∃ s,
      (machine Unit Unit 65533 true).run plainGet secondAttempt = some s ∧
        s.call.finished = true := ⟨_, rfl, rfl⟩
  have honce := (completes_once_iff ⟨plainGet.request, false, false, rfl⟩ hrun).2 fun _ ↦ rfl
  exact ⟨s, hrun, hfinished, honce.2 hfinished⟩

/-- A TRACE request with a body of five bytes. -/
def traceWithBody : Hosted Unit Unit where
  request := ⟨.trace, 5, [(4, 9), (10, 9)]⟩
  call := { method := .trace, bodySize := 5 }

/-- begin() throws for it: the call is never completed. -/
theorem trace_never_completes :
    ¬ ∀ s, (machine Unit Unit 65533 true).Reachable s → CompletesOnce true s.call := by
  intro h
  obtain ⟨s, hrun⟩ : ∃ s, (machine Unit Unit 65533 true).run traceWithBody
      [.begin (.ok ⟨[], false⟩) none] = some s := ⟨_, rfl⟩
  have honce := h s (Machine.run_reachable _ ⟨traceWithBody.request, false, false, rfl⟩ hrun)
  obtain rfl := Option.some.inj hrun
  obtain ⟨op, hpending, -⟩ := (honce.1 rfl).1
  cases hpending

end Hosted

end CppGate.HttpClient
