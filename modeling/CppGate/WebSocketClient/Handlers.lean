import CppGate.WebSocketClient.EventGrammar

/-!
# What a handler does

Everything that could try again goes through `attempt` and `scheduleRetry`, and the continuations of
a pending step, of a read, of a close and of the retry timer all end there. This says once what any
of them may do to the connection it finds (`Handled`): it begins a resolve, reports an error or goes
to a state that tries again only where no close was requested, and it closes with a code of its own
only where an upgrade finds that a close was.
-/

namespace CppGate.WebSocketClient

open CppGate.WebSocketSession (CloseCode Message)

/-! ### The relation -/

/-- The events that report a failure or a retry. -/
def Event.isReport : Event → Bool
  | .onError _ | .onReconnecting _ _ => true
  | _ => false

/-- The states that an attempt follows. -/
def ConnectionState.mayAttempt : ConnectionState → Bool
  | .idle | .waiting => true
  | _ => false

/-- Which operations a handler may begin, if it may close with the given codes. -/
def Allowed (codes : List CloseCode) (s : Connection) : Operation → Prop
  | .resolve _ => s.stopRequested = false
  | .close _ code => code ∈ codes
  | _ => True

/-- What a handler may do to the connection it finds, if it may report the given errors and close
with the given codes. -/
structure Handled (errors : List ErrorCode) (codes : List CloseCode) (s t : Connection) :
    Prop where
  stopRequested : t.stopRequested = s.stopRequested
  mayAttempt : t.state.mayAttempt = true → s.state.mayAttempt = true ∨ s.stopRequested = false
  closing : t.state = .closing → s.state = .closing ∨ codes ≠ []
  operations : ∃ begun, t.operations = begun ++ s.operations ∧
    ∀ operation ∈ begun, Allowed codes s operation
  delivered : ∃ events, t.delivered = s.delivered ++ events ∧
    ∀ event ∈ events, event.isReport = true → s.stopRequested = false ∧
      ∀ ec, event = .onError ec → ec = .gaveUp ∨ ec ∈ errors

namespace Handled

variable {errors : List ErrorCode} {codes : List CloseCode} {s t u : Connection}

theorem trans (h : Handled errors codes s t) (h' : Handled errors codes t u) :
    Handled errors codes s u := by
  obtain ⟨begun, hbegun, hallowed⟩ := h.operations
  obtain ⟨begun', hbegun', hallowed'⟩ := h'.operations
  obtain ⟨events, hevents, hreport⟩ := h.delivered
  obtain ⟨events', hevents', hreport'⟩ := h'.delivered
  have hstop := h.stopRequested
  refine ⟨h'.stopRequested.trans hstop, fun hu ↦ ?_, fun hu ↦ ?_,
    ⟨begun' ++ begun, ?_, fun operation hop ↦ ?_⟩, ⟨events ++ events', ?_, fun event he hr ↦ ?_⟩⟩
  · rcases h'.mayAttempt hu with ht | ht
    · exact h.mayAttempt ht
    · exact Or.inr (hstop ▸ ht)
  · exact (h'.closing hu).elim h.closing Or.inr
  · rw [hbegun', hbegun, List.append_assoc]
  · rcases List.mem_append.1 hop with hop | hop
    · have hthere := hallowed' operation hop
      cases operation with
      | resolve gen => exact hstop.symm.trans hthere
      | _ => exact hthere
    · exact hallowed operation hop
  · rw [hevents', hevents, List.append_assoc]
  · rcases List.mem_append.1 he with he | he
    · exact hreport event he hr
    · exact hstop ▸ hreport' event he hr

/-- A change of other fields. -/
theorem of_eq (hstop : t.stopRequested = s.stopRequested)
    (hmay : t.state.mayAttempt = true → s.state.mayAttempt = true ∨ s.stopRequested = false)
    (hclosing : t.state = .closing → s.state = .closing ∨ codes ≠ [])
    (hops : t.operations = s.operations) (hdelivered : t.delivered = s.delivered) :
    Handled errors codes s t :=
  ⟨hstop, hmay, hclosing, ⟨[], hops, fun _ h ↦ absurd h List.not_mem_nil⟩,
    ⟨[], hdelivered.trans (List.append_nil _).symm, fun _ h ↦ absurd h List.not_mem_nil⟩⟩

theorem refl : Handled errors codes s s :=
  of_eq rfl Or.inl Or.inl rfl rfl

variable (h : Handled errors codes s t)
include h

theorem stop : Handled errors codes s (stop t) :=
  h.trans (of_eq rfl (absurd · Bool.false_ne_true) ConnectionState.noConfusion rfl rfl)

/-- An operation begins that is allowed in the state. -/
theorem begin {operation : Operation} (hop : Allowed codes t operation) :
    Handled errors codes s (t.begin operation) :=
  h.trans ⟨rfl, Or.inl, Or.inl,
    ⟨[operation], rfl, fun _ h ↦ List.mem_singleton.1 h ▸ hop⟩,
    ⟨[], (List.append_nil _).symm, fun _ h ↦ absurd h List.not_mem_nil⟩⟩

theorem read (gen : ℕ) : Handled errors codes s (read t gen) :=
  h.begin trivial

/-- An event is delivered, and a report only while no stop was requested. -/
theorem emit {e : Event} (hreport : e.isReport = true → t.stopRequested = false ∧
    ∀ ec, e = .onError ec → ec = .gaveUp ∨ ec ∈ errors) :
    Handled errors codes s (emit t e) := by
  refine h.trans ⟨rfl, Or.inl, Or.inl, ⟨[], rfl, fun _ h ↦ absurd h List.not_mem_nil⟩,
    ⟨[e].filter t.callbacks.wants, rfl, fun event hevent hr ↦ ?_⟩⟩
  obtain rfl := List.mem_singleton.1 (List.mem_of_mem_filter hevent)
  exact hreport hr

theorem emitError {ec : ErrorCode} (hstop : t.stopRequested = false)
    (hec : ec = .gaveUp ∨ ec ∈ errors) :
    Handled errors codes s (WebSocketClient.emit t (.onError ec)) :=
  h.emit fun _ ↦ ⟨hstop, fun _ h ↦ Event.onError.inj h ▸ hec⟩

theorem attempt : Handled errors codes s (attempt t) := by
  rw [WebSocketClient.attempt]
  split
  · exact h.stop
  · next hgo =>
    have hstop : t.stopRequested = false := (Bool.or_eq_false_iff.1 (Bool.eq_false_iff.2 hgo)).1
    have hconnecting : Handled errors codes t
        { t with state := .connecting, generation := Word.add 32 t.generation 1 } :=
      of_eq rfl (absurd · Bool.false_ne_true) ConnectionState.noConfusion rfl rfl
    exact (h.trans hconnecting).begin hstop

/-- scheduleRetry() reports nothing but the announcement, or that it gives up. -/
theorem scheduleRetry (cfg : Config) (c : Completion) :
    Handled errors codes s (scheduleRetry cfg t c) := by
  rw [WebSocketClient.scheduleRetry]
  split
  · exact h.stop
  next hgo =>
  have hstop : t.stopRequested = false := by
    rw [Bool.or_eq_true, Bool.or_eq_true] at hgo
    exact Bool.eq_false_iff.2 fun h ↦ hgo (Or.inl (Or.inr h))
  have hfailures : Handled errors codes t { t with failures := Word.add 32 t.failures 1 } :=
    of_eq rfl Or.inl Or.inl rfl rfl
  dsimp only
  split
  · exact ((h.trans hfailures).emitError hstop (Or.inl rfl)).stop
  · have hwaiting : Handled errors codes t
        { t with failures := Word.add 32 t.failures 1, state := .waiting } :=
      of_eq rfl (fun _ ↦ Or.inr hstop) ConnectionState.noConfusion rfl rfl
    exact ((h.trans hwaiting).emit fun _ ↦ ⟨hstop, fun _ h ↦ Event.noConfusion h⟩).begin
      trivial

theorem attemptFailed (cfg : Config) (c : Completion) {ec : ErrorCode} (hec : ec ∈ errors) :
    Handled errors codes s (attemptFailed cfg t ec c) := by
  rw [WebSocketClient.attemptFailed]
  split
  · exact h.stop
  · next hgo => exact (h.emitError (Bool.eq_false_iff.2 hgo) (Or.inr hec)).scheduleRetry cfg c

theorem closed (cfg : Config) (code : CloseCode) (c : Completion) :
    Handled errors codes s (closed cfg t code c) := by
  have hcleared : Handled errors codes t { t with
      connected := false
      pending := Word.sub 64 t.pending t.writeQueue.length
      writeQueue := [] } := of_eq rfl Or.inl Or.inl rfl rfl
  have hclosed := (h.trans hcleared).emit (e := .onClose code) (absurd · Bool.false_ne_true)
  rw [WebSocketClient.closed]
  split
  · exact hclosed.stop
  · exact hclosed.scheduleRetry cfg c

theorem finishOwnClose (cfg : Config) (c : Completion) :
    Handled errors codes s (finishOwnClose cfg t c) := by
  rw [WebSocketClient.finishOwnClose]
  split <;> exact h.closed cfg _ c

theorem ended (cfg : Config) (c : Completion) {ec : ErrorCode} (hec : ec ∈ errors) :
    Handled errors codes s (ended cfg t ec c) := by
  rw [WebSocketClient.ended]
  split
  · have hdone : Handled errors codes s { t with readDone := true } :=
      h.trans (of_eq rfl Or.inl Or.inl rfl rfl)
    dsimp only
    split
    · exact hdone.finishOwnClose cfg c
    · exact hdone
  split
  · exact h.closed cfg _ c
  split
  · next hreport =>
    rw [Bool.not_eq_true'] at hreport
    exact (h.emitError hreport.1 (Or.inr hec)).closed cfg _ c
  · exact h.closed cfg _ c

/-- A message is delivered, or the connection ends. -/
theorem onRead (cfg : Config) (gen : ℕ) (c : Completion)
    (hec : ∀ ec, c.ec = some ec → ec ∈ errors) : Handled errors codes s (onRead cfg t gen c) := by
  rw [WebSocketClient.onRead]
  split
  · next ec hc => exact h.ended cfg c (hec ec hc)
  · have hmessage := h.emit (e := .onMessage c.message) (absurd · Bool.false_ne_true)
    exact hmessage.read gen

theorem onClosed (cfg : Config) (c : Completion) : Handled errors codes s (onClosed cfg t c) := by
  have hdone : Handled errors codes s { t with closeDone := true, closeResult := c.ec } :=
    h.trans (of_eq rfl Or.inl Or.inl rfl rfl)
  rw [WebSocketClient.onClosed]
  split
  · exact hdone.finishOwnClose cfg c
  · exact hdone

theorem onConnect (cfg : Config) (gen : ℕ) (c : Completion)
    (hsni : ∀ ec, c.sni = some ec → ec ∈ errors) :
    Handled errors codes s (onConnect cfg t gen c) := by
  rw [WebSocketClient.onConnect]
  split
  · exact h.begin trivial
  split
  · next ec hc => exact h.attemptFailed cfg c (hsni ec hc)
  · exact h.begin trivial

theorem closeOpen {code : CloseCode} (hcode : code ∈ codes) :
    Handled errors codes s (closeOpen t code) := by
  have hclosing : Handled errors codes s { t with state := .closing, requestedCode := code } :=
    h.trans (of_eq rfl (absurd · Bool.false_ne_true) (fun _ ↦ Or.inr (List.ne_nil_of_mem hcode))
      rfl rfl)
  exact hclosing.begin hcode

theorem attemptStep (cfg : Config) (c : Completion) {next : Connection}
    (hec : ∀ ec, c.ec = some ec → ec ∈ errors) (hnext : Handled errors codes s next) :
    Handled errors codes s (attemptStep cfg t c next) := by
  rw [WebSocketClient.attemptStep]
  split
  · next ec hc => exact h.attemptFailed cfg c (hec ec hc)
  · exact hnext

end Handled

/-- What a completion may have reported, apart from the client's giving up. -/
def reported (c : Completion) : Operation → List ErrorCode
  | .upgrade _ => if c.ec = some .upgradeDeclined then [.upgradeRejected] else c.ec.toList
  | .connect _ => c.ec.toList ++ c.sni.toList
  | _ => c.ec.toList

/-- The codes that a completion may close with: only an upgrade that opens the connection, and finds
that a close was requested, does. -/
def closedWith (s : Connection) (c : Completion) : Operation → List CloseCode
  | .upgrade gen =>
    if stale s gen = false ∧ c.ec = none ∧ s.stopRequested = true then [CloseCode.normal] else []
  | _ => []

variable {cfg : Config} {s : Connection}

/-- The upgrade is done: it may close with the code that was asked for. -/
theorem handled_onUpgrade {gen : ℕ} (c : Completion) (hfresh : stale s gen = false) :
    Handled (reported c (.upgrade gen)) (closedWith s c (.upgrade gen)) s
      (onUpgrade cfg s gen c) := by
  rw [onUpgrade]
  split
  · next hc =>
    have hstatus : Handled (reported c (.upgrade gen)) (closedWith s c (.upgrade gen)) s
        { s with upgradeStatus := c.status } := Handled.of_eq rfl Or.inl Or.inl rfl rfl
    have hreported : ErrorCode.upgradeRejected ∈ reported c (.upgrade gen) := by
      rw [reported, if_pos hc]
      exact List.mem_singleton_self _
    dsimp only
    split
    · exact hstatus.stop
    · next hgo => exact (hstatus.emitError (Bool.eq_false_iff.2 hgo) (Or.inr hreported)).stop
  · next ec hne hc =>
    have hreported : ec ∈ reported c (.upgrade gen) := by
      rw [reported, hc, if_neg fun h ↦ hne (Option.some.inj h)]
      exact List.mem_singleton_self ec
    exact Handled.refl.attemptFailed cfg c hreported
  · next hc =>
    have hopened : Handled (reported c (.upgrade gen)) (closedWith s c (.upgrade gen)) s { s with
        protocol := c.subprotocol
        upgradeStatus := 0
        failures := 0
        state := .opened
        connected := true } :=
      Handled.of_eq rfl (absurd · Bool.false_ne_true) ConnectionState.noConfusion rfl rfl
    have hopen := hopened.emit (e := .onOpen) (absurd · Bool.false_ne_true)
    dsimp only
    split
    · next hstop =>
      have hcode : CloseCode.normal ∈ closedWith s c (.upgrade gen) := by
        rw [closedWith, if_pos ⟨hfresh, hc, hstop⟩]
        exact List.mem_singleton_self _
      exact (hopen.read gen).closeOpen hcode
    · exact hopen.read gen

/-- **What a completion does**: a resolve, a report and a state that tries again only where no close
was requested. -/
theorem handled_handle (cfg : Config) (s : Connection) (c : Completion) (operation : Operation) :
    Handled (reported c operation) (closedWith s c operation) s (handle cfg s c operation) := by
  have hec (ec : ErrorCode) (hc : c.ec = some ec) : ec ∈ c.ec.toList := Option.mem_toList.2 hc
  cases operation with
  | resolve gen =>
    rw [handle]
    split
    · exact .refl
    · exact Handled.refl.attemptStep cfg c hec (Handled.refl.begin trivial)
  | connect gen =>
    have hsni (ec : ErrorCode) (hc : c.sni = some ec) : ec ∈ reported c (.connect gen) :=
      List.mem_append_right _ (Option.mem_toList.2 hc)
    rw [handle]
    split
    · exact .refl
    · exact Handled.refl.attemptStep cfg c (fun ec hc ↦ List.mem_append_left _ (hec ec hc))
        (Handled.refl.onConnect cfg gen c hsni)
  | tlsHandshake gen =>
    rw [handle]
    split
    · exact .refl
    · exact Handled.refl.attemptStep cfg c hec (Handled.refl.begin trivial)
  | upgrade gen =>
    rw [handle]
    split
    · exact .refl
    · next hfresh => exact handled_onUpgrade c (Bool.eq_false_iff.2 hfresh)
  | read gen =>
    rw [handle]
    split
    · exact .refl
    · exact Handled.refl.onRead cfg gen c hec
  | close gen code =>
    rw [handle]
    split
    · exact .refl
    · exact Handled.refl.onClosed cfg c
  | retryTimer =>
    rw [handle, onRetryTimer]
    split
    · exact .refl
    · exact Handled.refl.attempt

/-! ### What a step begins -/

/-- The operations that a step begins. -/
def begun (s : Connection) (action : Action) (t : Connection) : List Operation :=
  match action with
  | .complete operation _ => t.operations.diff (s.operations.erase operation)
  | _ => t.operations.diff s.operations

/-- What was added to a list is what it has beyond the rest. -/
theorem mem_diff_iff {operations rest begun : List Operation} {operation : Operation}
    (hops : operations = begun ++ rest) : operation ∈ operations.diff rest ↔ operation ∈ begun := by
  rw [hops, ← List.count_pos_iff, List.count_diff, List.count_append, Nat.add_sub_cancel,
    List.count_pos_iff]

/-- Only a completion begins operations. -/
theorem not_mem_begun {t : Connection} {action : Action}
    (hcomplete : ∀ operation c, action ≠ .complete operation c)
    (hops : t.operations = s.operations) (operation : Operation) :
    operation ∉ begun s action t := by
  have hdiff : begun s action t = t.operations.diff s.operations := by
    cases action with
    | complete operation c => exact absurd rfl (hcomplete operation c)
    | _ => rfl
  rw [hdiff, mem_diff_iff (hops.trans (List.nil_append _).symm)]
  exact List.not_mem_nil

end CppGate.WebSocketClient
