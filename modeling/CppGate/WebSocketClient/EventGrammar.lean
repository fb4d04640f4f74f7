import CppGate.WebSocketClient.Connection

/-!
# The event grammar of a client connection

In which order the callbacks of a connection come. The grammar is an automaton with two states —
between an onOpen and its onClose, and not — and a run of the connection keeps the automaton's state
equal to what its own state says: `opened` and `closing` are the states between the two.

What carries the induction is which operations are outstanding in each state (`Outstanding`). While
a connection is closing, the read and the close may both be outstanding, and the one that finishes
last reports the end; in no other state is there more than one. So a handler that is not stale
always runs in the state it was written for, and exactly one of them delivers onClose.
-/

namespace CppGate.WebSocketClient

open CppGate.WebSocketSession (CloseCode Message)

/-! ### The grammar -/

/-- Whether a connection is open after an event, given whether it was before. No result where the
event may not come: a second onOpen, an onClose or an onMessage without an onOpen, or onReconnecting
before the onClose. -/
def afterEvent : Bool → Event → Option Bool
  | false, .onOpen => some true
  | true, .onClose _ => some false
  | true, .onMessage _ => some true
  | false, .onReconnecting _ _ => some false
  | isOpen, .onError _ => some isOpen
  | _, _ => none

/-- Whether a connection is open after a sequence of events, starting closed. No result where the
sequence is not in the grammar. -/
def openAfter (events : List Event) : Option Bool :=
  events.foldlM afterEvent false

/-- The grammar goes on event by event. -/
theorem openAfter_snoc {events : List Event} {b b' : Bool} {event : Event}
    (h : openAfter events = some b) (he : afterEvent b event = some b') :
    openAfter (events ++ [event]) = some b' := by
  unfold openAfter at h ⊢
  rw [List.foldlM_append, h, Option.bind_eq_bind, Option.bind_some, List.foldlM_cons, he]
  rfl

/-- The states between onOpen and onClose. -/
def ConnectionState.isOpen : ConnectionState → Bool
  | .opened | .closing => true
  | _ => false

/-- The delivered events are those of a sequence in the grammar whose callbacks are set. -/
def Traced (callbacks : Callbacks) (isOpen : Bool) (delivered : List Event) : Prop :=
  ∃ events, delivered = events.filter callbacks.wants ∧ openAfter events = some isOpen

/-- An event that the grammar allows is delivered, if its callback is set. -/
theorem Traced.snoc {callbacks : Callbacks} {b b' : Bool} {delivered : List Event} {event : Event}
    (h : Traced callbacks b delivered) (he : afterEvent b event = some b') :
    Traced callbacks b' (delivered ++ [event].filter callbacks.wants) := by
  obtain ⟨events, rfl, hopen⟩ := h
  exact ⟨events ++ [event], (List.filter_append ..).symm, openAfter_snoc hopen he⟩

/-! ### The invariant -/

/-- The operations of a connection that is closing itself. -/
def ownClose (s : Connection) : List Operation :=
  (if s.readDone then [] else [.read s.generation]) ++
    if s.closeDone then [] else [.close s.generation s.requestedCode]

/-- What is outstanding in each state, and when a stop was requested. -/
def Outstanding (s : Connection) : ConnectionState → Prop
  | .idle => s.operations = []
  | .connecting =>
    s.operations = [.resolve s.generation] ∨ s.operations = [.connect s.generation] ∨
      s.operations = [.tlsHandshake s.generation] ∨ s.operations = [.upgrade s.generation]
  | .opened => s.operations = [.read s.generation] ∧ s.stopRequested = false
  | .closing =>
    s.operations.Perm (ownClose s) ∧ ¬(s.readDone ∧ s.closeDone) ∧ s.stopRequested = true
  | .waiting => s.operations = [] ∨ s.operations = [.retryTimer]
  | .stopped => True

/-- Neither of the two operations of an own close is done. -/
def Undone (s : Connection) : Prop :=
  s.readDone = false ∧ s.closeDone = false

/-- The invariant of a connection. -/
structure Inv (cfg : Config) (s : Connection) : Prop where
  outstanding : Outstanding s s.state
  undone : s.state = .closing ∨ s.state = .stopped ∨ Undone s
  callbacks : s.callbacks = if s.state = .stopped then {} else cfg.callbacks
  starting : s.starting = true → s.state = .idle ∨ s.state = .stopped ∧ s.stopRequested = true
  traced : Traced cfg.callbacks s.state.isOpen s.delivered

/-- A handler is running: the callbacks are set, and the events leave the connection open or not. -/
def Live (cfg : Config) (isOpen : Bool) (s : Connection) : Prop :=
  s.callbacks = cfg.callbacks ∧ Traced cfg.callbacks isOpen s.delivered

/-- Nothing is outstanding. -/
def Quiet (s : Connection) : Prop :=
  s.operations = [] ∧ Undone s ∧ s.starting = false

/-- **An event that the grammar allows** leads from one live state to another. -/
theorem Live.emit {cfg : Config} {b b' : Bool} {s : Connection}
    (h : Live cfg b s) (event : Event) (he : afterEvent b event = some b') :
    Live cfg b' (emit s event) := by
  obtain ⟨hcallbacks, htraced⟩ := h
  refine ⟨hcallbacks, ?_⟩
  show Traced _ _ (s.delivered ++ [event].filter s.callbacks.wants)
  rw [hcallbacks]
  exact htraced.snoc he

/-- What a handler that runs in a state other than `stopped` may rely on. -/
theorem Inv.live {cfg : Config} {s : Connection} (h : Inv cfg s) {state : ConnectionState}
    (hs : s.state = state) (hne : state ≠ .stopped) : Live cfg state.isOpen s := by
  refine ⟨?_, hs ▸ h.traced⟩
  rw [h.callbacks, hs, if_neg hne]

variable {cfg : Config}

/-! ### The functions of an attempt -/

/-- Stopping a connection that is not open. -/
theorem inv_stop {s : Connection} (htraced : Traced cfg.callbacks false s.delivered)
    (hstarting : s.starting = true → s.stopRequested = true) : Inv cfg (stop s) where
  outstanding := trivial
  undone := Or.inr (Or.inl rfl)
  callbacks := (if_pos rfl).symm
  starting := fun h ↦ Or.inr ⟨rfl, hstarting h⟩
  traced := htraced

theorem Quiet.starting_imp {s : Connection} (h : Quiet s) :
    s.starting = true → s.stopRequested = true := fun hs ↦ by
  rw [h.2.2] at hs
  exact absurd hs Bool.false_ne_true

/-- In a state that is neither closing nor stopped, the invariant is about what is outstanding. -/
theorem inv_of_live {s : Connection} (hlive : Live cfg s.state.isOpen s)
    (hout : Outstanding s s.state) (hundone : Undone s) (hstarting : s.starting = false)
    (hs : s.state ≠ .stopped) : Inv cfg s where
  outstanding := hout
  undone := Or.inr (Or.inr hundone)
  callbacks := by rw [if_neg hs, hlive.1]
  starting := fun h ↦ by
    rw [hstarting] at h
    exact absurd h Bool.false_ne_true
  traced := hlive.2

theorem inv_attempt {s : Connection} (hlive : Live cfg false s) (hquiet : Quiet s) :
    Inv cfg (attempt s) := by
  unfold attempt
  split
  · exact inv_stop hlive.2 hquiet.starting_imp
  · obtain ⟨hops, hundone, hstarting⟩ := hquiet
    refine inv_of_live (s := Connection.begin _ _) hlive (Or.inl ?_) hundone hstarting nofun
    show Operation.resolve _ :: s.operations = _
    rw [hops]
    rfl

/-- scheduleRetry() waits, or stops. -/
theorem inv_scheduleRetry {s : Connection} (c : Completion) (hlive : Live cfg false s)
    (hquiet : Quiet s) : Inv cfg (scheduleRetry cfg s c) := by
  unfold scheduleRetry
  split
  · exact inv_stop hlive.2 hquiet.starting_imp
  have hlive' : Live cfg false { s with failures := Word.add 32 s.failures 1 } := hlive
  have hquiet' : Quiet { s with failures := Word.add 32 s.failures 1 } := hquiet
  dsimp only
  split
  · exact inv_stop (hlive'.emit _ rfl).2 hquiet'.starting_imp
  · obtain ⟨hops, hundone, hstarting⟩ := hquiet
    have hwaiting : Live cfg false
        { s with failures := Word.add 32 s.failures 1, state := .waiting } := hlive
    refine inv_of_live (s := Connection.begin _ _) (hwaiting.emit _ rfl) (Or.inr ?_) hundone
      hstarting nofun
    show Operation.retryTimer :: s.operations = _
    rw [hops]

/-- A failed attempt is reported, and then as `scheduleRetry` does. -/
theorem inv_attemptFailed {s : Connection} (ec : ErrorCode) (c : Completion)
    (hlive : Live cfg false s) (hquiet : Quiet s) : Inv cfg (attemptFailed cfg s ec c) := by
  unfold attemptFailed
  split
  · exact inv_stop hlive.2 hquiet.starting_imp
  · exact inv_scheduleRetry c (hlive.emit _ rfl) hquiet

/-- **The next step of an attempt** leaves that step outstanding. -/
theorem inv_begin {s : Connection} {operation : Operation} (hlive : Live cfg false s)
    (hquiet : Quiet s) (hs : s.state = .connecting)
    (hop : operation = .resolve s.generation ∨ operation = .connect s.generation ∨
      operation = .tlsHandshake s.generation ∨ operation = .upgrade s.generation) :
    Inv cfg (s.begin operation) := by
  obtain ⟨hops, hundone, hstarting⟩ := hquiet
  have hstate : (s.begin operation).state = .connecting := hs
  have hone : (s.begin operation).operations = [operation] := by
    show operation :: s.operations = _
    rw [hops]
  have hout : Outstanding (s.begin operation) .connecting := by
    unfold Outstanding
    simp only [hone, List.cons.injEq, and_true]
    exact hop
  exact inv_of_live (hstate ▸ hlive) (hstate ▸ hout) hundone hstarting (hstate ▸ nofun)

/-! ### The functions of the open connection -/

/-- While the connection closes itself, the invariant is about its two operations. -/
theorem inv_of_closing {s : Connection} (hlive : Live cfg true s) (hs : s.state = .closing)
    (hout : s.operations.Perm (ownClose s)) (hdone : ¬(s.readDone ∧ s.closeDone))
    (hstop : s.stopRequested = true) (hstarting : s.starting = false) : Inv cfg s where
  outstanding := by
    rw [hs]
    exact ⟨hout, hdone, hstop⟩
  undone := Or.inl hs
  callbacks := by rw [hs, if_neg nofun, hlive.1]
  starting := fun h ↦ by
    rw [hstarting] at h
    exact absurd h Bool.false_ne_true
  traced := by
    rw [hs]
    exact hlive.2

/-- An open connection begins its close, and reads on. -/
theorem inv_closeOpen {s : Connection} (code : CloseCode) (hlive : Live cfg true s)
    (hops : s.operations = [.read s.generation]) (hundone : Undone s)
    (hstop : s.stopRequested = true) (hstarting : s.starting = false) :
    Inv cfg (closeOpen s code) := by
  obtain ⟨hread, hclose⟩ := hundone
  have hdone : ¬((closeOpen s code).readDone ∧ (closeOpen s code).closeDone) := by
    show ¬(s.readDone ∧ s.closeDone)
    rw [hread]
    exact fun h ↦ Bool.false_ne_true h.1
  refine inv_of_closing hlive rfl ?_ hdone hstop hstarting
  show (Operation.close s.generation code :: s.operations).Perm
    ((if s.readDone then [] else [.read s.generation]) ++
      if s.closeDone then [] else [.close s.generation code])
  rw [hops, hread, hclose]
  exact List.Perm.swap ..

theorem inv_read {s : Connection} (hlive : Live cfg true s) (hquiet : Quiet s)
    (hs : s.state = .opened) (hstop : s.stopRequested = false) :
    Inv cfg (read s s.generation) := by
  obtain ⟨hops, hundone, hstarting⟩ := hquiet
  have hstate : (read s s.generation).state = .opened := hs
  have hone : (read s s.generation).operations = [.read s.generation] := by
    show Operation.read s.generation :: s.operations = _
    rw [hops]
  have hout : Outstanding (read s s.generation) .opened := ⟨hone, hstop⟩
  exact inv_of_live (hstate ▸ hlive) (hstate ▸ hout) hundone hstarting (hstate ▸ nofun)

/-- **The upgrade** opens the connection, ends the attempt, or stops. -/
theorem inv_onUpgrade {s : Connection} (c : Completion) (hlive : Live cfg false s)
    (hquiet : Quiet s) : Inv cfg (onUpgrade cfg s s.generation c) := by
  unfold onUpgrade
  split
  · dsimp only
    have hlive' : Live cfg false { s with upgradeStatus := c.status } := hlive
    split
    · exact inv_stop hlive'.2 hquiet.starting_imp
    · exact inv_stop (hlive'.emit _ rfl).2 hquiet.starting_imp
  · exact inv_attemptFailed _ c hlive hquiet
  · dsimp only
    have hlive' : Live cfg false { s with
        protocol := c.subprotocol
        upgradeStatus := 0
        failures := 0
        state := .opened
        connected := true } := hlive
    have hopen := hlive'.emit .onOpen rfl
    obtain ⟨hops, hundone, hstarting⟩ := hquiet
    split
    · rename_i hstop
      refine inv_closeOpen _ hopen ?_ hundone hstop hstarting
      show Operation.read s.generation :: s.operations = _
      rw [hops]
      rfl
    · rename_i hstop
      exact inv_read hopen ⟨hops, hundone, hstarting⟩ rfl (Bool.not_eq_true _ ▸ hstop)

/-- **The end of an open connection** delivers its onClose, whoever ended it. -/
theorem inv_closed {s : Connection} (code : CloseCode) (c : Completion) (hlive : Live cfg true s)
    (hstarting : s.starting = false) (h : s.stopRequested = true ∨ Quiet s) :
    Inv cfg (closed cfg s code c) := by
  unfold closed
  dsimp only
  have hlive' : Live cfg true { s with
      connected := false
      pending := Word.sub 64 s.pending s.writeQueue.length
      writeQueue := [] } := hlive
  have hclosed := hlive'.emit (.onClose code) rfl
  split
  · refine inv_stop hclosed.2 fun hs ↦ ?_
    have hs' : s.starting = true := hs
    rw [hstarting] at hs'
    exact absurd hs' Bool.false_ne_true
  · rename_i hgo
    rcases h with hstop | hquiet
    · refine absurd ?_ hgo
      show (s.stopRequested || s.clientClosed) = true
      rw [hstop, Bool.true_or]
    · exact inv_scheduleRetry c hclosed hquiet

/-- The end of an own close is reported, and the connection stops. -/
theorem inv_finishOwnClose {s : Connection} (c : Completion) (hlive : Live cfg true s)
    (hstarting : s.starting = false) (hstop : s.stopRequested = true) :
    Inv cfg (finishOwnClose cfg s c) := by
  unfold finishOwnClose
  split <;> exact inv_closed _ c hlive hstarting (Or.inl hstop)

/-- A read that completes while the connection is open. -/
theorem inv_onRead_opened {s : Connection} (c : Completion) (hlive : Live cfg true s)
    (hquiet : Quiet s) (hs : s.state = .opened) (hstop : s.stopRequested = false) :
    Inv cfg (onRead cfg s s.generation c) := by
  unfold onRead
  split
  · unfold ended
    rw [if_neg (by rw [hs]; exact fun h ↦ nomatch h.1)]
    split
    · exact inv_closed _ c hlive hquiet.2.2 (Or.inr hquiet)
    split
    · exact inv_closed _ c (hlive.emit _ rfl) hquiet.2.2 (Or.inr hquiet)
    · exact inv_closed _ c hlive hquiet.2.2 (Or.inr hquiet)
  · exact inv_read (hlive.emit _ rfl) hquiet hs hstop

/-- A read that completes while the connection closes itself. -/
theorem inv_onRead_closing {s : Connection} (c : Completion) (hlive : Live cfg true s)
    (hs : s.state = .closing) (hread : s.readDone = false)
    (hops : s.operations.Perm
      (if s.closeDone then [] else [.close s.generation s.requestedCode]))
    (hstop : s.stopRequested = true) (hstarting : s.starting = false) :
    Inv cfg (onRead cfg s s.generation c) := by
  unfold onRead
  split
  · unfold ended
    split
    · dsimp only
      have hlive' : Live cfg true { s with readDone := true } := hlive
      split
      · exact inv_finishOwnClose c hlive' hstarting hstop
      · rename_i hclose
        exact inv_of_closing hlive' hs hops (fun h ↦ hclose h.2) hstop hstarting
    split
    · exact inv_closed _ c hlive hstarting (Or.inl hstop)
    split
    · exact inv_closed _ c (hlive.emit _ rfl) hstarting (Or.inl hstop)
    · exact inv_closed _ c hlive hstarting (Or.inl hstop)
  · have hmessage : Live cfg true (read (emit s (.onMessage c.message)) s.generation) :=
      hlive.emit (.onMessage c.message) rfl
    refine inv_of_closing hmessage hs ?_ ?_ hstop hstarting
    · show (Operation.read s.generation :: s.operations).Perm
        ((if s.readDone then [] else [.read s.generation]) ++
          if s.closeDone then [] else [.close s.generation s.requestedCode])
      rw [hread]
      exact hops.cons _
    · show ¬(s.readDone ∧ s.closeDone)
      rw [hread]
      exact fun h ↦ Bool.false_ne_true h.1

/-- The close that completes while the connection closes itself. -/
theorem inv_onClosed {s : Connection} (c : Completion) (hlive : Live cfg true s)
    (hs : s.state = .closing)
    (hops : s.operations.Perm (if s.readDone then [] else [.read s.generation]))
    (hstop : s.stopRequested = true) (hstarting : s.starting = false) :
    Inv cfg (onClosed cfg s c) := by
  unfold onClosed
  dsimp only
  have hlive' : Live cfg true { s with closeDone := true, closeResult := c.ec } := hlive
  split
  · exact inv_finishOwnClose c hlive' hstarting hstop
  · rename_i hread
    refine inv_of_closing hlive' hs ?_ (fun h ↦ hread h.1) hstop hstarting
    show s.operations.Perm ((if s.readDone then [] else [.read s.generation]) ++ [])
    rw [List.append_nil]
    exact hops

/-! ### Completions, state by state -/

/-- A connection that is under way was started. -/
theorem Inv.starting_eq_false {s : Connection} (h : Inv cfg s) (hidle : s.state ≠ .idle)
    (hs : s.state ≠ .stopped) : s.starting = false := by
  rw [← Bool.not_eq_true]
  intro hstarting
  rcases h.starting hstarting with hs' | ⟨hs', -⟩
  · exact hidle hs'
  · exact hs hs'

theorem Inv.undone_of {s : Connection} (h : Inv cfg s) (hclosing : s.state ≠ .closing)
    (hs : s.state ≠ .stopped) : Undone s :=
  (h.undone.resolve_left hclosing).resolve_left hs

theorem Inv.live_without {s : Connection} (h : Inv cfg s) {state : ConnectionState}
    (hs : s.state = state) (hne : state ≠ .stopped) (operation : Operation) :
    Live cfg state.isOpen (s.without operation) :=
  h.live hs hne

theorem Inv.quiet_without {s : Connection} (h : Inv cfg s) {operation : Operation}
    (hops : s.operations = [operation]) (hidle : s.state ≠ .idle) (hclosing : s.state ≠ .closing)
    (hs : s.state ≠ .stopped) : Quiet (s.without operation) := by
  refine ⟨?_, h.undone_of hclosing hs, h.starting_eq_false hidle hs⟩
  show s.operations.erase operation = []
  rw [hops, List.erase_cons_head]

/-- What the invariant tracks is never stale, unless the connection has stopped. -/
theorem not_stale {s : Connection} {state : ConnectionState} (hs : s.state = state)
    (hne : state ≠ .stopped) (operation : Operation) :
    ¬stale (s.without operation) s.generation = true := by
  show ¬(s.generation != s.generation || s.state == .stopped) = true
  rw [bne_self_eq_false, Bool.false_or, beq_iff_eq, hs]
  exact hne

/-- **A stopped connection** ignores every completion. -/
theorem handle_of_stopped {s : Connection} (hs : s.state = .stopped) (c : Completion)
    (operation : Operation) : handle cfg s c operation = s := by
  have hstale (gen : ℕ) : stale s gen = true := by
    unfold stale
    rw [hs, Bool.or_eq_true]
    exact Or.inr rfl
  cases operation with
  | retryTimer =>
    show onRetryTimer s c = s
    exact if_pos (Or.inr (by rw [hs]; nofun))
  | resolve gen => exact if_pos (hstale gen)
  | connect gen => exact if_pos (hstale gen)
  | tlsHandshake gen => exact if_pos (hstale gen)
  | upgrade gen => exact if_pos (hstale gen)
  | read gen => exact if_pos (hstale gen)
  | close gen code => exact if_pos (hstale gen)

/-- A step of an attempt fails, was superseded, or leads to the next one. -/
theorem inv_attemptStep {s next : Connection} (c : Completion) (hlive : Live cfg false s)
    (hquiet : Quiet s) (hnext : Inv cfg next) : Inv cfg (attemptStep cfg s c next) := by
  unfold attemptStep
  split
  · exact inv_attemptFailed _ c hlive hquiet
  · exact hnext

/-- After the connect comes TLS or the upgrade, or the attempt has failed. -/
theorem inv_onConnect {s : Connection} (c : Completion) (hlive : Live cfg false s)
    (hquiet : Quiet s) (hs : s.state = .connecting) :
    Inv cfg (onConnect cfg s s.generation c) := by
  unfold onConnect
  split
  · exact inv_begin hlive hquiet hs (Or.inr (Or.inr (Or.inr rfl)))
  split
  · exact inv_attemptFailed _ c hlive hquiet
  · exact inv_begin hlive hquiet hs (Or.inr (Or.inr (Or.inl rfl)))

/-- The one outstanding step of an attempt completes. -/
theorem inv_handle_connecting {s : Connection} (h : Inv cfg s) (hs : s.state = .connecting)
    {operation : Operation} (hop : operation ∈ s.operations) (c : Completion) :
    Inv cfg (handle cfg (s.without operation) c operation) := by
  have hout : Outstanding s .connecting := hs ▸ h.outstanding
  have hone : s.operations = [operation] := by
    rcases hout with hout | hout | hout | hout <;>
      · rw [hout, List.mem_singleton] at hop
        rw [hout, hop]
  have hlive : Live cfg false (s.without operation) := h.live_without hs nofun operation
  have hquiet := h.quiet_without hone (hs ▸ nofun) (hs ▸ nofun) (hs ▸ nofun)
  have hfresh := not_stale hs nofun operation
  have hgen : operation = .resolve s.generation ∨ operation = .connect s.generation ∨
      operation = .tlsHandshake s.generation ∨ operation = .upgrade s.generation := by
    unfold Outstanding at hout
    simpa only [hone, List.cons.injEq, and_true] using hout
  rcases hgen with rfl | rfl | rfl | rfl <;> rw [handle, if_neg hfresh]
  · exact inv_attemptStep c hlive hquiet (inv_begin hlive hquiet hs (Or.inr (Or.inl rfl)))
  · exact inv_attemptStep c hlive hquiet (inv_onConnect c hlive hquiet hs)
  · exact inv_attemptStep c hlive hquiet
      (inv_begin hlive hquiet hs (Or.inr (Or.inr (Or.inr rfl))))
  · exact inv_onUpgrade c hlive hquiet

/-- The read of an open connection completes. -/
theorem inv_handle_opened {s : Connection} (h : Inv cfg s) (hs : s.state = .opened)
    {operation : Operation} (hop : operation ∈ s.operations) (c : Completion) :
    Inv cfg (handle cfg (s.without operation) c operation) := by
  have hout : Outstanding s .opened := hs ▸ h.outstanding
  obtain ⟨hops, hstop⟩ := hout
  obtain rfl : operation = .read s.generation := by rwa [hops, List.mem_singleton] at hop
  have hlive : Live cfg true (s.without (.read s.generation)) := h.live_without hs nofun _
  have hquiet := h.quiet_without hops (hs ▸ nofun) (hs ▸ nofun) (hs ▸ nofun)
  rw [handle, if_neg (not_stale hs nofun _)]
  exact inv_onRead_opened c hlive hquiet hs hstop

/-- **One of the two operations of an own close completes.** The other one stays outstanding, if it
has not completed before. -/
theorem inv_handle_closing {s : Connection} (h : Inv cfg s) (hs : s.state = .closing)
    {operation : Operation} (hop : operation ∈ s.operations) (c : Completion) :
    Inv cfg (handle cfg (s.without operation) c operation) := by
  have hout : Outstanding s .closing := hs ▸ h.outstanding
  obtain ⟨hops, hdone, hstop⟩ := hout
  have hstarting := h.starting_eq_false (hs ▸ nofun) (hs ▸ nofun)
  have hlive : Live cfg true (s.without operation) := h.live_without hs nofun operation
  have hfresh := not_stale hs nofun operation
  have hrest := hops.erase operation
  have hmem := hops.mem_iff.1 hop
  unfold ownClose at hrest hmem
  rcases List.mem_append.1 hmem with hmem | hmem
  · obtain ⟨rfl, hread⟩ : operation = .read s.generation ∧ s.readDone = false := by
      simpa only [List.mem_ite_nil_left, List.mem_singleton, Bool.not_eq_true, and_comm] using hmem
    simp only [hread, Bool.false_eq_true, if_false, List.singleton_append,
      List.erase_cons_head] at hrest
    rw [handle, if_neg hfresh]
    exact inv_onRead_closing c hlive hs hread hrest hstop hstarting
  · obtain ⟨rfl, hclose⟩ :
        operation = .close s.generation s.requestedCode ∧ s.closeDone = false := by
      simpa only [List.mem_ite_nil_left, List.mem_singleton, Bool.not_eq_true, and_comm] using hmem
    have hrest' : (s.operations.erase (.close s.generation s.requestedCode)).Perm
        (if s.readDone then [] else [.read s.generation]) := by
      cases hread : s.readDone with
      | true => simpa [hread, hclose] using hrest
      | false => simpa [hread, hclose] using hrest
    rw [handle, if_neg hfresh]
    exact inv_onClosed c hlive hs hrest' hstop hstarting

/-- The retry timer completes. -/
theorem inv_handle_waiting {s : Connection} (h : Inv cfg s) (hs : s.state = .waiting)
    {operation : Operation} (hop : operation ∈ s.operations) (c : Completion) :
    Inv cfg (handle cfg (s.without operation) c operation) := by
  have hout : Outstanding s .waiting := hs ▸ h.outstanding
  have hops : s.operations = [.retryTimer] := hout.resolve_left (List.ne_nil_of_mem hop)
  obtain rfl : operation = .retryTimer := by rwa [hops, List.mem_singleton] at hop
  have hlive : Live cfg false (s.without .retryTimer) := h.live_without hs nofun _
  have hquiet := h.quiet_without hops (hs ▸ nofun) (hs ▸ nofun) (hs ▸ nofun)
  have hstate : (s.without .retryTimer).state = .waiting := hs
  rw [handle, onRetryTimer]
  split
  · have hnone : Outstanding (s.without .retryTimer) .waiting := Or.inl hquiet.1
    exact inv_of_live (hstate ▸ hlive) (hstate ▸ hnone) hquiet.2.1 hquiet.2.2 (hstate ▸ nofun)
  · exact inv_attempt hlive hquiet

/-- Every handler keeps the invariant. -/
theorem inv_handle {s : Connection} (h : Inv cfg s) {operation : Operation}
    (hop : operation ∈ s.operations) (c : Completion) :
    Inv cfg (handle cfg (s.without operation) c operation) := by
  cases hs : s.state with
  | idle =>
    have hout : Outstanding s .idle := hs ▸ h.outstanding
    exact absurd hout (List.ne_nil_of_mem hop)
  | connecting => exact inv_handle_connecting h hs hop c
  | opened => exact inv_handle_opened h hs hop c
  | closing => exact inv_handle_closing h hs hop c
  | waiting => exact inv_handle_waiting h hs hop c
  | stopped =>
    have hstate : (s.without operation).state = .stopped := hs
    have hout : Outstanding (s.without operation) .stopped := trivial
    rw [handle_of_stopped hstate]
    exact ⟨hstate ▸ hout, Or.inr (Or.inl hs), h.callbacks, h.starting, h.traced⟩

/-! ### Steps and runs -/

/-- What a step changes besides the connection's own state does not matter to the invariant. -/
theorem Inv.frame {s t : Connection} (h : Inv cfg s)
    (ht : t = { s with
      pending := t.pending
      writeQueue := t.writeQueue
      clientClosed := t.clientClosed
      tasks := t.tasks
      writes := t.writes
      senders := t.senders }) : Inv cfg t := by
  rw [ht]
  exact ⟨h.outstanding, h.undone, h.callbacks, h.starting, h.traced⟩

theorem write_eq (s : Connection) (gen : ℕ) :
    write s gen = { s with writes := (write s gen).writes } := by
  unfold write
  split <;> rfl

/-- The task of a send changes the queue, the writes and the counter. -/
theorem runSend_eq (s : Connection) (message : Message) (gen : ℕ) :
    runSend s message gen = { s with
      pending := (runSend s message gen).pending
      writeQueue := (runSend s message gen).writeQueue
      writes := (runSend s message gen).writes } := by
  unfold runSend
  dsimp only
  split
  · rfl
  split
  · rw [write_eq]
  · rfl

theorem onWrite_eq (s : Connection) (gen : ℕ) (ec : Option ErrorCode) :
    onWrite s gen ec = { s with
      pending := (onWrite s gen ec).pending
      writeQueue := (onWrite s gen ec).writeQueue
      writes := (onWrite s gen ec).writes } := by
  unfold onWrite
  dsimp only
  split
  · rfl
  split
  · rfl
  · rw [write_eq]

theorem send_eq (cfg : Config) (s : Connection) (i : ℕ) (spurious : Bool) (sender : Sender) :
    send cfg s i spurious sender = { s with
      pending := (send cfg s i spurious sender).pending
      tasks := (send cfg s i spurious sender).tasks
      senders := (send cfg s i spurious sender).senders } := by
  cases sender with
  | load message => rfl
  | reserve message current =>
    unfold send
    dsimp only
    split
    · rfl
    split <;> rfl
  | capture message => rfl
  | post message gen => rfl

/-- **A close request** closes an open connection, lets a pending step end, and stops otherwise. -/
theorem inv_doClose {s : Connection} (h : Inv cfg s) (code : CloseCode) :
    Inv cfg (doClose s code) := by
  unfold doClose
  split
  · exact h
  rename_i hgo
  obtain ⟨-, hne⟩ : s.stopRequested = false ∧ s.state ≠ .stopped := by
    simpa only [Bool.or_eq_true, not_or, Bool.not_eq_true, beq_eq_false_iff_ne] using hgo
  dsimp only
  cases hs : s.state with
  | opened =>
    have hlive : Live cfg true { s with stopRequested := true } := h.live hs nofun
    have hout : Outstanding s .opened := hs ▸ h.outstanding
    exact inv_closeOpen code hlive hout.1 (h.undone_of (hs ▸ nofun) hne) rfl
      (h.starting_eq_false (hs ▸ nofun) hne)
  | connecting =>
    have hout : Outstanding s .connecting := hs ▸ h.outstanding
    exact inv_of_live (h.live hs nofun) hout (h.undone_of (hs ▸ nofun) hne)
      (h.starting_eq_false (hs ▸ nofun) hne) nofun
  | closing =>
    have hout : Outstanding s .closing := hs ▸ h.outstanding
    rw [hout.2.2] at hgo
    exact absurd rfl hgo
  | idle => exact inv_stop (h.live hs nofun).2 fun _ ↦ rfl
  | waiting => exact inv_stop (h.live hs nofun).2 fun _ ↦ rfl
  | stopped => exact absurd hs hne

/-- start() begins the first attempt, or stops a connection that was closed before. -/
theorem inv_start {s : Connection} (h : Inv cfg s) (hstarting : s.starting = true) :
    Inv cfg (start cfg s) := by
  have hno {t : Connection} (ht : t.starting = false) :
      t.starting = true → t.stopRequested = true := fun ht' ↦ by
    rw [ht] at ht'
    exact absurd ht' Bool.false_ne_true
  unfold start
  dsimp only
  rcases h.starting hstarting with hs | ⟨hs, hstop⟩
  · have hlive : Live cfg false { s with starting := false } := h.live hs nofun
    have hout : Outstanding s .idle := hs ▸ h.outstanding
    have hundone := h.undone_of (hs ▸ nofun) (hs ▸ nofun)
    split
    · exact inv_stop (hlive.emit _ rfl).2 (hno rfl)
    · exact inv_attempt hlive ⟨hout, hundone, rfl⟩
  · -- close() came first: the callbacks are gone
    have htraced := h.traced
    rw [hs] at htraced
    split
    · rename_i ec _
      have hnone : s.delivered ++ [Event.onError ec].filter s.callbacks.wants = s.delivered := by
        rw [h.callbacks, if_pos hs]
        exact List.append_nil _
      refine inv_stop ?_ (hno rfl)
      show Traced _ _ (s.delivered ++ [Event.onError ec].filter s.callbacks.wants)
      rw [hnone]
      exact htraced
    · unfold attempt
      rw [if_pos (by simp only [hstop, Bool.true_or])]
      exact inv_stop htraced (hno rfl)

/-- **One step keeps the invariant.** -/
theorem inv_step (s : Connection) (action : Action) (t : Connection) (h : Inv cfg s)
    (hstep : (machine cfg).step s action = some t) : Inv cfg t := by
  cases stepped_of_step hstep with
  | start hstarting => exact inv_start h hstarting
  | close | destroy | send => exact h.frame rfl
  | unconnected => exact h
  | sender =>
    rw [send_eq]
    exact h.frame rfl
  | task task tasks =>
    have h' : Inv cfg { s with tasks := tasks } := h.frame rfl
    cases task with
    | close code => exact inv_doClose h' code
    | send message gen =>
      rw [runTask, runSend_eq]
      exact h.frame rfl
  | complete operation c hop => exact inv_handle h hop c
  | written =>
    rw [onWrite_eq]
    exact h.frame rfl

theorem inv_init (s : Connection) (h : (machine cfg).Init s) : Inv cfg s := by
  change s = _ at h
  subst h
  exact ⟨rfl, Or.inr (Or.inr ⟨rfl, rfl⟩), (if_neg nofun).symm, fun _ ↦ Or.inl rfl, [], rfl, rfl⟩

/-- **The run lemma.** -/
theorem inv_of_reachable {s : Connection} (h : (machine cfg).Reachable s) : Inv cfg s :=
  h.invariant inv_init inv_step

/-- **After stop()** no step delivers anything, and none leaves the state. -/
theorem stopped_step {s t : Connection} {action : Action} (h : Inv cfg s)
    (hs : s.state = .stopped) (hstep : step cfg s action = some t) :
    t.state = .stopped ∧ t.delivered = s.delivered := by
  cases stepped_of_step hstep with
  | start hstarting =>
    have hstop : s.stopRequested = true := by
      rcases h.starting hstarting with hidle | ⟨-, hstop⟩
      · rw [hs] at hidle
        exact absurd hidle nofun
      · exact hstop
    unfold start
    dsimp only
    split
    · refine ⟨rfl, ?_⟩
      show s.delivered ++ List.filter s.callbacks.wants _ = s.delivered
      rw [h.callbacks, if_pos hs]
      exact List.append_nil _
    · unfold attempt
      rw [if_pos (by simp only [hstop, Bool.true_or])]
      exact ⟨rfl, rfl⟩
  | close | destroy | send | unconnected => exact ⟨hs, rfl⟩
  | sender =>
    rw [send_eq]
    exact ⟨hs, rfl⟩
  | task task tasks =>
    cases task with
    | close code =>
      have hignored : doClose { s with tasks := tasks } code = { s with tasks := tasks } :=
        if_pos (by simp only [hs, beq_self_eq_true, Bool.or_true])
      rw [runTask, hignored]
      exact ⟨hs, rfl⟩
    | send message gen =>
      rw [runTask, runSend_eq]
      exact ⟨hs, rfl⟩
  | complete operation c =>
    have hstate : (s.without operation).state = .stopped := hs
    rw [handle_of_stopped hstate]
    exact ⟨hs, rfl⟩
  | written =>
    rw [onWrite_eq]
    exact ⟨hs, rfl⟩

/-- A connection that has stopped says nothing more. -/
theorem stopped_run {s t : Connection} (h : Inv cfg s) (hs : s.state = .stopped)
    (actions : List Action) (hrun : (machine cfg).run s actions = some t) :
    t.state = .stopped ∧ t.delivered = s.delivered := by
  have hinv : Inv cfg t ∧ t.state = .stopped ∧ t.delivered = s.delivered := by
    refine Machine.run_invariant (I := fun u ↦
      Inv cfg u ∧ u.state = .stopped ∧ u.delivered = s.delivered) ?_ actions ⟨h, hs, rfl⟩ hrun
    intro u action v ⟨hu, hstopped, hdelivered⟩ hstep
    obtain ⟨hstopped', hdelivered'⟩ := stopped_step hu hstopped hstep
    exact ⟨inv_step u action v hu hstep, hstopped', hdelivered'.trans hdelivered⟩
  exact hinv.2

/-- **The event grammar of a client connection.** Whatever completes in whatever order, the
delivered events are those of a sequence in the grammar, all of it if all callbacks are set: onOpen
and onClose alternate, messages come between the two, and onReconnecting outside. Once the
connection has stopped, the last onOpen has had its onClose, and nothing is delivered any more. -/
theorem event_grammar {s : Connection} (h : (machine cfg).Reachable s) :
    (∃ events, s.delivered = events.filter cfg.callbacks.wants ∧
      openAfter events = some s.state.isOpen) ∧
    (s.state = .stopped →
      (∃ events, s.delivered = events.filter cfg.callbacks.wants ∧
        openAfter events = some false) ∧
      ∀ actions t, (machine cfg).run s actions = some t →
        t.state = .stopped ∧ t.delivered = s.delivered) := by
  have hinv := inv_of_reachable h
  refine ⟨hinv.traced, fun hs ↦ ⟨?_, fun actions t hrun ↦ stopped_run hinv hs actions hrun⟩⟩
  have htraced := hinv.traced
  rw [hs] at htraced
  exact htraced

/-- A connection with all callbacks set that tries again after a drop. -/
def persistent : Config where
  url := .inr {}
  reconnect := { enabled := true }
  callbacks :=
    { onOpen := true, onMessage := true, onClose := true, onError := true, onReconnecting := true }

/-- It opens, gets a message, is dropped by the server, and is closed while it waits to try again.
-/
def dropped : List Action :=
  [.start, .complete (.resolve 1) {}, .complete (.connect 1) {}, .complete (.upgrade 1) {},
    .complete (.read 1) { message := ⟨[104, 105], true⟩ },
    .complete (.read 1) { ec := some .closed, reason := 1001, delay := 500 },
    .close CloseCode.normal, .task]

theorem event_grammar_dropped :
    ∃ s, (machine persistent).run { callbacks := persistent.callbacks } dropped = some s ∧
      s.delivered =
        [.onOpen, .onMessage ⟨[104, 105], true⟩, .onClose 1001, .onReconnecting 1 500] ∧
      ∀ actions t, (machine persistent).run s actions = some t → t.delivered = s.delivered :=
  ⟨_, rfl, rfl, fun actions t hrun ↦
    (((event_grammar (Machine.run_reachable (M := machine persistent) dropped rfl rfl)).2 rfl).2
      actions t hrun).2⟩

end CppGate.WebSocketClient
