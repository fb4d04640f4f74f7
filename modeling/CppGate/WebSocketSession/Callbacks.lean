import CppGate.WebSocketSession.SendQueue

/-!
# The callbacks of a server WebSocket session

What `WebSocketSession.h` tells its user, through the emit functions of `WebSocketContext.h`. Both
the read loop and the close operation report the end of a connection, in either order, and the user
code they call may replace callbacks, send, close, and throw after any of it.

A session runs its handlers on its strand, one at a time, and user code inside the handler that
calls it: a handler and all that it calls is one step. What the user code does is part of the label,
so a run is any order of completions with any user code. Setting a callback from elsewhere would
race with the strand, and is left out.

`onClose_exactly_once` holds for all of these runs.
-/

namespace CppGate.WebSocketSession.Callbacks

variable {κ : Type*}

/-! ### Contexts and events -/

/-- `CloseCode::going_away`. -/
def goingAway : CloseCode := 1001

/-- `CloseCode::abnormal`. -/
def abnormal : CloseCode := 1006

/-- `CloseCode::internal_error`. -/
def internalError : CloseCode := 1011

/-- `boost::beast::error_code`: those that on_read() compares with, and the others. -/
inductive ErrorCode
  /-- `websocket::error::closed`. -/
  | closed
  /-- `net::error::operation_aborted`. -/
  | operationAborted
  | other (value : ℕ)
  deriving DecidableEq, Repr

/-- `WebSocketContext`: the callbacks, each of which may be empty, and `closed_`. -/
structure Context (κ : Type*) where
  /-- `on_message_`. -/
  onMessage : Option κ := none
  /-- `on_close_`. -/
  onClose : Option κ := none
  /-- `on_error_`. -/
  onError : Option κ := none
  /-- `closed_`. -/
  closed : Bool := false
  deriving DecidableEq, Repr

/-- What the user sees of a session: callbacks of onClose that were set, and calls. -/
inductive Event (κ : Type*)
  | sets (callback : Option κ)
  | message (callback : κ) (message : Message)
  | error (callback : κ) (ec : ErrorCode)
  | close (callback : κ) (code : CloseCode)
  deriving DecidableEq, Repr

/-- The onClose callback is called. -/
def Event.isClose : Event κ → Bool
  | .close _ _ => true
  | _ => false

/-- Some callback is called. -/
def Event.isCall : Event κ → Bool
  | .sets _ => false
  | _ => true

/-- The onClose callback that is set after an event. -/
def Event.after (last : Option κ) : Event κ → Option κ
  | .sets callback => callback
  | _ => last

/-- The onClose callback that was set last. -/
def lastSet (history : List (Event κ)) : Option κ :=
  history.foldl Event.after none

/-- What user code does with the context it is given. -/
inductive Effect (κ : Type*)
  | onMessage (callback : Option κ)
  | onClose (callback : Option κ)
  | onError (callback : Option κ)
  | close (code : CloseCode)
  | send (message : Message)
  deriving DecidableEq, Repr

/-- A call of user code: what it does, and how it ends. -/
structure UserCode (κ : Type*) where
  effects : List (Effect κ) := []
  /-- What a route handler or a middleware returns, or nothing if the code throws. What is returned
  for a callback does not matter. -/
  returns : Option Bool := some true
  deriving DecidableEq, Repr

/-- Where the read loop is. -/
inductive Phase
  /-- The handshake has succeeded or failed, and on_accept() is the next handler. -/
  | accepting
  /-- It has failed. -/
  | refused
  /-- A read is outstanding. -/
  | reading
  /-- A read has completed and none was started after it. -/
  | ended
  deriving DecidableEq, Repr

/-- The session, its context, and the history of what its user sees. -/
structure Session (κ : Type*) where
  queue : State
  context : Context κ
  phase : Phase := .accepting
  /-- An async_close is outstanding. -/
  closeOp : Option CloseCode := none
  history : List (Event κ)
  deriving DecidableEq, Repr

/-- What a handler finds when it runs. Each handler looks at some of it. -/
structure Completion (κ : Type*) where
  /-- The operation's error. -/
  ec : Option ErrorCode := none
  /-- `sessions_ && sessions_->stopping()`. -/
  stopping : Bool := false
  /-- What the handler and the post-middlewares of the matched route do, should they be called. -/
  route : Option (UserCode κ × List (UserCode κ)) := none
  /-- What the read buffer holds. -/
  message : Message := ⟨[], true⟩
  /-- The stream's `reason().code`. -/
  reason : CloseCode := 0
  /-- What the callbacks do, should they be called. -/
  onMessage : UserCode κ := {}
  onClose : UserCode κ := {}
  onError : UserCode κ := {}
  deriving DecidableEq, Repr

/-! ### User code -/

/-- Something happens. -/
def Session.record (s : Session κ) (e : Event κ) : Session κ :=
  { s with history := s.history ++ [e] }

/-- `close`, from the strand. -/
def Session.close (s : Session κ) (code : CloseCode) : Session κ :=
  { s with queue := WebSocketSession.close s.queue code }

/-- What one effect changes. -/
def Session.apply (s : Session κ) : Effect κ → Session κ
  | .onMessage callback => { s with context := { s.context with onMessage := callback } }
  | .onClose callback =>
    { s with context := { s.context with onClose := callback } }.record (.sets callback)
  | .onError callback => { s with context := { s.context with onError := callback } }
  | .close code => s.close code
  | .send message => { s with queue := sendInternal s.queue message }

/-- Run user code, up to where it returns or throws. -/
def Session.call (s : Session κ) (code : UserCode κ) : Session κ :=
  code.effects.foldl Session.apply s

/-! ### The emit functions -/

/-- Call a callback if it is set and the connection not closed. With it comes whether the call
returned, and did not throw. -/
def emit (s : Session κ) (callback : Option κ) (event : κ → Event κ) (code : UserCode κ) :
    Session κ × Bool :=
  match callback with
  | none => (s, true)
  | some callback =>
    if s.context.closed then (s, true)
    else ((s.record (event callback)).call code, code.returns.isSome)

/-- `emitMessage`. -/
def emitMessage (s : Session κ) (message : Message) (code : UserCode κ) : Session κ × Bool :=
  emit s s.context.onMessage (.message · message) code

/-- `emitError`. -/
def emitError (s : Session κ) (ec : ErrorCode) (code : UserCode κ) : Session κ × Bool :=
  emit s s.context.onError (.error · ec) code

/-- `emitClose`. -/
def emitClose (s : Session κ) (code : CloseCode) (user : UserCode κ) : Session κ × Bool :=
  if s.context.closed then
    (s, true)
  else
    -- release the user's callbacks
    let released := { s with context := { closed := true } }
    match s.context.onClose with
    | none => (released, true)
    | some callback => ((released.record (.close callback code)).call user, user.returns.isSome)

/-! ### The handlers -/

/-- `Router::Route::open`: the handler, then the post-middlewares, up to the first that returns
false. With it comes whether none of them threw. -/
def routeOpen (s : Session κ) : List (UserCode κ) → Session κ × Bool
  | [] => (s, true)
  | code :: rest =>
    match code.returns with
    | none => (s.call code, false)
    | some false => (s.call code, true)
    | some true => routeOpen (s.call code) rest

/-- `Router::open`. -/
def routerOpen (s : Session κ) (route : Option (UserCode κ × List (UserCode κ))) : Session κ :=
  match route with
  | none => s
  | some (handler, postMiddlewares) =>
    let (s, returned) := routeOpen s (handler :: postMiddlewares)
    if returned then s else s.close internalError

/-- `do_read`. -/
def doRead (s : Session κ) : Session κ :=
  { s with phase := .reading }

/-- `on_accept`. -/
def onAccept (s : Session κ) (c : Completion κ) : Session κ :=
  match c.ec with
  | some _ => { s with phase := .refused }
  | none =>
    -- the Listener started stopping during the handshake: don't open, say goodbye
    if c.stopping then doRead (s.close goingAway) else doRead (routerOpen s c.route)

/-- `on_read`. What guarded() catches from onClose and onError is only logged. -/
def onRead (s : Session κ) (c : Completion κ) : Session κ :=
  let s := { s with phase := .ended }
  match c.ec with
  | some .closed => (emitClose s c.reason c.onClose).1
  | some ec =>
    let s := if ec = .operationAborted then s else (emitError s ec c.onError).1
    (emitClose s abnormal c.onClose).1
  | none =>
    let (s, returned) := emitMessage s c.message c.onMessage
    -- keep reading even when closing
    doRead (if returned then s else s.close internalError)

/-- `on_close`. -/
def onClose (s : Session κ) (code : CloseCode) (c : Completion κ) : Session κ :=
  (emitClose { s with closeOp := none } code c.onClose).1

/-! ### The machine -/

/-- What happens next. -/
inductive Action (κ : Type*)
  | accepted (c : Completion κ)
  /-- The outstanding read completes. -/
  | read (c : Completion κ)
  /-- The outstanding async_close completes. -/
  | closed (c : Completion κ)
  /-- A thread or a handler of the send queue takes a step. -/
  | queue (a : WebSocketSession.Action)
  deriving DecidableEq, Repr

/-- One step of the session. -/
def step (limit : ℕ) (s : Session κ) : Action κ → Option (Session κ)
  | .accepted c => if s.phase = .accepting then some (onAccept s c) else none
  | .read c => if s.phase = .reading then some (onRead s c) else none
  | .closed c => s.closeOp.map fun code ↦ onClose s code c
  | .queue a =>
    if s.phase = .accepting then none
    else (WebSocketSession.step limit s.queue a).map fun queue ↦
      -- the task that sets closing_ starts the async_close
      { s with queue, closeOp := if s.queue.closing then s.closeOp else queue.closedWith }

/-- A session whose handshake has ended. -/
def start (queue : State) (context : Context κ) : Session κ :=
  { queue, context, history := [.sets context.onClose] }

/-- The session, from the end of its handshake on. Until then the pre-middlewares may have set
callbacks, and messages may have been sent; close() found the stream not open. -/
def machine (limit : ℕ) : Machine (Session κ) (Action κ) where
  Init s := ∃ queue context, queue.closing = false ∧ queue.closedWith = none ∧
    context.closed = false ∧ s = start queue context
  step := step limit

/-! ### Histories -/

section Histories

variable {history : List (Event κ)} {e : Event κ}

@[simp] theorem lastSet_concat (history : List (Event κ)) (e : Event κ) :
    lastSet (history ++ [e]) = e.after (lastSet history) :=
  List.foldl_concat _ _ _ _

theorem isCall_of_isClose (h : e.isClose = true) : e.isCall = true := by
  cases e with
  | close => rfl
  | _ => exact absurd h Bool.false_ne_true

/-- The user was told that the connection is closed. -/
def Told (history : List (Event κ)) : Prop :=
  ∃ e ∈ history, e.isClose = true

/-- Nothing is called once the user was told. -/
def Quiet (history : List (Event κ)) : Prop :=
  history.Pairwise fun e later ↦ e.isClose = true → later.isCall = false

/-- The user is told by the call of onClose. -/
theorem told_concat : Told (history ++ [e]) ↔ Told history ∨ e.isClose = true := by
  constructor
  · rintro ⟨e', hmem, he'⟩
    rcases List.mem_append.1 hmem with hmem | hmem
    · exact Or.inl ⟨e', hmem, he'⟩
    · exact Or.inr (List.mem_singleton.1 hmem ▸ he')
  · rintro (⟨e', hmem, he'⟩ | he)
    · exact ⟨e', List.mem_append_left _ hmem, he'⟩
    · exact ⟨e, List.mem_append_right _ (List.mem_singleton_self e), he⟩

/-- What happens next keeps a history quiet if it is no call, or the user was not told yet. -/
theorem Quiet.concat (h : Quiet history) (he : e.isCall = true → ¬Told history) :
    Quiet (history ++ [e]) := by
  refine List.pairwise_append.2 ⟨h, List.pairwise_singleton _ _, ?_⟩
  intro e' hmem later hlater hclose
  obtain rfl := List.mem_singleton.1 hlater
  rw [← Bool.not_eq_true]
  exact fun hcall ↦ he hcall ⟨e', hmem, hclose⟩

/-- In a quiet history the user is told once at most. -/
theorem Quiet.countP_isClose_le_one (h : Quiet history) : history.countP Event.isClose ≤ 1 := by
  induction history with
  | nil => exact Nat.zero_le 1
  | cons e history ih =>
    obtain ⟨hhead, htail⟩ := List.pairwise_cons.1 h
    rcases he : e.isClose with - | -
    · rw [List.countP_cons_of_neg (Bool.not_eq_true _ ▸ he)]
      exact ih htail
    · have hrest : history.countP Event.isClose = 0 := by
        refine List.countP_eq_zero.2 fun later hlater hclose ↦ ?_
        have hcall := hhead later hlater he
        exact absurd ((isCall_of_isClose hclose).symm.trans hcall) Bool.true_eq_false_eq_False
      rw [List.countP_cons_of_pos he, hrest]

end Histories

/-! ### What the user was told -/

/-- The history agrees with the context: until `closed_` is set the user was not told, and the
callback in the context is the last one set; from then on the user was told, or there was no
callback to call. -/
structure Announced (s : Session κ) : Prop where
  quiet : Quiet s.history
  before : s.context.closed = false → ¬Told s.history ∧ lastSet s.history = s.context.onClose
  closed : s.context.closed = true → Told s.history ∨ lastSet s.history = none

/-- User code only runs before `closed_` is set and as the onClose callback. -/
structure InUserCode (s : Session κ) : Prop extends Announced s where
  told : s.context.closed = true → Told s.history

/-- What user code leaves alone. -/
structure SameLoop (s t : Session κ) : Prop where
  closed : t.context.closed = s.context.closed
  phase : t.phase = s.phase

theorem SameLoop.refl (s : Session κ) : SameLoop s s :=
  ⟨rfl, rfl⟩

theorem SameLoop.trans {s t u : Session κ} (h : SameLoop s t) (h' : SameLoop t u) : SameLoop s u :=
  ⟨h'.closed.trans h.closed, h'.phase.trans h.phase⟩

variable {s t : Session κ}

theorem sameLoop_apply (s : Session κ) (effect : Effect κ) : SameLoop s (s.apply effect) := by
  cases effect <;> exact ⟨rfl, rfl⟩

theorem sameLoop_call (s : Session κ) (code : UserCode κ) : SameLoop s (s.call code) := by
  rw [Session.call]
  induction code.effects generalizing s with
  | nil => exact .refl s
  | cons effect effects ih => exact (sameLoop_apply s effect).trans (ih (s.apply effect))

/-- A session that agrees with another in the history, `closed_` and the onClose callback. -/
theorem InUserCode.of_eq (h : InUserCode s) (hhistory : t.history = s.history)
    (hclosed : t.context.closed = s.context.closed)
    (hclose : t.context.onClose = s.context.onClose) : InUserCode t where
  quiet := hhistory ▸ h.quiet
  before hopen := by
    rw [hhistory, hclose]
    exact h.before (hclosed ▸ hopen)
  closed hc := by
    rw [hhistory]
    exact h.closed (hclosed ▸ hc)
  told hc := by
    rw [hhistory]
    exact h.told (hclosed ▸ hc)

/-- Replacing the onClose callback is recorded, and calls nothing. -/
theorem InUserCode.setOnClose (h : InUserCode s) (callback : Option κ) :
    InUserCode (s.apply (.onClose callback)) where
  quiet := h.quiet.concat nofun
  before hopen := by
    refine ⟨?_, lastSet_concat s.history (.sets callback)⟩
    rintro htold
    rcases told_concat.1 htold with htold | hsets
    · exact (h.before hopen).1 htold
    · exact Bool.false_ne_true hsets
  closed hclosed := Or.inl (told_concat.2 (Or.inl (h.told hclosed)))
  told hclosed := told_concat.2 (Or.inl (h.told hclosed))

theorem InUserCode.apply (h : InUserCode s) (effect : Effect κ) : InUserCode (s.apply effect) := by
  cases effect with
  | onClose callback => exact h.setOnClose callback
  | onMessage | onError | close | send => exact h.of_eq rfl rfl rfl

/-- A whole call of user code. -/
theorem InUserCode.call (h : InUserCode s) (code : UserCode κ) : InUserCode (s.call code) := by
  rw [Session.call]
  induction code.effects generalizing s with
  | nil => exact h
  | cons effect effects ih => exact ih (h.apply effect)

/-- Before `closed_` is set user code may run. -/
theorem Announced.inUserCode (h : Announced s) (hopen : s.context.closed = false) :
    InUserCode s where
  toAnnounced := h
  told hclosed := absurd (hopen.symm.trans hclosed) Bool.false_ne_true

/-! ### What the emit functions keep -/

/-- A call of onMessage or onError is recorded, and runs while the user was not told. -/
theorem Announced.emit (h : Announced s) (callback : Option κ) {event : κ → Event κ}
    (hclose : ∀ callback, (event callback).isClose = false)
    (hsets : ∀ callback last, (event callback).after last = last) (code : UserCode κ) :
    Announced (emit s callback event code).1 ∧ SameLoop s (emit s callback event code).1 := by
  rcases callback with - | callback
  · exact ⟨h, .refl s⟩
  rcases hclosed : s.context.closed with - | -
  · have hemit : (Callbacks.emit s (some callback) event code).1 =
        (s.record (event callback)).call code := by
      rw [Callbacks.emit, hclosed]
      rfl
    obtain ⟨hnot, hlast⟩ := h.before hclosed
    have hrecord : Announced (s.record (event callback)) := by
      refine ⟨h.quiet.concat fun _ ↦ hnot, fun _ ↦ ⟨?_, ?_⟩, fun hc ↦ ?_⟩
      · rw [Session.record, told_concat, hclose, not_or]
        exact ⟨hnot, Bool.false_ne_true⟩
      · exact (lastSet_concat _ _).trans ((hsets _ _).trans hlast)
      · exact absurd (hclosed.symm.trans hc) Bool.false_ne_true
    rw [hemit]
    have hloop := sameLoop_call (s.record (event callback)) code
    exact ⟨((hrecord.inUserCode hclosed).call code).toAnnounced, hloop.closed, hloop.phase⟩
  · have hemit : (Callbacks.emit s (some callback) event code).1 = s := by
      rw [Callbacks.emit, hclosed]
      rfl
    rw [hemit]
    exact ⟨h, .refl s⟩

theorem Announced.emitMessage (h : Announced s) (message : Message) (code : UserCode κ) :
    Announced (emitMessage s message code).1 ∧ SameLoop s (emitMessage s message code).1 :=
  h.emit _ (fun _ ↦ rfl) (fun _ _ ↦ rfl) code

theorem Announced.emitError (h : Announced s) (ec : ErrorCode) (code : UserCode κ) :
    Announced (emitError s ec code).1 ∧ SameLoop s (emitError s ec code).1 :=
  h.emit _ (fun _ ↦ rfl) (fun _ _ ↦ rfl) code

/-- After emitClose() the user was told, unless there was no callback to call. -/
theorem Announced.emitClose (h : Announced s) (code : CloseCode) (user : UserCode κ) :
    Announced (emitClose s code user).1 ∧ (emitClose s code user).1.context.closed = true ∧
      (emitClose s code user).1.phase = s.phase := by
  rw [Callbacks.emitClose]
  split
  · next hclosed => exact ⟨h, hclosed, rfl⟩
  next hclosed =>
  obtain ⟨hnot, hlast⟩ := h.before (Bool.not_eq_true _ ▸ hclosed)
  split
  · next hnone =>
    exact ⟨⟨h.quiet, nofun, fun _ ↦ Or.inr (hlast.trans hnone)⟩, rfl, rfl⟩
  · next callback _ =>
    -- the callback runs with `closed_` set, and after it was called
    let called := { s with context := { closed := true } }.record (.close callback code)
    have htold : Told called.history := told_concat.2 (Or.inr rfl)
    have hcalled : InUserCode called :=
      ⟨⟨h.quiet.concat fun _ ↦ hnot, nofun, fun _ ↦ Or.inl htold⟩, fun _ ↦ htold⟩
    have hloop := sameLoop_call called user
    exact ⟨(hcalled.call user).toAnnounced, hloop.closed, hloop.phase⟩

/-! ### What the handlers keep -/

/-- The functions of open() run, up to the first that stops or throws. -/
theorem InUserCode.routeOpen (h : InUserCode s) (codes : List (UserCode κ)) :
    InUserCode (routeOpen s codes).1 ∧ SameLoop s (routeOpen s codes).1 := by
  induction codes generalizing s with
  | nil => exact ⟨h, .refl s⟩
  | cons code codes ih =>
    have hcall := h.call code
    have hloop := sameLoop_call s code
    rw [Callbacks.routeOpen]
    split
    · exact ⟨hcall, hloop⟩
    · exact ⟨hcall, hloop⟩
    · exact ⟨(ih hcall).1, hloop.trans (ih hcall).2⟩

theorem Announced.close (h : Announced s) (code : CloseCode) : Announced (s.close code) :=
  ⟨h.quiet, h.before, h.closed⟩

/-- Router::open, which closes a connection whose handler has thrown. -/
theorem Announced.routerOpen (h : Announced s) (hopen : s.context.closed = false)
    (route : Option (UserCode κ × List (UserCode κ))) : Announced (routerOpen s route) := by
  rcases route with - | ⟨handler, postMiddlewares⟩
  · exact h
  have hroute := ((h.inUserCode hopen).routeOpen (handler :: postMiddlewares)).1.toAnnounced
  rw [Callbacks.routerOpen]
  dsimp only
  split
  · exact hroute
  · exact hroute.close internalError

/-- What holds between two handlers: once the read loop has ended `closed_` is set. Before
on_accept() it is not, and nothing is being closed. -/
structure Inv (s : Session κ) : Prop extends Announced s where
  ended : s.phase = .ended → s.context.closed = true
  accepting : s.phase = .accepting → s.context.closed = false ∧ s.closeOp = none

/-- The read loop runs. -/
theorem Announced.doRead (h : Announced s) : Inv (doRead s) :=
  ⟨⟨h.quiet, h.before, h.closed⟩, nofun, nofun⟩

/-- A session whose handshake has ended. -/
theorem inv_start {queue : State} {context : Context κ} (hopen : context.closed = false) :
    Inv (start queue context) where
  quiet := List.pairwise_singleton _ _
  before _ := by
    refine ⟨?_, rfl⟩
    rintro ⟨e, hmem, he⟩
    rw [List.mem_singleton.1 hmem] at he
    exact Bool.false_ne_true he
  closed hclosed := absurd (hopen.symm.trans hclosed) Bool.false_ne_true
  ended := nofun
  accepting _ := ⟨hopen, rfl⟩

/-- on_accept() opens the session, or ends it. -/
theorem Inv.onAccept (h : Inv s) (hphase : s.phase = .accepting) (c : Completion κ) :
    Inv (onAccept s c) := by
  rw [Callbacks.onAccept]
  split
  · exact ⟨⟨h.quiet, h.before, h.closed⟩, nofun, nofun⟩
  split
  · exact (h.close goingAway).doRead
  · exact (h.routerOpen (h.accepting hphase).1 c.route).doRead

/-- Where emitClose() is the last thing a handler does. -/
theorem Announced.inv_emitClose (h : Announced s) (hphase : s.phase ≠ .accepting) (code : CloseCode)
    (user : UserCode κ) : Inv (Callbacks.emitClose s code user).1 := by
  obtain ⟨hannounced, hclosed, hsame⟩ := h.emitClose code user
  exact ⟨hannounced, fun _ ↦ hclosed, fun haccepting ↦ absurd (hsame ▸ haccepting) hphase⟩

/-- on_read() delivers the message and reads on, or closes the session. -/
theorem Inv.onRead (h : Inv s) (c : Completion κ) : Inv (onRead s c) := by
  have hended : Announced { s with phase := .ended } := ⟨h.quiet, h.before, h.closed⟩
  rw [Callbacks.onRead]
  dsimp only
  split
  · exact hended.inv_emitClose nofun c.reason c.onClose
  · next ec _ _ =>
    split
    · exact hended.inv_emitClose nofun abnormal c.onClose
    · obtain ⟨herror, hloop⟩ := hended.emitError ec c.onError
      exact herror.inv_emitClose (hloop.phase ▸ nofun) abnormal c.onClose
  · have hmessage := (hended.emitMessage c.message c.onMessage).1
    split
    · exact hmessage.doRead
    · exact (hmessage.close internalError).doRead

/-- **The step lemma.** -/
theorem inv_step {limit : ℕ} {a : Action κ} (h : Inv s)
    (hstep : (machine limit).step s a = some t) : Inv t := by
  cases a with
  | accepted c =>
    obtain ⟨hphase, hstep⟩ := Option.ite_none_right_eq_some.1 hstep
    exact Option.some.inj hstep ▸ h.onAccept hphase c
  | read c =>
    obtain ⟨-, hstep⟩ := Option.ite_none_right_eq_some.1 hstep
    exact Option.some.inj hstep ▸ h.onRead c
  | closed c =>
    obtain ⟨code, hcode, rfl⟩ := Option.map_eq_some_iff.1 hstep
    have hphase : s.phase ≠ .accepting := fun haccepting ↦ by
      rw [(h.accepting haccepting).2] at hcode
      exact Option.some_ne_none code hcode.symm
    have hannounced : Announced { s with closeOp := none } := ⟨h.quiet, h.before, h.closed⟩
    exact hannounced.inv_emitClose hphase code c.onClose
  | queue a =>
    obtain ⟨hphase, hstep⟩ := Option.ite_none_left_eq_some.1 hstep
    obtain ⟨queue, -, rfl⟩ := Option.map_eq_some_iff.1 hstep
    exact ⟨⟨h.quiet, h.before, h.closed⟩, h.ended, fun haccepting ↦ absurd haccepting hphase⟩

/-- **The run lemma.** -/
theorem inv_of_reachable {limit : ℕ} (h : (machine limit).Reachable s) : Inv s := by
  refine h.invariant ?_ fun _ _ _ hs hstep ↦ inv_step hs hstep
  rintro _ ⟨queue, context, -, -, hopen, rfl⟩
  exact inv_start hopen

/-- **onClose exactly once.** In every run the onClose callback is called once at most, no callback
is called after it, and once the read loop has ended it was called, if there was one. -/
theorem onClose_exactly_once {limit : ℕ} (h : (machine limit).Reachable s) :
    s.history.countP Event.isClose ≤ 1 ∧
      (s.history.Pairwise fun e later ↦ e.isClose = true → later.isCall = false) ∧
      (s.phase = .ended →
        (∃ e ∈ s.history, e.isClose = true) ∨ lastSet s.history = none) := by
  have hinv := inv_of_reachable h
  exact ⟨hinv.quiet.countP_isClose_le_one, hinv.quiet, fun hended ↦ hinv.closed (hinv.ended hended)⟩

/-- The route handler sets the callbacks and throws. The first message replaces two of them, sends
and throws; the connection is closed for that, and the peer's close arrives before async_close
completes. -/
def throwingRun : List (Action ℕ) :=
  let opened : UserCode ℕ :=
    { effects := [.onMessage (some 1), .onClose (some 2), .onError (some 3)], returns := none }
  let replacing : UserCode ℕ :=
    { effects := [.onClose (some 4), .onMessage none, .send ⟨[], true⟩], returns := none }
  [.accepted { route := some (opened, []) }, .read { onMessage := replacing }, .queue .task,
    .read { ec := some .closed, reason := 1011, onClose := { returns := none } }, .closed {}]

theorem onClose_exactly_once_throwing :
    ∃ s, (machine 8).run (start {} {}) throwingRun = some s ∧ s.phase = .ended ∧
      s.history.countP Event.isClose ≤ 1 ∧ ∃ e ∈ s.history, e.isClose = true := by
  have hinit : (machine 8).Init (start (κ := ℕ) {} {}) := ⟨{}, {}, rfl, rfl, rfl, rfl⟩
  obtain ⟨honce, -, htold⟩ :=
    onClose_exactly_once (Machine.run_reachable throwingRun hinit rfl)
  exact ⟨_, rfl, rfl, honce, (htold rfl).resolve_right (Option.some_ne_none 4)⟩

end CppGate.WebSocketSession.Callbacks
