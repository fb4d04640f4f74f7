import CppGate.Foundations.Parts
import CppGate.WebSocketSession.Callbacks

/-!
# The life of a server WebSocket session

A WebSocket session of the server from its construction on: run(), the refusal of an upgrade, the
handshake, and then the session of `Callbacks`. What the router makes of the upgrade and what user
code does is part of the labels. run() asks the registry and calls upgrade() in two steps, since
stopAll() may run on another thread between them.

A stop is only the task that close() posts, and close() does nothing while the handshake is not
over. What makes up for that is that on_accept() asks stopping() once more: a session that the
registry knew when the server began to stop ends up closing (`stop_closes`).
-/

namespace CppGate.WebSocketSession

open Callbacks

variable {κ : Type*}

/-! ### The session -/

/-- Where a session is. -/
inductive Stage
  /-- run() was not called yet. -/
  | created
  /-- The registry has the session, and run() is about to call upgrade(). -/
  | added
  /-- async_accept is outstanding. -/
  | handshaking
  /-- The write of `reject_response_` is outstanding. -/
  | rejecting
  /-- The TLS shutdown after it is outstanding. -/
  | shuttingDown
  /-- The upgrade was refused, and nothing is outstanding. -/
  | refused
  /-- on_accept() has run. -/
  | accepted
  deriving DecidableEq, Repr

/-- The session, and its registry as the session sees it. -/
structure Lifecycle (κ : Type*) where
  /-- The alternative of `stream_`. -/
  tls : Bool
  stage : Stage := .created
  session : Session κ := start { isOpen := false } {}
  /-- `sessions_->stopping()`. -/
  stopping : Bool := false
  /-- `sessions_` has the session. -/
  registered : Bool := false
  /-- Calls of stopAll() that took the session from the registry and have not called its stop(). -/
  stoppers : ℕ := 0
  deriving DecidableEq, Repr

namespace Lifecycle

/-- What `Router::upgrade` comes to. -/
inductive Routed (κ : Type*)
  /-- A route matches. With it comes what its pre-middlewares do. -/
  | matched (preMiddlewares : List (UserCode κ))
  /-- No route does, or the target is not valid: there is a response. -/
  | unmatched
  /-- The handler for that throws, and so does upgrade(). -/
  | threw
  deriving DecidableEq, Repr

/-! ### The session's functions -/

/-- `Router::Route::upgrade`: the pre-middlewares, up to the first that returns false. With it comes
whether all returned true, or nothing if one threw. -/
def routeUpgrade (s : Session κ) : List (UserCode κ) → Session κ × Option Bool
  | [] => (s, some true)
  | code :: rest =>
    match code.returns with
    | some true => routeUpgrade (s.call code) rest
    | returned => (s.call code, returned)

/-- `do_reject`. -/
def doReject (w : Lifecycle κ) : Lifecycle κ :=
  { w with stage := .rejecting }

/-- `do_accept`. -/
def doAccept (w : Lifecycle κ) : Lifecycle κ :=
  { w with stage := .handshaking }

/-- `SessionRegistry::add`, called by run(). -/
def add (w : Lifecycle κ) : Lifecycle κ :=
  -- upgrade requested while the Listener is stopping
  if w.stopping then doReject w else { w with registered := true, stage := .added }

/-- The rest of run(). -/
def upgrade (w : Lifecycle κ) : Routed κ → Lifecycle κ
  | .matched preMiddlewares =>
    let (session, accepted) := routeUpgrade w.session preMiddlewares
    if accepted = some true then doAccept { w with session } else doReject { w with session }
  | .unmatched => doReject w
  -- the exception leaves the handler
  | .threw => { w with stage := .refused }

/-- `on_reject`, whether or not the refusal was written. -/
def onReject (w : Lifecycle κ) : Lifecycle κ :=
  { w with stage := if w.tls then .shuttingDown else .refused }

/-- `on_reject_shutdown`. -/
def onRejectShutdown (w : Lifecycle κ) : Lifecycle κ :=
  { w with stage := .refused }

/-- The session at the end of the handshake. The stream is open if it succeeded. -/
def opened (w : Lifecycle κ) (c : Completion κ) : Session κ :=
  start { w.session.queue with isOpen := c.ec.isNone } w.session.context

/-- `on_accept`. -/
def onAccept (w : Lifecycle κ) (c : Completion κ) : Lifecycle κ :=
  { w with
    session := Callbacks.onAccept (opened w c) { c with stopping := w.stopping }
    stage := .accepted }

/-- `SessionRegistry::stopAll`, up to the calls of stop(). -/
def stopAll (w : Lifecycle κ) : Lifecycle κ :=
  { w with
    stopping := true
    stoppers := if w.registered then w.stoppers + 1 else w.stoppers }

/-- `stop`. -/
def stop (w : Lifecycle κ) : Lifecycle κ :=
  { w with session := w.session.close goingAway }

/-! ### The machine -/

/-- What happens next. -/
inductive Action (κ : Type*)
  /-- run() calls add(). -/
  | run
  /-- run() goes on. -/
  | upgrade (routed : Routed κ)
  /-- A thread calls stopAll(). -/
  | stopAll
  /-- A call of stopAll() calls the session's stop(). -/
  | stop
  /-- The write of the refusal completes. -/
  | rejected
  /-- The TLS shutdown after it completes. -/
  | shutDown
  /-- The handshake completes. -/
  | accepted (c : Completion κ)
  /-- Before that, a thread or a handler of the send queue takes a step. -/
  | queue (a : WebSocketSession.Action)
  /-- After that, the session goes on. -/
  | session (a : Callbacks.Action κ)
  deriving DecidableEq, Repr

/-- One step of the session. -/
def step (limit : ℕ) (w : Lifecycle κ) : Action κ → Option (Lifecycle κ)
  | .run => if w.stage = .created then some (add w) else none
  | .upgrade routed => if w.stage = .added then some (upgrade w routed) else none
  | .stopAll => some (stopAll w)
  | .stop => if 0 < w.stoppers then some (stop { w with stoppers := w.stoppers - 1 }) else none
  | .rejected => if w.stage = .rejecting then some (onReject w) else none
  | .shutDown => if w.stage = .shuttingDown then some (onRejectShutdown w) else none
  | .accepted c => if w.stage = .handshaking then some (onAccept w c) else none
  | .queue a =>
    -- the stream is not open
    if w.stage = .accepted ∨ a = .written true then none
    else (WebSocketSession.step limit w.session.queue a).map fun queue ↦
      { w with session := { w.session with queue } }
  | .session a =>
    if w.stage = .accepted then
      (Callbacks.step limit w.session a).map fun session ↦ { w with session }
    else
      none

/-- A session, from its construction on. -/
def machine (limit : ℕ) : Machine (Lifecycle κ) (Action κ) where
  Init w := ∃ tls, w = { tls }
  step := step limit

/-! ### What user code posts -/

/-- What says whether the connection is open. -/
structure Door where
  closing : Bool
  isOpen : Bool
  closedWith : Option CloseCode
  /-- The outstanding async_close. -/
  closeOp : Option CloseCode

/-- Whether the connection is open. -/
def door (s : Session κ) : Door :=
  ⟨s.queue.closing, s.queue.isOpen, s.queue.closedWith, s.closeOp⟩

/-- A session that went on from another without the strand running a task: what is new there was
posted behind the tasks that were there. -/
structure Posts (s t : Session κ) : Prop where
  door : door t = door s
  tasks : ∃ more, t.queue.tasks = s.queue.tasks ++ more

variable {limit : ℕ} {s t u : Session κ} {w w' : Lifecycle κ}

theorem Posts.refl (s : Session κ) : Posts s s :=
  ⟨rfl, [], (List.append_nil _).symm⟩

theorem Posts.trans (h : Posts s t) (h' : Posts t u) : Posts s u := by
  obtain ⟨more, hmore⟩ := h.tasks
  obtain ⟨more', hmore'⟩ := h'.tasks
  exact ⟨h'.door.trans h.door, more ++ more', by rw [hmore', hmore, List.append_assoc]⟩

theorem Posts.closing (h : Posts s t) : t.queue.closing = s.queue.closing :=
  congrArg Door.closing h.door

theorem Posts.isOpen (h : Posts s t) : t.queue.isOpen = s.queue.isOpen :=
  congrArg Door.isOpen h.door

theorem Posts.closedWith (h : Posts s t) : t.queue.closedWith = s.queue.closedWith :=
  congrArg Door.closedWith h.door

theorem Posts.closeOp (h : Posts s t) : t.closeOp = s.closeOp :=
  congrArg Door.closeOp h.door

/-- Nothing is posted where the queue stays as it is. -/
theorem posts_of_queue (hqueue : t.queue = s.queue) (hop : t.closeOp = s.closeOp) : Posts s t :=
  ⟨by rw [Lifecycle.door, hqueue, hop]; rfl, [], by rw [hqueue, List.append_nil]⟩

theorem posts_close (s : Session κ) (code : CloseCode) : Posts s (s.close code) :=
  ⟨rfl, [.close code], rfl⟩

theorem posts_apply (s : Session κ) (effect : Effect κ) : Posts s (s.apply effect) := by
  cases effect with
  | onMessage | onClose | onError => exact posts_of_queue rfl rfl
  | close code => exact posts_close s code
  | send message => exact ⟨rfl, [.send message], rfl⟩

/-- A whole call of user code. -/
theorem posts_call (s : Session κ) (code : UserCode κ) : Posts s (s.call code) := by
  rw [Session.call]
  induction code.effects generalizing s with
  | nil => exact .refl s
  | cons effect effects ih => exact (posts_apply s effect).trans (ih (s.apply effect))

theorem posts_emit (s : Session κ) (callback : Option κ) (event : κ → Event κ)
    (code : UserCode κ) : Posts s (emit s callback event code).1 := by
  rcases callback with - | callback
  · exact .refl s
  have hrecord : Posts s (s.record (event callback)) := posts_of_queue rfl rfl
  show Posts s (if _ then _ else _ : Session κ × Bool).1
  split
  · exact .refl s
  · exact hrecord.trans (posts_call _ code)

theorem posts_emitClose (s : Session κ) (code : CloseCode) (user : UserCode κ) :
    Posts s (emitClose s code user).1 := by
  rw [emitClose]
  split
  · exact .refl s
  · dsimp only
    split
    · exact posts_of_queue rfl rfl
    · next callback _ =>
      have hreleased : Posts s (Session.record { s with context := { closed := true } }
          (.close callback code)) := posts_of_queue rfl rfl
      exact hreleased.trans (posts_call _ user)

theorem posts_routeUpgrade (s : Session κ) (codes : List (UserCode κ)) :
    Posts s (routeUpgrade s codes).1 := by
  induction codes generalizing s with
  | nil => exact .refl s
  | cons code codes ih =>
    rw [routeUpgrade]
    split
    · exact (posts_call s code).trans (ih _)
    · exact posts_call s code

theorem posts_routeOpen (s : Session κ) (codes : List (UserCode κ)) :
    Posts s (routeOpen s codes).1 := by
  induction codes generalizing s with
  | nil => exact .refl s
  | cons code codes ih =>
    rw [routeOpen]
    split
    · exact posts_call s code
    · exact posts_call s code
    · exact (posts_call s code).trans (ih _)

theorem posts_routerOpen (s : Session κ) (route : Option (UserCode κ × List (UserCode κ))) :
    Posts s (routerOpen s route) := by
  rcases route with - | ⟨handler, postMiddlewares⟩
  · exact .refl s
  have hopen := posts_routeOpen s (handler :: postMiddlewares)
  rw [routerOpen]
  dsimp only
  split
  · exact hopen
  · exact hopen.trans (posts_close _ internalError)

theorem posts_doRead (s : Session κ) : Posts s (doRead s) :=
  posts_of_queue rfl rfl

theorem posts_onAccept (s : Session κ) (c : Completion κ) : Posts s (Callbacks.onAccept s c) := by
  rw [Callbacks.onAccept]
  split
  · exact posts_of_queue rfl rfl
  · split
    · exact (posts_close s goingAway).trans (posts_doRead _)
    · exact (posts_routerOpen s c.route).trans (posts_doRead _)

theorem posts_onRead (s : Session κ) (c : Completion κ) : Posts s (onRead s c) := by
  have hended : Posts s { s with phase := .ended } := posts_of_queue rfl rfl
  rw [onRead]
  dsimp only
  split
  · exact hended.trans (posts_emitClose _ _ _)
  · refine Posts.trans ?_ (posts_emitClose _ _ _)
    split
    · exact hended
    · exact hended.trans (posts_emit _ _ _ _)
  · have hemit := hended.trans (posts_emit { s with phase := .ended } s.context.onMessage
      (Event.message · c.message) c.onMessage)
    refine Posts.trans ?_ (posts_doRead _)
    split
    · exact hemit
    · exact hemit.trans (posts_close _ internalError)

/-! ### What the strand does to the queue -/

/-- What a step of the send queue does to the tasks and to whether the connection is open. -/
inductive Moves (q q' : State) : Prop
  /-- It posts at most. -/
  | posts (more : List Task) (hclosing : q'.closing = q.closing) (hopen : q'.isOpen = q.isOpen)
    (hclosed : q'.closedWith = q.closedWith) (htasks : q'.tasks = q.tasks ++ more)
  /-- The strand runs the task of a send. -/
  | sends (message : Message) (tasks more : List Task) (hran : q.tasks = .send message :: tasks)
    (hclosing : q'.closing = q.closing) (hopen : q'.isOpen = q.isOpen)
    (hclosed : q'.closedWith = q.closedWith) (htasks : q'.tasks = tasks ++ more)
  /-- The strand runs the task of a close. -/
  | closes (code : CloseCode) (tasks : List Task) (hran : q.tasks = .close code :: tasks)
    (heq : q' = runClose { q with tasks } code)
  | lost (heq : q' = { q with isOpen := false })

/-- Beginning a write closes nothing. -/
theorem doWrite_same (q : State) : (doWrite q).closing = q.closing ∧
    (doWrite q).isOpen = q.isOpen ∧ (doWrite q).closedWith = q.closedWith ∧
      (doWrite q).tasks = q.tasks := by
  rw [doWrite]
  split <;> exact ⟨rfl, rfl, rfl, rfl⟩

/-- A send task closes nothing, and may post the close of a full queue. -/
theorem runSend_same (limit : ℕ) (q : State) (message : Message) :
    (runSend limit q message).closing = q.closing ∧
      (runSend limit q message).isOpen = q.isOpen ∧
        (runSend limit q message).closedWith = q.closedWith ∧
          ∃ more, (runSend limit q message).tasks = q.tasks ++ more := by
  rw [runSend]
  dsimp only
  split
  · exact ⟨rfl, rfl, rfl, [], (List.append_nil _).symm⟩
  split
  · exact ⟨rfl, rfl, rfl, [.close policyError], rfl⟩
  split
  · obtain ⟨hclosing, hopen, hclosed, htasks⟩ := doWrite_same { q with
      sent := q.sent ++ [message]
      writeQueue := q.writeQueue ++ [message] }
    exact ⟨hclosing, hopen, hclosed, [], htasks.trans (List.append_nil _).symm⟩
  · exact ⟨rfl, rfl, rfl, [], (List.append_nil _).symm⟩

/-- Every step of the send queue is a move. -/
theorem moves_of_step {q q' : State} {a : WebSocketSession.Action}
    (h : WebSocketSession.step limit q a = some q') : Moves q q' := by
  cases stepped_of_step h with
  | send message => exact .posts [] rfl rfl rfl (List.append_nil _).symm
  | post i message => exact .posts [.send message] rfl rfl rfl rfl
  | close code => exact .posts [.close code] rfl rfl rfl rfl
  | runSend message tasks htasks =>
    obtain ⟨hclosing, hopen, hclosed, more, hmore⟩ := runSend_same limit { q with tasks } message
    exact .sends message tasks more htasks hclosing hopen hclosed hmore
  | runClose code tasks htasks => exact .closes code tasks htasks rfl
  | written message writing hw hok =>
    obtain ⟨hclosing, hopen, hclosed, htasks⟩ := doWrite_same _
    exact .posts [] hclosing hopen hclosed (htasks.trans (List.append_nil _).symm)
  | failed message writing hw => exact .posts [] rfl rfl rfl (List.append_nil _).symm
  | lost => exact .lost rfl

end Lifecycle

end CppGate.WebSocketSession
