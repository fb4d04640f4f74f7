import CppGate.WebSocketClient.Connection

/-!
# The callbacks that are set decide what is delivered, and nothing else

A connection never looks at its callbacks but to deliver an event. So the run of a connection with
some of them set is the run of the one with all of them set, of which the other events are left out:
each function of the connection commutes with `mute`, and therefore each step and each run do. What
is said of a connection with all callbacks set is said of any.
-/

namespace CppGate.WebSocketClient

open CppGate.WebSocketSession (CloseCode Message)

/-- All callbacks set. -/
def Callbacks.all : Callbacks where
  onOpen := true
  onMessage := true
  onClose := true
  onError := true
  onReconnecting := true

/-- Those that are set on both sides. -/
def Callbacks.only (wanted callbacks : Callbacks) : Callbacks where
  onOpen := wanted.onOpen && callbacks.onOpen
  onMessage := wanted.onMessage && callbacks.onMessage
  onClose := wanted.onClose && callbacks.onClose
  onError := wanted.onError && callbacks.onError
  onReconnecting := wanted.onReconnecting && callbacks.onReconnecting

theorem Callbacks.all_wants (event : Event) : Callbacks.all.wants event = true := by
  cases event <;> rfl

theorem Callbacks.only_all (wanted : Callbacks) : wanted.only .all = wanted := by
  simp only [Callbacks.only, Callbacks.all, Bool.and_true]

theorem Callbacks.only_none (wanted : Callbacks) : wanted.only {} = {} := by
  simp only [Callbacks.only, Bool.and_false]

/-- Only events that are wanted and whose callback is set. -/
theorem Callbacks.only_wants (wanted callbacks : Callbacks) (event : Event) :
    (wanted.only callbacks).wants event = (wanted.wants event && callbacks.wants event) := by
  cases event <;> rfl

/-- The same connection with only some of its callbacks, and what these were told. -/
def mute (wanted : Callbacks) (s : Connection) : Connection :=
  { s with
    callbacks := wanted.only s.callbacks
    delivered := s.delivered.filter wanted.wants }

variable (cfg : Config) (wanted : Callbacks) (s : Connection) (c : Completion)

/-! ### Each function -/

/-- An event that is muted is not delivered, and nothing else changes. -/
theorem emit_mute (event : Event) : emit (mute wanted s) event = mute wanted (emit s event) := by
  have hdelivered : (mute wanted s).delivered ++ [event].filter (mute wanted s).callbacks.wants =
      (s.delivered ++ [event].filter s.callbacks.wants).filter wanted.wants := by
    have hwants : (wanted.only s.callbacks).wants =
        fun event ↦ wanted.wants event && s.callbacks.wants event :=
      funext fun event ↦ wanted.only_wants s.callbacks event
    rw [List.filter_append, List.filter_filter, ← hwants]
    rfl
  rw [emit, hdelivered]
  rfl

theorem stop_mute : stop (mute wanted s) = mute wanted (stop s) := by
  simp only [stop, mute, Callbacks.only_none]

/-- **The parts of the handlers** do the same when some callbacks are not set. -/
theorem attempt_mute : attempt (mute wanted s) = mute wanted (attempt s) := by
  rw [attempt, attempt, apply_ite (mute wanted), ← stop_mute]
  rfl

theorem start_mute : start cfg (mute wanted s) = mute wanted (start cfg s) := by
  rw [start, start]
  cases cfg.url with
  | inl ec =>
    dsimp only
    rw [← stop_mute, ← emit_mute]
    rfl
  | inr target => exact attempt_mute wanted { s with starting := false, target := target }

theorem scheduleRetry_mute :
    scheduleRetry cfg (mute wanted s) c = mute wanted (scheduleRetry cfg s c) := by
  have hbegin (t : Connection) (operation : Operation) :
      mute wanted (t.begin operation) = (mute wanted t).begin operation := rfl
  simp only [scheduleRetry, apply_ite (mute wanted), ← stop_mute, ← emit_mute, hbegin]
  rfl

theorem attemptFailed_mute (ec : ErrorCode) :
    attemptFailed cfg (mute wanted s) ec c = mute wanted (attemptFailed cfg s ec c) := by
  rw [attemptFailed, attemptFailed, apply_ite (mute wanted), ← stop_mute, ← scheduleRetry_mute,
    ← emit_mute]
  rfl

theorem onConnect_mute (gen : ℕ) :
    onConnect cfg (mute wanted s) gen c = mute wanted (onConnect cfg s gen c) := by
  rw [onConnect, onConnect, apply_ite (mute wanted)]
  cases c.sni with
  | some ec =>
    dsimp only
    rw [← attemptFailed_mute]
    rfl
  | none => rfl

theorem onUpgrade_mute (gen : ℕ) :
    onUpgrade cfg (mute wanted s) gen c = mute wanted (onUpgrade cfg s gen c) := by
  have hread (t : Connection) : mute wanted (read t gen) = read (mute wanted t) gen := rfl
  have hclose (t : Connection) (code : CloseCode) :
      mute wanted (closeOpen t code) = closeOpen (mute wanted t) code := rfl
  rw [onUpgrade, onUpgrade]
  split
  · simp only [apply_ite (mute wanted), ← stop_mute, ← emit_mute]
    rfl
  · exact attemptFailed_mute cfg wanted s c _
  · simp only [apply_ite (mute wanted), hread, hclose, ← emit_mute]
    rfl

theorem closed_mute (code : CloseCode) :
    closed cfg (mute wanted s) code c = mute wanted (closed cfg s code c) := by
  simp only [closed, apply_ite (mute wanted), ← stop_mute, ← scheduleRetry_mute, ← emit_mute]
  rfl

theorem finishOwnClose_mute :
    finishOwnClose cfg (mute wanted s) c = mute wanted (finishOwnClose cfg s c) := by
  rw [finishOwnClose, finishOwnClose]
  have hresult : (mute wanted s).closeResult = s.closeResult := rfl
  rw [hresult]
  cases s.closeResult with
  | some ec => exact closed_mute cfg wanted s c _
  | none => exact closed_mute cfg wanted s c _

theorem ended_mute (ec : ErrorCode) :
    ended cfg (mute wanted s) ec c = mute wanted (ended cfg s ec c) := by
  simp only [ended, apply_ite (mute wanted), ← finishOwnClose_mute, ← closed_mute, ← emit_mute]
  rfl

theorem onRead_mute (gen : ℕ) :
    onRead cfg (mute wanted s) gen c = mute wanted (onRead cfg s gen c) := by
  rw [onRead, onRead]
  cases c.ec with
  | some ec => exact ended_mute cfg wanted s c ec
  | none => exact congrArg (read · gen) (emit_mute wanted s _)

theorem onClosed_mute : onClosed cfg (mute wanted s) c = mute wanted (onClosed cfg s c) := by
  simp only [onClosed, apply_ite (mute wanted), ← finishOwnClose_mute]
  rfl

theorem onRetryTimer_mute :
    onRetryTimer (mute wanted s) c = mute wanted (onRetryTimer s c) := by
  rw [onRetryTimer, onRetryTimer, apply_ite (mute wanted), ← attempt_mute]
  rfl

theorem doClose_mute (code : CloseCode) :
    doClose (mute wanted s) code = mute wanted (doClose s code) := by
  have hstate : (mute wanted s).state = s.state := rfl
  rw [doClose, doClose, apply_ite (mute wanted)]
  dsimp only
  rw [hstate]
  cases s.state with
  | opened | connecting => rfl
  | idle | closing | waiting | stopped =>
    dsimp only
    rw [← stop_mute]
    rfl

theorem attemptStep_mute (next : Connection) :
    attemptStep cfg (mute wanted s) c (mute wanted next) =
      mute wanted (attemptStep cfg s c next) := by
  rw [attemptStep, attemptStep]
  cases c.ec with
  | some ec => exact attemptFailed_mute cfg wanted s c ec
  | none => rfl

/-- Every handler does. -/
theorem handle_mute (operation : Operation) :
    handle cfg (mute wanted s) c operation = mute wanted (handle cfg s c operation) := by
  cases operation with
  | resolve gen | tlsHandshake gen =>
    rw [handle, handle, apply_ite (mute wanted), ← attemptStep_mute]
    rfl
  | connect gen =>
    rw [handle, handle, apply_ite (mute wanted), ← attemptStep_mute, ← onConnect_mute]
    rfl
  | upgrade gen =>
    rw [handle, handle, apply_ite (mute wanted), ← onUpgrade_mute]
    rfl
  | read gen =>
    rw [handle, handle, apply_ite (mute wanted), ← onRead_mute]
    rfl
  | close gen code =>
    rw [handle, handle, apply_ite (mute wanted), ← onClosed_mute]
    rfl
  | retryTimer => exact onRetryTimer_mute wanted s c

theorem write_mute (gen : ℕ) : write (mute wanted s) gen = mute wanted (write s gen) := by
  have hqueue : (mute wanted s).writeQueue = s.writeQueue := rfl
  rw [write, write, hqueue]
  cases s.writeQueue <;> rfl

theorem runSend_mute (message : Message) (gen : ℕ) :
    runSend (mute wanted s) message gen = mute wanted (runSend s message gen) := by
  simp only [runSend, apply_ite (mute wanted), ← write_mute]
  rfl

theorem onWrite_mute (gen : ℕ) (ec : Option ErrorCode) :
    onWrite (mute wanted s) gen ec = mute wanted (onWrite s gen ec) := by
  simp only [onWrite, apply_ite (mute wanted), ← write_mute]
  rfl

theorem send_mute (i : ℕ) (spurious : Bool) (sender : Sender) :
    send cfg (mute wanted s) i spurious sender = mute wanted (send cfg s i spurious sender) := by
  cases sender with
  | load message | capture message | post message gen => rfl
  | reserve message current =>
    simp only [send, apply_ite (mute wanted)]
    rfl

/-! ### Steps and runs -/

/-- **One step** of a connection with only some callbacks. -/
theorem step_mute (action : Action) :
    step cfg (mute wanted s) action = (step cfg s action).map (mute wanted) := by
  cases action with
  | start =>
    simp only [step, start_mute, apply_ite (Option.map (mute wanted))]
    rfl
  | close code | destroy => rfl
  | send message =>
    simp only [step, Option.map_some, apply_ite (mute wanted)]
    rfl
  | sender i spurious =>
    simp only [step, Option.map_map]
    exact congrArg (Option.map · s.senders[i]?) (funext fun sender ↦ send_mute ..)
  | task =>
    have htasks : (mute wanted s).tasks = s.tasks := rfl
    rw [step, step, htasks]
    cases s.tasks with
    | nil => rfl
    | cons task tasks =>
      cases task with
      | close code => exact congrArg some (doClose_mute wanted { s with tasks := tasks } code)
      | send message gen =>
        exact congrArg some (runSend_mute wanted { s with tasks := tasks } message gen)
  | complete operation c =>
    simp only [step, apply_ite (Option.map (mute wanted)), Option.map_some, Option.map_none,
      ← handle_mute]
    rfl
  | written write ec =>
    simp only [step, apply_ite (Option.map (mute wanted)), Option.map_some, Option.map_none,
      ← onWrite_mute]
    rfl

/-- The configuration with all callbacks set. -/
def Config.loud (cfg : Config) : Config :=
  { cfg with callbacks := .all }

/-- **A run** of a connection is the run of the one with all callbacks set, muted. -/
theorem run_mute (actions : List Action) :
    (machine cfg).run { callbacks := cfg.callbacks } actions =
      ((machine cfg.loud).run { callbacks := .all } actions).map (mute cfg.callbacks) := by
  have hstart : mute cfg.callbacks { callbacks := .all } = { callbacks := cfg.callbacks } := by
    rw [mute, Callbacks.only_all]
    rfl
  rw [← hstart]
  exact Machine.run_map (mute cfg.callbacks)
    (fun s action ↦ step_mute cfg.loud cfg.callbacks s action) _ actions

end CppGate.WebSocketClient
