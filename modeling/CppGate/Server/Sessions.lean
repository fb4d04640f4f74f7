import CppGate.HttpSession.Admission
import CppGate.Server.Listener
import CppGate.WebSocketSession.GoingAway

/-!
# The sessions of a server

A session of the server is an `HttpSession` or a `WebSocketSession`; the registry knows both as
`detail::Session` (`Session`). What a session sees of the registry are three facts (`Sight`):
whether it is stopping, whether it has the session, and how many calls of stopAll() are about to
call its stop(). A session changes them in one step only, where run() calls add(), and the registry
changes them behind its back otherwise.
-/

namespace CppGate.Server

/-- What a session sees of its registry. -/
structure Sight where
  /-- `stopping()`. -/
  stopping : Bool := false
  /-- The registry has the session. -/
  registered : Bool := false
  /-- Calls of stopAll() that have yet to call its stop(). -/
  stoppers : ℕ := 0
  deriving DecidableEq, Repr

/-- What is seen after add(). -/
def Sight.add (sight : Sight) : Sight :=
  if sight.stopping then sight else { sight with registered := true }

/-- What is seen after stopAll(). -/
def Sight.stopAll (sight : Sight) : Sight :=
  { sight with
    stopping := true
    stoppers := if sight.registered then sight.stoppers + 1 else sight.stoppers }

/-! ### HTTP sessions -/

section Http

open HttpSession

/-- What an HTTP session sees. -/
def httpSight (s : HttpSession.Session) : Sight :=
  ⟨s.stopping, s.registered, s.stoppers⟩

variable {s t : HttpSession.Session} {cfg : HttpSession.Config}

/-- What a session sees is part of its frame. -/
theorem httpSight_of_frame (h : t.frame = s.frame) : httpSight t = httpSight s :=
  congrArg (fun frame : Frame ↦ Sight.mk frame.stopping frame.registered frame.stoppers) h

theorem httpSight_runTask (s : HttpSession.Session) (task : Task) :
    httpSight (runTask s task) = httpSight s := by
  have hframe := frame_runTask s task
  split at hframe
  · exact congrArg (fun frame : Frame ↦ Sight.mk frame.stopping frame.registered frame.stoppers)
      hframe
  · exact httpSight_of_frame hframe

/-- A session changes what it sees only where run() calls add(). -/
theorem httpSight_step {action : HttpSession.Action}
    (hstep : HttpSession.step cfg s action = some t) (hstopAll : action ≠ .stopAll)
    (hstop : action ≠ .stop) :
    httpSight t = if action = .run then (httpSight s).add else httpSight s := by
  cases stepped_of_step hstep with
  | run hlaunch =>
    rw [if_pos rfl, HttpSession.add, Sight.add]
    show httpSight (if s.stopping then _ else _) = if s.stopping then _ else _
    split <;> rfl
  | dispatch hlaunch => rfl
  | stopAll => exact absurd rfl hstopAll
  | stop => exact absurd rfl hstop
  | task task tasks ht => exact httpSight_runTask { s with tasks := tasks } task
  | complete kind c hmem => rfl
  | handle kind c hmem =>
    exact httpSight_of_frame (frame_handle _ (s.without { kind := kind, done := some c }) kind c)

end Http

/-! ### WebSocket sessions -/

section WebSocket

open WebSocketSession

variable {κ : Type*} {limit : ℕ} {w w' : Lifecycle κ}

/-- What a WebSocket session sees. -/
def webSocketSight (w : Lifecycle κ) : Sight :=
  ⟨w.stopping, w.registered, w.stoppers⟩

theorem webSocketSight_upgrade (w : Lifecycle κ) (routed : Lifecycle.Routed κ) :
    webSocketSight (w.upgrade routed) = webSocketSight w := by
  cases routed with
  | matched preMiddlewares =>
    rw [Lifecycle.upgrade]
    dsimp only
    split <;> rfl
  | unmatched | threw => rfl

/-- A session changes what it sees only where run() calls add(). -/
theorem webSocketSight_step {action : Lifecycle.Action κ}
    (hstep : Lifecycle.step limit w action = some w') (hrun : action ≠ .run)
    (hstopAll : action ≠ .stopAll) (hstop : action ≠ .stop) :
    webSocketSight w' = webSocketSight w := by
  cases action with
  | run => exact absurd rfl hrun
  | stopAll => exact absurd rfl hstopAll
  | stop => exact absurd rfl hstop
  | upgrade routed =>
    obtain ⟨-, hstep⟩ := Option.ite_none_right_eq_some.1 hstep
    exact Option.some.inj hstep ▸ webSocketSight_upgrade w routed
  | rejected | shutDown | accepted =>
    obtain ⟨-, hstep⟩ := Option.ite_none_right_eq_some.1 hstep
    exact Option.some.inj hstep ▸ rfl
  | queue a =>
    obtain ⟨-, hstep⟩ := Option.ite_none_left_eq_some.1 hstep
    obtain ⟨queue, -, rfl⟩ := Option.map_eq_some_iff.1 hstep
    rfl
  | session a =>
    obtain ⟨-, hstep⟩ := Option.ite_none_right_eq_some.1 hstep
    obtain ⟨session, -, rfl⟩ := Option.map_eq_some_iff.1 hstep
    rfl

theorem webSocketSight_add (w : Lifecycle κ) :
    webSocketSight w.add = (webSocketSight w).add := by
  rw [Lifecycle.add, Sight.add]
  show webSocketSight (if w.stopping then _ else _) = if w.stopping then _ else _
  split <;> rfl

end WebSocket

/-! ### Sessions of either kind -/

/-- `detail::Session`. -/
inductive Session (κ : Type*)
  | http (s : HttpSession.Session)
  | webSocket (w : WebSocketSession.Lifecycle κ)

/-- What happens to a session. -/
inductive Act (κ : Type*)
  | http (a : HttpSession.Action)
  | webSocket (a : WebSocketSession.Lifecycle.Action κ)

/-- What the listener was set up with, Beast's messages, and `websocket_send_queue_limit`. -/
structure Config where
  listener : ListenerConfig
  beast : Http.Beast
  sendQueueLimit : ℕ

/-- What the HTTP sessions of a listener are set up with. -/
def Config.http (cfg : Config) : HttpSession.Config where
  withPlain := cfg.listener.supportPlain
  withSsl := cfg.listener.supportSsl
  plain_or_ssl := cfg.listener.supported
  beast := cfg.beast

variable {κ : Type*} {cfg : Config} {s t : Session κ} {a : Act κ}

namespace Session

/-- What a session sees of its registry. -/
def sight : Session κ → Sight
  | .http s => httpSight s
  | .webSocket w => webSocketSight w

/-- The session as it is when it sees something else. -/
def see (sight : Sight) : Session κ → Session κ
  | .http s => .http { s with
      stopping := sight.stopping, registered := sight.registered, stoppers := sight.stoppers }
  | .webSocket w => .webSocket { w with
      stopping := sight.stopping, registered := sight.registered, stoppers := sight.stoppers }

@[simp] theorem sight_see (sight : Sight) (s : Session κ) : (s.see sight).sight = sight := by
  cases s <;> rfl

@[simp] theorem see_sight (s : Session κ) : s.see s.sight = s := by
  cases s <;> rfl

@[simp] theorem see_see (sight sight' : Sight) (s : Session κ) :
    (s.see sight).see sight' = s.see sight' := by
  cases s <;> rfl

/-- `stop`. -/
def stop : Session κ → Session κ
  | .http s => .http (HttpSession.stop s)
  | .webSocket w => .webSocket w.stop

@[simp] theorem sight_stop (s : Session κ) : s.stop.sight = s.sight := by
  cases s <;> rfl

/-- One step of a session. -/
def step (cfg : Config) : Session κ → Act κ → Option (Session κ)
  | .http s, .http a => (HttpSession.step cfg.http s a).map .http
  | .webSocket w, .webSocket a =>
    (WebSocketSession.Lifecycle.step cfg.sendQueueLimit w a).map .webSocket
  | _, _ => none

end Session

/-- run() calls add(). -/
def Act.joins : Act κ → Bool
  | .http .run | .webSocket .run => true
  | _ => false

/-- The session does it, and not a call of stopAll(). -/
def Act.own : Act κ → Bool
  | .http .stopAll | .http .stop | .webSocket .stopAll | .webSocket .stop => false
  | _ => true

/-- A call of stopAll(), as a session of that kind takes it. -/
def Session.stopAllAct : Session κ → Act κ
  | .http _ => .http .stopAll
  | .webSocket _ => .webSocket .stopAll

/-- A call of stop(), as a session of that kind takes it. -/
def Session.stopAct : Session κ → Act κ
  | .http _ => .http .stop
  | .webSocket _ => .webSocket .stop

namespace Session

/-- A session takes notice of stopAll() at any time. -/
theorem step_stopAll (cfg : Config) (s : Session κ) :
    s.step cfg s.stopAllAct = some (s.see s.sight.stopAll) := by
  cases s <;> rfl

/-- The registry may call stop() of a session that it owes the call. -/
theorem step_stop (cfg : Config) (s : Session κ) (hstoppers : 0 < s.sight.stoppers) :
    s.step cfg s.stopAct =
      some (s.see { s.sight with stoppers := s.sight.stoppers - 1 }).stop := by
  cases s with
  | http s => exact congrArg (Option.map Session.http) (if_pos hstoppers)
  | webSocket w => exact congrArg (Option.map Session.webSocket) (if_pos hstoppers)

/-- A session changes what it sees only where it joins. -/
theorem sight_step (hstep : s.step cfg a = some t) (hown : a.own = true) :
    t.sight = if a.joins then s.sight.add else s.sight := by
  cases s with
  | http s =>
    cases a with
    | webSocket a => exact absurd hstep.symm (Option.some_ne_none t)
    | http a =>
      obtain ⟨s', hs', rfl⟩ := Option.map_eq_some_iff.1 hstep
      have hsight := httpSight_step hs' (fun h ↦ by rw [h] at hown; exact Bool.false_ne_true hown)
        (fun h ↦ by rw [h] at hown; exact Bool.false_ne_true hown)
      cases a <;> exact hsight
  | webSocket w =>
    cases a with
    | http a => exact absurd hstep.symm (Option.some_ne_none t)
    | webSocket a =>
      obtain ⟨w', hw', rfl⟩ := Option.map_eq_some_iff.1 hstep
      by_cases hrun : a = .run
      · subst hrun
        obtain ⟨-, hw'⟩ := Option.ite_none_right_eq_some.1 hw'
        exact Option.some.inj hw' ▸ webSocketSight_add w
      · have hsight := webSocketSight_step hw' hrun
          (fun h ↦ by rw [h] at hown; exact Bool.false_ne_true hown)
          (fun h ↦ by rw [h] at hown; exact Bool.false_ne_true hown)
        cases a with
        | run => exact absurd rfl hrun
        | _ => exact hsight

end Session

/-- A session, from its construction on. -/
def sessionMachine (κ : Type*) (cfg : Config) : Machine (Session κ) (Act κ) where
  Init s := (∃ s', (HttpSession.machine cfg.http).Init s' ∧ s = .http s') ∨
    ∃ w, (WebSocketSession.Lifecycle.machine cfg.sendQueueLimit).Init w ∧ s = .webSocket w
  step := Session.step cfg

/-- The HTTP session that a session is. -/
def Session.http? : Session κ → Option HttpSession.Session
  | .http s => some s
  | .webSocket _ => none

/-- The WebSocket session that a session is. -/
def Session.webSocket? : Session κ → Option (WebSocketSession.Lifecycle κ)
  | .http _ => none
  | .webSocket w => some w

/-- An HTTP session of a server is one of its own machine. -/
theorem http_reachable {s : HttpSession.Session}
    (h : (sessionMachine κ cfg).Reachable (.http s)) :
    (HttpSession.machine cfg.http).Reachable s := by
  refine h.part Session.http? ?_ ?_ rfl
  · rintro _ (⟨s', hs', rfl⟩ | ⟨w, -, rfl⟩)
    · exact .appears _ _ (.init hs')
    · exact .stays none
  · rintro s a t - hstep
    cases s with
    | http s =>
      cases a with
      | webSocket a => exact absurd hstep.symm (Option.some_ne_none t)
      | http a =>
        obtain ⟨s', hs', rfl⟩ := Option.map_eq_some_iff.1 hstep
        exact .steps s a s' trivial hs'
    | webSocket w =>
      cases a with
      | http a => exact absurd hstep.symm (Option.some_ne_none t)
      | webSocket a =>
        obtain ⟨w', -, rfl⟩ := Option.map_eq_some_iff.1 hstep
        exact .stays none

/-- So is a WebSocket session. -/
theorem webSocket_reachable {w : WebSocketSession.Lifecycle κ}
    (h : (sessionMachine κ cfg).Reachable (.webSocket w)) :
    (WebSocketSession.Lifecycle.machine cfg.sendQueueLimit).Reachable w := by
  refine h.part Session.webSocket? ?_ ?_ rfl
  · rintro _ (⟨s', -, rfl⟩ | ⟨w, hw, rfl⟩)
    · exact .stays none
    · exact .appears _ _ (.init hw)
  · rintro s a t - hstep
    cases s with
    | http s =>
      cases a with
      | webSocket a => exact absurd hstep.symm (Option.some_ne_none t)
      | http a =>
        obtain ⟨s', -, rfl⟩ := Option.map_eq_some_iff.1 hstep
        exact .stays none
    | webSocket w =>
      cases a with
      | http a => exact absurd hstep.symm (Option.some_ne_none t)
      | webSocket a =>
        obtain ⟨w', hw', rfl⟩ := Option.map_eq_some_iff.1 hstep
        exact .steps w a w' trivial hw'

end CppGate.Server
