import CppGate.Server.Server

/-!
# The graceful stop of a server

What stop() has achieved once the calls of stopAll() that it made have returned. Every session is
one of two: the registry did not admit it, and then it does not begin, apart from the refusal that a
WebSocket session writes; or its stop() was called, whatever it was doing. There is no third: add()
and the flag that stopAll() sets are under one mutex, so a session is either listed when stopAll()
takes the list or sees the flag.

That the calls were made is read off the steps of the server (`telling`). What they come to is
composed from what is known of one session (`HttpSession.Admission`, `Lifecycle.Inv`,
`Lifecycle.Outside`), which holds of every session of a server (`session_reachable`), and from the
accounts of the registry, which say what a session sees (`of_look`).
-/

namespace CppGate.Server

variable {κ : Type*} {cfg : Config} {srv srv' : State κ} {s : Session κ} {i : ℕ}

/-! ### What a session can be after a stop -/

/-- A session that was not admitted: an HTTP session has nothing outstanding or posted, and a
WebSocket session has not been run yet, or its refusal is outstanding, or it is done. -/
def Session.Outside : Session κ → Prop
  | .http s =>
    (s.launch = .created ∨ s.launch = .refused) ∧ s.tasks = [] ∧ s.operations = []
  | .webSocket w =>
    (w.stage = .created ∨ w.stage = .rejecting ∨ w.stage = .shuttingDown ∨ w.stage = .refused) ∧
      w.session.queue.isOpen = false

/-- What a call of stop() comes to: on_stop() of an HTTP session is posted or has run. A WebSocket
session that is not yet in its handshake or in it sees that the registry is stopping, which
on_accept() asks; after that it has a close to run, is closing, or is not open. -/
def Session.Stops : Session κ → Prop
  | .http s => .stop ∈ s.tasks ∨ s.stopRan = true
  | .webSocket w =>
    w.stopping = true ∧
      (w.stage = .accepted → WebSocketSession.Lifecycle.BoundToClose w.session.queue)

/-- A session that was not admitted, in terms of what it sees. -/
theorem Session.outside (h : (sessionMachine κ cfg).Reachable s)
    (hregistered : s.sight.registered = false) : s.Outside := by
  cases s with
  | http s =>
    have hadmission := HttpSession.admission_of_reachable (http_reachable h)
    obtain ⟨htasks, hoperations, -⟩ := hadmission.outside hregistered
    have hnot : ¬(s.launch = .added ∨ s.launch = .launched) := fun hlaunch ↦
      absurd ((hadmission.heeds.admitted.2 hlaunch).symm.trans hregistered) (by decide)
    refine ⟨?_, htasks, hoperations⟩
    cases hlaunch : s.launch with
    | created => exact Or.inl rfl
    | refused => exact Or.inr rfl
    | added => exact (hnot (Or.inl hlaunch)).elim
    | launched => exact (hnot (Or.inr hlaunch)).elim
  | webSocket w =>
    have hreachable := webSocket_reachable h
    have hout := WebSocketSession.Lifecycle.outside_of_reachable hreachable hregistered
    have hinv := WebSocketSession.Lifecycle.inv_of_reachable hreachable
    refine ⟨?_, (hinv.shut hout.accepted).1⟩
    cases hstage : w.stage with
    | created => exact Or.inl rfl
    | rejecting => exact Or.inr (Or.inl rfl)
    | shuttingDown => exact Or.inr (Or.inr (Or.inl rfl))
    | refused => exact Or.inr (Or.inr (Or.inr rfl))
    | added => exact absurd hstage hout.added
    | handshaking => exact absurd hstage hout.handshaking
    | accepted => exact absurd hstage hout.accepted

/-- A session that was admitted, after the calls of its stop(). -/
theorem Session.stops (h : (sessionMachine κ cfg).Reachable s)
    (hregistered : s.sight.registered = true) (hstopping : s.sight.stopping = true)
    (hcalled : s.sight.stoppers = 0) : s.Stops := by
  cases s with
  | http s =>
    have hadmission := HttpSession.admission_of_reachable (http_reachable h)
    rcases hadmission.heeds.told hstopping hregistered with hpending | hposted | hran
    · exact absurd hcalled (Nat.pos_iff_ne_zero.1 hpending)
    · exact Or.inl (List.count_pos_iff.1 hposted)
    · exact Or.inr hran
  | webSocket w =>
    have hinv := WebSocketSession.Lifecycle.inv_of_reachable (webSocket_reachable h)
    refine ⟨hstopping, fun _ ↦ ?_⟩
    refine (hinv.heeds hstopping hregistered).resolve_left fun hpending ↦ ?_
    exact absurd hcalled (Nat.pos_iff_ne_zero.1 hpending)

/-! ### Whose stop() is called -/

/-- The session whose stop() a step calls. -/
def told (srv : State κ) : Action κ → List ℕ
  | .tell k => (srv.registry.next k).toList
  | _ => []

/-- A server, and the sessions whose stop() was called. -/
def telling (κ : Type*) (cfg : Config) : Machine (State κ × List ℕ) (Action κ) :=
  (machine κ cfg).logged fun srv a _ ↦ told srv a

/-- A session object to which nothing refers any more. -/
def Gone (sessions : List (Entry κ)) (i : ℕ) : Prop :=
  ∃ entry, sessions[i]? = some entry ∧ entry.life ≠ .alive

theorem Gone.append {sessions : List (Entry κ)} (h : Gone sessions i) (new : List (Entry κ)) :
    Gone (sessions ++ new) i := by
  obtain ⟨entry, hentry, hdead⟩ := h
  exact ⟨entry, (List.getElem?_append_left (List.getElem?_eq_some_iff.1 hentry).1).trans hentry,
    hdead⟩

/-- Only a session that is still there takes a step. -/
theorem Gone.set {j : ℕ} (h : Gone srv.sessions j) (hs : srv.session i = some s)
    (entry : Entry κ) : Gone (srv.sessions.set i entry) j := by
  obtain ⟨old, hold, hdead⟩ := h
  have hne : i ≠ j := by
    rintro rfl
    exact Option.some_ne_none s (hs.symm.trans (look_of_dead hold hdead))
  exact ⟨old, by rw [List.getElem?_set_ne hne, hold], hdead⟩

/-- A session is gone when its destructor runs, and stays so. -/
theorem Gone.removed {sessions : List (Entry κ)} {j : ℕ} (h : Gone sessions j) {entry : Entry κ}
    (hentry : sessions[i]? = some entry) :
    Gone (sessions.set i { entry with life := .removed }) j := by
  obtain ⟨old, hold, hlife⟩ := h
  by_cases hij : i = j
  · subst hij
    have hlt := (List.getElem?_eq_some_iff.1 hentry).1
    exact ⟨{ entry with life := .removed }, List.getElem?_set_self hlt, Life.noConfusion⟩
  · exact ⟨old, by rw [List.getElem?_set_ne hij, hold], hlife⟩

/-- A session is there, or it is gone. -/
theorem gone_of_session (hi : i < srv.sessions.length) (hnone : srv.session i = none) :
    Gone srv.sessions i := by
  refine ⟨srv.sessions[i], List.getElem?_eq_getElem hi, fun halive ↦ ?_⟩
  rw [State.session, look_of_entry (List.getElem?_eq_getElem hi) halive] at hnone
  exact Option.some_ne_none _ hnone

/-- Once the registry is stopping, each session that it lists is gone, or its stop() was called, or
a call of stopAll() has yet to call it. -/
def Reached (x : State κ × List ℕ) : Prop :=
  x.1.registry.Reaches (· ∈ x.1.registry.members) (Gone x.1.sessions) (· ∈ x.2)

/-- add() lists a session while the registry is not stopping, and no longer. -/
theorem reaches_add {registry : SessionRegistry} {gone told : ℕ → Prop}
    (h : registry.Reaches (· ∈ registry.members) gone told) (i : ℕ) :
    (registry.add i).2.Reaches (· ∈ (registry.add i).2.members) gone told := by
  rw [SessionRegistry.add]
  split
  · exact h
  · next hopen =>
    have hjoin := Roster.Reaches.join h (Bool.eq_false_iff.2 hopen) i
    exact Roster.Reaches.mono hjoin (fun _ hj ↦ List.mem_insert_iff.1 hj)
      (fun _ hgone ↦ hgone) fun _ htold ↦ htold

/-- **The step lemma**: no session slips past the calls of stop(). -/
theorem reached_step {x y : State κ × List ℕ} {a : Action κ} (hinv : Inv x.1) (h : Reached x)
    (htelling : (telling κ cfg).step x a = some y) : Reached y := by
  obtain ⟨srv, calls⟩ := x
  obtain ⟨srv', calls'⟩ := y
  have hstep : step cfg srv a = some srv' := (Machine.logged_step htelling).1
  obtain rfl : calls' = calls ++ told srv a := (Machine.logged_step htelling).2
  clear htelling
  have hlisted : ∀ j ∈ srv.registry.members, j < srv.sessions.length := fun j hj ↦
    Nat.lt_of_not_le fun hge ↦ hinv.listed j hge hj
  have hcall : ∀ j ∈ calls, j ∈ calls ++ told srv a := fun j ↦ List.mem_append_left _
  cases a with
  | listener a =>
    obtain ⟨-, hstep⟩ := Option.ite_none_left_eq_some.1 hstep
    obtain ⟨listener, -, rfl⟩ := Option.map_eq_some_iff.1 hstep
    exact Roster.Reaches.mono h (fun _ hj ↦ hj) (fun _ hgone ↦ hgone.append _) hcall
  | stop =>
    obtain rfl := Option.some.inj hstep
    exact Roster.Reaches.mono h (fun _ hj ↦ hj) (fun _ hgone ↦ hgone) hcall
  | stopAll =>
    obtain ⟨-, hstep⟩ := Option.ite_none_right_eq_some.1 hstep
    obtain rfl := Option.some.inj hstep
    refine Roster.Reaches.mono (Roster.Reaches.close h hinv.nodup fun j hj hnone ↦ ?_)
      (fun _ hj ↦ hj) (fun _ hgone ↦ hgone) hcall
    exact gone_of_session (hlisted j hj) (Option.not_isSome_iff_eq_none.1 (by rw [hnone]; decide))
  | tell k =>
    obtain ⟨i, hnext, hstep⟩ := Option.bind_eq_some_iff.1 hstep
    obtain ⟨s, hs, rfl⟩ := Option.map_eq_some_iff.1 hstep
    refine Roster.Reaches.mono (Roster.Reaches.tell h hnext) (fun _ hj ↦ hj)
      (fun _ hgone ↦ hgone.set hs _) fun j hj ↦ ?_
    rcases hj with rfl | hj
    · refine List.mem_append_right _ ?_
      show j ∈ (srv.registry.next k).toList
      rw [hnext]
      exact List.mem_singleton_self j
    · exact hcall j hj
  | session i a =>
    obtain ⟨-, hstep⟩ := Option.ite_none_right_eq_some.1 hstep
    obtain ⟨s, hs, hstep⟩ := Option.bind_eq_some_iff.1 hstep
    obtain ⟨t, -, rfl⟩ := Option.map_eq_some_iff.1 hstep
    have hjoin : (if a.joins then (srv.registry.add i).2 else srv.registry).Reaches
        (· ∈ (if a.joins then (srv.registry.add i).2 else srv.registry).members)
        (Gone srv.sessions) (· ∈ calls) := by
      split
      · exact reaches_add h i
      · exact h
    exact Roster.Reaches.mono hjoin (fun _ hj ↦ hj) (fun _ hgone ↦ (hgone.set hs _).append _) hcall
  | expire i =>
    obtain ⟨s, hs, hstep⟩ := Option.bind_eq_some_iff.1 hstep
    obtain ⟨-, hstep⟩ := Option.ite_none_right_eq_some.1 hstep
    obtain rfl := Option.some.inj hstep
    exact Roster.Reaches.mono h (fun _ hj ↦ hj) (fun _ hgone ↦ hgone.set hs _) hcall
  | remove i =>
    obtain ⟨entry, hentry, hstep⟩ := Option.bind_eq_some_iff.1 hstep
    obtain ⟨hexpired, hstep⟩ := Option.ite_none_right_eq_some.1 hstep
    obtain rfl := Option.some.inj hstep
    have hdead : entry.life ≠ .alive := by
      rw [hexpired]
      decide
    have hgone : ∀ j ∈ srv.registry.members, (j != i) = false → Gone srv.sessions j := by
      intro j _ hj
      obtain rfl : j = i := by simpa using hj
      exact ⟨entry, hentry, hdead⟩
    have hprune := Roster.Reaches.prune h hgone
    exact Roster.Reaches.mono hprune (fun _ hj ↦ (List.mem_filter.1 hj).1)
      (fun _ hgone ↦ hgone.removed hentry) hcall

/-- **The run lemma.** -/
theorem reached_of_reachable {x : State κ × List ℕ} (h : (telling κ cfg).Reachable x) :
    Reached x := by
  have hboth : Inv x.1 ∧ Reached x := by
    refine h.invariant (I := fun x ↦ Inv x.1 ∧ Reached x) (fun x hx ↦ ?_) fun x a y hx hstep ↦
      ⟨inv_step hx.1 (Machine.logged_step hstep).1, reached_step hx.1 hx.2 hstep⟩
    obtain ⟨srv, calls⟩ := x
    obtain ⟨hinit, hnone⟩ := hx
    obtain rfl : srv = {} := hinit
    have hidle : (machine κ cfg).Reachable {} := .init rfl
    refine ⟨inv_of_reachable hidle, fun _ i hi ↦ ?_, fun _ i hi ↦ ?_⟩
    · exact absurd hi List.not_mem_nil
    · exact absurd hi List.not_mem_nil
  exact hboth.2

/-! ### The acceptor -/

/-- A server that stops closes its acceptor: that is posted or done. -/
def Closes (srv : State κ) : Prop :=
  0 < srv.stops ∨ srv.registry.closed = true →
    0 < srv.listener.closes ∨ srv.listener.isOpen = false

/-- The listener keeps on closing. -/
theorem closes_listener {l l' : Listener} {a : Listener.Action}
    (h : 0 < l.closes ∨ l.isOpen = false) (hstep : Listener.step cfg.listener l a = some l') :
    0 < l'.closes ∨ l'.isOpen = false := by
  cases a with
  | run =>
    obtain ⟨-, hstep⟩ := Option.ite_none_left_eq_some.1 hstep
    rw [← Option.some.inj hstep, Listener.run]
    split <;> exact h
  | stop => exact Option.some.inj hstep ▸ Or.inl (Nat.succ_pos _)
  | close =>
    obtain ⟨-, hstep⟩ := Option.ite_none_right_eq_some.1 hstep
    exact Option.some.inj hstep ▸ Or.inr rfl
  | complete wait outcome =>
    obtain ⟨-, hstep⟩ := Option.ite_none_right_eq_some.1 hstep
    exact Option.some.inj hstep ▸ h
  | handle wait outcome =>
    obtain ⟨-, hstep⟩ := Option.ite_none_right_eq_some.1 hstep
    rw [← Option.some.inj hstep]
    cases wait with
    | retry =>
      show 0 < (Listener.onRetry _ outcome).closes ∨ (Listener.onRetry _ outcome).isOpen = false
      rw [Listener.onRetry]
      split <;> exact h
    | accept =>
      show 0 < (Listener.onAccept _ outcome).closes ∨ (Listener.onAccept _ outcome).isOpen = false
      rw [Listener.onAccept.eq_def]
      split
      · exact h
      · split <;> exact h

/-- **The step lemma** for the acceptor. -/
theorem closes_step {a : Action κ} (h : Closes srv) (hstep : step cfg srv a = some srv') :
    Closes srv' := by
  cases a with
  | listener a =>
    obtain ⟨-, hstep⟩ := Option.ite_none_left_eq_some.1 hstep
    obtain ⟨listener, hlistener, rfl⟩ := Option.map_eq_some_iff.1 hstep
    exact fun hstops ↦ closes_listener (h hstops) hlistener
  | stop => exact Option.some.inj hstep ▸ fun _ ↦ Or.inl (Nat.succ_pos _)
  | stopAll =>
    obtain ⟨hstops, hstep⟩ := Option.ite_none_right_eq_some.1 hstep
    exact Option.some.inj hstep ▸ fun _ ↦ h (Or.inl hstops)
  | tell k =>
    obtain ⟨i, -, hstep⟩ := Option.bind_eq_some_iff.1 hstep
    obtain ⟨s, -, rfl⟩ := Option.map_eq_some_iff.1 hstep
    exact h
  | session i a =>
    obtain ⟨-, hstep⟩ := Option.ite_none_right_eq_some.1 hstep
    obtain ⟨s, -, hstep⟩ := Option.bind_eq_some_iff.1 hstep
    obtain ⟨t, -, rfl⟩ := Option.map_eq_some_iff.1 hstep
    refine fun hstops ↦ h (hstops.imp_right fun hclosed ↦ ?_)
    change (if a.joins then (srv.registry.add i).2 else srv.registry).closed = true at hclosed
    rw [SessionRegistry.add] at hclosed
    split at hclosed
    · split at hclosed <;> exact hclosed
    · exact hclosed
  | expire i =>
    obtain ⟨s, -, hstep⟩ := Option.bind_eq_some_iff.1 hstep
    obtain ⟨-, hstep⟩ := Option.ite_none_right_eq_some.1 hstep
    exact Option.some.inj hstep ▸ h
  | remove i =>
    obtain ⟨entry, -, hstep⟩ := Option.bind_eq_some_iff.1 hstep
    obtain ⟨-, hstep⟩ := Option.ite_none_right_eq_some.1 hstep
    exact Option.some.inj hstep ▸ h

/-- **The run lemma** for the acceptor. -/
theorem closes_of_reachable (h : (machine κ cfg).Reachable srv) : Closes srv := by
  refine h.invariant (I := Closes) ?_ fun _ _ _ hsrv hstep ↦ closes_step hsrv hstep
  rintro _ rfl (hstops | hclosed)
  · exact absurd hstops (Nat.lt_irrefl 0)
  · exact absurd hclosed Bool.false_ne_true

/-! ### The graceful stop -/

/-- Calls of stopAll() that have returned owe nobody a stop. -/
theorem owing_of_returned {registry : SessionRegistry} (hreturned : ∀ c ∈ registry.closings, c = [])
    (i : ℕ) : registry.owing i = 0 := by
  refine List.sum_eq_zero fun n hn ↦ ?_
  obtain ⟨c, hc, rfl⟩ := List.mem_map.1 hn
  rw [hreturned c hc, List.count_nil]

/-- **The graceful stop reaches everyone.** Take a server of which stop() was called and on which no
call of stopAll() is in progress any more, after any interleaving of the accept loop, the sessions,
their destructors and any number of threads that stop it. Then the acceptor is closed, or the strand
is about to close it, and of every session that is still there stop() was called, or the registry
did not admit it and it writes its refusal at most. -/
theorem graceful_stop {calls : List ℕ} (h : (telling κ cfg).Reachable (srv, calls))
    (hclosed : srv.registry.closed = true) (hreturned : ∀ c ∈ srv.registry.closings, c = []) :
    (0 < srv.listener.closes ∨ srv.listener.isOpen = false) ∧
      ∀ i s, srv.session i = some s →
        i ∈ srv.registry.members ∧ i ∈ calls ∧ s.Stops ∨ i ∉ srv.registry.members ∧ s.Outside := by
  have hreachable : (machine κ cfg).Reachable srv := h.of_logged
  refine ⟨closes_of_reachable hreachable (Or.inr hclosed), fun i s hs ↦ ?_⟩
  have hsight := (of_look hs).2
  have hsession := session_reachable hreachable hs
  by_cases hmember : i ∈ srv.registry.members
  · refine Or.inl ⟨hmember, ?_, Session.stops hsession ?_ ?_ ?_⟩
    · have htold := Roster.Reaches.settled (reached_of_reachable h) hclosed hreturned hmember
      refine htold.resolve_left fun hgone ↦ ?_
      obtain ⟨entry, hentry, hdead⟩ := hgone
      exact Option.some_ne_none s (hs.symm.trans (look_of_dead hentry hdead))
    · rw [hsight]
      exact decide_eq_true hmember
    · rw [hsight]
      exact hclosed
    · rw [hsight]
      exact owing_of_returned hreturned i
  · refine Or.inr ⟨hmember, Session.outside hsession ?_⟩
    rw [hsight]
    exact decide_eq_false hmember

/-- A server for plain connections. -/
def plainServer : Config where
  listener := { flags := .anyPlain, hasContext := false, supported := Or.inl (by decide) }
  beast := Http.plainBeast
  sendQueueLimit := 8

/-- Two clients are accepted, and the first asks for an upgrade. stop() is called when its WebSocket
session is in the handshake, its HTTP session is gone and still listed, and the session of the
second client has not been run. -/
def stopsTwo : List (Action ℕ) :=
  [.listener .run,
    .listener (.complete .accept none), .listener (.handle .accept none),
    .session 0 (.http .run), .session 0 (.http .dispatch), .session 0 (.http .task),
    .session 0 (.http (.complete .detect (.success {}))),
    .session 0 (.http (.handle .detect (.success {}))),
    .session 0 (.http (.complete .header (.success {}))),
    .session 0 (.http (.handle .header (.success {}))),
    .session 0 (.http (.complete .body (.success { isUpgrade := true }))),
    .session 0 (.http (.handle .body (.success { isUpgrade := true }))),
    .expire 0, .session 1 (.webSocket .run), .session 1 (.webSocket (.upgrade (.matched []))),
    .listener (.complete .accept none), .listener (.handle .accept none),
    .stop, .stopAll, .tell 0, .remove 0, .session 2 (.http .run)]

theorem graceful_stop_stopsTwo :
    ∃ srv, (telling ℕ plainServer).run ({}, []) stopsTwo = some (srv, [1]) ∧
      srv.connectionCount = 1 ∧ 0 < srv.listener.closes ∧
        ∀ i s, srv.session i = some s →
          i ∈ srv.registry.members ∧ i ∈ [1] ∧ s.Stops ∨
            i ∉ srv.registry.members ∧ s.Outside := by
  have hinit : (telling ℕ plainServer).Init ({}, []) := ⟨rfl, rfl⟩
  have hreachable := Machine.run_reachable stopsTwo hinit rfl
  exact ⟨_, rfl, rfl, Nat.one_pos,
    (graceful_stop hreachable rfl fun _ hc ↦ List.mem_singleton.1 hc).2⟩

/-! ### One session among many -/

/-- **A server is its sessions.** In every run of a server, an HTTP session that is there is in a
state of its own machine, and so is a WebSocket session; after its handshake it is in a state of the
machine of its callbacks. What holds of every run of one session holds of each of them. -/
theorem server_is_its_sessions (h : (machine κ cfg).Reachable srv) (i : ℕ) :
    (∀ s, srv.session i = some (.http s) → (HttpSession.machine cfg.http).Reachable s) ∧
      ∀ w, srv.session i = some (.webSocket w) →
        (WebSocketSession.Lifecycle.machine cfg.sendQueueLimit).Reachable w ∧
          (w.stage = .accepted →
            (WebSocketSession.Callbacks.machine cfg.sendQueueLimit).Reachable w.session) := by
  refine ⟨fun s hs ↦ http_reachable (session_reachable h hs), fun w hw ↦ ?_⟩
  have hreachable := webSocket_reachable (session_reachable h hw)
  exact ⟨hreachable, WebSocketSession.Lifecycle.callbacks_reachable hreachable⟩

theorem server_is_its_sessions_stopsTwo :
    ∃ srv w, (machine ℕ plainServer).run {} stopsTwo = some srv ∧
      srv.session 1 = some (.webSocket w) ∧
        (WebSocketSession.Lifecycle.machine plainServer.sendQueueLimit).Reachable w := by
  have hreachable := Machine.run_reachable (M := machine ℕ plainServer) stopsTwo rfl rfl
  exact ⟨_, _, rfl, rfl, ((server_is_its_sessions hreachable 1).2 _ rfl).1⟩

end CppGate.Server
