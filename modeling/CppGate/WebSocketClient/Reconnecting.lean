import CppGate.Foundations.Histories
import CppGate.WebSocketClient.Handlers
import CppGate.WebSocketClient.Muting

/-!
# Counting the attempts to reconnect

`failures` counts two things at once, the attempts that failed and the connections that dropped. It
starts over where an upgrade succeeds, and is compared with the limit after it was raised. What a
user sees of it is a history of events and attempts: the numbers that onReconnecting reports go up
by one from 1 until the next onOpen and never exceed the limit, each of them is followed by one
attempt, and the client gives up where the attempt after the last of them fails.

The invariant behind it is that `failures` is the number of reports since the last onOpen
(`Counted.failures`), as long as the connection has not stopped, and that a connection is waiting
exactly where a report is the last thing that happened. What one step may add to the history is
said once (`Advance`).
-/

namespace CppGate.WebSocketClient

open CppGate.WebSocketSession (CloseCode Message)

/-! ### Histories -/

/-- What is noted of a run: the events, and the attempts to connect. -/
inductive Mark
  | event (event : Event)
  | attempt
  deriving DecidableEq, Repr

/-- A report that the client tries again. -/
abbrev Mark.announce (attempt delay : ℕ) : Mark :=
  .event (.onReconnecting attempt delay)

/-- The report that it does not. -/
abbrev Mark.gaveUp : Mark :=
  .event (.onError .gaveUp)

/-- What a step of a connection with all callbacks set adds: the events it delivers, and an attempt
where it raises `generation`. -/
def marks (s t : Connection) : List Mark :=
  (t.delivered.drop s.delivered.length).map .event ++
    if t.generation = s.generation then [] else [.attempt]

/-- A connection with all callbacks set, and its history. -/
def recorded (cfg : Config) : Machine (Connection × List Mark) Action :=
  (machine cfg.loud).logged fun s _ t ↦ marks s t

/-- The events of a history. -/
def eventsOf (history : List Mark) : List Event :=
  history.filterMap fun
    | .event event => some event
    | .attempt => none

/-- How many attempts have been announced since the last onOpen. -/
def streak (history : List Mark) : ℕ :=
  history.foldl (fun n mark ↦
    match mark with
    | .event .onOpen => 0
    | .event (.onReconnecting _ _) => n + 1
    | _ => n) 0

/-- The last thing that happened is an announcement. -/
def Announced (history : List Mark) : Prop :=
  ∃ earlier attempt delay, history = earlier ++ [.announce attempt delay]

/-- The events that the count is about. -/
def Event.counts : Event → Bool
  | .onOpen | .onReconnecting _ _ | .onError .gaveUp => true
  | _ => false

theorem counts_onError {ec : ErrorCode} (h : ec ≠ .gaveUp) : (Event.onError ec).counts = false := by
  cases ec with
  | gaveUp => exact absurd rfl h
  | _ => rfl

@[simp] theorem streak_nil : streak [] = 0 := rfl

/-- The count goes up with an announcement, and back to none with onOpen. -/
theorem streak_snoc (history : List Mark) (mark : Mark) :
    streak (history ++ [mark]) =
      match mark with
      | .event .onOpen => 0
      | .event (.onReconnecting _ _) => streak history + 1
      | _ => streak history := by
  rw [streak, List.foldl_append]
  rfl

/-- Other events leave it. -/
theorem streak_append_plain (history : List Mark) {events : List Event}
    (h : ∀ event ∈ events, event.counts = false) :
    streak (history ++ events.map .event) = streak history := by
  induction events generalizing history with
  | nil => rw [List.map_nil, List.append_nil]
  | cons event events ih =>
    obtain ⟨hevent, hevents⟩ := List.forall_mem_cons.1 h
    rw [List.map_cons, List.append_cons, ih _ hevents, streak_snoc]
    cases event with
    | onOpen | onReconnecting attempt delay => exact Bool.noConfusion hevent
    | onMessage message | onClose code | onError ec => rfl

/-! ### What ends an attempt or a connection -/

section Handlers

variable {cfg : Config} {s t : Connection} {c : Completion}

/-- A function delivers these events, and makes no attempt. -/
def Tells (s t : Connection) (events : List Event) : Prop :=
  t.delivered = s.delivered ++ events ∧ t.generation = s.generation

/-- What scheduleRetry() comes to: it stops, gives up, or announces an attempt. -/
def Retry (cfg : Config) (s t : Connection) (events : List Event) : Prop :=
  (events = [] ∧ t.state = .stopped ∧ (s.stopRequested = true ∨ s.clientClosed = true)) ∨
  (s.stopRequested = false ∧ s.clientClosed = false ∧
    (events = [.onError .gaveUp] ∧ t.state = .stopped ∧ 0 < cfg.reconnect.maxAttempts ∧
        cfg.reconnect.maxAttempts < Word.add 32 s.failures 1 ∨
      ∃ delay, events = [.onReconnecting t.failures delay] ∧ t.state = .waiting ∧
        .retryTimer ∈ t.operations ∧ t.failures = Word.add 32 s.failures 1 ∧
        (0 < cfg.reconnect.maxAttempts → t.failures ≤ cfg.reconnect.maxAttempts)))

theorem tells_emit (hall : s.callbacks = .all) (event : Event) :
    Tells s (emit s event) [event] := by
  refine ⟨?_, rfl⟩
  show s.delivered ++ [event].filter s.callbacks.wants = s.delivered ++ [event]
  rw [hall, List.filter_singleton, Callbacks.all_wants]
  rfl

theorem Tells.trans {u : Connection} {events events' : List Event} (h : Tells s t events)
    (h' : Tells t u events') : Tells s u (events ++ events') := by
  refine ⟨?_, h'.2.trans h.2⟩
  rw [h'.1, h.1, List.append_assoc]

/-- scheduleRetry() announces an attempt, gives up, or stops. -/
theorem retry_scheduleRetry (henabled : cfg.reconnect.enabled = true) (hall : s.callbacks = .all) :
    ∃ events, Tells s (scheduleRetry cfg s c) events ∧
      Retry cfg s (scheduleRetry cfg s c) events := by
  rw [scheduleRetry, henabled, Bool.not_true, Bool.false_or]
  split
  · next hended =>
    exact ⟨[], ⟨(List.append_nil _).symm, rfl⟩, Or.inl ⟨rfl, rfl, Bool.or_eq_true_iff.1 hended⟩⟩
  next hgo =>
  obtain ⟨hstop, hclosed⟩ := Bool.or_eq_false_iff.1 (Bool.eq_false_iff.2 hgo)
  dsimp only
  split
  · next hlimit =>
    have htold := tells_emit (s := { s with failures := Word.add 32 s.failures 1 }) hall
      (.onError .gaveUp)
    exact ⟨_, htold, Or.inr ⟨hstop, hclosed, Or.inl ⟨rfl, rfl, hlimit.1, hlimit.2⟩⟩⟩
  · next hlimit =>
    have htold := tells_emit
      (s := { s with failures := Word.add 32 s.failures 1, state := .waiting }) hall
      (.onReconnecting (Word.add 32 s.failures 1) c.delay)
    refine ⟨_, htold, Or.inr ⟨hstop, hclosed, Or.inr ⟨c.delay, rfl, rfl, List.mem_cons_self, rfl,
      fun hm ↦ ?_⟩⟩⟩
    exact Nat.not_lt.1 fun hlt ↦ hlimit ⟨hm, hlt⟩

theorem attemptFailed_of_stop (ec : ErrorCode) (hstop : s.stopRequested = true) :
    attemptFailed cfg s ec c = stop s :=
  if_pos hstop

/-- A failed attempt is reported before the next one is announced, unless a stop was requested. -/
theorem retry_attemptFailed (henabled : cfg.reconnect.enabled = true) (hall : s.callbacks = .all)
    (ec : ErrorCode) (hstop : s.stopRequested = false) :
    ∃ events, Tells s (attemptFailed cfg s ec c) (.onError ec :: events) ∧
      Retry cfg s (attemptFailed cfg s ec c) events := by
  have hgo : ¬s.stopRequested = true := Bool.eq_false_iff.1 hstop
  rw [attemptFailed, if_neg hgo]
  obtain ⟨events, htold, hretry⟩ := retry_scheduleRetry (s := emit s (.onError ec)) (c := c)
    henabled hall
  exact ⟨events, (tells_emit hall _).trans htold, hretry⟩

theorem retry_closed (henabled : cfg.reconnect.enabled = true) (hall : s.callbacks = .all)
    (code : CloseCode) :
    ∃ events, Tells s (closed cfg s code c) (.onClose code :: events) ∧
      Retry cfg s (closed cfg s code c) events := by
  have htold := tells_emit (s := { s with
    connected := false
    pending := Word.sub 64 s.pending s.writeQueue.length
    writeQueue := [] }) hall (.onClose code)
  rw [closed]
  split
  · next hended =>
    exact ⟨[], htold, Or.inl ⟨rfl, rfl, Bool.or_eq_true_iff.1 hended⟩⟩
  · obtain ⟨events, htold', hretry⟩ := retry_scheduleRetry (c := c) (s := emit { s with
      connected := false
      pending := Word.sub 64 s.pending s.writeQueue.length
      writeQueue := [] } (.onClose code)) henabled hall
    exact ⟨events, htold.trans htold', hretry⟩

/-- The end of an open connection: the reports of it, and then what scheduleRetry() comes to. -/
def Dropped (cfg : Config) (s t : Connection) : Prop :=
  ∃ reports events, (∀ event ∈ reports, event.counts = false) ∧ Tells s t (reports ++ events) ∧
    Retry cfg s t events

theorem dropped_closed (henabled : cfg.reconnect.enabled = true) (hall : s.callbacks = .all)
    (code : CloseCode) : Dropped cfg s (closed cfg s code c) := by
  obtain ⟨events, htold, hretry⟩ := retry_closed (c := c) henabled hall code
  exact ⟨[.onClose code], events, List.forall_mem_singleton.2 rfl, htold, hretry⟩

theorem dropped_finishOwnClose (henabled : cfg.reconnect.enabled = true)
    (hall : s.callbacks = .all) : Dropped cfg s (finishOwnClose cfg s c) := by
  rw [finishOwnClose]
  split <;> exact dropped_closed henabled hall _

/-- A read that ended is half of an own close, or the end of the connection. -/
theorem dropped_ended (henabled : cfg.reconnect.enabled = true) (hall : s.callbacks = .all)
    {ec : ErrorCode} (hec : ec ≠ .gaveUp) :
    s.state = .closing ∧ ended cfg s ec c = { s with readDone := true } ∨
      Dropped cfg s (ended cfg s ec c) := by
  rw [ended]
  split
  · next hclosing =>
    dsimp only
    split
    · exact Or.inr (dropped_finishOwnClose (s := { s with readDone := true }) henabled hall)
    · exact Or.inl ⟨hclosing.1, rfl⟩
  split
  · exact Or.inr (dropped_closed henabled hall _)
  split
  · have htold := tells_emit hall (.onError ec)
    obtain ⟨events, htold', hretry⟩ := retry_closed (c := c) (s := emit s (.onError ec)) henabled
      hall CloseCode.abnormal
    refine Or.inr ⟨[.onError ec, .onClose CloseCode.abnormal], events, ?_, htold.trans htold',
      hretry⟩
    exact List.forall_mem_cons.2 ⟨counts_onError hec, List.forall_mem_singleton.2 rfl⟩
  · exact Or.inr (dropped_closed henabled hall _)

end Handlers

/-! ### What a step adds -/

/-- The step ends an attempt with an error: it runs attemptFailed(). A server that declines the
upgrade does not: it rejects the client, who does not try again. -/
def FailsAttempt (s : Connection) : Action → Prop
  | .complete (.resolve gen) c | .complete (.tlsHandshake gen) c =>
    stale s gen = false ∧ c.ec ≠ none
  | .complete (.connect gen) c =>
    stale s gen = false ∧ (c.ec ≠ none ∨ s.target.tls = true ∧ c.sni ≠ none)
  | .complete (.upgrade gen) c =>
    stale s gen = false ∧ c.ec ≠ none ∧ c.ec ≠ some .upgradeDeclined
  | _ => False

/-- What the connection is promised: no operation ends with the client's own `gave_up`, and a timer
that nobody cancelled expires. -/
def Ordinary (s : Connection) : Action → Prop
  | .complete operation c =>
    c.ec ≠ some .gaveUp ∧ c.sni ≠ some .gaveUp ∧
      (operation = .retryTimer → s.state = .waiting → c.ec = none)
  | _ => True

/-- What one step comes to, for the count, with what it adds to the history. -/
inductive Advance (cfg : Config) (s : Connection) (action : Action) (t : Connection) :
    List Mark → Prop
  /-- Nothing that matters. -/
  | stays (hstate : t.state = s.state ∨ s.state.isOpen = true ∧ t.state.isOpen = true)
    (hfailures : t.failures = s.failures) (hops : s.state = .waiting → t.operations = s.operations)
    (hstop : s.stopRequested = true → t.stopRequested = true)
    (hclosed : s.clientClosed = true → t.clientClosed = true) : Advance cfg s action t []
  /-- The connection stops, since it was closed or its client destroyed. -/
  | stops (hstate : t.state = .stopped) (hended : t.stopRequested = true ∨ t.clientClosed = true) :
    Advance cfg s action t []
  /-- Events that do not count. -/
  | reports (events : List Event) (hplain : ∀ event ∈ events, event.counts = false)
    (hs : s.state ≠ .waiting ∧ s.state ≠ .stopped)
    (hstate : t.state = s.state ∧ s.state ≠ .idle ∨ t.state = .stopped)
    (hfailures : t.failures = s.failures) : Advance cfg s action t (events.map .event)
  /-- An attempt. -/
  | attempts (hs : s.state = .idle ∨ s.state = .waiting) (hstate : t.state = .connecting)
    (hfailures : t.failures = s.failures) : Advance cfg s action t [.attempt]
  /-- The upgrade opens the connection. -/
  | opens (hs : s.state = .connecting) (hstate : t.state.isOpen = true)
    (hfailures : t.failures = 0) : Advance cfg s action t [.event .onOpen]
  /-- An attempt failed, or an open connection dropped. -/
  | ends (reports events : List Event) (hplain : ∀ event ∈ reports, event.counts = false)
    (hs : s.state = .connecting ∧ FailsAttempt s action ∨ s.state.isOpen = true)
    (hretry : Retry cfg s t events) : Advance cfg s action t ((reports ++ events).map .event)

section Steps

variable {cfg : Config} {s t : Connection} {action : Action}

theorem not_waiting_of_isOpen (hs : s.state.isOpen = true) :
    s.state ≠ .waiting ∧ s.state ≠ .stopped := by
  constructor <;> intro hs' <;> rw [hs'] at hs <;> exact Bool.noConfusion hs

/-- Without an attempt the marks are the events. -/
theorem marks_of_tells {events : List Event} (h : Tells s t events) :
    marks s t = events.map .event := by
  rw [marks, h.1, List.drop_left, if_pos h.2, List.append_nil]

/-- The step that ends an open connection. -/
theorem advance_of_dropped (hs : s.state.isOpen = true) (h : Dropped cfg s t) :
    Advance cfg s action t (marks s t) := by
  obtain ⟨reports, events, hplain, htold, hretry⟩ := h
  rw [marks_of_tells htold]
  exact .ends reports events hplain (Or.inr hs) hretry

/-- A step that changes nothing of this. -/
theorem advance_frame (hstate : t.state = s.state) (hfailures : t.failures = s.failures)
    (hops : s.state = .waiting → t.operations = s.operations)
    (hstop : t.stopRequested = s.stopRequested)
    (hclosed : s.clientClosed = true → t.clientClosed = true)
    (hdelivered : t.delivered = s.delivered) (hgen : t.generation = s.generation) :
    Advance cfg s action t (marks s t) := by
  have htold : Tells s t [] := ⟨hdelivered.trans (List.append_nil _).symm, hgen⟩
  rw [marks_of_tells htold]
  exact .stays (Or.inl hstate) hfailures hops (fun h ↦ hstop.trans h) hclosed

/-- A step that stops a connection which was asked to, or whose client is gone. -/
theorem advance_stopped (hstate : t.state = .stopped)
    (hended : t.stopRequested = true ∨ t.clientClosed = true)
    (hdelivered : t.delivered = s.delivered) (hgen : t.generation = s.generation) :
    Advance cfg s action t (marks s t) := by
  have htold : Tells s t [] := ⟨hdelivered.trans (List.append_nil _).symm, hgen⟩
  rw [marks_of_tells htold]
  exact .stops hstate hended

/-- An attempt is noted where the generation is counted up. -/
theorem marks_of_attempt (hdelivered : t.delivered = s.delivered)
    (hgen : t.generation = Word.add 32 s.generation 1) : marks s t = [.attempt] := by
  rw [marks, hdelivered, List.drop_length, hgen, if_neg (Word.add_one_ne _ (by decide))]
  rfl

theorem advance_attempted (hs : s.state = .idle ∨ s.state = .waiting)
    (hstate : t.state = .connecting) (hfailures : t.failures = s.failures)
    (hdelivered : t.delivered = s.delivered)
    (hgen : t.generation = Word.add 32 s.generation 1) : Advance cfg s action t (marks s t) := by
  rw [marks_of_attempt hdelivered hgen]
  exact .attempts hs hstate hfailures

theorem advance_attempt {u : Connection} (hs : s.state = .idle ∨ s.state = .waiting)
    (hfailures : u.failures = s.failures) (hdelivered : u.delivered = s.delivered)
    (hgen : u.generation = s.generation) :
    Advance cfg s action (attempt u) (marks s (attempt u)) := by
  rw [attempt]
  split
  · next hended => exact advance_stopped rfl (Bool.or_eq_true_iff.1 hended) hdelivered hgen
  · exact advance_attempted hs rfl hfailures hdelivered (congrArg (Word.add 32 · 1) hgen)

theorem fresh_without {gen : ℕ} (h : stale s gen = false) (operation : Operation) :
    ¬stale (s.without operation) gen = true :=
  Bool.eq_false_iff.1 h

/-- **A failed attempt** is reported, and then the client stops, gives up or tries again. -/
theorem failsAttempt_step (h : FailsAttempt s action) (hstep : step cfg s action = some t) :
    ∃ operation c ec, action = .complete operation c ∧ (c.ec = some ec ∨ c.sni = some ec) ∧
      t = attemptFailed cfg (s.without operation) ec c := by
  cases stepped_of_step hstep with
  | complete operation c hop =>
    cases operation with
    | resolve gen | tlsHandshake gen =>
      obtain ⟨hfresh, hec⟩ := h
      obtain ⟨ec, hec⟩ := Option.ne_none_iff_exists'.1 hec
      refine ⟨_, c, ec, rfl, Or.inl hec, ?_⟩
      rw [handle, if_neg (fresh_without hfresh _), attemptStep, hec]
    | connect gen =>
      obtain ⟨hfresh, hec⟩ := h
      cases hc : c.ec with
      | some ec =>
        refine ⟨_, c, ec, rfl, Or.inl hc, ?_⟩
        rw [handle, if_neg (fresh_without hfresh _), attemptStep, hc]
      | none =>
        obtain ⟨htls, hsni⟩ := hec.resolve_left (absurd hc)
        obtain ⟨ec, hsni⟩ := Option.ne_none_iff_exists'.1 hsni
        refine ⟨_, c, ec, rfl, Or.inr hsni, ?_⟩
        have htls' : (s.without (.connect gen)).target.tls = true := htls
        rw [handle, if_neg (fresh_without hfresh _), attemptStep, hc]
        dsimp only
        rw [onConnect, htls', hsni]
        rfl
    | upgrade gen =>
      obtain ⟨hfresh, hec, hdeclined⟩ := h
      obtain ⟨ec, hec⟩ := Option.ne_none_iff_exists'.1 hec
      refine ⟨_, c, ec, rfl, Or.inl hec, ?_⟩
      rw [handle, if_neg (fresh_without hfresh _), onUpgrade]
      split
      · next hc => exact absurd hc hdeclined
      · next ec' _ hc =>
        rw [hec, Option.some.injEq] at hc
        rw [hc]
      · next hc => exact absurd (hec.symm.trans hc) (Option.some_ne_none _)
    | read gen | close gen code | retryTimer => exact h.elim
  | _ => exact h.elim

/-- The callbacks stay set until the connection stops. -/
theorem callbacks_all (hcfg : cfg.callbacks = .all) (h : Inv cfg s) (hs : s.state ≠ .stopped) :
    s.callbacks = .all := by
  rw [h.callbacks, if_neg hs, hcfg]

variable {operation : Operation} {c : Completion}

/-- The pending step of an attempt completes. -/
theorem advance_connecting (hcfg : cfg.callbacks = .all) (henabled : cfg.reconnect.enabled = true)
    (h : Inv cfg s) (hs : s.state = .connecting) (hop : operation ∈ s.operations)
    (hordinary : Ordinary s (.complete operation c)) :
    Advance cfg s (.complete operation c) (handle cfg (s.without operation) c operation)
      (marks s (handle cfg (s.without operation) c operation)) := by
  have hall : s.callbacks = .all := callbacks_all hcfg h (hs ▸ nofun)
  have hwaiting : s.state ≠ .waiting := hs ▸ nofun
  have hfresh := not_stale hs nofun operation
  by_cases hfails : FailsAttempt s (.complete operation c)
  · have hstep : step cfg s (.complete operation c) = some _ := if_pos hop
    obtain ⟨_, _, ec, ⟨rfl, rfl⟩, hec, hfailed⟩ := failsAttempt_step hfails hstep
    have hne : ec ≠ .gaveUp := by
      rintro rfl
      exact hec.elim hordinary.1 hordinary.2.1
    rw [hfailed]
    cases hstop : s.stopRequested with
    | true =>
      rw [attemptFailed_of_stop (s := s.without operation) ec hstop]
      exact advance_stopped rfl (Or.inl hstop) rfl rfl
    | false =>
      obtain ⟨events, htold, hretry⟩ := retry_attemptFailed (s := s.without operation) (c := c)
        henabled hall ec hstop
      have htold' : Tells s _ ([.onError ec] ++ events) := htold
      rw [marks_of_tells htold']
      exact .ends [.onError ec] events (List.forall_mem_singleton.2 (counts_onError hne))
        (Or.inl ⟨hs, hfails⟩) hretry
  have hout : Outstanding s .connecting := hs ▸ h.outstanding
  have hgen : operation = .resolve s.generation ∨ operation = .connect s.generation ∨
      operation = .tlsHandshake s.generation ∨ operation = .upgrade s.generation := by
    rcases hout with hout | hout | hout | hout <;>
      · rw [hout, List.mem_singleton] at hop
        simp only [hop, true_or, or_true]
  have hnone (hec : stale s s.generation = false ∧ c.ec ≠ none →
      FailsAttempt s (.complete operation c)) : c.ec = none :=
    not_not.1 fun hc ↦ hfails (hec ⟨Bool.eq_false_iff.2 hfresh, hc⟩)
  rcases hgen with rfl | rfl | rfl | rfl <;> rw [handle, if_neg hfresh]
  · rw [attemptStep, hnone id]
    exact advance_frame rfl rfl (fun hw ↦ absurd hw hwaiting) rfl id rfl rfl
  · rw [attemptStep, hnone fun hec ↦ ⟨hec.1, Or.inl hec.2⟩]
    dsimp only
    rw [onConnect]
    split
    · exact advance_frame rfl rfl (fun hw ↦ absurd hw hwaiting) rfl id rfl rfl
    next htls =>
    have htls' : ¬(!s.target.tls) = true := htls
    rw [Bool.not_eq_true', Bool.not_eq_false] at htls'
    have hsni : c.sni = none :=
      not_not.1 fun hsni ↦ hfails ⟨Bool.eq_false_iff.2 hfresh, Or.inr ⟨htls', hsni⟩⟩
    rw [hsni]
    exact advance_frame rfl rfl (fun hw ↦ absurd hw hwaiting) rfl id rfl rfl
  · rw [attemptStep, hnone id]
    exact advance_frame rfl rfl (fun hw ↦ absurd hw hwaiting) rfl id rfl rfl
  · rw [onUpgrade]
    split
    · dsimp only
      split
      · next hstop => exact advance_stopped rfl (Or.inl hstop) rfl rfl
      · have htold : Tells s (emit { s.without (.upgrade s.generation) with
            upgradeStatus := c.status } (.onError .upgradeRejected)) [.onError .upgradeRejected] :=
          tells_emit (s := { s.without (.upgrade s.generation) with upgradeStatus := c.status })
            hall _
        rw [marks_of_tells (t := stop _) htold]
        exact .reports _ (List.forall_mem_singleton.2 rfl) (hs ▸ ⟨nofun, nofun⟩) (Or.inr rfl) rfl
    · next ec hdeclined hec =>
      exact absurd ⟨Bool.eq_false_iff.2 hfresh, hec ▸ Option.some_ne_none ec,
        fun hc ↦ hdeclined (Option.some.inj (hec.symm.trans hc))⟩ hfails
    · have htold : Tells s (emit { s.without (.upgrade s.generation) with
          protocol := c.subprotocol
          upgradeStatus := 0
          failures := 0
          state := .opened
          connected := true } .onOpen) [.onOpen] :=
        tells_emit (s := { s.without (.upgrade s.generation) with
          protocol := c.subprotocol
          upgradeStatus := 0
          failures := 0
          state := .opened
          connected := true }) hall _
      dsimp only
      split
      · rw [marks_of_tells (t := closeOpen _ _) htold]
        exact .opens hs rfl rfl
      · rw [marks_of_tells (t := read _ _) htold]
        exact .opens hs rfl rfl

/-- An operation of an open connection completes, or of one that is closing itself. -/
theorem advance_isOpen (hcfg : cfg.callbacks = .all) (henabled : cfg.reconnect.enabled = true)
    (h : Inv cfg s) (hs : s.state.isOpen = true) (hordinary : Ordinary s (.complete operation c))
    (hop : operation = .read s.generation ∨ ∃ code, operation = .close s.generation code) :
    Advance cfg s (.complete operation c) (handle cfg (s.without operation) c operation)
      (marks s (handle cfg (s.without operation) c operation)) := by
  obtain ⟨hwaiting, hne⟩ := not_waiting_of_isOpen hs
  have hall : s.callbacks = .all := callbacks_all hcfg h hne
  have hfresh := not_stale rfl hne operation
  rcases hop with rfl | ⟨code, rfl⟩ <;> rw [handle, if_neg hfresh]
  · rw [onRead]
    split
    · next ec hec =>
      have hgaveUp : ec ≠ .gaveUp := fun hgaveUp ↦ hordinary.1 (hec.trans (congrArg some hgaveUp))
      rcases dropped_ended (s := s.without _) (c := c) henabled hall hgaveUp with ⟨-, hhalf⟩ | hdrop
      · rw [hhalf]
        exact advance_frame rfl rfl (fun hw ↦ absurd hw hwaiting) rfl id rfl rfl
      · exact advance_of_dropped hs hdrop
    · have htold : Tells s (emit (s.without (.read s.generation)) (.onMessage c.message)) _ :=
        tells_emit (s := s.without (.read s.generation)) hall (.onMessage c.message)
      rw [marks_of_tells (t := read _ _) htold]
      refine .reports _ (List.forall_mem_singleton.2 rfl) ⟨hwaiting, hne⟩
        (Or.inl ⟨rfl, fun hidle ↦ ?_⟩) rfl
      rw [hidle] at hs
      exact Bool.noConfusion hs
  · rw [onClosed]
    dsimp only
    split
    · exact advance_of_dropped hs (dropped_finishOwnClose
        (s := { s.without (.close s.generation code) with
          closeDone := true, closeResult := c.ec }) henabled hall)
    · exact advance_frame rfl rfl (fun hw ↦ absurd hw hwaiting) rfl id rfl rfl

/-- An operation completes. -/
theorem advance_complete (hcfg : cfg.callbacks = .all) (henabled : cfg.reconnect.enabled = true)
    (h : Inv cfg s) (hordinary : Ordinary s (.complete operation c))
    (hop : operation ∈ s.operations) :
    Advance cfg s (.complete operation c) (handle cfg (s.without operation) c operation)
      (marks s (handle cfg (s.without operation) c operation)) := by
  have hout : Outstanding s s.state := h.outstanding
  cases hs : s.state with
  | idle =>
    rw [hs] at hout
    exact absurd hout (List.ne_nil_of_mem hop)
  | connecting => exact advance_connecting hcfg henabled h hs hop hordinary
  | opened =>
    rw [hs] at hout
    rw [hout.1, List.mem_singleton] at hop
    exact advance_isOpen hcfg henabled h (hs ▸ rfl) hordinary (Or.inl hop)
  | closing =>
    rw [hs] at hout
    have hmem := hout.1.mem_iff.1 hop
    refine advance_isOpen hcfg henabled h (hs ▸ rfl) hordinary ?_
    rcases List.mem_append.1 hmem with hmem | hmem
    · rw [List.mem_ite_nil_left, List.mem_singleton] at hmem
      exact Or.inl hmem.2
    · rw [List.mem_ite_nil_left, List.mem_singleton] at hmem
      exact Or.inr ⟨_, hmem.2⟩
  | waiting =>
    rw [hs] at hout
    have hops : s.operations = [.retryTimer] := hout.resolve_left (List.ne_nil_of_mem hop)
    obtain rfl : operation = .retryTimer := by rwa [hops, List.mem_singleton] at hop
    have hexpired : c.ec = none := hordinary.2.2 rfl hs
    have hgo : ¬(c.ec.isSome = true ∨ (s.without .retryTimer).state ≠ .waiting) := by
      rw [hexpired]
      exact fun hgo ↦ hgo.elim Bool.noConfusion (absurd hs)
    rw [handle, onRetryTimer, if_neg hgo]
    exact advance_attempt (Or.inr hs) rfl rfl rfl
  | stopped =>
    have hstate : (s.without operation).state = .stopped := hs
    rw [handle_of_stopped hstate]
    have hwaiting : s.state ≠ .waiting := by
      rw [hs]
      decide
    exact advance_frame rfl rfl (fun hw ↦ absurd hw hwaiting) rfl id rfl rfl

/-- The first attempt begins, or a connection that was closed before stops. -/
theorem advance_start (hcfg : cfg.callbacks = .all) (hurl : cfg.url ≠ .inl .gaveUp) (h : Inv cfg s)
    (hstarting : s.starting = true) :
    Advance cfg s .start (start cfg s) (marks s (start cfg s)) := by
  rw [start]
  rcases h.starting hstarting with hs | ⟨hs, hstop⟩
  · have hall : s.callbacks = .all := callbacks_all hcfg h (by rw [hs]; decide)
    split
    · next ec hec =>
      have hne : ec ≠ .gaveUp := fun hne ↦ hurl (hec.trans (congrArg Sum.inl hne))
      have htold := tells_emit (s := { s with starting := false }) hall (.onError ec)
      rw [marks_of_tells (t := stop _) htold]
      exact .reports _ (List.forall_mem_singleton.2 (counts_onError hne)) (by rw [hs]; decide)
        (Or.inr rfl) rfl
    · exact advance_attempt (Or.inl hs) rfl rfl rfl
  · -- close() came first: the callbacks are gone
    split
    · next ec _ =>
      have hnone : s.delivered ++ [Event.onError ec].filter s.callbacks.wants = s.delivered := by
        rw [h.callbacks, if_pos hs]
        exact List.append_nil _
      exact advance_stopped rfl (Or.inl hstop) hnone rfl
    · rw [attempt, if_pos (by simp only [hstop, Bool.true_or])]
      exact advance_stopped rfl (Or.inl hstop) rfl rfl

/-- A close runs. -/
theorem advance_doClose (tasks : List Task) (code : CloseCode) :
    Advance cfg s action (doClose { s with tasks := tasks } code)
      (marks s (doClose { s with tasks := tasks } code)) := by
  rw [doClose]
  split
  · exact advance_frame rfl rfl (fun _ ↦ rfl) rfl id rfl rfl
  · dsimp only
    split
    · next hs =>
      have htold : Tells s (closeOpen { s with tasks := tasks, stopRequested := true } code) [] :=
        ⟨(List.append_nil _).symm, rfl⟩
      rw [marks_of_tells htold]
      have hopened : s.state = .opened := hs
      exact .stays (Or.inr ⟨hs ▸ rfl, rfl⟩) rfl
        (fun hw ↦ ConnectionState.noConfusion (hopened.symm.trans hw)) (fun _ ↦ rfl) id
    · have htold : Tells s { s with tasks := tasks, stopRequested := true } [] :=
        ⟨(List.append_nil _).symm, rfl⟩
      rw [marks_of_tells htold]
      exact .stays (Or.inl rfl) rfl (fun _ ↦ rfl) (fun _ ↦ rfl) id
    · exact advance_stopped rfl (Or.inl rfl) rfl rfl

/-- **What one step may add to the history**, and what it makes of the count. -/
theorem advance_step (hcfg : cfg.callbacks = .all) (henabled : cfg.reconnect.enabled = true)
    (hurl : cfg.url ≠ .inl .gaveUp) (h : Inv cfg s) (hordinary : Ordinary s action)
    (hstep : step cfg s action = some t) : Advance cfg s action t (marks s t) := by
  cases stepped_of_step hstep with
  | start hstarting => exact advance_start hcfg hurl h hstarting
  | close | send | unconnected => exact advance_frame rfl rfl (fun _ ↦ rfl) rfl id rfl rfl
  | destroy => exact advance_frame rfl rfl (fun _ ↦ rfl) rfl (fun _ ↦ rfl) rfl rfl
  | sender =>
    rw [send_eq]
    exact advance_frame rfl rfl (fun _ ↦ rfl) rfl id rfl rfl
  | task task tasks =>
    cases task with
    | close code => exact advance_doClose tasks code
    | send message gen =>
      rw [runTask, runSend_eq]
      exact advance_frame rfl rfl (fun _ ↦ rfl) rfl id rfl rfl
  | complete operation c hop => exact advance_complete hcfg henabled h hordinary hop
  | written =>
    rw [onWrite_eq]
    exact advance_frame rfl rfl (fun _ ↦ rfl) rfl id rfl rfl

end Steps

/-! ### The law of the history -/

/-- Which mark may follow which: an attempt comes first or after an announcement, nothing else comes
after one, and nothing at all after the client gave up. Announcements count on, within the limit,
and the client gives up at the limit. -/
def Fits (limit : ℕ) (before : List Mark) (mark : Mark) : Prop :=
  .gaveUp ∉ before ∧
    match mark with
    | .attempt => before = [] ∨ Announced before
    | .event event => ¬Announced before ∧
      match event with
      | .onReconnecting attempt _ => attempt = streak before + 1 ∧ (0 < limit → attempt ≤ limit)
      | .onError .gaveUp => 0 < limit ∧ streak before = limit
      | _ => True

/-- The history is lawful so far, and an event may follow. -/
structure Accepts (limit : ℕ) (history : List Mark) : Prop where
  fits : EachAfter (Fits limit) history
  announced : ¬Announced history
  gaveUp : .gaveUp ∉ history

theorem announced_snoc {history : List Mark} {mark : Mark} :
    Announced (history ++ [mark]) ↔ ∃ attempt delay, mark = .announce attempt delay := by
  constructor
  · rintro ⟨earlier, attempt, delay, h⟩
    exact ⟨attempt, delay, (List.append_inj' h rfl).2 |> List.singleton_inj.1⟩
  · rintro ⟨attempt, delay, rfl⟩
    exact ⟨history, attempt, delay, rfl⟩

theorem not_announced_nil : ¬Announced [] := by
  rintro ⟨earlier, attempt, delay, h⟩
  simp at h

/-- Events that do not count may come at any time between an attempt and the next announcement. -/
theorem fits_plain {limit : ℕ} {history : List Mark} {event : Event} (h : Accepts limit history)
    (hplain : event.counts = false) : Fits limit history (.event event) := by
  refine ⟨h.gaveUp, h.announced, ?_⟩
  cases event with
  | onReconnecting attempt delay => exact Bool.noConfusion hplain
  | onError ec =>
    cases ec with
    | gaveUp => exact Bool.noConfusion hplain
    | _ => trivial
  | _ => trivial

theorem Accepts.plain {limit : ℕ} {history : List Mark} {event : Event}
    (h : Accepts limit history) (hplain : event.counts = false) :
    Accepts limit (history ++ [.event event]) where
  fits := eachAfter_snoc.2 ⟨h.fits, fits_plain h hplain⟩
  announced := fun hannounced ↦ by
    obtain ⟨attempt, delay, hmark⟩ := announced_snoc.1 hannounced
    rw [Mark.event.inj hmark] at hplain
    exact Bool.noConfusion hplain
  gaveUp := fun hmem ↦ by
    rcases List.mem_append.1 hmem with hmem | hmem
    · exact h.gaveUp hmem
    · rw [← Mark.event.inj (List.mem_singleton.1 hmem)] at hplain
      exact Bool.noConfusion hplain

theorem Accepts.reports {limit : ℕ} {history : List Mark} {events : List Event}
    (h : Accepts limit history) (hplain : ∀ event ∈ events, event.counts = false) :
    Accepts limit (history ++ events.map .event) := by
  induction events generalizing history with
  | nil => rwa [List.map_nil, List.append_nil]
  | cons event events ih =>
    obtain ⟨hevent, hevents⟩ := List.forall_mem_cons.1 hplain
    rw [List.map_cons, List.append_cons]
    exact ih (h.plain hevent) hevents

/-! ### The invariant -/

/-- The invariant of a connection and its history. -/
structure Counted (limit : ℕ) (s : Connection) (history : List Mark) : Prop where
  fits : EachAfter (Fits limit) history
  failures : s.state ≠ .stopped → s.failures = streak history ∧
    (0 < limit → streak history ≤ limit) ∧ .gaveUp ∉ history
  idle : s.state = .idle → history = []
  opened : s.state.isOpen = true → streak history = 0
  waiting : s.state = .waiting → Announced history ∧ .retryTimer ∈ s.operations
  announced : Announced history → s.state = .waiting ∨
    s.state = .stopped ∧ (s.stopRequested = true ∨ s.clientClosed = true)

namespace Counted

variable {cfg : Config} {limit : ℕ} {s t : Connection} {history : List Mark} {action : Action}

/-- A history is open to events while the connection neither waits nor has stopped. -/
theorem accepts (h : Counted limit s history) (hwaiting : s.state ≠ .waiting)
    (hstopped : s.state ≠ .stopped) : Accepts limit history where
  fits := h.fits
  announced := fun hannounced ↦ (h.announced hannounced).elim hwaiting fun hs ↦ hstopped hs.1
  gaveUp := (h.failures hstopped).2.2

/-- What scheduleRetry() raises the count to. -/
theorem add_failures (h : Counted limit s history) (hs : s.state ≠ .stopped)
    (hfew : streak history + 1 < 2 ^ 32) : Word.add 32 s.failures 1 = streak history + 1 := by
  rw [(h.failures hs).1]
  exact Word.add_eq_of_lt hfew

/-- A connection that has stopped needs its history to be lawful only. -/
theorem of_stopped (hfits : EachAfter (Fits limit) history) (hs : s.state = .stopped)
    (hannounced : Announced history → s.stopRequested = true ∨ s.clientClosed = true) :
    Counted limit s history where
  fits := hfits
  failures := (absurd hs ·)
  idle := fun hidle ↦ ConnectionState.noConfusion (hs.symm.trans hidle)
  opened := fun hopen ↦ by
    rw [hs] at hopen
    exact Bool.noConfusion hopen
  waiting := fun hwaiting ↦ ConnectionState.noConfusion (hs.symm.trans hwaiting)
  announced := fun h ↦ Or.inr ⟨hs, hannounced h⟩

/-- A connection that attempts, or is open. -/
theorem of_accepts (h : Accepts limit history)
    (hs : s.state = .connecting ∨ s.state.isOpen = true ∧ streak history = 0)
    (hfailures : s.failures = streak history) (hlimit : 0 < limit → streak history ≤ limit) :
    Counted limit s history := by
  have hne : s.state ≠ .idle ∧ s.state ≠ .waiting := by
    rcases hs with hs | ⟨hs, -⟩
    · rw [hs]
      exact ⟨nofun, nofun⟩
    · constructor <;> intro hs' <;> rw [hs'] at hs <;> exact Bool.noConfusion hs
  refine ⟨h.fits, fun _ ↦ ⟨hfailures, hlimit, h.gaveUp⟩, (absurd · hne.1), fun hopen ↦ ?_,
    (absurd · hne.2), (absurd · h.announced)⟩
  rcases hs with hs | ⟨-, hstreak⟩
  · rw [hs] at hopen
    exact Bool.noConfusion hopen
  · exact hstreak

/-- The count stays right where nothing of it changes. -/
theorem stays (h : Counted limit s history)
    (hstate : t.state = s.state ∨ s.state.isOpen = true ∧ t.state.isOpen = true)
    (hfailures : t.failures = s.failures) (hops : s.state = .waiting → t.operations = s.operations)
    (hstop : s.stopRequested = true → t.stopRequested = true)
    (hclosed : s.clientClosed = true → t.clientClosed = true) : Counted limit t history := by
  rcases hstate with hstate | ⟨hs, ht⟩
  · refine ⟨h.fits, ?_, ?_, ?_, fun hw ↦ ?_, fun hannounced ↦ ?_⟩
    · rw [hstate, hfailures]
      exact h.failures
    · rw [hstate]
      exact h.idle
    · rw [hstate]
      exact h.opened
    · have hs := hstate.symm.trans hw
      rw [hops hs]
      exact h.waiting hs
    · rw [hstate]
      exact (h.announced hannounced).imp_right fun hs ↦ ⟨hs.1, hs.2.imp hstop hclosed⟩
  · obtain ⟨hwaiting, hstopped⟩ := not_waiting_of_isOpen hs
    obtain ⟨hcount, hlimit, -⟩ := h.failures hstopped
    exact of_accepts (h.accepts hwaiting hstopped) (Or.inr ⟨ht, h.opened hs⟩)
      (hfailures.trans hcount) hlimit

/-- Events that do not count. -/
theorem reports (h : Counted limit s history) {events : List Event}
    (hplain : ∀ event ∈ events, event.counts = false) (hs : s.state ≠ .waiting ∧ s.state ≠ .stopped)
    (hstate : t.state = s.state ∧ s.state ≠ .idle ∨ t.state = .stopped)
    (hfailures : t.failures = s.failures) : Counted limit t (history ++ events.map .event) := by
  have haccepts := (h.accepts hs.1 hs.2).reports hplain
  have hstreak := streak_append_plain history hplain
  rcases hstate with ⟨hstate, hidle⟩ | hstopped
  · obtain ⟨hcount, hlimit, -⟩ := h.failures hs.2
    refine of_accepts haccepts ?_ (hfailures.trans (hcount.trans hstreak.symm)) (hstreak ▸ hlimit)
    rw [hstate, hstreak]
    cases hstate' : s.state with
    | idle => exact absurd hstate' hidle
    | connecting => exact Or.inl rfl
    | opened | closing => exact Or.inr ⟨rfl, h.opened (by rw [hstate']; rfl)⟩
    | waiting => exact absurd hstate' hs.1
    | stopped => exact absurd hstate' hs.2
  · exact of_stopped haccepts.fits hstopped (absurd · haccepts.announced)

/-- An attempt. -/
theorem attempts (h : Counted limit s history) (hs : s.state = .idle ∨ s.state = .waiting)
    (hstate : t.state = .connecting) (hfailures : t.failures = s.failures) :
    Counted limit t (history ++ [.attempt]) := by
  have hstopped : s.state ≠ .stopped := by
    rcases hs with hs | hs <;> rw [hs] <;> nofun
  obtain ⟨hcount, hlimit, hgaveUp⟩ := h.failures hstopped
  have hstreak : streak (history ++ [.attempt]) = streak history := streak_snoc ..
  have hfits : Fits limit history .attempt :=
    ⟨hgaveUp, hs.imp h.idle fun hs ↦ (h.waiting hs).1⟩
  refine of_accepts ⟨eachAfter_snoc.2 ⟨h.fits, hfits⟩, fun ha ↦ ?_, fun hmem ↦ ?_⟩ (Or.inl hstate)
    (hfailures.trans (hcount.trans hstreak.symm)) (hstreak ▸ hlimit)
  · obtain ⟨attempt, delay, hmark⟩ := announced_snoc.1 ha
    exact Mark.noConfusion hmark
  · rcases List.mem_append.1 hmem with hmem | hmem
    · exact hgaveUp hmem
    · exact Mark.noConfusion (List.mem_singleton.1 hmem)

/-- The connection opens. -/
theorem opens (h : Counted limit s history) (hs : s.state = .connecting)
    (hstate : t.state.isOpen = true) (hfailures : t.failures = 0) :
    Counted limit t (history ++ [.event .onOpen]) := by
  have haccepts := h.accepts (hs ▸ nofun) (hs ▸ nofun)
  have hstreak : streak (history ++ [.event .onOpen]) = 0 := streak_snoc ..
  refine of_accepts ⟨eachAfter_snoc.2 ⟨h.fits, haccepts.gaveUp, haccepts.announced, trivial⟩,
    fun ha ↦ ?_, fun hmem ↦ ?_⟩ (Or.inr ⟨hstate, hstreak⟩) (hfailures.trans hstreak.symm)
    fun _ ↦ hstreak ▸ Nat.zero_le limit
  · obtain ⟨attempt, delay, hmark⟩ := announced_snoc.1 ha
    exact Event.noConfusion (Mark.event.inj hmark)
  · rcases List.mem_append.1 hmem with hmem | hmem
    · exact haccepts.gaveUp hmem
    · exact Event.noConfusion (Mark.event.inj (List.mem_singleton.1 hmem))

/-- **An attempt failed, or the connection dropped.** -/
theorem ends (h : Counted cfg.reconnect.maxAttempts s history) (hfew : streak history + 1 < 2 ^ 32)
    {reports events : List Event} (hplain : ∀ event ∈ reports, event.counts = false)
    (hs : s.state = .connecting ∨ s.state.isOpen = true) (hretry : Retry cfg s t events) :
    Counted cfg.reconnect.maxAttempts t (history ++ (reports ++ events).map .event) := by
  obtain ⟨hwaiting, hstopped⟩ : s.state ≠ .waiting ∧ s.state ≠ .stopped := by
    constructor <;> intro hs' <;> rw [hs'] at hs <;> exact hs.elim nofun Bool.noConfusion
  have haccepts := (h.accepts hwaiting hstopped).reports hplain
  have hstreak := streak_append_plain history hplain
  obtain ⟨-, hlimit, -⟩ := h.failures hstopped
  have hadd := h.add_failures hstopped hfew
  rw [List.map_append, ← List.append_assoc]
  rcases hretry with ⟨rfl, hstate, -⟩ |
    ⟨-, -, ⟨rfl, hstate, hpos, hover⟩ | ⟨delay, rfl, hstate, htimer, hf, hm⟩⟩
  · rw [List.map_nil, List.append_nil]
    exact of_stopped haccepts.fits hstate (absurd · haccepts.announced)
  · rw [hadd] at hover
    have hfull : streak history = cfg.reconnect.maxAttempts :=
      Nat.le_antisymm (hlimit hpos) (Nat.lt_succ_iff.1 hover)
    refine of_stopped (eachAfter_snoc.2 ⟨haccepts.fits, haccepts.gaveUp, haccepts.announced, hpos,
      hstreak.trans hfull⟩) hstate fun ha ↦ ?_
    obtain ⟨attempt, delay, hmark⟩ := announced_snoc.1 ha
    exact Event.noConfusion (Mark.event.inj hmark)
  · have hnext : t.failures = streak history + 1 := hf.trans hadd
    have hstreak' : streak (history ++ reports.map .event ++
        [.announce t.failures delay]) = streak history + 1 := by
      rw [streak_snoc, hstreak]
    have hfits : Fits cfg.reconnect.maxAttempts (history ++ reports.map .event)
        (.announce t.failures delay) :=
      ⟨haccepts.gaveUp, haccepts.announced, hnext.trans (congrArg (· + 1) hstreak.symm), hm⟩
    refine ⟨eachAfter_snoc.2 ⟨haccepts.fits, hfits⟩, fun _ ↦ ⟨?_, fun hpos ↦ ?_, fun hmem ↦ ?_⟩,
      fun hidle ↦ ConnectionState.noConfusion (hstate.symm.trans hidle), fun hopen ↦ ?_,
      fun _ ↦ ⟨⟨_, _, _, rfl⟩, htimer⟩, fun _ ↦ Or.inl hstate⟩
    · exact hnext.trans hstreak'.symm
    · exact hstreak'.trans_le (hnext ▸ hm hpos)
    · rcases List.mem_append.1 hmem with hmem | hmem
      · exact haccepts.gaveUp hmem
      · exact Event.noConfusion (Mark.event.inj (List.mem_singleton.1 hmem))
    · rw [hstate] at hopen
      exact Bool.noConfusion hopen

/-- **One step keeps the count.** -/
theorem advance (h : Counted cfg.reconnect.maxAttempts s history)
    (hfew : streak history + 1 < 2 ^ 32) {added : List Mark}
    (hstep : Advance cfg s action t added) :
    Counted cfg.reconnect.maxAttempts t (history ++ added) := by
  cases hstep with
  | stays hstate hfailures hops hstop hclosed =>
    rw [List.append_nil]
    exact h.stays hstate hfailures hops hstop hclosed
  | stops hstate hended =>
    rw [List.append_nil]
    exact of_stopped h.fits hstate fun _ ↦ hended
  | reports events hplain hs hstate hfailures => exact h.reports hplain hs hstate hfailures
  | attempts hs hstate hfailures => exact h.attempts hs hstate hfailures
  | opens hs hstate hfailures => exact h.opens hs hstate hfailures
  | ends reports events hplain hs hretry => exact h.ends hfew hplain (hs.imp_left And.left) hretry

end Counted

/-! ### Runs -/

section Runs

variable {cfg : Config} {s t : Connection} {history : List Mark} {action : Action}

/-- What a step takes for granted: an ordinary completion, and fewer than `2^32` failures in a row,
so that the count does not wrap around. -/
def Promised (x : Connection × List Mark) (action : Action) : Prop :=
  Ordinary x.1 action ∧ streak x.2 + 1 < 2 ^ 32

/-- A step only adds to what was delivered. -/
theorem delivered_step (hstep : step cfg s action = some t) :
    ∃ events, t.delivered = s.delivered ++ events := by
  have hnone {u : Connection} (h : u.delivered = s.delivered) :
      ∃ events, u.delivered = s.delivered ++ events := ⟨[], h.trans (List.append_nil _).symm⟩
  cases stepped_of_step hstep with
  | start =>
    rw [start]
    split
    · exact ⟨_, rfl⟩
    · next target _ =>
      have hattempt : Handled [] [] { s with starting := false, target := target } _ :=
        Handled.refl.attempt
      obtain ⟨events, hevents, -⟩ := hattempt.delivered
      exact ⟨events, hevents⟩
  | close | destroy | send | unconnected => exact hnone rfl
  | sender =>
    rw [send_eq]
    exact hnone rfl
  | task task tasks =>
    cases task with
    | close code =>
      rw [runTask, doClose]
      split
      · exact hnone rfl
      · dsimp only
        split <;> exact hnone rfl
    | send message gen =>
      rw [runTask, runSend_eq]
      exact hnone rfl
  | complete operation c =>
    obtain ⟨events, hevents, -⟩ := (handled_handle cfg (s.without operation) c operation).delivered
    exact ⟨events, hevents⟩
  | written =>
    rw [onWrite_eq]
    exact hnone rfl

theorem eventsOf_append (history added : List Mark) :
    eventsOf (history ++ added) = eventsOf history ++ eventsOf added :=
  List.filterMap_append

/-- The events that are noted are those that were delivered. -/
theorem eventsOf_marks (hstep : step cfg s action = some t) :
    t.delivered = s.delivered ++ eventsOf (marks s t) := by
  obtain ⟨events, hevents⟩ := delivered_step hstep
  have hmap : eventsOf (events.map .event) = events := by
    rw [eventsOf, List.filterMap_map]
    exact List.filterMap_some
  have hattempt : eventsOf (if t.generation = s.generation then [] else [.attempt]) = [] := by
    split <;> rfl
  rw [marks, eventsOf_append, hattempt, List.append_nil, hevents, List.drop_left, hmap]

/-- **The invariant of a run**: the count, and the events of the history are those delivered. -/
theorem counted_of_reachable (henabled : cfg.reconnect.enabled = true)
    (hurl : cfg.url ≠ .inl .gaveUp) (h : (recorded cfg).ReachableVia Promised (s, history)) :
    Inv cfg.loud s ∧ Counted cfg.reconnect.maxAttempts s history ∧
      s.delivered = eventsOf history := by
  refine h.invariant (I := fun x ↦ Inv cfg.loud x.1 ∧
    Counted cfg.reconnect.maxAttempts x.1 x.2 ∧ x.1.delivered = eventsOf x.2) ?_ ?_
  · rintro ⟨s, history⟩ ⟨hs, hhistory⟩
    obtain rfl : s = { callbacks := .all } := hs
    obtain rfl : history = [] := hhistory
    refine ⟨inv_init _ rfl, ⟨eachAfter_nil, fun _ ↦ ⟨rfl, fun _ ↦ Nat.zero_le _, List.not_mem_nil⟩,
      fun _ ↦ rfl, Bool.noConfusion, ConnectionState.noConfusion,
      (absurd · not_announced_nil)⟩, rfl⟩
  · rintro ⟨s, history⟩ action ⟨t, history'⟩ ⟨hinv, hcounted, hevents⟩ ⟨hordinary, hfew⟩ hstep
    obtain ⟨hs, hadded⟩ := Machine.logged_step hstep
    have hstep' : step cfg.loud s action = some t := hs
    obtain rfl : history' = history ++ marks s t := hadded
    have hset : cfg.loud.callbacks = .all := rfl
    have hadvance := advance_step hset henabled hurl hinv hordinary hstep'
    have hcounted' : Counted cfg.loud.reconnect.maxAttempts s history := hcounted
    refine ⟨inv_step s action t hinv hstep', hcounted'.advance hfew hadvance, ?_⟩
    have hdelivered : s.delivered = eventsOf history := hevents
    show t.delivered = eventsOf (history ++ marks s t)
    rw [eventsOf_append, ← hdelivered, eventsOf_marks hstep']

/-! ### The result -/

/-- What a user sees of a connection that tries again, all callbacks set. -/
structure Reconnects (cfg : Config) (s : Connection) (history : List Mark) : Prop where
  /-- Announcements count 1, 2, 3, ... from one onOpen to the next, up to the limit. An attempt
  follows at once, if anything does. -/
  announces : ∀ before attempt delay after, history = before ++ .announce attempt delay :: after →
    attempt = streak before + 1 ∧
      (0 < cfg.reconnect.maxAttempts → attempt ≤ cfg.reconnect.maxAttempts) ∧
      (after = [] ∨ ∃ rest, after = .attempt :: rest)
  /-- Every attempt but the first follows an announcement. -/
  attempts : ∀ before after, history = before ++ .attempt :: after → before = [] ∨ Announced before
  /-- After the last announcement the connection waits for its timer, or was stopped by a close or
  by the destruction of the client. -/
  pending : Announced history →
    s.state = .waiting ∧ .retryTimer ∈ s.operations ∨
      s.state = .stopped ∧ (s.stopRequested = true ∨ s.clientClosed = true)
  /-- The timer makes the attempt. -/
  timer : s.state = .waiting → s.stopRequested = false → s.clientClosed = false → ∀ c t,
    c.ec = none → step cfg.loud s (.complete .retryTimer c) = some t → marks s t = [.attempt]
  /-- The client gives up after as many announcements as the limit allows, if there is one, and
  nothing follows. -/
  gaveUp : ∀ before after, history = before ++ .gaveUp :: after →
    0 < cfg.reconnect.maxAttempts ∧ streak before = cfg.reconnect.maxAttempts ∧ after = [] ∧
      s.state = .stopped
  /-- It does exactly where the attempt after the last of them fails. -/
  givesUp : ∀ action t, Promised (s, history) action → step cfg.loud s action = some t →
    (.gaveUp ∈ marks s t ↔ FailsAttempt s action ∧ 0 < cfg.reconnect.maxAttempts ∧
      streak history = cfg.reconnect.maxAttempts ∧ s.stopRequested = false ∧
      s.clientClosed = false)

/-- An event that does not count is not the client's giving up. -/
theorem gaveUp_not_mem {events : List Event} (hplain : ∀ event ∈ events, event.counts = false) :
    Mark.gaveUp ∉ events.map .event := fun hmem ↦ by
  obtain ⟨event, hevent, hmark⟩ := List.mem_map.1 hmem
  have hcounts := hplain event hevent
  rw [Mark.event.inj hmark] at hcounts
  exact Bool.noConfusion hcounts

theorem FailsAttempt.not_stopped (h : FailsAttempt s action) : s.state ≠ .stopped := fun hs ↦ by
  have hstale (gen : ℕ) : stale s gen = true := by
    rw [stale, hs, beq_self_eq_true, Bool.or_true]
  cases action with
  | complete operation c =>
    cases operation with
    | resolve gen | connect gen | tlsHandshake gen | upgrade gen =>
      exact Bool.noConfusion (h.1.symm.trans (hstale gen))
    | read gen | close gen code | retryTimer => exact h.elim
  | _ => exact h.elim

/-- What giving up says of the step. -/
theorem failsAttempt_of_gaveUp {added : List Mark}
    (hcounted : Counted cfg.reconnect.maxAttempts s history) (hfew : streak history + 1 < 2 ^ 32)
    (hadvance : Advance cfg s action t added) (hmem : .gaveUp ∈ added) :
    FailsAttempt s action ∧ 0 < cfg.reconnect.maxAttempts ∧
      streak history = cfg.reconnect.maxAttempts ∧ s.stopRequested = false ∧
      s.clientClosed = false := by
  cases hadvance with
  | stays | stops => exact absurd hmem List.not_mem_nil
  | reports events hplain => exact absurd hmem (gaveUp_not_mem hplain)
  | attempts => exact Mark.noConfusion (List.mem_singleton.1 hmem)
  | opens => exact Event.noConfusion (Mark.event.inj (List.mem_singleton.1 hmem))
  | ends reports events hplain hs hretry =>
    obtain ⟨hwaiting, hstopped⟩ : s.state ≠ .waiting ∧ s.state ≠ .stopped := by
      rcases hs with ⟨hs, -⟩ | hs
      · exact hs ▸ ⟨nofun, nofun⟩
      · exact not_waiting_of_isOpen hs
    obtain ⟨-, hlimit, -⟩ := hcounted.failures hstopped
    have hadd := hcounted.add_failures hstopped hfew
    rw [List.map_append, List.mem_append] at hmem
    have hmem := hmem.resolve_left (gaveUp_not_mem hplain)
    rcases hretry with ⟨rfl, -⟩ | ⟨hstop, hclosed, ⟨-, -, hpos, hover⟩ | ⟨delay, rfl, -⟩⟩
    · exact absurd hmem List.not_mem_nil
    · rw [hadd] at hover
      have hfull := Nat.le_antisymm (hlimit hpos) (Nat.lt_succ_iff.1 hover)
      rcases hs with ⟨-, hfails⟩ | hs
      · exact ⟨hfails, hpos, hfull, hstop, hclosed⟩
      · -- an open connection that drops is the first failure in a row
        have hzero := hcounted.opened hs
        omega
    · exact Event.noConfusion (Mark.event.inj (List.mem_singleton.1 hmem))

/-- The attempt after the last announcement fails. -/
theorem gaveUp_of_failsAttempt (henabled : cfg.reconnect.enabled = true)
    (hcfg : cfg.callbacks = .all) (hinv : Inv cfg s)
    (hcounted : Counted cfg.reconnect.maxAttempts s history) (hfew : streak history + 1 < 2 ^ 32)
    (hfails : FailsAttempt s action) (hpos : 0 < cfg.reconnect.maxAttempts)
    (hfull : streak history = cfg.reconnect.maxAttempts) (hstop : s.stopRequested = false)
    (hclosed : s.clientClosed = false) (hstep : step cfg s action = some t) :
    .gaveUp ∈ marks s t := by
  obtain ⟨operation, c, ec, rfl, -, rfl⟩ := failsAttempt_step hfails hstep
  have hstopped := hfails.not_stopped
  have hall : s.callbacks = .all := callbacks_all hcfg hinv hstopped
  obtain ⟨events, htold, hretry⟩ := retry_attemptFailed (s := s.without operation) (c := c)
    henabled hall ec hstop
  have htold' : Tells s _ (.onError ec :: events) := htold
  rw [marks_of_tells htold']
  have hadd := hcounted.add_failures hstopped hfew
  rcases hretry with ⟨-, -, hended⟩ | ⟨-, -, ⟨rfl, -⟩ | ⟨delay, -, -, -, hf, hlimit⟩⟩
  · rcases hended with hended | hended
    · exact Bool.noConfusion (hstop.symm.trans hended)
    · exact Bool.noConfusion (hclosed.symm.trans hended)
  · exact List.mem_cons_of_mem _ (List.mem_singleton_self _)
  · have hover := hlimit hpos
    have hf' : _ = Word.add 32 s.failures 1 := hf
    rw [hf', hadd] at hover
    omega

/-- The timer of a connection that waits. -/
theorem marks_retryTimer {c : Completion} (hs : s.state = .waiting)
    (hstop : s.stopRequested = false) (hclosed : s.clientClosed = false) (hc : c.ec = none)
    (hstep : step cfg s (.complete .retryTimer c) = some t) : marks s t = [.attempt] := by
  have hgo : ¬(c.ec.isSome = true ∨ (s.without .retryTimer).state ≠ .waiting) := by
    rw [hc]
    exact fun hgo ↦ hgo.elim Bool.noConfusion (absurd hs)
  have hrun : ¬((s.without .retryTimer).stopRequested || (s.without .retryTimer).clientClosed) =
      true := by
    show ¬(s.stopRequested || s.clientClosed) = true
    rw [hstop, hclosed]
    exact Bool.noConfusion
  cases stepped_of_step hstep with
  | complete =>
    rw [handle, onRetryTimer, if_neg hgo, attempt, if_neg hrun]
    exact marks_of_attempt rfl rfl

/-- **The run lemma.** -/
theorem reconnects_of_reachable (henabled : cfg.reconnect.enabled = true)
    (hurl : cfg.url ≠ .inl .gaveUp) (h : (recorded cfg).ReachableVia Promised (s, history)) :
    Reconnects cfg s history := by
  obtain ⟨hinv, hcounted, -⟩ := counted_of_reachable henabled hurl h
  refine ⟨?_, ?_, ?_, ?_, ?_, ?_⟩
  · rintro before attempt delay after rfl
    obtain ⟨-, -, hattempt, hlimit⟩ := hcounted.fits _ _ _ rfl
    refine ⟨hattempt, hlimit, ?_⟩
    cases after with
    | nil => exact Or.inl rfl
    | cons next rest =>
      obtain ⟨-, hnext⟩ := hcounted.fits (before ++ [.announce attempt delay]) next rest (by simp)
      cases next with
      | event event => exact absurd ⟨before, attempt, delay, rfl⟩ hnext.1
      | attempt => exact Or.inr ⟨rest, rfl⟩
  · rintro before after rfl
    exact (hcounted.fits _ _ _ rfl).2
  · intro hannounced
    exact (hcounted.announced hannounced).imp_left fun hs ↦ ⟨hs, (hcounted.waiting hs).2⟩
  · intro hs hstop hclosed c t hc hstep
    exact marks_retryTimer hs hstop hclosed hc hstep
  · rintro before after rfl
    obtain ⟨-, -, hpos, hfull⟩ := hcounted.fits _ _ _ rfl
    refine ⟨hpos, hfull, ?_, ?_⟩
    · cases after with
      | nil => rfl
      | cons next rest =>
        obtain ⟨hnone, -⟩ := hcounted.fits (before ++ [.gaveUp]) next rest (by simp)
        exact absurd (List.mem_append_right _ (List.mem_singleton_self _)) hnone
    · by_contra hs
      exact (hcounted.failures hs).2.2 (List.mem_append_right _ List.mem_cons_self)
  · intro action t hpromised hstep
    have hset : cfg.loud.callbacks = .all := rfl
    have hadvance := advance_step hset henabled hurl hinv hpromised.1 hstep
    have hcounted' : Counted cfg.loud.reconnect.maxAttempts s history := hcounted
    have henabled' : cfg.loud.reconnect.enabled = true := henabled
    constructor
    · intro hmem
      have hgave := failsAttempt_of_gaveUp hcounted' hpromised.2 hadvance hmem
      exact hgave
    · rintro ⟨hfails, hpos, hfull, hstop, hclosed⟩
      have hgave := gaveUp_of_failsAttempt henabled' hset hinv hcounted' hpromised.2 hfails hpos
        hfull hstop hclosed hstep
      exact hgave

/-- **Reconnect counting.** Whatever completes in whatever order, what a connection that tries again
delivers is what the callbacks that are set hear of a history in which announcements count on from 1
between one onOpen and the next, never beyond the limit, each of them followed by one attempt unless
the connection is closed or its client destroyed first, and the client gives up exactly where the
attempt after the last announcement fails, once and finally. -/
theorem attempts_counted (henabled : cfg.reconnect.enabled = true) (hurl : cfg.url ≠ .inl .gaveUp)
    (actions : List Action)
    (hrun : (machine cfg).run { callbacks := cfg.callbacks } actions = some s)
    (hpromised : (recorded cfg).EveryStep (fun x action _ ↦ Promised x action)
      ({ callbacks := .all }, []) actions) :
    ∃ t history, (recorded cfg).run ({ callbacks := .all }, []) actions = some (t, history) ∧
      s = mute cfg.callbacks t ∧
      s.delivered = (eventsOf history).filter cfg.callbacks.wants ∧ Reconnects cfg t history := by
  rw [run_mute, Option.map_eq_some_iff] at hrun
  obtain ⟨t, hloud, rfl⟩ := hrun
  have hrecorded := Machine.run_map (M := recorded cfg) (N := machine cfg.loud) Prod.fst
    (fun x action ↦ by simp [recorded, Machine.logged, Function.comp_def])
    ({ callbacks := .all }, []) actions
  rw [hloud] at hrecorded
  obtain ⟨⟨t', history⟩, hhistory, ht⟩ := Option.map_eq_some_iff.1 hrecorded.symm
  obtain rfl : t' = t := ht
  have hinit : (recorded cfg).Init ({ callbacks := .all }, []) := ⟨rfl, rfl⟩
  have hreach : (recorded cfg).ReachableVia Promised (t', history) :=
    (Machine.ReachableVia.init hinit).run actions hpromised hhistory
  obtain ⟨-, -, hevents⟩ := counted_of_reachable henabled hurl hreach
  refine ⟨t', history, hhistory, rfl, ?_, reconnects_of_reachable henabled hurl hreach⟩
  show t'.delivered.filter _ = _
  rw [hevents]

end Runs

/-- A connection that tries again once, whose user does not ask for onOpen. -/
def limited : Config where
  url := .inr {}
  reconnect := { enabled := true, maxAttempts := 1 }
  callbacks := { onError := true, onReconnecting := true }

/-- Nobody listens. -/
def refused : List Action :=
  [.start, .complete (.resolve 1) { ec := some (.other 111), delay := 500 },
    .complete .retryTimer {}, .complete (.resolve 2) { ec := some (.other 111) }]

instance decidableOrdinary (s : Connection) : DecidablePred (Ordinary s)
  | .complete _ _ => inferInstanceAs (Decidable (_ ∧ _ ∧ (_ → _ → _)))
  | .start | .close _ | .destroy | .send _ | .sender _ _ | .task | .written _ _ => .isTrue trivial

instance decidablePromised (x : Connection × List Mark) : DecidablePred (Promised x) :=
  fun _ ↦ inferInstanceAs (Decidable (_ ∧ _))

theorem attempts_counted_refused :
    ∃ s t history, (machine limited).run { callbacks := limited.callbacks } refused = some s ∧
      s.delivered = [.onError (.other 111), .onReconnecting 1 500, .onError (.other 111),
        .onError .gaveUp] ∧
      (recorded limited).run ({ callbacks := .all }, []) refused = some (t, history) ∧
      Reconnects limited t history := by
  have hpromised : (recorded limited).EveryStep (fun x action _ ↦ Promised x action)
      ({ callbacks := .all }, []) refused := by
    decide
  obtain ⟨t, history, hrun, -, -, hreconnects⟩ :=
    attempts_counted (rfl : limited.reconnect.enabled = true) nofun refused rfl hpromised
  exact ⟨_, t, history, rfl, rfl, hrun, hreconnects⟩

end CppGate.WebSocketClient
