import CppGate.Foundations.Roster
import CppGate.WebSocketClient.Closing

/-!
# Destroying a WebSocket client

A client lists its connections without owning them. ~WebSocketClient closes it, takes the
connections that are still there and closes each with 1001, while the threads of the client run
their handlers. A connection lives as long as something is outstanding for it or a handle refers to
it, and the last handle closes it.

connect() does not look whether the client is closed: what it makes then is listed in vain. Such a
connection stops where start() asks, so it never resolves anything (`Late`).
-/

namespace CppGate.WebSocketClient

open CppGate.WebSocketSession (CloseCode)

/-! ### The client -/

/-- A connection that was made. -/
structure Member where
  /-- What connect() was given. -/
  cfg : Config
  connection : Connection
  /-- connect() came after the client was closed. -/
  late : Bool
  /-- A handle refers to it. -/
  handle : Bool := true
  /-- Something refers to it. -/
  alive : Bool := true

/-- The connections of a client. -/
structure Client where
  /-- `connections` and `closed` of `WsClientImpl`, and the connections that ~WebSocketClient has
  yet to close. A connection's number stands for its address. -/
  roster : Roster ℕ := {}
  members : List Member := []

/-- Whether nothing that a connection does keeps it alive. -/
def Connection.quiet (s : Connection) : Bool :=
  !s.starting && s.tasks.isEmpty && s.operations.isEmpty && s.writes.isEmpty && s.senders.isEmpty

namespace Client

/-- A connection that is alive. -/
def member (c : Client) (i : ℕ) : Option Member :=
  (c.members[i]?).filter (·.alive)

/-- Whether `weak.lock()` finds a connection. -/
def present (c : Client) (i : ℕ) : Bool :=
  (c.member i).isSome

/-- A connection takes a step. -/
def move (c : Client) (i : ℕ) (m : Member) (a : WebSocketClient.Action) : Option Client :=
  (WebSocketClient.step m.cfg m.connection a).map fun connection ↦
    { c with members := c.members.set i { m with connection } }

/-- What happens next. -/
inductive Action
  | connect (cfg : Config)
  /-- ~WebSocketClient, up to where it unlocks. -/
  | destroy
  /-- ~WebSocketClient closes the next connection. -/
  | post
  /-- Something else happens to a connection. -/
  | go (i : ℕ) (a : WebSocketClient.Action)
  /-- The last handle of a connection goes away. -/
  | release (i : ℕ)
  /-- The last reference to a connection is gone. -/
  | expire (i : ℕ)

/-- One step of a client. -/
def step (c : Client) : Action → Option Client
  | .connect cfg =>
    let connection : Connection :=
      { callbacks := cfg.callbacks, clientClosed := c.roster.closed }
    some
      { roster := (c.roster.prune c.present).join c.members.length
        members := c.members ++ [{ cfg, connection, late := c.roster.closed }] }
  | .destroy =>
    if c.roster.closed then none
    else some
      { roster := (c.roster.close c.present).clear
        members := c.members.map fun m ↦
          { m with connection := { m.connection with clientClosed := true } } }
  | .post =>
    (c.roster.next 0).bind fun i ↦ (c.member i).bind fun m ↦
      ({ c with roster := c.roster.tell 0 } : Client).move i m (.close CloseCode.goingAway)
  | .go i a => if a = .destroy then none else (c.member i).bind fun m ↦ c.move i m a
  | .release i =>
    (c.member i).bind fun m ↦
      if m.handle then c.move i { m with handle := false } (.close CloseCode.normal) else none
  | .expire i =>
    (c.member i).bind fun m ↦
      if !m.handle && m.connection.quiet && c.roster.owing i == 0 then
        some { c with members := c.members.set i { m with alive := false } }
      else
        none

end Client

/-- A client with its connections, from its construction to the end of its destructor. -/
def lifetimeMachine : Machine Client Client.Action where
  Init c := c = {}
  step := Client.step

/-! ### Connections that end -/

/-- A close is posted to the connection, or was requested, or the connection has stopped. -/
def Connection.Ending (s : Connection) : Prop :=
  (∃ code, .close code ∈ s.tasks) ∨ s.stopRequested = true ∨ s.state = .stopped

/-- A connection of a closed client that has not begun an attempt, and will not. -/
def Connection.Late (s : Connection) : Prop :=
  s.clientClosed = true ∧ (s.state = .stopped ∨ s.state = .idle ∧ s.starting = true)

section Ending

variable {cfg : Config} {s t : Connection} {a : Action}

/-! No handler of an operation posts a task. -/

theorem tasks_attempt (s : Connection) : (attempt s).tasks = s.tasks := by
  rw [attempt]
  split <;> rfl

theorem tasks_start (cfg : Config) (s : Connection) : (start cfg s).tasks = s.tasks := by
  rw [start]
  split
  · rfl
  · exact tasks_attempt _

theorem tasks_scheduleRetry (cfg : Config) (s : Connection) (c : Completion) :
    (scheduleRetry cfg s c).tasks = s.tasks := by
  rw [scheduleRetry]
  split
  · rfl
  · dsimp only
    split <;> rfl

theorem tasks_attemptFailed (cfg : Config) (s : Connection) (ec : ErrorCode) (c : Completion) :
    (attemptFailed cfg s ec c).tasks = s.tasks := by
  rw [attemptFailed]
  split
  · rfl
  · exact tasks_scheduleRetry cfg _ c

theorem tasks_attemptStep (cfg : Config) (c : Completion) {next : Connection}
    (hnext : next.tasks = s.tasks) : (attemptStep cfg s c next).tasks = s.tasks := by
  rw [attemptStep]
  split
  · exact tasks_attemptFailed cfg s _ c
  · exact hnext

theorem tasks_onConnect (cfg : Config) (s : Connection) (gen : ℕ) (c : Completion) :
    (onConnect cfg s gen c).tasks = s.tasks := by
  rw [onConnect]
  split
  · rfl
  split
  · exact tasks_attemptFailed cfg s _ c
  · rfl

theorem tasks_onUpgrade (cfg : Config) (s : Connection) (gen : ℕ) (c : Completion) :
    (onUpgrade cfg s gen c).tasks = s.tasks := by
  rw [onUpgrade]
  split
  · dsimp only
    split <;> rfl
  · exact tasks_attemptFailed cfg s _ c
  · dsimp only
    split <;> rfl

theorem tasks_closed (cfg : Config) (s : Connection) (code : CloseCode) (c : Completion) :
    (closed cfg s code c).tasks = s.tasks := by
  rw [closed]
  split
  · rfl
  · exact tasks_scheduleRetry cfg _ c

theorem tasks_finishOwnClose (cfg : Config) (s : Connection) (c : Completion) :
    (finishOwnClose cfg s c).tasks = s.tasks := by
  rw [finishOwnClose]
  split
  · exact tasks_closed cfg s _ c
  · exact tasks_closed cfg s _ c

theorem tasks_ended (cfg : Config) (s : Connection) (ec : ErrorCode) (c : Completion) :
    (ended cfg s ec c).tasks = s.tasks := by
  rw [ended]
  split
  · dsimp only
    split
    · exact tasks_finishOwnClose cfg { s with readDone := true } c
    · rfl
  split
  · exact tasks_closed cfg s _ c
  split
  · exact tasks_closed cfg (emit s (.onError ec)) _ c
  · exact tasks_closed cfg s _ c

/-- No handler posts a task. -/
theorem tasks_handle (cfg : Config) (s : Connection) (c : Completion) (operation : Operation) :
    (handle cfg s c operation).tasks = s.tasks := by
  cases operation with
  | resolve gen | tlsHandshake gen =>
    rw [handle]
    split
    · rfl
    · exact tasks_attemptStep cfg c rfl
  | connect gen =>
    rw [handle]
    split
    · rfl
    · exact tasks_attemptStep cfg c (tasks_onConnect cfg s gen c)
  | upgrade gen =>
    rw [handle]
    split
    · rfl
    · exact tasks_onUpgrade cfg s gen c
  | read gen =>
    rw [handle, onRead]
    split
    · rfl
    split
    · exact tasks_ended cfg s _ c
    · rfl
  | close gen code =>
    rw [handle, onClosed]
    split
    · rfl
    dsimp only
    split
    · exact tasks_finishOwnClose cfg { s with closeDone := true, closeResult := c.ec } c
    · rfl
  | retryTimer =>
    rw [handle, onRetryTimer]
    split
    · rfl
    · exact tasks_attempt s

/-- doClose() requests the stop, or the connection has stopped. -/
theorem doClose_ends (s : Connection) (code : CloseCode) :
    (doClose s code).stopRequested = true ∨ (doClose s code).state = .stopped := by
  rw [doClose]
  split
  · next hended =>
    rw [Bool.or_eq_true, beq_iff_eq] at hended
    exact hended
  · dsimp only
    split
    · exact Or.inl rfl
    · exact Or.inl rfl
    · exact Or.inl rfl

/-- What ends a connection is not taken back. -/
theorem Connection.Ending.step (hinv : Inv cfg s) (h : s.Ending) (hstep : step cfg s a = some t) :
    t.Ending := by
  rcases h with ⟨code, hcode⟩ | hstop | hstopped
  · cases stepped_of_step hstep with
    | task task tasks ht =>
      rw [ht] at hcode
      rcases List.mem_cons.1 hcode with rfl | hrest
      · exact Or.inr (doClose_ends { s with tasks := tasks } code)
      · cases task with
        | close code' => exact Or.inr (doClose_ends { s with tasks := tasks } code')
        | send message gen =>
          refine Or.inl ⟨code, ?_⟩
          rw [runTask, runSend_eq]
          exact hrest
    | start =>
      refine Or.inl ⟨code, ?_⟩
      rw [tasks_start]
      exact hcode
    | close => exact Or.inl ⟨code, List.mem_append_left _ hcode⟩
    | destroy | send | unconnected => exact Or.inl ⟨code, hcode⟩
    | sender i spurious sender =>
      refine Or.inl ⟨code, ?_⟩
      cases sender with
      | load message => exact hcode
      | reserve message current =>
        rw [send]
        split
        · exact hcode
        split
        · exact hcode
        · exact hcode
      | capture message => exact hcode
      | post message gen => exact List.mem_append_left _ hcode
    | complete operation c =>
      refine Or.inl ⟨code, ?_⟩
      rw [tasks_handle]
      exact hcode
    | written write ec =>
      refine Or.inl ⟨code, ?_⟩
      rw [onWrite_eq]
      exact hcode
  · rcases stopRequested_step hstep with hsame | ⟨rfl, code, htask⟩
    · exact Or.inr (Or.inl (hsame.trans hstop))
    · cases stepped_of_step hstep with
      | task task tasks ht =>
        rw [ht, List.head?_cons, Option.some.injEq] at htask
        subst htask
        exact Or.inr (doClose_ends { s with tasks := tasks } code)
  · exact Or.inr (Or.inr (stopped_step hinv hstopped hstep).1)

/-- A connection that was made too late stays where it is, or stops. -/
theorem Connection.Late.step (hinv : Inv cfg s) (h : s.Late) (hstep : step cfg s a = some t) :
    t.Late := by
  obtain ⟨hclosed, hs⟩ := h
  have hframe (hstate : t.state = s.state) (hstarting : t.starting = s.starting)
      (hclosed' : t.clientClosed = true) : t.Late := by
    refine ⟨hclosed', ?_⟩
    rw [hstate, hstarting]
    exact hs
  cases stepped_of_step hstep with
  | start hstarting =>
    rw [start]
    split
    · exact ⟨hclosed, Or.inl rfl⟩
    · rw [attempt, if_pos (by simp only [hclosed, Bool.or_true])]
      exact ⟨hclosed, Or.inl rfl⟩
  | close | send | unconnected => exact hframe rfl rfl hclosed
  | destroy => exact hframe rfl rfl rfl
  | sender i spurious sender =>
    rw [send_eq] at hframe ⊢
    exact hframe rfl rfl hclosed
  | task task tasks =>
    cases task with
    | close code =>
      rw [runTask, doClose]
      split
      · exact ⟨hclosed, hs⟩
      · next hgo =>
        rw [Bool.or_eq_true, not_or] at hgo
        rcases hs with hstopped | ⟨hidle, -⟩
        · exact absurd (beq_iff_eq.2 hstopped) hgo.2
        · dsimp only
          rw [hidle]
          exact ⟨hclosed, Or.inl rfl⟩
    | send message gen =>
      rw [runTask, runSend_eq] at hframe ⊢
      exact hframe rfl rfl hclosed
  | complete operation c hop =>
    rcases hs with hstopped | ⟨hidle, -⟩
    · have hstopped' : (s.without operation).state = .stopped := hstopped
      rw [handle_of_stopped hstopped']
      exact ⟨hclosed, Or.inl hstopped⟩
    · have hout : Outstanding s .idle := hidle ▸ hinv.outstanding
      exact absurd hout (List.ne_nil_of_mem hop)
  | written write ec =>
    rw [onWrite_eq] at hframe ⊢
    exact hframe rfl rfl hclosed

end Ending

/-! ### The invariant -/

namespace Member

variable {m m' : Member} {a : WebSocketClient.Action}

/-- What is known of each connection. -/
structure Sound (m : Member) : Prop where
  reachable : (machine m.cfg).Reachable m.connection
  late : m.late = true → m.connection.Late
  released : m.handle = false → m.connection.Ending
  gone : m.alive = false → m.connection.state = .stopped

/-- A connection goes on. -/
structure Becomes (m m' : Member) : Prop where
  late : m'.late = m.late
  gone : m.alive = false → m'.alive = false
  ending : m.connection.Ending → m'.connection.Ending
  sound : m.Sound → m'.Sound

theorem becomes_refl (m : Member) : m.Becomes m :=
  ⟨rfl, id, id, id⟩

/-- A connection that ends waits for something, or has stopped. -/
theorem stopped_of_quiet (h : m.Sound) (hreleased : m.handle = false)
    (hquiet : m.connection.quiet = true) : m.connection.state = .stopped := by
  simp only [Connection.quiet, Bool.and_eq_true, List.isEmpty_iff] at hquiet
  obtain ⟨⟨⟨⟨-, htasks⟩, hops⟩, -⟩, -⟩ := hquiet
  rcases h.released hreleased with ⟨code, hcode⟩ | hstop | hstopped
  · rw [htasks] at hcode
    exact absurd hcode List.not_mem_nil
  · by_contra hs
    have hgood := forGood_of_reachable h.reachable hstop
    exact ((inv_of_reachable h.reachable).waits hgood hstop hs).1 hops
  · exact hstopped

/-- A connection that has stopped may go. -/
theorem becomes_expire (hstopped : m.connection.state = .stopped) :
    m.Becomes { m with alive := false } where
  late := rfl
  gone _ := rfl
  ending := id
  sound h := ⟨h.reachable, h.late, h.released, fun _ ↦ hstopped⟩

end Member

namespace Client

/-- ~WebSocketClient finds the connection in the list, if it is there still. -/
def Joined (c : Client) : ℕ → Prop :=
  Roster.At c.members fun m ↦ m.late = false

/-- Nothing refers to the connection any more. -/
def Gone (c : Client) : ℕ → Prop :=
  Roster.At c.members fun m ↦ m.alive = false

/-- The connection ends. -/
def Told (c : Client) : ℕ → Prop :=
  Roster.At c.members fun m ↦ m.connection.Ending

/-- The invariant: no connection slips through. -/
structure Inv (c : Client) : Prop where
  nodup : c.roster.members.Nodup
  /-- There is one ~WebSocketClient. -/
  single : c.roster.closings.length = if c.roster.closed then 1 else 0
  /-- ~WebSocketClient holds the connections that it has yet to close. -/
  held : ∀ i, 0 < c.roster.owing i → c.present i = true
  welcome : c.roster.closed = false → ∀ (i : ℕ) (m : Member), c.members[i]? = some m →
    m.late = false
  sound : ∀ (i : ℕ) (m : Member), c.members[i]? = some m → m.Sound
  reaches : c.roster.Reaches c.Joined c.Gone c.Told

/-! ### Steps -/

variable {c c' : Client} {a : Client.Action} {m m' : Member} {i j : ℕ}

theorem present_eq (c : Client) (i : ℕ) : c.present i = (c.members[i]?).any (·.alive) := by
  rw [present, member]
  cases c.members[i]? with
  | none => rfl
  | some m =>
    rw [Option.any_some]
    cases halive : m.alive with
    | false => rw [Option.filter_some, if_neg (by rw [halive]; exact Bool.false_ne_true)]; rfl
    | true => rw [Option.filter_some, if_pos halive]; rfl

theorem of_member (h : c.member i = some m) : c.members[i]? = some m ∧ m.alive = true := by
  rw [member, Option.filter_eq_some_iff] at h
  exact h

/-- A connection that goes on is there. -/
theorem present_set (roster : Roster ℕ) (hm : c.members[i]? = some m) (m' : Member)
    (halive : m'.alive = m.alive) (j : ℕ) :
    ({ roster, members := c.members.set i m' } : Client).present j = c.present j := by
  rw [present_eq, present_eq]
  by_cases hij : i = j
  · subst hij
    have hi := (List.getElem?_eq_some_iff.1 hm).1
    dsimp only
    rw [List.getElem?_set_self hi, hm]
    exact halive
  · dsimp only
    rw [List.getElem?_set_ne hij]

/-- A connection that was made is there or gone. -/
theorem gone_of_present (i : ℕ) (hjoined : c.Joined i) (hnone : c.present i = false) :
    c.Gone i := by
  obtain ⟨m, hm, -⟩ := hjoined
  rw [present_eq, hm, Option.any_some] at hnone
  exact ⟨m, hm, hnone⟩

theorem Inv.unowed (h : Inv c) (hi : c.members.length ≤ i) : c.roster.owing i = 0 := by
  by_contra hne
  have hsome := h.held i (Nat.pos_of_ne_zero hne)
  rw [present_eq, List.getElem?_eq_none hi] at hsome
  cases hsome

/-- Before ~WebSocketClient nobody is owed a close. -/
theorem Inv.quiet (h : Inv c) (hopen : c.roster.closed = false) (i : ℕ) :
    c.roster.owing i = 0 := by
  refine Roster.owing_of_quiet ?_ i
  rw [h.single, hopen]
  rfl

/-- A connection takes a step. -/
theorem becomes_step (h : m.Sound) (halive : m.alive = true) {act : WebSocketClient.Action}
    {s : Connection} (hstep : WebSocketClient.step m.cfg m.connection act = some s) (handle : Bool)
    (hhandle : handle = false → m.handle = false ∨ s.Ending) :
    m.Becomes { m with connection := s, handle } where
  late := rfl
  gone hdead := absurd (hdead.symm.trans halive) Bool.false_ne_true
  ending hending := hending.step (inv_of_reachable h.reachable) hstep
  sound _ :=
    { reachable := h.reachable.step hstep
      late := fun hlate ↦ (h.late hlate).step (inv_of_reachable h.reachable) hstep
      released := fun hreleased ↦ by
        rcases hhandle hreleased with hbefore | hending
        · exact (h.released hbefore).step (inv_of_reachable h.reachable) hstep
        · exact hending
      gone := fun hdead ↦ absurd (hdead.symm.trans halive) Bool.false_ne_true }

/-- A step of a connection of a client is one of its own. -/
theorem of_move {act : WebSocketClient.Action} (h : c.move i m act = some c') :
    ∃ s, WebSocketClient.step m.cfg m.connection act = some s ∧
      c' = { c with members := c.members.set i { m with connection := s } } := by
  obtain ⟨s, hs, rfl⟩ := Option.map_eq_some_iff.1 h
  exact ⟨s, hs, rfl⟩

/-- Connections that go on do not change whom the destructor reaches. -/
theorem reaches_kept {r roster roster' : Roster ℕ} {members members' : List Member}
    (hkept : Roster.Kept Member.Becomes members members')
    (h : r.Reaches (Joined ⟨roster, members⟩) (Gone ⟨roster, members⟩) (Told ⟨roster, members⟩)) :
    r.Reaches (Joined ⟨roster', members'⟩) (Gone ⟨roster', members'⟩)
      (Told ⟨roster', members'⟩) :=
  Roster.Reaches.kept h hkept (fun _ _ hbecomes hlate ↦ hbecomes.late.symm.trans hlate)
    (fun _ _ hbecomes ↦ hbecomes.gone) fun _ _ hbecomes ↦ hbecomes.ending

/-- Connections go on, and ~WebSocketClient may. -/
theorem Inv.of_kept (h : Inv c) {roster : Roster ℕ} {members : List Member}
    (hkept : Roster.Kept Member.Becomes c.members members)
    (hmembers : roster.members = c.roster.members) (hclosed : roster.closed = c.roster.closed)
    (hlength : roster.closings.length = c.roster.closings.length)
    (hheld : ∀ i, 0 < roster.owing i → ({ roster, members } : Client).present i = true)
    (hreaches : roster.Reaches (Joined ⟨roster, members⟩) (Gone ⟨roster, members⟩)
      (Told ⟨roster, members⟩)) : Inv ⟨roster, members⟩ where
  nodup := by
    rw [hmembers]
    exact h.nodup
  single := by
    rw [hlength, hclosed]
    exact h.single
  held := hheld
  welcome hopen i m' hm' := by
    obtain ⟨m, hm, hbecomes⟩ := hkept.of_get hm'
    exact hbecomes.late.trans (h.welcome (hclosed ▸ hopen) i m hm)
  sound i m' hm' := by
    obtain ⟨m, hm, hbecomes⟩ := hkept.of_get hm'
    exact hbecomes.sound (h.sound i m hm)
  reaches := hreaches

/-- A connection that connect() makes. -/
theorem sound_connect (cfg : Config) (closed : Bool) : Member.Sound {
    cfg
    connection := { callbacks := cfg.callbacks, clientClosed := closed }
    late := closed } where
  reachable := by
    have hinit : (machine cfg).Reachable { callbacks := cfg.callbacks } := .init rfl
    cases closed with
    | false => exact hinit
    | true =>
      have hstep : (machine cfg).step { callbacks := cfg.callbacks } .destroy =
          some { callbacks := cfg.callbacks, clientClosed := true } := rfl
      exact hinit.step hstep
  late hlate := ⟨hlate, Or.inr ⟨rfl, rfl⟩⟩
  released h := absurd h.symm Bool.false_ne_true
  gone h := absurd h.symm Bool.false_ne_true

theorem becomes_destroy (m : Member) :
    m.Becomes { m with connection := { m.connection with clientClosed := true } } where
  late := rfl
  gone := id
  ending := id
  sound h :=
    { reachable := h.reachable.step (a := .destroy) rfl
      late := fun hlate ↦ ⟨rfl, (h.late hlate).2⟩
      released := h.released
      gone := h.gone }

/-- connect() makes a connection, and lists it. -/
theorem Inv.connect (h : Inv c) (cfg : Config) (hstep : c.step (.connect cfg) = some c') :
    Inv c' := by
  rw [← Option.some.inj hstep]
  have howing (i : ℕ) : ((c.roster.prune c.present).join c.members.length).owing i =
      c.roster.owing i := rfl
  refine ⟨Roster.nodup_join (Roster.nodup_prune h.nodup _) _, h.single, fun i hi ↦ ?_,
    fun hopen i m hm ↦ ?_, fun i m hm ↦ ?_, Roster.Reaches.made ?_⟩
  · have hlt : i < c.members.length := by
      by_contra hge
      have hi' : 0 < c.roster.owing i := hi
      rw [h.unowed (Nat.not_lt.1 hge)] at hi'
      exact absurd hi' (Nat.lt_irrefl 0)
    rw [present_eq]
    dsimp only
    rw [List.getElem?_append_left hlt, ← present_eq]
    exact h.held i hi
  · rcases Roster.of_get_append hm with hold | ⟨-, rfl⟩
    · exact h.welcome hopen i m hold
    · exact hopen
  · rcases Roster.of_get_append hm with hold | ⟨-, rfl⟩
    · exact h.sound i m hold
    · exact sound_connect cfg c.roster.closed
  · cases hclosed : c.roster.closed with
    | false =>
      exact ((h.reaches.prune gone_of_present).join hclosed c.members.length).mono
        (fun i hi ↦ hi.imp_left And.left) (fun _ ↦ id) fun _ ↦ id
    | true =>
      refine (h.reaches.relist hclosed _).mono (fun i hi ↦ hi.resolve_left fun hnew ↦ ?_)
        (fun _ ↦ id) fun _ ↦ id
      exact absurd hnew.2.symm Bool.false_ne_true

/-- The destructor takes the list. -/
theorem Inv.destroy (h : Inv c) (hstep : c.step .destroy = some c') : Inv c' := by
  obtain ⟨hopen, hstep⟩ := Option.ite_none_left_eq_some.1 hstep
  rw [← Option.some.inj hstep]
  rw [Bool.not_eq_true] at hopen
  have howing (i : ℕ) := Roster.owing_close h.nodup c.present i
  have hkept : Roster.Kept Member.Becomes c.members (c.members.map fun m ↦
      { m with connection := { m.connection with clientClosed := true } }) :=
    Roster.kept_map becomes_destroy
  refine ⟨List.nodup_nil, ?_, fun i hi ↦ ?_, nofun, fun i m hm ↦ ?_, ?_⟩
  · show (c.roster.closings ++ [_]).length = 1
    rw [List.length_append, h.single, hopen]
    rfl
  · have hi' : 0 < (c.roster.close c.present).owing i := hi
    rw [howing, h.quiet hopen] at hi'
    have hpresent : c.present i = true := by
      by_contra hnot
      rw [if_neg fun hand ↦ hnot hand.2] at hi'
      exact absurd hi' (Nat.lt_irrefl 0)
    rw [present_eq] at hpresent ⊢
    dsimp only
    rw [List.getElem?_map, Option.any_map]
    exact hpresent
  · obtain ⟨m, hold, hbecomes⟩ := hkept.of_get hm
    exact hbecomes.sound (h.sound i m hold)
  · exact reaches_kept hkept
      ((h.reaches.close h.nodup gone_of_present).relist rfl [])

/-- A step of a connection. -/
theorem Inv.moved (h : Inv c) (hm : c.member i = some m) {act : WebSocketClient.Action}
    {s : Connection} (hstep : WebSocketClient.step m.cfg m.connection act = some s) (handle : Bool)
    (hhandle : handle = false → m.handle = false ∨ s.Ending) :
    Inv { c with members := c.members.set i { m with connection := s, handle } } := by
  obtain ⟨hget, halive⟩ := of_member hm
  have hkept := Roster.kept_set Member.becomes_refl hget
    (becomes_step (h.sound i m hget) halive hstep handle hhandle)
  refine h.of_kept hkept rfl rfl rfl (fun j hj ↦ ?_) (reaches_kept hkept h.reaches)
  refine (present_set c.roster hget _ ?_ j).trans (h.held j hj)
  rfl

/-- **The step lemma**: no connection slips through. -/
theorem inv_step (h : Inv c) (hstep : c.step a = some c') : Inv c' := by
  cases a with
  | connect cfg => exact h.connect cfg hstep
  | destroy => exact h.destroy hstep
  | post =>
    obtain ⟨i, hnext, hstep⟩ := Option.bind_eq_some_iff.1 hstep
    obtain ⟨m, hm, hstep⟩ := Option.bind_eq_some_iff.1 hstep
    obtain ⟨s, hs, rfl⟩ := of_move hstep
    obtain ⟨hget, halive⟩ := of_member hm
    have howing := Roster.owing_tell hnext
    have hkept := Roster.kept_set Member.becomes_refl hget
      (becomes_step (h.sound i m hget) halive hs m.handle Or.inl)
    refine h.of_kept hkept rfl rfl (List.length_modify ..) (fun j hj ↦ ?_) ?_
    · have howed := hj.trans_le ((Nat.le_add_right _ _).trans (howing j).le)
      refine (present_set (c.roster.tell 0) hget _ ?_ j).trans (h.held j howed)
      rfl
    · refine ((reaches_kept hkept h.reaches).tell hnext).mono (fun _ ↦ id) (fun _ ↦ id) ?_
      rintro j (rfl | hj)
      · refine ⟨_, List.getElem?_set_self (List.getElem?_eq_some_iff.1 hget).1, ?_⟩
        rw [← Option.some.inj hs]
        exact Or.inl ⟨_, List.mem_append_right _ (List.mem_singleton_self _)⟩
      · exact hj
  | go i act =>
    obtain ⟨-, hstep⟩ := Option.ite_none_left_eq_some.1 hstep
    obtain ⟨m, hm, hstep⟩ := Option.bind_eq_some_iff.1 hstep
    obtain ⟨s, hs, rfl⟩ := of_move hstep
    exact h.moved hm hs m.handle Or.inl
  | release i =>
    obtain ⟨m, hm, hstep⟩ := Option.bind_eq_some_iff.1 hstep
    obtain ⟨-, hstep⟩ := Option.ite_none_right_eq_some.1 hstep
    obtain ⟨s, hs, rfl⟩ := of_move hstep
    refine h.moved hm hs false fun _ ↦ Or.inr ?_
    rw [← Option.some.inj hs]
    exact Or.inl ⟨_, List.mem_append_right _ (List.mem_singleton_self _)⟩
  | expire i =>
    obtain ⟨m, hm, hstep⟩ := Option.bind_eq_some_iff.1 hstep
    obtain ⟨hidle, hstep⟩ := Option.ite_none_right_eq_some.1 hstep
    rw [← Option.some.inj hstep]
    obtain ⟨hget, halive⟩ := of_member hm
    simp only [Bool.and_eq_true, Bool.not_eq_true', beq_iff_eq] at hidle
    obtain ⟨⟨hreleased, hquiet⟩, hunowed⟩ := hidle
    have hstopped := Member.stopped_of_quiet (h.sound i m hget) hreleased hquiet
    have hkept := Roster.kept_set Member.becomes_refl hget (Member.becomes_expire hstopped)
    refine h.of_kept hkept rfl rfl rfl (fun j hj ↦ ?_) (reaches_kept hkept h.reaches)
    by_cases hij : i = j
    · subst hij
      exact absurd (hj.trans_le hunowed.le) (Nat.lt_irrefl 0)
    · rw [present_eq]
      dsimp only
      rw [List.getElem?_set_ne hij, ← present_eq]
      exact h.held j hj

/-- **The run lemma.** -/
theorem inv_of_reachable (h : lifetimeMachine.Reachable c) : Inv c := by
  refine h.invariant (I := Inv) ?_ fun _ _ _ hc hstep ↦ inv_step hc hstep
  rintro _ rfl
  refine ⟨List.nodup_nil, rfl, fun _ hi ↦ absurd hi (Nat.lt_irrefl 0), fun _ i m hm ↦ ?_,
    fun i m hm ↦ ?_, (Roster.reaches_empty _ _).mono ?_ (fun _ ↦ id) fun _ ↦ id⟩
  · cases hm
  · cases hm
  · rintro i ⟨m, hm, -⟩
    cases hm

/-- ~WebSocketClient is not stuck. -/
theorem Inv.post_enabled (h : Inv c) (hnext : c.roster.next 0 = some i) :
    ∃ c', c.step .post = some c' := by
  have howing := Roster.owing_tell hnext i
  rw [if_pos rfl] at howing
  obtain ⟨m, hm⟩ := Option.isSome_iff_exists.1 (h.held i (by omega))
  refine Option.isSome_iff_exists.1 ?_
  rw [step, hnext, Option.bind_some, hm, Option.bind_some]
  rfl

end Client

/-! ### Nobody is left -/

/-- How a connection stands once ~WebSocketClient has come to it. -/
inductive Member.Ends (m : Member) : Prop
  | stopped (hstopped : m.connection.state = .stopped)
  /-- A close was requested, and an operation is outstanding that it waits for. -/
  | closing (hstop : m.connection.stopRequested = true) (hops : m.connection.operations ≠ [])
  /-- A close is posted to its strand. -/
  | posted (code : CloseCode) (hposted : .close code ∈ m.connection.tasks)
  /-- It was made after the client was closed, and start() will find that. -/
  | late (hlate : m.late = true) (hclosed : m.connection.clientClosed = true)
    (hidle : m.connection.state = .idle) (hstarting : m.connection.starting = true)

/-- A connection that the destructor has come to is at its end, or on the way there. -/
theorem Member.Sound.ends {m : Member} (h : m.Sound) (hending : m.connection.Ending) : m.Ends := by
  by_cases hstopped : m.connection.state = .stopped
  · exact .stopped hstopped
  rcases hending with ⟨code, hcode⟩ | hstop | hs
  · exact .posted code hcode
  · have hgood := forGood_of_reachable h.reachable hstop
    exact .closing hstop ((inv_of_reachable h.reachable).waits hgood hstop hstopped).1
  · exact absurd hs hstopped

/-- **~WebSocketClient leaves no connection behind.** A connection that nothing refers to any more
has stopped. Once the client is closed, ~WebSocketClient has a connection to close and can close it,
or every connection that was ever made has stopped, waits for an operation after its close was
requested, has a close posted to its strand, or was made too late and has not begun an attempt. -/
theorem destroyed_ends_all {c : Client} (h : lifetimeMachine.Reachable c) :
    (∀ (i : ℕ) (m : Member), c.members[i]? = some m → m.alive = false →
      m.connection.state = .stopped) ∧
    (c.roster.closed = true → (∃ c', c.step .post = some c') ∨
      ∀ (i : ℕ) (m : Member), c.members[i]? = some m → m.Ends) := by
  have hinv := Client.inv_of_reachable h
  refine ⟨fun i m hm ↦ (hinv.sound i m hm).gone, fun hclosed ↦ ?_⟩
  cases hnext : c.roster.next 0 with
  | some i => exact Or.inl (hinv.post_enabled hnext)
  | none =>
    refine Or.inr fun i m hm ↦ ?_
    have hsettled : ∀ taken ∈ c.roster.closings, taken = [] := by
      refine Roster.settled_of_next ?_ hnext
      rw [hinv.single, hclosed]
      rfl
    have hsound := hinv.sound i m hm
    cases hlate : m.late with
    | true =>
      obtain ⟨hclient, hstopped | ⟨hidle, hstarting⟩⟩ := hsound.late hlate
      · exact .stopped hstopped
      · exact .late hlate hclient hidle hstarting
    | false =>
      rcases hinv.reaches.settled hclosed hsettled ⟨m, hm, hlate⟩ with
        ⟨n, hn, hgone⟩ | ⟨n, hn, hending⟩
      · obtain rfl := Option.some.inj (hm.symm.trans hn)
        exact .stopped (hsound.gone hgone)
      · obtain rfl := Option.some.inj (hm.symm.trans hn)
        exact hsound.ends hending

/-- A connection is resolving when the client is destroyed, another one has lost its last handle and
is gone, and a third one is made by a callback meanwhile. -/
def threeConnections : List Client.Action :=
  [.connect { url := .inr {} }, .go 0 .start, .release 0, .go 0 .task,
    .go 0 (.complete (.resolve 1) {}), .go 0 (.complete (.connect 1) { ec := some (.other 111) }),
    .expire 0, .connect { url := .inr {} }, .go 1 .start, .destroy, .connect { url := .inr {} },
    .post]

theorem destroyed_ends_all_threeConnections : ∃ c,
    lifetimeMachine.run {} threeConnections = some c ∧
      ((∀ (i : ℕ) (m : Member), c.members[i]? = some m → m.alive = false →
        m.connection.state = .stopped) ∧
      (c.roster.closed = true → (∃ c', c.step .post = some c') ∨
        ∀ (i : ℕ) (m : Member), c.members[i]? = some m → m.Ends)) :=
  ⟨_, rfl, destroyed_ends_all (Machine.run_reachable threeConnections rfl rfl)⟩

end CppGate.WebSocketClient
