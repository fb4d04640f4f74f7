import CppGate.HttpSession.GracefulStop

/-!
# What a handler does next

A handler that runs finds nothing else outstanding (`Idle`) and does one of three things: it starts
an operation, it queues a response, whose write it posts, or it does nothing more. Which of them is
decided by the operation, what it completed with and a few flags (`reaction`). What the session's
operations, tasks and response queue are afterwards follows from that alone (`handle_core`).
-/

namespace CppGate.HttpSession

open Http

/-- What a handler does next. -/
inductive Reaction
  | nothing
  | starts (kind : Kind)
  | answers (response : HttpResponse)
  deriving DecidableEq, Repr

/-- The operation it starts. -/
def Reaction.kinds : Reaction → List Kind
  | .starts kind => [kind]
  | _ => []

/-- The response it queues. -/
def Reaction.queued : Reaction → List HttpResponse
  | .answers response => [response]
  | _ => []

/-- Do it, with an empty response queue. -/
def Session.react (s : Session) : Reaction → Session
  | .nothing => s
  | .starts kind => s.start kind
  | .answers response => { s with responseQueue := [response] }.post .write

/-- The part of a session that says what it is doing. -/
structure Core where
  launch : Launch
  tasks : List Task
  operations : List Operation
  responseQueue : List HttpResponse
  stopping : Bool
  deriving DecidableEq, Repr

/-- What the session is doing. -/
def Session.core (s : Session) : Core :=
  ⟨s.launch, s.tasks, s.operations, s.responseQueue, s.stopping⟩

/-! ### Reactions -/

/-- What do_eof() does. -/
def eofReaction (s : Session) : Reaction :=
  if s.linger then .starts .linger
  else
    match s.stream with
    | .tls => .starts .shutdown
    | .plain => .nothing

/-- What on_read() does. -/
def readReaction (beast : Beast) (s : Session) : Completion → Reaction
  | .success found =>
    if found.isUpgrade then .nothing
    else
      match found.routed with
      | (.returned, response) => .answers (answer beast s response)
      | (.threw, _) => .nothing
  | .error .endOfStream _ => eofReaction s
  | .error ec targetEmpty =>
    match errorStatus ec targetEmpty with
    | some status => .answers (errorResponse beast status)
    | none => .nothing
  | .part _ => .nothing

/-- What a successful operation leads to. -/
def successReaction (cfg : Config) (s : Session) (kind : Kind) (found : Found) : Reaction :=
  match kind with
  | .detect =>
    if found.tls then
      if cfg.withSsl then .starts .handshake else .nothing
    else
      if cfg.withPlain then .starts .header else .nothing
  | .handshake => .starts .header
  | .header =>
    if 11 ≤ found.request.version ∧ expectsContinue found.request then .starts .continueWrite
    else .starts .body
  | .continueWrite => .starts .body
  | .body => readReaction cfg.beast s (.success found)
  | .write response =>
    if response.keepAlive cfg.beast && !s.stopping then .starts .header else eofReaction s
  | .linger => .starts .linger
  | .shutdown => .nothing

/-- What the handler of an operation does. -/
def reaction (cfg : Config) (s : Session) (kind : Kind) : Completion → Reaction
  | .part _ => .starts kind
  | .success found => successReaction cfg s kind found
  | .error ec targetEmpty =>
    match kind with
    | .header | .body => readReaction cfg.beast s (.error ec targetEmpty)
    | .write _ => eofReaction s
    | _ => .nothing

/-! ### The handlers -/

variable {s : Session} {beast : Beast} {cfg : Config}

/-- Only what the session is doing matters for what it is doing afterwards. -/
theorem react_core {t : Session} (h : s.core = t.core) (reaction : Reaction) :
    (s.react reaction).core = (t.react reaction).core := by
  cases reaction with
  | nothing => exact h
  | starts kind =>
    exact congrArg (fun core : Core ↦
      { core with operations := { kind := kind } :: core.operations }) h
  | answers response =>
    exact congrArg (fun core : Core ↦
      { core with tasks := core.tasks ++ [Task.write], responseQueue := [response] }) h

/-- do_eof() drains the stream, shuts TLS down, or ends. -/
theorem doEof_core (s : Session) : (doEof s).core = (s.react (eofReaction s)).core := by
  rw [doEof, eofReaction]
  cases s.stream <;> cases s.linger <;> rfl

/-- The first response in the queue has its write posted. -/
theorem queueWrite_core (hqueue : s.responseQueue = []) (response : HttpResponse) :
    (queueWrite s response).core = (s.react (.answers response)).core := by
  rw [queueWrite, hqueue]
  rfl

/-- A read that fails gets an error response, or none. -/
theorem onRead_error {ec : ErrorCode} (hec : ec ≠ .endOfStream) (targetEmpty : Bool) :
    onRead beast s (.error ec targetEmpty) =
      match errorStatus ec targetEmpty with
      | some status => sendError beast { s with waiting := false } status
      | none => { s with waiting := false } := by
  cases ec with
  | endOfStream => exact absurd rfl hec
  | _ => rfl

theorem readReaction_error {ec : ErrorCode} (hec : ec ≠ .endOfStream) (targetEmpty : Bool) :
    readReaction beast s (.error ec targetEmpty) =
      match errorStatus ec targetEmpty with
      | some status => .answers (errorResponse beast status)
      | none => .nothing := by
  cases ec with
  | endOfStream => exact absurd rfl hec
  | _ => rfl

/-- on_read() answers, reads on, or tears down. -/
theorem onRead_core (hqueue : s.responseQueue = []) (c : Completion) :
    (onRead beast s c).core = (s.react (readReaction beast s c)).core := by
  cases c with
  | part => rfl
  | success found =>
    rw [onRead, readReaction]
    cases found.isUpgrade with
    | true => rfl
    | false =>
      rw [if_neg Bool.false_ne_true, if_neg Bool.false_ne_true]
      rcases found.routed with ⟨- | -, response⟩
      · exact queueWrite_core (s := { s with waiting := false, buffered := found.left }) hqueue _
      · rfl
  | error ec targetEmpty =>
    by_cases hec : ec = .endOfStream
    · subst hec
      have hcore : Session.core { s with waiting := false } = s.core := rfl
      exact (doEof_core _).trans (react_core hcore (eofReaction s))
    rw [onRead_error hec, readReaction_error hec]
    cases errorStatus ec targetEmpty with
    | none => rfl
    | some status =>
      have hcore : Session.core { s with waiting := false, linger := true } = s.core := rfl
      have hempty : Session.responseQueue { s with waiting := false, linger := true } = [] := hqueue
      exact (queueWrite_core hempty _).trans (react_core hcore _)

/-- After a response the next header is read, or the stream is torn down. -/
theorem onWrite_core (hqueue : s.responseQueue = []) (response : HttpResponse) (found : Found) :
    (onWrite s (response.keepAlive cfg.beast) (.success found)).core =
      (s.react (successReaction cfg s (.write response) found)).core := by
  rw [onWrite, hqueue, List.isEmpty_nil, if_pos rfl, successReaction]
  split
  · rfl
  · exact doEof_core s

theorem onDetect_core (found : Found) :
    (onDetect cfg s (.success found)).core =
      (s.react (successReaction cfg s .detect found)).core := by
  rw [onDetect, successReaction]
  cases found.tls <;> cases cfg.withSsl <;> cases cfg.withPlain <;> rfl

variable (cfg) in
/-- **What a handler does next** is its reaction. -/
theorem handle_core (hqueue : s.responseQueue = []) (kind : Kind) (c : Completion) :
    (handle cfg s kind c).core = (s.react (reaction cfg s kind c)).core := by
  cases c with
  | part bytes =>
    show (goOn s kind bytes).core = _
    rw [goOn]
    split <;> rfl
  | success found =>
    cases kind with
    | detect => exact onDetect_core found
    | header =>
      show (onReadHeader cfg.beast s (.success found)).core = _
      rw [onReadHeader, reaction, successReaction]
      split <;> rfl
    | body => exact onRead_core hqueue (.success found)
    | write response => exact onWrite_core hqueue response found
    | handshake | continueWrite | linger | shutdown => rfl
  | error ec targetEmpty =>
    cases kind with
    | header | body => exact onRead_core hqueue (.error ec targetEmpty)
    | write response => exact doEof_core s
    | detect | handshake | continueWrite | linger | shutdown => rfl

/-! ### Steps -/

/-- What the operations do whose handlers have not run. -/
def Session.kinds (s : Session) : List Kind :=
  s.operations.map Operation.kind

theorem kinds_start {kind : Kind} (h : s.kinds = []) : (s.start kind).kinds = [kind] :=
  congrArg (kind :: ·) h

/-- on_run() is still to come. -/
def Session.unlaunched (s : Session) : Prop :=
  0 < s.launch.pending ∨ .run ∈ s.tasks

/-- The write of a queued response is posted, and nothing else is. -/
def Matched (s : Session) : Prop :=
  s.responseQueue.length = s.tasks.count .write

/-- While a handler runs no write is posted, so no response is queued. -/
theorem Idle.responseQueue (h : Idle s) (hmatched : Matched s) : s.responseQueue = [] := by
  have hcount : s.tasks.count .write = 0 := by
    refine List.count_eq_zero.2 fun hmem ↦ ?_
    exact absurd (h.tasks hmem) nofun
  exact List.length_eq_zero_iff.1 (hmatched.trans hcount)

/-- There is one operation at most. -/
theorem Inv.operations (h : Inv s) {operation : Operation} (hmem : operation ∈ s.operations) :
    s.operations = [operation] := by
  have hwork := h.single
  rw [Session.work] at hwork
  have hlength : s.operations.length = 1 := by
    have hpos := List.length_pos_of_mem hmem
    omega
  obtain ⟨single, hsingle⟩ := List.length_eq_one_iff.1 hlength
  rw [hsingle, List.mem_singleton] at hmem
  rw [hsingle, hmem]

/-- on_stop() does not change what the session is doing. -/
theorem control_onStop (s : Session) :
    (onStop s).kinds = s.kinds ∧ (onStop s).responseQueue = s.responseQueue ∧
      (onStop s).tasks = s.tasks ∧ (onStop s).launch = s.launch := by
  rw [onStop]
  split
  · refine ⟨?_, rfl, rfl, rfl⟩
    show (s.operations.map Operation.cancelled).map Operation.kind = _
    rw [List.map_map]
    exact List.map_congr_left fun operation _ ↦ cancelled_kind operation
  · exact ⟨rfl, rfl, rfl, rfl⟩

/-- No handler runs. -/
def Action.quiet : Action → Bool
  | .handle _ _ => false
  | _ => true

/-- What a step does to what the session is doing. -/
inductive Control (cfg : Config) (s : Session) : Action → Session → Prop
  /-- Threads act, an operation completes or on_stop() runs: the session is doing what it did. -/
  | other {action t} (hquiet : action.quiet = true) (hkinds : t.kinds = s.kinds)
      (hqueue : t.responseQueue = s.responseQueue)
      (hwrites : t.tasks.count .write = s.tasks.count .write)
      (hlaunch : t.unlaunched → s.unlaunched) : Control cfg s action t
  /-- on_run(). -/
  | begins {t} (hidle : s.kinds = []) (hqueue : s.responseQueue = []) (hlaunch : s.unlaunched)
      (hkinds : t.kinds = [.detect] ∨ t.kinds = [.handshake]) (hqueue' : t.responseQueue = [])
      (htasks : t.tasks.count .write = 0) : Control cfg s .task t
  /-- A posted write begins. -/
  | writes {response t} (hidle : s.kinds = []) (hqueue : s.responseQueue = [response])
      (hlaunch : ¬t.unlaunched) (hkinds : t.kinds = [.write response])
      (hqueue' : t.responseQueue = []) (htasks : t.tasks.count .write = 0) :
      Control cfg s .task t
  /-- A handler runs. -/
  | reacts {kind c t} (hidle : s.kinds = [kind]) (hqueue : s.responseQueue = [])
      (hlaunch : ¬t.unlaunched) (hkinds : t.kinds = (reaction cfg s kind c).kinds)
      (hqueue' : t.responseQueue = (reaction cfg s kind c).queued)
      (htasks : t.tasks.count .write = (reaction cfg s kind c).queued.length) :
      Control cfg s (.handle kind c) t

theorem count_write_post (s : Session) {task : Task} (htask : task ≠ .write) :
    (s.post task).tasks.count .write = s.tasks.count .write := by
  show (s.tasks ++ [task]).count .write = _
  rw [List.count_append, List.count_singleton, if_neg (by simpa using htask), Nat.add_zero]

/-- A posted task runs. -/
theorem control_task {task : Task} {tasks : List Task} (hinv : Inv s) (hmatched : Matched s)
    (ht : s.tasks = task :: tasks) :
    Control cfg s .task (runTask { s with tasks := tasks } task) := by
  rw [Matched, ht] at hmatched
  cases task with
  | run =>
    have hidle : Idle { s with tasks := tasks } := hinv.idle_task ht nofun
    have hcount : tasks.count .write = 0 := List.count_eq_zero.2 fun hmem ↦
      absurd (hidle.tasks hmem) nofun
    have hkinds : s.kinds = [] := congrArg (List.map Operation.kind) hidle.operations
    have hqueue : s.responseQueue = [] := by
      rw [List.count_cons_of_ne (by decide), hcount] at hmatched
      exact List.length_eq_zero_iff.1 hmatched
    have hkinds' : (onRun { s with tasks := tasks }).kinds = [.detect] ∨
        (onRun { s with tasks := tasks }).kinds = [.handshake] := by
      rw [onRun]
      dsimp only
      split
      · exact Or.inl (kinds_start hkinds)
      · exact Or.inr (kinds_start hkinds)
    have hafter : (onRun { s with tasks := tasks }).responseQueue = [] ∧
        (onRun { s with tasks := tasks }).tasks.count .write = 0 := by
      rw [onRun]
      dsimp only
      split <;> exact ⟨hqueue, hcount⟩
    exact .begins hkinds hqueue (Or.inr (ht ▸ List.mem_cons_self)) hkinds' hafter.1 hafter.2
  | stop =>
    obtain ⟨hkinds, hqueue, htasks, hlaunch⟩ := control_onStop { s with tasks := tasks }
    refine .other rfl hkinds hqueue ?_ fun hpending ↦ ?_
    · show (onStop { s with tasks := tasks }).tasks.count .write = _
      rw [htasks, ht, List.count_cons_of_ne (by decide)]
    · rcases hpending with hpending | hmem
      · exact Or.inl (hlaunch ▸ hpending)
      · change .run ∈ (onStop { s with tasks := tasks }).tasks at hmem
        rw [htasks] at hmem
        exact Or.inr (ht ▸ List.mem_cons_of_mem _ hmem)
  | write =>
    have hidle : Idle { s with tasks := tasks } := hinv.idle_task ht nofun
    have hcount : tasks.count .write = 0 := List.count_eq_zero.2 fun hmem ↦
      absurd (hidle.tasks hmem) nofun
    have hkinds : s.kinds = [] := congrArg (List.map Operation.kind) hidle.operations
    rw [List.count_cons_self, hcount] at hmatched
    obtain ⟨response, hqueue⟩ := List.length_eq_one_iff.1 hmatched
    have hrun : runTask { s with tasks := tasks } .write =
        Session.start { s with tasks := tasks, responseQueue := [] } (.write response) := by
      rw [runTask, runWrite, hqueue]
    rw [hrun]
    exact .writes hkinds hqueue (fun hpending ↦ hidle.fresh hpending) (kinds_start hkinds) rfl
      hcount

/-- A handler leaves what its reaction says, and nothing else. -/
theorem control_react (hidle : Idle s) (hqueue : s.responseQueue = []) {reaction : Reaction}
    {t : Session} (hcore : t.core = (s.react reaction).core) :
    ¬t.unlaunched ∧ t.kinds = reaction.kinds ∧ t.responseQueue = reaction.queued ∧
      t.tasks.count .write = reaction.queued.length := by
  have hkinds : s.kinds = [] := congrArg (List.map Operation.kind) hidle.operations
  have hcount : s.tasks.count .write = 0 := List.count_eq_zero.2 fun hmem ↦
    absurd (hidle.tasks hmem) nofun
  have hlaunch : t.launch = (s.react reaction).launch := congrArg Core.launch hcore
  have htasks : t.tasks = (s.react reaction).tasks := congrArg Core.tasks hcore
  have hoperations : t.kinds = (s.react reaction).kinds :=
    congrArg (fun core : Core ↦ core.operations.map Operation.kind) hcore
  have hresponses : t.responseQueue = (s.react reaction).responseQueue :=
    congrArg Core.responseQueue hcore
  rw [Session.unlaunched, hlaunch, htasks, hoperations, hresponses]
  cases reaction with
  | nothing => exact ⟨fun hpending ↦ hidle.fresh hpending, hkinds, hqueue, hcount⟩
  | starts kind => exact ⟨fun hpending ↦ hidle.fresh hpending, kinds_start hkinds, hqueue, hcount⟩
  | answers response =>
    refine ⟨?_, hkinds, rfl, ?_⟩
    · rintro (hpending | hmem)
      · exact absurd hpending hidle.launch
      · rcases mem_post hmem with hmem | hmem
        · exact absurd (hidle.tasks hmem) nofun
        · exact absurd hmem nofun
    · show (s.tasks ++ [Task.write]).count .write = 1
      rw [List.count_append, hcount]
      rfl

/-- **What a step does** to what the session is doing. -/
theorem control_step {action : Action} {t : Session} (hinv : Inv s) (hmatched : Matched s)
    (hstep : step cfg s action = some t) : Control cfg s action t := by
  cases stepped_of_step hstep with
  | run hlaunch =>
    have hpending : s.unlaunched := Or.inl (by rw [hlaunch]; exact Nat.one_pos)
    rw [add]
    split <;> exact .other rfl rfl rfl rfl fun _ ↦ hpending
  | dispatch hlaunch =>
    have hpending : s.unlaunched := Or.inl (by rw [hlaunch]; exact Nat.one_pos)
    exact .other rfl rfl rfl (count_write_post _ (by decide)) fun _ ↦ hpending
  | stopAll => exact .other rfl rfl rfl rfl id
  | stop hstoppers =>
    have hwrites : (s.post .stop).tasks.count .write = s.tasks.count .write :=
      count_write_post s (by decide)
    refine .other rfl rfl rfl hwrites fun hlaunch ↦ ?_
    rcases hlaunch with hpending | hmem
    · exact Or.inl hpending
    · exact Or.inr ((mem_post hmem).resolve_right (by decide))
  | task task tasks ht => exact control_task hinv hmatched ht
  | complete kind c hmem =>
    refine .other rfl ?_ rfl rfl id
    rw [Session.kinds, Session.kinds, Session.finish, hinv.operations hmem, List.erase_cons_head]
    rfl
  | handle kind c hmem =>
    have hidle := hinv.idle_without hmem
    have hqueue : (s.without { kind := kind, done := some c }).responseQueue = [] :=
      hidle.responseQueue hmatched
    have hkinds : s.kinds = [kind] := by
      rw [Session.kinds, hinv.operations hmem]
      rfl
    obtain ⟨hlaunch, hkinds', hqueue', htasks⟩ :=
      control_react hidle hqueue (handle_core cfg hqueue kind c)
    exact .reacts hkinds hqueue hlaunch hkinds' hqueue' htasks

theorem stopping_runTask (s : Session) (task : Task) : (runTask s task).stopping = s.stopping := by
  cases task with
  | run =>
    rw [runTask, onRun]
    dsimp only
    split <;> rfl
  | stop =>
    rw [runTask, onStop]
    split <;> rfl
  | write =>
    rw [runTask, runWrite]
    split <;> rfl

/-- A session that is stopping stays so. -/
theorem stopping_step {action : Action} {t : Session} (hinv : Inv s) (hmatched : Matched s)
    (hstep : step cfg s action = some t) (hstopping : s.stopping = true) : t.stopping = true := by
  cases stepped_of_step hstep with
  | run =>
    rw [add]
    split <;> exact hstopping
  | stopAll => rfl
  | dispatch | stop | complete => exact hstopping
  | task task tasks => exact (stopping_runTask _ task).trans hstopping
  | handle kind c hmem =>
    have hqueue : (s.without { kind := kind, done := some c }).responseQueue = [] :=
      (hinv.idle_without hmem).responseQueue hmatched
    have hcore := congrArg Core.stopping (handle_core cfg hqueue kind c)
    have hreact : ∀ reaction,
        ((s.without { kind := kind, done := some c }).react reaction).stopping = s.stopping := by
      rintro (- | - | -) <;> rfl
    exact (hcore.trans (hreact _)).trans hstopping

/-- **The step lemma**: a queued response has its write posted. -/
theorem matched_step {action : Action} {t : Session} (h : Control cfg s action t)
    (hmatched : Matched s) : Matched t := by
  cases h with
  | other _ _ hqueue hwrites _ => rwa [Matched, hqueue, hwrites]
  | begins _ _ _ _ hqueue htasks => rw [Matched, hqueue, htasks, List.length_nil]
  | writes _ _ _ _ hqueue htasks => rw [Matched, hqueue, htasks, List.length_nil]
  | reacts _ _ _ _ hqueue htasks => rw [Matched, hqueue, htasks]

/-- **In every run** a response is queued exactly where its write is posted. -/
theorem matched_of_reachable (h : (machine cfg).Reachable s) : Inv s ∧ Matched s := by
  refine h.invariant (I := fun s ↦ Inv s ∧ Matched s) (fun s hs ↦ ⟨(good_init s hs).1, ?_⟩)
    fun s action t hs hstep ↦ ?_
  · change s = _ at hs
    rw [hs]
    rfl
  · exact ⟨(settles_step hs.1 hstep).1, matched_step (control_step hs.1 hs.2 hstep) hs.2⟩

end CppGate.HttpSession
