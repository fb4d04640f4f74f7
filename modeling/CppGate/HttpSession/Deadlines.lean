import CppGate.HttpSession.Admission

/-!
# The deadlines of a session

What a session does to `expires_after` of its stream, and what that is worth against a client that
sends slowly or not at all. A deadline belongs to a phase and not to an operation: the reads of one
request, the 100 Continue and the write of the response share the one that do_read() set, and the
reads of a drain share the one of do_linger(). When a phase began is noted apart from the deadline
(`begins`), and the deadline is that moment and the time of the phase. So a phase is over when its
time is over, whatever arrives meanwhile (`deadline_of_phase`), and since a session that is stopping
goes through its phases once, it is gone after the sum of their times (`gone_after_stop`).

Time passes only while the strand has nothing to run, and an operation that is outstanding at its
deadline completes before more time passes. That is what `tcp_stream` does if the threads that run
the handlers keep up.
-/

namespace CppGate.HttpSession

open Http

/-! ### Phases -/

/-- What a session's deadlines belong to. -/
inductive Phase
  /-- on_run() has not run. -/
  | waiting
  | detecting
  | handshaking
  /-- From do_read() to the end of the response. -/
  | requesting
  | lingering
  | closing
  /-- Nothing more happens. -/
  | ended
  deriving DecidableEq, Repr

/-- The phase that an operation is part of. -/
def Kind.phase : Kind → Phase
  | .detect => .detecting
  | .handshake => .handshaking
  | .header | .continueWrite | .body | .write _ => .requesting
  | .linger => .lingering
  | .shutdown => .closing

instance (s : Session) : Decidable s.unlaunched :=
  inferInstanceAs (Decidable (_ ∨ _))

/-- The phase of a session. -/
def Session.phase (s : Session) : Phase :=
  match s.kinds with
  | kind :: _ => kind.phase
  | [] =>
    if s.unlaunched then .waiting
    else if s.responseQueue.isEmpty then .ended
    else .requesting

/-- The phases that may follow. After a response a session that is stopping reads no more. -/
inductive Leads (stopping : Bool) : Phase → Phase → Prop
  | detects : Leads stopping .waiting .detecting
  | greets : Leads stopping .waiting .handshaking
  | tls : Leads stopping .detecting .handshaking
  | plain : Leads stopping .detecting .requesting
  | greeted : Leads stopping .handshaking .requesting
  | again (h : stopping = false) : Leads stopping .requesting .requesting
  | lingers : Leads stopping .requesting .lingering
  | closes : Leads stopping .requesting .closing
  | ends (phase : Phase) : Leads stopping phase .ended

/-- After the write of a response the next request begins. -/
def Kind.renews : Kind → Kind → Bool
  | .write _, .header => true
  | _, _ => false

/-- A phase begins: it is another one than before, or that of the next request. -/
def begins (s t : Session) : Bool :=
  t.phase != s.phase ||
    match s.kinds, t.kinds with
    | [kind], [kind'] => kind.renews kind'
    | _, _ => false

/-! ### expires_after -/

/-- The timeouts of `ServerOptions` that an HTTP session uses: seconds, and milliseconds. -/
structure Timeouts where
  http_timeout : ℕ := 30
  http_linger_timeout : ℕ := 2000
  deriving DecidableEq, Repr

/-- `tls_teardown_grace`, in milliseconds. -/
def tlsTeardownGrace : ℕ := 500

/-- How long a phase may take, in milliseconds. -/
def Phase.limit (timeouts : Timeouts) : Phase → ℕ
  | .detecting | .handshaking | .requesting => 1000 * timeouts.http_timeout
  | .lingering => timeouts.http_linger_timeout
  | .closing => tlsTeardownGrace
  | .waiting | .ended => 0

/-- What a handler does to the deadline of the stream. -/
inductive Expiry
  | keeps
  /-- `expires_never`. -/
  | never
  /-- `expires_after`, in milliseconds. -/
  | after (time : ℕ)
  deriving DecidableEq, Repr

/-- What comes before the start of an operation: on_run(), on_ssl_session(), do_read(), do_linger()
and do_eof() set a deadline, and read_body() and do_write() go on with the one there is. -/
def armed (timeouts : Timeouts) : Kind → Expiry
  | .detect | .handshake | .header => .after (1000 * timeouts.http_timeout)
  | .linger => .after timeouts.http_linger_timeout
  | .shutdown => .after tlsTeardownGrace
  | .continueWrite | .body | .write _ => .keeps

/-- The handler of a read that found an upgrade. -/
def upgrades : Kind → Completion → Bool
  | .body, .success found => found.isUpgrade
  | _, _ => false

/-- What the handler of an operation does to the deadline. -/
def handlerExpires (timeouts : Timeouts) (cfg : Config) (s : Session) (kind : Kind) :
    Completion → Expiry
  -- the operation goes on, with its deadline
  | .part _ => .keeps
  | c =>
    -- on_linger() calls read_linger() and not do_linger()
    if kind = .linger then .keeps
    else if upgrades kind c then .never
    else
      match reaction cfg s kind c with
      | .starts kind' => armed timeouts kind'
      | _ => .keeps

/-- What a step does to the deadline. -/
def expires (timeouts : Timeouts) (cfg : Config) (s : Session) : Action → Expiry
  | .task =>
    if s.tasks.head? = some .run then .after (1000 * timeouts.http_timeout) else .keeps
  | .handle kind c => handlerExpires timeouts cfg s kind c
  | _ => .keeps

/-! ### The machine -/

/-- A session and its clock. -/
structure Clocked where
  session : Session
  now : ℕ := 0
  /-- When expires_after() was called last. -/
  since : ℕ := 0
  /-- When the phase began. -/
  began : ℕ := 0
  /-- The deadline of the stream. -/
  expiry : Option ℕ := none
  deriving DecidableEq, Repr

/-- The deadline is set, or not. -/
def Clocked.arm (x : Clocked) : Expiry → Clocked
  | .keeps => x
  | .never => { x with expiry := none }
  | .after time => { x with since := x.now, expiry := some (x.now + time) }

/-- The strand has nothing to run. -/
def Session.quiet (s : Session) : Bool :=
  s.tasks.isEmpty && s.operations.all (·.done.isNone)

/-- What happens next: a step, or time passes. -/
inductive ClockedAction
  | act (a : Action)
  | tick (time : ℕ)
  deriving DecidableEq, Repr

/-- One step of a session with its clock. Time does not pass the deadline of what is outstanding. -/
def clockedStep (timeouts : Timeouts) (cfg : Config) (x : Clocked) :
    ClockedAction → Option Clocked
  | .act a => (step cfg x.session a).map fun session ↦
      { x.arm (expires timeouts cfg x.session a) with
        session
        began := if begins x.session session then x.now else x.began }
  | .tick time =>
    if x.session.quiet = true ∧
        (x.session.operations ≠ [] → ∀ deadline ∈ x.expiry, x.now + time ≤ deadline) then
      some { x with now := x.now + time }
    else
      none

/-- The runs of a session with its clock. -/
def clockedMachine (timeouts : Timeouts) (cfg : Config) : Machine Clocked ClockedAction where
  Init x := (machine cfg).Init x.session ∧ x = { session := x.session }
  step := clockedStep timeouts cfg

/-! ### What a step does to the phase -/

variable {timeouts : Timeouts} {cfg : Config} {s t : Session} {x y : Clocked}

/-- While an operation is outstanding the phase is its own. -/
theorem phase_of_kinds {kind : Kind} (h : s.kinds = [kind]) : s.phase = kind.phase := by
  rw [Session.phase, h]

theorem phase_of_unlaunched (hkinds : s.kinds = []) (h : s.unlaunched) : s.phase = .waiting := by
  rw [Session.phase, hkinds]
  exact if_pos h

/-- While the write of a response is posted its request goes on. -/
theorem phase_of_queued (hkinds : s.kinds = []) (h : ¬s.unlaunched) {response : HttpResponse}
    (hqueue : s.responseQueue = [response]) : s.phase = .requesting := by
  rw [Session.phase, hkinds]
  dsimp only
  rw [if_neg h, hqueue]
  rfl

theorem phase_of_nothing (hkinds : s.kinds = []) (h : ¬s.unlaunched)
    (hqueue : s.responseQueue = []) : s.phase = .ended := by
  rw [Session.phase, hkinds]
  dsimp only
  rw [if_neg h, hqueue]
  rfl

/-- The same operations, responses and tasks are the same phase. -/
theorem phase_congr (hkinds : t.kinds = s.kinds) (hqueue : t.responseQueue = s.responseQueue)
    (hlaunch : t.unlaunched ↔ s.unlaunched) : t.phase = s.phase := by
  rw [Session.phase, Session.phase, hkinds, hqueue]
  simp only [hlaunch]

/-- Where nothing is outstanding before or after, only the phase tells. -/
theorem begins_of_nil (hkinds : s.kinds = [] ∨ t.kinds = []) (hphase : t.phase = s.phase) :
    begins s t = false := by
  rw [begins, hphase, bne_self_eq_false, Bool.false_or]
  rcases hkinds with hkinds | hkinds
  · rw [hkinds]
  · rw [hkinds]
    cases s.kinds with
    | nil => rfl
    | cons kind rest => cases rest <;> rfl

/-- One operation follows another. -/
theorem begins_of_kinds {kind kind' : Kind} (hkinds : s.kinds = [kind])
    (hkinds' : t.kinds = [kind']) :
    begins s t = (kind'.phase != kind.phase || kind.renews kind') := by
  rw [begins, phase_of_kinds hkinds, phase_of_kinds hkinds', hkinds, hkinds']

/-- Another phase has begun. -/
theorem begins_of_ne (h : t.phase ≠ s.phase) : begins s t = true := by
  rw [begins, bne_iff_ne.2 h, Bool.true_or]

theorem renews_self (kind : Kind) : kind.renews kind = false := by
  cases kind <;> rfl

/-- There is one operation at most. -/
theorem Inv.kinds (h : Inv s) : s.kinds = [] ∨ ∃ kind, s.kinds = [kind] := by
  cases hoperations : s.operations with
  | nil => exact Or.inl (congrArg (List.map Operation.kind) hoperations)
  | cons operation rest =>
    have hsingle := h.operations (hoperations ▸ List.mem_cons_self)
    exact Or.inr ⟨operation.kind, congrArg (List.map Operation.kind) hsingle⟩

theorem count_add_count_le (tasks : List Task) :
    tasks.count .run + tasks.count .write ≤ tasks.countP (· != .stop) := by
  induction tasks with
  | nil => exact le_rfl
  | cons task tasks ih =>
    rw [List.count_cons, List.count_cons, List.countP_cons]
    cases task <;> simp <;> omega

/-- Before on_run() nothing else is there. -/
theorem Inv.waiting (h : Inv s) (hmatched : Matched s) (hlaunch : s.unlaunched) :
    s.kinds = [] ∧ s.responseQueue = [] := by
  have hwork := h.single
  rw [Session.work] at hwork
  have hcount := count_add_count_le s.tasks
  have hnone : s.operations.length = 0 ∧ s.tasks.count .write = 0 := by
    rcases hlaunch with hpending | hrun
    · omega
    · have hpos := List.count_pos_iff.2 hrun
      omega
  exact ⟨congrArg (List.map Operation.kind) (List.length_eq_zero_iff.1 hnone.1),
    List.length_eq_zero_iff.1 (hmatched.trans hnone.2)⟩

/-- What a handler does, in terms of phases: the phase goes on with its deadline, or one that may
follow begins with a deadline of its own. -/
inductive Passes (timeouts : Timeouts) (cfg : Config) (s : Session) (kind : Kind) (c : Completion) :
    Reaction → Prop
  | ends : Passes timeouts cfg s kind c .nothing
  | answers (response : HttpResponse) (hphase : kind.phase = .requesting)
    (hkeeps : handlerExpires timeouts cfg s kind c = .keeps) :
    Passes timeouts cfg s kind c (.answers response)
  | goesOn (kind' : Kind) (hphase : kind'.phase = kind.phase) (hnew : kind.renews kind' = false)
    (hkeeps : handlerExpires timeouts cfg s kind c = .keeps) :
    Passes timeouts cfg s kind c (.starts kind')
  | leads (kind' : Kind) (hleads : Leads s.stopping kind.phase kind'.phase)
    (hnew : kind'.phase ≠ kind.phase ∨ kind.renews kind' = true)
    (hafter : handlerExpires timeouts cfg s kind c = .after (kind'.phase.limit timeouts)) :
    Passes timeouts cfg s kind c (.starts kind')

/-- A handler that starts an operation does what comes before that operation. -/
theorem handlerExpires_of_starts {kind kind' : Kind} {c : Completion}
    (hreaction : reaction cfg s kind c = .starts kind') (hpart : ∀ bytes, c ≠ .part bytes)
    (hlinger : kind ≠ .linger) : handlerExpires timeouts cfg s kind c = armed timeouts kind' := by
  have hupgrade : upgrades kind c = false := by
    cases kind with
    | body =>
      cases c with
      | part | error => rfl
      | success found =>
        show found.isUpgrade = false
        rw [← Bool.not_eq_true]
        intro hup
        rw [reaction, successReaction, readReaction, if_pos hup] at hreaction
        exact Reaction.noConfusion hreaction
    | _ => rfl
  cases c with
  | part bytes => exact absurd rfl (hpart bytes)
  | error | success =>
    rw [handlerExpires, if_neg hlinger, hupgrade, if_neg Bool.false_ne_true, hreaction]
    exact fun _ ↦ Completion.noConfusion

/-- A handler that queues a response leaves the deadline. -/
theorem handlerExpires_of_answers {kind : Kind} {c : Completion} {response : HttpResponse}
    (hreaction : reaction cfg s kind c = .answers response) (hupgrade : upgrades kind c = false) :
    handlerExpires timeouts cfg s kind c = .keeps := by
  cases c with
  | part bytes => rfl
  | error | success =>
    rw [handlerExpires, hupgrade, hreaction]
    · split <;> rfl
    · exact fun _ ↦ Completion.noConfusion

/-- After do_eof(). -/
theorem passes_eof {kind : Kind} {c : Completion} (hphase : kind.phase = .requesting)
    (hpart : ∀ bytes, c ≠ .part bytes) (hreaction : reaction cfg s kind c = eofReaction s) :
    Passes timeouts cfg s kind c (eofReaction s) := by
  have hlinger : kind ≠ .linger := by
    rintro rfl
    exact absurd hphase (by decide)
  rw [eofReaction] at hreaction ⊢
  split
  · next hlingers =>
    rw [if_pos hlingers] at hreaction
    have hnew : Kind.phase .linger ≠ kind.phase := by rw [hphase]; decide
    exact .leads _ (hphase ▸ .lingers) (.inl hnew)
      (handlerExpires_of_starts hreaction hpart hlinger)
  · next hlingers =>
    rw [if_neg hlingers] at hreaction
    split
    · next hstream =>
      rw [hstream] at hreaction
      have hnew : Kind.phase .shutdown ≠ kind.phase := by rw [hphase]; decide
      exact .leads _ (hphase ▸ .closes) (.inl hnew)
        (handlerExpires_of_starts hreaction hpart hlinger)
    · exact .ends

theorem passes_success (s : Session) (kind : Kind) (found : Found) :
    Passes timeouts cfg s kind (.success found) (reaction cfg s kind (.success found)) := by
  have hstarts : ∀ {kind'}, reaction cfg s kind (.success found) = .starts kind' →
      kind ≠ .linger → handlerExpires timeouts cfg s kind (.success found) = armed timeouts kind' :=
    fun hreaction hlinger ↦
      handlerExpires_of_starts hreaction (fun _ ↦ Completion.noConfusion) hlinger
  cases kind with
  | detect =>
    cases hreaction : reaction cfg s .detect (.success found) with
    | nothing => exact .ends
    | answers response =>
      rw [reaction, successReaction] at hreaction
      split at hreaction <;> split at hreaction <;> exact Reaction.noConfusion hreaction
    | starts kind' =>
      have hafter := hstarts hreaction Kind.noConfusion
      rw [reaction, successReaction] at hreaction
      split at hreaction <;> split at hreaction
      · obtain rfl := Reaction.starts.inj hreaction
        exact .leads _ .tls (.inl (by decide)) hafter
      · exact Reaction.noConfusion hreaction
      · obtain rfl := Reaction.starts.inj hreaction
        exact .leads _ .plain (.inl (by decide)) hafter
      · exact Reaction.noConfusion hreaction
  | handshake => exact .leads .header .greeted (.inl (by decide)) (hstarts rfl Kind.noConfusion)
  | header =>
    cases hreaction : reaction cfg s .header (.success found) with
    | nothing => exact .ends
    | answers response =>
      rw [reaction, successReaction] at hreaction
      split at hreaction <;> exact Reaction.noConfusion hreaction
    | starts kind' =>
      have hafter := hstarts hreaction Kind.noConfusion
      rw [reaction, successReaction] at hreaction
      split at hreaction <;> obtain rfl := Reaction.starts.inj hreaction <;>
        exact .goesOn _ rfl rfl hafter
  | continueWrite => exact .goesOn .body rfl rfl (hstarts rfl Kind.noConfusion)
  | body =>
    cases hreaction : reaction cfg s .body (.success found) with
    | nothing => exact .ends
    | answers response =>
      refine .answers response rfl (handlerExpires_of_answers hreaction ?_)
      show found.isUpgrade = false
      rw [← Bool.not_eq_true]
      intro hup
      rw [reaction, successReaction, readReaction, if_pos hup] at hreaction
      exact Reaction.noConfusion hreaction
    | starts kind' =>
      rw [reaction, successReaction, readReaction] at hreaction
      split at hreaction
      · exact Reaction.noConfusion hreaction
      · split at hreaction <;> exact Reaction.noConfusion hreaction
  | write response =>
    by_cases hagain : (response.keepAlive cfg.beast && !s.stopping) = true
    · have hreaction : reaction cfg s (.write response) (.success found) = .starts .header :=
        if_pos hagain
      rw [Bool.and_eq_true, Bool.not_eq_true'] at hagain
      rw [hreaction]
      exact .leads .header (.again hagain.2) (.inr rfl) (hstarts hreaction Kind.noConfusion)
    · have hreaction : reaction cfg s (.write response) (.success found) = eofReaction s :=
        if_neg hagain
      rw [hreaction]
      exact passes_eof rfl (fun _ ↦ Completion.noConfusion) hreaction
  | linger => exact .goesOn .linger rfl rfl rfl
  | shutdown => exact .ends

/-- **What a handler does**, in terms of phases. -/
theorem passes (s : Session) (kind : Kind) (c : Completion) :
    Passes timeouts cfg s kind c (reaction cfg s kind c) := by
  cases c with
  | part bytes => exact .goesOn kind rfl (renews_self kind) rfl
  | success found => exact passes_success s kind found
  | error ec targetEmpty =>
    have hread : ∀ {kind}, kind.phase = .requesting →
        upgrades kind (.error ec targetEmpty) = false →
        reaction cfg s kind (.error ec targetEmpty) =
          readReaction cfg.beast s (.error ec targetEmpty) →
        Passes timeouts cfg s kind (.error ec targetEmpty)
          (reaction cfg s kind (.error ec targetEmpty)) := by
      intro kind hphase hupgrade hreaction
      by_cases hend : ec = .endOfStream
      · subst hend
        rw [hreaction]
        exact passes_eof hphase (fun _ ↦ Completion.noConfusion) hreaction
      · rw [readReaction_error hend] at hreaction
        rw [hreaction]
        split
        · next status hstatus =>
          rw [hstatus] at hreaction
          exact .answers _ hphase (handlerExpires_of_answers hreaction hupgrade)
        · exact .ends
    cases kind with
    | header => exact hread rfl rfl rfl
    | body => exact hread rfl rfl rfl
    | write response => exact passes_eof rfl (fun _ ↦ Completion.noConfusion) rfl
    | detect | handshake | continueWrite | linger | shutdown => exact .ends

/-- What a step does, in terms of phases. -/
inductive Goes (timeouts : Timeouts) (cfg : Config) (s : Session) (a : Action) (t : Session) : Prop
  | stays (hphase : t.phase = s.phase) (hbegins : begins s t = false)
    (hkeeps : expires timeouts cfg s a = .keeps)
  | leads (hleads : Leads s.stopping s.phase t.phase)
    (hbegins : t.phase ≠ .ended → begins s t = true)
    (hafter : t.phase ≠ .ended → expires timeouts cfg s a = .after (t.phase.limit timeouts))

/-- Where the session does what it did. -/
theorem goes_other {a : Action} (hinv : Inv s) (hmatched : Matched s) (hkinds : t.kinds = s.kinds)
    (hqueue : t.responseQueue = s.responseQueue) (hlaunch : t.unlaunched → s.unlaunched)
    (hkeeps : expires timeouts cfg s a = .keeps) : Goes timeouts cfg s a t := by
  have hsame (hphase : t.phase = s.phase) : begins s t = false := by
    rcases hinv.kinds with hnone | ⟨kind, hkind⟩
    · exact begins_of_nil (.inl hnone) hphase
    · rw [begins_of_kinds hkind (hkinds.trans hkind), bne_self_eq_false, renews_self]
      rfl
  by_cases hs : s.unlaunched
  · by_cases ht : t.unlaunched
    · have hphase := phase_congr hkinds hqueue ⟨hlaunch, fun _ ↦ ht⟩
      exact .stays hphase (hsame hphase) hkeeps
    · obtain ⟨hidle, hempty⟩ := hinv.waiting hmatched hs
      have hended := phase_of_nothing (hkinds.trans hidle) ht (hqueue.trans hempty)
      exact .leads (hended ▸ .ends _) (fun hphase ↦ absurd hended hphase)
        fun hphase ↦ absurd hended hphase
  · have hphase := phase_congr hkinds hqueue ⟨hlaunch, fun h ↦ absurd h hs⟩
    exact .stays hphase (hsame hphase) hkeeps

/-- A posted task runs. -/
theorem goes_task {task : Task} {tasks : List Task} (hinv : Inv s) (hmatched : Matched s)
    (ht : s.tasks = task :: tasks) :
    Goes timeouts cfg s .task (runTask { s with tasks := tasks } task) := by
  have hexpires : expires timeouts cfg s .task =
      if some task = some Task.run then .after (1000 * timeouts.http_timeout) else .keeps := by
    rw [expires, ht]
    rfl
  cases task with
  | run =>
    have hlaunch : s.unlaunched := Or.inr (ht ▸ List.mem_cons_self)
    obtain ⟨hidle, -⟩ := hinv.waiting hmatched hlaunch
    have hphase := phase_of_unlaunched hidle hlaunch
    have hstarts : ∃ kind, (onRun { s with tasks := tasks }).kinds = [kind] ∧
        Leads s.stopping .waiting kind.phase ∧ kind.phase ≠ .waiting ∧
          kind.phase.limit timeouts = 1000 * timeouts.http_timeout := by
      rw [onRun]
      dsimp only
      split
      · exact ⟨.detect, kinds_start hidle, .detects, by decide, rfl⟩
      · exact ⟨.handshake, kinds_start hidle, .greets, by decide, rfl⟩
    obtain ⟨kind, hkinds, hleads, hnew, hlimit⟩ := hstarts
    have hafter : (onRun { s with tasks := tasks }).phase = kind.phase := phase_of_kinds hkinds
    refine .leads (hphase ▸ hafter ▸ hleads) (fun _ ↦ begins_of_ne ?_) fun _ ↦ ?_
    · exact fun heq ↦ hnew (hafter.symm.trans (heq.trans hphase))
    · exact hexpires.trans (congrArg Expiry.after (hafter ▸ hlimit.symm))
  | stop =>
    obtain ⟨hkinds, hqueue, htasks, hlaunch⟩ := control_onStop { s with tasks := tasks }
    refine goes_other hinv hmatched hkinds hqueue (fun hpending ↦ ?_) hexpires
    rcases hpending with hpending | hmem
    · exact Or.inl (hlaunch ▸ hpending)
    · change .run ∈ (onStop { s with tasks := tasks }).tasks at hmem
      rw [htasks] at hmem
      exact Or.inr (ht ▸ List.mem_cons_of_mem _ hmem)
  | write =>
    have hidle : Idle { s with tasks := tasks } := hinv.idle_task ht Task.noConfusion
    have hkinds : s.kinds = [] := congrArg (List.map Operation.kind) hidle.operations
    have hlaunch : ¬s.unlaunched := by
      rintro (hpending | hmem)
      · exact absurd hpending hidle.launch
      · rw [ht] at hmem
        exact Task.noConfusion (hidle.tasks ((List.mem_cons.1 hmem).resolve_left Task.noConfusion))
    have hcount : tasks.count .write = 0 := List.count_eq_zero.2 fun hmem ↦
      Task.noConfusion (hidle.tasks hmem)
    rw [Matched, ht, List.count_cons_self, hcount] at hmatched
    obtain ⟨response, hqueue⟩ := List.length_eq_one_iff.1 hmatched
    have hrun : runTask { s with tasks := tasks } .write =
        Session.start { s with tasks := tasks, responseQueue := [] } (.write response) := by
      rw [runTask, runWrite, hqueue]
    have hphase : (Session.start { s with tasks := tasks, responseQueue := [] }
        (.write response)).phase = s.phase := by
      rw [phase_of_queued hkinds hlaunch hqueue]
      exact phase_of_kinds (kinds_start hkinds)
    rw [hrun]
    exact .stays hphase (begins_of_nil (.inl hkinds) hphase) hexpires

/-- **What a step does**, in terms of phases. -/
theorem goes_of_step {a : Action} (hinv : Inv s) (hmatched : Matched s)
    (hstep : step cfg s a = some t) : Goes timeouts cfg s a t := by
  have hcontrol := control_step hinv hmatched hstep
  cases a with
  | run | dispatch | stopAll | stop | complete =>
    cases hcontrol with
    | other _ hkinds hqueue _ hlaunch => exact goes_other hinv hmatched hkinds hqueue hlaunch rfl
  | task =>
    cases stepped_of_step hstep with
    | task task tasks ht => exact goes_task hinv hmatched ht
  | handle kind c =>
    cases hcontrol with
    | other hquiet => exact absurd hquiet Bool.false_ne_true
    | reacts hkinds hqueue hlaunch hkinds' hqueue' _ =>
      have hphase : s.phase = kind.phase := phase_of_kinds hkinds
      have hpasses : Passes timeouts cfg s kind c (reaction cfg s kind c) := passes s kind c
      generalize reaction cfg s kind c = r at hpasses hkinds' hqueue'
      cases hpasses with
      | ends =>
        have hended := phase_of_nothing hkinds' hlaunch hqueue'
        exact .leads (hended ▸ .ends _) (fun hnot ↦ absurd hended hnot)
          fun hnot ↦ absurd hended hnot
      | answers response hrequest hkeeps =>
        have hsame : t.phase = s.phase := by
          rw [phase_of_queued hkinds' hlaunch hqueue', hphase, hrequest]
        exact .stays hsame (begins_of_nil (.inr hkinds') hsame) hkeeps
      | goesOn kind' hsame hnew hkeeps =>
        refine .stays ((phase_of_kinds hkinds').trans (hsame.trans hphase.symm)) ?_ hkeeps
        rw [begins_of_kinds hkinds hkinds', hsame, bne_self_eq_false, hnew]
        rfl
      | leads kind' hleads hnew hafter =>
        have hphase' : t.phase = kind'.phase := phase_of_kinds hkinds'
        refine .leads (hphase ▸ hphase' ▸ hleads) (fun _ ↦ ?_) fun _ ↦ hphase' ▸ hafter
        rw [begins_of_kinds hkinds hkinds', Bool.or_eq_true, bne_iff_ne]
        exact hnew

/-! ### Phases end in time -/

/-- The session of a clocked run is one of an ordinary run. -/
theorem session_reachable (h : (clockedMachine timeouts cfg).Reachable x) :
    (machine cfg).Reachable x.session := by
  refine h.invariant (I := fun x ↦ (machine cfg).Reachable x.session) ?_ fun x a y hx hstep ↦ ?_
  · rintro x ⟨hinit, -⟩
    exact .init hinit
  cases a with
  | act a =>
    obtain ⟨t, ht, rfl⟩ := Option.map_eq_some_iff.1 hstep
    exact hx.step ht
  | tick time =>
    obtain ⟨-, hstep⟩ := Option.ite_none_right_eq_some.1 hstep
    exact Option.some.inj hstep ▸ hx

/-- A phase with a deadline. -/
def Phase.timed : Phase → Bool
  | .waiting | .ended => false
  | _ => true

/-- Where the strand has nothing to run, such a phase has an operation outstanding. -/
theorem operations_of_timed (hmatched : Matched s) (hquiet : s.quiet = true)
    (htimed : s.phase.timed = true) : s.operations ≠ [] := by
  intro hnone
  have hkinds : s.kinds = [] := congrArg (List.map Operation.kind) hnone
  by_cases hlaunch : s.unlaunched
  · rw [phase_of_unlaunched hkinds hlaunch] at htimed
    exact Bool.false_ne_true htimed
  · have htasks : s.tasks = [] := List.isEmpty_iff.1 (Bool.and_eq_true_iff.1 hquiet).1
    have hqueue : s.responseQueue = [] := by
      rw [Matched, htasks] at hmatched
      exact List.length_eq_zero_iff.1 hmatched
    rw [phase_of_nothing hkinds hlaunch hqueue] at htimed
    exact Bool.false_ne_true htimed

/-- When a phase has to be over. -/
def Clocked.due (timeouts : Timeouts) (x : Clocked) : ℕ :=
  x.since + x.session.phase.limit timeouts

/-- The deadline is that of the phase, set when it began, and it has not passed. -/
structure OnTime (timeouts : Timeouts) (x : Clocked) : Prop where
  session : Inv x.session ∧ Matched x.session
  since : x.since ≤ x.now
  began : x.session.phase.timed = true → x.since = x.began
  expiry : x.session.phase.timed = true → x.expiry = some (x.due timeouts)
  now : x.session.phase.timed = true → x.now ≤ x.due timeouts

/-- **The step lemma**: the deadline is that of the phase, from its beginning. -/
theorem onTime_step {a : ClockedAction} (h : OnTime timeouts x)
    (hstep : clockedStep timeouts cfg x a = some y) : OnTime timeouts y := by
  obtain ⟨hinv, hmatched⟩ := h.session
  cases a with
  | act a =>
    obtain ⟨t, ht, rfl⟩ := Option.map_eq_some_iff.1 hstep
    have hsession : Inv t ∧ Matched t :=
      ⟨(settles_step hinv ht).1, matched_step (control_step hinv hmatched ht) hmatched⟩
    have hgoes : Goes timeouts cfg x.session a t := goes_of_step hinv hmatched ht
    cases hgoes with
    | stays hphase hbegins hkeeps =>
      rw [hkeeps, hbegins]
      refine ⟨hsession, h.since, fun htimed ↦ ?_, fun htimed ↦ ?_, fun htimed ↦ ?_⟩
      · dsimp only [Clocked.arm] at htimed ⊢
        rw [hphase] at htimed
        exact h.began htimed
      · rw [Clocked.due]
        dsimp only [Clocked.arm]
        rw [hphase] at htimed ⊢
        exact h.expiry htimed
      · rw [Clocked.due]
        dsimp only [Clocked.arm]
        rw [hphase] at htimed ⊢
        exact h.now htimed
    | leads hleads hbegins hafter =>
      by_cases hended : t.phase = .ended
      · have huntimed : t.phase.timed = false := by rw [hended]; rfl
        refine ⟨hsession, ?_, fun htimed ↦ absurd (huntimed.symm.trans htimed) Bool.false_ne_true,
          fun htimed ↦ absurd (huntimed.symm.trans htimed) Bool.false_ne_true,
          fun htimed ↦ absurd (huntimed.symm.trans htimed) Bool.false_ne_true⟩
        cases expires timeouts cfg x.session a with
        | keeps | never => exact h.since
        | after time => exact le_rfl
      · rw [hafter hended, hbegins hended]
        exact ⟨hsession, le_rfl, fun _ ↦ rfl, fun _ ↦ rfl, fun _ ↦ Nat.le_add_right _ _⟩
  | tick time =>
    obtain ⟨⟨hquiet, htick⟩, hstep⟩ := Option.ite_none_right_eq_some.1 hstep
    rw [← Option.some.inj hstep]
    refine ⟨h.session, h.since.trans (Nat.le_add_right _ _), h.began, h.expiry, fun htimed ↦ ?_⟩
    have hbusy := operations_of_timed hmatched hquiet htimed
    exact htick hbusy _ (h.expiry htimed)

/-- **The run lemma.** -/
theorem onTime_of_reachable (h : (clockedMachine timeouts cfg).Reachable x) :
    OnTime timeouts x := by
  refine h.invariant (I := OnTime timeouts) ?_ fun _ _ _ hx hstep ↦ onTime_step hx hstep
  rintro x ⟨hinit, hx⟩
  have hphase : x.session.phase = .waiting := by
    have hsession : x.session = _ := hinit
    rw [hsession]
    rfl
  rw [hx]
  refine ⟨matched_of_reachable (.init hinit), le_rfl, fun _ ↦ rfl, fun htimed ↦ ?_,
    fun _ ↦ Nat.zero_le _⟩
  exact absurd ((congrArg Phase.timed hphase).symm.trans htimed) Bool.false_ne_true

/-- What is outstanding is part of the phase. -/
theorem phase_of_mem (hinv : Inv s) {operation : Operation} (hmem : operation ∈ s.operations) :
    s.phase = operation.kind.phase := by
  refine phase_of_kinds ?_
  rw [Session.kinds, hinv.operations hmem]
  rfl

theorem timed_of_kind (kind : Kind) : kind.phase.timed = true := by
  cases kind <;> rfl

/-- **No phase outlives its deadline.** Whatever is outstanding is due so long after its phase began
as the phase may take, and that deadline has not passed: a client may keep a session for
`http_timeout` while TLS is detected, for as long in the handshake, and for as long from the start
of a request to the end of its response, however many reads and writes that takes. -/
theorem deadline_of_phase (h : (clockedMachine timeouts cfg).Reachable x) {operation : Operation}
    (hmem : operation ∈ x.session.operations) :
    x.expiry = some (x.began + operation.kind.phase.limit timeouts) ∧ x.began ≤ x.now ∧
      x.now ≤ x.began + operation.kind.phase.limit timeouts := by
  have hon := onTime_of_reachable h
  have hphase := phase_of_mem hon.session.1 hmem
  have htimed : x.session.phase.timed = true := hphase ▸ timed_of_kind operation.kind
  have hdue : x.due timeouts = x.began + operation.kind.phase.limit timeouts := by
    rw [Clocked.due, hphase, hon.began htimed]
  exact ⟨hdue ▸ hon.expiry htimed, hon.began htimed ▸ hon.since, hdue ▸ hon.now htimed⟩

/-- A client that sends its header in two parts, 20 and 9 seconds after do_read(), and the body not
at all. -/
def slowClient : List ClockedAction :=
  [.act .run, .act .dispatch, .act .task,
    .tick 5, .act (.complete .detect (.success {})), .act (.handle .detect (.success {})),
    .tick 20000, .act (.complete .header (.part true)), .act (.handle .header (.part true)),
    .tick 9000, .act (.complete .header (.success {})), .act (.handle .header (.success {})),
    .tick 1000]

theorem deadline_of_phase_slowClient :
    ∃ x, (clockedMachine {} dual).run { session := { stream := .plain } } slowClient = some x ∧
      { kind := .body } ∈ x.session.operations ∧ x.began = 5 ∧ x.now = 30005 ∧
        x.expiry = some 30005 ∧ x.now ≤ x.began + 30000 := by
  have hinit : (clockedMachine {} dual).Init { session := { stream := .plain } } := ⟨rfl, rfl⟩
  have hreachable := Machine.run_reachable slowClient hinit rfl
  have hmem : { kind := .body } ∈ [({ kind := .body } : Operation)] := List.mem_singleton_self _
  exact ⟨_, rfl, hmem, rfl, rfl, (deadline_of_phase hreachable hmem).1,
    (deadline_of_phase hreachable hmem).2.2⟩

/-! ### A session that is stopping -/

theorem Leads.ne_waiting {stopping : Bool} {p q : Phase} (h : Leads stopping p q) :
    q ≠ .waiting := by
  cases h <;> exact nofun

/-- Where a phase begins, another one was timed, or on_run() runs. -/
theorem Leads.waiting {stopping : Bool} {p q : Phase} (h : Leads stopping p q) (hq : q ≠ .ended)
    (htimed : p.timed = false) : p = .waiting := by
  cases h with
  | detects | greets => rfl
  | ends => exact absurd rfl hq
  | _ => exact absurd htimed.symm Bool.false_ne_true

/-- A session that waits for on_run(), once that is dispatched, has it posted. -/
theorem run_mem_of_waiting (hlaunched : s.launch = .launched) (hwaiting : s.phase = .waiting) :
    .run ∈ s.tasks := by
  rw [Session.phase] at hwaiting
  split at hwaiting
  · next kind _ _ => cases kind <;> exact absurd hwaiting nofun
  · split at hwaiting
    · next hlaunch =>
      refine hlaunch.resolve_left fun hpending ↦ ?_
      rw [hlaunched] at hpending
      exact Nat.lt_irrefl 0 hpending
    · split at hwaiting <;> exact absurd hwaiting nofun

/-- How much longer a session that is stopping may go on after a phase. -/
def Phase.later (timeouts : Timeouts) : Phase → ℕ
  | .waiting =>
    3 * (1000 * timeouts.http_timeout) + max timeouts.http_linger_timeout tlsTeardownGrace
  | .detecting =>
    2 * (1000 * timeouts.http_timeout) + max timeouts.http_linger_timeout tlsTeardownGrace
  | .handshaking =>
    1000 * timeouts.http_timeout + max timeouts.http_linger_timeout tlsTeardownGrace
  | .requesting => max timeouts.http_linger_timeout tlsTeardownGrace
  | .lingering | .closing | .ended => 0

/-- A phase that follows leaves less. -/
theorem later_of_leads (timeouts : Timeouts) {p q : Phase} (h : Leads true p q) :
    q.limit timeouts + q.later timeouts ≤ p.later timeouts := by
  cases h with
  | again h => exact absurd h.symm Bool.false_ne_true
  | ends => exact Nat.zero_le _
  | detects | greets | tls | plain | greeted | lingers | closes =>
    simp only [Phase.limit, Phase.later]
    omega

/-- Nothing comes after more time than what comes before on_run() leaves. -/
theorem later_le (timeouts : Timeouts) (phase : Phase) :
    phase.limit timeouts + phase.later timeouts ≤ Phase.waiting.later timeouts := by
  cases phase <;> simp only [Phase.limit, Phase.later] <;> omega

/-- A session that is stopping and has begun ends by some time. -/
structure EndsBy (timeouts : Timeouts) (bound : ℕ) (x : Clocked) : Prop where
  onTime : OnTime timeouts x
  stopping : x.session.stopping = true
  launched : x.session.launch = .launched
  waiting : x.session.phase = .waiting → x.now + Phase.waiting.later timeouts ≤ bound
  timed : x.session.phase.timed = true → x.due timeouts + x.session.phase.later timeouts ≤ bound

theorem launched_step {a : Action} (hlaunched : s.launch = .launched)
    (hstep : step cfg s a = some t) : t.launch = .launched := by
  cases stepped_of_step hstep with
  | run hlaunch => exact absurd (hlaunched.symm.trans hlaunch) nofun
  | dispatch hlaunch => exact absurd (hlaunched.symm.trans hlaunch) nofun
  | stopAll | stop | complete => exact hlaunched
  | task task tasks =>
    have hframe := congrArg Frame.launch (frame_runTask { s with tasks := tasks } task)
    split at hframe <;> exact hframe.trans hlaunched
  | handle kind c =>
    exact (congrArg Frame.launch (frame_handle _ _ kind c)).trans hlaunched

/-- What is left is never more than the sum of the phases. -/
theorem endsBy_of_stopping (h : OnTime timeouts x) (hstopping : x.session.stopping = true)
    (hlaunched : x.session.launch = .launched) :
    EndsBy timeouts (x.now + Phase.waiting.later timeouts) x where
  onTime := h
  stopping := hstopping
  launched := hlaunched
  waiting _ := le_rfl
  timed _ := by
    have hlater := later_le timeouts x.session.phase
    have hsince := h.since
    rw [Clocked.due]
    omega

/-- **The step lemma**: no step puts off the end of a session that is stopping. -/
theorem endsBy_step {bound : ℕ} {a : ClockedAction} (h : EndsBy timeouts bound x)
    (hstep : clockedStep timeouts cfg x a = some y) : EndsBy timeouts bound y := by
  obtain ⟨hinv, hmatched⟩ := h.onTime.session
  have honTime := onTime_step h.onTime hstep
  cases a with
  | act a =>
    obtain ⟨t, ht, rfl⟩ := Option.map_eq_some_iff.1 hstep
    have hstopping : t.stopping = true := stopping_step hinv hmatched ht h.stopping
    have hlaunched : t.launch = .launched := launched_step h.launched ht
    have hgoes : Goes timeouts cfg x.session a t := goes_of_step hinv hmatched ht
    cases hgoes with
    | stays hphase _ hkeeps =>
      rw [hkeeps] at honTime ⊢
      refine ⟨honTime, hstopping, hlaunched, fun hwaiting ↦ h.waiting (hphase ▸ hwaiting),
        fun htimed ↦ ?_⟩
      rw [Clocked.due]
      dsimp only [Clocked.arm] at htimed ⊢
      rw [hphase] at htimed ⊢
      exact h.timed htimed
    | leads hleads _ hafter =>
      by_cases hended : t.phase = .ended
      · exact ⟨honTime, hstopping, hlaunched,
          fun hwaiting ↦ absurd (hended.symm.trans hwaiting) nofun,
          fun htimed ↦ absurd ((congrArg Phase.timed hended).symm.trans htimed) Bool.false_ne_true⟩
      · rw [hafter hended] at honTime ⊢
        rw [h.stopping] at hleads
        have hless := later_of_leads timeouts hleads
        have hleft : x.now + x.session.phase.later timeouts ≤ bound := by
          cases htimed : x.session.phase.timed with
          | true => exact (Nat.add_le_add_right (h.onTime.now htimed) _).trans (h.timed htimed)
          | false =>
            have hwaiting := hleads.waiting hended htimed
            rw [hwaiting]
            exact h.waiting hwaiting
        refine ⟨honTime, hstopping, hlaunched,
          fun hwaiting ↦ absurd hwaiting hleads.ne_waiting, fun _ ↦ ?_⟩
        show x.now + t.phase.limit timeouts + t.phase.later timeouts ≤ bound
        omega
  | tick time =>
    obtain ⟨⟨hquiet, -⟩, hstep⟩ := Option.ite_none_right_eq_some.1 hstep
    rw [← Option.some.inj hstep] at honTime ⊢
    refine ⟨honTime, h.stopping, h.launched, fun hwaiting ↦ ?_, h.timed⟩
    -- on_run() is posted, so time does not pass
    have hrun := run_mem_of_waiting h.launched hwaiting
    rw [List.isEmpty_iff.1 (Bool.and_eq_true_iff.1 hquiet).1] at hrun
    exact absurd hrun List.not_mem_nil

/-- **A stopped session is gone in time.** Once the registry is stopping and on_run() is dispatched,
the session goes through what is left of its phases once, so after three `http_timeout` and the
drain or the shutdown nothing of it is outstanding, whatever the client does. -/
theorem gone_after_stop (h : (clockedMachine timeouts cfg).Reachable x)
    (hstopping : x.session.stopping = true) (hlaunched : x.session.launch = .launched)
    {as : List ClockedAction} (hrun : (clockedMachine timeouts cfg).run x as = some y)
    (hbusy : y.session.operations ≠ []) :
    y.now ≤ x.now + 3 * (1000 * timeouts.http_timeout) +
      max timeouts.http_linger_timeout tlsTeardownGrace := by
  have hends : EndsBy timeouts (x.now + Phase.waiting.later timeouts) y :=
    Machine.run_invariant (I := EndsBy timeouts _) (fun _ _ _ hx hstep ↦ endsBy_step hx hstep) as
      (endsBy_of_stopping (onTime_of_reachable h) hstopping hlaunched) hrun
  obtain ⟨operation, hmem⟩ := List.exists_mem_of_ne_nil _ hbusy
  have htimed : y.session.phase.timed = true :=
    phase_of_mem hends.onTime.session.1 hmem ▸ timed_of_kind operation.kind
  have hnow := hends.onTime.now htimed
  have hbound := hends.timed htimed
  rw [Phase.later] at hbound
  omega

/-- The server stops when on_run() is dispatched, and the client uses up each phase. -/
def staysLong : List ClockedAction :=
  [.act .task, .tick 30000,
    .act (.complete .detect (.success { tls := true })),
    .act (.handle .detect (.success { tls := true })), .tick 30000,
    .act (.complete .handshake (.success {})), .act (.handle .handshake (.success {})), .tick 29000,
    .act (.complete .header (.success {})), .act (.handle .header (.success {})), .tick 1000]

theorem gone_after_stop_staysLong :
    ∃ x y, (clockedMachine {} dual).run { session := { stream := .plain } }
        [.act .run, .act .dispatch, .act .stopAll] = some x ∧
      (clockedMachine {} dual).run x staysLong = some y ∧ y.now = 90000 ∧
        y.now ≤ x.now + 3 * (1000 * 30) + max 2000 500 := by
  have hinit : (clockedMachine {} dual).Init { session := { stream := .plain } } := ⟨rfl, rfl⟩
  have hreachable := Machine.run_reachable [.act .run, .act .dispatch, .act .stopAll] hinit rfl
  refine ⟨_, _, rfl, rfl, rfl, ?_⟩
  exact @gone_after_stop {} dual _ _ hreachable rfl rfl staysLong rfl (List.cons_ne_nil _ _)

end CppGate.HttpSession
