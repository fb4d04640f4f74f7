import CppGate.Foundations.Machine
import CppGate.HttpSession.Session

/-!
# The accept loop of the listener

`Listener.h`, apart from the sessions it launches: run(), the loop of on_accept(), and the part of
stop() that closes the acceptor. Handlers run on the acceptor's strand. An operation completes in
two steps, as in `HttpSession`: closing the acceptor cancels an accept only while it has no outcome,
and the retry timer likewise. An accept on a closed acceptor fails. run() is meant to be called
once: a second call after one that did not throw is no step.

The loop survives every error: as long as the acceptor is open, exactly one accept or one wait
before the next accept is there, and once it is closed nothing more is started and no session is
launched (`accepts_until_closed`).
-/

namespace CppGate.Server

/-! ### Protocols -/

/-- `Protocol`. -/
abbrev Protocol := BitVec 8

namespace Protocol

/-- `HTTP`. -/
def http : Protocol := 1#8 <<< 0

/-- `HTTPS`. -/
def https : Protocol := 1#8 <<< 1

/-- `WS`. -/
def ws : Protocol := 1#8 <<< 2

/-- `WSS`. -/
def wss : Protocol := 1#8 <<< 3

/-- `ANY_SSL`. -/
def anySsl : Protocol := https ||| wss

/-- `ANY_PLAIN`. -/
def anyPlain : Protocol := http ||| ws

/-- `has_flag`. -/
def hasFlag (flags mask : Protocol) : Bool :=
  flags &&& mask != 0#8

end Protocol

/-- What a listener is set up with: the flags of run() and whether setSSLContext() was called. -/
structure ListenerConfig where
  flags : Protocol
  hasContext : Bool
  /-- What `HttpSession` asserts of its template parameters. -/
  supported : flags.hasFlag .anyPlain = true ∨ flags.hasFlag .anySsl = true

/-- `support_plain`. -/
def ListenerConfig.supportPlain (cfg : ListenerConfig) : Bool :=
  cfg.flags.hasFlag .anyPlain

/-- `support_ssl`. -/
def ListenerConfig.supportSsl (cfg : ListenerConfig) : Bool :=
  cfg.flags.hasFlag .anySsl

/-! ### The listener -/

/-- `boost::beast::error_code`, as far as on_accept() tells them apart. -/
inductive AcceptError
  /-- `operation_aborted`. -/
  | operationAborted
  /-- `connection_aborted`. -/
  | connectionAborted
  /-- `connection_reset`. -/
  | connectionReset
  | other (value : ℕ)
  deriving DecidableEq, Repr

/-- How an operation ends: with an error or without one. -/
abbrev Outcome := Option AcceptError

/-- What the listener waits for. -/
inductive Wait
  /-- async_accept. -/
  | accept
  /-- `accept_retry_timer_`. -/
  | retry
  deriving DecidableEq, Repr

/-- An operation whose handler has not run: outstanding, or completed and its handler queued. -/
structure Operation where
  wait : Wait
  done : Option Outcome := none
  deriving DecidableEq, Repr

/-- An operation after the acceptor was closed and the timer cancelled. -/
def Operation.cancelled (operation : Operation) : Operation :=
  if operation.done = none then
    { operation with done := some (some .operationAborted) }
  else
    operation

/-- `Listener`: the acceptor, the strand and the operations. -/
structure Listener where
  /-- `acceptor_.is_open()`. -/
  isOpen : Bool := true
  /-- run() was called, and did not throw. -/
  running : Bool := false
  operations : List Operation := []
  /-- What stop() posted to the strand and has not run. -/
  closes : ℕ := 0
  /-- How many sessions were launched. -/
  launched : ℕ := 0
  /-- How many operations were started. -/
  started : ℕ := 0
  deriving DecidableEq, Repr

namespace Listener

/-- Start an operation. -/
def start (l : Listener) (wait : Wait) : Listener :=
  { l with operations := { wait := wait } :: l.operations, started := l.started + 1 }

/-- `do_accept`. -/
def doAccept (l : Listener) : Listener :=
  l.start .accept

/-- `run`. It throws where TLS is asked for without a context. -/
def run (cfg : ListenerConfig) (l : Listener) : Listener :=
  if cfg.supportSsl && !cfg.hasContext then l else doAccept { l with running := true }

/-- `on_accept`, with the launch of a session counted. -/
def onAccept (l : Listener) (ec : Outcome) : Listener :=
  -- stop() closed the acceptor
  if ec = some .operationAborted ∨ l.isOpen = false then
    l
  else
    match ec with
    -- the client gave up before we accepted it
    | some .connectionAborted | some .connectionReset => doAccept l
    -- out of file descriptors or memory
    | some _ => l.start .retry
    | none => doAccept { l with launched := l.launched + 1 }

/-- The handler of the retry timer. -/
def onRetry (l : Listener) (ec : Outcome) : Listener :=
  if ec = none ∧ l.isOpen = true then doAccept l else l

/-- What stop() posts to the strand. -/
def close (l : Listener) : Listener :=
  { l with isOpen := false, operations := l.operations.map Operation.cancelled }

/-! ### The machine -/

/-- What happens next. -/
inductive Action
  | run
  /-- A thread calls stop(). -/
  | stop
  /-- The strand runs what stop() posted. -/
  | close
  /-- An outstanding operation completes. -/
  | complete (wait : Wait) (outcome : Outcome)
  /-- The strand runs the handler of a completed operation. -/
  | handle (wait : Wait) (outcome : Outcome)
  deriving DecidableEq, Repr

/-- The handler of an operation. -/
def handle (l : Listener) : Wait → Outcome → Listener
  | .accept, outcome => l.onAccept outcome
  | .retry, outcome => l.onRetry outcome

/-- How an operation may complete by itself: only close() aborts one, an accept on a closed acceptor
fails, and a wait that is not cancelled expires. -/
def mayComplete (l : Listener) : Wait → Outcome → Bool
  | .accept, none => l.isOpen
  | .accept, some ec => ec != .operationAborted
  | .retry, outcome => outcome.isNone

/-- One step of a listener. -/
def step (cfg : ListenerConfig) (l : Listener) : Action → Option Listener
  | .run => if l.running then none else some (l.run cfg)
  | .stop => some { l with closes := l.closes + 1 }
  | .close => if 0 < l.closes then some (close { l with closes := l.closes - 1 }) else none
  | .complete wait outcome =>
    if { wait := wait } ∈ l.operations ∧ l.mayComplete wait outcome = true then
      some { l with
        operations := { wait := wait, done := some outcome } ::
          l.operations.erase { wait := wait } }
    else
      none
  | .handle wait outcome =>
    if { wait := wait, done := some outcome } ∈ l.operations then
      some (handle
        { l with operations := l.operations.erase { wait := wait, done := some outcome } }
        wait outcome)
    else
      none

/-- A listener, from its construction on. -/
def machine (cfg : ListenerConfig) : Machine Listener Action where
  Init l := l = {}
  step := step cfg

/-! ### The loop -/

variable {cfg : ListenerConfig} {l l' : Listener}

/-- The outcome of an operation fits: only a closed acceptor aborts, and a wait has no other
error. -/
def Fits (isOpen : Bool) (wait : Wait) (outcome : Outcome) : Prop :=
  (outcome = some .operationAborted → isOpen = false) ∧
    (wait = .retry → outcome = none ∨ isOpen = false)

/-- The invariant of the loop. -/
structure Inv (l : Listener) : Prop where
  single : l.operations.length ≤ 1
  accepts : l.running = true → l.isOpen = true → l.operations.length = 1
  idle : l.running = false → l.operations = []
  fits : ∀ wait outcome, { wait := wait, done := some outcome } ∈ l.operations →
    Fits l.isOpen wait outcome

/-- There is one operation at most. -/
theorem Inv.operations (h : Inv l) {operation : Operation} (hmem : operation ∈ l.operations) :
    l.operations = [operation] := by
  obtain ⟨operation', hsingle⟩ : ∃ operation', l.operations = [operation'] := by
    refine List.length_eq_one_iff.1 (le_antisymm h.single ?_)
    exact List.length_pos_of_mem hmem
  rw [hsingle, List.mem_singleton] at hmem
  rw [hsingle, hmem]

theorem Inv.running (h : Inv l) {operation : Operation} (hmem : operation ∈ l.operations) :
    l.running = true := by
  rw [← Bool.not_eq_false]
  intro hidle
  rw [h.idle hidle] at hmem
  exact absurd hmem List.not_mem_nil

/-- A handler goes on with one operation. -/
theorem inv_start (hoperations : l.operations = []) (hrunning : l.running = true) (wait : Wait) :
    Inv (l.start wait) where
  single := by
    show l.operations.length + 1 ≤ 1
    rw [hoperations, List.length_nil]
  accepts _ _ := by
    show l.operations.length + 1 = 1
    rw [hoperations, List.length_nil]
  idle hidle := absurd (hrunning.symm.trans hidle) (by decide)
  fits wait' outcome hmem := by
    rw [Listener.start, hoperations, List.mem_singleton] at hmem
    exact absurd (congrArg Operation.done hmem) nofun

/-- The loop ends where the acceptor is closed. -/
theorem inv_end (hoperations : l.operations = []) (hclosed : l.isOpen = false) : Inv l where
  single := by
    rw [hoperations]
    exact Nat.zero_le 1
  accepts _ hopen := absurd (hclosed.symm.trans hopen) Bool.false_ne_true
  idle _ := hoperations
  fits _ _ hmem := by
    rw [hoperations] at hmem
    exact absurd hmem List.not_mem_nil

/-- **The loop goes on.** A handler starts the next operation while the acceptor is open, and does
nothing once it is closed. -/
theorem inv_handle (hoperations : l.operations = []) (hrunning : l.running = true) {wait : Wait}
    {outcome : Outcome} (hfits : Fits l.isOpen wait outcome) :
    Inv (l.handle wait outcome) ∧ (l.isOpen = false → l.handle wait outcome = l) := by
  cases hopen : l.isOpen with
  | false =>
    have hend : l.handle wait outcome = l := by
      cases wait with
      | accept => exact if_pos (Or.inr hopen)
      | retry =>
        refine if_neg ?_
        rw [hopen]
        exact fun h ↦ Bool.false_ne_true h.2
    rw [hend]
    exact ⟨inv_end hoperations hopen, fun _ ↦ rfl⟩
  | true =>
    refine ⟨?_, fun h ↦ absurd h.symm Bool.false_ne_true⟩
    cases wait with
    | retry =>
      have hexpired : outcome = none := (hfits.2 rfl).resolve_right (by rw [hopen]; decide)
      have hgo : l.handle .retry outcome = l.doAccept := if_pos ⟨hexpired, hopen⟩
      rw [hgo]
      exact inv_start hoperations hrunning .accept
    | accept =>
      have hnot : ¬(outcome = some .operationAborted ∨ l.isOpen = false) := by
        rintro (haborted | hclosed)
        · exact absurd ((hfits.1 haborted).symm.trans hopen) Bool.false_ne_true
        · exact absurd (hclosed.symm.trans hopen) Bool.false_ne_true
      show Inv (l.onAccept outcome)
      rw [onAccept.eq_def, if_neg hnot]
      split
      · exact inv_start hoperations hrunning .accept
      · exact inv_start hoperations hrunning .accept
      · exact inv_start hoperations hrunning .retry
      · exact inv_start (l := { l with launched := l.launched + 1 }) hoperations hrunning .accept

theorem fits_closed (wait : Wait) (outcome : Outcome) : Fits false wait outcome :=
  ⟨fun _ ↦ rfl, fun _ ↦ Or.inr rfl⟩

/-- What completes by itself was not aborted. -/
theorem fits_of_mayComplete {wait : Wait} {outcome : Outcome}
    (h : l.mayComplete wait outcome = true) : Fits l.isOpen wait outcome := by
  cases wait with
  | accept =>
    refine ⟨fun haborted ↦ ?_, nofun⟩
    rw [haborted] at h
    exact absurd h (show ¬(AcceptError.operationAborted != .operationAborted) = true by decide)
  | retry =>
    have hexpired : outcome = none := Option.isNone_iff_eq_none.1 h
    exact ⟨fun haborted ↦ absurd (hexpired.symm.trans haborted) nofun, fun _ ↦ Or.inl hexpired⟩

/-- **The step lemma** of the loop. -/
theorem inv_step {a : Action} (h : Inv l) (hstep : step cfg l a = some l') : Inv l' := by
  cases a with
  | run =>
    obtain ⟨hidle, hstep⟩ := Option.ite_none_left_eq_some.1 hstep
    rw [← Option.some.inj hstep, run]
    split
    · exact h
    · exact inv_start (l := { l with running := true }) (h.idle (Bool.not_eq_true _ ▸ hidle)) rfl
        .accept
  | stop => exact Option.some.inj hstep ▸ ⟨h.single, h.accepts, h.idle, h.fits⟩
  | close =>
    obtain ⟨-, hstep⟩ := Option.ite_none_right_eq_some.1 hstep
    rw [← Option.some.inj hstep]
    refine ⟨?_, fun _ hopen ↦ absurd hopen Bool.false_ne_true, fun hidle ↦ ?_,
      fun wait outcome _ ↦ fits_closed wait outcome⟩
    · show (l.operations.map Operation.cancelled).length ≤ 1
      rw [List.length_map]
      exact h.single
    · show l.operations.map Operation.cancelled = []
      rw [h.idle hidle, List.map_nil]
  | complete wait outcome =>
    obtain ⟨⟨hmem, hmay⟩, hstep⟩ := Option.ite_none_right_eq_some.1 hstep
    rw [← Option.some.inj hstep, h.operations hmem, List.erase_cons_head]
    refine ⟨le_rfl, fun _ _ ↦ rfl, fun hidle ↦ ?_, fun wait' outcome' hdone ↦ ?_⟩
    · exact absurd ((h.running hmem).symm.trans hidle) (by decide)
    · obtain ⟨rfl, hsome⟩ := Operation.mk.inj (List.mem_singleton.1 hdone)
      obtain rfl := Option.some.inj hsome
      exact fits_of_mayComplete hmay
  | handle wait outcome =>
    obtain ⟨hmem, hstep⟩ := Option.ite_none_right_eq_some.1 hstep
    rw [← Option.some.inj hstep, h.operations hmem, List.erase_cons_head]
    exact (inv_handle (l := { l with operations := [] }) rfl (h.running hmem)
      (h.fits wait outcome hmem)).1

/-- **The run lemma.** -/
theorem inv_of_reachable (h : (machine cfg).Reachable l) : Inv l := by
  refine h.invariant (I := Inv) ?_ fun _ _ _ hl hstep ↦ inv_step hl hstep
  rintro _ rfl
  exact ⟨Nat.zero_le 1, nofun, fun _ ↦ rfl, fun _ _ hmem ↦ absurd hmem List.not_mem_nil⟩

/-! ### After the acceptor was closed -/

/-- The loop is on its way out: the acceptor is closed, and nothing is started any more. -/
structure WindsDown (l l' : Listener) : Prop where
  closed : l'.isOpen = false
  running : l'.running = true
  launched : l'.launched = l.launched
  started : l'.started = l.started
  operations : l'.operations.length ≤ l.operations.length

/-- **A step after the acceptor was closed**: no session is launched, and nothing is started. -/
theorem windsDown_step {a : Action} (h : Inv l) (hrunning : l.running = true)
    (hclosed : l.isOpen = false) (hstep : step cfg l a = some l') : WindsDown l l' := by
  cases a with
  | run => exact absurd hrunning (Option.ite_none_left_eq_some.1 hstep).1
  | stop => exact Option.some.inj hstep ▸ ⟨hclosed, hrunning, rfl, rfl, le_rfl⟩
  | close =>
    obtain ⟨-, hstep⟩ := Option.ite_none_right_eq_some.1 hstep
    rw [← Option.some.inj hstep]
    exact ⟨rfl, hrunning, rfl, rfl, (List.length_map ..).le⟩
  | complete wait outcome =>
    obtain ⟨⟨hmem, -⟩, hstep⟩ := Option.ite_none_right_eq_some.1 hstep
    rw [← Option.some.inj hstep]
    refine ⟨hclosed, hrunning, rfl, rfl, ?_⟩
    rw [h.operations hmem, List.erase_cons_head]
    exact le_rfl
  | handle wait outcome =>
    obtain ⟨hmem, hstep⟩ := Option.ite_none_right_eq_some.1 hstep
    rw [← Option.some.inj hstep, h.operations hmem, List.erase_cons_head,
      (inv_handle (l := { l with operations := [] }) rfl hrunning
        (h.fits wait outcome hmem)).2 hclosed]
    exact ⟨hclosed, hrunning, rfl, rfl, Nat.zero_le _⟩

theorem WindsDown.refl (hrunning : l.running = true) (hclosed : l.isOpen = false) : WindsDown l l :=
  ⟨hclosed, hrunning, rfl, rfl, le_rfl⟩

/-- **The accept loop.** While the acceptor of a listener that runs is open, exactly one accept or
one wait before the next accept is there, whatever errors the accepts had. Once stop() has closed
it, no session is launched any more, and no accept and no wait is started. -/
theorem accepts_until_closed (h : (machine cfg).Reachable l) (hrunning : l.running = true) :
    (l.isOpen = true → l.operations.length = 1) ∧
      (l.isOpen = false → ∀ as l', (machine cfg).run l as = some l' →
        l'.isOpen = false ∧ l'.launched = l.launched ∧ l'.started = l.started ∧
          l'.operations.length ≤ l.operations.length ∧ l.operations.length ≤ 1) := by
  have hinv := inv_of_reachable h
  refine ⟨hinv.accepts hrunning, fun hclosed as l' hrun ↦ ?_⟩
  have hwinds : Inv l' ∧ WindsDown l l' := by
    refine Machine.run_invariant (I := fun l' ↦ Inv l' ∧ WindsDown l l')
      (fun m a m' hm hstep ↦ ⟨inv_step hm.1 hstep, ?_⟩) as ⟨hinv, .refl hrunning hclosed⟩ hrun
    have hnext := windsDown_step hm.1 hm.2.running hm.2.closed hstep
    exact ⟨hnext.closed, hnext.running, hnext.launched.trans hm.2.launched,
      hnext.started.trans hm.2.started, hnext.operations.trans hm.2.operations⟩
  exact ⟨hwinds.2.closed, hwinds.2.launched, hwinds.2.started, hwinds.2.operations, hinv.single⟩

/-- HTTP and HTTPS on one port. -/
def mixedPorts : ListenerConfig where
  flags := .http ||| .https
  hasContext := true
  supported := by decide

/-- An accept that is reset, one that runs out of descriptors and is tried again, and one that
succeeds. -/
def acceptsThree : List Action :=
  [.run, .complete .accept (some .connectionReset), .handle .accept (some .connectionReset),
    .complete .accept (some (.other 24)), .handle .accept (some (.other 24)),
    .complete .retry none, .handle .retry none,
    .complete .accept none, .handle .accept none]

/-- stop() closes the acceptor when an accept has succeeded and its handler is queued: its socket is
dropped. -/
def stopsAccepting : List Action :=
  [.complete .accept none, .stop, .close, .handle .accept none]

theorem accepts_until_closed_acceptsThree :
    ∃ l l', (machine mixedPorts).run {} acceptsThree = some l ∧ l.operations.length = 1 ∧
      (machine mixedPorts).run l (stopsAccepting.take 3) = some l' ∧
        ∀ l'', (machine mixedPorts).run l' (stopsAccepting.drop 3) = some l'' →
          l''.launched = l'.launched ∧ l''.started = l'.started := by
  obtain ⟨l, l', hl, hrunning, hopen, hl', hrunning', hclosed⟩ : ∃ l l',
      (machine mixedPorts).run {} acceptsThree = some l ∧ l.running = true ∧ l.isOpen = true ∧
        (machine mixedPorts).run l (stopsAccepting.take 3) = some l' ∧ l'.running = true ∧
          l'.isOpen = false := ⟨_, _, rfl, rfl, rfl, rfl, rfl, rfl⟩
  have hthree : (machine mixedPorts).Reachable l := Machine.run_reachable acceptsThree rfl hl
  have hstopped : (machine mixedPorts).Reachable l' := hthree.run hl'
  refine ⟨l, l', hl, (accepts_until_closed hthree hrunning).1 hopen, hl', fun l'' hrun ↦ ?_⟩
  obtain ⟨-, hlaunched, hstarted, -⟩ :=
    (accepts_until_closed hstopped hrunning').2 hclosed _ l'' hrun
  exact ⟨hlaunched, hstarted⟩

end Listener

end CppGate.Server
