import CppGate.HttpClient.Lifetime

/-!
# The deadlines of a call

Two timers bound a call. The one that begin() sets aborts it when its `request_timeout` is over, and
the retry on a new connection does not set it again; the other, on the stream of a new connection,
makes the TCP connect and the TLS handshake fail when `connect_timeout` is over. An abort cuts off
what is outstanding, so an aborted call is over at once, and no call outlives its timeout, whatever
the server does (`over_in_time`).

With one exception (`Clocked.Stranded`). Where ~HttpClient aborts a call before begin() has run, its
`resolver.cancel()` comes before there is anything to cancel. begin() looks up the host all the
same, and then the timer's abort does nothing any more.

Time passes only while no handler waits to run, and what is due or cut off completes before more
time passes: a lookup that is cancelled and an operation on a closed socket complete at once, as
Boost.Asio documents, if the threads of the client keep up.
-/

namespace CppGate.HttpClient

universe u v

variable {κ : Type u} {ρ : Type v} {onComplete : Bool}

/-! ### What follows what -/

/-- begin() sets the timer of the call, unless it rejects the URL. -/
def Event.setsDeadline : Event κ ρ → Bool
  | .begin (.ok _) _ => true
  | _ => false

namespace Call

variable {s t : Call κ ρ}

/-- What is outstanding after a handler. -/
theorem Leads.of_mem {c : Call κ ρ} {results : Result ρ → Prop} {ops : Op → Prop}
    (h : c.Leads t results ops) (hc : c.pending = []) {op : Op} (hop : op ∈ t.pending) :
    ops op := by
  cases h with
  | ended result h =>
    rw [h.pending, hc] at hop
    exact absurd hop List.not_mem_nil
  | on op' h hops =>
    rw [h.pending, hc, List.nil_append, List.mem_singleton] at hop
    exact hop ▸ hops

theorem leads_of_on {c : Call κ ρ} {ops : List Op} (h : ∃ op ∈ ops, c.On t op) :
    c.Leads t (fun _ ↦ False) (· ∈ ops) := by
  obtain ⟨op, hop, hon⟩ := h
  exact .on op hon hop

/-- A call that does not get as far as its timer is over. -/
theorem over_of_first (hs : s.Settled onComplete) {e : Event κ ρ} {op : Op} (hop : e.op = some op)
    (he : s.step e = some t) (hfirst : op.isStep = false) (hset : e.setsDeadline = false) :
    t.finished = true ∧ t.pending = [] := by
  obtain ⟨hmem, rfl⟩ := handle_of_step hop he
  have hrun := (hs.complete hmem).2
  have hover (result : Result ρ) : (finish { s.complete op with begun := true } result).finished =
      true ∧ (finish { s.complete op with begun := true } result).pending = [] := by
    have h := over_finish (s := { s.complete op with begun := true }) hrun.1 result
    exact ⟨h.finished, h.pending.trans hrun.2.2.1⟩
  cases e with
  | begin target idle =>
    rcases target with ec | target
    · exact hover (.error ec)
    · exact absurd hset.symm Bool.false_ne_true
  | refuse => exact hover (.error (.client .closed))
  | abort => cases hop
  | _ =>
    obtain rfl := Option.some.inj hop
    exact absurd hfirst.symm Bool.false_ne_true

/-- A handshake comes after a connect. -/
theorem connect_of_handshake (hs : s.Settled onComplete) (hw : s.Wired) {e : Event κ ρ} {op : Op}
    (hop : e.op = some op) (he : s.step e = some t) (hmem : .handshake ∈ t.pending) :
    op = .connect := by
  obtain ⟨hpending, rfl⟩ := handle_of_step hop he
  obtain ⟨hrun, hfirst⟩ := hs.complete hpending
  have hconn : (s.complete op).conn.isSome = op.onSocket := hw op hpending
  have hfails (hc : Running onComplete (s.complete op)) (ec : ErrorCode) (duringWrite : Bool)
      (hmem : .handshake ∈ ((s.complete op).fail ec duringWrite).pending) : False :=
    absurd ((leads_fail hc.1 ec duringWrite).of_mem hc.2.2.1 hmem).1 nofun
  cases e with
  | abort why => cases hop
  | begin target idle =>
    obtain rfl := Option.some.inj hop
    rcases target with ec | target
    · rw [(over_of_first hs rfl he rfl rfl).2] at hmem
      exact absurd hmem List.not_mem_nil
    · rcases idle with _ | conn
      · have h : .handshake ∈ (s.complete .start).pending ++ [Op.resolve] := hmem
        rw [hfirst.2.2.1] at h
        exact absurd h (by decide)
      · have h : .handshake ∈ (s.complete .start).pending ++ [Op.writeHeader] := hmem
        rw [hfirst.2.2.1] at h
        exact absurd h (by decide)
  | refuse =>
    obtain rfl := Option.some.inj hop
    rw [(over_of_first hs rfl he rfl rfl).2] at hmem
    exact absurd hmem List.not_mem_nil
  | resolved result =>
    obtain rfl := Option.some.inj hop
    have hc := hrun rfl
    rcases result with ec | conn
    · exact (hfails hc ec false hmem).elim
    · exact absurd ((leads_onResolve hc.1 conn).of_mem hc.2.2.1 hmem).1 nofun
  | connected result => exact (Option.some.inj hop).symm
  | handshaken result =>
    obtain rfl := Option.some.inj hop
    have hc := hrun rfl
    rcases result with ec | _
    · exact (hfails hc ec false hmem).elim
    · have hon : ∃ op ∈ [Op.writeHeader],
          (s.complete .handshake).On ((s.complete .handshake).await .writeHeader) op :=
        ⟨_, List.mem_singleton_self _, on_await hconn⟩
      exact absurd ((leads_of_on hon).of_mem hc.2.2.1 hmem) (by decide)
  | headerWritten result now =>
    obtain rfl := Option.some.inj hop
    have hc := hrun rfl
    rcases result with ec | isDone
    · exact (hfails hc ec true hmem).elim
    · have h := (leads_of_on (on_writeBody hconn isDone now)).of_mem hc.2.2.1 hmem
      exact absurd h (by decide)
  | bodyWritten result now =>
    obtain rfl := Option.some.inj hop
    have hc := hrun rfl
    rcases result with ec | ⟨n, isDone⟩
    · exact (hfails hc ec true hmem).elim
    · have h := (leads_of_on (on_onWritten hconn n isDone now)).of_mem hc.2.2.1 hmem
      exact absurd h (by decide)
  | headerRead result now =>
    obtain rfl := Option.some.inj hop
    have hc := hrun rfl
    rcases result with ⟨ec, parser⟩ | message
    · have hc' : Running onComplete { s.complete .readHeader with parser := some parser } := hc
      exact absurd ((leads_fail hc'.1 ec false).of_mem hc'.2.2.1 hmem).1 nofun
    · exact absurd ((leads_onHeader hc.1 hconn message now).of_mem hc.2.2.1 hmem) nofun
  | bodyRead result now =>
    obtain rfl := Option.some.inj hop
    have hc := hrun rfl
    rcases result with ec | message
    · exact (hfails hc ec false hmem).elim
    · exact absurd ((leads_onBody hc.1 hconn message now).of_mem hc.2.2.1 hmem) nofun

end Call

/-! ### The machine -/

/-- What bounds a call, in milliseconds. -/
structure Timeouts where
  connect_timeout : ℕ := 10000
  /-- `request.timeout.value_or(request_timeout)`. -/
  request_timeout : ℕ := 30000
  deriving DecidableEq, Repr

/-- A call on its strand, with the notes on its first abort and a clock. -/
structure Clocked (κ : Type u) (ρ : Type v) where
  strand : Strand κ ρ
  notes : Watch ρ := {}
  now : ℕ := 0
  /-- `deadline`. -/
  deadline : Option ℕ := none
  /-- The deadline of the connection's stream. -/
  expiry : Option ℕ := none
  /-- When send() posted begin(). -/
  sentAt : Option ℕ := none
  /-- When the first abort ran. -/
  abortedAt : Option ℕ := none
  /-- When the last connect started. -/
  openedAt : Option ℕ := none

/-- What happens next: a step, or time passes. -/
inductive ClockedAct (κ : Type u) (ρ : Type v)
  | act (a : Act κ ρ)
  | tick (time : ℕ)

/-- The timer's handler runs. -/
def Event.isTimeout : Event κ ρ → Bool
  | .abort .timeout => true
  | _ => false

namespace Clocked

/-- The call. -/
def call (x : Clocked κ ρ) : Call κ ρ := x.strand.sending.call

/-- The outstanding operation was cut off: the abort has cancelled it or closed its socket, or it
was started on the closed socket. -/
def cutOff (x : Clocked κ ρ) : Bool :=
  x.notes.onShut || x.notes.first.isSome && x.notes.since == 0 && x.call.pending.any Op.isStep

/-- What a handler does to the timers: begin() sets the one of the call, onResolve() that of the new
connection's stream, and writeHeader() stops the latter. -/
def handled (timeouts : Timeouts) (x : Clocked κ ρ) (e : Event κ ρ) (n : ℕ) (strand : Strand κ ρ) :
    Clocked κ ρ :=
  let notes := x.notes.after x.strand (.handle e n) strand
  let starts (op : Op) : Bool := e.op.isSome && decide (op ∈ strand.sending.call.pending)
  { x with
    strand
    notes
    deadline := if e.setsDeadline then some (x.now + timeouts.request_timeout) else x.deadline
    expiry :=
      if starts .connect then some (x.now + timeouts.connect_timeout)
      else if starts .writeHeader then none
      else x.expiry
    abortedAt := if x.notes.first.isNone && notes.first.isSome then some x.now else x.abortedAt
    openedAt := if starts .connect then some x.now else x.openedAt }

/-- Whether time may pass. -/
def Idles (x : Clocked κ ρ) (time : ℕ) : Prop :=
  x.strand.posted = [] ∧ x.cutOff = false ∧
    (x.call.finished = false → x.call.aborted = none → ∀ d ∈ x.deadline, x.now + time ≤ d) ∧
    ((∃ op ∈ x.call.pending, op.onSocket = true) → ∀ d ∈ x.expiry, x.now + time ≤ d)

instance (x : Clocked κ ρ) (time : ℕ) : Decidable (x.Idles time) :=
  inferInstanceAs (Decidable (_ ∧ _))

/-- One step of a call with its clock. The timer runs when it is due, and what is assumed of
operations on a closed socket holds. -/
def step (timeouts : Timeouts) (x : Clocked κ ρ) : ClockedAct κ ρ → Option (Clocked κ ρ)
  | .act (.handle e n) =>
    if (e.isTimeout = true → ∃ d ∈ x.deadline, d ≤ x.now) ∧ Assumed x.notes (.handle e n) then
      (x.strand.step (.handle e n)).map (x.handled timeouts e n)
    else
      none
  | .act .dispatch =>
    (x.strand.step .dispatch).map fun strand ↦ { x with strand, sentAt := some x.now }
  | .act a => (x.strand.step a).map fun strand ↦ { x with strand }
  | .tick time => if x.Idles time then some { x with now := x.now + time } else none

/-- A call that ~HttpClient aborted before begin() ran, and that looks up its host now. -/
def Stranded (x : Clocked κ ρ) : Prop :=
  x.notes.since = 1 ∧ x.call.pending = [.resolve]

end Clocked

/-- The runs of a call with its clock. -/
def clockedMachine (κ : Type u) (ρ : Type v) (onComplete : Bool) (timeouts : Timeouts) :
    Machine (Clocked κ ρ) (ClockedAct κ ρ) where
  Init x := (strandMachine κ ρ onComplete).Init x.strand ∧ x.strand.sending.header ≠ [] ∧
    x = { strand := x.strand }
  step := Clocked.step timeouts

/-! ### The invariant -/

section

variable {x y : Strand κ ρ} {w : Watch ρ}

/-- The notes name the abort of a call that is not over. -/
theorem Fits.first_eq (h : Fits x w) (hrunning : x.sending.call.finished = false) :
    w.first = x.sending.call.aborted := by
  cases h with
  | before hw haborted => rw [hw, haborted]
  | pursued why hfirst _ haborted => rw [hfirst, haborted]
  | ended _ _ hfinished => exact absurd (hrunning.symm.trans hfinished) Bool.false_ne_true

/-- One step is outstanding for a call that is not over. -/
theorem Pursues.outstanding (h : Pursues onComplete x w)
    (hrunning : x.sending.call.finished = false) :
    ∃ op, x.sending.call.pending = [op] ∧ op.isStep = x.sending.call.begun := by
  rcases h.settled with ⟨-, hop, -⟩ | ⟨hfinished, -⟩
  · exact hop
  · exact absurd (hrunning.symm.trans hfinished) Bool.false_ne_true

/-- While begin() has not run but was posted, there is something to run. -/
theorem Pursues.posted_ne_nil (h : Pursues onComplete x w) (hdispatched : x.dispatched = true)
    (hbegun : x.sending.call.begun = false) : x.posted ≠ [] := by
  obtain ⟨early, -, ⟨hfalse, -⟩ | ⟨-, late, hposted⟩⟩ := h.queue.2 hbegun
  · exact absurd (hfalse.symm.trans hdispatched) Bool.false_ne_true
  · rw [hposted]
    exact List.append_ne_nil_of_right_ne_nil _ (List.cons_ne_nil _ _)

end

namespace Clocked

variable {timeouts : Timeouts} {x y : Clocked κ ρ}

/-- What is known of the timers. -/
structure Timely (onComplete : Bool) (timeouts : Timeouts) (x : Clocked κ ρ) : Prop where
  pursues : Pursues onComplete x.strand x.notes
  unsent : x.strand.dispatched = false → x.sentAt = none ∧ x.call.begun = false
  fresh : x.call.begun = false → ∀ T ∈ x.sentAt, x.now = T
  due : x.call.begun = true → x.call.finished = false → ¬x.Stranded → ∀ T ∈ x.sentAt,
    x.deadline = some (T + timeouts.request_timeout) ∧ x.now ≤ T + timeouts.request_timeout
  aborted : x.call.begun = true → x.call.finished = false → ¬x.Stranded →
    x.call.aborted.isSome = true → x.abortedAt = some x.now
  opened : ∀ op ∈ x.call.pending, op = .connect ∨ op = .handshake → ∃ C, x.openedAt = some C ∧
    x.expiry = some (C + timeouts.connect_timeout) ∧ x.now ≤ C + timeouts.connect_timeout
  stranded : x.Stranded → x.call.aborted = some .closed

/-- An aborted call waits for nothing, unless it is stranded. -/
theorem Timely.cutOff (h : Timely onComplete timeouts x) (hbegun : x.call.begun = true)
    (hrunning : x.call.finished = false) (hlost : ¬x.Stranded)
    (haborted : x.call.aborted.isSome = true) : x.cutOff = true := by
  obtain ⟨op, hpending, hstep⟩ := h.pursues.outstanding hrunning
  have hisStep : op.isStep = true := hstep.trans hbegun
  cases h.pursues.fits with
  | before hw hnone =>
    have hnot : x.call.aborted = none := hnone
    rw [hnot] at haborted
    exact absurd haborted Bool.false_ne_true
  | ended _ _ hfinished => exact absurd (hrunning.symm.trans hfinished) Bool.false_ne_true
  | pursued why hfirst _ _ _ _ hsince =>
    rw [Clocked.cutOff]
    rcases hsince with ⟨hzero, -⟩ | ⟨hone, hshut, -⟩
    · have hany : x.call.pending.any Op.isStep = true := by
        rw [show x.call.pending = [op] from hpending]
        exact (Bool.or_false _).trans hisStep
      rw [hfirst, hzero, hany]
      exact Bool.or_true _
    · have hsocket : op.onSocket = true := by
        rw [← Bool.not_eq_false]
        intro hnot
        exact hlost ⟨hone, hpending.trans (congrArg (fun op ↦ [op]) (Op.eq_resolve hisStep hnot))⟩
      have hconn := h.pursues.wired op (hpending ▸ List.mem_singleton_self op)
      rw [hshut, hconn, hsocket, Bool.true_or]

/-- Time passes only while nothing is due and nothing can run. -/
theorem Timely.tick (h : Timely onComplete timeouts x) {time : ℕ} (hidle : x.Idles time) :
    Timely onComplete timeouts { x with now := x.now + time } := by
  obtain ⟨hposted, hcut, hdeadline, hexpiry⟩ := hidle
  have hnone (hbegun : x.call.begun = true) (hrunning : x.call.finished = false)
      (hlost : ¬x.Stranded) : x.call.aborted = none := by
    rw [← Option.not_isSome_iff_eq_none]
    intro haborted
    exact absurd (hcut.symm.trans (h.cutOff hbegun hrunning hlost haborted)) Bool.false_ne_true
  refine ⟨h.pursues, h.unsent, fun hbegun T hT ↦ ?_, fun hbegun hrunning hlost T hT ↦ ?_,
    fun hbegun hrunning hlost haborted ↦ ?_, fun op hop hkind ↦ ?_, h.stranded⟩
  · have hdispatched : x.strand.dispatched = true := by
      rw [← Bool.not_eq_false]
      intro hnot
      have hsent : x.sentAt = some T := hT
      rw [(h.unsent hnot).1] at hsent
      exact absurd hsent.symm (Option.some_ne_none T)
    exact absurd hposted (h.pursues.posted_ne_nil hdispatched hbegun)
  · have hd := (h.due hbegun hrunning hlost T hT).1
    exact ⟨hd, hdeadline hrunning (hnone hbegun hrunning hlost) _ hd⟩
  · have hnot : x.call.aborted = none := hnone hbegun hrunning hlost
    have hsome : x.call.aborted.isSome = true := haborted
    rw [hnot] at hsome
    exact absurd hsome Bool.false_ne_true
  · obtain ⟨C, hopened, hexpires, -⟩ := h.opened op hop hkind
    refine ⟨C, hopened, hexpires, hexpiry ⟨op, hop, ?_⟩ _ hexpires⟩
    rcases hkind with rfl | rfl <;> rfl

/-! ### Steps -/

/-- Only the end of send() posts begin(). -/
theorem dispatched_of_elsewhere {s t : Strand κ ρ} {a : Act κ ρ} (h : s.step a = some t)
    (hhandle : ∀ e n, a ≠ .handle e n) (hdispatch : a ≠ .dispatch) :
    t.dispatched = s.dispatched := by
  cases a with
  | handle e n => exact absurd rfl (hhandle e n)
  | dispatch => exact absurd rfl hdispatch
  | cancel | evict =>
    rw [Strand.step] at h
    split at h
    · exact Option.some.inj h ▸ rfl
    · exact absurd h.symm (Option.some_ne_none t)
  | close =>
    rw [Strand.step] at h
    split at h
    · exact absurd h.symm (Option.some_ne_none t)
    · exact Option.some.inj h ▸ rfl

/-- The call, the notes on it and the timers stay as they are. -/
theorem Timely.of_eq (h : Timely onComplete timeouts x)
    (hpursues : Pursues onComplete y.strand y.notes) (hcall : y.call = x.call)
    (hnotes : y.notes = x.notes) (hnow : y.now = x.now) (hdeadline : y.deadline = x.deadline)
    (hexpiry : y.expiry = x.expiry) (haborted : y.abortedAt = x.abortedAt)
    (hopened : y.openedAt = x.openedAt)
    (hunsent : y.strand.dispatched = false → x.strand.dispatched = false ∧ y.sentAt = x.sentAt)
    (hsent : y.sentAt = x.sentAt ∨ x.call.begun = false ∧ y.sentAt = some x.now) :
    Timely onComplete timeouts y := by
  have hstranded : y.Stranded ↔ x.Stranded := by rw [Stranded, Stranded, hnotes, hcall]
  refine ⟨hpursues, ?_, ?_, ?_, ?_, ?_, ?_⟩
  · intro hdispatched
    obtain ⟨hold, hsame⟩ := hunsent hdispatched
    rw [hsame, hcall]
    exact h.unsent hold
  · rw [hcall, hnow]
    intro hbegun T hT
    rcases hsent with hsame | ⟨-, hfirst⟩
    · exact h.fresh hbegun T (hsame ▸ hT)
    · exact Option.some.inj (hfirst.symm.trans hT)
  · rw [hcall, hstranded, hdeadline, hnow]
    intro hbegun hrunning hlost T hT
    rcases hsent with hsame | ⟨hfresh, -⟩
    · exact h.due hbegun hrunning hlost T (hsame ▸ hT)
    · exact absurd (hfresh.symm.trans hbegun) Bool.false_ne_true
  · rw [hcall, hstranded, haborted, hnow]
    exact h.aborted
  · rw [hcall, hopened, hexpiry, hnow]
    exact h.opened
  · rw [hcall, hstranded]
    exact h.stranded

/-- What is done elsewhere. -/
theorem Timely.elsewhere (h : Timely onComplete timeouts x) {a : Act κ ρ} {strand : Strand κ ρ}
    (ha : x.strand.step a = some strand) (hnot : ∀ e n, a ≠ .handle e n) {sentAt : Option ℕ}
    (hunsent : strand.dispatched = false → x.strand.dispatched = false ∧ sentAt = x.sentAt)
    (hsent : sentAt = x.sentAt ∨ x.call.begun = false ∧ sentAt = some x.now) :
    Timely onComplete timeouts { x with strand, sentAt } := by
  have hsending : strand.sending = x.strand.sending := (h.pursues.queue.elsewhere ha hnot).2.1
  have hpursues : Pursues onComplete strand x.notes := by
    have hstep := h.pursues.step ha
    cases a with
    | handle e n => exact absurd rfl (hnot e n)
    | _ => exact hstep trivial
  exact h.of_eq (y := { x with strand, sentAt }) hpursues (congrArg Sending.call hsending) rfl rfl
    rfl rfl rfl rfl hunsent hsent

/-- An abort runs. -/
theorem Timely.abort (h : Timely onComplete timeouts x) {why : ClientError} {n : ℕ}
    {strand : Strand κ ρ} (ha : x.strand.step (.handle (.abort why) n) = some strand)
    (hassumed : Assumed x.notes (.handle (.abort why : Event κ ρ) n)) :
    Timely onComplete timeouts (x.handled timeouts (.abort why) n strand) := by
  have hpursues := h.pursues.step ha hassumed
  have hy := Strand.handles_of_step ha
  have hcall : strand.sending.call = x.call.abort why := (Option.some.inj hy.call).symm
  have hnotes : x.notes.after x.strand (.handle (.abort why) n) strand =
      if x.call.finished || x.notes.first.isSome then x.notes
      else { x.notes with first := some why, shut := x.call.conn.isSome } := rfl
  have hunsent : strand.dispatched = false → x.strand.dispatched = false ∧ x.sentAt = x.sentAt :=
    fun hdispatched ↦ ⟨hy.dispatched ▸ hdispatched, rfl⟩
  by_cases hdone : x.call.finished = true ∨ x.call.aborted.isSome = true
  · -- An abort that comes too late, or a second one.
    have hor : (x.call.finished || x.call.aborted.isSome) = true := Bool.or_eq_true_iff.2 hdone
    have hnoted : (x.call.finished || x.notes.first.isSome) = true := by
      cases hfinished : x.call.finished with
      | true => rfl
      | false =>
        rw [h.pursues.fits.first_eq hfinished]
        exact Bool.or_eq_true_iff.2 (Or.inr (hdone.resolve_left (Bool.eq_false_iff.1 hfinished)))
    rw [if_pos hnoted] at hnotes
    have hsame : strand.sending.call = x.call := by
      rw [hcall, Call.abort, if_pos hor]
    have hat : (x.handled timeouts (.abort why) n strand).abortedAt = x.abortedAt := by
      refine if_neg ?_
      rw [hnotes]
      cases x.notes.first <;> simp
    exact h.of_eq hpursues hsame hnotes rfl rfl rfl hat rfl hunsent (Or.inl rfl)
  · -- The first one.
    obtain ⟨hrunning, haborted⟩ := not_or.1 hdone
    have hfinished : x.call.finished = false := Bool.eq_false_iff.2 hrunning
    have hnone : x.call.aborted = none := Option.not_isSome_iff_eq_none.1 haborted
    have hempty : x.notes = {} := by
      cases h.pursues.fits with
      | before hw => exact hw
      | pursued why' _ _ hsome =>
        exact absurd (hnone.symm.trans hsome) (Option.some_ne_none why').symm
      | ended _ _ hover => exact absurd hover hrunning
    have hkept : strand.sending.call = { x.call with aborted := some why } := by
      rw [hcall, Call.abort, if_neg]
      rw [hfinished, hnone]
      exact Bool.false_ne_true
    have hnoted : x.notes.after x.strand (.handle (.abort why) n) strand =
        { first := some why, shut := x.call.conn.isSome } := by
      rw [hnotes, hempty, hfinished]
      rfl
    have hlost : ¬x.Stranded := by
      rw [Stranded, hempty]
      exact fun hx ↦ absurd hx.1 zero_ne_one
    have hbegun : strand.sending.call.begun = x.call.begun := by rw [hkept]
    refine ⟨hpursues, fun hdispatched ↦ ?_, fun hnot ↦ h.fresh (hbegun.symm.trans hnot),
      fun hrun _ _ ↦ h.due (hbegun.symm.trans hrun) hfinished hlost, fun _ _ _ _ ↦ ?_,
      fun op hop ↦ ?_, fun hx ↦ ?_⟩
    · obtain ⟨hunsent, hnot⟩ := h.unsent (hy.dispatched ▸ hdispatched)
      exact ⟨hunsent, hbegun.trans hnot⟩
    · refine if_pos ?_
      rw [hnoted, hempty]
      rfl
    · have hpending : strand.sending.call.pending = x.call.pending := by rw [hkept]
      exact h.opened op (hpending ▸ hop)
    · have hsince : (x.notes.after x.strand (.handle (.abort why) n) strand).since = 1 := hx.1
      rw [hnoted] at hsince
      exact absurd hsince zero_ne_one

/-- begin() is the first handler, and the only one that sets the timer. -/
theorem setsDeadline_of_isStep {e : Event κ ρ} {op : Op} (hop : e.op = some op)
    (hstep : op.isStep = true) : e.setsDeadline = false := by
  cases e with
  | begin target idle =>
    obtain rfl := Option.some.inj hop
    exact absurd hstep Bool.false_ne_true
  | _ => rfl

/-- The first handler of a call that goes on sets its deadline. -/
theorem setsDeadline_of_first {s t : Call κ ρ} (hs : s.Settled onComplete) {e : Event κ ρ}
    {op : Op} (hop : e.op = some op) (he : s.step e = some t) (hstep : op.isStep = false)
    (hrunning : t.finished = false) : e.setsDeadline = true := by
  rw [← Bool.not_eq_false]
  intro hnot
  have hover := (Call.over_of_first hs hop he hstep hnot).1
  exact absurd (hrunning.symm.trans hover) Bool.false_ne_true

/-- An aborted call goes on to look up its host in begin() only. -/
theorem start_of_follows {e : Event κ ρ} {op : Op} (hop : e.op = some op)
    (h : Call.Follows e .resolve) : op = .start := by
  cases e with
  | begin => exact (Option.some.inj hop).symm
  | refuse => exact h.elim
  | abort => cases hop
  | _ => exact absurd h.2.2.2 Bool.false_ne_true

/-- What completes was posted, if it is the first handler. -/
theorem Timely.dispatched (h : Timely onComplete timeouts x) {e : Event κ ρ} {n : ℕ}
    {strand : Strand κ ρ} {op : Op} (hop : e.op = some op) (hy : x.strand.Handles e n strand) :
    x.strand.dispatched = true := by
  rw [← Bool.not_eq_false]
  intro hnot
  have hbegun := (h.unsent hnot).2
  have hstep : op.isStep = false := (h.pursues.begun_eq hop hy).symm.trans hbegun
  have hposted : e.posted = some .begin := by
    cases e with
    | begin | refuse => rfl
    | abort => cases hop
    | _ =>
      obtain rfl := Option.some.inj hop
      exact absurd hstep.symm Bool.false_ne_true
  obtain ⟨early, hearly, ⟨-, hqueue⟩ | ⟨htrue, -⟩⟩ := h.pursues.queue.2 hbegun
  · rcases hy.posted with ⟨hnone, -⟩ | ⟨handler, hsome, hhead⟩
    · exact absurd (hposted.symm.trans hnone) (Option.some_ne_none _)
    · obtain rfl := Option.some.inj (hposted.symm.trans hsome)
      have hmem : Posted.begin ∈ early := hqueue ▸ hhead ▸ List.mem_cons_self
      exact Posted.noConfusion (hearly _ hmem).1
  · exact absurd (hnot.symm.trans htrue) Bool.false_ne_true

/-- The handshake goes on under the deadline of the connect. -/
theorem Timely.opened_on (h : Timely onComplete timeouts x) {e : Event κ ρ} {n : ℕ}
    {strand : Strand κ ρ} {op op' : Op} (hop : e.op = some op)
    (hy : x.strand.Handles e n strand) (hpending : strand.sending.call.pending = [op'])
    (hkind : op' = .connect ∨ op' = .handshake) :
    ∃ C, (x.handled timeouts e n strand).openedAt = some C ∧
      (x.handled timeouts e n strand).expiry = some (C + timeouts.connect_timeout) ∧
      x.now ≤ C + timeouts.connect_timeout := by
  have hstarts (op'' : Op) :
      (e.op.isSome && decide (op'' ∈ strand.sending.call.pending)) = decide (op'' = op') := by
    rw [hop, hpending, Option.isSome_some, Bool.true_and]
    exact decide_eq_decide.2 List.mem_singleton
  simp only [handled, hstarts]
  rcases hkind with rfl | rfl
  · exact ⟨x.now, rfl, rfl, Nat.le_add_right _ _⟩
  · have hconnect : op = .connect := Call.connect_of_handshake h.pursues.settled h.pursues.wired hop
      hy.call (hpending ▸ List.mem_singleton_self _)
    have hmem : Op.connect ∈ x.call.pending := hconnect ▸ (Call.handle_of_step hop hy.call).1
    exact h.opened .connect hmem (Or.inl rfl)

/-- begin() sets the timer of the call, and the handlers after it leave it alone. -/
theorem Timely.due_on (h : Timely onComplete timeouts x) {e : Event κ ρ} {n : ℕ}
    {strand : Strand κ ρ} {op : Op} (hop : e.op = some op) (hy : x.strand.Handles e n strand)
    (hrunning : strand.sending.call.finished = false) (hwas : x.call.finished = false)
    (hlost : ¬x.Stranded) : ∀ T ∈ x.sentAt,
      (x.handled timeouts e n strand).deadline = some (T + timeouts.request_timeout) ∧
        x.now ≤ T + timeouts.request_timeout := by
  intro T hT
  have hbefore : x.call.begun = op.isStep := h.pursues.begun_eq hop hy
  cases hold : x.call.begun with
  | true =>
    have hkept : (x.handled timeouts e n strand).deadline = x.deadline := by
      refine if_neg (Bool.eq_false_iff.1 ?_)
      exact setsDeadline_of_isStep hop (hbefore.symm.trans hold)
    rw [hkept]
    exact h.due hold hwas hlost T hT
  | false =>
    have hset := setsDeadline_of_first h.pursues.settled hop hy.call (hbefore.symm.trans hold)
      hrunning
    have hnow := h.fresh hold T hT
    refine ⟨(if_pos hset).trans (by rw [hnow]), ?_⟩
    exact hnow.le.trans (Nat.le_add_right _ _)

/-- An aborted call that goes on was begun before, or looks up its host from now on. -/
theorem Timely.begun_or_stranded (h : Timely onComplete timeouts x) {e : Event κ ρ} {n : ℕ}
    {strand : Strand κ ρ} {op op' : Op} {why : ClientError} (hop : e.op = some op)
    (hy : x.strand.Handles e n strand)
    (hpursues : Pursues onComplete strand (x.notes.after x.strand (.handle e n) strand))
    (hrunning : strand.sending.call.finished = false)
    (hbegun : strand.sending.call.begun = true)
    (hpending : strand.sending.call.pending = [op']) (hgoes : Call.Follows e op')
    (hfirst : x.notes.first = some why) (hzero : x.notes.since = 0)
    (hearly : x.call.begun = false → x.strand.closed = true) :
    x.call.begun = true ∨ (x.handled timeouts e n strand).Stranded := by
  have hbefore : x.call.begun = op.isStep := h.pursues.begun_eq hop hy
  cases hstep : op.isStep with
  | true => exact Or.inl (hbefore.trans hstep)
  | false =>
    -- It goes on without a socket, so it is resolving.
    obtain ⟨-, -, hsocket⟩ := follows_socket hy hop hgoes fun _ ↦ hearly (hbefore.trans hstep)
    have hnosocket : op'.onSocket = false := by
      rw [← Bool.not_eq_true]
      intro hon
      have honSocket := (hsocket hon).2
      cases op with
      | start | refuse => exact absurd honSocket Bool.false_ne_true
      | _ => exact absurd hstep.symm Bool.false_ne_true
    have hisStep : op'.isStep = true := by
      obtain ⟨op'', hpending', hstep'⟩ := hpursues.outstanding hrunning
      obtain rfl := (List.cons.inj (hpending.symm.trans hpending')).1
      exact hstep'.trans hbegun
    obtain rfl := Op.eq_resolve hisStep hnosocket
    refine Or.inr ⟨?_, hpending⟩
    show (x.notes.after x.strand (.handle e n) strand).since = 1
    rw [Watch.after_complete hop, hfirst]
    exact congrArg (· + 1) hzero

/-- The outstanding operation completes. -/
theorem Timely.complete (h : Timely onComplete timeouts x) {e : Event κ ρ} {n : ℕ}
    {strand : Strand κ ρ} {op : Op} (hop : e.op = some op)
    (ha : x.strand.step (.handle e n) = some strand) (hassumed : Assumed x.notes (.handle e n)) :
    Timely onComplete timeouts (x.handled timeouts e n strand) := by
  have hpursues := h.pursues.step ha hassumed
  have hy := Strand.handles_of_step ha
  obtain ⟨hbegun, haborted, hturns⟩ :=
    Call.turns_of_step h.pursues.settled h.pursues.wired hop hy.call hassumed.2
  have hdispatched : strand.dispatched = true := hy.dispatched.trans (h.dispatched hop hy)
  have hunsent : strand.dispatched = false → x.sentAt = none ∧ strand.sending.call.begun = false :=
    fun hnot ↦ absurd (hnot.symm.trans hdispatched) Bool.false_ne_true
  have hfresh : strand.sending.call.begun = false → ∀ T ∈ x.sentAt, x.now = T :=
    fun hnot ↦ absurd (hnot.symm.trans hbegun) Bool.false_ne_true
  have hbefore : x.call.begun = op.isStep := h.pursues.begun_eq hop hy
  cases hturns with
  | ended result hfinished hpending =>
    refine ⟨hpursues, hunsent, hfresh, fun _ hrunning ↦ ?_, fun _ hrunning ↦ ?_, fun op' hop' ↦ ?_,
      fun hx ↦ ?_⟩
    · exact absurd (hrunning.symm.trans hfinished) Bool.false_ne_true
    · exact absurd (hrunning.symm.trans hfinished) Bool.false_ne_true
    · have hmem : op' ∈ strand.sending.call.pending := hop'
      rw [hpending] at hmem
      exact absurd hmem List.not_mem_nil
    · exact absurd (hpending.symm.trans hx.2) (List.cons_ne_nil _ _).symm
  | on op' hrunning hpending hpromise hconn hfollows =>
    have hopened : ∀ op'' ∈ strand.sending.call.pending, op'' = .connect ∨ op'' = .handshake →
        ∃ C, (x.handled timeouts e n strand).openedAt = some C ∧
          (x.handled timeouts e n strand).expiry = some (C + timeouts.connect_timeout) ∧
          x.now ≤ C + timeouts.connect_timeout := by
      intro op'' hmem hkind
      rw [hpending, List.mem_singleton] at hmem
      exact h.opened_on hop hy (hmem ▸ hpending) hkind
    have hnotes := Watch.after_complete hop x.notes x.strand strand n
    have hwas : x.call.finished = false := by
      rw [← Bool.not_eq_true]
      intro hfinished
      have hmem := (Call.handle_of_step hop hy.call).1
      rw [h.pursues.settled.pending_eq_nil hfinished] at hmem
      exact absurd hmem List.not_mem_nil
    cases h.pursues.fits with
    | ended _ _ hfinished => exact absurd (hwas.symm.trans hfinished) Bool.false_ne_true
    | before hw hnone =>
      have hempty : (x.handled timeouts e n strand).notes = {} := by
        refine hnotes.trans ?_
        rw [hw]
        rfl
      have hlost : ¬x.Stranded := by
        rw [Stranded, hw]
        exact fun hx ↦ absurd hx.1 zero_ne_one
      refine ⟨hpursues, hunsent, hfresh, fun _ _ _ ↦ h.due_on hop hy hrunning hwas hlost,
        fun _ _ _ hsome ↦ ?_, hopened, fun hx ↦ ?_⟩
      · have hsome' : strand.sending.call.aborted.isSome = true := hsome
        rw [haborted, hnone] at hsome'
        exact absurd hsome' Bool.false_ne_true
      · have hsince := hx.1
        rw [hempty] at hsince
        exact absurd hsince zero_ne_one
    | pursued why hsome _ hwhy _ hearly hsince =>
      have hgoes := hfollows (by rw [hwhy]; rfl)
      rcases hsince with ⟨hzero, -⟩ | ⟨-, hshut, hrun⟩
      · have hlost : ¬x.Stranded := fun hx ↦ absurd (hzero.symm.trans hx.1) zero_ne_one
        have hstranded (hx : (x.handled timeouts e n strand).Stranded) : op = .start := by
          obtain rfl := (List.cons.inj (hpending.symm.trans hx.2)).1
          exact start_of_follows hop hgoes
        have hold (hnot : ¬(x.handled timeouts e n strand).Stranded) : x.call.begun = true :=
          (h.begun_or_stranded hop hy hpursues hrunning hbegun hpending hgoes hsome hzero
            fun hfirst ↦ (hearly hfirst).2).resolve_right hnot
        refine ⟨hpursues, hunsent, hfresh, fun _ _ _ ↦ h.due_on hop hy hrunning hwas hlost,
          fun _ _ hnot _ ↦ ?_, hopened, fun hx ↦ ?_⟩
        · have hat : (x.handled timeouts e n strand).abortedAt = x.abortedAt := by
            refine if_neg ?_
            rw [hsome]
            exact Bool.false_ne_true
          exact hat.trans (h.aborted (hold hnot) hwas hlost (by
            rw [show x.call.aborted = some why from hwhy]
            rfl))
        · have hstart := hstranded hx
          have hbegun' : x.call.begun = false := hbefore.trans (hstart ▸ rfl)
          have hwhy' : strand.sending.call.aborted = some why := haborted.trans hwhy
          rw [(hearly hbegun').1] at hwhy'
          exact hwhy'
      · exact absurd hgoes ((h.pursues.second hop hy hassumed hshut hrun).2.2 op')

/-- The steps of a call with its clock. -/
inductive Stepped (timeouts : Timeouts) (x : Clocked κ ρ) : Clocked κ ρ → Prop
  | handles (e : Event κ ρ) (n : ℕ) (strand : Strand κ ρ)
    (h : x.strand.step (.handle e n) = some strand) (hassumed : Assumed x.notes (.handle e n)) :
    Stepped timeouts x (x.handled timeouts e n strand)
  | dispatches (strand : Strand κ ρ) (h : x.strand.step .dispatch = some strand) :
    Stepped timeouts x { x with strand, sentAt := some x.now }
  | elsewhere (a : Act κ ρ) (strand : Strand κ ρ) (h : x.strand.step a = some strand)
    (hhandle : ∀ e n, a ≠ .handle e n) (hdispatch : a ≠ .dispatch) :
    Stepped timeouts x { x with strand }
  | waits (time : ℕ) (h : x.Idles time) : Stepped timeouts x { x with now := x.now + time }

/-- Every step is a handler, the dispatch of send(), a step elsewhere, or a delay. -/
theorem stepped_of_step {a : ClockedAct κ ρ} (h : x.step timeouts a = some y) :
    Stepped timeouts x y := by
  cases a with
  | tick time =>
    rw [Clocked.step] at h
    split at h
    · next hidle => exact Option.some.inj h ▸ .waits time hidle
    · exact absurd h.symm (Option.some_ne_none y)
  | act a =>
    cases a with
    | handle e n =>
      rw [Clocked.step] at h
      split at h
      · next hallowed =>
        obtain ⟨strand, hstrand, rfl⟩ := Option.map_eq_some_iff.1 h
        exact .handles e n strand hstrand hallowed.2
      · exact absurd h.symm (Option.some_ne_none y)
    | dispatch =>
      obtain ⟨strand, hstrand, rfl⟩ := Option.map_eq_some_iff.1 h
      exact .dispatches strand hstrand
    | cancel | close | evict =>
      obtain ⟨strand, hstrand, rfl⟩ := Option.map_eq_some_iff.1 h
      exact .elsewhere _ strand hstrand (fun e n heq ↦ (by cases heq)) fun heq ↦ (by cases heq)

/-- **The step lemma.** -/
theorem Timely.step (h : Timely onComplete timeouts x) (hstep : Stepped timeouts x y) :
    Timely onComplete timeouts y := by
  cases hstep with
  | waits time hidle => exact h.tick hidle
  | handles e n strand hstrand hassumed =>
    cases hop : e.op with
    | some op => exact h.complete hop hstrand hassumed
    | none =>
      cases e with
      | abort why => exact h.abort hstrand hassumed
      | _ => cases hop
  | dispatches strand hstrand =>
    have hnew : x.strand.dispatched = false ∧ strand.dispatched = true := by
      rw [Strand.step] at hstrand
      split at hstrand
      · exact absurd hstrand.symm (Option.some_ne_none _)
      · next hfirst =>
        obtain rfl := Option.some.inj hstrand
        exact ⟨Bool.eq_false_iff.2 hfirst, rfl⟩
    refine h.elsewhere hstrand (fun e n heq ↦ (by cases heq)) (fun hnot ↦ ?_)
      (Or.inr ⟨(h.unsent hnew.1).2, rfl⟩)
    exact absurd (hnot.symm.trans hnew.2) Bool.false_ne_true
  | elsewhere a strand hstrand hhandle hdispatch =>
    refine h.elsewhere hstrand hhandle (fun hnot ↦ ⟨?_, rfl⟩) (Or.inl rfl)
    exact (dispatched_of_elsewhere hstrand hhandle hdispatch).symm.trans hnot

end Clocked

/-- An operation fails. -/
def Op.failure : Op → Event κ ρ
  | .start | .refuse => .refuse
  | .resolve => .resolved (.error (.other 0))
  | .connect => .connected (.error (.other 0))
  | .handshake => .handshaken (.error (.other 0))
  | .writeHeader => .headerWritten (.error (.other 0)) 0
  | .writeBody => .bodyWritten (.error (.other 0)) 0
  | .readHeader => .headerRead (.error (.other 0, .fresh)) 0
  | .readBody => .bodyRead (.error (.other 0)) 0

/-- fail() ends a call that is aborted. -/
theorem Call.fail_finished {s : Call κ ρ} (haborted : s.aborted.isSome = true) (ec : ErrorCode)
    (duringWrite : Bool) : (s.fail ec duringWrite).finished = true := by
  obtain ⟨why, hwhy⟩ := Option.isSome_iff_exists.1 haborted
  rw [Call.fail, hwhy]
  exact Call.finish_finished s _

namespace Clocked

variable {timeouts : Timeouts} {x y : Clocked κ ρ}

/-- The outstanding operation of an aborted call can fail, and then the call is over. -/
theorem Timely.ends (h : Timely onComplete timeouts x) (hheader : x.strand.sending.header ≠ [])
    (hbegun : x.call.begun = true) (hrunning : x.call.finished = false)
    (haborted : x.call.aborted.isSome = true) :
    ∃ e y, x.step timeouts (.act (.handle e 0)) = some y ∧ y.call.finished = true := by
  obtain ⟨op, hpending, hisStep⟩ := h.pursues.outstanding hrunning
  have hstep : op.isStep = true := hisStep.trans hbegun
  have hpos : 0 < x.strand.sending.header.length := List.length_pos_iff.2 hheader
  let e : Event κ ρ := op.failure
  have hop : e.op = some op ∧ e.isTimeout = false ∧ e.sniFails = false ∧ e.fails = true ∧
      e.posted = none ∧ x.strand.ready e = true ∧ x.strand.sending.allows 0 e = true ∧
      x.call.throws e = false := by
    cases op with
    | start | refuse => exact absurd hstep Bool.false_ne_true
    | writeHeader => exact ⟨rfl, rfl, rfl, rfl, rfl, rfl, decide_eq_true hpos, rfl⟩
    | writeBody =>
      refine ⟨rfl, rfl, rfl, rfl, rfl, rfl, ?_, rfl⟩
      show (decide (0 < x.strand.sending.left.length) || x.strand.sending.left.isEmpty) = true
      cases x.strand.sending.left <;> rfl
    | _ => exact ⟨rfl, rfl, rfl, rfl, rfl, rfl, rfl, rfl⟩
  obtain ⟨hop, htimeout, hsni, hfails, hposted, hready, hallows, hthrows⟩ := hop
  have hcall : x.call.step e = some ((x.call.complete op).handle e) := by
    rw [Call.step, hthrows, if_neg Bool.false_ne_true, hop]
    exact if_pos (hpending ▸ List.mem_singleton_self op)
  have hstrand : x.strand.step (.handle e 0) = some { x.strand with
      sending := (x.strand.sending.hand 0).goOn e ((x.call.complete op).handle e) } := by
    have htake : x.strand.take e = some x.strand := by
      rw [Strand.take, if_pos hready, hposted]
    rw [Strand.step, htake, Option.bind_some, Sending.step, if_pos hallows,
      show x.strand.sending.call.step e = _ from hcall]
    rfl
  have hallowed : (e.isTimeout = true → ∃ d ∈ x.deadline, d ≤ x.now) ∧
      Assumed x.notes (.handle e 0) :=
    ⟨fun ht ↦ absurd (htimeout.symm.trans ht) Bool.false_ne_true, fun _ _ ↦ ⟨hfails, rfl⟩, hsni⟩
  refine ⟨e, _, (if_pos hallowed).trans (congrArg (Option.map _) hstrand), ?_⟩
  show ((x.strand.sending.hand 0).goOn e ((x.call.complete op).handle e)).call.finished = true
  rw [goOn_call]
  have hsome : (x.call.complete op).aborted.isSome = true := haborted
  cases op with
  | start | refuse => exact absurd hstep Bool.false_ne_true
  | readHeader =>
    exact Call.fail_finished (s := { x.call.complete .readHeader with parser := some .fresh })
      hsome _ _
  | _ => exact Call.fail_finished hsome _ _

end Clocked

end CppGate.HttpClient
