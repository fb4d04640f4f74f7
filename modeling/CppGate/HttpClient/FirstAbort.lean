import CppGate.HttpClient.Strand

/-!
# The first abort decides

abort() records why and closes the socket of the call's connection, if it has one. The outstanding
operation still completes, perhaps with a success that was queued already, and then its handler
starts the next one on the closed socket. So the call is over after two handlers at most, each error
is the abort's, and a response can only come from the read that was outstanding (`Pursues`).

Only begin() does not ask whether the call was aborted: where ~HttpClient comes first, a URL that is
rejected is reported all the same (`first_abort_decides_iff`).
-/

namespace CppGate.HttpClient

universe u v

variable {κ : Type u} {ρ : Type v} {onComplete : Bool}

/-! ### The observer -/

/-- What an observer notes of the first abort of a call. -/
structure Watch (ρ : Type v) where
  /-- The first abort that ran before the call was over. -/
  first : Option ClientError := none
  /-- How many handlers of the call have run since. -/
  since : ℕ := 0
  /-- It closed the socket of the call's connection. -/
  shut : Bool := false
  /-- What is outstanding was started on the closed socket. -/
  onShut : Bool := false
  /-- What the read that was outstanding then completed with. -/
  read : Option (Message ρ) := none
  /-- begin() has run since, and rejected the URL. -/
  rejected : Bool := false
  /-- How many connections the call has started to open since. -/
  connects : ℕ := 0
  /-- How many octets of the request were handed over by the operations started since. -/
  octets : ℕ := 0

/-- What begin() makes of a URL that parseUrl() rejects. -/
def Event.rejects : Event κ ρ → Bool
  | .begin (.error _) _ => true
  | _ => false

/-- The notes after a step. -/
def Watch.after (w : Watch ρ) (x : Strand κ ρ) (a : Act κ ρ) (y : Strand κ ρ) : Watch ρ :=
  match a with
  | .handle (.abort why) _ =>
    if x.sending.call.finished || w.first.isSome then w
    else { w with first := some why, shut := x.sending.call.conn.isSome }
  | .handle e n =>
    if w.first.isNone then w
    else
      { w with
        since := w.since + 1
        onShut := w.shut && e.source.isNone && y.sending.call.conn.isSome
        read := if w.since = 0 then e.message else w.read
        rejected := w.rejected || e.rejects
        connects := w.connects + if .connect ∈ y.sending.call.pending then 1 else 0
        octets := w.octets + if w.since = 0 then 0 else n }
  | _ => w

/-- A call on its strand, with the notes on its first abort. -/
def watched (κ : Type u) (ρ : Type v) (onComplete : Bool) :
    Machine (Strand κ ρ × Watch ρ) (Act κ ρ) :=
  (strandMachine κ ρ onComplete).observed {} Watch.after

/-- What is assumed: operations on a closed socket fail, and the host name can be set for TLS. -/
def Assumed (w : Watch ρ) : Act κ ρ → Prop
  | .handle e n =>
    (w.onShut = true → e.op.isSome = true → e.fails = true ∧ n = 0) ∧ e.sniFails = false
  | _ => True

/-- begin() runs after an abort and rejects the URL. -/
def RejectsLate (w : Watch ρ) : Act κ ρ → Prop
  | .handle e _ => w.first.isSome = true ∧ e.rejects = true
  | _ => False

instance (w : Watch ρ) : DecidablePred (Assumed w : Act κ ρ → Prop)
  | .handle _ _ => inferInstanceAs (Decidable (_ ∧ _))
  | .dispatch | .cancel | .close | .evict => .isTrue trivial

instance (w : Watch ρ) : DecidablePred (RejectsLate w : Act κ ρ → Prop)
  | .handle _ _ => inferInstanceAs (Decidable (_ ∧ _))
  | .dispatch | .cancel | .close | .evict => .isFalse id

/-- **The first abort decides**: the call ends with its error, or with the response that the read
outstanding at the time received completely. -/
def Decided (why : ClientError) (w : Watch ρ) (promise : List (Result ρ)) : Prop :=
  promise = [.error (.client why)] ∨ ∃ message, w.read = some message ∧ message.isDone = true ∧
    promise = [.response message.response]

/-! ### What was posted before begin() -/

/-- Nothing but the abort of ~HttpClient is ahead of begin(). -/
def Strand.Queue (x : Strand κ ρ) : Prop :=
  (x.inFlight = true → x.closed = true) ∧
    (x.sending.call.begun = false → ∃ early, (∀ p ∈ early, p = .abort .closed ∧ x.closed = true) ∧
      (x.dispatched = false ∧ x.posted = early ∨
        x.dispatched = true ∧ ∃ late, x.posted = early ++ .begin :: late))

namespace Strand

variable {x y : Strand κ ρ} {e : Event κ ρ}

/-- Taking a handler changes the queue only. -/
theorem take_eq (h : x.take e = some y) : x.ready e = true ∧ ∃ posted, y = { x with posted } ∧
    (e.posted = none ∧ posted = x.posted ∨
      ∃ handler, e.posted = some handler ∧ x.posted = handler :: posted) := by
  rw [take] at h
  split at h
  · next hready =>
    refine ⟨hready, ?_⟩
    cases hhandler : e.posted with
    | none =>
      rw [hhandler] at h
      exact ⟨x.posted, (Option.some.inj h).symm, Or.inl ⟨rfl, rfl⟩⟩
    | some handler =>
      cases hposted : x.posted with
      | nil =>
        rw [hhandler, hposted] at h
        cases h
      | cons first rest =>
        rw [hhandler, hposted] at h
        dsimp only at h
        split at h
        · next heq => exact ⟨rest, (Option.some.inj h).symm, Or.inr ⟨handler, rfl, heq ▸ rfl⟩⟩
        · cases h
  · cases h

/-- A handler of the call runs. -/
structure Handles (x : Strand κ ρ) (e : Event κ ρ) (n : ℕ) (y : Strand κ ρ) : Prop where
  ready : x.ready e = true
  allows : x.sending.allows n e = true
  call : x.sending.call.step e = some y.sending.call
  dispatched : y.dispatched = x.dispatched
  closed : y.closed = x.closed
  inFlight : y.inFlight = x.inFlight
  posted : e.posted = none ∧ y.posted = x.posted ∨
    ∃ handler, e.posted = some handler ∧ x.posted = handler :: y.posted

/-- A handler of the strand is an event of the call. -/
theorem handles_of_step {n : ℕ} (h : x.step (.handle e n) = some y) : x.Handles e n y := by
  obtain ⟨u, hu, h⟩ := Option.bind_eq_some_iff.1 h
  obtain ⟨hready, posted, rfl, hposted⟩ := take_eq hu
  obtain ⟨sending, hsending, rfl⟩ := Option.map_eq_some_iff.1 h
  obtain ⟨hallows, call, hcall, rfl⟩ := Sending.call_of_step hsending
  refine ⟨hready, hallows, ?_, rfl, rfl, rfl, hposted⟩
  rw [goOn_call]
  exact hcall

/-- The abort that runs before begin() is that of ~HttpClient. -/
theorem Queue.abort (h : x.Queue) {why : ClientError} {n : ℕ} (hy : x.Handles (.abort why) n y) :
    y.Queue ∧ (x.sending.call.begun = false → why = .closed ∧ x.closed = true) := by
  have hbegun : y.sending.call.begun = x.sending.call.begun := by
    rw [← Option.some.inj hy.call]
    show (x.sending.call.abort why).begun = _
    rw [Call.abort]
    split <;> rfl
  obtain ⟨hflight, hqueue⟩ := h
  have hnext : x.sending.call.begun = false → (why = .closed ∧ x.closed = true) ∧
      ∃ early, (∀ p ∈ early, p = .abort .closed ∧ x.closed = true) ∧
        (x.dispatched = false ∧ y.posted = early ∨
          x.dispatched = true ∧ ∃ late, y.posted = early ++ .begin :: late) := by
    intro hnot
    obtain ⟨early, hearly, hposted⟩ := hqueue hnot
    rcases hy.posted with ⟨hnone, -⟩ | ⟨handler, hsome, hhead⟩
    · -- Only the deadline is not posted, and begin() has not set it.
      have hready := hy.ready
      cases why with
      | timeout =>
        rw [ready, hnot] at hready
        cases hready
      | _ => cases hnone
    · have hne : handler ≠ .begin := by
        rintro rfl
        cases why <;> cases hsome
      cases early with
      | nil =>
        rcases hposted with ⟨-, hempty⟩ | ⟨-, late, hbegin⟩
        · rw [hempty] at hhead
          cases hhead
        · rw [hbegin] at hhead
          exact absurd (List.cons.inj hhead).1.symm hne
      | cons first early =>
        obtain ⟨⟨rfl, hclosed⟩, hrest⟩ := List.forall_mem_cons.1 hearly
        have hboth : handler = .abort .closed ∧
            (x.dispatched = false ∧ y.posted = early ∨
              x.dispatched = true ∧ ∃ late, y.posted = early ++ .begin :: late) := by
          rcases hposted with ⟨hdispatched, heq⟩ | ⟨hdispatched, late, heq⟩
          · obtain ⟨hfirst, hlater⟩ := List.cons.inj (hhead.symm.trans heq)
            exact ⟨hfirst, Or.inl ⟨hdispatched, hlater⟩⟩
          · obtain ⟨hfirst, hlater⟩ := List.cons.inj (hhead.symm.trans heq)
            exact ⟨hfirst, Or.inr ⟨hdispatched, late, hlater⟩⟩
        obtain ⟨rfl, hposted'⟩ := hboth
        refine ⟨⟨?_, hclosed⟩, early, hrest, hposted'⟩
        cases why <;> cases hsome
        rfl
  refine ⟨⟨hy.inFlight ▸ hy.closed ▸ hflight, fun hnot ↦ ?_⟩, fun hnot ↦ (hnext hnot).1⟩
  obtain ⟨-, hearly⟩ := hnext (hbegun ▸ hnot)
  rw [hy.closed, hy.dispatched]
  exact hearly

/-- What is posted comes last. -/
theorem Queue.post (h : x.Queue) {handler : Posted} {inFlight : Bool}
    (hdispatched : x.dispatched = true ∨ handler = .abort .closed ∧ x.closed = true)
    (hflight : inFlight = true → x.closed = true) :
    Queue { x with posted := x.posted ++ [handler], inFlight } := by
  refine ⟨hflight, fun hnot ↦ ?_⟩
  obtain ⟨early, hearly, ⟨hfalse, hposted⟩ | ⟨htrue, late, hposted⟩⟩ := h.2 hnot
  · obtain ⟨rfl, hclosed⟩ := hdispatched.resolve_left (Bool.eq_false_iff.1 hfalse)
    refine ⟨early ++ [.abort .closed], fun p hp ↦ ?_, Or.inl ⟨hfalse, congrArg (· ++ _) hposted⟩⟩
    rcases List.mem_append.1 hp with hp | hp
    · exact hearly p hp
    · exact ⟨List.mem_singleton.1 hp, hclosed⟩
  · refine ⟨early, hearly, Or.inr ⟨htrue, late ++ [handler], ?_⟩⟩
    dsimp only
    rw [hposted, List.append_assoc, List.cons_append]

/-- What is done elsewhere leaves the call to its strand. -/
theorem Queue.elsewhere (h : x.Queue) {a : Act κ ρ} (ha : x.step a = some y)
    (hnot : ∀ e n, a ≠ .handle e n) : y.Queue ∧ y.sending = x.sending ∧
      (x.closed = true → y.closed = true) := by
  cases a with
  | handle e n => exact absurd rfl (hnot e n)
  | dispatch =>
    rw [step] at ha
    split at ha
    · cases ha
    next hfirst =>
    obtain rfl := Option.some.inj ha
    refine ⟨⟨h.1, fun hbegun ↦ ?_⟩, rfl, id⟩
    obtain ⟨early, hearly, ⟨-, hposted⟩ | ⟨htrue, -⟩⟩ := h.2 hbegun
    · exact ⟨early, hearly, Or.inr ⟨rfl, [], congrArg (· ++ _) hposted⟩⟩
    · exact absurd htrue hfirst
  | cancel =>
    rw [step] at ha
    split at ha
    · next hdispatched =>
      obtain rfl := Option.some.inj ha
      exact ⟨h.post (Or.inl hdispatched) h.1, rfl, id⟩
    · cases ha
  | close =>
    rw [step] at ha
    split at ha
    · cases ha
    · obtain rfl := Option.some.inj ha
      refine ⟨⟨fun _ ↦ rfl, fun hbegun ↦ ?_⟩, rfl, fun _ ↦ rfl⟩
      obtain ⟨early, hearly, hposted⟩ := h.2 hbegun
      exact ⟨early, fun p hp ↦ ⟨(hearly p hp).1, rfl⟩, hposted⟩
  | evict =>
    rw [step] at ha
    split at ha
    · next hflight =>
      obtain rfl := Option.some.inj ha
      have hposted : ∀ h : false = true, x.closed = true := nofun
      exact ⟨h.post (Or.inr ⟨rfl, h.1 hflight⟩) hposted, rfl, id⟩
    · cases ha

end Strand

/-! ### The invariant -/

/-- How the notes stand to the call. -/
inductive Fits (x : Strand κ ρ) (w : Watch ρ) : Prop
  /-- It was not aborted. -/
  | before (hw : w = {}) (haborted : x.sending.call.aborted = none)
  /-- It was aborted and goes on: what is outstanding was outstanding then, or it is the one
  operation that was started since. -/
  | pursued (why : ClientError) (hfirst : w.first = some why)
      (hrunning : x.sending.call.finished = false) (haborted : x.sending.call.aborted = some why)
      (hnothing : w.connects = 0 ∧ w.octets = 0 ∧ w.rejected = false)
      (hearly : x.sending.call.begun = false → why = .closed ∧ x.closed = true)
      (hsince : w.since = 0 ∧ w.shut = x.sending.call.conn.isSome ∧ w.onShut = false ∨
        w.since = 1 ∧ w.onShut = x.sending.call.conn.isSome ∧ x.sending.call.begun = true)
  /-- It was aborted and is over. -/
  | ended (why : ClientError) (hfirst : w.first = some why)
      (hfinished : x.sending.call.finished = true) (hnothing : w.connects = 0 ∧ w.octets = 0)
      (hdecided : w.rejected = false → Decided why w x.sending.call.promise)
      (hrejected : w.rejected = true → why = .closed ∧ ∃ error ∈ [.invalidUrl, .unsupportedScheme],
        x.sending.call.promise = [.error (.client error)])

/-- The invariant of a call on its strand and of the notes on it. -/
structure Pursues (onComplete : Bool) (x : Strand κ ρ) (w : Watch ρ) : Prop where
  settled : x.sending.call.Settled onComplete
  wired : x.sending.call.Wired
  queue : x.Queue
  fits : Fits x w

section Steps

variable {x y : Strand κ ρ} {w : Watch ρ} {e : Event κ ρ} {n : ℕ}

/-- The notes on a call that stays as it is. -/
theorem Fits.of_eq (h : Fits x w) (hcall : y.sending.call = x.sending.call)
    (hclosed : x.closed = true → y.closed = true) : Fits y w := by
  cases h with
  | before hw haborted => exact .before hw (hcall ▸ haborted)
  | pursued why hfirst hrunning haborted hnothing hearly hsince =>
    rw [← hcall] at hrunning haborted hearly hsince
    exact .pursued why hfirst hrunning haborted hnothing
      (fun hbegun ↦ ⟨(hearly hbegun).1, hclosed (hearly hbegun).2⟩) hsince
  | ended why hfirst hfinished hnothing hdecided hrejected =>
    rw [← hcall] at hfinished hdecided hrejected
    exact .ended why hfirst hfinished hnothing hdecided hrejected

/-- An abort runs. -/
theorem Fits.abort (h : Fits x w) {why : ClientError}
    (hy : x.Handles (.abort why) n y)
    (hearly : x.sending.call.begun = false → why = .closed ∧ x.closed = true) :
    Fits y (w.after x (.handle (.abort why) n) y) := by
  have hcall : y.sending.call = x.sending.call.abort why := (Option.some.inj hy.call).symm
  -- A second abort does nothing, nor does one that comes too late.
  have hagain (hdone : (x.sending.call.finished || x.sending.call.aborted.isSome) = true)
      (hnoted : (x.sending.call.finished || w.first.isSome) = true) :
      Fits y (w.after x (.handle (.abort why) n) y) := by
    rw [Watch.after, if_pos hnoted]
    refine h.of_eq ?_ (hy.closed ▸ id)
    rw [hcall, Call.abort, if_pos hdone]
  cases id h with
  | before hw haborted =>
    cases hfinished : x.sending.call.finished with
    | true => exact hagain (by rw [hfinished]; rfl) (by rw [hfinished]; rfl)
    | false =>
      have hnone : ¬(x.sending.call.finished || x.sending.call.aborted.isSome) = true := by
        rw [hfinished, haborted]
        exact Bool.false_ne_true
      rw [Call.abort, if_neg hnone] at hcall
      subst hw
      rw [Watch.after, hfinished]
      refine .pursued why rfl (by rw [hcall]; exact hfinished) (by rw [hcall]) ⟨rfl, rfl, rfl⟩ ?_
        (Or.inl ⟨rfl, by rw [hcall]; rfl, rfl⟩)
      rw [hcall, hy.closed]
      exact hearly
  | pursued why' hfirst hrunning haborted =>
    exact hagain (by rw [haborted]; exact Bool.or_true _) (by rw [hfirst]; exact Bool.or_true _)
  | ended why' hfirst hfinished =>
    exact hagain (by rw [hfinished]; rfl) (by rw [hfinished]; rfl)

/-- What the observer notes of a completion: nothing before the first abort. -/
theorem Watch.after_complete {op : Op} (hop : e.op = some op) (w : Watch ρ) (x y : Strand κ ρ)
    (n : ℕ) : w.after x (.handle e n) y = if w.first.isNone then w else { w with
      since := w.since + 1
      onShut := w.shut && e.source.isNone && y.sending.call.conn.isSome
      read := if w.since = 0 then e.message else w.read
      rejected := w.rejected || e.rejects
      connects := w.connects + if .connect ∈ y.sending.call.pending then 1 else 0
      octets := w.octets + if w.since = 0 then 0 else n } := by
  cases e with
  | abort why => cases hop
  | _ => rfl

/-- begin() has run if and only if an asynchronous operation is outstanding. -/
theorem Pursues.begun_eq (h : Pursues onComplete x w) {op : Op} (hop : e.op = some op)
    (hy : x.Handles e n y) : x.sending.call.begun = op.isStep := by
  obtain ⟨hmem, -⟩ := Call.handle_of_step hop hy.call
  rcases h.settled with ⟨-, ⟨op', hpending, hstep⟩, -⟩ | ⟨-, hpending, -⟩
  · rw [hpending, List.mem_singleton] at hmem
    rw [hmem, hstep]
  · rw [hpending] at hmem
    exact absurd hmem List.not_mem_nil

/-- A call that is aborted ends with the abort's error or with a response, unless its URL is
rejected. -/
theorem Call.Decides.of_not_rejects {why : ClientError} {result : Result ρ}
    (h : Call.Decides e why result) (hrejects : e.rejects = false)
    (hrefuse : e = .refuse → why = .closed) :
    result = .error (.client why) ∨ ∃ message, e.message = some message ∧
      message.isDone = true ∧ result = .response message.response := by
  cases e with
  | begin target idle =>
    rcases target with ec | target
    · cases hrejects
    · exact h
  | refuse => exact Or.inl (hrefuse rfl ▸ h)
  | _ => exact h

/-- Only resolving the host needs no connection. -/
theorem Op.eq_resolve {op : Op} : op.isStep = true → op.onSocket = false → op = .resolve := by
  cases op <;> decide

/-- The operation that was started since fails, or is to resolve the host. -/
theorem Pursues.second (h : Pursues onComplete x w) {op : Op} (hop : e.op = some op)
    (hy : x.Handles e n y) (hassumed : Assumed w (.handle e n))
    (hshut : w.onShut = x.sending.call.conn.isSome) (hbegun : x.sending.call.begun = true) :
    n = 0 ∧ e.message = none ∧ ∀ op', ¬Call.Follows e op' := by
  have hstep : op.isStep = true := (h.begun_eq hop hy).symm.trans hbegun
  have hconn := h.wired op (Call.handle_of_step hop hy.call).1
  cases hsocket : op.onSocket with
  | true =>
    obtain ⟨hfails, hn⟩ := hassumed.1 (hshut.trans (hconn.trans hsocket)) (by rw [hop]; rfl)
    refine ⟨hn, ?_⟩
    cases e with
    | begin => cases hfails
    | refuse => cases hfails
    | abort => cases hfails
    | headerRead result now =>
      rcases result with failure | message
      · exact ⟨rfl, fun op' hfollows ↦ absurd hfollows.1 nofun⟩
      · cases hfails
    | bodyRead result now =>
      rcases result with ec | message
      · exact ⟨rfl, fun op' hfollows ↦ absurd hfollows.1 nofun⟩
      · cases hfails
    | _ => exact ⟨rfl, fun op' hfollows ↦
        Bool.false_ne_true (hfollows.1.symm.trans hfails)⟩
  | false =>
    obtain rfl := Op.eq_resolve hstep hsocket
    cases e with
    | resolved result =>
      refine ⟨eq_of_beq hy.allows, rfl, fun op' hfollows ↦ ?_⟩
      rcases result with ec | conn
      · exact absurd hfollows.1 nofun
      · exact absurd hfollows.2.1 nofun
    | _ => cases hop

/-- What an aborted call goes on with uses the connection it had, or is to resolve the host. -/
theorem follows_socket (hy : x.Handles e n y) {op op' : Op} (hop : e.op = some op)
    (hfollows : Call.Follows e op') (hclosed : op = .start → x.closed = true) :
    e.rejects = false ∧ op' ≠ .connect ∧
      (op'.onSocket = true → e.source = none ∧ op.onSocket = true) := by
  cases e with
  | begin target idle =>
    rcases target with ec | target
    · exact hfollows.elim
    · obtain rfl := Option.some.inj hop
      have hidle : idle.isSome = false := by
        have hready : (!(idle.isSome && x.closed)) = true := hy.ready
        rwa [hclosed rfl, Bool.and_true, Bool.not_eq_true'] at hready
      have hresolve : op' = .resolve := by
        rw [Call.Follows, hidle] at hfollows
        exact hfollows
      subst hresolve
      exact ⟨rfl, nofun, fun hsocket ↦ absurd hsocket nofun⟩
  | refuse => exact hfollows.elim
  | abort => cases hop
  | resolved result =>
    rcases result with ec | conn
    · exact absurd hfollows.1 nofun
    · exact absurd hfollows.2.1 nofun
  | _ =>
    obtain rfl := Option.some.inj hop
    exact ⟨rfl, hfollows.2.2.1, fun _ ↦ ⟨rfl, rfl⟩⟩

/-- The outstanding operation completes. -/
theorem Pursues.complete (h : Pursues onComplete x w) {op : Op} (hop : e.op = some op)
    (hy : x.Handles e n y) (hassumed : Assumed w (.handle e n)) :
    Pursues onComplete y (w.after x (.handle e n) y) := by
  obtain ⟨hbegun, haborted, hturns⟩ :=
    Call.turns_of_step h.settled h.wired hop hy.call hassumed.2
  have hwired : y.sending.call.Wired := by
    intro op' hop'
    cases hturns with
    | ended result hfinished hpending hpromise hdecides =>
      rw [hpending] at hop'
      exact absurd hop' List.not_mem_nil
    | on op'' hfinished hpending hpromise hconn hfollows =>
      rw [hpending, List.mem_singleton] at hop'
      exact hop' ▸ hconn
  have hqueue : y.Queue := by
    refine ⟨hy.inFlight ▸ hy.closed ▸ h.queue.1, fun hnot ↦ ?_⟩
    exact absurd (hnot.symm.trans hbegun) Bool.false_ne_true
  refine ⟨h.settled.step hy.call, hwired, hqueue, ?_⟩
  rw [Watch.after_complete hop]
  cases h.fits with
  | before hw hnone =>
    subst hw
    exact .before rfl (haborted.trans hnone)
  | ended why hfirst hfinished =>
    obtain ⟨hmem, -⟩ := Call.handle_of_step hop hy.call
    rw [h.settled.pending_eq_nil hfinished] at hmem
    exact absurd hmem List.not_mem_nil
  | pursued why hfirst hrunning hwhy hnothing hearly hsince =>
    obtain ⟨hconnects, hoctets, hrejected⟩ := hnothing
    rw [hfirst, Option.isNone_some, if_neg Bool.false_ne_true]
    have hnone : (w.octets + if w.since = 0 then 0 else n) = 0 := by
      rcases hsince with ⟨hzero, -⟩ | ⟨-, hshut, hrun⟩
      · rw [if_pos hzero, hoctets]
      · rw [(h.second hop hy hassumed hshut hrun).1, ite_self, hoctets]
    have hread {message : Message ρ} (hmessage : e.message = some message) : w.since = 0 := by
      rcases hsince with ⟨hzero, -⟩ | ⟨-, hshut, hrun⟩
      · exact hzero
      · rw [(h.second hop hy hassumed hshut hrun).2.1] at hmessage
        cases hmessage
    cases hturns with
    | ended result hfinished hpending hpromise hdecides =>
      have hresult := hdecides why hwhy
      refine .ended why rfl hfinished ⟨?_, hnone⟩ (fun hnot ↦ ?_) fun hrejects ↦ ?_
      · dsimp only
        rw [hpending, if_neg List.not_mem_nil, hconnects]
      · have hrefuse : e = .refuse → why = .closed := by
          rintro rfl
          obtain rfl := Option.some.inj hop
          exact (hearly (h.begun_eq hop hy)).1
        rcases hresult.of_not_rejects (Bool.or_eq_false_iff.1 hnot).2 hrefuse with
          rfl | ⟨message, hmessage, hdone, rfl⟩
        · exact Or.inl hpromise
        · refine Or.inr ⟨message, ?_, hdone, hpromise⟩
          dsimp only
          rw [if_pos (hread hmessage), hmessage]
      · dsimp only at hrejects
        rw [hrejected, Bool.false_or] at hrejects
        cases e with
        | begin target idle =>
          rcases target with ec | target
          · obtain rfl := Option.some.inj hop
            refine ⟨(hearly (h.begun_eq hop hy)).1, ?_⟩
            obtain rfl : result = .error ec := hresult
            rcases Bool.or_eq_true _ _ ▸ hy.ready with hec | hec
            · exact ⟨.invalidUrl, by simp, eq_of_beq hec ▸ hpromise⟩
            · exact ⟨.unsupportedScheme, by simp, eq_of_beq hec ▸ hpromise⟩
          · cases hrejects
        | _ => cases hrejects
    | on op' hfinished hpending hpromise hconn hfollows =>
      have hfollows' := hfollows (by rw [hwhy]; rfl)
      rcases hsince with ⟨hzero, hshut, -⟩ | ⟨-, hshut, hrun⟩
      · have hclosed : op = .start → x.closed = true := by
          rintro rfl
          exact (hearly (h.begun_eq hop hy)).2
        obtain ⟨hrejects, hconnect, hsocket⟩ := follows_socket hy hop hfollows' hclosed
        have honShut : (w.shut && e.source.isNone && y.sending.call.conn.isSome) =
            y.sending.call.conn.isSome := by
          cases hop' : op'.onSocket with
          | false => rw [hconn, hop', Bool.and_false]
          | true =>
            obtain ⟨hsource, hbefore⟩ := hsocket hop'
            have hconn' := h.wired op (Call.handle_of_step hop hy.call).1
            rw [hshut, hconn', hbefore, hsource, hconn, hop']
            rfl
        refine .pursued why rfl hfinished (haborted.trans hwhy) ⟨?_, hnone, ?_⟩ (fun hnot ↦ ?_)
          (Or.inr ⟨?_, honShut, hbegun⟩)
        · dsimp only
          rw [hpending, if_neg (mt List.mem_singleton.1 hconnect.symm), hconnects]
        · dsimp only
          rw [hrejected, hrejects]
          rfl
        · exact absurd (hnot.symm.trans hbegun) Bool.false_ne_true
        · dsimp only
          rw [hzero]
      · exact absurd hfollows' ((h.second hop hy hassumed hshut hrun).2.2 op')

/-- **The step lemma**: the notes keep up with the call. -/
theorem Pursues.step (h : Pursues onComplete x w) {a : Act κ ρ} (ha : x.step a = some y)
    (hassumed : Assumed w a) : Pursues onComplete y (w.after x a y) := by
  have helsewhere (hnot : ∀ e n, a ≠ .handle e n) : Pursues onComplete y w := by
    obtain ⟨hqueue, hsending, hclosed⟩ := h.queue.elsewhere ha hnot
    have hcall : y.sending.call = x.sending.call := by rw [hsending]
    exact ⟨hcall ▸ h.settled, hcall ▸ h.wired, hqueue, h.fits.of_eq hcall hclosed⟩
  cases a with
  | handle e n =>
    have hy := Strand.handles_of_step ha
    cases hop : e.op with
    | some op => exact h.complete hop hy hassumed
    | none =>
      cases e with
      | abort why =>
        obtain ⟨hqueue, hearly⟩ := h.queue.abort hy
        have hcall : y.sending.call = x.sending.call.abort why := (Option.some.inj hy.call).symm
        refine ⟨hcall ▸ h.settled.abort why, ?_, hqueue, h.fits.abort hy hearly⟩
        rw [hcall, Call.abort]
        split
        · exact h.wired
        · exact h.wired
      | _ => cases hop
  | _ => exact helsewhere fun e n heq ↦ (by cases heq)

/-- A run goes wrong exactly where begin() rejects the URL after an abort. -/
theorem Watch.rejected_after (w : Watch ρ) (x : Strand κ ρ) (a : Act κ ρ) (y : Strand κ ρ) :
    (w.after x a y).rejected = false ↔ w.rejected = false ∧ ¬RejectsLate w a := by
  cases a with
  | handle e n =>
    cases hop : e.op with
    | none =>
      cases e with
      | abort why =>
        have hnot : ¬RejectsLate w (.handle (.abort why : Event κ ρ) n) := fun h ↦ absurd h.2 nofun
        rw [and_iff_left hnot, Watch.after]
        split <;> rfl
      | _ => cases hop
    | some op =>
      rw [Watch.after_complete hop, RejectsLate]
      cases w.first with
      | none => simp
      | some why => simp
  | _ => exact (and_iff_left id).symm

end Steps

/-- **The first abort decides.** After the first abort of a call no connection is opened and no
octet of the request is written by an operation started since, and two handlers of the call run at
most. It ends with the abort's error, or with a response that had been received completely, exactly
if begin() did not run after the abort and reject the URL. -/
theorem first_abort_decides_iff {x y : Strand κ ρ} {w : Watch ρ}
    (hx : (strandMachine κ ρ onComplete).Init x) (as : List (Act κ ρ))
    (hassumed : (watched κ ρ onComplete).EveryStep (fun z a _ ↦ Assumed z.2 a) (x, {}) as)
    (hrun : (watched κ ρ onComplete).run (x, {}) as = some (y, w)) {why : ClientError}
    (hfirst : w.first = some why) :
    w.connects = 0 ∧ w.octets = 0 ∧ (y.sending.call.finished = false → w.since ≤ 1) ∧
      (y.sending.call.finished = true → (Decided why w y.sending.call.promise ↔
        (watched κ ρ onComplete).EveryStep (fun z a _ ↦ ¬RejectsLate z.2 a) (x, {}) as)) := by
  have hstep : ∀ z a u, Pursues onComplete z.1 z.2 → Assumed z.2 a →
      (watched κ ρ onComplete).step z a = some u → Pursues onComplete u.1 u.2 ∧
        (u.2.rejected = false ↔ z.2.rejected = false ∧ ¬RejectsLate z.2 a) := by
    intro z a u hz hassumed hu
    obtain ⟨ha, hnotes⟩ := Machine.observed_step hu
    rw [hnotes]
    exact ⟨hz.step ha hassumed, Watch.rejected_after z.2 z.1 a u.1⟩
  have hstart : Pursues onComplete x ({} : Watch ρ) := by
    obtain ⟨sending, closed, ⟨call, header, body, hnew, -, rfl⟩, hpending, rfl⟩ := hx
    have hempty : call.conn = none ∧ call.aborted = none := by
      obtain ⟨method, bodySize, onProgress, refused, rfl⟩ := hnew
      exact ⟨rfl, rfl⟩
    refine ⟨Call.Settled.reachable (Machine.Reachable.init hnew), fun op hop ↦ ?_,
      ⟨nofun, fun _ ↦ ⟨[], nofun, Or.inl ⟨rfl, rfl⟩⟩⟩, .before rfl hempty.2⟩
    rw [hpending, List.mem_singleton] at hop
    subst hop
    show call.conn.isSome = _
    rw [hempty.1]
    cases closed <;> rfl
  obtain ⟨hend, hiff⟩ : Pursues onComplete y w ∧ _ :=
    Machine.everyStep_iff hstep hstart as hassumed hrun
  have hclean : w.rejected = false ↔
      (watched κ ρ onComplete).EveryStep (fun z a _ ↦ ¬RejectsLate z.2 a) (x, {}) as :=
    hiff.trans (and_iff_right rfl)
  rw [← hclean]
  cases hend.fits with
  | before hw =>
    rw [hw] at hfirst
    cases hfirst
  | pursued why' _ hrunning _ hnothing _ hsince =>
    refine ⟨hnothing.1, hnothing.2.1, fun _ ↦ ?_, fun hfinished ↦ ?_⟩
    · rcases hsince with ⟨hzero, -⟩ | ⟨hone, -⟩
      · exact hzero.trans_le zero_le_one
      · exact hone.le
    · exact absurd (hrunning.symm.trans hfinished) Bool.false_ne_true
  | ended why' hwhy hfinished hnothing hdecided hrejected =>
    obtain rfl := Option.some.inj (hwhy.symm.trans hfirst)
    refine ⟨hnothing.1, hnothing.2, fun hrunning ↦ ?_, fun _ ↦ ⟨fun hpromise ↦ ?_, hdecided⟩⟩
    · exact absurd (hrunning.symm.trans hfinished) Bool.false_ne_true
    · by_contra hnot
      obtain ⟨rfl, error, herror, heq⟩ := hrejected (Bool.not_eq_false _ ▸ hnot)
      rcases hpromise with hclosed | ⟨message, -, -, hresponse⟩
      · obtain rfl : error = .closed := by simpa using heq.symm.trans hclosed
        exact absurd herror (by decide)
      · rw [heq] at hresponse
        cases hresponse

/-- A GET as send() makes it. -/
def getting : Strand Unit Unit where
  sending := { call := { method := .get, bodySize := 0 }, header := ['h'], body := [] }
  closed := false

/-- It is cancelled while it connects, with the success queued already, and then the client is
destroyed: the write starts on the closed socket. -/
def cancelledConnecting : List (Act Unit Unit) :=
  [.dispatch, .handle (.begin (.ok ⟨[], false⟩) none) 0, .handle (.resolved (.ok ())) 0, .cancel,
    .close, .evict, .handle (.abort .cancelled) 0, .handle (.abort .closed) 0,
    .handle (.connected (.ok (.ok ()))) 0, .handle (.headerWritten (.error (.other 9)) 0) 0]

theorem first_abort_decides_iff_cancelled : ∃ y w,
    (watched Unit Unit true).run (getting, {}) cancelledConnecting = some (y, w) ∧
      Decided .cancelled w y.sending.call.promise := by
  have hnew : (strandMachine Unit Unit true).Init getting :=
    ⟨_, false, ⟨_, _, _, ⟨.get, 0, false, false, rfl⟩, rfl, rfl⟩, rfl, rfl⟩
  exact ⟨_, _, rfl, ((first_abort_decides_iff hnew cancelledConnecting (by decide +kernel) rfl
    rfl).2.2.2 rfl).2 (by decide +kernel)⟩

/-- ~HttpClient comes before begin(), which rejects the URL. -/
def closedBeforeBegin : List (Act Unit Unit) :=
  [.close, .evict, .handle (.abort .closed) 0, .dispatch,
    .handle (.begin (.error (.client .invalidUrl)) none) 0]

theorem rejected_after_abort : ∃ y w, (strandMachine Unit Unit true).Init getting ∧
    (watched Unit Unit true).EveryStep (fun z a _ ↦ Assumed z.2 a) (getting, {})
      closedBeforeBegin ∧
    (watched Unit Unit true).run (getting, {}) closedBeforeBegin = some (y, w) ∧
    w.first = some .closed ∧ y.sending.call.finished = true ∧
    ¬Decided .closed w y.sending.call.promise := by
  refine ⟨_, _, ⟨_, false, ⟨_, _, _, ⟨.get, 0, false, false, rfl⟩, rfl, rfl⟩, rfl, rfl⟩,
    by decide +kernel, rfl, rfl, rfl, ?_⟩
  rintro (hclosed | ⟨message, hread, -⟩)
  · cases hclosed
  · cases hread

end CppGate.HttpClient
