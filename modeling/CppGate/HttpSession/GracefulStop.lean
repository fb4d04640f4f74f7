import CppGate.HttpSession.Session

/-!
# The graceful stop of a session

A session that is asked to stop while it waits for a client that has sent nothing ends at once:
on_stop() cancels the wait. A stop is lost when the session waits for such a client after on_stop()
has run, since nothing else ends that wait before its timeout.

on_stop() looks at the session once. Whether a wait that begins later heeds the stop is up to the
handler that begins it: on_write() asks stopping(), on_run(), on_detect() and on_handshake() do not,
and an operation that goes on cannot. These are the steps in `waitsAgain`, and a stop is lost
exactly where one of them is taken after on_stop() (`stop_heeded`).

What carries the induction is that a session does one thing at a time (`Session.work`), so that a
handler finds nothing outstanding, and that the flags on_stop() looks at describe the one operation
there is (`Waits`).
-/

namespace CppGate.HttpSession

open Http

/-! ### Lost stops -/

/-- An operation that waits for a client that has sent nothing of a request. -/
def silent (s : Session) : Kind → Bool
  | .detect | .handshake => true
  | .header => !s.gotSome
  | _ => false

/-- **A lost stop**: on_stop() has run, and an operation that waits for a client that has sent
nothing is outstanding, neither completed nor cancelled. -/
def Lost (s : Session) : Prop :=
  s.stopping = true ∧ s.stopRan = true ∧
    ∃ operation ∈ s.operations, operation.done = none ∧ silent s operation.kind = true

/-- The handlers after which the session waits for a client that has sent nothing: TLS was detected,
the handshake succeeded and left nothing in the buffer, or only a part of such a wait completed. -/
def waitsAfter (cfg : Config) (s : Session) (kind : Kind) : Completion → Bool
  | .part bytes => silent s kind && !(kind == .header && bytes)
  | .error _ _ => false
  | .success found =>
    match kind with
    | .detect => found.tls && cfg.withSsl
    | .handshake => !found.left
    | _ => false

/-- The steps after which it does: these, and on_run(). -/
def waitsAgain (cfg : Config) (s : Session) : Action → Bool
  | .task => s.tasks.head? == some .run
  | .handle kind c => waitsAfter cfg s kind c
  | _ => false

/-- Once on_stop() has run, the session does not begin to wait for the client. -/
def Heeds (cfg : Config) (s : Session) (action : Action) : Prop :=
  s.stopRan = true → waitsAgain cfg s action = false

/-! ### The invariant -/

/-- run() has not dispatched on_run() yet. -/
def Launch.pending : Launch → ℕ
  | .created | .added => 1
  | .launched | .refused => 0

/-- What the session has to do next on its strand, besides stopping. -/
def Session.work (s : Session) : ℕ :=
  s.launch.pending + s.tasks.countP (· != .stop) + s.operations.length

/-- What on_stop() finds while an operation of a kind has not been handled. -/
def Waits (s : Session) : Kind → Prop
  | .detect | .handshake => s.waiting = true ∧ s.parser = none
  | .header => s.waiting = true
  | _ => True

/-- The registry is stopping if the session hears of a stop. -/
def Informed (s : Session) : Prop :=
  s.stopRan = true ∨ 0 < s.stoppers ∨ .stop ∈ s.tasks → s.stopping = true

/-- The invariant of a session, whether or not it heeds its stop. -/
structure Inv (s : Session) : Prop where
  single : s.work ≤ 1
  waits : ∀ operation ∈ s.operations, Waits s operation.kind
  fresh : 0 < s.launch.pending ∨ .run ∈ s.tasks → s.parser = none
  informed : Informed s

/-- After on_stop(), nothing silent is outstanding. -/
def Heard (s : Session) : Prop :=
  s.stopRan = true →
    ∀ operation ∈ s.operations, operation.done = none → silent s operation.kind = false

/-- A stop is lost exactly if the session has not heard it. -/
theorem lost_iff {s : Session} (h : Inv s) : Lost s ↔ ¬Heard s := by
  unfold Lost Heard
  constructor
  · rintro ⟨-, hran, operation, hmem, hdone, hsilent⟩ hheard
    rw [hheard hran operation hmem hdone] at hsilent
    exact absurd hsilent Bool.false_ne_true
  · intro hheard
    push Not at hheard
    obtain ⟨hran, operation, hmem, hdone, hsilent⟩ := hheard
    refine ⟨h.informed (Or.inl hran), hran, operation, hmem, hdone, ?_⟩
    rwa [← Bool.not_eq_false]

/-- A handler runs: nothing else is left to do. -/
structure Idle (s : Session) : Prop where
  work : s.work = 0
  informed : Informed s

variable {s : Session} {beast : Beast}

theorem Idle.operations (h : Idle s) : s.operations = [] := by
  have hwork := h.work
  unfold Session.work at hwork
  exact List.length_eq_zero_iff.1 (by omega)

theorem Idle.launch (h : Idle s) : ¬0 < s.launch.pending := by
  have hwork := h.work
  unfold Session.work at hwork
  omega

theorem Idle.tasks (h : Idle s) {task : Task} (htask : task ∈ s.tasks) : task = .stop := by
  have hwork := h.work
  unfold Session.work at hwork
  have hcount : s.tasks.countP (· != .stop) = 0 := by omega
  simpa only [bne_iff_ne, ne_eq, Decidable.not_not] using
    List.countP_eq_zero.1 hcount task htask

theorem Idle.fresh (h : Idle s) {P : Prop} : 0 < s.launch.pending ∨ .run ∈ s.tasks → P := by
  rintro (hlaunch | htask)
  · exact absurd hlaunch h.launch
  · exact absurd (h.tasks htask) nofun

/-! ### What a handler leaves behind -/

/-- The handler ends the session's work. -/
theorem Idle.inv (h : Idle s) : Inv s where
  single := h.work ▸ Nat.zero_le 1
  waits := by
    rw [h.operations]
    exact fun _ hmem ↦ absurd hmem List.not_mem_nil
  fresh := h.fresh
  informed := h.informed

/-- With nothing outstanding no stop is lost. -/
theorem Idle.heard (h : Idle s) : Heard s := by
  intro _ operation hmem
  rw [h.operations] at hmem
  exact absurd hmem List.not_mem_nil

/-- The handler starts an operation. -/
theorem Idle.inv_start (h : Idle s) {kind : Kind} (hwaits : Waits s kind) : Inv (s.start kind) where
  single := by
    have hwork := h.work
    show s.work + 1 ≤ 1
    omega
  waits := by
    show ∀ operation ∈ ({ kind := kind } : Operation) :: s.operations, Waits s operation.kind
    rw [h.operations]
    exact List.forall_mem_singleton.2 hwaits
  fresh := h.fresh
  informed := h.informed

/-- After on_stop(), what the handler starts must not be silent. -/
theorem Idle.heard_start (h : Idle s) (kind : Kind) :
    Heard (s.start kind) ↔ (s.stopRan = true → silent s kind = false) := by
  show (s.stopRan = true → ∀ operation ∈ ({ kind := kind } : Operation) :: s.operations,
    operation.done = none → silent s operation.kind = false) ↔ _
  rw [h.operations]
  simp only [List.mem_singleton, forall_eq, forall_const]

theorem work_post (s : Session) {task : Task} (htask : task ≠ .stop) :
    (s.post task).work = s.work + 1 := by
  have hcount : (s.tasks ++ [task]).countP (· != .stop) = s.tasks.countP (· != .stop) + 1 := by
    rw [List.countP_append, List.countP_singleton, if_pos (bne_iff_ne.2 htask)]
  show _ + (s.tasks ++ [task]).countP (· != .stop) + s.operations.length = _
  rw [hcount, ← Nat.add_assoc, Nat.add_right_comm]
  rfl

theorem mem_post {s : Session} {task task' : Task} (h : task' ∈ (s.post task).tasks) :
    task' ∈ s.tasks ∨ task' = task := by
  rcases List.mem_append.1 h with h | h
  · exact Or.inl h
  · exact Or.inr (List.mem_singleton.1 h)

/-- The handler posts a write. -/
theorem Idle.inv_post (h : Idle s) : Inv (s.post .write) where
  single := by
    have hne : Task.write ≠ .stop := nofun
    have hwork := h.work
    rw [work_post s hne]
    omega
  waits := h.inv.waits
  fresh := by
    rintro (hlaunch | htask)
    · exact absurd hlaunch h.launch
    · rcases mem_post htask with htask | htask
      · exact absurd (h.tasks htask) nofun
      · exact absurd htask nofun
  informed := by
    rintro (hran | hstoppers | htask)
    · exact h.informed (Or.inl hran)
    · exact h.informed (Or.inr (Or.inl hstoppers))
    · rcases mem_post htask with htask | htask
      · exact h.informed (Or.inr (Or.inr htask))
      · exact absurd htask nofun

/-- The invariant of a session that has not lost a stop. -/
def Good (s : Session) : Prop :=
  Inv s ∧ Heard s

/-- A handler that does nothing more leaves no stop lost. -/
theorem Idle.good (h : Idle s) : Good s :=
  ⟨h.inv, h.heard⟩

theorem Idle.good_post (h : Idle s) : Good (s.post .write) :=
  have hheard : Heard s := h.heard
  ⟨h.inv_post, hheard⟩

/-- A handler that starts an operation that is not silent loses no stop. -/
theorem Idle.good_start (h : Idle s) {kind : Kind} (hwaits : Waits s kind)
    (hsilent : silent s kind = false) : Good (s.start kind) :=
  ⟨h.inv_start hwaits, (h.heard_start kind).2 fun _ ↦ hsilent⟩

/-! ### Handlers that never wait for a silent client -/

/-- The drain of do_linger() is not silent. -/
theorem good_doLinger (h : Idle s) : Good (doLinger s) :=
  have h' : Idle { s with lingering := true } := ⟨h.work, h.informed⟩
  h'.good_start trivial rfl

theorem good_doEof (h : Idle s) : Good (doEof s) := by
  unfold doEof
  split <;> split
  · exact good_doLinger h
  · exact h.good_start trivial rfl
  · exact good_doLinger h
  · exact h.good

theorem good_onLinger (h : Idle s) (c : Completion) : Good (onLinger s c) := by
  unfold onLinger
  split
  · exact h.good_start trivial rfl
  · exact h.good

theorem good_doWrite (h : Idle s) : Good (doWrite s) := by
  unfold doWrite
  split
  · exact h.good
  · exact h.good_post

theorem good_queueWrite (h : Idle s) (response : HttpResponse) : Good (queueWrite s response) := by
  have h' : Idle { s with responseQueue := s.responseQueue ++ [response] } := ⟨h.work, h.informed⟩
  unfold queueWrite
  dsimp only
  split
  · exact good_doWrite h'
  · exact h'.good

theorem good_runWrite (h : Idle s) : Good (runWrite s) := by
  unfold runWrite
  split
  · exact h.good
  · rename_i rest _
    have h' : Idle { s with responseQueue := rest } := ⟨h.work, h.informed⟩
    exact h'.good_start trivial rfl

/-- on_read() answers, or tears down. -/
theorem good_onRead (h : Idle s) (c : Completion) : Good (onRead beast s c) := by
  have h' : Idle { s with waiting := false } := ⟨h.work, h.informed⟩
  unfold onRead
  dsimp only
  split
  · exact good_doEof h'
  · split
    · have herror : Idle { s with waiting := false, linger := true } := ⟨h.work, h.informed⟩
      exact good_queueWrite herror _
    · exact h'.good
  · rename_i found
    have hfound : Idle { s with waiting := false, buffered := found.left } := ⟨h.work, h.informed⟩
    split
    · exact hfound.good
    split
    · exact good_queueWrite hfound _
    · exact hfound.good
  · exact h'.good

theorem good_onReadHeader (h : Idle s) (c : Completion) : Good (onReadHeader beast s c) := by
  unfold onReadHeader
  split
  · rename_i found
    have h' : Idle { s with parser := some { gotSome := true }, buffered := found.left } :=
      ⟨h.work, h.informed⟩
    dsimp only
    split <;> exact h'.good_start trivial rfl
  · exact good_onRead h c

theorem good_onContinue (h : Idle s) (c : Completion) : Good (onContinue s c) := by
  unfold onContinue
  split
  · exact h.good_start trivial rfl
  · exact h.good

/-! ### Handlers that may wait for a silent client -/

/-- do_read() begins to wait for the next request. -/
theorem inv_doRead (h : Idle s) : Inv (doRead s) :=
  have h' : Idle { s with waiting := true, parser := some { gotSome := s.buffered } } :=
    ⟨h.work, h.informed⟩
  h'.inv_start rfl

/-- A read is silent as long as the buffer holds nothing for it. -/
theorem heard_doRead (h : Idle s) : Heard (doRead s) ↔ (s.stopRan = true → s.buffered = true) := by
  have h' : Idle { s with waiting := true, parser := some { gotSome := s.buffered } } :=
    ⟨h.work, h.informed⟩
  refine (h'.heard_start .header).trans (forall_congr' fun _ ↦ ?_)
  show (!s.buffered) = false ↔ s.buffered = true
  rw [Bool.not_eq_false']

/-- **After a response** the session asks whether it is stopping before it reads again. -/
theorem good_onWrite (h : Idle s) (keepAlive : Bool) (c : Completion) :
    Good (onWrite s keepAlive c) := by
  unfold onWrite
  split
  · split
    · split
      · rename_i hgo
        refine ⟨inv_doRead h, (heard_doRead h).2 fun hran ↦ ?_⟩
        rw [h.informed (Or.inl hran), Bool.not_true, Bool.and_false] at hgo
        exact absurd hgo Bool.false_ne_true
      · exact good_doEof h
    · exact good_doWrite h
  · exact good_doEof h

variable {cfg : Config}

/-- What a step should leave behind: the invariant, and a lost stop only if it is one of the steps
that lose one. -/
def Settles (cfg : Config) (s : Session) (action : Action) (t : Session) : Prop :=
  Inv t ∧ (Heard t ↔ Heeds cfg s action)

theorem Good.settles {t : Session} (h : Good t) {action : Action}
    (hno : waitsAgain cfg s action = false) : Settles cfg s action t :=
  ⟨h.1, iff_of_true h.2 fun _ ↦ hno⟩

/-- on_detect() loses a stop only where it begins to wait for the handshake. -/
theorem settles_onDetect (h : Idle s) (hparser : s.parser = none) (found : Found) :
    Settles cfg s (.handle .detect (.success found)) (onDetect cfg s (.success found)) := by
  have h' : Idle { s with waiting := false, buffered := true } := ⟨h.work, h.informed⟩
  unfold Settles onDetect Heeds waitsAgain waitsAfter
  dsimp only
  cases found.tls with
  | true =>
    rw [if_pos rfl, Bool.true_and]
    cases cfg.withSsl with
    | true =>
      have htls : Idle { s with waiting := true, buffered := true, stream := .tls } :=
        ⟨h.work, h.informed⟩
      rw [if_pos rfl]
      exact ⟨htls.inv_start ⟨rfl, hparser⟩, htls.heard_start .handshake⟩
    | false =>
      rw [if_neg Bool.false_ne_true]
      exact ⟨h'.inv, iff_of_true h'.heard fun _ ↦ rfl⟩
  | false =>
    rw [if_neg Bool.false_ne_true, Bool.false_and]
    cases cfg.withPlain with
    | true =>
      rw [if_pos rfl]
      exact ⟨inv_doRead h', iff_of_true ((heard_doRead h').2 fun _ ↦ rfl) fun _ ↦ rfl⟩
    | false =>
      rw [if_neg Bool.false_ne_true]
      exact ⟨h'.inv, iff_of_true h'.heard fun _ ↦ rfl⟩

/-- on_handshake() loses a stop only where nothing is left in the buffer. -/
theorem settles_onHandshake (h : Idle s) (found : Found) :
    Settles cfg s (.handle .handshake (.success found)) (onHandshake s (.success found)) := by
  have h' : Idle { s with waiting := false, buffered := found.left } := ⟨h.work, h.informed⟩
  refine ⟨inv_doRead h', (heard_doRead h').trans (forall_congr' fun _ ↦ ?_)⟩
  show found.left = true ↔ (!found.left) = false
  rw [Bool.not_eq_false']

/-- An operation that goes on waits as before, for a client that has sent as much. -/
theorem settles_goOn (h : Idle s) (kind : Kind) (bytes : Bool) (hwaits : Waits s kind) :
    Settles cfg s (.handle kind (.part bytes)) (goOn s kind bytes) := by
  unfold goOn
  split
  · rename_i hbytes
    obtain ⟨rfl, rfl⟩ := hbytes
    have h' : Idle { s with parser := some { gotSome := true } } := ⟨h.work, h.informed⟩
    have hgood : Good (Session.start { s with parser := some { gotSome := true } } .header) :=
      h'.good_start hwaits rfl
    exact hgood.settles (Bool.and_false _)
  · rename_i hbytes
    refine ⟨h.inv_start hwaits, (h.heard_start kind).trans (forall_congr' fun _ ↦ ?_)⟩
    have hno : (kind == .header && bytes) = false := by
      rw [← Bool.not_eq_true, Bool.and_eq_true, beq_iff_eq]
      exact hbytes
    show silent s kind = false ↔ (silent s kind && !(kind == .header && bytes)) = false
    rw [hno, Bool.not_false, Bool.and_true]

variable (cfg) in
/-- **One handler**, whatever the operation completed with. -/
theorem settles_handle (h : Idle s) (kind : Kind) (c : Completion) (hwaits : Waits s kind) :
    Settles cfg s (.handle kind c) (handle cfg s kind c) := by
  have h' : Idle { s with waiting := false } := ⟨h.work, h.informed⟩
  cases c with
  | part bytes => exact settles_goOn h kind bytes hwaits
  | error ec targetEmpty =>
    have hno : waitsAgain cfg s (.handle kind (.error ec targetEmpty)) = false := rfl
    refine Good.settles ?_ hno
    cases kind with
    | detect => exact h'.good
    | handshake => exact h'.good
    | header => exact good_onReadHeader h (.error ec targetEmpty)
    | continueWrite => exact good_onContinue h (.error ec targetEmpty)
    | body => exact good_onRead h (.error ec targetEmpty)
    | write response => exact good_onWrite h (response.keepAlive cfg.beast) (.error ec targetEmpty)
    | linger => exact good_onLinger h (.error ec targetEmpty)
    | shutdown => exact h.good
  | success found =>
    cases kind with
    | detect => exact settles_onDetect h hwaits.2 found
    | handshake => exact settles_onHandshake h found
    | header =>
      have hgood : Good (onReadHeader cfg.beast s (.success found)) := good_onReadHeader h _
      exact hgood.settles rfl
    | continueWrite => exact (good_onContinue h (.success found)).settles rfl
    | body =>
      have hgood : Good (onRead cfg.beast s (.success found)) := good_onRead h _
      exact hgood.settles rfl
    | write response => exact (good_onWrite h _ (.success found)).settles rfl
    | linger => exact (good_onLinger h (.success found)).settles rfl
    | shutdown => exact h.good.settles rfl

/-! ### Steps and runs -/

/-- A handler takes its operation away. -/
theorem work_without {operation : Operation} (hmem : operation ∈ s.operations) :
    (s.without operation).work + 1 = s.work := by
  show s.launch.pending + s.tasks.countP (· != .stop) + (s.operations.erase operation).length + 1 =
    s.launch.pending + s.tasks.countP (· != .stop) + s.operations.length
  rw [← List.length_erase_add_one hmem, Nat.add_assoc]

theorem work_of_tasks {task : Task} {tasks : List Task} (ht : s.tasks = task :: tasks)
    (htask : task ≠ .stop) : ({ s with tasks := tasks } : Session).work + 1 = s.work := by
  have hcount : s.tasks.countP (· != .stop) = tasks.countP (· != .stop) + 1 := by
    rw [ht, List.countP_cons, if_pos (bne_iff_ne.2 htask)]
  show s.launch.pending + tasks.countP (· != .stop) + s.operations.length + 1 =
    s.launch.pending + s.tasks.countP (· != .stop) + s.operations.length
  rw [hcount]
  omega

/-- While the handler of an operation runs nothing else is left to do. -/
theorem Inv.idle_without (h : Inv s) {operation : Operation} (hmem : operation ∈ s.operations) :
    Idle (s.without operation) where
  work := by
    have hwork := work_without hmem
    have hsingle := h.single
    omega
  informed := h.informed

theorem Informed.tail {task : Task} {tasks : List Task} (h : Informed s)
    (ht : s.tasks = task :: tasks) : Informed { s with tasks := tasks } := by
  rintro (hran | hstoppers | hmem)
  · exact h (Or.inl hran)
  · exact h (Or.inr (Or.inl hstoppers))
  · refine h (Or.inr (Or.inr ?_))
    rw [ht]
    exact List.mem_cons_of_mem task hmem

theorem Inv.idle_task (h : Inv s) {task : Task} {tasks : List Task} (ht : s.tasks = task :: tasks)
    (htask : task ≠ .stop) : Idle { s with tasks := tasks } where
  work := by
    have hwork := work_of_tasks ht htask
    have hsingle := h.single
    omega
  informed := h.informed.tail ht

/-- **The beginning** waits for the client, whether or not on_stop() has run. -/
theorem inv_onRun (h : Idle s) (hparser : s.parser = none) : Inv (onRun s) := by
  have h' : Idle { s with waiting := true } := ⟨h.work, h.informed⟩
  unfold onRun
  dsimp only
  split <;> exact h'.inv_start ⟨rfl, hparser⟩

/-- on_run() begins to wait: a stop that has run is lost. -/
theorem heard_onRun (h : Idle s) : Heard (onRun s) ↔ (s.stopRan = true → true = false) := by
  have h' : Idle { s with waiting := true } := ⟨h.work, h.informed⟩
  unfold onRun
  dsimp only
  split
  · exact h'.heard_start .detect
  · exact h'.heard_start .handshake

/-- What is silent is what on_stop() looks for. -/
theorem waiting_of_silent {kind : Kind} (hwaits : Waits s kind) (hsilent : silent s kind = true) :
    s.waiting = true ∧ s.gotSome = false := by
  cases kind with
  | detect => exact ⟨hwaits.1, by rw [Session.gotSome, hwaits.2, Option.any_none]⟩
  | handshake => exact ⟨hwaits.1, by rw [Session.gotSome, hwaits.2, Option.any_none]⟩
  | header => exact ⟨hwaits, Bool.not_eq_eq_eq_not.1 hsilent⟩
  | continueWrite | body | write | linger | shutdown => exact absurd hsilent Bool.false_ne_true

theorem cancelled_done (operation : Operation) : operation.cancelled.done ≠ none := by
  unfold Operation.cancelled
  split
  · exact Option.some_ne_none _
  · assumption

theorem cancelled_kind (operation : Operation) : operation.cancelled.kind = operation.kind := by
  unfold Operation.cancelled
  split <;> rfl

/-- Cancelling leaves the handlers to run. -/
theorem inv_cancel (h : Inv s) : Inv (cancel s) where
  single := by
    show _ + _ + (s.operations.map Operation.cancelled).length ≤ 1
    rw [List.length_map]
    exact h.single
  waits := by
    intro operation hmem
    obtain ⟨before, hbefore, rfl⟩ := List.mem_map.1 hmem
    rw [cancelled_kind]
    exact h.waits before hbefore
  fresh := h.fresh
  informed := h.informed

/-- After the cancelling of on_stop() nothing waits for the client. -/
theorem heard_cancel (s : Session) : Heard (cancel s) := by
  intro _ operation hmem hdone
  obtain ⟨before, -, rfl⟩ := List.mem_map.1 hmem
  exact absurd hdone (cancelled_done before)

/-- **on_stop()** leaves nothing silent outstanding. -/
theorem good_onStop (h : Inv s) (hstopping : s.stopping = true) : Good (onStop s) := by
  have h' : Inv { s with stopRan := true } := ⟨h.single, h.waits, h.fresh, fun _ ↦ hstopping⟩
  unfold onStop
  dsimp only
  split
  · exact ⟨inv_cancel h', heard_cancel _⟩
  · rename_i hgo
    refine ⟨h', fun _ operation hmem _ ↦ ?_⟩
    rw [← Bool.not_eq_true]
    intro hsilent
    obtain ⟨hwaiting, hgot⟩ := waiting_of_silent (h.waits operation hmem) hsilent
    refine hgo ?_
    show (s.lingering || s.waiting && !s.gotSome) = true
    rw [hwaiting, hgot, Bool.not_false, Bool.and_self, Bool.or_true]

/-- While on_stop() runs the operations are outstanding as before. -/
theorem Inv.tail_stop {tasks : List Task} (h : Inv s) (ht : s.tasks = .stop :: tasks) :
    Inv { s with tasks := tasks } where
  single := by
    have hsingle := h.single
    unfold Session.work at hsingle
    rw [ht, List.countP_cons_of_neg (by decide)] at hsingle
    exact hsingle
  waits := h.waits
  fresh := fun hfresh ↦ h.fresh (hfresh.imp_right fun hmem ↦ by
    rw [ht]
    exact List.mem_cons_of_mem _ hmem)
  informed := h.informed.tail ht

variable (cfg) in
/-- A posted task runs. -/
theorem settles_task {task : Task} {tasks : List Task} (h : Inv s) (ht : s.tasks = task :: tasks) :
    Settles cfg s .task (runTask { s with tasks := tasks } task) := by
  have hagain : waitsAgain cfg s .task = (task == .run) := by
    unfold waitsAgain
    rw [ht, List.head?_cons, Option.some_beq_some]
  cases task with
  | run =>
    have hidle : Idle { s with tasks := tasks } := h.idle_task ht nofun
    have hparser : s.parser = none := h.fresh (Or.inr (ht ▸ List.mem_cons_self))
    refine ⟨inv_onRun hidle hparser, ?_⟩
    unfold Heeds
    rw [hagain]
    exact heard_onRun hidle
  | stop =>
    have hstopping : s.stopping = true :=
      h.informed (Or.inr (Or.inr (ht ▸ List.mem_cons_self)))
    exact (good_onStop (h.tail_stop ht) hstopping).settles hagain
  | write =>
    have hidle : Idle { s with tasks := tasks } := h.idle_task ht nofun
    exact (good_runWrite hidle).settles hagain

theorem inv_add (h : Inv s) (hlaunch : s.launch = .created) : Inv (add s) := by
  have hsingle := h.single
  unfold Session.work at hsingle
  rw [hlaunch] at hsingle
  have hparser : s.parser = none := h.fresh (Or.inl (by rw [hlaunch]; exact Nat.one_pos))
  unfold add
  split
  · have hsingle' : 0 + s.tasks.countP (· != .stop) + s.operations.length ≤ 1 := by
      have hpending : Launch.created.pending = 1 := rfl
      omega
    exact ⟨hsingle', h.waits, fun _ ↦ hparser, h.informed⟩
  · exact ⟨hsingle, h.waits, fun _ ↦ hparser, h.informed⟩

theorem inv_dispatch (h : Inv s) (hlaunch : s.launch = .added) :
    Inv ({ s with launch := .launched }.post .run) := by
  have hsingle := h.single
  unfold Session.work at hsingle
  rw [hlaunch] at hsingle
  have hparser : s.parser = none := h.fresh (Or.inl (by rw [hlaunch]; exact Nat.one_pos))
  have hne : Task.run ≠ .stop := nofun
  refine ⟨?_, h.waits, fun _ ↦ hparser, ?_⟩
  · rw [work_post _ hne]
    show 0 + s.tasks.countP (· != .stop) + s.operations.length + 1 ≤ 1
    have hpending : Launch.added.pending = 1 := rfl
    omega
  · rintro (hran | hstoppers | htask)
    · exact h.informed (Or.inl hran)
    · exact h.informed (Or.inr (Or.inl hstoppers))
    · rcases mem_post htask with htask | htask
      · exact h.informed (Or.inr (Or.inr htask))
      · exact absurd htask nofun

/-- stop() posts on_stop(). -/
theorem inv_stop (h : Inv s) (hstoppers : 0 < s.stoppers) :
    Inv (stop { s with stoppers := s.stoppers - 1 }) := by
  have hstopping : s.stopping = true := h.informed (Or.inr (Or.inl hstoppers))
  refine ⟨?_, h.waits, fun hfresh ↦ h.fresh (hfresh.imp_right fun hmem ↦ ?_), fun _ ↦ hstopping⟩
  · show _ + (s.tasks ++ [Task.stop]).countP (· != Task.stop) + _ ≤ 1
    rw [List.countP_append]
    exact h.single
  · exact (mem_post hmem).resolve_right nofun

theorem inv_finish (h : Inv s) {kind : Kind} (hmem : { kind := kind } ∈ s.operations)
    (c : Completion) : Inv (s.finish kind c) := by
  refine ⟨?_, ?_, h.fresh, h.informed⟩
  · show (s.without { kind := kind }).work + 1 ≤ 1
    rw [work_without hmem]
    exact h.single
  · intro operation hop
    rcases List.mem_cons.1 hop with rfl | hop
    · exact h.waits { kind := kind } hmem
    · exact h.waits operation (List.mem_of_mem_erase hop)

/-- A completion loses no stop. -/
theorem heard_finish (h : Heard s) (kind : Kind) (c : Completion) : Heard (s.finish kind c) := by
  intro hran operation hop hdone
  rcases List.mem_cons.1 hop with rfl | hop
  · exact absurd hdone (Option.some_ne_none c)
  · exact h hran operation (List.mem_of_mem_erase hop) hdone

/-- **One step** keeps the invariant, and loses a stop exactly if it does not heed it. -/
theorem settles_step {action : Action} {t : Session} (h : Inv s)
    (hstep : step cfg s action = some t) :
    Inv t ∧ (Heard s → (Heard t ↔ Heeds cfg s action)) := by
  cases stepped_of_step hstep with
  | run hlaunch =>
    have hheard : Heard s → Heard (add s) := by
      unfold add
      split <;> exact id
    exact ⟨inv_add h hlaunch, fun hs ↦ iff_of_true (hheard hs) fun _ ↦ rfl⟩
  | dispatch hlaunch => exact ⟨inv_dispatch h hlaunch, fun hs ↦ iff_of_true hs fun _ ↦ rfl⟩
  | stopAll =>
    exact ⟨⟨h.single, h.waits, h.fresh, fun _ ↦ rfl⟩, fun hs ↦ iff_of_true hs fun _ ↦ rfl⟩
  | stop hstoppers => exact ⟨inv_stop h hstoppers, fun hs ↦ iff_of_true hs fun _ ↦ rfl⟩
  | task task tasks ht =>
    have hsettles := settles_task cfg h ht
    exact ⟨hsettles.1, fun _ ↦ hsettles.2⟩
  | complete kind c hmem =>
    exact ⟨inv_finish h hmem c, fun hs ↦ iff_of_true (heard_finish hs kind c) fun _ ↦ rfl⟩
  | handle kind c hmem =>
    have hwaits : Waits (s.without { kind := kind, done := some c }) kind := h.waits _ hmem
    have hsettles := settles_handle cfg (h.idle_without hmem) kind c hwaits
    exact ⟨hsettles.1, fun _ ↦ hsettles.2⟩

/-- A new session has heard of no stop. -/
theorem good_init (s : Session) (h : (machine cfg).Init s) : Good s := by
  change s = _ at h
  subst h
  refine ⟨⟨Nat.le_refl 1, fun _ hmem ↦ absurd hmem List.not_mem_nil, fun _ ↦ rfl, ?_⟩,
    fun _ _ hmem ↦ absurd hmem List.not_mem_nil⟩
  rintro (hran | hstoppers | htask)
  · exact absurd hran Bool.false_ne_true
  · exact absurd hstoppers (Nat.lt_irrefl 0)
  · exact absurd htask List.not_mem_nil

/-- A session does one thing at a time. -/
theorem inv_of_reachable (h : (machine cfg).Reachable s) : Inv s :=
  h.invariant (fun s hs ↦ (good_init s hs).1) fun _ _ _ hinv hstep ↦ (settles_step hinv hstep).1

/-- **The run lemma**, for runs whose steps heed the stop. -/
theorem good_of_heeds (h : (machine cfg).ReachableVia (Heeds cfg) s) : Good s :=
  h.invariant good_init fun _ _ _ hgood hheeds hstep ↦
    have hsettles := settles_step hgood.1 hstep
    ⟨hsettles.1, (hsettles.2 hgood.2).2 hheeds⟩

/-- **When a stop is heeded.** In every run that does not begin to wait for the client after
on_stop(), no stop is lost, and a next step loses it exactly if it begins to wait. -/
theorem stop_heeded (h : (machine cfg).ReachableVia (Heeds cfg) s) :
    ¬Lost s ∧ ∀ action t, step cfg s action = some t → (Lost t ↔ ¬Heeds cfg s action) := by
  have hgood := good_of_heeds h
  refine ⟨fun hlost ↦ (lost_iff hgood.1).1 hlost hgood.2, fun action t hstep ↦ ?_⟩
  have hsettles := settles_step hgood.1 hstep
  rw [lost_iff hsettles.1, hsettles.2 hgood.2]

instance (cfg : Config) (s : Session) (action : Action) : Decidable (Heeds cfg s action) :=
  inferInstanceAs (Decidable (_ → _))

/-- Sessions that take both plain and TLS connections. -/
def dual : Config := ⟨true, true, Or.inl rfl, plainBeast⟩

/-- A plain session that answers one request and waits for the next one when it is stopped. -/
def keptAlive : List Action :=
  [.run, .dispatch, .task, .complete .detect (.success {}), .handle .detect (.success {}),
    .complete .header (.success {}), .handle .header (.success {}),
    .complete .body (.success {}), .handle .body (.success {}), .task,
    .complete (.write { status := 204 }) (.success {}),
    .handle (.write { status := 204 }) (.success {}),
    .stopAll, .stop, .task]

/-- A session that is stopped between its registration and the dispatch of on_run(). -/
def stoppedEarly : List Action :=
  [.run, .stopAll, .stop, .dispatch, .task, .task]

theorem stop_heeded_keptAlive :
    ∃ s, (machine dual).run { stream := .plain } keptAlive = some s ∧ s.stopRan = true ∧
      s.operations = [⟨.header, some (.error .operationAborted false)⟩] ∧ ¬Lost s :=
  ⟨_, rfl, rfl, rfl, (stop_heeded ((Machine.ReachableVia.init (M := machine dual) rfl).run
    keptAlive (by decide) rfl)).1⟩

/-- on_stop() finds nothing to cancel, and on_run() waits for the client afterwards. -/
theorem stoppedEarly_loses :
    ¬∀ (cfg : Config) (s : Session), (machine cfg).Reachable s → ¬Lost s := by
  intro h
  have hrun := h dual _ (Machine.run_reachable (M := machine dual) stoppedEarly rfl rfl)
  exact hrun ⟨rfl, rfl, ⟨.detect, none⟩, List.mem_singleton_self _, rfl, rfl⟩

end CppGate.HttpSession
