import CppGate.WebSocketClient.ClosedForGood
import CppGate.WebSocketClient.QueueSteps

/-!
# A close comes to an end

doClose() on a connection that is still being established only cancels the step that is pending,
and a step whose success was queued already goes on: the attempt may run on to the upgrade, which
opens the connection and closes it. So what close() leaves to come is bounded by a measure and not
by one operation. Each operation has a rank, those it may lead to have ranks of a smaller sum
(`remaining_step`), and the largest rank is 6. The messages that are queued or being written then
come on top, one write each (`toWrite_step`): no more are taken into the queue.

Messages are still received until the close completes, and do not count. While the connection has
not stopped, one of its operations is outstanding: it never waits for nothing (`Inv.waits`).
-/

namespace CppGate.WebSocketClient

open CppGate.WebSocketSession (CloseCode)

variable {cfg : Config} {s t : Connection}

/-! ### Ranks -/

/-- How many completions an operation stands for once a close was requested: its own, and those of
the operations that it may lead to. -/
def Operation.rank : Operation → ℕ
  | .resolve _ => 6
  | .connect _ => 5
  | .tlsHandshake _ => 4
  | .upgrade _ => 3
  | .read _ | .close _ _ => 1
  | .retryTimer => 0

/-- The ranks of operations. -/
def ranks (operations : List Operation) : ℕ :=
  (operations.map Operation.rank).sum

/-- How many completions there are to come at most, once a close was requested. -/
def remaining (s : Connection) : ℕ :=
  if s.state = .stopped then 0 else ranks s.operations

/-- An operation completes, and not with a message. -/
def Action.advances : Action → Bool
  | .complete (.read _) c => c.ec.isSome
  | .complete _ _ => true
  | _ => false

/-- A write completes. -/
def Action.isWritten : Action → Bool
  | .written _ _ => true
  | _ => false

theorem remaining_le (s : Connection) : remaining s ≤ ranks s.operations := by
  rw [remaining]
  split
  · exact Nat.zero_le _
  · exact le_rfl

theorem remaining_of_stopped (hs : s.state = .stopped) : remaining s = 0 :=
  if_pos hs

theorem remaining_of_ne (hs : s.state ≠ .stopped) : remaining s = ranks s.operations :=
  if_neg hs

theorem remaining_congr (hstate : t.state = s.state) (hops : t.operations = s.operations) :
    remaining t = remaining s := by
  rw [remaining, remaining, hstate, hops]

/-! ### Handlers of a connection that is to close -/

/-- Where a connection that is to close has closed, nothing is to come. -/
theorem remaining_closed (hstop : s.stopRequested = true) (code : CloseCode) (c : Completion)
    (n : ℕ) : remaining (closed cfg s code c) ≤ n := by
  have hstopped : (closed cfg s code c).state = .stopped := by
    rw [closed, if_pos]
    · rfl
    · show (s.stopRequested || s.clientClosed) = true
      rw [hstop, Bool.true_or]
  exact (remaining_of_stopped hstopped).trans_le (Nat.zero_le n)

/-- The end of an own close stops the connection. -/
theorem remaining_finishOwnClose (hstop : s.stopRequested = true) (c : Completion) (n : ℕ) :
    remaining (finishOwnClose cfg s c) ≤ n := by
  rw [finishOwnClose]
  split
  · exact remaining_closed hstop _ c n
  · exact remaining_closed hstop _ c n

/-- A read of a connection that is to close fails. -/
theorem remaining_ended (hstop : s.stopRequested = true) (ec : ErrorCode) (c : Completion) :
    remaining (ended cfg s ec c) ≤ ranks s.operations := by
  rw [ended]
  split
  · have hstop' : ({ s with readDone := true } : Connection).stopRequested = true := hstop
    dsimp only
    split
    · exact remaining_finishOwnClose hstop' c _
    · exact remaining_le { s with readDone := true }
  split
  · exact remaining_closed hstop _ c _
  split
  · next hreport => exact absurd hreport.1 (by rw [hstop]; exact Bool.false_ne_true)
  · exact remaining_closed hstop _ c _

theorem remaining_onClosed (hstop : s.stopRequested = true) (c : Completion) :
    remaining (onClosed cfg s c) ≤ ranks s.operations := by
  have hstop' : ({ s with closeDone := true, closeResult := c.ec } : Connection).stopRequested =
      true := hstop
  rw [onClosed]
  dsimp only
  split
  · exact remaining_finishOwnClose hstop' c _
  · exact remaining_le { s with closeDone := true, closeResult := c.ec }

/-- A step of the attempt fails, or the next one begins. -/
theorem remaining_attemptStep {next : Connection} (hstop : s.stopRequested = true) (c : Completion)
    {n : ℕ} (hnext : remaining next ≤ n) : remaining (attemptStep cfg s c next) ≤ n := by
  rw [attemptStep]
  split
  · rw [attemptFailed, if_pos hstop, remaining_of_stopped rfl]
    exact Nat.zero_le n
  · exact hnext

theorem remaining_begin (hops : s.operations = []) (operation : Operation) :
    remaining (s.begin operation) ≤ operation.rank := by
  refine (remaining_le _).trans ?_
  show ranks (operation :: s.operations) ≤ _
  rw [hops]
  exact le_rfl

/-- After the connect an attempt has come further, or to its end. -/
theorem remaining_onConnect (hstop : s.stopRequested = true) (hops : s.operations = []) (gen : ℕ)
    (c : Completion) : remaining (onConnect cfg s gen c) ≤ 4 := by
  rw [onConnect]
  split
  · exact (remaining_begin hops _).trans (Nat.le_succ 3)
  split
  · rw [attemptFailed, if_pos hstop, remaining_of_stopped rfl]
    exact Nat.zero_le 4
  · exact remaining_begin hops _

/-- After the upgrade the connection closes, or its attempt has failed. -/
theorem remaining_onUpgrade (hstop : s.stopRequested = true) (hops : s.operations = []) (gen : ℕ)
    (c : Completion) : remaining (onUpgrade cfg s gen c) ≤ 2 := by
  rw [onUpgrade]
  split
  · rw [remaining_of_stopped rfl]
    exact Nat.zero_le 2
  · rw [attemptFailed, if_pos hstop, remaining_of_stopped rfl]
    exact Nat.zero_le 2
  · show remaining (if s.stopRequested then _ else _) ≤ 2
    rw [if_pos hstop]
    refine (remaining_le _).trans ?_
    show ranks (.close _ _ :: .read gen :: s.operations) ≤ 2
    rw [hops]
    exact le_rfl

/-! ### One completion -/

/-- What is outstanding of a connection that is to close. -/
theorem Inv.states (h : Inv cfg s) (hgood : ForGood s) (hstop : s.stopRequested = true) :
    s.state = .connecting ∨ s.state = .closing ∨ s.state = .stopped := by
  have hmay := hgood.state
  cases hs : s.state with
  | idle | waiting =>
    rw [hs] at hmay
    exact absurd hmay.symm Bool.false_ne_true
  | connecting => exact Or.inl rfl
  | opened =>
    have hout : Outstanding s .opened := hs ▸ h.outstanding
    exact absurd (hout.2.symm.trans hstop) Bool.false_ne_true
  | closing => exact Or.inr (Or.inl rfl)
  | stopped => exact Or.inr (Or.inr rfl)

/-- A completion brings an attempt closer to its end. -/
theorem remaining_connecting (h : Inv cfg s) (hs : s.state = .connecting)
    (hstop : s.stopRequested = true) {operation : Operation} (hop : operation ∈ s.operations)
    (c : Completion) :
    remaining (handle cfg (s.without operation) c operation) + 1 ≤ remaining s := by
  have hout : Outstanding s .connecting := hs ▸ h.outstanding
  have hone : s.operations = [operation] := by
    rcases hout with hout | hout | hout | hout <;>
      · rw [hout, List.mem_singleton] at hop
        rw [hout, hop]
  have hnone : (s.without operation).operations = [] := by
    show s.operations.erase operation = []
    rw [hone, List.erase_cons_head]
  have hstop' : (s.without operation).stopRequested = true := hstop
  have hfresh := not_stale hs nofun operation
  have hgen : operation = .resolve s.generation ∨ operation = .connect s.generation ∨
      operation = .tlsHandshake s.generation ∨ operation = .upgrade s.generation := by
    unfold Outstanding at hout
    simpa only [hone, List.cons.injEq, and_true] using hout
  have hrank : remaining s = operation.rank := by
    rw [remaining_of_ne (by rw [hs]; nofun), hone]
    rfl
  rw [hrank]
  rcases hgen with rfl | rfl | rfl | rfl <;> rw [handle, if_neg hfresh]
  · exact Nat.succ_le_succ (remaining_attemptStep hstop' c (remaining_begin hnone _))
  · exact Nat.succ_le_succ (remaining_attemptStep hstop' c (remaining_onConnect hstop' hnone _ c))
  · exact Nat.succ_le_succ (remaining_attemptStep hstop' c (remaining_begin hnone _))
  · exact Nat.succ_le_succ (remaining_onUpgrade hstop' hnone _ c)

theorem ranks_erase {operations : List Operation} {operation : Operation}
    (hop : operation ∈ operations) :
    ranks (operations.erase operation) + operation.rank = ranks operations := by
  rw [ranks, ranks, Nat.add_comm, ← List.sum_cons, ← List.map_cons]
  exact ((List.perm_cons_erase hop).map Operation.rank).sum_eq.symm

/-- A completion brings a close closer to its end, unless a message came. -/
theorem remaining_closing (h : Inv cfg s) (hs : s.state = .closing) {operation : Operation}
    (hop : operation ∈ s.operations) (c : Completion) :
    remaining (handle cfg (s.without operation) c operation) +
      (if (Action.complete operation c).advances then 1 else 0) ≤ remaining s := by
  have hout : Outstanding s .closing := hs ▸ h.outstanding
  obtain ⟨hops, -, hstop⟩ := hout
  have hstop' : (s.without operation).stopRequested = true := hstop
  have hfresh := not_stale hs nofun operation
  have hsum : ranks (s.without operation).operations + operation.rank = remaining s := by
    rw [remaining_of_ne (by rw [hs]; nofun)]
    exact ranks_erase hop
  have hmem := hops.mem_iff.1 hop
  unfold ownClose at hmem
  rcases List.mem_append.1 hmem with hmem | hmem
  · obtain ⟨rfl, -⟩ : operation = .read s.generation ∧ s.readDone = false := by
      simpa only [List.mem_ite_nil_left, List.mem_singleton, Bool.not_eq_true, and_comm] using hmem
    rw [← hsum, handle, if_neg hfresh, onRead]
    split
    · next ec hec =>
      have hadvances : (Action.complete (.read s.generation) c).advances = true := by
        show c.ec.isSome = true
        rw [hec]
        rfl
      rw [hadvances, if_pos rfl]
      exact Nat.succ_le_succ (remaining_ended hstop' ec c)
    · next hec =>
      have hadvances : (Action.complete (.read s.generation) c).advances = false := by
        show c.ec.isSome = false
        rw [hec]
        rfl
      rw [hadvances, if_neg Bool.false_ne_true, Nat.add_zero]
      refine (remaining_le _).trans ?_
      show ranks (.read _ :: (s.without (.read s.generation)).operations) ≤ _
      rw [ranks, List.map_cons, List.sum_cons, Nat.add_comm]
      exact le_rfl
  · obtain ⟨rfl, -⟩ :
        operation = .close s.generation s.requestedCode ∧ s.closeDone = false := by
      simpa only [List.mem_ite_nil_left, List.mem_singleton, Bool.not_eq_true, and_comm] using hmem
    rw [← hsum, handle, if_neg hfresh]
    exact Nat.succ_le_succ (remaining_onClosed hstop' c)

/-! ### The writes of a connection that is to close -/

/-- The writes that are outstanding, and the messages in the queue. -/
def toWrite (s : Connection) : ℕ :=
  s.writes.length + s.writeQueue.length

theorem toWrite_same (h : SameSends s t) : toWrite t = toWrite s := by
  rw [toWrite, toWrite, h.writes, h.writeQueue]

/-- What is no step of sending empties the queue at most. -/
theorem toWrite_moved (h : Moved s t) : toWrite t ≤ toWrite s := by
  cases h with
  | kept hsame => exact (toWrite_same hsame).le
  | closed _ hsame => exact (toWrite_same hsame).trans_le (Nat.add_le_add_left (Nat.zero_le _) _)
  | attempted _ hsame => exact (toWrite_same hsame).le

/-- The next write is one of a message that was queued. -/
theorem toWrite_write (s : Connection) (gen : ℕ) : toWrite (write s gen) ≤ toWrite s + 1 := by
  rw [write]
  split
  · exact Nat.le_succ _
  · show s.writes.length + 1 + s.writeQueue.length ≤ s.writes.length + s.writeQueue.length + 1
    omega

/-- A write completes: it is done with, and so is its message, if another write follows. -/
theorem toWrite_onWrite {done : Write} (hwrite : done ∈ s.writes) (gen : ℕ)
    (ec : Option ErrorCode) :
    toWrite (onWrite { s with writes := s.writes.erase done } gen ec) + 1 ≤ toWrite s := by
  have hpos : 0 < s.writes.length := List.length_pos_of_mem hwrite
  have herase : (s.writes.erase done).length = s.writes.length - 1 :=
    List.length_erase_of_mem hwrite
  have hwritten : toWrite { s with writes := s.writes.erase done } + 1 = toWrite s := by
    show (s.writes.erase done).length + s.writeQueue.length + 1 = _
    rw [herase, toWrite]
    omega
  rcases onWrite_cases { s with writes := s.writes.erase done } gen ec with hsame | ⟨-, hne, heq⟩
  · rw [hsame, hwritten]
  have hqueue : 0 < s.writeQueue.length := List.length_pos_iff.2 hne
  have htail : (s.writes.erase done).length + s.writeQueue.tail.length + 2 = toWrite s := by
    rw [herase, List.length_tail, toWrite]
    omega
  rw [heq]
  split
  · exact (Nat.le_succ _).trans_eq htail
  · refine (Nat.succ_le_succ (toWrite_write _ gen)).trans_eq htail

/-- **One step** while the connection is not open: a write that completes is one less to come, and
no other is added. -/
theorem toWrite_step (h : Inv cfg s) (hs : s.state ≠ .opened) {action : Action}
    (hstep : step cfg s action = some t) :
    toWrite t + (if action.isWritten then 1 else 0) ≤ toWrite s := by
  cases sent_of_step h hstep with
  | moved action t hsilent hmoved =>
    cases action with
    | written => exact hsilent.elim
    | _ => exact toWrite_moved hmoved
  | send => exact le_rfl
  | sender i spurious sender =>
    rw [send_eq]
    exact le_rfl
  | task message gen tasks ht =>
    rw [runSend, if_pos (Or.inl hs)]
    exact le_rfl
  | written write ec hwrite => exact toWrite_onWrite hwrite write.gen ec

/-! ### Steps and runs -/

/-- The steps that bring the end nearer: the completions of a connection that has not stopped,
without those of its messages. -/
def Approaches (s : Connection) (action : Action) : Prop :=
  s.state ≠ .stopped ∧ (action.advances || action.isWritten) = true

instance (s : Connection) (action : Action) : Decidable (Approaches s action) :=
  inferInstanceAs (Decidable (_ ∧ _))

/-- The connection, and how many steps brought its end nearer. -/
def approaching (cfg : Config) : Machine (Connection × ℕ) Action :=
  (machine cfg).observed 0 fun n s action _ ↦ if Approaches s action then n + 1 else n

/-- The request stays. -/
theorem stopRequested_of_forGood (hgood : ForGood s) (hstop : s.stopRequested = true)
    {action : Action} (hstep : step cfg s action = some t) : t.stopRequested = true := by
  rcases stopRequested_step hstep with hsame | ⟨rfl, code, htask⟩
  · exact hsame.trans hstop
  · cases stepped_of_step hstep with
    | task task tasks ht =>
      rw [ht, List.head?_cons, Option.some.injEq] at htask
      subst htask
      have hgood' : ForGood { s with tasks := tasks } := ⟨hgood.ended, hgood.state⟩
      rw [runTask, hgood'.doClose]
      exact hstop

/-- **One step** of a connection that is to close and has not stopped. -/
theorem remaining_step (h : Inv cfg s) (hgood : ForGood s) (hstop : s.stopRequested = true)
    (hs : s.state ≠ .stopped) {action : Action} (hstep : step cfg s action = some t) :
    remaining t + (if action.advances then 1 else 0) ≤ remaining s := by
  have hframe (hadvances : action.advances = false) (hstate : t.state = s.state)
      (hops : t.operations = s.operations) :
      remaining t + (if action.advances then 1 else 0) ≤ remaining s := by
    rw [if_neg (by rw [hadvances]; exact Bool.false_ne_true), remaining_congr hstate hops]
    exact le_rfl
  cases stepped_of_step hstep with
  | start hstarting =>
    rcases h.starting hstarting with hidle | ⟨hstopped, -⟩
    · have hmay := hgood.state
      rw [hidle] at hmay
      exact absurd hmay.symm Bool.false_ne_true
    · exact absurd hstopped hs
  | close | destroy | send | unconnected => exact hframe rfl rfl rfl
  | sender i spurious sender =>
    refine hframe rfl ?_ ?_
    · rw [send_eq]
    · rw [send_eq]
  | task task tasks =>
    cases task with
    | close code =>
      have hgood' : ForGood { s with tasks := tasks } := ⟨hgood.ended, hgood.state⟩
      refine hframe rfl ?_ ?_
      · rw [runTask, hgood'.doClose]
      · rw [runTask, hgood'.doClose]
    | send message gen =>
      refine hframe rfl ?_ ?_
      · rw [runTask, runSend_eq]
      · rw [runTask, runSend_eq]
  | complete operation c hop =>
    rcases h.states hgood hstop with hconnecting | hclosing | hstopped
    · refine (Nat.add_le_add_left ?_ _).trans (remaining_connecting h hconnecting hstop hop c)
      split
      · exact le_rfl
      · exact Nat.zero_le 1
    · exact remaining_closing h hclosing hop c
    · exact absurd hstopped hs
  | written write ec =>
    refine hframe rfl ?_ ?_
    · rw [onWrite_eq]
    · rw [onWrite_eq]

/-- A connection that is to close is not open. -/
theorem Inv.ne_opened (h : Inv cfg s) (hgood : ForGood s) (hstop : s.stopRequested = true) :
    s.state ≠ .opened := by
  rcases h.states hgood hstop with hs | hs | hs <;>
    · rw [hs]
      nofun

/-- **One step** brings the end nearer, or leaves it where it is. -/
theorem approaches_step (h : Inv cfg s) (hgood : ForGood s) (hstop : s.stopRequested = true)
    {action : Action} (hstep : step cfg s action = some t) :
    remaining t + toWrite t + (if Approaches s action then 1 else 0) ≤
      remaining s + toWrite s := by
  have hwrite := toWrite_step h (h.ne_opened hgood hstop) hstep
  by_cases hs : s.state = .stopped
  · rw [if_neg fun hnear ↦ hnear.1 hs, remaining_of_stopped (stopped_step h hs hstep).1,
      remaining_of_stopped hs]
    omega
  have hremaining := remaining_step h hgood hstop hs hstep
  have hone : (if Approaches s action then 1 else 0) ≤
      (if action.advances then 1 else 0) + (if action.isWritten then 1 else 0) := by
    split
    · next hnear =>
      rcases Bool.or_eq_true_iff.1 hnear.2 with hadvances | hwritten
      · rw [if_pos hadvances]
        exact Nat.le_add_right 1 _
      · rw [if_pos hwritten]
        exact Nat.le_add_left 1 _
    · exact Nat.zero_le _
  omega

/-- No more than the attempt and the close are to come. -/
theorem remaining_le_six (h : Inv cfg s) (hgood : ForGood s) (hstop : s.stopRequested = true) :
    remaining s ≤ 6 := by
  rcases h.states hgood hstop with hs | hs | hs
  · have hout : Outstanding s .connecting := hs ▸ h.outstanding
    refine (remaining_le s).trans ?_
    rcases hout with hout | hout | hout | hout
    · rw [hout]
      exact Nat.le_refl 6
    · rw [hout]
      exact Nat.le_succ 5
    · rw [hout]
      exact Nat.le_add_right 4 2
    · rw [hout]
      exact Nat.le_add_right 3 3
  · have hout : Outstanding s .closing := hs ▸ h.outstanding
    refine (remaining_le s).trans ?_
    have hsum : ranks s.operations = ranks (ownClose s) := (hout.1.map Operation.rank).sum_eq
    rw [hsum, ownClose]
    split
    · split
      · exact Nat.zero_le 6
      · exact Nat.le_add_right 1 5
    · split
      · exact Nat.le_add_right 1 5
      · exact Nat.le_add_right 2 4
  · rw [remaining_of_stopped hs]
    exact Nat.zero_le 6

/-- A connection that is to close, and has not stopped, waits for an operation. -/
theorem Inv.waits (h : Inv cfg s) (hgood : ForGood s) (hstop : s.stopRequested = true)
    (hs : s.state ≠ .stopped) : s.operations ≠ [] ∧ 0 < remaining s := by
  rcases h.states hgood hstop with hconnecting | hclosing | hstopped
  · have hout : Outstanding s .connecting := hconnecting ▸ h.outstanding
    rw [remaining_of_ne hs]
    rcases hout with hout | hout | hout | hout <;>
      · rw [hout]
        exact ⟨List.cons_ne_nil _ _, Nat.succ_pos _⟩
  · have hout : Outstanding s .closing := hclosing ▸ h.outstanding
    obtain ⟨hperm, hdone, -⟩ := hout
    have hsum : ranks s.operations = ranks (ownClose s) := (hperm.map Operation.rank).sum_eq
    have hpos : 0 < ranks (ownClose s) := by
      rw [ownClose]
      cases hread : s.readDone with
      | false =>
        show 0 < ranks (.read s.generation :: _)
        rw [ranks, List.map_cons, List.sum_cons]
        exact Nat.add_pos_left Nat.one_pos _
      | true =>
        cases hclose : s.closeDone with
        | false => exact Nat.one_pos
        | true => exact absurd ⟨hread, hclose⟩ hdone
    rw [remaining_of_ne hs, hsum]
    refine ⟨fun hnil ↦ ?_, hpos⟩
    rw [hnil] at hsum
    rw [← hsum] at hpos
    exact absurd hpos (Nat.lt_irrefl 0)
  · exact absurd hstopped hs

/-- **A close comes to an end.** Once doClose() has run, at most six completions that are no
messages come before the connection has stopped, and one for each message that is queued or being
written then, whatever they are and whatever else happens; and until it has stopped, one of its
operations is outstanding. -/
theorem close_terminates (h : (machine cfg).Reachable s) (hstop : s.stopRequested = true)
    (actions : List Action) {n : ℕ} (hrun : (approaching cfg).run (s, 0) actions = some (t, n)) :
    n ≤ 6 + toWrite s ∧ (t.state ≠ .stopped → n < 6 + toWrite s ∧ t.operations ≠ []) := by
  have hgood := forGood_of_reachable h hstop
  have hinv := inv_of_reachable h
  have hend : Inv cfg t ∧ ForGood t ∧ t.stopRequested = true ∧
      remaining t + toWrite t + n ≤ remaining s + toWrite s := by
    refine Machine.run_invariant (I := fun x : Connection × ℕ ↦ Inv cfg x.1 ∧ ForGood x.1 ∧
      x.1.stopRequested = true ∧ remaining x.1 + toWrite x.1 + x.2 ≤ remaining s + toWrite s) ?_
      actions ⟨hinv, hgood, hstop, le_rfl⟩ hrun
    rintro ⟨u, m⟩ action ⟨v, m'⟩ ⟨hu, hgoodu, hstopu, hle⟩ hstep
    obtain ⟨hv, hm⟩ := Machine.observed_step hstep
    have hstep' : step cfg u action = some v := hv
    have hnear := approaches_step hu hgoodu hstopu hstep'
    obtain rfl : m' = if Approaches u action then m + 1 else m := hm
    refine ⟨inv_step u action v hu hv, (hgoodu.step hu hstep').1,
      stopRequested_of_forGood hgoodu hstopu hstep', ?_⟩
    show remaining v + toWrite v + (if Approaches u action then m + 1 else m) ≤ _
    have hle' : remaining u + toWrite u + m ≤ remaining s + toWrite s := hle
    by_cases happroach : Approaches u action
    · rw [if_pos happroach] at hnear ⊢
      omega
    · rw [if_neg happroach] at hnear ⊢
      omega
  obtain ⟨hinvt, hgoodt, hstopt, hle⟩ := hend
  have hsix := remaining_le_six hinv hgood hstop
  refine ⟨by omega, fun hs ↦ ?_⟩
  obtain ⟨hops, hpos⟩ := hinvt.waits hgoodt hstopt hs
  exact ⟨by omega, hops⟩

/-- close() came while the host was resolved. -/
def resolving : Connection where
  state := .connecting
  callbacks := {}
  stopRequested := true
  generation := 1
  starting := false
  operations := [.resolve 1]

/-- The success was queued already: the attempt goes on to the upgrade, which opens the connection,
and a message comes before the close completes. -/
def closedResolving : List Action :=
  [.complete (.resolve 1) {}, .complete (.connect 1) {}, .complete (.upgrade 1) {},
    .complete (.read 1) {}, .complete (.close 1 CloseCode.normal) {}]

theorem close_terminates_closedResolving : ∃ t n,
    (approaching { url := .inr {} }).run (resolving, 0) closedResolving = some (t, n) ∧ n ≤ 6 ∧
      (t.state ≠ .stopped → n < 6 ∧ t.operations ≠ []) := by
  have hrun : (machine { url := .inr {} }).run { callbacks := {} } [.start, .close 1001, .task] =
      some resolving := rfl
  exact ⟨_, _, rfl, close_terminates (Machine.run_reachable _ rfl hrun) rfl closedResolving rfl⟩

end CppGate.WebSocketClient
