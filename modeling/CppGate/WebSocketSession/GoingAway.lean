import CppGate.WebSocketSession.Lifecycle

/-!
# The graceful stop of a WebSocket session

stop() of a WebSocket session posts a close with 1001, and the task does nothing while the stream is
not open. So a stop that arrives during the handshake is lost at first; on_accept() finds stopping()
and posts the close again. What carries the induction is `BoundToClose`: from the first stop() on,
the strand has a close to run, or the connection is closing, or it is not open. The handshake is the
only step that opens a connection, and it is the one that asks.

The module also says what the session is once the handshake has ended: a state that the machine of
`Callbacks` reaches (`callbacks_reachable`), so what holds there of every run holds here.
-/

namespace CppGate.WebSocketSession.Lifecycle

open Callbacks

variable {κ : Type*} {limit : ℕ} {s t : Session κ} {w w' : Lifecycle κ} {q q' : State}

/-! ### Bound to close -/

/-- The strand is going to close the connection, or it is closing, or it is not open. -/
def BoundToClose (q : State) : Prop :=
  (∃ code, .close code ∈ q.tasks) ∨ q.closing = true ∨ q.isOpen = false

theorem boundToClose_of_mem {code : CloseCode} (h : .close code ∈ q.tasks) : BoundToClose q :=
  Or.inl ⟨code, h⟩

theorem boundToClose_close (s : Session κ) (code : CloseCode) :
    BoundToClose (s.close code).queue :=
  boundToClose_of_mem (List.mem_append_right _ (List.mem_singleton_self _))

/-- Posting does not undo it. -/
theorem BoundToClose.posts (h : BoundToClose s.queue) (hposts : Posts s t) :
    BoundToClose t.queue := by
  obtain ⟨more, hmore⟩ := hposts.tasks
  rcases h with ⟨code, hcode⟩ | hclosing | hopen
  · exact boundToClose_of_mem (hmore ▸ List.mem_append_left more hcode)
  · exact Or.inr (Or.inl (hposts.closing.trans hclosing))
  · exact Or.inr (Or.inr (hposts.isOpen.trans hopen))

/-- Nothing that the strand or a thread does undoes it. -/
theorem BoundToClose.moves (h : BoundToClose q) (hmoves : Moves q q') : BoundToClose q' := by
  cases hmoves with
  | posts more hclosing hopen hclosed htasks =>
    rcases h with ⟨code, hcode⟩ | h | h
    · exact boundToClose_of_mem (htasks ▸ List.mem_append_left more hcode)
    · exact Or.inr (Or.inl (hclosing.trans h))
    · exact Or.inr (Or.inr (hopen.trans h))
  | sends message tasks more hran hclosing hopen hclosed htasks =>
    rcases h with ⟨code, hcode⟩ | h | h
    · rw [hran] at hcode
      have hrest : .close code ∈ tasks := by simpa using hcode
      exact boundToClose_of_mem (htasks ▸ List.mem_append_left more hrest)
    · exact Or.inr (Or.inl (hclosing.trans h))
    · exact Or.inr (Or.inr (hopen.trans h))
  | closes code tasks hran heq =>
    rw [heq, runClose]
    split
    · next hdone =>
      rw [Bool.or_eq_true, Bool.not_eq_true'] at hdone
      exact Or.inr hdone
    · exact Or.inr (Or.inl rfl)
  | lost heq => exact heq ▸ Or.inr (Or.inr rfl)

/-! ### Phases -/

theorem phase_emit (s : Session κ) (callback : Option κ) (event : κ → Event κ)
    (code : UserCode κ) : (emit s callback event code).1.phase = s.phase := by
  rcases callback with - | callback
  · rfl
  show (if _ then _ else _ : Session κ × Bool).1.phase = s.phase
  split
  · rfl
  · exact (sameLoop_call (s.record (event callback)) code).phase

theorem phase_emitClose (s : Session κ) (code : CloseCode) (user : UserCode κ) :
    (emitClose s code user).1.phase = s.phase := by
  rw [emitClose]
  split
  · rfl
  · dsimp only
    split
    · rfl
    · exact (sameLoop_call (Session.record { s with context := { closed := true } } _) user).phase

/-- A session that has been accepted does not go back to that. -/
theorem phase_onRead (s : Session κ) (c : Completion κ) : (onRead s c).phase ≠ .accepting := by
  rw [onRead]
  dsimp only
  split
  · rw [phase_emitClose]
    exact Phase.noConfusion
  · rw [phase_emitClose]
    split
    · exact Phase.noConfusion
    · rw [emitError, phase_emit]
      exact Phase.noConfusion
  · exact Phase.noConfusion

/-- After on_accept() the handshake is over. -/
theorem phase_onAccept (s : Session κ) (c : Completion κ) :
    (Callbacks.onAccept s c).phase ≠ .accepting := by
  rw [Callbacks.onAccept]
  split
  · exact Phase.noConfusion
  · split <;> exact Phase.noConfusion

/-! ### The invariant -/

/-- async_close has begun exactly where `closing_` is set. -/
structure Sound (s : Session κ) : Prop where
  closing : s.queue.closing = true → s.queue.closedWith ≠ none
  fresh : s.queue.closing = false → s.queue.closedWith = none ∧ s.closeOp = none

/-- User code posts closes, and begins none. -/
theorem Sound.posts (h : Sound s) (hposts : Posts s t) : Sound t where
  closing hclosing := hposts.closedWith ▸ h.closing (hposts.closing ▸ hclosing)
  fresh hclosing := by
    rw [hposts.closedWith, hposts.closeOp]
    exact h.fresh (hposts.closing ▸ hclosing)

/-- The task that sets `closing_` starts the async_close. -/
theorem Sound.moves (h : Sound s) (hmoves : Moves s.queue q) :
    Sound { s with
      queue := q
      closeOp := if s.queue.closing then s.closeOp else q.closedWith } := by
  have hsame : q.closing = s.queue.closing → q.closedWith = s.queue.closedWith →
      Sound { s with
        queue := q
        closeOp := if s.queue.closing then s.closeOp else q.closedWith } := by
    intro hclosing hclosed
    refine ⟨fun hc ↦ ?_, fun hc ↦ ?_⟩
    · exact hclosed ▸ h.closing (hclosing ▸ hc)
    · have hfresh : s.queue.closing = false := hclosing ▸ hc
      show q.closedWith = none ∧ (if s.queue.closing then s.closeOp else q.closedWith) = none
      rw [hfresh, hclosed]
      exact ⟨(h.fresh hfresh).1, (h.fresh hfresh).1⟩
  cases hmoves with
  | posts _ hclosing _ hclosed _ => exact hsame hclosing hclosed
  | sends _ _ _ _ hclosing _ hclosed _ => exact hsame hclosing hclosed
  | closes code tasks hran heq =>
    by_cases hdone : (s.queue.closing || !s.queue.isOpen) = true
    · have hrun : q = { s.queue with tasks } := by
        rw [heq, runClose, if_pos hdone]
      exact hsame (by rw [hrun]) (by rw [hrun])
    · have hrun : q = { s.queue with tasks, closing := true, closedWith := some code } := by
        rw [heq, runClose, if_neg hdone]
      refine ⟨fun _ ↦ ?_, fun hc ↦ ?_⟩
      · show q.closedWith ≠ none
        rw [hrun]
        exact Option.some_ne_none code
      · have hset : q.closing = true := by rw [hrun]
        exact absurd (hc.symm.trans hset) Bool.false_ne_true
  | lost heq => exact hsame (by rw [heq]) (by rw [heq])

/-- A step of a session that was accepted. -/
structure Goes (s t : Session κ) : Prop where
  bound : BoundToClose s.queue → BoundToClose t.queue
  sound : Sound s → Sound t
  phase : s.phase ≠ .accepting → t.phase ≠ .accepting

/-- What a step of an accepted session does. -/
theorem goes_of_step {a : Callbacks.Action κ} (hphase : s.phase ≠ .accepting)
    (h : Callbacks.step limit s a = some t) : Goes s t := by
  cases a with
  | accepted c =>
    obtain ⟨haccepting, -⟩ := Option.ite_none_right_eq_some.1 h
    exact absurd haccepting hphase
  | read c =>
    obtain ⟨-, h⟩ := Option.ite_none_right_eq_some.1 h
    have hposts := posts_onRead s c
    exact Option.some.inj h ▸ ⟨fun hbound ↦ hbound.posts hposts, fun hsound ↦ hsound.posts hposts,
      fun _ ↦ phase_onRead s c⟩
  | closed c =>
    obtain ⟨code, -, rfl⟩ := Option.map_eq_some_iff.1 h
    have hposts := posts_emitClose { s with closeOp := none } code c.onClose
    refine ⟨fun hbound ↦ BoundToClose.posts (s := { s with closeOp := none }) hbound hposts,
      fun hsound ↦ ?_, fun _ ↦ ?_⟩
    · have hnone : Sound { s with closeOp := none } :=
        ⟨hsound.closing, fun hclosing ↦ ⟨(hsound.fresh hclosing).1, rfl⟩⟩
      exact hnone.posts hposts
    · rw [onClose, phase_emitClose]
      exact hphase
  | queue a =>
    obtain ⟨-, h⟩ := Option.ite_none_left_eq_some.1 h
    obtain ⟨q, hq, rfl⟩ := Option.map_eq_some_iff.1 h
    exact ⟨fun hbound ↦ hbound.moves (moves_of_step hq),
      fun hsound ↦ hsound.moves (moves_of_step hq), id⟩

/-- The invariant of a session's life. -/
structure Inv (w : Lifecycle κ) : Prop where
  sound : Sound w.session
  /-- Before the handshake is over. -/
  shut : w.stage ≠ .accepted → w.session.queue.isOpen = false ∧
    w.session.queue.closing = false ∧ w.session.context.closed = false
  phase : w.stage = .accepted → w.session.phase ≠ .accepting
  /-- A session that the registry knew is told to stop. -/
  heeds : w.stopping = true → w.registered = true →
    0 < w.stoppers ∨ BoundToClose w.session.queue

/-- What posts before the handshake is over keeps the invariant. -/
theorem Inv.posts (h : Inv w) (hstage : w.stage ≠ .accepted) (hposts : Posts w.session s)
    (hcontext : s.context.closed = w.session.context.closed) (stage : Stage)
    (hstage' : stage ≠ .accepted) : Inv { w with session := s, stage } where
  sound := h.sound.posts hposts
  shut _ := by
    obtain ⟨hopen, hclosing, hclosed⟩ := h.shut hstage
    exact ⟨hposts.isOpen.trans hopen, hposts.closing.trans hclosing, hcontext.trans hclosed⟩
  phase haccepted := absurd haccepted hstage'
  heeds hstopping hregistered :=
    (h.heeds hstopping hregistered).imp_right fun hbound ↦ hbound.posts hposts

theorem Inv.stage (h : Inv w) (hstage : w.stage ≠ .accepted) {stage : Stage}
    (hstage' : stage ≠ .accepted) : Inv { w with stage } :=
  h.posts hstage (.refl _) rfl stage hstage'

theorem closed_routeUpgrade (s : Session κ) (codes : List (UserCode κ)) :
    (routeUpgrade s codes).1.context.closed = s.context.closed := by
  induction codes generalizing s with
  | nil => rfl
  | cons code codes ih =>
    rw [routeUpgrade]
    split
    · exact (ih _).trans (sameLoop_call s code).closed
    · exact (sameLoop_call s code).closed

/-- The router accepts or refuses the handshake. -/
theorem Inv.upgrade (h : Inv w) (hstage : w.stage ≠ .accepted) (routed : Routed κ) :
    Inv (upgrade w routed) := by
  cases routed with
  | matched preMiddlewares =>
    have hposts := posts_routeUpgrade w.session preMiddlewares
    have hclosed := closed_routeUpgrade w.session preMiddlewares
    rw [Lifecycle.upgrade]
    dsimp only
    split
    · exact h.posts hstage hposts hclosed .handshaking nofun
    · exact h.posts hstage hposts hclosed .rejecting nofun
  | unmatched => exact h.stage hstage nofun
  | threw => exact h.stage hstage nofun

/-- The handshake is over: a server that is stopping has the close posted once more. -/
theorem boundToClose_onAccept (w : Lifecycle κ) (c : Completion κ) (hstopping : w.stopping = true) :
    BoundToClose (onAccept w c).session.queue := by
  cases hec : c.ec with
  | some ec =>
    have hshut : BoundToClose (opened w c).queue := by
      rw [opened, hec]
      exact Or.inr (Or.inr rfl)
    exact hshut.posts (posts_onAccept _ _)
  | none =>
    have hclose : (onAccept w c).session = doRead ((opened w c).close goingAway) := by
      rw [onAccept, Callbacks.onAccept, hec, hstopping]
      rfl
    rw [hclose]
    exact (boundToClose_close _ goingAway).posts (posts_doRead _)

/-- The handshake has ended: a session that is to stop closes. -/
theorem Inv.onAccept (h : Inv w) (hstage : w.stage ≠ .accepted) (c : Completion κ) :
    Inv (Lifecycle.onAccept w c) := by
  obtain ⟨-, hclosing, -⟩ := h.shut hstage
  have hfresh := (h.sound.fresh hclosing).1
  have hopened : Sound (opened w c) :=
    ⟨fun hc ↦ absurd (hclosing.symm.trans hc) Bool.false_ne_true, fun _ ↦ ⟨hfresh, rfl⟩⟩
  exact ⟨hopened.posts (posts_onAccept _ _), fun hnot ↦ absurd rfl hnot,
    fun _ ↦ phase_onAccept _ _, fun hstopping _ ↦ Or.inr (boundToClose_onAccept w c hstopping)⟩

/-- The strand runs a task before the handshake has ended. -/
theorem Inv.queue (h : Inv w) (hstage : w.stage ≠ .accepted) (hmoves : Moves w.session.queue q) :
    Inv { w with session := { w.session with queue := q } } := by
  obtain ⟨hopen, hclosing, hclosed⟩ := h.shut hstage
  obtain ⟨hwith, hop⟩ := h.sound.fresh hclosing
  -- a close finds the stream not open
  have hsame : q.isOpen = false ∧ q.closing = false ∧ q.closedWith = none := by
    cases hmoves with
    | posts _ hclosing' hopen' hclosed' _ =>
      exact ⟨hopen'.trans hopen, hclosing'.trans hclosing, hclosed'.trans hwith⟩
    | sends _ _ _ _ hclosing' hopen' hclosed' _ =>
      exact ⟨hopen'.trans hopen, hclosing'.trans hclosing, hclosed'.trans hwith⟩
    | closes code tasks hran heq =>
      rw [heq, runClose, if_pos (by rw [hopen, Bool.not_false, Bool.or_true])]
      exact ⟨hopen, hclosing, hwith⟩
    | lost heq =>
      rw [heq]
      exact ⟨rfl, hclosing, hwith⟩
  refine ⟨⟨fun hc ↦ ?_, fun _ ↦ ⟨hsame.2.2, hop⟩⟩, fun _ ↦ ⟨hsame.1, hsame.2.1, hclosed⟩,
    fun haccepted ↦ absurd haccepted hstage, fun hstopping hregistered ↦ ?_⟩
  · exact absurd (hsame.2.1.symm.trans hc) Bool.false_ne_true
  · exact (h.heeds hstopping hregistered).imp_right fun hbound ↦ hbound.moves hmoves

/-- **The step lemma**: a stop is not lost. -/
theorem inv_step {a : Action κ} (h : Inv w) (hstep : step limit w a = some w') : Inv w' := by
  cases a with
  | run =>
    obtain ⟨hstage, hstep⟩ := Option.ite_none_right_eq_some.1 hstep
    have hshut : w.stage ≠ .accepted := by rw [hstage]; exact nofun
    rw [← Option.some.inj hstep, add]
    split
    · exact h.stage hshut nofun
    · next hstopping =>
      have hadded : Inv { w with stage := .added } := h.stage hshut nofun
      exact ⟨hadded.sound, hadded.shut, hadded.phase, fun hs ↦ absurd hs hstopping⟩
  | upgrade routed =>
    obtain ⟨hstage, hstep⟩ := Option.ite_none_right_eq_some.1 hstep
    exact Option.some.inj hstep ▸ h.upgrade (by rw [hstage]; exact nofun) routed
  | stopAll =>
    rw [← Option.some.inj hstep]
    refine ⟨h.sound, h.shut, h.phase, fun _ hregistered ↦ Or.inl ?_⟩
    show 0 < if w.registered then w.stoppers + 1 else w.stoppers
    rw [if_pos (show w.registered = true from hregistered)]
    exact Nat.succ_pos _
  | stop =>
    obtain ⟨-, hstep⟩ := Option.ite_none_right_eq_some.1 hstep
    rw [← Option.some.inj hstep]
    have hposts := posts_close w.session goingAway
    refine ⟨h.sound.posts hposts, fun hstage ↦ ?_, h.phase, fun _ _ ↦
      Or.inr (boundToClose_close w.session goingAway)⟩
    obtain ⟨hopen, hclosing, hclosed⟩ := h.shut hstage
    exact ⟨hposts.isOpen.trans hopen, hposts.closing.trans hclosing, hclosed⟩
  | rejected =>
    obtain ⟨hstage, hstep⟩ := Option.ite_none_right_eq_some.1 hstep
    rw [← Option.some.inj hstep, onReject]
    exact h.stage (by rw [hstage]; exact nofun) (by split <;> exact nofun)
  | shutDown =>
    obtain ⟨hstage, hstep⟩ := Option.ite_none_right_eq_some.1 hstep
    exact Option.some.inj hstep ▸ h.stage (by rw [hstage]; exact nofun) nofun
  | accepted c =>
    obtain ⟨hstage, hstep⟩ := Option.ite_none_right_eq_some.1 hstep
    exact Option.some.inj hstep ▸ h.onAccept (by rw [hstage]; exact nofun) c
  | queue a =>
    obtain ⟨hnot, hstep⟩ := Option.ite_none_left_eq_some.1 hstep
    obtain ⟨q, hq, rfl⟩ := Option.map_eq_some_iff.1 hstep
    exact h.queue (fun haccepted ↦ hnot (Or.inl haccepted)) (moves_of_step hq)
  | session a =>
    obtain ⟨hstage, hstep⟩ := Option.ite_none_right_eq_some.1 hstep
    obtain ⟨t, ht, rfl⟩ := Option.map_eq_some_iff.1 hstep
    have hgoes := goes_of_step (h.phase hstage) ht
    exact ⟨hgoes.sound h.sound, fun hnot ↦ absurd hstage hnot, fun _ ↦ hgoes.phase (h.phase hstage),
      fun hstopping hregistered ↦ (h.heeds hstopping hregistered).imp_right hgoes.bound⟩

/-- **The run lemma.** -/
theorem inv_of_reachable (h : (machine limit).Reachable w) : Inv w := by
  refine h.invariant (I := Inv) ?_ fun _ _ _ hw hstep ↦ inv_step hw hstep
  rintro _ ⟨tls, rfl⟩
  exact ⟨⟨nofun, fun _ ↦ ⟨rfl, rfl⟩⟩, fun _ ↦ ⟨rfl, rfl, rfl⟩, nofun, nofun⟩

/-! ### Sessions that were not admitted -/

/-- The handshake of a session that the registry does not have never begins. -/
structure Outside (w : Lifecycle κ) : Prop where
  added : w.stage ≠ .added
  handshaking : w.stage ≠ .handshaking
  accepted : w.stage ≠ .accepted
  stoppers : w.stoppers = 0

/-- The refusal goes on. -/
theorem Outside.refusing (h : Outside w) {stage : Stage}
    (hstage : stage = .rejecting ∨ stage = .shuttingDown ∨ stage = .refused) :
    Outside { w with stage } := by
  rcases hstage with rfl | rfl | rfl <;> exact ⟨nofun, nofun, nofun, h.stoppers⟩

/-- **The step lemma** for a session that the registry does not have. -/
theorem outside_step {a : Action κ} (h : w.registered = false → Outside w)
    (hstep : step limit w a = some w') (hout' : w'.registered = false) : Outside w' := by
  cases a with
  | run =>
    obtain ⟨-, hstep⟩ := Option.ite_none_right_eq_some.1 hstep
    rw [← Option.some.inj hstep, add] at hout' ⊢
    split at hout'
    · next hstopping =>
      rw [if_pos hstopping]
      exact (h hout').refusing (Or.inl rfl)
    · exact absurd (show true = false from hout').symm Bool.false_ne_true
  | upgrade routed =>
    obtain ⟨hstage, hstep⟩ := Option.ite_none_right_eq_some.1 hstep
    have hsame : (upgrade w routed).registered = w.registered := by
      cases routed with
      | matched preMiddlewares =>
        rw [upgrade]
        dsimp only
        split <;> rfl
      | unmatched | threw => rfl
    rw [← Option.some.inj hstep, hsame] at hout'
    exact absurd hstage (h hout').added
  | stopAll =>
    rw [← Option.some.inj hstep] at hout' ⊢
    have hold := h hout'
    refine ⟨hold.added, hold.handshaking, hold.accepted, ?_⟩
    show (if w.registered then w.stoppers + 1 else w.stoppers) = 0
    rw [show w.registered = false from hout', if_neg Bool.false_ne_true, hold.stoppers]
  | stop =>
    obtain ⟨hstoppers, hstep⟩ := Option.ite_none_right_eq_some.1 hstep
    rw [← Option.some.inj hstep] at hout'
    have hold := (h hout').stoppers
    omega
  | rejected =>
    obtain ⟨-, hstep⟩ := Option.ite_none_right_eq_some.1 hstep
    rw [← Option.some.inj hstep] at hout' ⊢
    refine (h hout').refusing (Or.inr ?_)
    cases w.tls with
    | true => exact Or.inl rfl
    | false => exact Or.inr rfl
  | shutDown =>
    obtain ⟨-, hstep⟩ := Option.ite_none_right_eq_some.1 hstep
    rw [← Option.some.inj hstep] at hout' ⊢
    exact (h hout').refusing (Or.inr (Or.inr rfl))
  | accepted c =>
    obtain ⟨hstage, hstep⟩ := Option.ite_none_right_eq_some.1 hstep
    rw [← Option.some.inj hstep] at hout'
    exact absurd hstage (h hout').handshaking
  | queue a =>
    obtain ⟨-, hstep⟩ := Option.ite_none_left_eq_some.1 hstep
    obtain ⟨q, -, rfl⟩ := Option.map_eq_some_iff.1 hstep
    have hold := h hout'
    exact ⟨hold.added, hold.handshaking, hold.accepted, hold.stoppers⟩
  | session a =>
    obtain ⟨hstage, hstep⟩ := Option.ite_none_right_eq_some.1 hstep
    obtain ⟨t, -, rfl⟩ := Option.map_eq_some_iff.1 hstep
    exact absurd hstage (h hout').accepted

/-- **The run lemma** for such a session. -/
theorem outside_of_reachable (h : (machine limit).Reachable w) (hout : w.registered = false) :
    Outside w := by
  refine h.invariant (I := fun w : Lifecycle κ ↦ w.registered = false → Outside w) ?_
    (fun _ _ _ hw hstep ↦ outside_step hw hstep) hout
  rintro _ ⟨tls, rfl⟩ -
  exact ⟨nofun, nofun, nofun, rfl⟩

/-! ### After the handshake -/

/-- The session, once it was accepted. -/
def afterHandshake (w : Lifecycle κ) : Option (Session κ) :=
  if w.stage = .accepted then some w.session else none

theorem afterHandshake_of_accepted (h : w.stage = .accepted) :
    w.afterHandshake = some w.session :=
  if_pos h

theorem afterHandshake_of_ne (h : w.stage ≠ .accepted) : w.afterHandshake = none :=
  if_neg h

/-- The end of the handshake is the beginning of a session. -/
theorem onAccept_reachable (h : Inv w) (hstage : w.stage ≠ .accepted) (c : Completion κ) :
    (Callbacks.machine limit).Reachable (onAccept w c).session := by
  obtain ⟨-, hclosing, hclosed⟩ := h.shut hstage
  have hinit : (Callbacks.machine limit).Init (opened w c) :=
    ⟨(opened w c).queue, w.session.context, hclosing, (h.sound.fresh hclosing).1, hclosed, rfl⟩
  have hstep : Callbacks.step limit (opened w c) (.accepted { c with stopping := w.stopping }) =
      some (onAccept w c).session := by
    rw [Callbacks.step]
    exact if_pos rfl
  exact (Machine.Reachable.init hinit).step (a := .accepted _) hstep

theorem stage_add (w : Lifecycle κ) : (add w).stage ≠ .accepted := by
  rw [add]
  split
  · exact show Stage.rejecting ≠ .accepted from nofun
  · exact show Stage.added ≠ .accepted from nofun

theorem stage_upgrade (w : Lifecycle κ) (routed : Routed κ) :
    (upgrade w routed).stage ≠ .accepted := by
  cases routed with
  | matched preMiddlewares =>
    rw [upgrade]
    dsimp only
    split
    · exact show Stage.handshaking ≠ .accepted from nofun
    · exact show Stage.rejecting ≠ .accepted from nofun
  | unmatched => exact show Stage.rejecting ≠ .accepted from nofun
  | threw => exact show Stage.refused ≠ .accepted from nofun

theorem stage_onReject (w : Lifecycle κ) : (onReject w).stage ≠ .accepted := by
  show (if w.tls then Stage.shuttingDown else .refused) ≠ .accepted
  split <;> exact nofun

/-- Only on_accept() accepts. -/
theorem accepted_of_step {a : Action κ} (hstep : step limit w a = some w')
    (hold : w.stage ≠ .accepted) (hnew : w'.stage = .accepted) : ∃ c, w' = onAccept w c := by
  cases a with
  | accepted c => exact ⟨c, (Option.some.inj (Option.ite_none_right_eq_some.1 hstep).2).symm⟩
  | run =>
    obtain ⟨-, hstep⟩ := Option.ite_none_right_eq_some.1 hstep
    exact absurd (Option.some.inj hstep ▸ hnew) (stage_add w)
  | upgrade routed =>
    obtain ⟨-, hstep⟩ := Option.ite_none_right_eq_some.1 hstep
    exact absurd (Option.some.inj hstep ▸ hnew) (stage_upgrade w routed)
  | stopAll => exact absurd ((congrArg Lifecycle.stage (Option.some.inj hstep)).trans hnew) hold
  | stop =>
    obtain ⟨-, hstep⟩ := Option.ite_none_right_eq_some.1 hstep
    exact absurd ((congrArg Lifecycle.stage (Option.some.inj hstep)).trans hnew) hold
  | rejected =>
    obtain ⟨-, hstep⟩ := Option.ite_none_right_eq_some.1 hstep
    exact absurd (Option.some.inj hstep ▸ hnew) (stage_onReject w)
  | shutDown =>
    obtain ⟨-, hstep⟩ := Option.ite_none_right_eq_some.1 hstep
    rw [← Option.some.inj hstep] at hnew
    exact absurd hnew (show Stage.refused ≠ .accepted from nofun)
  | queue a =>
    obtain ⟨-, hstep⟩ := Option.ite_none_left_eq_some.1 hstep
    obtain ⟨q, -, rfl⟩ := Option.map_eq_some_iff.1 hstep
    exact absurd hnew hold
  | session a => exact absurd (Option.ite_none_right_eq_some.1 hstep).1 hold

/-- stop() is a call of close() from another thread. -/
theorem stop_follows (h : Inv w) (hstage : w.stage = .accepted) :
    (Callbacks.machine limit).step w.session (.queue (.close goingAway)) =
      some (w.session.close goingAway) := by
  have hop : (if w.session.queue.closing then w.session.closeOp else
      w.session.queue.closedWith) = w.session.closeOp := by
    cases hclosing : w.session.queue.closing with
    | true => rfl
    | false =>
      obtain ⟨hclosed, hop⟩ := h.sound.fresh hclosing
      rw [hclosed, hop]
      rfl
  have hstep : (Callbacks.machine limit).step w.session (.queue (.close goingAway)) =
      some { w.session with
        queue := WebSocketSession.close w.session.queue goingAway
        closeOp := if w.session.queue.closing then w.session.closeOp else
          w.session.queue.closedWith } :=
    if_neg (h.phase hstage)
  rw [hstep, hop]
  rfl

/-- **After its handshake a session is one of the sessions that the callbacks' machine describes.**
Whatever holds there of every run holds here. -/
theorem callbacks_reachable (h : (machine limit).Reachable w) (hstage : w.stage = .accepted) :
    (Callbacks.machine limit).Reachable w.session := by
  refine h.part afterHandshake ?_ ?_ (afterHandshake_of_accepted hstage)
  · rintro _ ⟨tls, rfl⟩
    exact .stays none
  intro w a w' hw hstep
  have hinv := inv_of_reachable hw
  by_cases hold : w.stage = .accepted
  · have hgoes : w'.stage = .accepted ∧
        (Callbacks.machine limit).Follows (some w.session) (some w'.session) := by
      cases a with
      | stopAll =>
        rw [← Option.some.inj hstep]
        exact ⟨hold, .stays _⟩
      | stop =>
        obtain ⟨-, hstep⟩ := Option.ite_none_right_eq_some.1 hstep
        rw [← Option.some.inj hstep]
        exact ⟨hold, .steps _ (.queue (.close goingAway)) _ trivial (stop_follows hinv hold)⟩
      | session a =>
        obtain ⟨-, hstep⟩ := Option.ite_none_right_eq_some.1 hstep
        obtain ⟨t, ht, rfl⟩ := Option.map_eq_some_iff.1 hstep
        exact ⟨hold, .steps _ a _ trivial ht⟩
      | queue a => exact absurd (Or.inl hold) (Option.ite_none_left_eq_some.1 hstep).1
      | run | upgrade | rejected | shutDown | accepted =>
        obtain ⟨hstage, -⟩ := Option.ite_none_right_eq_some.1 hstep
        rw [hold] at hstage
        exact absurd hstage nofun
    rw [afterHandshake_of_accepted hold, afterHandshake_of_accepted hgoes.1]
    exact hgoes.2
  · rw [afterHandshake_of_ne hold]
    by_cases hnew : w'.stage = .accepted
    · rw [afterHandshake_of_accepted hnew]
      obtain ⟨c, rfl⟩ := accepted_of_step hstep hold hnew
      exact .appears _ _ (onAccept_reachable hinv hold c)
    · rw [afterHandshake_of_ne hnew]
      exact .stays none

/-! ### The code of the close -/

/-- A step that posts no close but one with 1001. -/
def OnlyGoingAway (limit : ℕ) (w : Lifecycle κ) (a : Action κ) : Prop :=
  ∀ w' ∈ step limit w a, ∀ task ∈ w'.session.queue.tasks,
    task ∈ w.session.queue.tasks ∨ task.isSend = true ∨ task = .close goingAway

instance (limit : ℕ) (w : Lifecycle κ) (a : Action κ) : Decidable (OnlyGoingAway limit w a) :=
  inferInstanceAs (Decidable (∀ w' ∈ step limit w a, ∀ task ∈ w'.session.queue.tasks, _))

/-- async_close is called with the code of a task. -/
theorem Moves.closedWith (h : Moves q q') {code : CloseCode} (hcode : q'.closedWith = some code) :
    q.closedWith = some code ∨ .close code ∈ q.tasks := by
  cases h with
  | posts _ _ _ hclosed _ => exact Or.inl (hclosed ▸ hcode)
  | sends _ _ _ _ _ _ hclosed _ => exact Or.inl (hclosed ▸ hcode)
  | closes code' tasks hran heq =>
    rw [heq, runClose] at hcode
    split at hcode
    · exact Or.inl hcode
    · obtain rfl := Option.some.inj hcode
      exact Or.inr (hran ▸ List.mem_cons_self)
  | lost heq => exact Or.inl (by rw [heq] at hcode; exact hcode)

/-- A stream is closed with a code that was posted. -/
theorem closedWith_step {a : Action κ} (hstep : step limit w a = some w') {code : CloseCode}
    (hcode : w'.session.queue.closedWith = some code) :
    w.session.queue.closedWith = some code ∨ .close code ∈ w.session.queue.tasks := by
  have hposts : ∀ {t : Session κ}, Posts w.session t → t.queue.closedWith = some code →
      w.session.queue.closedWith = some code ∨ .close code ∈ w.session.queue.tasks :=
    fun hposts hcode ↦ Or.inl (hposts.closedWith ▸ hcode)
  cases a with
  | run =>
    obtain ⟨-, hstep⟩ := Option.ite_none_right_eq_some.1 hstep
    rw [← Option.some.inj hstep, add] at hcode
    split at hcode <;> exact Or.inl hcode
  | upgrade routed =>
    obtain ⟨-, hstep⟩ := Option.ite_none_right_eq_some.1 hstep
    rw [← Option.some.inj hstep] at hcode
    cases routed with
    | matched preMiddlewares =>
      rw [upgrade] at hcode
      dsimp only at hcode
      split at hcode <;> exact hposts (posts_routeUpgrade w.session preMiddlewares) hcode
    | unmatched | threw => exact Or.inl hcode
  | stopAll =>
    exact Or.inl ((congrArg (·.session.queue.closedWith) (Option.some.inj hstep)).trans hcode)
  | stop | rejected | shutDown =>
    obtain ⟨-, hstep⟩ := Option.ite_none_right_eq_some.1 hstep
    exact Or.inl ((congrArg (·.session.queue.closedWith) (Option.some.inj hstep)).trans hcode)
  | accepted c =>
    obtain ⟨-, hstep⟩ := Option.ite_none_right_eq_some.1 hstep
    rw [← Option.some.inj hstep] at hcode
    exact Or.inl ((posts_onAccept (opened w c) _).closedWith.symm.trans hcode)
  | queue a =>
    obtain ⟨-, hstep⟩ := Option.ite_none_left_eq_some.1 hstep
    obtain ⟨q, hq, rfl⟩ := Option.map_eq_some_iff.1 hstep
    exact (moves_of_step hq).closedWith hcode
  | session a =>
    obtain ⟨-, hstep⟩ := Option.ite_none_right_eq_some.1 hstep
    obtain ⟨t, ht, rfl⟩ := Option.map_eq_some_iff.1 hstep
    cases a with
    | accepted c =>
      obtain ⟨-, ht⟩ := Option.ite_none_right_eq_some.1 ht
      exact hposts (posts_onAccept w.session c) ((Option.some.inj ht) ▸ hcode)
    | read c =>
      obtain ⟨-, ht⟩ := Option.ite_none_right_eq_some.1 ht
      exact hposts (posts_onRead w.session c) ((Option.some.inj ht) ▸ hcode)
    | closed c =>
      obtain ⟨code', -, rfl⟩ := Option.map_eq_some_iff.1 ht
      exact Or.inl
        ((posts_emitClose { w.session with closeOp := none } code' c.onClose).closedWith ▸ hcode)
    | queue a =>
      obtain ⟨-, ht⟩ := Option.ite_none_left_eq_some.1 ht
      obtain ⟨q, hq, rfl⟩ := Option.map_eq_some_iff.1 ht
      exact (moves_of_step hq).closedWith hcode

/-- Where every close that is posted has 1001, async_close is called with that. -/
theorem closedWith_of_only (h : (machine limit).ReachableVia (OnlyGoingAway limit) w)
    {code : CloseCode} (hcode : w.session.queue.closedWith = some code) : code = goingAway := by
  have hall : (∀ code, .close code ∈ w.session.queue.tasks → code = goingAway) ∧
      ∀ code, w.session.queue.closedWith = some code → code = goingAway := by
    refine h.invariant (I := fun w : Lifecycle κ ↦
      (∀ code, .close code ∈ w.session.queue.tasks → code = goingAway) ∧
        ∀ code, w.session.queue.closedWith = some code → code = goingAway) ?_ ?_
    · rintro _ ⟨tls, rfl⟩
      exact ⟨fun code hmem ↦ absurd hmem List.not_mem_nil, nofun⟩
    · rintro w a w' ⟨htasks, hclosed⟩ honly hstep
      refine ⟨fun code hmem ↦ ?_, fun code hcode ↦ ?_⟩
      · rcases honly w' hstep _ hmem with hold | hsend | hclose
        · exact htasks code hold
        · exact absurd hsend Bool.false_ne_true
        · exact Task.close.inj hclose
      · exact (closedWith_step hstep hcode).elim (hclosed code) (htasks code)
  exact hall.2 code hcode

/-- **A stop is not lost.** Take a session that the registry knew when the server began to stop.
Once every stopAll() that took it has called stop() and the strand has run the closes that were
posted, the connection is closing or no longer open, whether the stop came before, during or after
the handshake. If nobody asked for another close, it closes with 1001. -/
theorem stop_closes (h : (machine limit).Reachable w) (hstopping : w.stopping = true)
    (hregistered : w.registered = true) (hcalled : w.stoppers = 0)
    (hran : ∀ code, .close code ∉ w.session.queue.tasks)
    (hopen : w.session.queue.isOpen = true) :
    w.session.queue.closing = true ∧
      ((machine limit).ReachableVia (OnlyGoingAway limit) w →
        w.session.queue.closedWith = some goingAway) := by
  have hinv := inv_of_reachable h
  have hclosing : w.session.queue.closing = true := by
    rcases hinv.heeds hstopping hregistered with hpending | ⟨code, hcode⟩ | hclosing | hshut
    · exact absurd hcalled (by omega)
    · exact absurd hcode (hran code)
    · exact hclosing
    · exact absurd (hopen.symm.trans hshut) (by decide)
  refine ⟨hclosing, fun honly ↦ ?_⟩
  obtain ⟨code, hcode⟩ := Option.ne_none_iff_exists'.1 (hinv.sound.closing hclosing)
  rw [hcode, closedWith_of_only honly hcode]

/-- The stop comes during the handshake: its close finds the stream not open, and on_accept() posts
another one. -/
def stoppedInHandshake : List (Action ℕ) :=
  [.run, .upgrade (.matched [{}]), .stopAll, .stop, .queue .task, .accepted {},
    .session (.queue .task)]

theorem stop_closes_stoppedInHandshake :
    ∃ w, (machine 8).run { tls := false } stoppedInHandshake = some w ∧
      w.session.queue.isOpen = true ∧ w.session.queue.closing = true ∧
        w.session.queue.closedWith = some goingAway := by
  have hinit : (machine 8).Init ({ tls := false } : Lifecycle ℕ) := ⟨false, rfl⟩
  have honly := (Machine.ReachableVia.init hinit).run (C := OnlyGoingAway 8) stoppedInHandshake
    (by decide) rfl
  obtain ⟨hclosing, hcode⟩ := stop_closes honly.reachable rfl rfl rfl (fun _ ↦ List.not_mem_nil) rfl
  exact ⟨_, rfl, rfl, hclosing, hcode honly⟩

end CppGate.WebSocketSession.Lifecycle
