import CppGate.WebSocketClient.Handlers

/-!
# A closed connection stays closed

Once a close was requested, or the server declined the upgrade, a connection makes no further
attempt: no resolve begins, it never waits for a retry, and nothing is reported about one. Every
handler but that of a declined upgrade does so only where no close was requested (`Handled`), and
only doClose() requests one.
-/

namespace CppGate.WebSocketClient

open CppGate.WebSocketSession (CloseCode)

variable {cfg : Config} {s t : Connection}

/-! ### Closed for good -/

/-- Nothing makes the connection try again. -/
structure ForGood (s : Connection) : Prop where
  ended : s.stopRequested = true ∨ s.state = .stopped
  state : s.state.mayAttempt = false

/-- A step that does not try again: it begins no resolve, reports no failure and no retry, and the
connection does not wait for one. -/
structure Settled (s : Connection) (action : Action) (t : Connection) : Prop where
  resolve : ∀ gen, .resolve gen ∉ begun s action t
  waiting : t.state ≠ .waiting
  delivered : ∃ events, t.delivered = s.delivered ++ events ∧
    ∀ event ∈ events, event.isReport = false

/-- A connection that is to close does not wait to try again. -/
theorem ForGood.not_waiting (h : ForGood s) : s.state ≠ .waiting := fun hs ↦ by
  have hstate := h.state
  rw [hs] at hstate
  exact Bool.false_ne_true hstate.symm

/-- A step that leaves the state, the operations and the events as they are. -/
theorem ForGood.frame (h : ForGood s) {action : Action}
    (hcomplete : ∀ operation c, action ≠ .complete operation c)
    (hstop : t.stopRequested = s.stopRequested) (hstate : t.state = s.state)
    (hops : t.operations = s.operations) (hdelivered : t.delivered = s.delivered) :
    ForGood t ∧ Settled s action t := by
  have ht : ForGood t := ⟨by rw [hstop, hstate]; exact h.ended, by rw [hstate]; exact h.state⟩
  refine ⟨ht, fun gen ↦ not_mem_begun hcomplete hops _, ht.not_waiting, [], ?_,
    fun _ h ↦ absurd h List.not_mem_nil⟩
  rw [hdelivered, List.append_nil]

/-- A connection that will not try again ignores close(). -/
theorem ForGood.doClose (h : ForGood s) (code : CloseCode) : doClose s code = s := by
  refine if_pos ?_
  rw [Bool.or_eq_true, beq_iff_eq]
  exact h.ended

/-- start() finds that close() came first. -/
theorem ForGood.start (h : ForGood s) (hinv : Inv cfg s) (hstarting : s.starting = true) :
    ForGood (start cfg s) ∧ Settled s .start (start cfg s) := by
  obtain ⟨hstate, hstop⟩ : s.state = .stopped ∧ s.stopRequested = true := by
    refine (hinv.starting hstarting).resolve_left fun hidle ↦ ?_
    have hstate := h.state
    rw [hidle] at hstate
    exact Bool.false_ne_true hstate.symm
  have hdropped (events : List Event) : s.delivered ++ events.filter s.callbacks.wants =
      s.delivered := by
    have hnone : events.filter s.callbacks.wants = [] := by
      rw [hinv.callbacks, if_pos hstate, List.filter_eq_nil_iff]
      intro event _
      cases event <;> exact Bool.false_ne_true
    rw [hnone, List.append_nil]
  rw [WebSocketClient.start]
  split
  · exact h.frame (fun _ _ ↦ Action.noConfusion) rfl hstate.symm rfl (hdropped _)
  · rw [attempt, if_pos (by simp only [hstop, Bool.true_or])]
    exact h.frame (fun _ _ ↦ Action.noConfusion) rfl hstate.symm rfl rfl

/-- A completion, once nothing makes the connection try again. -/
theorem ForGood.complete (h : ForGood s) (operation : Operation) (c : Completion) :
    ForGood (handle cfg (s.without operation) c operation) ∧
      Settled s (.complete operation c) (handle cfg (s.without operation) c operation) := by
  rcases h.ended with hstop | hstopped
  · have hhandled := handled_handle cfg (s.without operation) c operation
    obtain ⟨begun, hbegun, hallowed⟩ := hhandled.operations
    obtain ⟨events, hevents, hreport⟩ := hhandled.delivered
    have hgo : ¬(s.without operation).stopRequested = false := by
      show ¬s.stopRequested = false
      rw [hstop]
      exact Bool.noConfusion
    have ht : ForGood (handle cfg (s.without operation) c operation) := by
      refine ⟨Or.inl (hhandled.stopRequested.trans hstop), Bool.eq_false_iff.2 fun hmay ↦ ?_⟩
      rcases hhandled.mayAttempt hmay with hs | hs
      · exact Bool.false_ne_true (h.state.symm.trans hs)
      · exact hgo hs
    refine ⟨ht, fun gen ↦ ?_, ht.not_waiting, events, hevents, fun event hevent ↦ ?_⟩
    · exact fun hgen ↦ hgo (hallowed _ ((mem_diff_iff hbegun).1 hgen))
    · exact Bool.eq_false_iff.2 fun hr ↦ hgo (hreport event hevent hr).1
  · have hstate : (s.without operation).state = .stopped := hstopped
    rw [handle_of_stopped hstate]
    refine ⟨⟨Or.inr hstate, h.state⟩, fun gen ↦ ?_, h.not_waiting, [], ?_,
      fun _ h ↦ absurd h List.not_mem_nil⟩
    · exact fun hgen ↦ List.not_mem_nil ((mem_diff_iff (List.nil_append _).symm).1 hgen)
    · exact (List.append_nil _).symm

/-- **One step** of a connection that will not try again. -/
theorem ForGood.step (h : ForGood s) (hinv : Inv cfg s) {action : Action}
    (hstep : step cfg s action = some t) : ForGood t ∧ Settled s action t := by
  cases stepped_of_step hstep with
  | start hstarting => exact h.start hinv hstarting
  | close | destroy | send | unconnected =>
    exact h.frame (fun _ _ ↦ Action.noConfusion) rfl rfl rfl rfl
  | sender =>
    rw [send_eq]
    exact h.frame (fun _ _ ↦ Action.noConfusion) rfl rfl rfl rfl
  | task task tasks =>
    cases task with
    | close code =>
      have h' : ForGood { s with tasks := tasks } := ⟨h.ended, h.state⟩
      rw [runTask, h'.doClose]
      exact h.frame (fun _ _ ↦ Action.noConfusion) rfl rfl rfl rfl
    | send message gen =>
      rw [runTask, runSend_eq]
      exact h.frame (fun _ _ ↦ Action.noConfusion) rfl rfl rfl rfl
  | complete operation c => exact h.complete operation c
  | written =>
    rw [onWrite_eq]
    exact h.frame (fun _ _ ↦ Action.noConfusion) rfl rfl rfl rfl

/-- Along every run, too. -/
theorem ForGood.run (h : ForGood s) (hinv : Inv cfg s) (actions : List Action) :
    (machine cfg).EveryStep Settled s actions := by
  induction actions generalizing s with
  | nil => trivial
  | cons action actions ih =>
    intro t ht
    obtain ⟨hgood, hsettled⟩ := h.step hinv ht
    exact ⟨hsettled, ih hgood (inv_step s action t hinv ht)⟩

/-! ### What closes a connection for good -/

/-- The step runs doClose(). -/
def RunsClose (s : Connection) (action : Action) : Prop :=
  action = .task ∧ ∃ code, s.tasks.head? = some (.close code)

/-- The server declines the upgrade: the step runs onUpgrade() with that error. -/
def Declines (s : Connection) (action : Action) : Prop :=
  ∃ gen c, action = .complete (.upgrade gen) c ∧ stale s gen = false ∧
    c.ec = some .upgradeDeclined

/-- After doClose() nothing makes it try again. -/
theorem forGood_doClose {s : Connection} (h : s.stopRequested = true → ForGood s)
    (code : CloseCode) : ForGood (doClose s code) := by
  rw [doClose]
  split
  · next hgo =>
    rw [Bool.or_eq_true, beq_iff_eq] at hgo
    rcases hgo with hstop | hstopped
    · exact h hstop
    · exact ⟨Or.inr hstopped, by rw [hstopped]; rfl⟩
  · dsimp only
    split
    · exact ⟨Or.inl rfl, rfl⟩
    · next hs => exact ⟨Or.inl rfl, by show s.state.mayAttempt = false; rw [hs]; rfl⟩
    · exact ⟨Or.inl rfl, rfl⟩

/-- Only doClose() requests a stop. -/
theorem stopRequested_step {action : Action} (hstep : step cfg s action = some t) :
    t.stopRequested = s.stopRequested ∨ RunsClose s action := by
  cases stepped_of_step hstep with
  | start =>
    refine Or.inl ?_
    rw [start]
    split
    · rfl
    · next target _ =>
      have hattempt : Handled [] [] { s with starting := false, target := target } _ :=
        Handled.refl.attempt
      exact hattempt.stopRequested
  | close | destroy | send | unconnected => exact Or.inl rfl
  | sender =>
    rw [send_eq]
    exact Or.inl rfl
  | task task tasks ht =>
    cases task with
    | close code => exact Or.inr ⟨rfl, code, by rw [ht, List.head?_cons]⟩
    | send message gen =>
      rw [runTask, runSend_eq]
      exact Or.inl rfl
  | complete operation c => exact Or.inl (handled_handle _ _ c operation).stopRequested
  | written =>
    rw [onWrite_eq]
    exact Or.inl rfl

/-- doClose() begins no resolve and delivers nothing. -/
theorem doClose_quiet (s : Connection) (code : CloseCode) :
    (doClose s code).delivered = s.delivered ∧
      ∃ begun, (doClose s code).operations = begun ++ s.operations ∧
        ∀ gen, Operation.resolve gen ∉ begun := by
  have hnone (gen : ℕ) : Operation.resolve gen ∉ ([] : List Operation) := List.not_mem_nil
  rw [doClose]
  split
  · exact ⟨rfl, [], rfl, hnone⟩
  · dsimp only
    split
    · refine ⟨rfl, [.close s.generation code], rfl, fun gen hgen ↦ ?_⟩
      exact Operation.noConfusion (List.mem_singleton.1 hgen)
    · exact ⟨rfl, [], rfl, hnone⟩
    · exact ⟨rfl, [], rfl, hnone⟩

/-- The step that runs doClose(). -/
theorem runsClose_step {action : Action} (h : s.stopRequested = true → ForGood s)
    (hclose : RunsClose s action) (hstep : step cfg s action = some t) :
    ForGood t ∧ Settled s action t := by
  obtain ⟨rfl, code, htask⟩ := hclose
  cases stepped_of_step hstep with
  | task task tasks ht =>
    rw [ht, List.head?_cons, Option.some.injEq] at htask
    obtain rfl := htask
    have htaken : s.stopRequested = true → ForGood { s with tasks := tasks } :=
      fun hs ↦ ⟨(h hs).ended, (h hs).state⟩
    have hclosed := forGood_doClose (s := { s with tasks := tasks }) htaken code
    obtain ⟨hdelivered, begun, hbegun, hresolve⟩ := doClose_quiet { s with tasks := tasks } code
    refine ⟨hclosed, fun gen hgen ↦ hresolve gen ((mem_diff_iff hbegun).1 hgen),
      hclosed.not_waiting, [], ?_, fun _ h ↦ absurd h List.not_mem_nil⟩
    exact hdelivered.trans (List.append_nil _).symm

/-- Once a close was requested, the connection does not try again. -/
theorem forGood_of_reachable (h : (machine cfg).Reachable s) (hstop : s.stopRequested = true) :
    ForGood s := by
  refine (h.invariant (I := fun s ↦ Inv cfg s ∧ (s.stopRequested = true → ForGood s))
    (fun s hs ↦ ⟨inv_init s hs, ?_⟩) ?_).2 hstop
  · obtain rfl := hs
    exact (absurd · Bool.false_ne_true)
  · intro s action t ⟨hinv, hgood⟩ hstep
    refine ⟨inv_step s action t hinv hstep, fun ht ↦ ?_⟩
    rcases stopRequested_step hstep with hs | hclose
    · exact ((hgood (hs ▸ ht)).step hinv hstep).1
    · exact (runsClose_step hgood hclose hstep).1

/-- What the declined upgrade delivers. -/
theorem declines_step {action : Action} (hinv : Inv cfg s) (hdecline : Declines s action)
    (hstep : step cfg s action = some t) :
    t.state = .stopped ∧ t.delivered = s.delivered ++
      if s.stopRequested then [] else [.onError .upgradeRejected].filter cfg.callbacks.wants := by
  obtain ⟨gen, c, rfl, hfresh, hdeclined⟩ := hdecline
  have hcallbacks : s.callbacks = cfg.callbacks := by
    have hs : ¬s.state = .stopped := fun hs ↦ by
      rw [stale, hs, beq_self_eq_true, Bool.or_true] at hfresh
      exact Bool.false_ne_true hfresh.symm
    rw [hinv.callbacks, if_neg hs]
  have hfresh' : ¬stale (s.without (.upgrade gen)) gen = true := Bool.eq_false_iff.1 hfresh
  cases stepped_of_step hstep with
  | complete =>
    rw [handle, if_neg hfresh', onUpgrade, hdeclined]
    refine ⟨rfl, ?_⟩
    dsimp only
    split
    · next hstop =>
      have hs : s.stopRequested = true := hstop
      rw [if_pos hs, List.append_nil]
      rfl
    · next hstop =>
      have hs : ¬s.stopRequested = true := hstop
      rw [if_neg hs, ← hcallbacks]
      rfl

/-! ### At most one rejection -/

/-- No operation ends with the client's own error `client_error::upgrade_rejected`. -/
def Outside (_ : Connection) : Action → Prop
  | .complete _ c => c.ec ≠ some .upgradeRejected ∧ c.sni ≠ some .upgradeRejected
  | _ => True

/-- Where the rejection of an upgrade is reported. -/
theorem rejected_of_mem_reported {c : Completion} {operation : Operation}
    (h : .upgradeRejected ∈ reported c operation) (hec : c.ec ≠ some .upgradeRejected)
    (hsni : c.sni ≠ some .upgradeRejected) :
    (∃ gen, operation = .upgrade gen) ∧ c.ec = some .upgradeDeclined := by
  have hnot : ErrorCode.upgradeRejected ∉ c.ec.toList := fun h ↦ hec (Option.mem_toList.1 h)
  cases operation with
  | upgrade gen =>
    rw [reported] at h
    split at h
    · next hdeclined => exact ⟨⟨gen, rfl⟩, hdeclined⟩
    · exact absurd h hnot
  | connect gen =>
    rcases List.mem_append.1 h with h | h
    · exact absurd h hnot
    · exact absurd (Option.mem_toList.1 h) hsni
  | _ => exact absurd h hnot

theorem attempt_delivered (s : Connection) : (attempt s).delivered = s.delivered := by
  rw [attempt]
  split <;> rfl

/-- A completion that does not stop the connection reports no rejection. -/
theorem unrejected_handle {c : Completion} {operation : Operation} (hinv : Inv cfg s)
    (hop : operation ∈ s.operations) (hec : c.ec ≠ some .upgradeRejected)
    (hsni : c.sni ≠ some .upgradeRejected) (h : .onError .upgradeRejected ∉ s.delivered)
    (ht : (handle cfg (s.without operation) c operation).state ≠ .stopped) :
    .onError .upgradeRejected ∉ (handle cfg (s.without operation) c operation).delivered := by
  have hstep : step cfg s (.complete operation c) =
      some (handle cfg (s.without operation) c operation) := if_pos hop
  obtain ⟨events, hevents, hreport⟩ :=
    (handled_handle cfg (s.without operation) c operation).delivered
  rw [hevents, List.mem_append]
  rintro (hold | hnew)
  · exact h hold
  have hreported : ErrorCode.upgradeRejected ∈ reported c operation :=
    ((hreport _ hnew rfl).2 _ rfl).resolve_left ErrorCode.noConfusion
  obtain ⟨⟨gen, rfl⟩, hdeclined⟩ := rejected_of_mem_reported hreported hec hsni
  cases hstale : stale s gen with
  | true =>
    have hignored : handle cfg (s.without (.upgrade gen)) c (.upgrade gen) =
        s.without (.upgrade gen) := if_pos hstale
    rw [hignored] at hevents
    have hlength : s.delivered.length = (s.delivered ++ events).length := congrArg _ hevents
    rw [List.length_append] at hlength
    obtain rfl : events = [] := List.length_eq_zero_iff.1 (by omega)
    exact List.not_mem_nil hnew
  | false => exact ht (declines_step hinv ⟨gen, c, rfl, hstale, hdeclined⟩ hstep).1

/-- Until the connection stops, no rejection has been reported. -/
theorem unrejected_step {action : Action} (hinv : Inv cfg s) (hout : Outside s action)
    (h : .onError .upgradeRejected ∉ s.delivered) (hstep : step cfg s action = some t)
    (ht : t.state ≠ .stopped) : .onError .upgradeRejected ∉ t.delivered := by
  cases stepped_of_step hstep with
  | start =>
    rw [start] at ht ⊢
    split at ht
    · exact absurd rfl ht
    · rw [attempt_delivered]
      exact h
  | close | destroy | send | unconnected => exact h
  | sender =>
    rw [send_eq]
    exact h
  | task task tasks =>
    cases task with
    | close code =>
      rw [runTask, (doClose_quiet _ code).1]
      exact h
    | send message gen =>
      rw [runTask, runSend_eq]
      exact h
  | complete operation c hop => exact unrejected_handle hinv hop hout.1 hout.2 h ht
  | written =>
    rw [onWrite_eq]
    exact h

/-- Only a connection that has stopped was rejected. -/
theorem unrejected_of_reachable (h : (machine cfg).ReachableVia Outside s)
    (hs : s.state ≠ .stopped) : .onError .upgradeRejected ∉ s.delivered := by
  refine (h.invariant (I := fun s ↦ Inv cfg s ∧
    (s.state ≠ .stopped → .onError .upgradeRejected ∉ s.delivered))
    (fun s hs ↦ ⟨inv_init s hs, ?_⟩) ?_).2 hs
  · obtain rfl := hs
    exact fun _ ↦ List.not_mem_nil
  · intro s action t ⟨hinv, hnone⟩ hout hstep
    refine ⟨inv_step s action t hinv hstep, fun ht ↦ ?_⟩
    have hs : s.state ≠ .stopped := fun hs ↦ ht (stopped_step hinv hs hstep).1
    exact unrejected_step hinv hout (hnone hs) hstep ht

/-! ### The result -/

/-- **A closed connection stays closed.** From the step that runs doClose() on, whatever completes
later, no resolve begins, the connection never waits for a retry, and no error and no retry is
reported. The same holds after the server declined the upgrade, which delivers the one rejection of
the run unless a close had been requested. -/
theorem never_reconnects (h : (machine cfg).Reachable s) (action : Action) (actions : List Action) :
    (RunsClose s action → (machine cfg).EveryStep Settled s (action :: actions)) ∧
      (Declines s action → ∀ t, step cfg s action = some t →
        t.state = .stopped ∧ (machine cfg).EveryStep Settled t actions ∧
          (∀ u, (machine cfg).run t actions = some u → u.delivered = s.delivered ++
            if s.stopRequested then []
            else [.onError .upgradeRejected].filter cfg.callbacks.wants) ∧
          ((machine cfg).ReachableVia Outside s → .onError .upgradeRejected ∉ s.delivered)) := by
  have hinv := inv_of_reachable h
  constructor
  · intro hclose t hstep
    obtain ⟨hgood, hsettled⟩ := runsClose_step (forGood_of_reachable h) hclose hstep
    exact ⟨hsettled, hgood.run (inv_step s action t hinv hstep) actions⟩
  · intro hdecline t hstep
    have hinv' := inv_step s action t hinv hstep
    obtain ⟨hstopped, hdelivered⟩ := declines_step hinv hdecline hstep
    have hgood : ForGood t := ⟨Or.inr hstopped, by rw [hstopped]; rfl⟩
    refine ⟨hstopped, hgood.run hinv' actions, fun u hrun ↦ ?_, fun hout ↦ ?_⟩
    · exact (stopped_run hinv' hstopped actions hrun).2.trans hdelivered
    · obtain ⟨gen, c, rfl, hfresh, -⟩ := hdecline
      refine unrejected_of_reachable hout fun hs ↦ ?_
      rw [stale, hs, beq_self_eq_true, Bool.or_true] at hfresh
      exact Bool.false_ne_true hfresh.symm

/-- The connection waits to try again when it is asked to close, and its timer has expired. -/
def expired : List Action :=
  [.start, .complete (.resolve 1) {},
    .complete (.connect 1) { ec := some (.other 111), delay := 500 }, .close CloseCode.normal]

/-- The server declines the upgrade. -/
def declined : List Action :=
  [.start, .complete (.resolve 1) {}, .complete (.connect 1) {}]

theorem never_reconnects_expired :
    (∃ s, (machine persistent).run { callbacks := persistent.callbacks } expired = some s ∧
      s.state = .waiting ∧
      (machine persistent).EveryStep Settled s [.task, .complete .retryTimer {}]) ∧
    ∃ s t, (machine persistent).run { callbacks := persistent.callbacks } declined = some s ∧
      step persistent s (.complete (.upgrade 1) { ec := some .upgradeDeclined, status := 403 }) =
        some t ∧
      t.delivered = [.onError .upgradeRejected] ∧ (machine persistent).EveryStep Settled t [] := by
  refine ⟨⟨_, rfl, rfl, ?_⟩, _, _, rfl, rfl, rfl, ?_⟩
  · have hreached := Machine.run_reachable (M := machine persistent) expired rfl rfl
    exact (never_reconnects hreached .task [.complete .retryTimer {}]).1
      ⟨rfl, CloseCode.normal, rfl⟩
  · have hreached := Machine.run_reachable (M := machine persistent) declined rfl rfl
    have hafter := (never_reconnects hreached
      (.complete (.upgrade 1) { ec := some .upgradeDeclined, status := 403 }) []).2
      ⟨1, { ec := some .upgradeDeclined, status := 403 }, rfl, rfl, rfl⟩ _ rfl
    exact hafter.2.1

end CppGate.WebSocketClient
