import CppGate.WebSocketClient.Handlers

/-!
# The code a connection is closed with

The first doClose() that runs decides the code: an open connection passes it to async_close at once,
and while a connection is being established it is remembered, as a flag only, until the upgrade
opens the connection and closes it. There the code is lost, and the connection closes with 1000.

The history of a run lists the calls of doClose() and of async_close in their order.
-/

namespace CppGate.WebSocketClient

open CppGate.WebSocketSession (CloseCode)

/-! ### The calls of a run -/

/-- A call that has to do with closing. -/
inductive Call
  | doClose (code : CloseCode)
  | asyncClose (code : CloseCode)
  deriving DecidableEq, Repr

/-- The code of the doClose() that a step runs. -/
def ran (s : Connection) : Action → Option CloseCode
  | .task =>
    match s.tasks with
    | .close code :: _ => some code
    | _ => none
  | _ => none

/-- The async_close that an operation is. -/
def Operation.asyncClose? : Operation → Option Call
  | .close _ code => some (.asyncClose code)
  | _ => none

/-- The calls of a step. -/
def calls (s : Connection) (action : Action) (t : Connection) : List Call :=
  (ran s action).toList.map Call.doClose ++ (begun s action t).filterMap Operation.asyncClose?

/-- The runs of a connection, with their calls. -/
def closings (cfg : Config) : Machine (Connection × List Call) Action :=
  (machine cfg).logged calls

/-- The code of the first doClose() that ran. -/
def firstCode (calls : List Call) : Option CloseCode :=
  calls.findSome? fun
    | .doClose code => some code
    | .asyncClose _ => none

/-- Each async_close gets the code of the first doClose(), and a connection that is open after that
call has been told to close. -/
structure Honoured (s : Connection) (calls : List Call) : Prop where
  passed : ∀ code, .asyncClose code ∈ calls → firstCode calls = some code
  closed : (firstCode calls).isSome = true → s.state.isOpen = true →
    ∃ code, .asyncClose code ∈ calls

/-- The step opens the connection. -/
def Opens (s : Connection) (action : Action) : Prop :=
  ∃ gen c, action = .complete (.upgrade gen) c ∧ c.ec = none ∧ stale s gen = false

/-- No upgrade succeeds after a doClose() with another code than 1000. -/
def KeepsCode (x : Connection × List Call) (action : Action) : Prop :=
  Opens x.1 action → x.1.stopRequested = true → firstCode x.2 = some CloseCode.normal

/-! ### Histories -/

variable {cfg : Config} {s t : Connection} {history : List Call}

/-- The first code is that of the calls before, if there was one. -/
theorem firstCode_append (xs ys : List Call) :
    firstCode (xs ++ ys) = (firstCode xs).or (firstCode ys) :=
  List.findSome?_append

theorem firstCode_asyncClose (operations : List Operation) :
    firstCode (operations.filterMap Operation.asyncClose?) = none := by
  refine List.findSome?_eq_none_iff.2 fun call hcall ↦ ?_
  obtain ⟨operation, -, hop⟩ := List.mem_filterMap.1 hcall
  cases operation with
  | close gen code => exact Option.some.inj hop ▸ rfl
  | _ => exact absurd hop.symm (Option.some_ne_none call)

/-- The first code after a step. -/
theorem firstCode_calls (history : List Call) (s : Connection) (action : Action) (t : Connection) :
    firstCode (history ++ calls s action t) = (firstCode history).or (ran s action) := by
  rw [firstCode_append, calls, firstCode_append, firstCode_asyncClose, Option.or_none]
  cases ran s action <;> rfl

/-- The async_close of a step are the close operations that it begins. -/
theorem asyncClose_mem_calls {action : Action} {code : CloseCode} :
    .asyncClose code ∈ calls s action t ↔ ∃ gen, .close gen code ∈ begun s action t := by
  have hdo : .asyncClose code ∉ (ran s action).toList.map Call.doClose := fun h ↦ by
    obtain ⟨_, -, h⟩ := List.mem_map.1 h
    exact Call.noConfusion h
  rw [calls, List.mem_append, or_iff_right hdo, List.mem_filterMap]
  constructor
  · rintro ⟨operation, hop, hcall⟩
    cases operation with
    | close gen code' => exact ⟨gen, Call.asyncClose.inj (Option.some.inj hcall) ▸ hop⟩
    | _ => exact absurd hcall.symm (Option.some_ne_none _)
  · rintro ⟨gen, hgen⟩
    exact ⟨_, hgen, rfl⟩

/-! ### The invariant -/

/-- What the flag of a connection and its state say about the calls so far. -/
structure Noted (s : Connection) (history : List Call) : Prop where
  passed : ∀ code, .asyncClose code ∈ history → firstCode history = some code
  requested : s.stopRequested = true → (firstCode history).isSome = true
  unrequested : s.stopRequested = false → s.state ≠ .stopped → firstCode history = none
  closing : s.state = .closing → ∃ code, .asyncClose code ∈ history

/-- An open connection on which doClose() ran is closing. -/
theorem Noted.honoured (h : Noted s history) (hinv : Inv cfg s) : Honoured s history := by
  refine ⟨h.passed, fun hfirst hopen ↦ h.closing ?_⟩
  have hout := hinv.outstanding
  cases hs : s.state with
  | closing => rfl
  | opened =>
    rw [hs] at hout
    rw [h.unrequested hout.2 (hs ▸ nofun)] at hfirst
    exact absurd hfirst Bool.false_ne_true
  | _ =>
    rw [hs] at hopen
    exact absurd hopen Bool.false_ne_true

/-- A step that closes nothing. -/
theorem Noted.frame (h : Noted s history) {action : Action} (hran : ran s action = none)
    (hclose : ∀ gen code, .close gen code ∉ begun s action t)
    (hstop : t.stopRequested = s.stopRequested) (hstopped : s.state = .stopped → t.state = .stopped)
    (hclosing : t.state = .closing → s.state = .closing) :
    Noted t (history ++ calls s action t) := by
  have hfirst : firstCode (history ++ calls s action t) = firstCode history := by
    rw [firstCode_calls, hran, Option.or_none]
  refine ⟨fun code hcode ↦ ?_, fun ht ↦ ?_, fun ht hne ↦ ?_, fun ht ↦ ?_⟩
  · rw [hfirst]
    rcases List.mem_append.1 hcode with hcode | hcode
    · exact h.passed code hcode
    · obtain ⟨gen, hgen⟩ := asyncClose_mem_calls.1 hcode
      exact absurd hgen (hclose gen code)
  · rw [hfirst]
    exact h.requested (hstop ▸ ht)
  · rw [hfirst]
    exact h.unrequested (hstop ▸ ht) fun hs ↦ hne (hstopped hs)
  · obtain ⟨code, hcode⟩ := h.closing (hclosing ht)
    exact ⟨code, List.mem_append_left _ hcode⟩

/-! ### The steps that close -/

/-- doClose() passes its code on to an open connection, and otherwise closes nothing. -/
theorem close_mem_begun_doClose {gen : ℕ} {code code' : CloseCode} {tasks : List Task}
    (hcode : .close gen code' ∈ begun s .task (doClose { s with tasks := tasks } code)) :
    s.state = .opened ∧ s.stopRequested = false ∧ code' = code := by
  have hnone : .close gen code' ∉ s.operations.diff s.operations := fun h ↦
    List.not_mem_nil ((mem_diff_iff (List.nil_append _).symm).1 h)
  change _ ∈ (doClose _ code).operations.diff s.operations at hcode
  rw [doClose] at hcode
  split at hcode
  · exact absurd hcode hnone
  · next hgo =>
    have hstop : s.stopRequested = false :=
      (Bool.or_eq_false_iff.1 (Bool.eq_false_iff.2 hgo)).1
    dsimp only at hcode
    split at hcode
    · next hs =>
      have hclose : Operation.close gen code' ∈ [.close s.generation code] :=
        (mem_diff_iff rfl).1 hcode
      exact ⟨hs, hstop, (Operation.close.inj (List.mem_singleton.1 hclose)).2⟩
    · exact absurd hcode hnone
    · exact absurd hcode hnone

/-- A posted close runs. -/
theorem noted_doClose (h : Noted s history) {code : CloseCode} {tasks : List Task}
    (htasks : s.tasks = .close code :: tasks) :
    Noted (doClose { s with tasks := tasks } code)
      (history ++ calls s .task (doClose { s with tasks := tasks } code)) := by
  have hran : ran s .task = some code := by rw [ran, htasks]
  have hfirst (t : Connection) : firstCode (history ++ calls s .task t) =
      (firstCode history).or (some code) := by rw [firstCode_calls, hran]
  refine ⟨fun code' hcode ↦ ?_, fun _ ↦ ?_, fun hstop hne ↦ ?_, fun hclosing ↦ ?_⟩
  · rw [hfirst]
    rcases List.mem_append.1 hcode with hcode | hcode
    · rw [h.passed code' hcode, Option.some_or]
    · obtain ⟨gen, hgen⟩ := asyncClose_mem_calls.1 hcode
      obtain ⟨hs, hstop, rfl⟩ := close_mem_begun_doClose hgen
      rw [h.unrequested hstop (hs ▸ nofun), Option.none_or]
  · rw [hfirst]
    cases firstCode history <;> rfl
  · -- doClose() has requested the stop, unless the connection had stopped
    rw [doClose] at hstop hne
    split at hstop
    · next hgo =>
      rw [if_pos hgo] at hne
      have hstop' : s.stopRequested = false := hstop
      have hgo' : (s.stopRequested || s.state == .stopped) = true := hgo
      rw [hstop', Bool.false_or, beq_iff_eq] at hgo'
      exact absurd hgo' hne
    · dsimp only at hstop
      split at hstop <;> exact absurd hstop.symm Bool.false_ne_true
  · rw [doClose] at hclosing ⊢
    split at hclosing
    · obtain ⟨code', hcode'⟩ := h.closing hclosing
      exact ⟨code', List.mem_append_left _ hcode'⟩
    · next hgo =>
      rw [if_neg hgo]
      dsimp only at hclosing ⊢
      split at hclosing
      · next hs =>
        rw [hs]
        refine ⟨code, List.mem_append_right _ (asyncClose_mem_calls.2 ⟨s.generation, ?_⟩)⟩
        have hone : Operation.close s.generation code ∈ [.close s.generation code] :=
          List.mem_singleton_self _
        exact (mem_diff_iff rfl).2 hone
      · next hs => exact absurd (hs.symm.trans hclosing) nofun
      · exact absurd hclosing nofun

/-- Which async_close a completion leads to. -/
theorem close_mem_begun_complete {gen : ℕ} {code : CloseCode} {operation : Operation}
    {c : Completion} (hcode : .close gen code ∈
      begun s (.complete operation c) (handle cfg (s.without operation) c operation)) :
    code ∈ closedWith (s.without operation) c operation := by
  obtain ⟨begun, hbegun, hallowed⟩ :=
    (handled_handle cfg (s.without operation) c operation).operations
  exact hallowed _ ((mem_diff_iff hbegun).1 hcode)

/-- Only an upgrade that opens the connection after doClose() closes it, with 1000. -/
theorem opens_of_mem_closedWith {operation : Operation} {c : Completion} {code : CloseCode}
    (h : code ∈ closedWith (s.without operation) c operation) :
    Opens s (.complete operation c) ∧ s.stopRequested = true ∧ code = CloseCode.normal := by
  cases operation with
  | upgrade gen =>
    rw [closedWith] at h
    split at h
    · next hopens =>
      exact ⟨⟨gen, c, rfl, hopens.2.1, hopens.1⟩, hopens.2.2, List.mem_singleton.1 h⟩
    · exact absurd h List.not_mem_nil
  | _ => exact absurd h List.not_mem_nil

/-- An upgrade that opens the connection after doClose() passes 1000 to async_close. -/
theorem asyncClose_of_opens {action : Action} (hopens : Opens s action)
    (hstop : s.stopRequested = true) (hstep : step cfg s action = some t) :
    .asyncClose CloseCode.normal ∈ calls s action t := by
  obtain ⟨gen, c, rfl, hc, hfresh⟩ := hopens
  cases stepped_of_step hstep with
  | complete =>
    have hfresh' : ¬stale (s.without (.upgrade gen)) gen = true := Bool.eq_false_iff.1 hfresh
    refine asyncClose_mem_calls.2 ⟨s.generation, ?_⟩
    rw [handle, if_neg hfresh', onUpgrade, hc]
    dsimp only
    split
    · have hfirst : Operation.close s.generation CloseCode.normal ∈
          [.close s.generation CloseCode.normal, .read gen] := List.mem_cons_self
      exact (mem_diff_iff rfl).2 hfirst
    · next hgo => exact absurd hstop hgo

/-- An operation completes: a close that it begins has the code that was asked for first. -/
theorem noted_complete (h : Noted s history) (hinv : Inv cfg s) {operation : Operation}
    {c : Completion} (hop : operation ∈ s.operations)
    (hkeeps : KeepsCode (s, history) (.complete operation c)) :
    Noted (handle cfg (s.without operation) c operation) (history ++
      calls s (.complete operation c) (handle cfg (s.without operation) c operation)) := by
  have hhandled := handled_handle cfg (s.without operation) c operation
  have hstep : step cfg s (.complete operation c) =
    some (handle cfg (s.without operation) c operation) := if_pos hop
  by_cases hnil : closedWith (s.without operation) c operation = []
  · refine h.frame rfl (fun gen code hcode ↦ ?_) hhandled.stopRequested
      (fun hs ↦ (stopped_step hinv hs hstep).1) fun ht ↦ ?_
    · have hmem := close_mem_begun_complete hcode
      rw [hnil] at hmem
      exact List.not_mem_nil hmem
    · exact (hhandled.closing ht).resolve_right (absurd hnil ·)
  · obtain ⟨code, hmem⟩ := List.exists_mem_of_ne_nil _ hnil
    obtain ⟨hopens, hstop, -⟩ := opens_of_mem_closedWith hmem
    have hfirst : firstCode (history ++ calls s (.complete operation c)
        (handle cfg (s.without operation) c operation)) = some CloseCode.normal := by
      rw [firstCode_calls, hkeeps hopens hstop, Option.some_or]
    refine ⟨fun code' hcode ↦ ?_, fun _ ↦ ?_, fun ht ↦ ?_, fun _ ↦ ?_⟩
    · rw [hfirst]
      rcases List.mem_append.1 hcode with hcode | hcode
      · exact (hkeeps hopens hstop).symm.trans (h.passed code' hcode)
      · obtain ⟨gen, hgen⟩ := asyncClose_mem_calls.1 hcode
        rw [(opens_of_mem_closedWith (close_mem_begun_complete hgen)).2.2]
    · rw [hfirst]
      rfl
    · rw [hhandled.stopRequested] at ht
      exact absurd (hstop.symm.trans ht) Bool.noConfusion
    · exact ⟨_, List.mem_append_right _ (asyncClose_of_opens hopens hstop hstep)⟩

/-! ### Runs -/

/-- start() closes nothing. -/
theorem start_closes_nothing (cfg : Config) (s : Connection) :
    (start cfg s).stopRequested = s.stopRequested ∧ (start cfg s).state ≠ .closing ∧
      ∀ gen code, .close gen code ∉ begun s .start (start cfg s) := by
  have hnone (gen : ℕ) (code : CloseCode) : .close gen code ∉ s.operations.diff s.operations :=
    fun h ↦ List.not_mem_nil ((mem_diff_iff (List.nil_append _).symm).1 h)
  rw [start]
  split
  · exact ⟨rfl, ConnectionState.noConfusion, hnone⟩
  · rw [attempt]
    split
    · exact ⟨rfl, ConnectionState.noConfusion, hnone⟩
    · refine ⟨rfl, ConnectionState.noConfusion, fun gen code hcode ↦ ?_⟩
      have hone : Operation.close gen code ∈ [.resolve (Word.add 32 s.generation 1)] :=
        (mem_diff_iff rfl).1 hcode
      exact Operation.noConfusion (List.mem_singleton.1 hone)

/-- **The step lemma.** -/
theorem noted_step (h : Noted s history) (hinv : Inv cfg s) {action : Action}
    (hkeeps : KeepsCode (s, history) action) (hstep : step cfg s action = some t) :
    Noted t (history ++ calls s action t) := by
  have hstopped (hs : s.state = .stopped) : t.state = .stopped := (stopped_step hinv hs hstep).1
  have hnone (hcomplete : ∀ operation c, action ≠ .complete operation c)
      (hops : t.operations = s.operations) (gen : ℕ) (code : CloseCode) :
      .close gen code ∉ begun s action t := not_mem_begun hcomplete hops _
  cases stepped_of_step hstep with
  | start =>
    obtain ⟨hstop, hclosing, hops⟩ := start_closes_nothing cfg s
    exact h.frame rfl hops hstop hstopped fun ht ↦ absurd ht hclosing
  | close | destroy | send | unconnected =>
    exact h.frame rfl (hnone (fun _ _ ↦ Action.noConfusion) rfl) rfl hstopped id
  | sender =>
    rw [send_eq] at hstopped hnone ⊢
    exact h.frame rfl (hnone (fun _ _ ↦ Action.noConfusion) rfl) rfl hstopped id
  | task task tasks ht =>
    cases task with
    | close code => exact noted_doClose h ht
    | send message gen =>
      rw [runTask, runSend_eq] at hstopped hnone ⊢
      refine h.frame ?_ (hnone (fun _ _ ↦ Action.noConfusion) rfl) rfl hstopped id
      rw [ran, ht]
  | complete operation c hop => exact noted_complete h hinv hop hkeeps
  | written =>
    rw [onWrite_eq] at hstopped hnone ⊢
    exact h.frame rfl (hnone (fun _ _ ↦ Action.noConfusion) rfl) rfl hstopped id

theorem noted_init {x : Connection × List Call} (h : (closings cfg).Init x) : Noted x.1 x.2 := by
  obtain ⟨s, history⟩ := x
  obtain ⟨rfl, rfl⟩ : s = { callbacks := cfg.callbacks } ∧ history = [] := h
  exact ⟨fun _ h ↦ absurd h List.not_mem_nil, (absurd · Bool.false_ne_true), fun _ _ ↦ rfl, nofun⟩

/-- **The run lemma.** -/
theorem noted_of_reachable {x : Connection × List Call}
    (h : (closings cfg).ReachableVia KeepsCode x) : Inv cfg x.1 ∧ Noted x.1 x.2 := by
  refine h.invariant (M := closings cfg) (I := fun x ↦ Inv cfg x.1 ∧ Noted x.1 x.2)
    (fun x hx ↦ ⟨inv_init x.1 hx.1, noted_init hx⟩) ?_
  intro x action y ⟨hinv, hnoted⟩ hkeeps hstep
  obtain ⟨hstep', hhistory⟩ := Machine.logged_step hstep
  refine ⟨inv_step x.1 action y.1 hinv hstep', ?_⟩
  rw [hhistory]
  exact noted_step hnoted hinv hkeeps hstep'

/-- **The close code is honoured** in every run in which no upgrade succeeds after a doClose() with
another code than 1000: each async_close gets the code of the first doClose() that ran, and a
connection that is open then has been told to close. The first upgrade that does succeed after such
a call breaks it. -/
theorem close_code_honoured {x : Connection × List Call}
    (h : (closings cfg).ReachableVia KeepsCode x) :
    Honoured x.1 x.2 ∧ ∀ action y, (closings cfg).step x action = some y →
      (Honoured y.1 y.2 ↔ KeepsCode x action) := by
  obtain ⟨hinv, hnoted⟩ := noted_of_reachable h
  refine ⟨hnoted.honoured hinv, fun action y hstep ↦ ⟨fun hy hopens hstop ↦ ?_, fun hkeeps ↦ ?_⟩⟩
  · obtain ⟨hstep', hhistory⟩ := Machine.logged_step hstep
    have hnormal : .asyncClose CloseCode.normal ∈ y.2 := by
      rw [hhistory]
      exact List.mem_append_right _ (asyncClose_of_opens hopens hstop hstep')
    have hfirst := hy.passed _ hnormal
    obtain ⟨gen, c, rfl, -⟩ := hopens
    have hran : ran x.1 (.complete (.upgrade gen) c) = none := rfl
    rw [hhistory, firstCode_calls, hran, Option.or_none] at hfirst
    exact hfirst
  · obtain ⟨hinv', hnoted'⟩ := noted_of_reachable (h.step hkeeps hstep)
    exact hnoted'.honoured hinv'

/-- The client is destroyed while the answer to the upgrade is on its way. -/
def destroyed : List Action :=
  [.start, .complete (.resolve 1) {}, .complete (.connect 1) {}, .destroy,
    .close CloseCode.goingAway, .task]

/-- The connection was open when the client was destroyed. -/
def destroyedOpen : List Action :=
  [.start, .complete (.resolve 1) {}, .complete (.connect 1) {}, .complete (.upgrade 1) {},
    .destroy, .close CloseCode.goingAway]

/-- The upgrade that completes after the client's destructor closes the connection with 1000. -/
theorem going_away_lost :
    ∃ x y,
      (closings persistent).run ({ callbacks := persistent.callbacks }, []) destroyed = some x ∧
      (closings persistent).step x (.complete (.upgrade 1) {}) = some y ∧
      y.2 = [.doClose CloseCode.goingAway, .asyncClose CloseCode.normal] ∧
      ¬Honoured y.1 y.2 := by
  refine ⟨_, _, rfl, rfl, rfl, fun h ↦ ?_⟩
  have hfirst := h.passed CloseCode.normal (List.mem_cons_of_mem _ List.mem_cons_self)
  exact absurd hfirst (by decide)

theorem close_code_honoured_destroyedOpen :
    ∃ x y, (closings persistent).run ({ callbacks := persistent.callbacks }, []) destroyedOpen =
        some x ∧
      (closings persistent).step x .task = some y ∧
      y.2 = [.doClose CloseCode.goingAway, .asyncClose CloseCode.goingAway] ∧
      Honoured y.1 y.2 := by
  have hinit : (closings persistent).ReachableVia KeepsCode
      ({ callbacks := persistent.callbacks }, []) := Machine.ReachableVia.init ⟨rfl, rfl⟩
  have hkeeps : (closings persistent).EveryStep (fun x action _ ↦ KeepsCode x action)
      ({ callbacks := persistent.callbacks }, []) destroyedOpen := by
    refine Machine.EveryStep.mono (P := fun x _ _ ↦ x.1.stopRequested = false) ?_ (by decide)
    exact fun x action y _ hgo _ hstop ↦ absurd (hstop.symm.trans hgo) Bool.noConfusion
  have hreached := hinit.run destroyedOpen hkeeps rfl
  refine ⟨_, _, rfl, rfl, rfl, ((close_code_honoured hreached).2 .task _ rfl).2 ?_⟩
  exact fun hopens ↦ absurd hopens (by rintro ⟨gen, c, h, -⟩; exact Action.noConfusion h)

end CppGate.WebSocketClient
