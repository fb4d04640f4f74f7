import CppGate.Foundations.Roster
import CppGate.Server.Sessions

/-!
# A server

A listener with its registry and any number of sessions. The accept loop launches HTTP sessions, an
HTTP session that reads an upgrade makes a WebSocket session, and any number of threads may call
stop(). What a session does depends on the registry at that moment, which other sessions and threads
change meanwhile; so the machine keeps the registry apart and fills in what a session sees of it
(`State.session`).

A session object lives as long as something refers to it. Its destructor calls remove() some time
after that, and until then the registry lists a session that stopAll() finds gone.

`session_reachable` is what connects the server with the models of its sessions: whatever the others
do, a session only ever does what its own machine does. The steps that happen behind a session's
back are steps of that machine: a call of stopAll() is one for all sessions at once.
-/

namespace CppGate.Server

/-! ### The registry -/

/-- `SessionRegistry`: the sessions that are listed, `stopping_`, and the calls of stopAll() in
progress, each with the sessions whose stop() it has not called. A session's number stands for its
address. -/
abbrev SessionRegistry := Roster ℕ

namespace SessionRegistry

/-- `add`. -/
def add (registry : SessionRegistry) (session : ℕ) : Bool × SessionRegistry :=
  if registry.closed then (false, registry) else (true, registry.join session)

/-- `remove`. -/
def remove (registry : SessionRegistry) (session : ℕ) : SessionRegistry :=
  registry.prune (· != session)

/-- `size`. -/
def size (registry : SessionRegistry) : ℕ :=
  registry.members.length

/-- `stopAll`, up to where it unlocks. -/
def stopAll (registry : SessionRegistry) (alive : ℕ → Bool) : SessionRegistry :=
  registry.close alive

end SessionRegistry

/-! ### The server -/

/-- What is left of a session object. -/
inductive Life
  | alive
  /-- Nothing refers to it any more. Its destructor has yet to call remove(). -/
  | expired
  | removed
  deriving DecidableEq, Repr

/-- A session object. -/
structure Entry (κ : Type*) where
  session : Session κ
  life : Life := .alive

/-- A listener, its registry and its sessions. -/
structure State (κ : Type*) where
  listener : Listener := {}
  registry : SessionRegistry := {}
  sessions : List (Entry κ) := []
  /-- Calls of stop() that have not called stopAll() yet. -/
  stops : ℕ := 0

variable {κ : Type*}

/-- What a session sees of the registry. -/
def sightOf (registry : SessionRegistry) (i : ℕ) : Sight :=
  ⟨registry.closed, decide (i ∈ registry.members), registry.owing i⟩

/-- A session that is alive, with what it sees. -/
def look (registry : SessionRegistry) (sessions : List (Entry κ)) (i : ℕ) : Option (Session κ) :=
  (sessions[i]?).bind fun entry ↦
    if entry.life = .alive then some (entry.session.see (sightOf registry i)) else none

namespace State

/-- A session that is alive. -/
def session (srv : State κ) (i : ℕ) : Option (Session κ) :=
  look srv.registry srv.sessions i

/-- `connectionCount`. -/
def connectionCount (srv : State κ) : ℕ :=
  srv.registry.size

end State

/-- Whether nothing that a session does keeps it alive: nothing is outstanding or posted, and run()
is not running. -/
def Session.idle : Session κ → Bool
  | .http s =>
    s.launch != .created && s.launch != .added && s.tasks.isEmpty && s.operations.isEmpty
  | .webSocket w =>
    (w.stage == .refused || w.stage == .accepted && w.session.phase != .reading) &&
      w.session.queue.tasks.isEmpty && w.session.queue.writing.isEmpty && w.session.closeOp.isNone

/-- The session that the accept loop makes. -/
def Config.launched (cfg : Config) : Session κ :=
  .http { stream := if cfg.http.withPlain then .plain else .tls }

/-- The session that an HTTP session makes of an upgrade. -/
def upgraded : Session κ → Act κ → List (Entry κ)
  | .http s, .http (.handle .body (.success found)) =>
    if found.isUpgrade then [{ session := .webSocket { tls := s.stream == .tls } }] else []
  | _, _ => []

/-- What happens next. -/
inductive Action (κ : Type*)
  /-- The accept loop takes a step. -/
  | listener (a : Listener.Action)
  /-- A thread calls stop(), which posts the end of the accept loop. -/
  | stop
  /-- A call of stop() calls stopAll(). -/
  | stopAll
  /-- A call of stopAll() calls the next session's stop(). -/
  | tell (k : ℕ)
  /-- A session takes a step. -/
  | session (i : ℕ) (a : Act κ)
  /-- The last reference to a session is gone. -/
  | expire (i : ℕ)
  /-- A session's destructor calls remove(). -/
  | remove (i : ℕ)

/-- One step of a server. -/
def step (cfg : Config) (srv : State κ) : Action κ → Option (State κ)
  | .listener a =>
    if a = .stop then none
    else (Listener.step cfg.listener srv.listener a).map fun listener ↦
      { srv with
        listener
        sessions := srv.sessions ++
          if srv.listener.launched < listener.launched then [{ session := cfg.launched }] else [] }
  | .stop =>
    some { srv with
      listener := { srv.listener with closes := srv.listener.closes + 1 }
      stops := srv.stops + 1 }
  | .stopAll =>
    if 0 < srv.stops then
      some { srv with
        registry := srv.registry.stopAll fun i ↦ (srv.session i).isSome
        stops := srv.stops - 1 }
    else
      none
  | .tell k =>
    (srv.registry.next k).bind fun i ↦ (srv.session i).map fun s ↦
      { srv with
        registry := srv.registry.tell k
        sessions := srv.sessions.set i { session := s.stop } }
  | .session i a =>
    if a.own then
      (srv.session i).bind fun s ↦ (s.step cfg a).map fun t ↦
        { srv with
          registry := if a.joins then (srv.registry.add i).2 else srv.registry
          sessions := srv.sessions.set i { session := t } ++ upgraded s a }
    else
      none
  | .expire i =>
    (srv.session i).bind fun s ↦
      if s.idle ∧ srv.registry.owing i = 0 then
        some { srv with sessions := srv.sessions.set i { session := s, life := .expired } }
      else
        none
  | .remove i =>
    (srv.sessions[i]?).bind fun entry ↦
      if entry.life = .expired then
        some { srv with
          registry := srv.registry.remove i
          sessions := srv.sessions.set i { entry with life := .removed } }
      else
        none

/-- A server, from its construction on. -/
def machine (κ : Type*) (cfg : Config) : Machine (State κ) (Action κ) where
  Init srv := srv = {}
  step := step cfg

/-! ### What one session sees of a step -/

section Look

variable {registry registry' : SessionRegistry} {sessions new : List (Entry κ)} {entry : Entry κ}
  {s t : Session κ} {cfg : Config} {i j : ℕ}

theorem look_of_entry (hentry : sessions[i]? = some entry) (halive : entry.life = .alive) :
    look registry sessions i = some (entry.session.see (sightOf registry i)) := by
  rw [look, hentry, Option.bind_some, if_pos halive]

theorem look_of_dead (hentry : sessions[i]? = some entry) (hdead : entry.life ≠ .alive) :
    look registry sessions i = none := by
  rw [look, hentry, Option.bind_some, if_neg hdead]

theorem look_of_length_le (h : sessions.length ≤ i) : look registry sessions i = none := by
  rw [look, List.getElem?_eq_none h, Option.bind_none]

/-- A session that is seen is there, alive, and sees the registry. -/
theorem of_look (h : look registry sessions i = some s) :
    i < sessions.length ∧ s.sight = sightOf registry i := by
  obtain ⟨entry, hentry, hs⟩ := Option.bind_eq_some_iff.1 h
  obtain ⟨-, hs⟩ := Option.ite_none_right_eq_some.1 hs
  refine ⟨(List.getElem?_eq_some_iff.1 hentry).1, ?_⟩
  rw [← Option.some.inj hs, Session.sight_see]

theorem look_append (h : i < sessions.length) :
    look registry (sessions ++ new) i = look registry sessions i := by
  rw [look, List.getElem?_append_left h, look]

/-- What one session does changes nothing about the others. -/
theorem look_set_ne (hij : j ≠ i) :
    look registry (sessions.set i entry) j = look registry sessions j := by
  rw [look, List.getElem?_set_ne hij.symm, look]

theorem look_set (h : i < sessions.length) (halive : entry.life = .alive) :
    look registry (sessions.set i entry) i = some (entry.session.see (sightOf registry i)) :=
  look_of_entry (List.getElem?_set_self h) halive

/-- Whether a session is seen is not up to the registry. -/
theorem look_none (h : look registry sessions i = none) : look registry' sessions i = none := by
  cases hentry : sessions[i]? with
  | none => rw [look, hentry, Option.bind_none]
  | some entry =>
    refine look_of_dead hentry fun halive ↦ ?_
    rw [look_of_entry hentry halive] at h
    exact Option.some_ne_none _ h

/-- Where the registry looks the same to a session, the session is the same. -/
theorem look_congr (hsight : sightOf registry' i = sightOf registry i) :
    look registry' sessions i = look registry sessions i := by
  rw [look, look, hsight]

/-- A session that is new, and what it sees: the registry does not know it, but may be stopping. -/
theorem reachable_fresh (hinit : (sessionMachine κ cfg).Init s) (hsight : s.sight = {})
    (stopping : Bool) : (sessionMachine κ cfg).Reachable (s.see ⟨stopping, false, 0⟩) := by
  cases stopping with
  | false =>
    rw [← show s.sight = ⟨false, false, 0⟩ from hsight, Session.see_sight]
    exact .init hinit
  | true =>
    have hstep := Session.step_stopAll cfg s
    rw [hsight] at hstep
    exact (Machine.Reachable.init hinit).step hstep

end Look

/-! ### The invariant -/

/-- No session is listed twice, and the registry only knows sessions that were made. -/
structure Inv (srv : State κ) : Prop where
  nodup : srv.registry.members.Nodup
  listed : ∀ i, srv.sessions.length ≤ i → i ∉ srv.registry.members
  owed : ∀ i, srv.sessions.length ≤ i → srv.registry.owing i = 0

section Inv

variable {cfg : Config} {srv srv' : State κ} {a : Action κ} {i : ℕ}

/-- More sessions, and the same registry. -/
theorem Inv.grow (h : Inv srv) {listener : Listener} {sessions : List (Entry κ)} {stops : ℕ}
    (hlength : srv.sessions.length ≤ sessions.length) :
    Inv { srv with listener, sessions, stops } where
  nodup := h.nodup
  listed i hi := h.listed i (hlength.trans hi)
  owed i hi := h.owed i (hlength.trans hi)

theorem length_le_set_append (sessions new : List (Entry κ)) (i : ℕ) (entry : Entry κ) :
    sessions.length ≤ (sessions.set i entry ++ new).length := by
  rw [List.length_append, List.length_set]
  exact Nat.le_add_right _ _

/-- The registry lists a session that was launched. -/
theorem Inv.add (h : Inv srv) (hi : i < srv.sessions.length) :
    Inv { srv with registry := (srv.registry.add i).2 } := by
  rw [SessionRegistry.add]
  split
  · exact h
  · refine ⟨Roster.nodup_join h.nodup i, fun j hj hmem ↦ ?_, h.owed⟩
    rcases List.mem_insert_iff.1 hmem with rfl | hmem
    · exact absurd hi (Nat.not_lt.2 hj)
    · exact h.listed j hj hmem

/-- **The step lemma**: the registry and the sessions fit. -/
theorem inv_step (h : Inv srv) (hstep : step cfg srv a = some srv') : Inv srv' := by
  cases a with
  | listener a =>
    obtain ⟨-, hstep⟩ := Option.ite_none_left_eq_some.1 hstep
    obtain ⟨listener, -, rfl⟩ := Option.map_eq_some_iff.1 hstep
    refine h.grow ?_
    rw [List.length_append]
    exact Nat.le_add_right _ _
  | stop => exact Option.some.inj hstep ▸ h.grow le_rfl
  | stopAll =>
    obtain ⟨-, hstep⟩ := Option.ite_none_right_eq_some.1 hstep
    rw [← Option.some.inj hstep]
    refine ⟨h.nodup, h.listed, fun i hi ↦ ?_⟩
    rw [SessionRegistry.stopAll, Roster.owing_close h.nodup, h.owed i hi,
      if_neg fun hmem ↦ h.listed i hi hmem.1]
  | tell k =>
    obtain ⟨i, hnext, hstep⟩ := Option.bind_eq_some_iff.1 hstep
    obtain ⟨s, -, rfl⟩ := Option.map_eq_some_iff.1 hstep
    refine ⟨h.nodup, fun j hj ↦ h.listed j ?_, fun j hj ↦ ?_⟩
    · rwa [List.length_set] at hj
    · have howing := Roster.owing_tell hnext j
      rw [List.length_set] at hj
      rw [h.owed j hj] at howing
      exact Nat.eq_zero_of_add_eq_zero_right howing
  | session i a =>
    obtain ⟨-, hstep⟩ := Option.ite_none_right_eq_some.1 hstep
    obtain ⟨s, hs, hstep⟩ := Option.bind_eq_some_iff.1 hstep
    obtain ⟨t, -, rfl⟩ := Option.map_eq_some_iff.1 hstep
    have hadd : Inv { srv with
        registry := if a.joins then (srv.registry.add i).2 else srv.registry } := by
      split
      · exact h.add (of_look hs).1
      · exact h
    exact hadd.grow (length_le_set_append ..)
  | expire i =>
    obtain ⟨s, -, hstep⟩ := Option.bind_eq_some_iff.1 hstep
    obtain ⟨-, hstep⟩ := Option.ite_none_right_eq_some.1 hstep
    exact Option.some.inj hstep ▸ h.grow (List.length_set ..).ge
  | remove i =>
    obtain ⟨entry, -, hstep⟩ := Option.bind_eq_some_iff.1 hstep
    obtain ⟨-, hstep⟩ := Option.ite_none_right_eq_some.1 hstep
    have hremove : Inv { srv with registry := srv.registry.remove i } :=
      ⟨Roster.nodup_prune h.nodup _, fun j hj hmem ↦ h.listed j hj (List.mem_filter.1 hmem).1,
        h.owed⟩
    exact Option.some.inj hstep ▸ hremove.grow (List.length_set ..).ge

/-- **The run lemma.** -/
theorem inv_of_reachable (h : (machine κ cfg).Reachable srv) : Inv srv := by
  refine h.invariant (I := Inv) ?_ fun _ _ _ hs hstep ↦ inv_step hs hstep
  rintro _ rfl
  exact ⟨List.nodup_nil, fun _ _ ↦ List.not_mem_nil, fun _ _ ↦ rfl⟩

end Inv

/-! ### Sessions are what their machines make of them -/

section Sessions

variable {cfg : Config} {srv srv' : State κ} {registry : SessionRegistry}
  {sessions new : List (Entry κ)} {s : Session κ} {i j : ℕ}

/-- A session that was just made. -/
structure Fresh (cfg : Config) (entry : Entry κ) : Prop where
  alive : entry.life = .alive
  init : (sessionMachine κ cfg).Init entry.session
  sight : entry.session.sight = {}

/-- The registry knows nothing of a session that is launched. -/
theorem fresh_launched (cfg : Config) : Fresh cfg ({ session := cfg.launched } : Entry κ) :=
  ⟨rfl, Or.inl ⟨_, rfl, rfl⟩, rfl⟩

theorem fresh_upgraded (cfg : Config) (s : Session κ) (a : Act κ) :
    ∀ entry ∈ upgraded s a, Fresh cfg entry := by
  intro entry hmem
  rw [upgraded.eq_def] at hmem
  split at hmem
  · split at hmem
    · rw [List.mem_singleton] at hmem
      subst hmem
      exact ⟨rfl, Or.inr ⟨_, ⟨_, rfl⟩, rfl⟩, rfl⟩
    · exact absurd hmem List.not_mem_nil
  · exact absurd hmem List.not_mem_nil

/-- What a session sees that the registry does not know. -/
theorem Inv.sightOf (h : Inv srv) (hi : srv.sessions.length ≤ i) :
    sightOf srv.registry i = ⟨srv.registry.closed, false, 0⟩ := by
  rw [Server.sightOf, h.owed i hi, decide_eq_false (h.listed i hi)]

/-- Sessions that were just made are new in the registry's eyes. -/
theorem follows_new (hfresh : ∀ entry ∈ new, Fresh cfg entry) (hi : sessions.length ≤ i)
    {stopping : Bool} (hsight : sightOf registry i = ⟨stopping, false, 0⟩) :
    (sessionMachine κ cfg).Follows none (look registry (sessions ++ new) i) := by
  cases hentry : (sessions ++ new)[i]? with
  | none =>
    rw [look, hentry, Option.bind_none]
    exact .stays none
  | some entry =>
    rw [List.getElem?_append_right hi] at hentry
    have hmade := hfresh entry (List.mem_of_getElem? hentry)
    rw [look, List.getElem?_append_right hi, hentry, Option.bind_some, if_pos hmade.alive, hsight]
    exact .appears none _ (reachable_fresh hmade.init hmade.sight _)

/-- add() changes what the session sees as the session says. -/
theorem sightOf_add (registry : SessionRegistry) (i : ℕ) :
    sightOf (registry.add i).2 i = (sightOf registry i).add := by
  rw [SessionRegistry.add, Sight.add]
  show sightOf (if registry.closed then (false, registry) else (true, registry.join i)).2 i =
    if registry.closed then _ else _
  split
  · rfl
  · show Sight.mk _ (decide (i ∈ registry.members.insert i)) _ = Sight.mk _ true _
    rw [decide_eq_true (List.mem_insert_self ..)]
    rfl

theorem sightOf_add_ne (registry : SessionRegistry) (hij : j ≠ i) :
    sightOf (registry.add i).2 j = sightOf registry j := by
  rw [SessionRegistry.add]
  split
  · rfl
  · show Sight.mk _ (decide (j ∈ registry.members.insert i)) _ = _
    rw [decide_eq_decide.2 (List.mem_insert_iff.trans (or_iff_right hij))]
    rfl

/-- stopAll() changes what every session sees that is alive. -/
theorem sightOf_stopAll (h : registry.members.Nodup) {alive : ℕ → Bool}
    (halive : alive i = true) :
    sightOf (registry.stopAll alive) i = (sightOf registry i).stopAll := by
  show Sight.mk true (decide (i ∈ registry.members)) ((registry.close alive).owing i) =
    ⟨true, decide (i ∈ registry.members),
      if decide (i ∈ registry.members) then registry.owing i + 1 else registry.owing i⟩
  rw [Roster.owing_close h]
  by_cases hmem : i ∈ registry.members
  · rw [if_pos ⟨hmem, halive⟩, decide_eq_true hmem, if_pos rfl]
  · rw [if_neg fun hin ↦ hmem hin.1, decide_eq_false hmem, if_neg Bool.false_ne_true, Nat.add_zero]

theorem sightOf_remove_ne (registry : SessionRegistry) (hij : j ≠ i) :
    sightOf (registry.remove i) j = sightOf registry j := by
  show Sight.mk _ (decide (j ∈ registry.members.filter (· != i))) _ = _
  have hmem : j ∈ registry.members.filter (· != i) ↔ j ∈ registry.members := by
    rw [List.mem_filter]
    exact and_iff_left (bne_iff_ne.2 hij)
  rw [decide_eq_decide.2 hmem]
  rfl

/-- **What a step of the server does to a session** is nothing, or a step of that session's own
machine. -/
theorem follows_step {a : Action κ} (hinv : Inv srv) (hstep : step cfg srv a = some srv') (j : ℕ) :
    (sessionMachine κ cfg).Follows (srv.session j) (srv'.session j) := by
  cases a with
  | listener a =>
    obtain ⟨-, hstep⟩ := Option.ite_none_left_eq_some.1 hstep
    obtain ⟨listener, -, rfl⟩ := Option.map_eq_some_iff.1 hstep
    rcases Nat.lt_or_ge j srv.sessions.length with hj | hj
    · rw [State.session, State.session, look_append hj]
      exact .stays _
    · rw [State.session, look_of_length_le hj]
      refine follows_new (fun entry hmem ↦ ?_) hj (hinv.sightOf hj)
      split at hmem
      · rw [List.mem_singleton.1 hmem]
        exact fresh_launched cfg
      · exact absurd hmem List.not_mem_nil
  | stop => exact Option.some.inj hstep ▸ .stays _
  | stopAll =>
    obtain ⟨-, hstep⟩ := Option.ite_none_right_eq_some.1 hstep
    rw [← Option.some.inj hstep]
    cases hs : srv.session j with
    | none =>
      have hdead : look (srv.registry.stopAll fun i ↦ (srv.session i).isSome) srv.sessions j =
          none := look_none hs
      rw [State.session, hdead]
      exact .stays none
    | some s =>
      have hsight := (of_look hs).2
      have hsees : look (srv.registry.stopAll fun i ↦ (srv.session i).isSome) srv.sessions j =
          some (s.see s.sight.stopAll) := by
        obtain ⟨entry, hentry, hse⟩ := Option.bind_eq_some_iff.1 hs
        obtain ⟨halive, hse⟩ := Option.ite_none_right_eq_some.1 hse
        rw [look_of_entry hentry halive,
          sightOf_stopAll (i := j) hinv.nodup (by rw [hs, Option.isSome_some]), ← hsight,
          ← Option.some.inj hse, Session.see_see]
      rw [State.session, hsees]
      exact .steps s s.stopAllAct _ trivial (Session.step_stopAll cfg s)
  | tell k =>
    obtain ⟨i, hnext, hstep⟩ := Option.bind_eq_some_iff.1 hstep
    obtain ⟨s, hs, rfl⟩ := Option.map_eq_some_iff.1 hstep
    have howing := Roster.owing_tell hnext j
    by_cases hij : j = i
    · subst hij
      obtain ⟨hj, hsight⟩ := of_look hs
      rw [if_pos rfl] at howing
      have hstoppers : s.sight.stoppers = (srv.registry.tell k).owing j + 1 := by
        rw [hsight, howing]
        rfl
      have hsees : look (srv.registry.tell k) (srv.sessions.set j { session := s.stop }) j =
          some (s.see { s.sight with stoppers := s.sight.stoppers - 1 }).stop := by
        rw [look_set hj rfl, hstoppers, hsight]
        cases s <;> rfl
      rw [hs, State.session, hsees]
      exact .steps s s.stopAct _ trivial (Session.step_stop cfg s (by omega))
    · rw [if_neg (Ne.symm hij), Nat.add_zero] at howing
      have hsame : sightOf (srv.registry.tell k) j = sightOf srv.registry j := by
        rw [sightOf, howing]
        rfl
      rw [State.session, State.session, look_set_ne hij, look_congr hsame]
      exact .stays _
  | session i a =>
    obtain ⟨hown, hstep⟩ := Option.ite_none_right_eq_some.1 hstep
    obtain ⟨s, hs, hstep⟩ := Option.bind_eq_some_iff.1 hstep
    obtain ⟨t, ht, rfl⟩ := Option.map_eq_some_iff.1 hstep
    obtain ⟨hi, hsight⟩ := of_look hs
    show (sessionMachine κ cfg).Follows (look srv.registry srv.sessions j)
      (look (if a.joins then (srv.registry.add i).2 else srv.registry)
        (srv.sessions.set i { session := t } ++ upgraded s a) j)
    rcases Nat.lt_or_ge j srv.sessions.length with hj | hj
    · rw [look_append (by rwa [List.length_set])]
      by_cases hij : j = i
      · subst hij
        have hsees : look (if a.joins then (srv.registry.add j).2 else srv.registry)
            (srv.sessions.set j { session := t }) j = some t := by
          rw [look_set hj rfl]
          have hnew : sightOf (if a.joins then (srv.registry.add j).2 else srv.registry) j =
              t.sight := by
            rw [Session.sight_step ht hown, hsight]
            split
            · exact sightOf_add srv.registry j
            · rfl
          rw [hnew, Session.see_sight]
        rw [show look srv.registry srv.sessions j = some s from hs, hsees]
        exact .steps s a t trivial ht
      · have hsame : sightOf (if a.joins then (srv.registry.add i).2 else srv.registry) j =
            sightOf srv.registry j := by
          split
          · exact sightOf_add_ne srv.registry hij
          · rfl
        rw [look_set_ne hij, look_congr hsame]
        exact .stays _
    · have hij : j ≠ i := fun hij ↦ absurd hi (Nat.not_lt.2 (hij ▸ hj))
      have hunknown : sightOf (if a.joins then (srv.registry.add i).2 else srv.registry) j =
          ⟨srv.registry.closed, false, 0⟩ := by
        rw [← hinv.sightOf hj]
        split
        · exact sightOf_add_ne srv.registry hij
        · rfl
      rw [look_of_length_le hj]
      exact follows_new (fresh_upgraded cfg s a) (by rwa [List.length_set]) hunknown
  | expire i =>
    obtain ⟨s, hs, hstep⟩ := Option.bind_eq_some_iff.1 hstep
    obtain ⟨-, hstep⟩ := Option.ite_none_right_eq_some.1 hstep
    rw [← Option.some.inj hstep]
    by_cases hij : j = i
    · subst hij
      have hdead : look srv.registry (srv.sessions.set j { session := s, life := .expired }) j =
          none := look_of_dead (List.getElem?_set_self (of_look hs).1) nofun
      rw [State.session, State.session, hdead]
      exact .goes _
    · rw [State.session, State.session, look_set_ne hij]
      exact .stays _
  | remove i =>
    obtain ⟨entry, hentry, hstep⟩ := Option.bind_eq_some_iff.1 hstep
    obtain ⟨hexpired, hstep⟩ := Option.ite_none_right_eq_some.1 hstep
    rw [← Option.some.inj hstep]
    by_cases hij : j = i
    · subst hij
      have hdead : look (srv.registry.remove j)
          (srv.sessions.set j { entry with life := .removed }) j = none :=
        look_of_dead (List.getElem?_set_self (List.getElem?_eq_some_iff.1 hentry).1) nofun
      rw [State.session, State.session, hdead]
      exact .goes _
    · rw [State.session, State.session, look_set_ne hij,
        look_congr (sightOf_remove_ne srv.registry hij)]
      exact .stays _

/-- **A session of a server does what its own machine does**, whatever the other sessions, the
accept loop and the threads that stop the server do meanwhile. -/
theorem session_reachable (h : (machine κ cfg).Reachable srv) (hs : srv.session i = some s) :
    (sessionMachine κ cfg).Reachable s := by
  refine h.part (State.session · i) ?_ (fun _ _ _ hsrv hstep ↦ ?_) hs
  · rintro _ rfl
    exact .stays none
  · exact follows_step (inv_of_reachable hsrv) hstep i

end Sessions

end CppGate.Server
