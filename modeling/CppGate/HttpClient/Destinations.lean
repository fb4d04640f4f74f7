import CppGate.ClientCommon.ParseUrl
import CppGate.HttpClient.Sharing

/-!
# Where a connection from the store leads

The store of idle connections knows a connection by its key, which is made of the URL of the call
that opened it. A call that takes a connection from the store has another URL with the same key.
The keys keep destinations apart, so the connection leads where the call wants to go
(`taken_leads_there`).
-/

namespace CppGate

open HttpClient

universe v

/-- What a call looks at after the request is built. -/
def ClientCommon.Target.ofCall (t : ClientCommon.Target) : HttpClient.Target where
  key := t.key
  tls := t.tls

namespace HttpClient

variable {κ : Type*} {ρ : Type v}

/-! ### The target of a call -/

namespace Call

variable (s : Call κ ρ)

@[simp] theorem finish_target (result : Result ρ) : (s.finish result).target = s.target := by
  rw [finish]
  split <;> rfl

@[simp] theorem fail_target (ec : ErrorCode) (duringWrite : Bool) :
    (s.fail ec duringWrite).target = s.target := by
  rcases s.fail_eq ec duringWrite with ⟨error, heq⟩ | ⟨-, -, -, heq⟩
  · rw [heq, finish_target]
  · rw [heq]
    rfl

@[simp] theorem progress_target (direction : Direction) (done : ℕ) (total : Option ℕ)
    (last : Bool) (now : Time) : (s.progress direction done total last now).target = s.target := by
  obtain ⟨reportedBytes, reportedAt, progressed, heq⟩ :=
    s.progress_eq direction done total last now
  rw [heq]

@[simp] theorem readBody_target (message : Message ρ) (now : Time) :
    (s.readBody message now).target = s.target := by
  unfold readBody succeed
  dsimp only
  split
  · rw [finish_target]
    split <;> simp
  · rfl

@[simp] theorem writeBody_target (isDone : Bool) (now : Time) :
    (s.writeBody isDone now).target = s.target := by
  unfold writeBody readHeader
  split
  · split <;> simp
  · rfl

@[simp] theorem onWritten_target (n : ℕ) (isDone : Bool) (now : Time) :
    (s.onWritten n isDone now).target = s.target := by
  unfold onWritten
  dsimp only
  split <;> simp

@[simp] theorem onConnect_target (sni : Except ErrorCode Unit) :
    (s.onConnect sni).target = s.target := by
  unfold onConnect
  split
  · rfl
  · split <;> simp

@[simp] theorem onResolve_target (conn : κ) : (s.onResolve conn).target = s.target := by
  unfold onResolve
  split <;> simp

@[simp] theorem abort_target (why : ClientError) : (s.abort why).target = s.target := by
  unfold abort
  split <;> rfl

/-- Only begin() sets the target. -/
theorem handle_target (e : Event κ ρ) (he : ∀ target idle, e ≠ .begin (.ok target) idle) :
    (s.handle e).target = s.target := by
  cases e with
  | begin target idle =>
    cases target with
    | error ec => simp [handle, Call.begin]
    | ok target => exact absurd rfl (he target idle)
  | refuse => simp [handle]
  | resolved result => cases result <;> simp [handle]
  | connected result => cases result <;> simp [handle]
  | handshaken result => cases result <;> simp [handle, writeHeader]
  | headerWritten result now => cases result <;> simp [handle]
  | bodyWritten result now => rcases result with ec | ⟨n, isDone⟩ <;> simp [handle]
  | headerRead result now => rcases result with ⟨ec, parser⟩ | message <;> simp [handle, onHeader]
  | bodyRead result now => cases result <;> simp [handle, onBody]
  | abort why => simp [handle]

end Call

/-! ### Who opened a connection -/

section Traced

open ClientCommon

variable (lib : Uri.Addresses) (urls : ℕ → Text)

/-- What parseUrl() makes of the URL of call `i`. -/
def destination (i : ℕ) : Except ClientError ClientCommon.Target :=
  parseUrl lib (urls i) .http

/-- begin() parses the URL of its call. -/
def ByUrl : Move ρ → Prop
  | .go i _ (.begin target _) =>
    target = match destination lib urls i with
      | .ok t => .ok t.ofCall
      | .error error => .error (.client error)
  | _ => True

/-- The observer writes down which call opened a connection. -/
def noteOpener (opener : ℕ → ℕ) (_ : Shared ρ) (a : Move ρ) (_ : Shared ρ) : ℕ → ℕ :=
  match a with
  | .go i _ (.resolved (.ok conn)) => Function.update opener conn.id i
  | _ => opener

/-- A client whose connections are traced to the calls that opened them. -/
def tracedMachine (ρ : Type v) (options : Options) : Machine (Shared ρ × (ℕ → ℕ)) (Move ρ) :=
  (sharedMachine ρ options).observed (fun _ ↦ 0) noteOpener

/-- The connection leads where its key says. -/
def Leads (opener : ℕ → ℕ) (conn : Conn) : Prop :=
  ∃ t, destination lib urls (opener conn.id) = .ok t ∧ t.key = conn.key

/-- Calls in progress have their URL's target, and connections lead where their keys say. -/
structure Traced (x : Shared ρ × (ℕ → ℕ)) : Prop where
  targets : ∀ (i : ℕ) (call : Call Conn ρ), x.1.calls[i]? = some call →
    ∀ op ∈ call.pending, op.isStep = true →
      ∃ t, destination lib urls i = .ok t ∧ call.target = t.ofCall
  held : ∀ (i : ℕ) (call : Call Conn ρ), x.1.calls[i]? = some call →
    ∀ conn ∈ call.conn, Leads lib urls x.2 conn
  stored : ∀ key, ∀ stored ∈ x.1.idle key, Leads lib urls x.2 stored.conn

variable {lib urls} {options : Options} {s u : Shared ρ} {opener : ℕ → ℕ} {i : ℕ}
  {call call' : Call Conn ρ} {e : Event Conn ρ}

/-- A call that goes on has its URL's target. -/
theorem target_of_step {now : Time} (hurl : ByUrl lib urls (.go i now e : Move ρ))
    (he : call.step e = some call')
    (h : ∀ op ∈ call.pending, op.isStep = true →
      ∃ t, destination lib urls i = .ok t ∧ call.target = t.ofCall) :
    ∀ op ∈ call'.pending, op.isStep = true →
      ∃ t, destination lib urls i = .ok t ∧ call'.target = t.ofCall := by
  have hkept : ∀ op ∈ call.pending, op.isStep = true → call'.target = call.target →
      ∃ t, destination lib urls i = .ok t ∧ call'.target = t.ofCall := by
    intro op hop hstep hsame
    obtain ⟨t, ht, htarget⟩ := h op hop hstep
    exact ⟨t, ht, hsame.trans htarget⟩
  intro op hop hstep
  cases e with
  | abort why =>
    obtain rfl := Option.some.inj he
    refine hkept op ?_ hstep (call.abort_target why)
    have hpending : (call.abort why).pending = call.pending := by
      unfold Call.abort
      split <;> rfl
    exact hpending ▸ hop
  | refuse =>
    obtain ⟨-, rfl⟩ := Call.handle_of_step rfl he
    refine hkept op ?_ hstep (by simp [Call.handle])
    have hpending := (Call.ends_finish { call.complete .refuse with begun := true }
      (.error (.client .closed))).pending
    exact List.mem_of_mem_erase (hpending ▸ hop)
  | begin target idle =>
    obtain ⟨-, rfl⟩ := Call.handle_of_step rfl he
    have hparsed : target = match destination lib urls i with
        | .ok t => .ok t.ofCall
        | .error error => .error (.client error) := hurl
    cases hdestination : destination lib urls i with
    | ok t =>
      rw [hdestination] at hparsed
      subst hparsed
      refine ⟨t, rfl, ?_⟩
      cases idle <;> rfl
    | error error =>
      rw [hdestination] at hparsed
      subst hparsed
      refine hdestination ▸ hkept op ?_ hstep (by simp [Call.handle, Call.begin])
      have hpending := (Call.ends_finish { call.complete .start with begun := true }
        (.error (.client error))).pending
      exact List.mem_of_mem_erase (hpending ▸ hop)
  | _ =>
    obtain ⟨hmem, rfl⟩ := Call.handle_of_step rfl he
    exact hkept _ hmem rfl (Call.handle_target _ _ fun _ _ h ↦ by cases h)

/-- What putIdle() stores is its connection, or was there. -/
theorem mem_idle_putIdle {conn : Conn} {key : Text} {stored : Stored}
    (h : stored ∈ (s.putIdle options conn).idle key) :
    stored.conn = conn ∨ stored ∈ s.idle key := by
  rw [Shared.putIdle] at h
  split at h
  · exact Or.inr h
  · dsimp only at h
    by_cases hkey : key = conn.key
    · subst hkey
      rw [Function.update_self, List.mem_cons] at h
      exact h.imp_left fun heq ↦ congrArg Stored.conn heq
    · rw [Function.update_of_ne hkey] at h
      exact Or.inr h

/-- putIdle() leaves the calls alone. -/
theorem calls_putIdle (s : Shared ρ) (conn : Conn) : (s.putIdle options conn).calls = s.calls := by
  rw [Shared.putIdle]
  split <;> rfl

/-- A new connection is named by the number of connections so far. -/
theorem opened_of_bring {conn : Conn}
    (h : s.bring options call (.resolved (.ok conn)) = some u) :
    conn = ⟨s.opened, call.target.key⟩ := by
  rw [Shared.bring] at h
  split at h
  · next hconn => exact hconn
  · cases h

/-- A connection that is somewhere keeps its opener. -/
theorem Leads.note {conn : Conn} (h : Leads lib urls opener conn) (hlt : conn.id < s.opened)
    {now : Time} (hbring : s.bring options call e = some u) :
    Leads lib urls (noteOpener opener s (.go i now e) s) conn := by
  obtain ⟨t, ht, hkey⟩ := h
  refine ⟨t, ?_, hkey⟩
  rw [← ht]
  cases e with
  | resolved result =>
    cases result with
    | error ec => rfl
    | ok conn' =>
      rw [opened_of_bring hbring]
      exact congrArg _ (Function.update_of_ne hlt.ne _ _)
  | _ => rfl

/-- The connection that an event brings leads where its key says. -/
theorem Traced.source (h : Traced lib urls (s, opener)) (hinv : Shared.Inv options s)
    (hcall : s.calls[i]? = some call) (he : call.step e = some call') {now clock : Time}
    (hbring : Shared.bring options { s with clock } call e = some u) {source : Source Conn}
    (hsource : e.source = some source) :
    Leads lib urls (noteOpener opener s (.go i now e) s) source.conn := by
  obtain ⟨n, hbrings⟩ := Shared.brings_of_bring hbring
  cases source with
  | pooled conn =>
    obtain ⟨key, m, stored, -, hget, rfl⟩ := hbrings.pooled conn hsource
    have hlt : stored.conn.id < s.opened := hinv.known _ (.store key m) ⟨stored, hget, rfl⟩
    exact Leads.note (s := { s with clock }) (h.stored key stored (List.mem_of_getElem? hget)) hlt
      hbring
  | opened conn =>
    cases e with
    | resolved result =>
      cases result with
      | error ec => cases hsource
      | ok conn' =>
        cases hsource
        obtain ⟨hmem, -⟩ := Call.handle_of_step rfl he
        obtain ⟨t, ht, htarget⟩ := h.targets i call hcall .resolve hmem rfl
        refine ⟨t, ?_, ?_⟩
        · rw [← ht]
          exact congrArg _ (Function.update_self _ _ _)
        · rw [opened_of_bring hbring, htarget]
          rfl
    | begin target idle => cases idle <;> cases hsource
    | _ => cases hsource

/-- What a call holds after a step, or gives away, leads where its key says. -/
theorem Traced.flow (h : Traced lib urls (s, opener)) (hinv : Shared.Inv options s)
    (hcall : s.calls[i]? = some call) (he : call.step e = some call') {now clock : Time}
    (hbring : Shared.bring options { s with clock } call e = some u) {conn : Conn}
    (hconn : call'.conn = some conn ∨ call'.released = some conn) :
    Leads lib urls (noteOpener opener s (.go i now e) s) conn := by
  obtain ⟨⟨onComplete, hsettled⟩, hreleased⟩ := hinv.settled i call hcall
  have hheld : ∀ conn, call.conn = some conn →
      Leads lib urls (noteOpener opener s (.go i now e) s) conn := by
    intro conn hconn
    have hlt : conn.id < s.opened := hinv.known _ (.call i) ⟨call, conn, hcall, hconn, rfl⟩
    exact Leads.note (s := { s with clock }) (h.held i call hcall conn hconn) hlt hbring
  cases Call.flow_of_step hsettled he with
  | retains hretains =>
    obtain ⟨hsame | hnone, hkept⟩ := hretains
    · rcases hconn with hconn | hconn
      · exact hheld conn (hsame ▸ hconn)
      · rw [hkept, hreleased] at hconn
        cases hconn
    · rcases hconn with hconn | hconn
      · rw [hnone] at hconn
        cases hconn
      · rw [hkept, hreleased] at hconn
        cases hconn
  | takes source hsource hsame hkept =>
    rcases hconn with hconn | hconn
    · obtain rfl := Option.some.inj (hsame.symm.trans hconn)
      exact h.source hinv hcall he hbring hsource
    · rw [hkept, hreleased] at hconn
      cases hconn
  | gives message _ _ hgives =>
    rcases hconn with hconn | hconn
    · rw [hgives.1] at hconn
      cases hconn
    · exact hheld conn (hgives.2.1 ▸ hconn)

/-- A new call has no connection and does nothing yet. -/
theorem Traced.send (h : Traced lib urls (s, opener)) {new : Call Conn ρ}
    (hpending : ∀ op ∈ new.pending, op.isStep = false) (hconn : new.conn = none) :
    Traced lib urls ({ s with calls := s.calls ++ [new] }, opener) := by
  have hold : ∀ (j : ℕ) (other : Call Conn ρ), (s.calls ++ [new])[j]? = some other →
      s.calls[j]? = some other ∨ other = new := by
    intro j other hj
    rw [List.getElem?_append] at hj
    split at hj
    · exact Or.inl hj
    · exact Or.inr (List.mem_singleton.1 (List.mem_of_getElem? hj))
  refine ⟨fun j other hj op hop hstep ↦ ?_, fun j other hj conn hheld ↦ ?_, h.stored⟩
  · rcases hold j other hj with hj | rfl
    · exact h.targets j other hj op hop hstep
    · exact absurd (hstep.symm.trans (hpending op hop)) (by decide)
  · rcases hold j other hj with hj | rfl
    · exact h.held j other hj conn hheld
    · rw [hconn] at hheld
      cases hheld

/-- A handler of call `i` ran. -/
theorem Traced.settle (h : Traced lib urls (s, opener)) (hinv : Shared.Inv options s)
    (hcall : s.calls[i]? = some call) (he : call.step e = some call') {now clock : Time}
    (hurl : ByUrl lib urls (.go i now e : Move ρ))
    (hbring : Shared.bring options { s with clock } call e = some u) :
    Traced lib urls (u.settle options i call', noteOpener opener s (.go i now e) s) := by
  obtain ⟨n, hbrings⟩ := Shared.brings_of_bring hbring
  have hcalls : u.calls = s.calls := hbrings.calls
  have hnoted : ∀ conn, Leads lib urls opener conn → (∃ p, s.At conn.id p) →
      Leads lib urls (noteOpener opener s (.go i now e) s) conn := by
    rintro conn hleads ⟨p, hp⟩
    exact Leads.note (s := { s with clock }) hleads (hinv.known _ p hp) hbring
  have hold : Traced lib urls (u.hold i call', noteOpener opener s (.go i now e) s) := by
    refine ⟨fun j other hj ↦ ?_, fun j other hj conn hconn ↦ ?_, fun key stored hstored ↦ ?_⟩
    · dsimp only [Shared.hold] at hj
      rw [hcalls, List.getElem?_set] at hj
      split at hj
      · next hij =>
        subst hij
        split at hj
        · obtain rfl := Option.some.inj hj
          have htargets : ∀ op ∈ call'.pending, op.isStep = true →
              ∃ t, destination lib urls i = .ok t ∧ call'.target = t.ofCall :=
            target_of_step hurl he (h.targets i call hcall)
          exact htargets
        · cases hj
      · exact h.targets j other hj
    · dsimp only [Shared.hold] at hj
      rw [hcalls, List.getElem?_set] at hj
      split at hj
      · split at hj
        · obtain rfl := Option.some.inj hj
          exact h.flow hinv hcall he hbring (Or.inl hconn)
        · cases hj
      · exact hnoted conn (h.held j other hj conn hconn) ⟨.call j, other, conn, hj, hconn, rfl⟩
    · have hmem : stored ∈ s.idle key := by
        have hidle : u.idle key = (s.idle key).drop (n key) := hbrings.idle key
        exact List.mem_of_mem_drop (hidle ▸ hstored)
      obtain ⟨j, hj⟩ := List.getElem?_of_mem hmem
      exact hnoted _ (h.stored key stored hmem) ⟨.store key j, stored, hj, rfl⟩
  rw [Shared.settle]
  cases hgiven : call'.released with
  | none => exact hold
  | some conn =>
    dsimp only
    refine ⟨?_, ?_, fun key stored hstored ↦ ?_⟩
    · dsimp only
      rw [calls_putIdle]
      exact hold.targets
    · dsimp only
      rw [calls_putIdle]
      exact hold.held
    · rcases mem_idle_putIdle hstored with hconn | hmem
      · rw [hconn]
        exact h.flow hinv hcall he hbring (Or.inr hgiven)
      · exact hold.stored key stored hmem

/-- **Every step** keeps the connections traced. -/
theorem Traced.step (h : Traced lib urls (s, opener)) (hinv : Shared.Inv options s) {t : Shared ρ}
    {a : Move ρ} (hurl : ByUrl lib urls a) (ha : s.step options a = some t) :
    Traced lib urls (t, noteOpener opener s a t) := by
  cases a with
  | send method bodySize onProgress onComplete =>
    obtain rfl := Option.some.inj ha
    refine h.send (fun op hop ↦ ?_) rfl
    rw [List.mem_singleton.1 hop]
    split <;> rfl
  | destroy =>
    obtain rfl := Option.some.inj ha
    exact ⟨h.targets, h.held, fun key stored hstored ↦ absurd hstored List.not_mem_nil⟩
  | go i now e =>
    rw [Shared.step] at ha
    split at ha
    · cases ha
    obtain ⟨call, hcall, ha⟩ := Option.bind_eq_some_iff.1 ha
    obtain ⟨u, hbring, ha⟩ := Option.bind_eq_some_iff.1 ha
    obtain ⟨call', he, rfl⟩ := Option.map_eq_some_iff.1 ha
    exact h.settle hinv hcall he hurl hbring

/-- The connections of a client are traced as long as begin() parses the URLs. -/
theorem traced_of_reachableVia {x : Shared ρ × (ℕ → ℕ)}
    (h : (tracedMachine ρ options).ReachableVia (fun _ ↦ ByUrl lib urls) x) :
    Traced lib urls x ∧ Shared.Inv options x.1 := by
  refine h.invariant (I := fun x ↦ Traced lib urls x ∧ Shared.Inv options x.1) ?_ ?_
  · rintro ⟨s, opener⟩ ⟨hinit, -⟩
    have hinv : Shared.Inv options s := Shared.inv_of_reachable (Machine.Reachable.init hinit)
    obtain ⟨clock, rfl⟩ := hinit
    exact ⟨⟨fun i call hcall ↦ (by cases hcall), fun i call hcall ↦ (by cases hcall),
      fun key stored hstored ↦ absurd hstored List.not_mem_nil⟩, hinv⟩
  · rintro ⟨s, opener⟩ a ⟨t, opener'⟩ ⟨htraced, hinv⟩ hurl hstep
    obtain ⟨ha, hnote⟩ := Machine.observed_step hstep
    dsimp only at hnote
    subst hnote
    exact ⟨htraced.step hinv hurl ha, hinv.step ha⟩

/-- A connection that begin() takes was stored under the key of the target. -/
theorem stored_of_bring {target : HttpClient.Target} {conn : Conn}
    (h : s.bring options call (.begin (.ok target) (some conn)) = some u) :
    ∃ stored ∈ s.idle target.key, stored.conn = conn := by
  rw [Shared.bring] at h
  obtain ⟨n, -, hfound⟩ := Stored.takeIdle_spec options s.clock (s.idle target.key)
  cases htake : Stored.takeIdle options s.clock (s.idle target.key) with
  | mk found rest =>
    rw [htake] at h hfound
    dsimp only at h
    split at h
    · next hconn =>
      subst hconn
      obtain ⟨m, stored, -, hget, hsame, -⟩ := hfound
      exact ⟨stored, List.mem_of_getElem? hget, hsame⟩
    · cases h

/-- **A connection leads where its next call wants to go.** Equal keys stand for one destination,
whatever the kind of the URLs; and a call that takes a connection from the store goes to the host
and the port that the call which opened it went to, with the same protection. -/
theorem taken_leads_there (lib : Uri.Addresses) (options : Options) :
    (∀ kind url url' s t, parseUrl lib url kind = .ok s → parseUrl lib url' kind = .ok t →
      s.key = t.key → s.tls = t.tls ∧ s.host = t.host ∧ s.port = t.port) ∧
    ∀ (urls : ℕ → Text) (x y : Shared ρ × (ℕ → ℕ)) (i : ℕ) (now : Time)
      (target : Except ErrorCode HttpClient.Target) (conn : Conn),
      (tracedMachine ρ options).ReachableVia (fun _ ↦ ByUrl lib urls) x →
      ByUrl lib urls (.go i now (.begin target (some conn)) : Move ρ) →
      (tracedMachine ρ options).step x (.go i now (.begin target (some conn))) = some y →
      ∃ s t, destination lib urls (x.2 conn.id) = .ok s ∧ destination lib urls i = .ok t ∧
        s.tls = t.tls ∧ s.host = t.host ∧ s.port = t.port := by
  refine ⟨fun kind url url' s t hs ht hkey ↦ destination_of_key hs ht hkey, ?_⟩
  intro urls x y i now target conn hx hurl hstep
  obtain ⟨htraced, hinv⟩ := traced_of_reachableVia hx
  have hgo : x.1.step options (.go i now (.begin target (some conn))) = some y.1 :=
    (Machine.observed_step hstep).1
  rw [Shared.step] at hgo
  split at hgo
  · cases hgo
  obtain ⟨call, hcall, hgo⟩ := Option.bind_eq_some_iff.1 hgo
  obtain ⟨u, hbring, -⟩ := Option.bind_eq_some_iff.1 hgo
  have hparsed : target = match destination lib urls i with
      | .ok t => .ok t.ofCall
      | .error error => .error (.client error) := hurl
  cases hdestination : destination lib urls i with
  | error error =>
    rw [hdestination] at hparsed
    subst hparsed
    cases hbring
  | ok t =>
    rw [hdestination] at hparsed
    subst hparsed
    obtain ⟨stored, hmem, rfl⟩ := stored_of_bring hbring
    obtain ⟨s, hs, hkey⟩ := htraced.stored t.key stored hmem
    have hsame : stored.conn.key = t.key := (hinv.orderly t.key).keys stored hmem
    exact ⟨s, t, hs, rfl, destination_of_key hs hdestination (hkey.trans hsame)⟩

/-- The first call names no port, the second one a user and the port. -/
def samePort (i : ℕ) : Text :=
  if i = 0 then "http://a.b/x".toList else "http://u@a.b:80".toList

/-- A GET on a new connection, which is given to the store afterwards, and a second call. -/
def givenBack : List (Move Unit) :=
  [.send .get 0 false true, .go 0 0 (.begin (.ok ⟨"http://a.b:80".toList, false⟩) none),
    .go 0 1 (.resolved (.ok ⟨0, "http://a.b:80".toList⟩)), .go 0 2 (.connected (.ok (.ok ()))),
    .go 0 3 (.headerWritten (.ok true) 3),
    .go 0 4 (.headerRead (.ok ⟨(), true, some 0, 0, true⟩) 4), .send .get 0 false true]

theorem taken_leads_there_samePort : ∃ s t, destination noAddresses samePort 0 = .ok s ∧
    destination noAddresses samePort 1 = .ok t ∧
      s.tls = t.tls ∧ s.host = t.host ∧ s.port = t.port := by
  obtain ⟨x, hrun, hid⟩ : ∃ x, (tracedMachine Unit {}).run ({ clock := 0 }, fun _ ↦ 0) givenBack =
      some x ∧ x.2 0 = 0 := ⟨_, rfl, rfl⟩
  have hinit : (tracedMachine Unit {}).ReachableVia (fun _ ↦ ByUrl noAddresses samePort)
      ({ clock := 0 }, fun _ ↦ 0) := Machine.ReachableVia.init ⟨⟨0, rfl⟩, rfl⟩
  have hx : (tracedMachine Unit {}).ReachableVia (fun _ ↦ ByUrl noAddresses samePort) x := by
    refine hinit.run givenBack (Machine.everyStep_of_forall (fun a ha _ _ ↦ ?_) _) hrun
    rw [givenBack] at ha
    simp only [List.mem_cons, List.not_mem_nil, or_false] at ha
    rcases ha with rfl | rfl | rfl | rfl | rfl | rfl | rfl
    case inr.inl => rfl
    all_goals trivial
  obtain ⟨y, hstep⟩ : ∃ y, (tracedMachine Unit {}).step x (.go 1 5
      (.begin (.ok ⟨"http://a.b:80".toList, false⟩) (some ⟨0, "http://a.b:80".toList⟩))) =
        some y := by
    obtain rfl := Option.some.inj hrun
    exact ⟨_, rfl⟩
  rw [← hid]
  exact (taken_leads_there noAddresses {}).2 samePort x y 1 5 _ _ hx rfl hstep

end Traced

end HttpClient

end CppGate
