import CppGate.Foundations.Machine
import CppGate.Proxies.Blocks

/-!
# Replacing the trusted proxies

`Router::setTrustedProxies` may be called while requests are served. It builds the new list by
itself, which may throw, and publishes it as a whole; route() and upgrade() load the list once and
resolve the client with what they loaded, whatever is published meanwhile. So each request is
answered from one complete list that was in force at some moment between its arrival and its answer,
and a peer in no block of these lists is taken for what it is, whatever its headers say. The lists
are what the calls that returned were given, in order (`returned`): a call that throws publishes
nothing (`old_or_new_list`).
-/

namespace CppGate.Proxies

open Http

variable {ι : Type*} {asio : Asio}

/-! ### The machine -/

/-- A request to be routed: its peer, and its header fields. -/
structure Asked where
  peer : Text
  fields : List Field
  /-- How many lists had been published when it arrived. -/
  since : ℕ

/-- A request with its client. -/
structure Resolved extends Asked where
  ip : Text
  /-- How many lists had been published when the client was resolved. -/
  till : ℕ

/-- What a thread is doing. -/
inductive Worker
  | idle
  /-- In setTrustedProxies(): the list it was given, what is left of it, and what it has built. -/
  | building (cidrs rest : List Text) (proxies : TrustedProxies)
  /-- Before trustedProxies(). -/
  | arrived (asked : Asked)
  /-- After trustedProxies(). -/
  | holding (asked : Asked) (proxies : TrustedProxies)

/-- A call of setTrustedProxies() that is over. -/
structure Ended where
  cidrs : List Text
  /-- What it threw; nothing if it returned. -/
  thrown : Option Text

/-- What the calls that returned were given. -/
def returned (ended : List Ended) : List (List Text) :=
  (ended.filter fun call ↦ call.thrown.isNone).map Ended.cidrs

/-- The trusted proxies of a router, and the threads that use them. -/
structure Publication (ι : Type*) where
  workers : ι → Worker := fun _ ↦ .idle
  /-- `trusted_proxies_`. -/
  proxies : TrustedProxies := {}
  /-- The lists that were published, the oldest first. -/
  lists : List (List Text) := [[]]
  resolved : List Resolved := []
  /-- The calls of setTrustedProxies() that are over, the oldest first. -/
  ended : List Ended := []

/-- What happens next. -/
inductive PublicationAction (ι : Type*)
  /-- A thread calls setTrustedProxies(). -/
  | set (i : ι) (cidrs : List Text)
  /-- A thread calls route() or upgrade(). -/
  | ask (i : ι) (peer : Text) (fields : List Field)
  /-- A thread that is busy goes on. -/
  | next (i : ι)

variable [DecidableEq ι]

/-- A thread goes on with something. -/
def Publication.become (s : Publication ι) (i : ι) (worker : Worker) : Publication ι :=
  { s with workers := Function.update s.workers i worker }

variable (asio) in
/-- A thread goes on: an entry is added, the list is published or loaded, or a client resolved. -/
def Publication.advance (s : Publication ι) (i : ι) : Worker → Option (Publication ι)
  | .idle => none
  | .building cidrs (cidr :: rest) proxies =>
    match add asio proxies cidr with
    | .ok proxies => some (s.become i (.building cidrs rest proxies))
    | .error what => some { s.become i .idle with ended := s.ended ++ [⟨cidrs, some what⟩] }
  | .building cidrs [] proxies =>
    some { s.become i .idle with
      proxies
      lists := s.lists ++ [cidrs]
      ended := s.ended ++ [⟨cidrs, none⟩] }
  | .arrived asked => some (s.become i (.holding asked s.proxies))
  | .holding asked proxies =>
    let ip := resolve asio proxies asked.peer asked.fields
    some { s.become i .idle with
      resolved := s.resolved ++ [{ asked with ip, till := s.lists.length }] }

variable (asio) in
/-- One step of one thread. -/
def Publication.step (s : Publication ι) : PublicationAction ι → Option (Publication ι)
  | .set i cidrs =>
    match s.workers i with
    | .idle => some (s.become i (.building cidrs cidrs {}))
    | _ => none
  | .ask i peer fields =>
    match s.workers i with
    | .idle => some (s.become i (.arrived ⟨peer, fields, s.lists.length⟩))
    | _ => none
  | .next i => s.advance asio i (s.workers i)

/-- The threads of a router that trusts nobody yet. -/
def publicationMachine (asio : Asio) (ι : Type*) [DecidableEq ι] :
    Machine (Publication ι) (PublicationAction ι) where
  Init s := s = {}
  step := Publication.step asio

/-! ### Lists in force -/

/-- A list that was in force at some moment from when `since` lists had been published until `till`
were, built completely. -/
def InForce (asio : Asio) (lists : List (List Text)) (since till : ℕ) (proxies : TrustedProxies) :
    Prop :=
  ∃ k cidrs, since ≤ k + 1 ∧ k < till ∧ lists[k]? = some cidrs ∧
    cidrs.foldlM (add asio) {} = .ok proxies

omit [DecidableEq ι] in
/-- What was in force in a time was in force in a longer one. -/
theorem InForce.later {lists lists' : List (List Text)} {since till : ℕ} {proxies : TrustedProxies}
    (h : InForce asio lists since till proxies) (hlists : lists <+: lists') {till' : ℕ}
    (htill : till ≤ till') : InForce asio lists' since till' proxies := by
  obtain ⟨k, cidrs, hsince, hlt, hget, hbuilt⟩ := h
  obtain ⟨more, rfl⟩ := hlists
  refine ⟨k, cidrs, hsince, hlt.trans_le htill, ?_, hbuilt⟩
  rw [List.getElem?_append_left (List.getElem?_eq_some_iff.1 hget).1, hget]

/-- What is known of a thread. -/
def Worker.Sound (asio : Asio) (lists : List (List Text)) : Worker → Prop
  | .idle => True
  | .building cidrs rest proxies =>
    ∃ added, cidrs = added ++ rest ∧ added.foldlM (add asio) {} = .ok proxies
  | .arrived asked => asked.since ≤ lists.length
  | .holding asked proxies => InForce asio lists asked.since lists.length proxies

theorem Worker.Sound.later {lists lists' : List (List Text)} {worker : Worker}
    (h : worker.Sound asio lists) (hlists : lists <+: lists') : worker.Sound asio lists' := by
  cases worker with
  | idle => trivial
  | building cidrs rest proxies => exact h
  | arrived asked => exact h.trans hlists.length_le
  | holding asked proxies => exact InForce.later h hlists hlists.length_le

/-- How a call ended: it threw what building its list throws, or its list can be built. -/
def Ended.Sound (asio : Asio) (call : Ended) : Prop :=
  match call.thrown with
  | some what => call.cidrs.foldlM (add asio) {} = .error what
  | none => ∃ proxies, call.cidrs.foldlM (add asio) {} = .ok proxies

/-- The invariant of the threads and of what they have done. -/
structure Publication.Inv (asio : Asio) (s : Publication ι) : Prop where
  current : InForce asio s.lists s.lists.length s.lists.length s.proxies
  workers : ∀ i, (s.workers i).Sound asio s.lists
  resolved : ∀ a ∈ s.resolved, ∃ proxies, InForce asio s.lists a.since a.till proxies ∧
    a.ip = resolve asio proxies a.peer a.fields
  ended : ∀ call ∈ s.ended, call.Sound asio
  lists : s.lists = [] :: returned s.ended

namespace Publication

variable {s t : Publication ι} {i : ι} {worker : Worker}

theorem sound_update {lists : List (List Text)} {workers : ι → Worker}
    (h : ∀ j, (workers j).Sound asio lists) (hworker : worker.Sound asio lists) (j : ι) :
    (Function.update workers i worker j).Sound asio lists := by
  rcases eq_or_ne j i with rfl | hne
  · rwa [Function.update_self]
  · rw [Function.update_of_ne hne]
    exact h j

/-- A thread goes on, and nothing else changes. -/
theorem Inv.become (h : s.Inv asio) (hworker : worker.Sound asio s.lists) :
    (s.become i worker).Inv asio :=
  ⟨h.current, sound_update h.workers hworker, h.resolved, h.ended, h.lists⟩

/-- The arguments of the calls that returned, in the order of their returns. -/
theorem returned_append (ended : List Ended) (call : Ended) :
    returned (ended ++ [call]) = returned ended ++ returned [call] := by
  rw [returned, returned, returned, List.filter_append, List.map_append]

/-- One more call is over. -/
theorem sound_append {ended : List Ended} (h : ∀ call ∈ ended, call.Sound asio) {call : Ended}
    (hcall : call.Sound asio) : ∀ call' ∈ ended ++ [call], call'.Sound asio := by
  intro call' hmem
  rcases List.mem_append.1 hmem with hold | hnew
  · exact h call' hold
  · obtain rfl := List.mem_singleton.1 hnew
    exact hcall

/-- A call throws, and nothing is published. -/
theorem Inv.throw (h : s.Inv asio) {cidrs : List Text} {what : Text}
    (hbuilt : cidrs.foldlM (add asio) {} = .error what) :
    Inv asio { s.become i .idle with ended := s.ended ++ [⟨cidrs, some what⟩] } where
  current := h.current
  workers := sound_update h.workers trivial
  resolved := h.resolved
  ended := sound_append h.ended hbuilt
  lists := by
    rw [returned_append]
    exact h.lists.trans (List.append_nil _).symm

/-- A list that was built is published. -/
theorem Inv.publish (h : s.Inv asio) {cidrs : List Text} {proxies : TrustedProxies}
    (hbuilt : cidrs.foldlM (add asio) {} = .ok proxies) :
    Inv asio { s.become i .idle with
      proxies
      lists := s.lists ++ [cidrs]
      ended := s.ended ++ [⟨cidrs, none⟩] } where
  current := ⟨s.lists.length, cidrs, by simp, by simp, by simp, hbuilt⟩
  workers := sound_update (fun j ↦ (h.workers j).later (List.prefix_append _ _)) trivial
  resolved a ha := by
    obtain ⟨proxies, hforce, hip⟩ := h.resolved a ha
    exact ⟨proxies, hforce.later (List.prefix_append _ _) le_rfl, hip⟩
  ended := sound_append h.ended ⟨proxies, hbuilt⟩
  lists := by
    rw [returned_append, ← List.cons_append, ← h.lists]
    rfl

/-- A thread in the middle of a call goes on. -/
theorem Inv.advance (h : s.Inv asio) (hworker : worker.Sound asio s.lists)
    (ht : s.advance asio i worker = some t) : t.Inv asio := by
  cases worker with
  | idle => exact absurd ht.symm (Option.some_ne_none t)
  | building cidrs rest proxies =>
    obtain ⟨added, hcidrs, hbuilt⟩ := hworker
    cases rest with
    | nil =>
      obtain rfl := Option.some.inj ht
      rw [List.append_nil] at hcidrs
      exact h.publish (hcidrs ▸ hbuilt)
    | cons cidr rest =>
      -- What the loop has built so far and what the next entry makes of it.
      have hfold (rest : List Text) : (added ++ cidr :: rest).foldlM (add asio) {} =
          add asio proxies cidr >>= rest.foldlM (add asio) := by
        rw [List.foldlM_append, hbuilt]
        rfl
      rw [Publication.advance] at ht
      cases hadd : add asio proxies cidr with
      | ok proxies' =>
        rw [hadd] at ht
        obtain rfl := Option.some.inj ht
        refine h.become ⟨added ++ [cidr], ?_, ?_⟩
        · rw [hcidrs, List.append_assoc, List.singleton_append]
        · rw [hfold [], hadd]
          rfl
      | error what =>
        rw [hadd] at ht
        obtain rfl := Option.some.inj ht
        refine h.throw ?_
        rw [hcidrs, hfold rest, hadd]
        rfl
  | arrived asked =>
    obtain rfl := Option.some.inj ht
    obtain ⟨k, cidrs, hsince, hlt, hget, hbuilt⟩ := h.current
    exact h.become ⟨k, cidrs, hworker.trans hsince, hlt, hget, hbuilt⟩
  | holding asked proxies =>
    obtain rfl := Option.some.inj ht
    have hidle : (s.become i .idle).Inv asio := h.become trivial
    refine ⟨hidle.current, hidle.workers, fun a ha ↦ ?_, hidle.ended, hidle.lists⟩
    rcases List.mem_append.1 ha with hold | hnew
    · exact h.resolved a hold
    · obtain rfl := List.mem_singleton.1 hnew
      exact ⟨proxies, hworker, rfl⟩

/-- **The step lemma.** -/
theorem Inv.step (h : s.Inv asio) {a : PublicationAction ι}
    (ha : s.step asio a = some t) : t.Inv asio := by
  cases a with
  | set i cidrs =>
    rw [Publication.step] at ha
    split at ha
    · obtain rfl := Option.some.inj ha
      exact h.become ⟨[], rfl, rfl⟩
    · exact absurd ha.symm (Option.some_ne_none t)
  | ask i peer fields =>
    rw [Publication.step] at ha
    split at ha
    · obtain rfl := Option.some.inj ha
      have hsound : (Worker.arrived ⟨peer, fields, s.lists.length⟩).Sound asio s.lists := le_rfl
      exact h.become hsound
    · exact absurd ha.symm (Option.some_ne_none t)
  | next i => exact h.advance (h.workers i) ha

/-- **The run lemma.** -/
theorem inv_of_reachable (h : (publicationMachine asio ι).Reachable s) : s.Inv asio := by
  refine h.invariant (I := Publication.Inv asio) (fun s hs ↦ ?_) fun s a t hinv ha ↦ hinv.step ha
  subst hs
  exact ⟨⟨0, [], le_rfl, zero_lt_one, rfl, rfl⟩, fun _ ↦ trivial,
    fun _ ha ↦ absurd ha List.not_mem_nil, fun _ hcall ↦ absurd hcall List.not_mem_nil, rfl⟩

end Publication

/-! ### Peers that nobody trusts -/

omit [DecidableEq ι] in
/-- A list that was built from entries trusts nobody outside their blocks. -/
theorem not_contains_of_outside (hasio : ClearsHostBits asio) {cidrs : List Text}
    {proxies : TrustedProxies} (hbuilt : cidrs.foldlM (add asio) {} = .ok proxies) {x : Address}
    (hout : ∀ text ∈ cidrs, ∀ address n, Entry asio text address n →
      ¬InBlock n address (normalize x)) : contains asio proxies x = false := by
  rw [← Bool.not_eq_true, contains_iff_scopedIn hasio hbuilt]
  rintro ⟨text, htext, address, n, hentry, hblock, -⟩
  exact hout text htext address n hentry hblock

omit [DecidableEq ι] in
/-- Who is not trusted is taken for what it is. -/
theorem resolve_of_not_contains {proxies : TrustedProxies} {peer : Text} {fields : List Field}
    {address : Address} (hpeer : parseAddress asio peer = some address)
    (h : contains asio proxies address = false) :
    resolve asio proxies peer fields = asio.toString address := by
  rw [resolve, hpeer]
  dsimp only
  rw [h, Bool.not_false, Bool.or_true, if_pos rfl]

/-- **Each request uses the old list or the new one.** The lists are none and what the calls that
returned were given, in order: a call that throws has published nothing, and it throws because its
own list cannot be built. The client of a request is resolved with one of them, built completely,
that was in force between its arrival and its answer; a peer outside the blocks of all the lists in
force in that time is its own client, whatever the headers say. -/
theorem old_or_new_list (hasio : ClearsHostBits asio) {s : Publication ι}
    (h : (publicationMachine asio ι).Reachable s) :
    s.lists = [] :: returned s.ended ∧
    (∀ call ∈ s.ended, call.Sound asio) ∧
    InForce asio s.lists s.lists.length s.lists.length s.proxies ∧
    (∀ a ∈ s.resolved, ∃ proxies, InForce asio s.lists a.since a.till proxies ∧
      a.ip = resolve asio proxies a.peer a.fields) ∧
    ∀ a ∈ s.resolved, ∀ address, parseAddress asio a.peer = some address →
      (∀ k, a.since ≤ k + 1 → k < a.till → ∀ cidrs, s.lists[k]? = some cidrs → ∀ text ∈ cidrs,
        ∀ network n, Entry asio text network n → ¬InBlock n network (normalize address)) →
      a.ip = asio.toString address := by
  have hinv := Publication.inv_of_reachable h
  refine ⟨hinv.lists, hinv.ended, hinv.current, hinv.resolved, fun a ha address hpeer hout ↦ ?_⟩
  obtain ⟨proxies, ⟨k, cidrs, hsince, htill, hget, hbuilt⟩, hip⟩ := hinv.resolved a ha
  rw [hip]
  exact resolve_of_not_contains hpeer
    (not_contains_of_outside hasio hbuilt (hout k hsince htill cidrs hget))

/-- The request that "10.0.0.1" forwards. -/
def forwarded : List Field := [⟨"X-Forwarded-For".toList, "203.0.113.7".toList⟩]

/-- The list is replaced after a request has loaded it, a second request comes after that, and a
third call of setTrustedProxies() throws. -/
def replaced : List (PublicationAction Bool) :=
  [.ask false "10.0.0.1".toList forwarded, .set true ["10.0.0.0/8".toList], .next false,
    .next true, .next true, .next false,
    .ask false "10.0.0.1".toList forwarded, .set true ["0.0.0.0/0".toList, "10.0.0.0/33".toList],
    .next true, .next false, .next true, .next false]

theorem old_or_new_list_replaced :
    ∃ s, (publicationMachine masks Bool).run {} replaced = some s ∧
      s.resolved.map Resolved.ip = ["10.0.0.1".toList, "203.0.113.7".toList] ∧
      s.ended.length = 2 ∧ s.lists = [] :: returned s.ended ∧
      returned s.ended = [["10.0.0.0/8".toList]] := by
  obtain ⟨s, hrun, hips, hended, hreturned⟩ : ∃ s,
      (publicationMachine masks Bool).run {} replaced = some s ∧
        s.resolved.map Resolved.ip = ["10.0.0.1".toList, "203.0.113.7".toList] ∧
        s.ended.length = 2 ∧ returned s.ended = [["10.0.0.0/8".toList]] :=
    ⟨_, rfl, by decide, by decide, by decide⟩
  exact ⟨s, hrun, hips, hended,
    (old_or_new_list clearsHostBits_masks (Machine.run_reachable replaced rfl hrun)).1, hreturned⟩

end CppGate.Proxies
