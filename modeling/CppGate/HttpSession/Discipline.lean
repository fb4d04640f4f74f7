import CppGate.HttpSession.Control
import CppGate.Routing.Answers

/-!
# Requests and responses of a session

A session answers the requests it reads one at a time and in order. Three facts carry this: the
write of a queued response is the only thing posted (`Matched`), a session that is to close its
connection does nothing but write the last response and tear down (`Final`), and what was queued is
what the requests and the errors found so far are owed.

A request whose route() throws gets no response, since the exception leaves on_read(); every other
one gets exactly one (`one_response_each`).
-/

namespace CppGate.HttpSession

open Http Routing

/-! ### The history of a session -/

/-- What happens to requests and responses. -/
inductive Event
  /-- The read of a request begins. -/
  | read
  /-- on_read() finds a complete request that is no upgrade. With it come how route() ends, the
  response it leaves and `stopping()`. -/
  | request (request : Request) (routed : Outcome × HttpResponse) (stopping : Bool)
  /-- on_read() finds an error and calls send_error(). -/
  | refusal (status : ℕ)
  /-- The write of a response begins. -/
  | write (response : HttpResponse)
  /-- on_write() runs without an error. With it comes `stopping()`. -/
  | written (response : HttpResponse) (stopping : Bool)
  deriving DecidableEq, Repr

/-- What on_read() finds. -/
def readFinding (s : Session) : Completion → Option Event
  | .success found =>
    if found.isUpgrade then none
    else some (.request found.request found.routed s.stopping)
  | .error .endOfStream _ => none
  | .error ec targetEmpty => (errorStatus ec targetEmpty).map .refusal
  | .part _ => none

/-- What a handler finds. -/
def finding (s : Session) (kind : Kind) (c : Completion) : Option Event :=
  match kind, c with
  | .header, .error ec targetEmpty => readFinding s (.error ec targetEmpty)
  | .body, c => readFinding s c
  | .write response, .success _ => some (.written response s.stopping)
  | _, _ => none

/-- What the start of an operation means. -/
def Event.ofKind : Kind → Option Event
  | .header => some .read
  | .write response => some (.write response)
  | _ => none

/-- The operations that a step starts. -/
def begun (s t : Session) : List Event :=
  (t.kinds.diff s.kinds).filterMap Event.ofKind

/-- What happens in a step. -/
def log (s : Session) (action : Action) (t : Session) : List Event :=
  (match action with
    | .handle kind c => (finding s kind c).toList
    | _ => []) ++ begun s t

/-- A session with its history. -/
abbrev machineWithLog (cfg : Config) : Machine (Session × List Event) Action :=
  (machine cfg).logged log

/-- The responses whose write has begun. -/
def writes (history : List Event) : List HttpResponse :=
  history.filterMap fun
    | .write response => some response
    | _ => none

/-- The response that a request or an error is owed. -/
def Event.due (beast : Beast) : Event → Option HttpResponse
  | .request _ (_, response) stopping =>
    some (if stopping then response.setKeepAlive beast false else response)
  | .refusal status => some (errorResponse beast status)
  | _ => none

/-- The request's route() threw. -/
def Event.threw : Event → Bool
  | .request _ (.threw, _) _ => true
  | _ => false

/-- The response that a request or an error gets. -/
def Event.answered (beast : Beast) (e : Event) : Option HttpResponse :=
  if e.threw then none else e.due beast

/-- No request is to be read any more: an error response was queued, or on_write() saw that the
session is stopping. -/
def Event.ends : Event → Bool
  | .refusal _ => true
  | .written _ stopping => stopping
  | _ => false

/-- A request is read, or its read begins. -/
def Event.reads : Event → Bool
  | .read => true
  | .request _ _ _ => true
  | _ => false

variable {s t : Session} {beast : Beast} {cfg : Config}

/-! ### What a step finds -/

/-- What a read that fails finds is the response it is refused with, or nothing. -/
theorem readFinding_error {ec : ErrorCode} (hec : ec ≠ .endOfStream) (targetEmpty : Bool) :
    readFinding s (.error ec targetEmpty) = (errorStatus ec targetEmpty).map .refusal := by
  cases ec with
  | endOfStream => exact absurd rfl hec
  | _ => rfl

/-- A read finds a request, or something to refuse. -/
theorem readFinding_cases {c : Completion} {e : Event} (h : readFinding s c = some e) :
    (∃ status, e = .refusal status) ∨
      ∃ found, c = .success found ∧ e = .request found.request found.routed s.stopping := by
  cases c with
  | part => cases h
  | success found =>
    rw [readFinding] at h
    split at h
    · cases h
    · exact Or.inr ⟨found, rfl, (Option.some.inj h).symm⟩
  | error ec targetEmpty =>
    by_cases hec : ec = .endOfStream
    · subst hec
      cases h
    rw [readFinding_error hec] at h
    obtain ⟨status, -, hstatus⟩ := Option.map_eq_some_iff.1 h
    exact Or.inl ⟨status, hstatus.symm⟩

/-- A handler finds an error, a request or the end of a write. -/
theorem finding_cases {kind : Kind} {c : Completion} {e : Event} (h : finding s kind c = some e) :
    (∃ status, e = .refusal status) ∨
      (∃ found, kind = .body ∧ c = .success found ∧
        e = .request found.request found.routed s.stopping) ∨
      ∃ response found, kind = .write response ∧ c = .success found ∧
        e = .written response s.stopping := by
  cases kind with
  | body =>
    rcases readFinding_cases h with hrefusal | ⟨found, hc, he⟩
    · exact Or.inl hrefusal
    · exact Or.inr (Or.inl ⟨found, rfl, hc, he⟩)
  | header =>
    cases c with
    | error ec targetEmpty =>
      rcases readFinding_cases h with hrefusal | ⟨found, hc, -⟩
      · exact Or.inl hrefusal
      · cases hc
    | part | success => cases h
  | write response =>
    cases c with
    | success found =>
      exact Or.inr (Or.inr ⟨response, found, rfl, rfl, (Option.some.inj h).symm⟩)
    | part | error => cases h
  | detect | handshake | continueWrite | linger | shutdown => cases c <;> cases h

/-- What happens in a step is found by its handler, or begun by it. -/
theorem mem_log {action : Action} {e : Event} (h : e ∈ log s action t) :
    e ∈ begun s t ∨ ∃ kind c, action = .handle kind c ∧ finding s kind c = some e := by
  cases action with
  | run | dispatch | stopAll | stop | task | complete => exact Or.inl h
  | handle kind c =>
    rcases List.mem_append.1 h with h | h
    · exact Or.inr ⟨kind, c, rfl, Option.mem_toList.1 h⟩
    · exact Or.inl h

/-! ### What a step starts -/

/-- What the last response leaves to do: its write, which closes the connection, and teardown. -/
def Kind.closes (beast : Beast) : Kind → Prop
  | .write response => response.keepAlive beast = false
  | .linger | .shutdown => True
  | _ => False

theorem closes_of_eofReaction {kind : Kind} (h : kind ∈ (eofReaction s).kinds) :
    kind = .linger ∨ kind = .shutdown := by
  rw [eofReaction] at h
  split at h
  · exact Or.inl (List.mem_singleton.1 h)
  · split at h
    · exact Or.inr (List.mem_singleton.1 h)
    · exact absurd h List.not_mem_nil

theorem queued_eofReaction (s : Session) : (eofReaction s).queued = [] := by
  rw [eofReaction]
  split
  · rfl
  · split <;> rfl

/-- on_read() starts nothing itself, except the teardown. -/
theorem closes_of_readReaction {kind : Kind} {c : Completion}
    (h : kind ∈ (readReaction beast s c).kinds) : kind = .linger ∨ kind = .shutdown := by
  cases c with
  | part => exact absurd h List.not_mem_nil
  | success found =>
    rw [readReaction] at h
    split at h
    · exact absurd h List.not_mem_nil
    · split at h <;> exact absurd h List.not_mem_nil
  | error ec targetEmpty =>
    by_cases hec : ec = .endOfStream
    · subst hec
      exact closes_of_eofReaction h
    rw [readReaction_error hec] at h
    split at h <;> exact absurd h List.not_mem_nil

/-- Only a write that goes on is started by a handler. -/
theorem write_of_reaction {kind : Kind} {c : Completion} {response : HttpResponse}
    (h : .write response ∈ (reaction cfg s kind c).kinds) : kind = .write response := by
  have hteardown : ¬(Kind.write response = .linger ∨ Kind.write response = .shutdown) := by simp
  have hmem : ∀ {other : Kind}, .write response ≠ other → .write response ∉ [other] :=
    fun hne h ↦ hne (List.mem_singleton.1 h)
  cases c with
  | part => exact (List.mem_singleton.1 h).symm
  | error ec targetEmpty =>
    cases kind with
    | header | body => exact absurd (closes_of_readReaction h) hteardown
    | write => exact absurd (closes_of_eofReaction h) hteardown
    | detect | handshake | continueWrite | linger | shutdown => exact absurd h List.not_mem_nil
  | success found =>
    cases kind with
    | body =>
      have hread : .write response ∈ (readReaction cfg.beast s (.success found)).kinds := h
      exact absurd (closes_of_readReaction hread) hteardown
    | write sent =>
      rw [reaction, successReaction] at h
      split at h
      · exact absurd h (hmem (by simp))
      · exact absurd (closes_of_eofReaction h) hteardown
    | detect =>
      rw [reaction, successReaction] at h
      split at h <;> split at h <;> first
        | exact absurd h (hmem (by simp))
        | exact absurd h List.not_mem_nil
    | header =>
      rw [reaction, successReaction] at h
      split at h <;> exact absurd h (hmem (by simp))
    | handshake | continueWrite | linger => exact absurd h (hmem (by simp))
    | shutdown => exact absurd h List.not_mem_nil

/-- An operation of the teardown leads to the teardown only. -/
theorem closes_of_reaction {kind : Kind} (hkind : kind.closes cfg.beast) (c : Completion) :
    (∀ next ∈ (reaction cfg s kind c).kinds, next.closes cfg.beast) ∧
      (reaction cfg s kind c).queued = [] := by
  have heof : (∀ next ∈ (eofReaction s).kinds, next.closes cfg.beast) ∧
      (eofReaction s).queued = [] := by
    refine ⟨fun next hnext ↦ ?_, queued_eofReaction s⟩
    rcases closes_of_eofReaction hnext with rfl | rfl <;> trivial
  have hself : (∀ next ∈ [kind], next.closes cfg.beast) := List.forall_mem_singleton.2 hkind
  cases c with
  | part => exact ⟨hself, rfl⟩
  | error ec targetEmpty =>
    cases kind with
    | write => exact heof
    | linger | shutdown => exact ⟨fun _ hnext ↦ absurd hnext List.not_mem_nil, rfl⟩
    | detect | handshake | header | continueWrite | body => exact absurd hkind id
  | success found =>
    cases kind with
    | write response =>
      have hclose : (response.keepAlive cfg.beast && !s.stopping) = false := by
        rw [show response.keepAlive cfg.beast = false from hkind, Bool.false_and]
      rw [reaction, successReaction, hclose]
      exact heof
    | linger => exact ⟨hself, rfl⟩
    | shutdown => exact ⟨fun _ hnext ↦ absurd hnext List.not_mem_nil, rfl⟩
    | detect | handshake | header | continueWrite | body => exact absurd hkind id

theorem begun_of_eq (h : t.kinds = s.kinds) : begun s t = [] := by
  have hdiff : ∀ kinds : List Kind, kinds.diff kinds = [] := by
    intro kinds
    induction kinds with
    | nil => rfl
    | cons kind kinds ih => rw [List.diff_cons, List.erase_cons_head, ih]
  rw [begun, h, hdiff, List.filterMap_nil]

/-- The operations worth noting are reads of a header and writes of a response. -/
theorem mem_begun {e : Event} (h : e ∈ begun s t) :
    (e = .read ∧ .header ∈ t.kinds) ∨ ∃ response, e = .write response := by
  obtain ⟨kind, hkind, he⟩ := List.mem_filterMap.1 h
  have hmem := List.diff_subset _ _ hkind
  cases kind with
  | header => exact Or.inl ⟨(Option.some.inj he).symm, hmem⟩
  | write response => exact Or.inr ⟨response, (Option.some.inj he).symm⟩
  | detect | handshake | continueWrite | body | linger | shutdown => cases he

/-- A request is found by the handler of a body, with the answer of route(). -/
theorem mem_log_request {action : Action} {request : Request} {routed : Outcome × HttpResponse}
    {stopping : Bool} (h : .request request routed stopping ∈ log s action t) :
    s.stopping = stopping ∧ ∃ found, action = .handle .body (.success found) ∧
      found.request = request ∧ found.routed = routed := by
  rcases mem_log h with hbegun | ⟨kind, c, rfl, hfound⟩
  · rcases mem_begun hbegun with ⟨he, -⟩ | ⟨_, he⟩ <;> cases he
  · rcases finding_cases hfound with ⟨_, he⟩ | ⟨found, rfl, rfl, he⟩ | ⟨_, _, -, -, he⟩
    · cases he
    · obtain ⟨rfl, rfl, rfl⟩ := Event.request.inj he
      exact ⟨rfl, found, rfl, rfl, rfl⟩
    · cases he

/-- A handler begins no write of its own. -/
theorem writes_begun_reacts {kind : Kind} {c : Completion} (hkinds : s.kinds = [kind])
    (hkinds' : t.kinds = (reaction cfg s kind c).kinds) : writes (begun s t) = [] := by
  rw [begun, hkinds, hkinds', List.diff_cons, List.diff_nil, writes, List.filterMap_filterMap]
  refine List.filterMap_eq_nil_iff.2 fun next hnext ↦ ?_
  have hmem := List.mem_of_mem_erase hnext
  cases next with
  | write response =>
    -- such a write is the one that goes on
    obtain rfl := write_of_reaction hmem
    generalize reaction cfg s (.write response) c = reaction at hmem hnext
    cases reaction with
    | starts kind =>
      obtain rfl : .write response = kind := List.mem_singleton.1 hmem
      rw [Reaction.kinds, List.erase_cons_head] at hnext
      exact absurd hnext List.not_mem_nil
    | nothing | answers => exact absurd hnext List.not_mem_nil
  | detect | handshake | header | continueWrite | body | linger | shutdown => rfl

theorem log_quiet {action : Action} (h : action.quiet = true) : log s action t = begun s t := by
  cases action with
  | handle => exact absurd h Bool.false_ne_true
  | run | dispatch | stopAll | stop | task | complete => rfl

/-! ### What a session that closes does -/

/-- The session is to close the connection: it writes its last response at most, and tears down. -/
structure Final (beast : Beast) (s : Session) : Prop where
  kinds : ∀ kind ∈ s.kinds, kind.closes beast
  queue : ∀ response ∈ s.responseQueue, response.keepAlive beast = false
  launched : ¬s.unlaunched

/-- **The step lemma** of the last response: only the teardown follows it. -/
theorem final_step {action : Action} (h : Final cfg.beast s) (hstep : Control cfg s action t) :
    Final cfg.beast t := by
  cases hstep with
  | other _ hkinds hqueue _ hlaunch =>
    exact ⟨hkinds ▸ h.kinds, hqueue ▸ h.queue, mt hlaunch h.launched⟩
  | begins _ _ hlaunch => exact absurd hlaunch h.launched
  | @writes response _ _ hqueue hlaunch hkinds hqueue' =>
    refine ⟨?_, ?_, hlaunch⟩
    · rw [hkinds]
      exact List.forall_mem_singleton.2 (h.queue response (hqueue ▸ List.mem_singleton_self _))
    · rw [hqueue']
      exact fun _ hmem ↦ absurd hmem List.not_mem_nil
  | @reacts kind c _ hidle _ hlaunch hkinds hqueue =>
    have hkind : kind.closes cfg.beast := h.kinds kind (hidle ▸ List.mem_singleton_self _)
    obtain ⟨hcloses, hqueued⟩ := closes_of_reaction (s := s) hkind c
    refine ⟨hkinds ▸ hcloses, ?_, hlaunch⟩
    rw [hqueue, hqueued]
    exact fun _ hmem ↦ absurd hmem List.not_mem_nil

/-- From then on nothing is read. -/
theorem Final.no_reads {action : Action} (h : Final cfg.beast s) (hstep : Control cfg s action t)
    {e : Event} (he : e ∈ log s action t) : e.reads = false := by
  have hfinal := final_step h hstep
  have hbegun : e ∈ begun s t → e.reads = false := by
    intro he
    rcases mem_begun he with ⟨-, hheader⟩ | ⟨response, rfl⟩
    · exact absurd (hfinal.kinds .header hheader) id
    · rfl
  cases hstep with
  | other hquiet => exact hbegun (log_quiet hquiet ▸ he)
  | begins | writes => exact hbegun he
  | @reacts kind c _ hidle =>
    have hkind : kind.closes cfg.beast := h.kinds kind (hidle ▸ List.mem_singleton_self _)
    refine (List.mem_append.1 he).elim (fun he ↦ ?_) hbegun
    cases kind with
    | write response =>
      cases c with
      | success => exact List.mem_singleton.1 he ▸ rfl
      | part | error => exact absurd he List.not_mem_nil
    | linger | shutdown => cases c <;> exact absurd he List.not_mem_nil
    | detect | handshake | header | continueWrite | body => exact absurd hkind id

/-! ### One step -/

/-- The response that is queued is the one owed to what was found. -/
theorem queued_readReaction (c : Completion) :
    (readReaction beast s c).queued = ((readFinding s c).bind (Event.answered beast)).toList := by
  cases c with
  | part => rfl
  | success found =>
    rw [readReaction, readFinding]
    split
    · rfl
    rcases found.routed with ⟨- | -, response⟩ <;> rfl
  | error ec targetEmpty =>
    by_cases hec : ec = .endOfStream
    · subst hec
      exact queued_eofReaction s
    rw [readReaction_error hec, readFinding_error hec]
    cases errorStatus ec targetEmpty <;> rfl

/-- What a handler queues is the response to what it found. -/
theorem queued_reaction (cfg : Config) (s : Session) (kind : Kind) (c : Completion) :
    (reaction cfg s kind c).queued =
      ((finding s kind c).bind (Event.answered cfg.beast)).toList := by
  cases c with
  | part => cases kind <;> rfl
  | error ec targetEmpty =>
    cases kind with
    | header | body => exact queued_readReaction (.error ec targetEmpty)
    | write => exact queued_eofReaction s
    | detect | handshake | continueWrite | linger | shutdown => rfl
  | success found =>
    cases kind with
    | body => exact queued_readReaction (.success found)
    | write response =>
      rw [reaction, successReaction]
      split
      · rfl
      · exact queued_eofReaction s
    | detect =>
      rw [reaction, successReaction]
      split <;> split <;> rfl
    | header =>
      rw [reaction, successReaction]
      split <;> rfl
    | handshake | continueWrite | linger | shutdown => rfl

/-- Operations that begin answer nothing. -/
theorem answered_begun (s t : Session) : (begun s t).filterMap (Event.answered beast) = [] := by
  refine List.filterMap_eq_nil_iff.2 fun e he ↦ ?_
  rcases mem_begun he with ⟨rfl, -⟩ | ⟨response, rfl⟩ <;> rfl

/-- Handlers find no write that begins. -/
theorem writes_finding (s : Session) (kind : Kind) (c : Completion) :
    writes (finding s kind c).toList = [] := by
  cases he : finding s kind c with
  | none => rfl
  | some e =>
    rcases finding_cases he with ⟨_, rfl⟩ | ⟨_, -, -, rfl⟩ | ⟨_, _, -, -, rfl⟩ <;> rfl

/-- **What a step queues and writes**: what was queued is written first, and what is owed for what
the step finds is queued. -/
theorem writes_step {action : Action} (hstep : Control cfg s action t) :
    writes (log s action t) ++ t.responseQueue =
      s.responseQueue ++ (log s action t).filterMap (Event.answered cfg.beast) := by
  cases hstep with
  | other hquiet hkinds hqueue =>
    have hlog : log s action t = [] := by rw [log_quiet hquiet, begun_of_eq hkinds]
    rw [hlog, hqueue, List.filterMap_nil, List.append_nil]
    rfl
  | begins hidle hqueue _ hkinds hqueue' =>
    have hlog : log s .task t = [] := by
      rw [log_quiet rfl, begun, hidle, List.diff_nil]
      rcases hkinds with hkinds | hkinds <;> rw [hkinds] <;> rfl
    rw [hlog, hqueue, hqueue']
    rfl
  | @writes response _ hidle hqueue _ hkinds hqueue' =>
    have hlog : log s .task t = [.write response] := by
      rw [log_quiet rfl, begun, hidle, List.diff_nil, hkinds]
      rfl
    rw [hlog, hqueue, hqueue']
    rfl
  | @reacts kind c _ hidle hqueue _ hkinds hqueue' =>
    have hwrites : writes (log s (.handle kind c) t) = [] := by
      have hbegun := writes_begun_reacts hidle hkinds
      have hfinding := writes_finding s kind c
      rw [writes] at hbegun hfinding ⊢
      rw [log, List.filterMap_append, hbegun, hfinding, List.append_nil]
    have hanswered : (finding s kind c).toList.filterMap (Event.answered cfg.beast) =
        ((finding s kind c).bind (Event.answered cfg.beast)).toList := by
      cases finding s kind c with
      | none => rfl
      | some e =>
        show [e].filterMap (Event.answered cfg.beast) = (e.answered cfg.beast).toList
        cases he : e.answered cfg.beast <;> simp [he]
    rw [hwrites, hqueue, hqueue', log, List.filterMap_append, answered_begun, List.append_nil,
      hanswered, queued_reaction]

/-- An error response closes the connection. -/
theorem keepAlive_errorResponse (hbeast : beast.Lawful) (status : ℕ) :
    (errorResponse beast status).keepAlive beast = false := by
  rw [errorResponse, HttpResponse.preparePayload]
  split
  · exact hbeast.keepAlive_setKeepAlive _ _ _
  · exact (hbeast.keepAlive_contentLength _ _ _).trans (hbeast.keepAlive_setKeepAlive _ _ _)

variable (beast) in
/-- What ends the requests is answered with an error response. -/
theorem reaction_of_readFinding {c : Completion} {e : Event} (he : readFinding s c = some e)
    (hends : e.ends = true) :
    ∃ status, readReaction beast s c = .answers (errorResponse beast status) := by
  cases c with
  | part => cases he
  | success found =>
    rw [readFinding] at he
    split at he
    · cases he
    · rw [← Option.some.inj he] at hends
      exact absurd hends Bool.false_ne_true
  | error ec targetEmpty =>
    by_cases hec : ec = .endOfStream
    · subst hec
      cases he
    rw [readFinding_error hec] at he
    obtain ⟨status, hstatus, -⟩ := Option.map_eq_some_iff.1 he
    rw [readReaction_error hec, hstatus]
    exact ⟨status, rfl⟩

/-- A handler that ends the reading answers the error, or begins the end of the connection. -/
theorem reaction_of_finding {kind : Kind} {c : Completion} {e : Event}
    (he : finding s kind c = some e) (hends : e.ends = true) :
    (∃ status, reaction cfg s kind c = .answers (errorResponse cfg.beast status)) ∨
      reaction cfg s kind c = eofReaction s := by
  cases kind with
  | body =>
    have hread := reaction_of_readFinding cfg.beast he hends
    cases c with
    | part => cases he
    | success | error => exact Or.inl hread
  | header =>
    cases c with
    | error => exact Or.inl (reaction_of_readFinding cfg.beast he hends)
    | part | success => cases he
  | write response =>
    cases c with
    | success found =>
      rw [← Option.some.inj he] at hends
      have hstopping : s.stopping = true := hends
      refine Or.inr ?_
      rw [reaction, successReaction, hstopping, Bool.not_true, Bool.and_false,
        if_neg Bool.false_ne_true]
    | part | error => cases he
  | detect | handshake | continueWrite | linger | shutdown => cases c <;> cases he

/-- After an event that ends the reading, the session is to close. -/
theorem final_of_ends (hbeast : cfg.beast.Lawful) {action : Action}
    (hstep : Control cfg s action t) {e : Event} (he : e ∈ log s action t) (hends : e.ends = true) :
    Final cfg.beast t := by
  have hbegun : e ∉ begun s t := by
    intro he
    rcases mem_begun he with ⟨rfl, -⟩ | ⟨response, rfl⟩ <;> exact absurd hends Bool.false_ne_true
  cases hstep with
  | other hquiet => exact absurd (log_quiet hquiet ▸ he) hbegun
  | begins | writes => exact absurd he hbegun
  | @reacts kind c _ hidle hqueue hlaunch hkinds hqueue' =>
    have hfound := Option.mem_toList.1 ((List.mem_append.1 he).resolve_right hbegun)
    rcases reaction_of_finding hfound hends with ⟨status, hreaction⟩ | hreaction
    · rw [hreaction] at hkinds hqueue'
      refine ⟨hkinds ▸ fun _ hmem ↦ absurd hmem List.not_mem_nil, ?_, hlaunch⟩
      rw [hqueue']
      exact List.forall_mem_singleton.2 (keepAlive_errorResponse hbeast status)
    · rw [hreaction] at hkinds hqueue'
      rw [queued_eofReaction] at hqueue'
      refine ⟨fun kind hkind ↦ ?_, hqueue' ▸ fun _ hmem ↦ absurd hmem List.not_mem_nil, hlaunch⟩
      rcases closes_of_eofReaction (hkinds ▸ hkind) with rfl | rfl <;> trivial

/-- Within a step nothing is read after what ends the requests. -/
theorem pairwise_log (hbeast : cfg.beast.Lawful) {action : Action}
    (hstep : Control cfg s action t) :
    (log s action t).Pairwise fun e later ↦ e.ends = true → later.reads = false := by
  have hbegun : (begun s t).Pairwise fun e later ↦ e.ends = true → later.reads = false := by
    refine List.pairwise_of_forall_mem_list fun e he later _ hends ↦ ?_
    rcases mem_begun he with ⟨rfl, -⟩ | ⟨response, rfl⟩ <;> exact absurd hends Bool.false_ne_true
  refine List.pairwise_append.2 ⟨?_, hbegun, fun e he later hlater hends ↦ ?_⟩
  · split
    · next kind c =>
      cases finding s kind c with
      | none => exact List.Pairwise.nil
      | some e => exact List.pairwise_singleton _ e
    · exact List.Pairwise.nil
  · have hfinal := final_of_ends hbeast hstep (List.mem_append_left _ he) hends
    rcases mem_begun hlater with ⟨rfl, hheader⟩ | ⟨response, rfl⟩
    · exact absurd (hfinal.kinds .header hheader) id
    · rfl

/-! ### Runs -/

/-- What every run keeps. -/
structure Disciplined (cfg : Config) (x : Session × List Event) : Prop where
  inv : Inv x.1
  matched : Matched x.1
  answered : writes x.2 ++ x.1.responseQueue = x.2.filterMap (Event.answered cfg.beast)
  final : (∃ e ∈ x.2, e.ends = true) → Final cfg.beast x.1
  quiet : x.2.Pairwise fun e later ↦ e.ends = true → later.reads = false

/-- **The step lemma.** -/
theorem disciplined_step (hbeast : cfg.beast.Lawful) {x y : Session × List Event} {action : Action}
    (h : Disciplined cfg x) (hstep : (machineWithLog cfg).step x action = some y) :
    Disciplined cfg y := by
  obtain ⟨s, history⟩ := x
  obtain ⟨t, history'⟩ := y
  obtain ⟨htaken, hlog⟩ := Machine.logged_step hstep
  dsimp only at htaken hlog
  subst hlog
  have hcontrol : Control cfg s action t := control_step h.inv h.matched htaken
  have hfinal : (∃ e ∈ history, e.ends = true) → Final cfg.beast s := h.final
  refine ⟨(settles_step h.inv htaken).1, matched_step hcontrol h.matched, ?_, ?_, ?_⟩
  · have hanswered : writes history ++ s.responseQueue = _ := h.answered
    have hwrites := writes_step hcontrol
    dsimp only
    rw [writes] at hanswered hwrites ⊢
    rw [List.filterMap_append, List.append_assoc, hwrites, ← List.append_assoc, hanswered,
      List.filterMap_append]
  · rintro ⟨e, he, hends⟩
    rcases List.mem_append.1 he with he | he
    · exact final_step (hfinal ⟨e, he, hends⟩) hcontrol
    · exact final_of_ends hbeast hcontrol he hends
  · refine List.pairwise_append.2 ⟨h.quiet, ?_, fun e he later hlater hends ↦ ?_⟩
    · exact pairwise_log hbeast hcontrol
    · exact (hfinal ⟨e, he, hends⟩).no_reads hcontrol hlater

/-- **The run lemma.** -/
theorem disciplined (hbeast : cfg.beast.Lawful) {x : Session × List Event}
    (h : (machineWithLog cfg).Reachable x) : Disciplined cfg x := by
  refine h.invariant (I := Disciplined cfg) ?_ fun x action y hdisciplined hstep ↦
    disciplined_step hbeast hdisciplined hstep
  rintro ⟨s, history⟩ ⟨hinit, hhistory⟩
  have hinv : Inv s := (good_init s hinit).1
  change s = _ at hinit
  change history = [] at hhistory
  subst hhistory
  refine ⟨hinv, ?_, ?_, ?_, List.Pairwise.nil⟩
  · rw [hinit]
    rfl
  · rw [hinit]
    rfl
  · rintro ⟨e, he, -⟩
    exact absurd he List.not_mem_nil

/-- Everything is answered exactly if no route() threw. -/
theorem due_eq_answered_iff (history : List Event) :
    history.filterMap (Event.due beast) = history.filterMap (Event.answered beast) ↔
      ∀ e ∈ history, e.threw = false := by
  have hle : ∀ history : List Event, (history.filterMap (Event.answered beast)).length ≤
      (history.filterMap (Event.due beast)).length := by
    intro history
    rw [List.length_filterMap_eq_countP, List.length_filterMap_eq_countP]
    refine List.countP_mono_left fun e _ he ↦ ?_
    rw [Event.answered] at he
    split at he
    · exact absurd he Bool.false_ne_true
    · exact he
  induction history with
  | nil => exact iff_of_true rfl fun _ he ↦ absurd he List.not_mem_nil
  | cons e history ih =>
    rw [List.forall_mem_cons]
    cases hthrew : e.threw with
    | false =>
      have hanswered : e.answered beast = e.due beast := by
        rw [Event.answered, hthrew, if_neg Bool.false_ne_true]
      rw [List.filterMap_cons, List.filterMap_cons, hanswered]
      cases e.due beast with
      | none => simpa [hthrew] using ih
      | some response => simpa [hthrew] using ih
    | true =>
      have hanswered : e.answered beast = none := by rw [Event.answered, hthrew, if_pos rfl]
      obtain ⟨response, hdue⟩ : ∃ response, e.due beast = some response := by
        cases e with
        | request => exact ⟨_, rfl⟩
        | read | refusal | write | written => cases hthrew
      rw [List.filterMap_cons_none hanswered, List.filterMap_cons_some hdue]
      refine iff_of_false (fun heq ↦ ?_) fun h ↦ absurd h.1.symm Bool.false_ne_true
      have hlength := congrArg List.length heq
      have hhistory := hle history
      rw [List.length_cons] at hlength
      omega

/-- What the session has begun and not ended: operations, and the posted write. -/
def Session.outstanding (s : Session) : ℕ :=
  s.operations.length + s.tasks.count .write

/-- **The discipline of a session.** In every run at most one thing is outstanding, the queue holds
one response at most and none while one is written, and nothing is read after an end. Requests and
errors are answered in order, each of them once, exactly if no route() threw. -/
theorem one_response_each (hbeast : cfg.beast.Lawful) {x : Session × List Event}
    (h : (machineWithLog cfg).Reachable x) :
    x.1.outstanding ≤ 1 ∧ x.1.responseQueue.length ≤ 1 ∧
      ((∃ response, .write response ∈ x.1.kinds) → x.1.responseQueue = []) ∧
      (x.2.Pairwise fun e later ↦ e.ends = true → later.reads = false) ∧
      (x.2.filterMap (Event.due cfg.beast) = writes x.2 ++ x.1.responseQueue ↔
        ∀ e ∈ x.2, e.threw = false) := by
  obtain ⟨hinv, hmatched, hanswered, -, hquiet⟩ := disciplined hbeast h
  have hone : x.1.outstanding ≤ 1 := by
    have hsingle := hinv.single
    have hcount : x.1.tasks.count .write ≤ x.1.tasks.countP (· != .stop) := by
      refine List.countP_mono_left fun task _ htask ↦ ?_
      rw [beq_iff_eq.1 htask]
      rfl
    rw [Session.work] at hsingle
    rw [Session.outstanding]
    omega
  have hqueue : x.1.responseQueue.length + x.1.kinds.length ≤ 1 := by
    rw [hmatched, Session.kinds, List.length_map]
    rw [Session.outstanding] at hone
    omega
  refine ⟨hone, by omega, ?_, hquiet, ?_⟩
  · rintro ⟨response, hresponse⟩
    have hpos := List.length_pos_of_mem hresponse
    exact List.length_eq_zero_iff.1 (by omega)
  · rw [hanswered]
    exact due_eq_answered_iff x.2

/-! ### Behind a router -/

section Routes

variable {env : Env} {ω : Type*}

/-- How route() ends, and the response it leaves. -/
def routed (r : Router env ω) (request : Request) (x : Exchange ω) : Outcome × HttpResponse :=
  ((r.route request x).1, (r.route request x).2.response)

/-- The step routes requests with this router. -/
def RoutedBy (r : Router env ω) (_ : Session × List Event) (action : Action) : Prop :=
  ∀ found, action = .handle .body (.success found) →
    ∃ x : Exchange ω, x.response = {} ∧ found.routed = routed r found.request x

/-- What is in the history of a session behind a router is what its route() did. -/
theorem request_routed {r : Router env ω} {x : Session × List Event}
    (h : (machineWithLog cfg).ReachableVia (RoutedBy r) x) {request : Request}
    {outcome : Outcome × HttpResponse} {stopping : Bool}
    (hmem : .request request outcome stopping ∈ x.2) :
    ∃ y : Exchange ω, y.response = {} ∧ outcome = routed r request y := by
  let I : Session × List Event → Prop := fun x ↦ ∀ request outcome stopping,
    .request request outcome stopping ∈ x.2 →
      ∃ y : Exchange ω, y.response = {} ∧ outcome = routed r request y
  refine h.invariant (I := I) ?_ ?_ request outcome stopping hmem
  · rintro x ⟨-, hhistory⟩ request outcome stopping hmem
    rw [hhistory] at hmem
    exact absurd hmem List.not_mem_nil
  · intro x action y hx hrouted hstep request outcome stopping hmem
    rw [(Machine.logged_step hstep).2] at hmem
    rcases List.mem_append.1 hmem with hmem | hmem
    · exact hx request outcome stopping hmem
    · obtain ⟨-, found, rfl, rfl, rfl⟩ := mem_log_request hmem
      exact hrouted found rfl

end Routes

/-- A request for a path that no route has. -/
def missing (method : Verb) (fields : List Field) : Request :=
  { method, target := "/missing".toList, fields }

/-- What on_read() finds of a request. -/
def asks (r : Router plainPaths Unit) (request : Request) : Found where
  request := request
  routed := routed r request { world := () }

/-- A plain session that reads a request. -/
def readsOne (r : Router plainPaths Unit) (request : Request) : List Action :=
  [.run, .dispatch, .task, .complete .detect (.success {}), .handle .detect (.success {}),
    .complete .header (.success (asks r request)), .handle .header (.success (asks r request)),
    .complete .body (.success (asks r request)), .handle .body (.success (asks r request))]

theorem one_response_each_notFound :
    ∃ x, (machineWithLog dual).run ({ stream := .plain }, []) (readsOne {} (missing .get [])) =
        some x ∧
      x.2.filterMap (Event.due plainBeast) = writes x.2 ++ x.1.responseQueue ∧
      x.1.responseQueue.map HttpResponse.status = [404] := by
  have hinit : (machineWithLog dual).Init ({ stream := .plain }, []) := ⟨rfl, rfl⟩
  have hreachable := Machine.run_reachable (readsOne {} (missing .get [])) hinit rfl
  have hanswered := (one_response_each plainBeast_lawful hreachable).2.2.2.2.2 (by decide)
  exact ⟨_, rfl, hanswered, rfl⟩

/-- A router whose 404 handler throws. -/
def throwingNotFound : Router plainPaths Unit where
  notFoundHandler := .http fun _ x ↦ (.threw, x)

/-- The request is read, and nothing answers it. -/
theorem throwing_unanswered :
    ¬∀ (cfg : Config) (x : Session × List Event), cfg.beast.Lawful →
      (machineWithLog cfg).Reachable x →
        x.2.filterMap (Event.due cfg.beast) = writes x.2 ++ x.1.responseQueue := by
  intro h
  have hinit : (machineWithLog dual).Init ({ stream := .plain }, []) := ⟨rfl, rfl⟩
  have hreachable :=
    Machine.run_reachable (readsOne throwingNotFound (missing .get [])) hinit rfl
  exact absurd (h dual _ plainBeast_lawful hreachable) (by decide)

/-- A plain session that reads a request is a session behind the router. -/
theorem readsOne_routedBy (r : Router plainPaths Unit) (request : Request) :
    ∀ action ∈ readsOne r request, ∀ x, RoutedBy r x action := by
  rintro _ hmem _ found rfl
  obtain rfl : found = asks r request := by simpa [readsOne] using hmem
  exact ⟨{ world := () }, rfl, rfl⟩

end CppGate.HttpSession
