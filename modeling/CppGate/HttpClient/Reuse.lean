import CppGate.HttpClient.ConnectionFlow

/-!
# Connections that can be used again

A server may frame the body of a response by its length, by chunks, or not at all: then the body
ends with the connection. The parser knows, but succeed() asks the message, and `keep_alive()` of a
message looks at the version and the field `Connection` only. So a connection that the server closed
to end a body is given to putIdle() as well, unless the response says `close` or the call was
aborted; all others that are given to it can be used again (`pools_reusable_iff`).
-/

namespace CppGate.HttpClient

open Http

universe u

/-! ### Responses -/

/-- How the end of a body is found. -/
inductive Framing
  /-- By `Content-Length`. -/
  | length (n : ℕ)
  | chunked
  /-- By neither: at the end of the stream. -/
  | untilClose
  deriving DecidableEq, Repr

/-- The length that the header announces. -/
def Framing.contentLength : Framing → Option ℕ
  | .length n => some n
  | _ => none

/-- The header of a response, as a server sends it. -/
structure SentResponse where
  status : ℕ
  version : ℕ := 11
  fields : List Field := []
  framing : Framing
  deriving DecidableEq, Repr

namespace SentResponse

/-- No body follows: to a HEAD request, or 1xx, 204 or 304. -/
def headerOnly (method : Verb) (r : SentResponse) : Bool :=
  method == .head || bodyless r.status

/-- The response itself says where it ends. -/
def delimited (method : Verb) (r : SentResponse) : Bool :=
  r.headerOnly method || r.framing != .untilClose

/-- `keep_alive()`. -/
def keepAlive (beast : Beast) (r : SentResponse) : Bool :=
  beast.keepAlive r.version r.fields

/-- The parser's message once it has the header and so much of the body. -/
def message (beast : Beast) (r : SentResponse) (bodySize : ℕ) (isDone : Bool) :
    Message SentResponse where
  response := r
  keepAlive := r.keepAlive beast
  contentLength := r.framing.contentLength
  bodySize
  isDone

/-- After the header. -/
def parseHeader (beast : Beast) (method : Verb) (r : SentResponse) : Message SentResponse :=
  r.message beast 0 (r.headerOnly method || r.framing == .length 0)

end SentResponse

/-- What a read sees behind the last octet of a body. -/
inductive Ending
  | lastChunk
  /-- The end of the stream. -/
  | close
  deriving DecidableEq, Repr

/-- After `n` more octets of the body, and its ending if the read has seen one. That a length or a
last chunk is missing at the end of the stream is an error. -/
def parseBody (beast : Beast) (message : Message SentResponse) (n : ℕ) (ending : Option Ending) :
    Option (Message SentResponse) :=
  let r := message.response
  let bodySize := message.bodySize + n
  match r.framing, ending with
  | .length m, none =>
    if bodySize ≤ m then some (r.message beast bodySize (bodySize == m)) else none
  | .chunked, none => some (r.message beast bodySize false)
  | .chunked, some .lastChunk => some (r.message beast bodySize true)
  | .untilClose, none => some (r.message beast bodySize false)
  | .untilClose, some .close => some (r.message beast bodySize true)
  | _, _ => none

/-! ### The machine -/

variable {κ : Type u}

/-- What happens to a call whose server conforms: a read completes with what was sent, or another
event. -/
inductive Input (κ : Type u)
  | header (response : SentResponse) (now : Time)
  | body (n : ℕ) (ending : Option Ending) (now : Time)
  | event (e : Event κ SentResponse)

/-- The read has seen the end of the stream. -/
def Input.atEnd : Input κ → Bool
  | .body _ (some .close) _ => true
  | _ => false

namespace Call

/-- The event that an input is. -/
def received (beast : Beast) (s : Call κ SentResponse) : Input κ → Option (Event κ SentResponse)
  | .header r now => some (.headerRead (.ok (r.parseHeader beast s.method)) now)
  | .body n ending now =>
    match s.parser with
    | some (.message message) =>
      (parseBody beast message n ending).map fun message ↦ .bodyRead (.ok message) now
    | _ => none
  | .event e => if e.message.isSome then none else some e

/-- The response that an input is a part of. -/
def reads (s : Call κ SentResponse) : Input κ → Option SentResponse
  | .header r _ => some r
  | .body .. =>
    match s.parser with
    | some (.message message) => some message.response
    | _ => none
  | .event _ => none

/-- A call whose server conforms. -/
def servedMachine (κ : Type u) (beast : Beast) (onComplete : Bool) :
    Machine (Call κ SentResponse) (Input κ) where
  Init := IsNew onComplete
  step s a := (s.received beast a).bind s.step

/-- A connection that the step gives to putIdle() can be used again: its response allows that, and
says itself where it ends. -/
def PoolsReusable (beast : Beast) (s : Call κ SentResponse) (a : Input κ)
    (t : Call κ SentResponse) : Prop :=
  s.released = none → t.released.isSome = true →
    a.atEnd = false ∧ ∃ r ∈ s.reads a, r.keepAlive beast = true ∧ r.delimited s.method = true

/-- No body of a response that allows another request ends with the stream, unless the call was
aborted. -/
def KeptOpen (beast : Beast) (s : Call κ SentResponse) (a : Input κ) : Prop :=
  a.atEnd = true → s.conn.isSome = true → s.aborted = none →
    ∀ r ∈ s.reads a, r.keepAlive beast = false

instance (beast : Beast) (s : Call κ SentResponse) (a : Input κ)
    (t : Call κ SentResponse) : Decidable (PoolsReusable beast s a t) :=
  inferInstanceAs (Decidable (s.released = none → t.released.isSome = true →
    a.atEnd = false ∧ ∃ r ∈ s.reads a, r.keepAlive beast = true ∧ r.delimited s.method = true))

instance (beast : Beast) (s : Call κ SentResponse) (a : Input κ) :
    Decidable (KeptOpen beast s a) :=
  inferInstanceAs (Decidable (a.atEnd = true → s.conn.isSome = true → s.aborted = none →
    ∀ r ∈ s.reads a, r.keepAlive beast = false))

/-! ### What is given to putIdle() -/

variable {beast : Beast} {onComplete : Bool} {s t : Call κ SentResponse}

/-- What the parser makes of some more of a body. -/
theorem parseBody_spec {message message' : Message SentResponse} {n : ℕ} {ending : Option Ending}
    (h : parseBody beast message n ending = some message') :
    message'.response = message.response ∧
      message'.keepAlive = message.response.keepAlive beast ∧
      (ending = some .close → message'.isDone = true) ∧
      (message'.isDone = true → ending ≠ some .close → message.response.framing ≠ .untilClose) := by
  unfold parseBody at h
  dsimp only at h
  split at h
  · split at h
    · obtain rfl := Option.some.inj h
      exact ⟨rfl, rfl, fun hend ↦ (by cases hend), fun _ _ ↦ by simp [*]⟩
    · cases h
  · obtain rfl := Option.some.inj h
    exact ⟨rfl, rfl, fun hend ↦ (by cases hend), fun hdone ↦ absurd hdone Bool.false_ne_true⟩
  · obtain rfl := Option.some.inj h
    exact ⟨rfl, rfl, fun hend ↦ (by cases hend), fun _ _ ↦ by simp [*]⟩
  · obtain rfl := Option.some.inj h
    exact ⟨rfl, rfl, fun hend ↦ (by cases hend), fun hdone ↦ absurd hdone Bool.false_ne_true⟩
  · obtain rfl := Option.some.inj h
    exact ⟨rfl, rfl, fun _ ↦ rfl, fun _ hend ↦ absurd rfl hend⟩
  · cases h

/-- What an input is if a read completes with it. -/
theorem message_of_received {a : Input κ} {e : Event κ SentResponse}
    (ha : s.received beast a = some e) {message : Message SentResponse}
    (hmessage : e.message = some message) :
    s.reads a = some message.response ∧ message.keepAlive = message.response.keepAlive beast ∧
      (a.atEnd = true → message.isDone = true) ∧
      (message.isDone = true → a.atEnd = false → message.response.delimited s.method = true) := by
  cases a with
  | header r now =>
    obtain rfl := Option.some.inj ha
    obtain rfl := Option.some.inj hmessage
    refine ⟨rfl, rfl, fun hend ↦ absurd hend Bool.false_ne_true, fun hdone _ ↦ ?_⟩
    rcases Bool.or_eq_true_iff.1 hdone with hheader | hlength
    · exact Bool.or_eq_true_iff.2 (.inl hheader)
    · have hframing : (r.framing != .untilClose) = true := by
        rw [beq_iff_eq.1 hlength]
        rfl
      exact Bool.or_eq_true_iff.2 (.inr hframing)
  | body n ending now =>
    rw [received] at ha
    split at ha
    · next old hparser =>
      obtain ⟨new, hnew, rfl⟩ := Option.map_eq_some_iff.1 ha
      obtain rfl := Option.some.inj hmessage
      obtain ⟨hresponse, hkeep, hclose, hdelimited⟩ := parseBody_spec hnew
      refine ⟨by rw [reads, hparser, hresponse], hresponse ▸ hkeep, fun hend ↦ hclose ?_,
        fun hdone hend ↦ ?_⟩
      · rcases ending with - | - | -
        · cases hend
        · cases hend
        · rfl
      · have hopen : ending ≠ some .close := by
          rintro rfl
          cases hend
        rw [hresponse]
        exact Bool.or_eq_true_iff.2 (.inr (bne_iff_ne.2 (hdelimited hdone hopen)))
    · cases ha
  | event e' =>
    rw [received] at ha
    split at ha
    · cases ha
    · next hnone =>
      obtain rfl := Option.some.inj ha
      exact absurd (Option.isSome_of_eq_some hmessage) hnone

/-- Only reads have a response. -/
theorem message_of_atEnd {a : Input κ} {e : Event κ SentResponse}
    (ha : s.received beast a = some e) (hend : a.atEnd = true) :
    ∃ message, e.message = some message := by
  cases a with
  | body n ending now =>
    rw [received] at ha
    split at ha
    · obtain ⟨new, -, rfl⟩ := Option.map_eq_some_iff.1 ha
      exact ⟨new, rfl⟩
    · cases ha
  | _ => cases hend

/-- A call that has given its connection away is over. -/
def Served (onComplete : Bool) (s : Call κ SentResponse) : Prop :=
  s.Settled onComplete ∧ (s.released.isSome = true → s.finished = true)

theorem Served.step (h : Served onComplete s) {e : Event κ SentResponse} (he : s.step e = some t) :
    Served onComplete t := by
  refine ⟨h.1.step he, fun hreleased ↦ ?_⟩
  cases hfinished : s.finished with
  | true => rwa [h.1.eq_of_finished hfinished he]
  | false =>
    have hnone : s.released.isSome = false := by
      rw [Bool.eq_false_iff]
      exact fun hsome ↦ Bool.false_ne_true (hfinished.symm.trans (h.2 hsome))
    rcases flow_of_step h.1 he with ⟨-, hsame⟩ | ⟨-, -, -, hsame⟩ | ⟨-, -, -, -, -, hover⟩
    · exact absurd (hnone.symm.trans (hsame ▸ hreleased)) Bool.false_ne_true
    · exact absurd (hnone.symm.trans (hsame ▸ hreleased)) Bool.false_ne_true
    · exact hover

/-- One step pools a reusable connection exactly if it does not end such a body with the stream. -/
theorem Served.poolsReusable_iff (h : Served onComplete s) {a : Input κ}
    {e : Event κ SentResponse} (ha : s.received beast a = some e) (he : s.step e = some t) :
    PoolsReusable beast s a t ↔ KeptOpen beast s a := by
  constructor
  · intro hpools hend hconn haborted r hr
    obtain ⟨message, hmessage⟩ := message_of_atEnd ha hend
    obtain ⟨hreads, hkeep, hdone, -⟩ := message_of_received ha hmessage
    obtain rfl : message.response = r := Option.some.inj (hreads.symm.trans hr)
    rw [← hkeep, Bool.eq_false_iff]
    intro hkeepAlive
    obtain ⟨hdropped, hreleased, -⟩ :=
      (step_message h.1 hmessage he).1 ⟨hdone hend, hkeepAlive, haborted⟩
    have hfresh : s.released = none := by
      by_contra hsome
      have hover := h.1.eq_of_finished (h.2 (Option.isSome_iff_ne_none.2 hsome)) he
      rw [← hover, hdropped] at hconn
      cases hconn
    obtain ⟨hopen, -⟩ := hpools hfresh (hreleased ▸ hconn)
    exact Bool.false_ne_true (hopen.symm.trans hend)
  · intro hkept hfresh hreleased
    rcases flow_of_step h.1 he with ⟨-, hsame⟩ | ⟨-, -, -, hsame⟩ |
      ⟨message, hmessage, ⟨hdone, hkeepAlive, haborted⟩, -, hgiven, -⟩
    · rw [hsame, hfresh] at hreleased
      cases hreleased
    · rw [hsame, hfresh] at hreleased
      cases hreleased
    · obtain ⟨hreads, hkeep, -, hdelimited⟩ := message_of_received ha hmessage
      have hopen : a.atEnd = false := by
        rw [Bool.eq_false_iff]
        intro hend
        have hclosed := hkept hend (hgiven ▸ hreleased) haborted _ hreads
        exact Bool.false_ne_true (hclosed.symm.trans (hkeep.symm.trans hkeepAlive))
      exact ⟨hopen, _, hreads, hkeep.symm.trans hkeepAlive, hdelimited hdone hopen⟩

/-- **Only reusable connections enter the pool** exactly in the runs in which no body of a response
that allows another request ends with the stream. -/
theorem pools_reusable_iff (beast : Beast) {s : Call κ SentResponse} (hs : s.IsNew onComplete)
    (inputs : List (Input κ)) :
    (servedMachine κ beast onComplete).EveryStep (PoolsReusable beast) s inputs ↔
      (servedMachine κ beast onComplete).EveryStep (fun s a _ ↦ KeptOpen beast s a) s inputs := by
  have hstart : Served onComplete s := by
    refine ⟨Settled.reachable (Machine.Reachable.init hs), fun hreleased ↦ ?_⟩
    obtain ⟨method, bodySize, onProgress, closed, rfl⟩ := hs
    cases hreleased
  refine Machine.everyStep_congr (I := Served onComplete) ?_ ?_ hstart inputs
  · intro s a t h hstep
    obtain ⟨e, -, he⟩ := Option.bind_eq_some_iff.1 hstep
    exact h.step he
  · intro s a t h hstep
    obtain ⟨e, ha, he⟩ := Option.bind_eq_some_iff.1 hstep
    exact h.poolsReusable_iff ha he

/-! ### Two responses -/

/-- A GET as send() makes it. -/
def newGet : Call Unit SentResponse where
  method := .get
  bodySize := 0

/-- It is sent on a new connection, and answered with a header. -/
def answered (response : SentResponse) : List (Input Unit) :=
  [.event (.begin (.ok ⟨[], false⟩) none), .event (.resolved (.ok ())),
    .event (.connected (.ok (.ok ()))), .event (.headerWritten (.ok true) 0), .header response 0]

/-- A response of five octets: its connection is pooled. -/
theorem pools_reusable_iff_length :
    (∃ s, (servedMachine Unit plainBeast true).run newGet
      (answered ⟨200, 11, [], .length 5⟩ ++ [.body 5 none 0]) = some s ∧ s.released = some ()) ∧
    (servedMachine Unit plainBeast true).EveryStep (PoolsReusable plainBeast) newGet
      (answered ⟨200, 11, [], .length 5⟩ ++ [.body 5 none 0]) :=
  ⟨⟨_, rfl, rfl⟩, (pools_reusable_iff plainBeast ⟨.get, 0, false, false, rfl⟩ _).2 (by decide)⟩

/-- The same without a length, ended by the server closing the connection: it is pooled as well. -/
theorem closed_connection_pooled :
    (∃ s, (servedMachine Unit plainBeast true).run newGet
      (answered ⟨200, 11, [], .untilClose⟩ ++ [.body 5 (some .close) 0]) = some s ∧
        s.released = some ()) ∧
    ¬ (servedMachine Unit plainBeast true).EveryStep (PoolsReusable plainBeast) newGet
      (answered ⟨200, 11, [], .untilClose⟩ ++ [.body 5 (some .close) 0]) :=
  ⟨⟨_, rfl, rfl⟩, by decide⟩

end Call

end CppGate.HttpClient
