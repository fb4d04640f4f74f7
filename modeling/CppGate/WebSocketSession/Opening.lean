import CppGate.Routing.Answers

/-!
# How a server WebSocket session begins

run() of a WebSocket session, with the router it asks: the session is refused because the server is
stopping, or upgrade() decides, and a refusal is written as a plain HTTP response. What a refusal
says was written by user code, or not at all; do_reject() sees to it that a client can read it
(`run_answers_iff`). Only prepare_payload() may throw there, and it does for a body that the status
forbids, so a handler that leaves one takes run() down with it.
-/

namespace CppGate.WebSocketSession

open Http Routing

universe u

variable {env : Env} {ω : Type u}

/-- How run() ends. -/
inductive Opening
  /-- async_accept is called. -/
  | handshake
  /-- The write of the refusal is started. -/
  | refused (response : HttpResponse)
  /-- An exception leaves run(). -/
  | threw
  deriving DecidableEq, Repr

/-- `do_reject`, up to the write. -/
def rejectWith (beast : Beast) (version : ℕ) (response : HttpResponse) : Opening :=
  let response :=
    if response.hasResponse then response
    else (response.send beast 500 "Internal Server Error".toList).2
  match (({ response with version }).setKeepAlive beast false).preparePayload beast with
  | (.returned, response) => .refused response
  | (.threw, _) => .threw

/-- `run`, where stopping says what add() found. -/
def run (r : Router env ω) (stopping : Bool) (req : Request) (up : Upgrade ω) :
    Opening × Upgrade ω :=
  if stopping then
    let response := (({} : HttpResponse).send env.beast 503 "Server is shutting down".toList).2
    (rejectWith env.beast req.version response, up)
  else
    match r.upgrade req up {} with
    | ⟨.accepts, up, _⟩ => (.handshake, up)
    | ⟨.refuses, up, response⟩ => (rejectWith env.beast req.version response, up)
    | ⟨.throws, up, _⟩ => (.threw, up)

/-- A response that ends a connection: it says something, in the version of the request, does not
keep the connection, and has a body only if its status may. -/
structure Final (beast : Beast) (version : ℕ) (response : HttpResponse) : Prop where
  status : response.status ≠ 0
  version : response.version = version
  keepAlive : response.keepAlive beast = false
  body : bodyless response.status = true → response.body = []

/-- A body that the status forbids. -/
def Forbidden (response : HttpResponse) : Prop :=
  bodyless response.status = true ∧ response.body ≠ []

/-! ### What do_reject() writes -/

section Reject

variable {beast : Beast} {version : ℕ} {response : HttpResponse}

theorem not_forbidden_of_silent (h : response.hasResponse = false) : ¬Forbidden response := by
  rw [HttpResponse.hasResponse, bne_eq_false_iff_eq] at h
  rintro ⟨hstatus, -⟩
  rw [h] at hstatus
  exact absurd hstatus (by decide)

/-- A body that the status forbids ends in an exception. -/
theorem rejectWith_threw (h : Forbidden response) : rejectWith beast version response = .threw := by
  have hsome : response.hasResponse = true := by
    rw [← Bool.not_eq_false]
    exact fun hsilent ↦ not_forbidden_of_silent hsilent h
  rw [rejectWith]
  rw [if_pos hsome, HttpResponse.preparePayload, if_pos ⟨h.1, h.2⟩]

/-- A response that may have its body is written, with what it says. -/
theorem rejectWith_refused (version : ℕ) (hbeast : beast.Lawful)
    (hsome : response.hasResponse = true) (h : ¬Forbidden response) :
    ∃ written, rejectWith beast version response = .refused written ∧
      Final beast version written ∧ written.status = response.status ∧
        written.body = response.body := by
  have hprepare : (({ response with version }).setKeepAlive beast false).preparePayload beast =
      (.returned, { response with
        version
        fields := beast.contentLength (beast.setKeepAlive version response.fields false)
          response.body.length }) := if_neg h
  refine ⟨{ response with
    version
    fields := beast.contentLength (beast.setKeepAlive version response.fields false)
      response.body.length }, ?_, ⟨?_, rfl, ?_, ?_⟩, rfl, rfl⟩
  · rw [rejectWith, if_pos hsome, hprepare]
  · exact bne_iff_ne.1 hsome
  · show beast.keepAlive version (beast.contentLength _ _) = false
    rw [hbeast.keepAlive_contentLength, hbeast.keepAlive_setKeepAlive]
  · exact fun hstatus ↦ by_contra fun hbody ↦ h ⟨hstatus, hbody⟩

/-- Where there is no response, 500 is written. -/
theorem rejectWith_silent (version : ℕ) (hbeast : beast.Lawful)
    (hsilent : response.hasResponse = false) :
    ∃ written, rejectWith beast version response = .refused written ∧
      Final beast version written ∧ written.status = 500 := by
  set error := (response.send beast 500 "Internal Server Error".toList).2 with herror
  have hstatus : error.status = 500 := HttpResponse.send_status ..
  have hsome : error.hasResponse = true := by
    rw [HttpResponse.hasResponse, hstatus]
    rfl
  have hsame : rejectWith beast version response = rejectWith beast version error := by
    rw [rejectWith, rejectWith]
    rw [if_neg (Bool.eq_false_iff.1 hsilent), if_pos hsome]
  obtain ⟨written, hwritten, hfinal, hstatus', -⟩ := rejectWith_refused version hbeast
    hsome (by rw [Forbidden, hstatus]; exact fun h ↦ absurd h.1 (by decide))
  exact ⟨written, hsame.trans hwritten, hfinal, hstatus'.trans hstatus⟩

/-- do_reject() throws for nothing but a body that the status forbids. -/
theorem rejectWith_threw_iff (hbeast : beast.Lawful) :
    rejectWith beast version response = .threw ↔ Forbidden response := by
  refine ⟨fun h ↦ by_contra fun hnot ↦ ?_, rejectWith_threw⟩
  cases hsome : response.hasResponse with
  | true =>
    obtain ⟨written, hwritten, -⟩ := rejectWith_refused version hbeast hsome hnot
    exact absurd (h.symm.trans hwritten) nofun
  | false =>
    obtain ⟨written, hwritten, -⟩ := rejectWith_silent version hbeast hsome
    exact absurd (h.symm.trans hwritten) nofun

theorem rejectWith_ne_handshake : rejectWith beast version response ≠ .handshake := by
  rw [rejectWith]
  split <;> exact nofun

/-- Whatever is written is final, and says what the response says. -/
theorem of_rejectWith (hbeast : beast.Lawful) {written : HttpResponse}
    (h : rejectWith beast version response = .refused written) :
    Final beast version written ∧ written.status =
      (if response.hasResponse then response.status else 500) ∧
        (response.hasResponse = true → written.body = response.body) := by
  cases hsome : response.hasResponse with
  | true =>
    have hnot : ¬Forbidden response := fun hforbidden ↦
      absurd ((rejectWith_threw hforbidden).symm.trans h) nofun
    obtain ⟨written', hwritten, hfinal, hstatus, hbody⟩ :=
      rejectWith_refused version hbeast hsome hnot
    obtain rfl := Opening.refused.inj (hwritten.symm.trans h)
    exact ⟨hfinal, hstatus, fun _ ↦ hbody⟩
  | false =>
    obtain ⟨written', hwritten, hfinal, hstatus⟩ :=
      rejectWith_silent version hbeast hsome
    obtain rfl := Opening.refused.inj (hwritten.symm.trans h)
    exact ⟨hfinal, hstatus, fun hsilent ↦ absurd hsilent Bool.false_ne_true⟩

end Reject

/-! ### The guarantee -/

/-- A server that stops answers 503. -/
theorem stopping_response_status (beast : Beast) :
    (({} : HttpResponse).send beast 503 "Server is shutting down".toList).2.status = 503 :=
  HttpResponse.send_status ..

/-- **A handshake, a response or an exception.** run() starts the handshake exactly where the server
is not stopping and the router accepts. Otherwise it writes one response that says something, in the
version of the request, without keeping the connection: 503 where the server is stopping, and else
what the router left, or 500 if it left nothing. An exception leaves it exactly where the router
throws, or refuses with a body that the status forbids. -/
theorem run_answers_iff (hbeast : env.beast.Lawful) (r : Router env ω) (stopping : Bool)
    (req : Request) (up : Upgrade ω) :
    ((run r stopping req up).1 = .handshake ↔
      stopping = false ∧ (r.upgrade req up {}).verdict = .accepts) ∧
    ((run r stopping req up).1 = .threw ↔
      stopping = false ∧ ((r.upgrade req up {}).verdict = .throws ∨
        (r.upgrade req up {}).verdict = .refuses ∧ Forbidden (r.upgrade req up {}).response)) ∧
    ∀ written, (run r stopping req up).1 = .refused written →
      Final env.beast req.version written ∧
        written.status =
          if stopping then 503
          else if (r.upgrade req up {}).response.hasResponse then
            (r.upgrade req up {}).response.status
          else 500 := by
  cases stopping with
  | true =>
    have hrun : (run r true req up).1 = rejectWith env.beast req.version
      (({} : HttpResponse).send env.beast 503 "Server is shutting down".toList).2 := rfl
    have hstatus := stopping_response_status env.beast
    rw [hrun]
    refine ⟨?_, ?_, fun written hwritten ↦ ?_⟩
    · exact iff_of_false rejectWith_ne_handshake fun h ↦ absurd h.1.symm Bool.false_ne_true
    · refine iff_of_false (fun h ↦ ?_) fun h ↦ absurd h.1.symm Bool.false_ne_true
      have hforbidden := ((rejectWith_threw_iff hbeast).1 h).1
      rw [hstatus] at hforbidden
      exact absurd hforbidden (by decide)
    · obtain ⟨hfinal, hsame, -⟩ := of_rejectWith hbeast hwritten
      refine ⟨hfinal, hsame.trans ?_⟩
      rw [HttpResponse.hasResponse, hstatus]
      rfl
  | false =>
    rw [run, if_neg Bool.false_ne_true]
    rcases r.upgrade req up {} with ⟨- | - | -, up', response⟩
    · exact ⟨⟨fun _ ↦ ⟨rfl, rfl⟩, fun _ ↦ rfl⟩, by simp, fun _ ↦ Opening.noConfusion⟩
    · dsimp only
      refine ⟨?_, ?_, fun written hwritten ↦ ?_⟩
      · exact iff_of_false rejectWith_ne_handshake fun h ↦ Verdict.noConfusion h.2
      · rw [rejectWith_threw_iff hbeast]
        exact ⟨fun h ↦ ⟨rfl, Or.inr ⟨rfl, h⟩⟩, fun h ↦ (h.2.resolve_left Verdict.noConfusion).2⟩
      · obtain ⟨hfinal, hsame, -⟩ := of_rejectWith hbeast hwritten
        exact ⟨hfinal, hsame⟩
    · exact ⟨by simp, by simp, fun _ ↦ Opening.noConfusion⟩

/-- The pre-middleware of `rejecting` asks for a body with 204: send() throws in the router, and so
does run(). Once the server is stopping, nobody asks it. -/
theorem run_answers_iff_rejecting :
    (run rejecting false { method := .get, target := "/ws".toList } ⟨{}, ()⟩).1 = .threw ∧
      ∃ written, (run rejecting true { method := .get, target := "/ws".toList, version := 10 }
          ⟨{}, ()⟩).1 = .refused written ∧ Final plainBeast 10 written ∧ written.status = 503 :=
  ⟨((run_answers_iff plainBeast_lawful rejecting false _ _).2.1).2 ⟨rfl, Or.inl rfl⟩,
    _, rfl, (run_answers_iff plainBeast_lawful rejecting true
      { method := .get, target := "/ws".toList, version := 10 } ⟨{}, ()⟩).2.2 _ rfl⟩

end CppGate.WebSocketSession
