import CppGate.Routing.Router

/-!
# Every request gets an answer

A handler that throws or stays silent is to produce 500, so route() returns with a response whatever
the user functions do, and upgrade() returns with a response when it refuses. The middlewares and
the handlers of routes are caught, and have the 500 handler behind them. Three calls are not: the
405 and 404 handlers (in route() and upgrade()), and the response that a WebSocket pre-middleware
asks for with reject().

`answered_iff` says of every router, request and user function exactly when there is an answer.
-/

namespace CppGate.Routing

open Http

universe u

variable {env : Env} {ω : Type u}

/-- A call returned, and left a response. -/
def Answers (result : Outcome × Exchange ω) : Prop :=
  result.1 = .returned ∧ result.2.response.hasResponse = true

/-- A handshake was accepted, or refused with a response. -/
def AnswersUpgrade (result : Upgraded ω) : Prop :=
  result.verdict ≠ .throws ∧ (result.verdict = .refuses → result.response.hasResponse = true)

/-! ### What always answers -/

/-- Sending a response is an answer, unless its status is 0 or forbids the body. -/
theorem answers_send_iff (x : Exchange ω) (res : HttpResponse) (status : ℕ) (content : Text) :
    Answers ((res.send env.beast status content).1,
        { x with response := (res.send env.beast status content).2 }) ↔
      ¬(bodyless status = true ∧ content ≠ []) ∧ status ≠ 0 := by
  have hresponse : (res.send env.beast status content).2.hasResponse = true ↔ status ≠ 0 := by
    rw [HttpResponse.hasResponse, HttpResponse.send_status, bne_iff_ne]
  exact and_congr (HttpResponse.send_fst res status content) hresponse

theorem answers_internalServerError (req : Request) (x : Exchange ω) :
    Answers (internalServerError env req x) :=
  (answers_send_iff x x.response 500 "Internal Server Error".toList).2 (by decide)

/-- The default 404 handler answers. -/
theorem answers_handlerNotFound (req : Request) (x : Exchange ω) :
    Answers (handlerNotFound env req x) :=
  (answers_send_iff x x.response 404 "Handler not found".toList).2 (by decide)

theorem answers_handlerMethodNotAllowed (req : Request) (x : Exchange ω) :
    Answers (handlerMethodNotAllowed env req x) :=
  (answers_send_iff x x.response 405 "Method Not Allowed".toList).2 (by decide)

@[simp] theorem answers_leave {result : Outcome × Exchange ω} :
    Answers (leave result) ↔ Answers result := by
  rcases result with ⟨outcome, x⟩
  cases outcome <;> rfl

/-- A matched route always answers. -/
theorem answers_respond (route : Route ω) (req : Request) (x : Exchange ω) :
    Answers (respond env route req x) := by
  unfold respond
  split
  · exact answers_internalServerError req _
  · split
    · next h => exact ⟨rfl, h⟩
    · exact answers_internalServerError req _

/-- Global middlewares that end the request with a response have left one. -/
theorem hasResponse_of_runGlobals {req : Request} {middlewares : List (HttpHandler ω)}
    {x y : Exchange ω} (h : runGlobals req middlewares x = (.answered, y)) :
    y.response.hasResponse = true := by
  induction middlewares generalizing x with
  | nil => simp [runGlobals] at h
  | cons middleware rest ih =>
    rw [runGlobals] at h
    split at h
    · simp at h
    · split at h
      · next hresponse =>
        obtain ⟨-, rfl⟩ := Prod.mk.inj h
        exact hresponse
      · exact ih h

/-! ### Requests -/

/-- The 405 or 404 handler, and the exchange it is called with, for a request that no middleware and
no route answers. -/
def unanswered (r : Router env ω) (req : Request) (x : Exchange ω) :
    Option (Handler ω × Exchange ω) :=
  let ip := Proxies.resolve env.asio r.trustedProxies x.peerIP req.fields
  match runGlobals req r.globalMiddlewares { x with ip }, env.path req.target with
  | (.passed, x), some path =>
    match findRoute env req.method path r.routes false .empty with
    | (.route _, _) => none
    | (.methodNotAllowed, params) => some (r.methodNotAllowedHandler, { x with params })
    | (.notFound, params) => some (r.notFoundHandler, { x with params })
  | _, _ => none

/-- **Requests**: route() answers unless it gets to a 405 or 404 handler that does not. -/
theorem answers_route_iff (r : Router env ω) (req : Request) (x : Exchange ω) :
    Answers (r.route req x) ↔
      ∀ call ∈ unanswered r req x, Answers (call.1.invoke req call.2) := by
  unfold Router.route unanswered
  dsimp only
  generalize hglobals : runGlobals req r.globalMiddlewares _ = globals
  rcases globals with ⟨chain, y⟩
  cases chain with
  | threw => simp [answers_internalServerError]
  | answered => simp [Answers, hasResponse_of_runGlobals hglobals]
  | passed =>
    cases env.path req.target with
    | none => simp [answers_internalServerError]
    | some path =>
      dsimp only
      generalize findRoute env req.method path r.routes false .empty = found
      rcases found with ⟨found, params⟩
      cases found with
      | route route => simp [answers_respond]
      | methodNotAllowed => simp
      | notFound => simp

/-! ### Handshakes -/

/-- Refusing with a handler's response answers if the handler does. -/
@[simp] theorem answersUpgrade_refuseWith {up : Upgrade ω} {result : Outcome × Exchange ω} :
    AnswersUpgrade (refuseWith up result) ↔ Answers result := by
  rcases result with ⟨outcome, x⟩
  cases outcome with
  | returned => simp [AnswersUpgrade, Answers, refuseWith]
  | threw => simp [AnswersUpgrade, Answers, refuseWith]

/-- A handshake refused by a pre-middleware is answered if the status that reject() asked for may
have its body. -/
theorem answersUpgrade_reject_iff (up : Upgrade ω) (response : HttpResponse) :
    AnswersUpgrade (reject env up response) ↔
      ¬(bodyless up.ws.rejectStatus = true ∧ up.ws.rejectBody ≠ []) := by
  unfold reject
  rw [answersUpgrade_refuseWith]
  split
  · next hzero =>
    have hbody : bodyless up.ws.rejectStatus = false := by rw [hzero]; decide
    refine iff_of_true ((answers_send_iff (exchange up response) response 403 _).2 ?_) ?_
    · decide
    · exact fun h ↦ absurd (hbody.symm.trans h.1) Bool.false_ne_true
  · next hne =>
    exact (answers_send_iff (exchange up response) response _ _).trans (and_iff_left hne)

/-- What goes unanswered in a handshake: a pre-middleware refused it, which leaves the connection,
or no route matched, which leaves the call of the 404 handler. -/
inductive Refusal (ω : Type u)
  | rejected (ws : WebSocketContext)
  | unmatched (x : Exchange ω)

/-- Where upgrade() refuses a handshake with something other than the 500 handler. -/
def refusal (r : Router env ω) (req : Request) (up : Upgrade ω) (response : HttpResponse) :
    Option (Refusal ω) :=
  let ip := Proxies.resolve env.asio r.trustedProxies up.ws.peerIP req.fields
  let up := { up with ws.ip := ip }
  (env.path req.target).bind fun path ↦
    match findWebSocket env path r.routes 0 .empty with
    | none => some (.unmatched (exchange up response))
    | some (_, route, params) =>
      match runUpgrade req route.preMiddlewares { up with ws.params := params.toList } with
      | (.refuses, up) => some (.rejected up.ws)
      | _ => none

/-- Whether a refusal gets its response: the status that reject() asked for may have its body, or
the 404 handler answers. -/
def Refusal.Answered (r : Router env ω) (req : Request) : Refusal ω → Prop
  | .rejected ws => ¬(bodyless ws.rejectStatus = true ∧ ws.rejectBody ≠ [])
  | .unmatched x => Answers (r.notFoundHandler.invoke req x)

/-- **Handshakes**: upgrade() answers unless a pre-middleware's reject() or the 404 handler does
not. -/
theorem answersUpgrade_iff (r : Router env ω) (req : Request) (up : Upgrade ω)
    (response : HttpResponse) :
    AnswersUpgrade (r.upgrade req up response) ↔
      ∀ refused ∈ refusal r req up response, refused.Answered r req := by
  unfold Router.upgrade refusal
  dsimp only
  cases env.path req.target with
  | none => simp [answers_internalServerError]
  | some path =>
    dsimp only [Option.bind_some]
    cases findWebSocket env path r.routes 0 .empty with
    | none => simp [Refusal.Answered]
    | some found =>
      rcases found with ⟨i, route, params⟩
      dsimp only
      generalize runUpgrade req route.preMiddlewares _ = result
      rcases result with ⟨verdict, up'⟩
      cases verdict with
      | accepts => simp [AnswersUpgrade]
      | refuses => simp [answersUpgrade_reject_iff, Refusal.Answered]
      | throws => simp [answers_internalServerError]

/-! ### The guarantee, and where it ends -/

/-- With the default handlers every request is answered. -/
theorem answers_route_of_default (r : Router env ω)
    (hnotFound : r.notFoundHandler = .http (handlerNotFound env))
    (hnotAllowed : r.methodNotAllowedHandler = .http (handlerMethodNotAllowed env)) (req : Request)
    (x : Exchange ω) : Answers (r.route req x) := by
  refine (answers_route_iff r req x).2 fun call hcall ↦ ?_
  have hhandler : call.1 = r.methodNotAllowedHandler ∨ call.1 = r.notFoundHandler := by
    unfold unanswered at hcall
    dsimp only at hcall
    split at hcall
    · split at hcall
      · exact absurd hcall (Option.not_mem_none _)
      · exact Or.inl (congrArg Prod.fst (Option.some.inj hcall)).symm
      · exact Or.inr (congrArg Prod.fst (Option.some.inj hcall)).symm
    · exact absurd hcall (Option.not_mem_none _)
  rcases hhandler with h | h
  · rw [h, hnotAllowed]
    exact answers_handlerMethodNotAllowed req _
  · rw [h, hnotFound]
    exact answers_handlerNotFound req _

/-- **Every request and every handshake**: exactly when there is an answer. -/
theorem answered_iff (r : Router env ω) (req : Request) :
    (∀ x, Answers (r.route req x) ↔
      ∀ call ∈ unanswered r req x, Answers (call.1.invoke req call.2)) ∧
    (∀ up response, AnswersUpgrade (r.upgrade req up response) ↔
      ∀ refused ∈ refusal r req up response, refused.Answered r req) :=
  ⟨answers_route_iff r req, answersUpgrade_iff r req⟩

/-- Libraries that know plain paths, for runs on fixed inputs. -/
def plainPaths : Env where
  asio := ⟨fun _ ↦ none, fun _ ↦ [], id, id⟩
  beast := plainBeast
  fullMatch pattern input := if pattern = input then some [] else none
  path target := some target

/-- A router whose 404 handler returns without a response. -/
def silentNotFound : Router plainPaths Unit where
  notFoundHandler := .http fun _ x ↦ (.returned, x)

/-- A WebSocket route whose pre-middleware calls reject(204, "bye") and returns false. -/
def rejecting : Router plainPaths Unit where
  routes := [
    { handler := .webSocket fun _ up ↦ (.accepts, up)
      pattern := "/ws".toList
      path := "/ws".toList
      paramNames := []
      methods := []
      preMiddlewares := [.webSocket fun _ up ↦
        (.refuses, { up with ws.rejectStatus := 204, ws.rejectBody := "bye".toList })]
      postMiddlewares := [] }]

theorem not_always_answered :
    ¬((∀ (r : Router plainPaths Unit) (req : Request), Answers (r.route req { world := () })) ∧
      ∀ (r : Router plainPaths Unit) (req : Request),
        AnswersUpgrade (r.upgrade req ⟨{}, ()⟩ {})) ∧
    ¬AnswersUpgrade (rejecting.upgrade { method := .get, target := "/ws".toList } ⟨{}, ()⟩ {}) := by
  refine ⟨fun h ↦ ?_, fun h ↦ h.1 rfl⟩
  have hsilent := h.1 silentNotFound { method := .get, target := "/missing".toList }
  exact absurd hsilent.2 (by decide)

end CppGate.Routing
