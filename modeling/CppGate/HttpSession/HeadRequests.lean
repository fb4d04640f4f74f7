import CppGate.Foundations.Framing
import CppGate.HttpSession.Discipline
import CppGate.Routing.Dispatch

/-!
# Responses to HEAD

A response to HEAD ends with its header, whatever `Content-Length` says. A session writes every
response as the router left it, and the router does not look at the method: the body follows the
header unless it is empty. So the octets for HEAD requests are right exactly where a function
answers them with an empty body, and then a client that knows what it asked for reads one response
for each request (`heads_without_body`).
-/

namespace CppGate.HttpSession

open Http Routing Framing

universe u

/-! ### The octets of a response -/

/-- How Beast writes a response: the header with the empty line after it, and what follows. -/
structure Serializer where
  header : HttpResponse → Text
  body : HttpResponse → Text
  /-- `chunked()`. -/
  chunked : List Field → Bool

/-- What is assumed of it. Only a chunked body is not written as it is, and a message is chunked
only if somebody says so, which `prepare_payload` revokes. -/
structure Serializer.Lawful (serializer : Serializer) (beast : Beast) : Prop where
  body_eq : ∀ res, serializer.chunked res.fields = false → serializer.body res = res.body
  chunked_nil : serializer.chunked [] = false
  chunked_contentLength : ∀ fields length,
    serializer.chunked (beast.contentLength fields length) = false
  chunked_setKeepAlive : ∀ version fields keepAlive,
    serializer.chunked (beast.setKeepAlive version fields keepAlive) = serializer.chunked fields

/-- A request and its response. -/
abbrev Pair : Type := Request × HttpResponse

/-- The request is a HEAD request. -/
def Pair.isHead (pair : Pair) : Bool :=
  pair.1.method == .head

/-- The octets that the session writes. -/
def Serializer.octets (serializer : Serializer) (pair : Pair) : Text :=
  serializer.header pair.2 ++ serializer.body pair.2

/-- The octets that the client expects. -/
def Serializer.expected (serializer : Serializer) (pair : Pair) : Text :=
  if pair.isHead then serializer.header pair.2 else serializer.octets pair

/-! ### What the client is promised -/

/-- The requests that route() has answered. -/
def requests (history : List Event) : List Request :=
  history.filterMap fun
    | .request request (.returned, _) _ => some request
    | _ => none

/-- The requests, each with the response that is written for it. -/
def pairs (x : Session × List Event) : List Pair :=
  (requests x.2).zip (writes x.2 ++ x.1.responseQueue)

/-- The octets for each HEAD request end with the header. -/
def HeadsEnd (serializer : Serializer) (x : Session × List Event) : Prop :=
  ∀ pair ∈ pairs x, pair.isHead = true → serializer.octets pair = serializer.header pair.2

/-- A client that knows the methods of its requests, and can tell the end of every response in the
form it expects, reads exactly one response for each request. -/
def Recovers (serializer : Serializer) (x : Session × List Event) : Prop :=
  ∀ read : Reader Bool Char HttpResponse,
    (∀ pair ∈ pairs x, Delimits read pair.isHead (serializer.expected pair) pair.2) →
      readAll read ((pairs x).map Pair.isHead) ((pairs x).flatMap serializer.octets) =
        some ((pairs x).map Prod.snd)

/-- The response that route() leaves for a HEAD request has no body. -/
def LeavesHeadsEmpty (history : List Event) : Prop :=
  ∀ request response stopping, .request request (.returned, response) stopping ∈ history →
    request.method = .head → response.body = []

/-- The client recovers the responses if the octets for HEAD requests are right. -/
theorem recovers_of_headsEnd {serializer : Serializer} {x : Session × List Event}
    (h : HeadsEnd serializer x) : Recovers serializer x := by
  intro read hread
  refine readAll_flatMap fun pair hpair ↦ ?_
  have hexpected := hread pair hpair
  rw [Serializer.expected] at hexpected
  split at hexpected
  · next hhead => rwa [h pair hpair hhead]
  · exact hexpected

/-! ### Requests and their responses -/

variable {beast : Beast} {cfg : Config}

/-- A request with the response it gets. -/
def Event.pair (beast : Beast) : Event → Option Pair
  | .request asked (.returned, response) stopping =>
    some (asked, if stopping then response.setKeepAlive beast false else response)
  | _ => none

/-- **The responses written are those of the requests**, as long as nothing is read after an
error. -/
theorem pairs_eq {x : Session × List Event} (h : Disciplined cfg x) :
    pairs x = x.2.filterMap (Event.pair cfg.beast) := by
  have hzip : ∀ history : List Event,
      (history.Pairwise fun e later ↦ e.ends = true → later.reads = false) →
      (requests history).zip (history.filterMap (Event.answered cfg.beast)) =
        history.filterMap (Event.pair cfg.beast) := by
    intro history hquiet
    induction history with
    | nil => rfl
    | cons e history ih =>
      obtain ⟨hlater, hquiet⟩ := List.pairwise_cons.1 hquiet
      have hrest := ih hquiet
      cases e with
      | read | write | written => exact hrest
      | request asked routed stopping =>
        rcases routed with ⟨- | -, response⟩
        · exact congrArg (List.cons _) hrest
        · exact hrest
      | refusal status =>
        -- the last thing that is answered
        have hnone : requests history = [] := by
          refine List.filterMap_eq_nil_iff.2 fun later hmem ↦ ?_
          have hreads := hlater later hmem rfl
          cases later with
          | request => exact absurd hreads.symm Bool.false_ne_true
          | read | refusal | write | written => rfl
        rw [hnone, List.zip_nil_left] at hrest
        show (requests history).zip _ = _
        rw [hnone, List.zip_nil_left]
        exact hrest
  rw [pairs, h.answered]
  exact hzip x.2 h.quiet

/-! ### Behind a router -/

section Routes

variable {env : Env} {ω : Type u} {serializer : Serializer}

/-- The function does not ask for a chunked response. -/
def LeavesUnchunked (serializer : Serializer) (f : HttpHandler ω) : Prop :=
  ∀ req x, serializer.chunked x.response.fields = false →
    serializer.chunked (f req x).2.response.fields = false

/-- The send functions ask for no chunks. -/
theorem chunked_send (hserializer : serializer.Lawful beast) {res : HttpResponse}
    (hres : serializer.chunked res.fields = false) (status : ℕ) (content : Text) :
    serializer.chunked (res.send beast status content).2.fields = false := by
  rw [HttpResponse.send, HttpResponse.preparePayload]
  split
  · exact hres
  · exact hserializer.chunked_contentLength _ _

/-- A response from a router whose functions ask for no chunks is not chunked. -/
theorem chunked_routed (hserializer : serializer.Lawful env.beast) {r : Router env ω}
    (hr : r.AllHttp (LeavesUnchunked serializer)) (request : Request) {x : Exchange ω}
    (hx : x.response = {}) : serializer.chunked (routed r request x).2.fields = false := by
  let P : Exchange ω → Prop := fun y ↦ serializer.chunked y.response.fields = false
  have herror : Keeps P (internalServerError (ω := ω) env) := fun req y hy ↦
    chunked_send hserializer hy 500 _
  have hfresh : serializer.chunked x.response.fields = false := by
    rw [hx]
    exact hserializer.chunked_nil
  exact route_keeps request hr herror (fun _ _ hy ↦ hy)
    (runGlobals_keeps request hr.globals hfresh)

/-- The pairs of a run are its requests with what route() has left for them. -/
theorem mem_pairs {x : Session × List Event} (h : Disciplined cfg x) {pair : Pair} :
    pair ∈ pairs x ↔ ∃ request response stopping,
      .request request (.returned, response) stopping ∈ x.2 ∧
        pair = (request, if stopping then response.setKeepAlive cfg.beast false else response) := by
  rw [pairs_eq h, List.mem_filterMap]
  constructor
  · rintro ⟨e, he, hpair⟩
    cases e with
    | request asked routed stopping =>
      rcases routed with ⟨- | -, response⟩
      · exact ⟨asked, response, stopping, he, (Option.some.inj hpair).symm⟩
      · cases hpair
    | read | refusal | write | written => cases hpair
  · rintro ⟨request, response, stopping, he, rfl⟩
    exact ⟨_, he, rfl⟩

/-- What follows the header is the body that route() left. -/
theorem body_pair (hcfg : cfg.beast = env.beast) (hserializer : serializer.Lawful env.beast)
    {r : Router env ω} (hr : r.AllHttp (LeavesUnchunked serializer)) {x : Session × List Event}
    (h : (machineWithLog cfg).ReachableVia (RoutedBy r) x) {request : Request}
    {response : HttpResponse} {stopping : Bool}
    (hmem : .request request (.returned, response) stopping ∈ x.2) :
    serializer.body (if stopping then response.setKeepAlive cfg.beast false else response) =
      response.body := by
  obtain ⟨y, hy, hrouted⟩ := request_routed h hmem
  have hchunked : serializer.chunked response.fields = false := by
    have hfields := chunked_routed hserializer hr request hy
    rwa [← hrouted] at hfields
  cases stopping with
  | false => exact hserializer.body_eq response hchunked
  | true =>
    refine (hserializer.body_eq (response.setKeepAlive cfg.beast false) ?_).trans rfl
    rw [hcfg]
    exact (hserializer.chunked_setKeepAlive _ _ _).trans hchunked

/-- **Responses to HEAD.** Behind a router whose functions do not ask for chunked responses, the
octets for HEAD requests end with the header, and so the client recovers one response for each
request, exactly if route() leaves an empty body for all of them. The router's own answers always
have a body. -/
theorem heads_without_body (hcfg : cfg.beast = env.beast) (hbeast : env.beast.Lawful)
    (hserializer : serializer.Lawful env.beast) {r : Router env ω}
    (hr : r.AllHttp (LeavesUnchunked serializer)) {x : Session × List Event}
    (h : (machineWithLog cfg).ReachableVia (RoutedBy r) x) :
    (HeadsEnd serializer x ∧ Recovers serializer x ↔ LeavesHeadsEmpty x.2) ∧
      ∀ answer ∈ [handlerNotFound env, handlerMethodNotAllowed env, internalServerError env],
        ∀ request (y : Exchange ω), (answer request y).2.response.body ≠ [] := by
  have hdisciplined : Disciplined cfg x := disciplined (hcfg ▸ hbeast) h.reachable
  refine ⟨?_, ?_⟩
  · constructor
    · rintro ⟨hends, -⟩ request response stopping hmem hhead
      have hpair := hends _ ((mem_pairs hdisciplined).2 ⟨request, response, stopping, hmem, rfl⟩)
        (beq_iff_eq.2 hhead)
      rw [Serializer.octets, List.append_right_eq_self] at hpair
      exact (body_pair hcfg hserializer hr h hmem).symm.trans hpair
    · intro hempty
      have hends : HeadsEnd serializer x := by
        intro pair hpair hhead
        obtain ⟨request, response, stopping, hmem, rfl⟩ := (mem_pairs hdisciplined).1 hpair
        have hbody := hempty request response stopping hmem (beq_iff_eq.1 hhead)
        rw [Serializer.octets, List.append_right_eq_self]
        exact (body_pair hcfg hserializer hr h hmem).trans hbody
      exact ⟨hends, recovers_of_headsEnd hends⟩
  · have hsent : ∀ (res : HttpResponse) status {content : Text}, content ≠ [] →
        (res.send env.beast status content).2.body ≠ [] := fun res status content hcontent ↦ by
      rwa [HttpResponse.send_body]
    intro answer hanswer request y
    simp only [List.mem_cons, List.not_mem_nil, or_false] at hanswer
    rcases hanswer with rfl | rfl | rfl
    · exact hsent y.response 404 (by decide)
    · exact hsent y.response 405 (by decide)
    · exact hsent y.response 500 (by decide)

end Routes

/-- Responses that are never chunked, for runs on fixed inputs. -/
def plainSerializer : Serializer where
  header res :=
    "HTTP/1.1 ".toList ++ Nat.toDigits 10 res.status ++ "\r\n".toList ++
      (res.fields.flatMap fun field ↦
        field.name ++ ": ".toList ++ field.value ++ "\r\n".toList) ++ "\r\n".toList
  body res := res.body
  chunked _ := false

theorem plainSerializer_lawful : plainSerializer.Lawful plainBeast :=
  ⟨fun _ _ ↦ rfl, rfl, fun _ _ ↦ rfl, fun _ _ _ ↦ rfl⟩

/-- A router whose 404 handler sends no content. -/
def emptyNotFound : Router plainPaths Unit where
  notFoundHandler := .http fun _ x ↦ (.returned, { x with response := x.response.sendNoContent })

theorem unchunked_plain (r : Router plainPaths Unit) :
    r.AllHttp (LeavesUnchunked plainSerializer) := by
  have hall : ∀ f : HttpHandler Unit, LeavesUnchunked plainSerializer f := fun _ _ _ _ ↦ rfl
  have hsatisfies : ∀ f : Handler Unit, f.Satisfies (LeavesUnchunked plainSerializer) := by
    rintro (f | f)
    · exact hall f
    · trivial
  exact ⟨fun f _ ↦ hall f, fun _ _ ↦ hsatisfies _, fun _ _ f _ ↦ hsatisfies f,
    fun _ _ f _ ↦ hsatisfies f, hsatisfies _, hsatisfies _⟩

theorem readsOne_reachable (r : Router plainPaths Unit) (request : Request)
    {x : Session × List Event}
    (h : (machineWithLog dual).run ({ stream := .plain }, []) (readsOne r request) = some x) :
    (machineWithLog dual).ReachableVia (RoutedBy r) x := by
  have hinit : (machineWithLog dual).Init ({ stream := .plain }, []) := ⟨rfl, rfl⟩
  refine (Machine.ReachableVia.init hinit).run _ (Machine.everyStep_of_forall ?_ _) h
  exact fun action hmem s _ ↦ readsOne_routedBy r request action hmem s

/-- A request, if it is a HEAD request, is left an empty body. -/
def Event.headEmpty : Event → Bool
  | .request asked (_, response) _ => asked.method != .head || response.body == []
  | _ => true

theorem leavesHeadsEmpty_of_forall {history : List Event}
    (h : ∀ e ∈ history, e.headEmpty = true) : LeavesHeadsEmpty history := by
  intro request response stopping hmem hhead
  have hempty : (request.method != .head || response.body == []) = true := h _ hmem
  rw [hhead] at hempty
  exact beq_iff_eq.1 hempty

theorem heads_without_body_noContent :
    ∃ x, (machineWithLog dual).run ({ stream := .plain }, [])
        (readsOne emptyNotFound (missing .head [])) = some x ∧
      HeadsEnd plainSerializer x ∧ (pairs x).map Pair.isHead = [true] := by
  have hreachable := readsOne_reachable emptyNotFound (missing .head []) rfl
  have hempty := (heads_without_body rfl plainBeast_lawful plainSerializer_lawful
    (unchunked_plain emptyNotFound) hreachable).1.2
  exact ⟨_, rfl, (hempty (leavesHeadsEmpty_of_forall (by decide))).1, rfl⟩

/-- The default 404 handler answers a HEAD request with a body. -/
theorem head_with_body :
    ¬∀ (cfg : Config) (serializer : Serializer) (x : Session × List Event), cfg.beast.Lawful →
      serializer.Lawful cfg.beast →
      (machineWithLog cfg).ReachableVia (RoutedBy ({} : Router plainPaths Unit)) x →
        HeadsEnd serializer x := by
  intro h
  have hreachable := readsOne_reachable {} (missing .head []) rfl
  have hends := h dual plainSerializer _ plainBeast_lawful plainSerializer_lawful hreachable
  have hpair := hends _ (List.mem_singleton_self _) rfl
  exact absurd hpair (by decide)

end CppGate.HttpSession
