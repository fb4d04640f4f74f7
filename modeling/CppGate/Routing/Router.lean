import CppGate.Proxies.TrustedProxies
import Mathlib.Tactic.Simps.Basic

/-!
# Dispatching a request

`Router.cpp`, from a request to the user functions that answer it: route() for HTTP requests and
upgrade() for WebSocket handshakes.

A user function is any function of what it can see and change: the request's mutable part, the
response, and a world `ω` that stands for everything else. It returns or throws, and what it changed
before it threw stays changed. The routes' patterns are matched by RE2 and request targets are
parsed by Boost.URL; both are parameters (`Env`).
-/

namespace CppGate.Routing

open Http

universe u

/-! ### Path parameters -/

/-- `inline_capacity`. -/
def inlineCapacity : ℕ := 8

/-- `RouteParams`: the first parameters in an array, the others in a vector. -/
structure RouteParams where
  items : Vector (Text × Text) inlineCapacity := Vector.replicate inlineCapacity ([], [])
  count : ℕ := 0
  overflow : List (Text × Text) := []
  count_le : count ≤ inlineCapacity := by decide

namespace RouteParams

/-- No parameters. -/
def empty : RouteParams := {}

/-- `add`. -/
def add (params : RouteParams) (key value : Text) : RouteParams :=
  if h : params.count < inlineCapacity then
    { params with
      items := params.items.set params.count (key, value) h
      count := params.count + 1
      count_le := h }
  else
    { params with overflow := params.overflow ++ [(key, value)] }

/-- The parameters, in the order forEach() visits them. -/
def toList (params : RouteParams) : List (Text × Text) :=
  params.items.toList.take params.count ++ params.overflow

/-- `get`: the value of the first parameter of that name. -/
def get (params : RouteParams) (key : Text) : Text :=
  match (params.items.toList.take params.count).find? fun param ↦ param.1 == key with
  | some param => param.2
  | none =>
    match params.overflow.find? fun param ↦ param.1 == key with
    | some param => param.2
    | none => []

/-- `size`. -/
def size (params : RouteParams) : ℕ :=
  params.count + params.overflow.length

/-- `reset`. -/
def reset (params : RouteParams) : RouteParams :=
  { params with count := 0, overflow := [], count_le := Nat.zero_le _ }

end RouteParams

/-! ### User functions -/

/-- What a handler of an HTTP request can change. -/
structure Exchange (ω : Type u) where
  ip : Text := []
  peerIP : Text := []
  params : Option RouteParams := none
  response : HttpResponse := {}
  world : ω

/-- `HttpHandler`. -/
abbrev HttpHandler (ω : Type u) : Type u :=
  Request → Exchange ω → Outcome × Exchange ω

/-- `WebSocketContext`, before the handshake. -/
structure WebSocketContext where
  ip : Text := []
  peerIP : Text := []
  params : List (Text × Text) := []
  /-- `reject_status_`, 0 for `status::unknown`. -/
  rejectStatus : ℕ := 0
  rejectBody : Text := []
  /-- `route_index_`. -/
  routeIndex : Option ℕ := none
  deriving DecidableEq, Repr

/-- What a WebSocket middleware can change. -/
structure Upgrade (ω : Type u) where
  ws : WebSocketContext
  world : ω

/-- What a WebSocket function answers. -/
inductive Verdict
  | accepts
  | refuses
  | throws
  deriving DecidableEq, Repr

/-- `WebSocketHandler`. -/
abbrev WebSocketHandler (ω : Type u) : Type u :=
  Request → Upgrade ω → Verdict × Upgrade ω

/-- `Handler`. -/
inductive Handler (ω : Type u) : Type u
  | http (handler : HttpHandler ω)
  | webSocket (handler : WebSocketHandler ω)

variable {ω : Type u}

/-- `std::get<HttpHandler>(handler)(request, response)`, which throws for the other kind. -/
def Handler.invoke : Handler ω → HttpHandler ω
  | .http handler => handler
  | .webSocket _ => fun _ x ↦ (.threw, x)

/-! ### The router -/

/-- The functions of libraries that the router calls. -/
structure Env where
  asio : Proxies.Asio
  beast : Beast
  /-- RE2: the captures of a pattern that matches a whole text. -/
  fullMatch : Text → Text → Option (List Text)
  /-- Boost.URL: the decoded path of a request target, if it is a valid URI reference. -/
  path : Text → Option Text

/-- `Router::Route`. -/
structure Route (ω : Type u) : Type u where
  handler : Handler ω
  /-- The regular expression built from `path`. -/
  pattern : Text
  path : Text
  paramNames : List Text
  methods : List Verb
  preMiddlewares : List (Handler ω)
  postMiddlewares : List (Handler ω)

section

variable (env : Env)

/-- The default handler for unknown paths. -/
def handlerNotFound : HttpHandler ω := fun _ x ↦
  let (outcome, response) := x.response.sendNotFound env.beast "Handler not found".toList
  (outcome, { x with response })

/-- The default handler for known paths with another method. -/
def handlerMethodNotAllowed : HttpHandler ω := fun _ x ↦
  let (outcome, response) := x.response.send env.beast 405 "Method Not Allowed".toList
  (outcome, { x with response })

/-- The handler for errors, which cannot be replaced. -/
def internalServerError : HttpHandler ω := fun _ x ↦
  let (outcome, response) := x.response.send env.beast 500 "Internal Server Error".toList
  (outcome, { x with response })

end

/-- `Router`. -/
structure Router (env : Env) (ω : Type u) : Type u where
  routes : List (Route ω) := []
  globalMiddlewares : List (HttpHandler ω) := []
  notFoundHandler : Handler ω := .http (handlerNotFound env)
  methodNotAllowedHandler : Handler ω := .http (handlerMethodNotAllowed env)
  trustedProxies : Proxies.TrustedProxies := {}

variable {env}

/-! ### Routes -/

/-- `isWebSocket`. -/
def Route.isWebSocket (route : Route ω) : Bool :=
  match route.handler with
  | .http _ => false
  | .webSocket _ => true

/-- `methodMatch`. -/
def Route.methodMatch (route : Route ω) (method : Verb) : Bool :=
  route.methods.contains method

/-- `pathMatch`: on a match the parameters are the captures, under the placeholders' names. -/
def Route.pathMatch (env : Env) (route : Route ω) (input : Text) (params : RouteParams) :
    Bool × RouteParams :=
  match env.fullMatch route.pattern input with
  | some captures =>
    (true, route.paramNames.zipIdx.foldl
      (fun params name ↦ params.add name.1 (captures.getD name.2 [])) params.reset)
  | none => (false, params.reset)

/-- The loop over a route's middlewares: those of its own kind, until one responds. -/
def runMiddlewares (req : Request) : List (Handler ω) → Exchange ω → Outcome × Exchange ω
  | [], x => (.returned, x)
  | .webSocket _ :: rest, x => runMiddlewares req rest x
  | .http middleware :: rest, x =>
    match middleware req x with
    | (.threw, y) => (.threw, y)
    | (.returned, y) =>
      if y.response.hasResponse then (.returned, y) else runMiddlewares req rest y

/-- `Route::operator()`. -/
def Route.call (route : Route ω) (req : Request) (x : Exchange ω) : Outcome × Exchange ω :=
  match runMiddlewares req route.preMiddlewares x with
  | (.threw, y) => (.threw, y)
  | (.returned, y) =>
    if y.response.hasResponse then
      (.returned, y)
    else
      match route.handler.invoke req y with
      | (.threw, z) => (.threw, z)
      | (.returned, z) =>
        if z.response.hasResponse then
          (.returned, z)
        else
          runMiddlewares req route.postMiddlewares z

/-- `Route::upgrade`: the pre-middlewares of a WebSocket route, until one refuses. -/
def runUpgrade (req : Request) : List (Handler ω) → Upgrade ω → Verdict × Upgrade ω
  | [], up => (.accepts, up)
  | .http _ :: rest, up => runUpgrade req rest up
  | .webSocket middleware :: rest, up =>
    match middleware req up with
    | (.accepts, up') => runUpgrade req rest up'
    | refused => refused

/-! ### HTTP requests -/

/-- How the loop over the global middlewares ends. -/
inductive Chain
  | passed
  | answered
  | threw
  deriving DecidableEq, Repr

/-- The loop over the global middlewares. -/
def runGlobals (req : Request) : List (HttpHandler ω) → Exchange ω → Chain × Exchange ω
  | [], x => (.passed, x)
  | middleware :: rest, x =>
    match middleware req x with
    | (.threw, y) => (.threw, y)
    | (.returned, y) => if y.response.hasResponse then (.answered, y) else runGlobals req rest y

/-- What the loop over the routes finds for an HTTP request. -/
inductive Found (ω : Type u) : Type u
  | route (route : Route ω)
  | methodNotAllowed
  | notFound

/-- The loop over the routes: the first one whose path and method match. -/
def findRoute (env : Env) (method : Verb) (path : Text) :
    List (Route ω) → Bool → RouteParams → Found ω × RouteParams
  | [], pathMatched, params => (if pathMatched then .methodNotAllowed else .notFound, params)
  | route :: rest, pathMatched, params =>
    if route.isWebSocket then
      findRoute env method path rest pathMatched params
    else
      match route.pathMatch env path params with
      | (false, params) => findRoute env method path rest pathMatched params
      | (true, params) =>
        if route.methodMatch method then
          (.route route, params)
        else
          findRoute env method path rest true params

/-- A route that throws or stays silent produces 500. -/
def respond (env : Env) (route : Route ω) (req : Request) (x : Exchange ω) :
    Outcome × Exchange ω :=
  match route.call req x with
  | (.threw, y) => internalServerError env req y
  | (.returned, y) =>
    if y.response.hasResponse then (.returned, y) else internalServerError env req y

/-- The parameters die with the call of route(). -/
def leave : Outcome × Exchange ω → Outcome × Exchange ω
  | (.returned, x) => (.returned, { x with params := none })
  | (.threw, x) => (.threw, x)

/-- `Router::route`. -/
def Router.route (r : Router env ω) (req : Request) (x : Exchange ω) : Outcome × Exchange ω :=
  let x := { x with ip := Proxies.resolve env.asio r.trustedProxies x.peerIP req.fields }
  match runGlobals req r.globalMiddlewares x with
  | (.threw, x) => internalServerError env req x
  | (.answered, x) => (.returned, x)
  | (.passed, x) =>
    match env.path req.target with
    | none => internalServerError env req x
    | some path =>
      match findRoute env req.method path r.routes false .empty with
      | (.route route, params) => leave (respond env route req { x with params := some params })
      | (.methodNotAllowed, params) =>
        leave (r.methodNotAllowedHandler.invoke req { x with params := some params })
      | (.notFound, params) => leave (r.notFoundHandler.invoke req { x with params := some params })

/-! ### WebSocket handshakes -/

/-- The loop over the routes for a WebSocket handshake, from index `i` on. -/
def findWebSocket (env : Env) (path : Text) :
    List (Route ω) → ℕ → RouteParams → Option (ℕ × Route ω × RouteParams)
  | [], _, _ => none
  | route :: rest, i, params =>
    if route.isWebSocket then
      match route.pathMatch env path params with
      | (true, params) => some (i, route, params)
      | (false, params) => findWebSocket env path rest (i + 1) params
    else
      findWebSocket env path rest (i + 1) params

/-- The result of upgrade(): what it returned, the connection, and the response if it refused. -/
structure Upgraded (ω : Type u) where
  verdict : Verdict
  up : Upgrade ω
  response : HttpResponse

/-- Refuse a handshake with a handler's response. -/
def refuseWith (up : Upgrade ω) : Outcome × Exchange ω → Upgraded ω
  | (.returned, x) => ⟨.refuses, { up with world := x.world }, x.response⟩
  | (.threw, x) => ⟨.throws, { up with world := x.world }, x.response⟩

/-- The request that handlers see during a handshake. -/
def exchange (up : Upgrade ω) (response : HttpResponse) : Exchange ω :=
  { ip := up.ws.ip, peerIP := up.ws.peerIP, response, world := up.world }

/-- Refuse a handshake as its pre-middleware asked for. -/
def reject (env : Env) (up : Upgrade ω) (response : HttpResponse) : Upgraded ω :=
  let (outcome, response) :=
    if up.ws.rejectStatus = 0 then
      response.send env.beast 403 "Forbidden".toList
    else
      response.send env.beast up.ws.rejectStatus up.ws.rejectBody
  refuseWith up (outcome, exchange up response)

/-- `Router::upgrade`. -/
def Router.upgrade (r : Router env ω) (req : Request) (up : Upgrade ω) (response : HttpResponse) :
    Upgraded ω :=
  let ip := Proxies.resolve env.asio r.trustedProxies up.ws.peerIP req.fields
  let up := { up with ws.ip := ip }
  match env.path req.target with
  | none => refuseWith up (internalServerError env req (exchange up response))
  | some path =>
    match findWebSocket env path r.routes 0 .empty with
    | none => refuseWith up (r.notFoundHandler.invoke req (exchange up response))
    | some (i, route, params) =>
      -- the connection outlives the request, so it keeps its own copy of the parameters
      let up := { up with ws.params := params.toList }
      match runUpgrade req route.preMiddlewares up with
      | (.throws, up) =>
        refuseWith up (internalServerError env req (exchange up response))
      | (.refuses, up) => reject env up response
      | (.accepts, up) => ⟨.accepts, { up with ws.routeIndex := some i }, response⟩

end CppGate.Routing
