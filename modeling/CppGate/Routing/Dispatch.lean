import CppGate.Routing.Answers

/-!
# Which user functions run

The order in which route() calls user functions, read off a router that keeps a record: `traced`
wraps every user function so that it also notes its own name in the world. A traced router does what
the original does (`traced_route`), and its record is the one of a reference interpreter (`calls`)
that knows one rule: call the functions that a request concerns in order, up to the first that
responds or throws.
-/

namespace CppGate.Routing

open Http

universe u

variable {env : Env} {ω : Type u}

/-! ### Names of user functions -/

/-- A user function of a router, by its place: routes and middlewares are numbered in the order of
their registration. -/
inductive Site
  | globalMiddleware (i : ℕ)
  | preMiddleware (route i : ℕ)
  | handler (route : ℕ)
  | postMiddleware (route i : ℕ)
  | methodNotAllowed
  | notFound
  deriving DecidableEq, Repr

/-- Functions with their names. -/
def named {α : Type*} (site : ℕ → Site) (fs : List α) : List (Site × α) :=
  fs.zipIdx.map fun f ↦ (site f.2, f.1)

@[simp] theorem map_snd_named {α : Type*} (site : ℕ → Site) (fs : List α) :
    (named site fs).map Prod.snd = fs := by
  rw [named, List.map_map]
  exact List.zipIdx_map_fst 0 fs

/-! ### The reference interpreter -/

/-- Call functions in order, up to the first that responds or throws: who was called, and where this
leads if all stayed silent. -/
def callUntil (req : Request) :
    List (Site × HttpHandler ω) → Exchange ω → List Site × Option (Exchange ω)
  | [], x => ([], some x)
  | (site, f) :: rest, x =>
    match f req x with
    | (.threw, _) => ([site], none)
    | (.returned, y) =>
      if y.response.hasResponse then
        ([site], none)
      else
        ((site :: (callUntil req rest y).1), (callUntil req rest y).2)

/-- The HTTP functions of a list. -/
def httpOnly (fs : List (Site × Handler ω)) : List (Site × HttpHandler ω) :=
  fs.filterMap fun f ↦
    match f.2 with
    | .http handler => some (f.1, handler)
    | .webSocket _ => none

/-- The functions of a route: pre-middlewares, handler, post-middlewares. -/
def Route.functions (route : Route ω) (n : ℕ) : List (Site × HttpHandler ω) :=
  httpOnly (named (.preMiddleware n) route.preMiddlewares) ++
    (httpOnly [(.handler n, route.handler)] ++
      httpOnly (named (.postMiddleware n) route.postMiddlewares))

/-- The path is the route's. -/
def Route.hasPath (env : Env) (path : Text) (route : Route ω) : Bool :=
  (env.fullMatch route.pattern path).isSome

/-- The HTTP routes, with their numbers. -/
def Router.httpRoutes (r : Router env ω) : List (Route ω × ℕ) :=
  r.routes.zipIdx.filter fun route ↦ !route.1.isWebSocket

/-- The first HTTP route that has both the path and the method. -/
def Router.firstMatch (r : Router env ω) (method : Verb) (path : Text) : Option (Route ω × ℕ) :=
  r.httpRoutes.find? fun route ↦ route.1.hasPath env path && route.1.methodMatch method

/-- The functions that a request concerns after the global middlewares: those of the first match, or
the 405 handler if some HTTP route has the path, or the 404 handler. -/
def Router.functions (r : Router env ω) (method : Verb) (path : Text) :
    List (Site × HttpHandler ω) :=
  match r.firstMatch method path with
  | some (route, n) => route.functions n
  | none =>
    if r.httpRoutes.any fun route ↦ route.1.hasPath env path then
      httpOnly [(.methodNotAllowed, r.methodNotAllowedHandler)]
    else
      httpOnly [(.notFound, r.notFoundHandler)]

/-- The parameters they see: what the HTTP routes tried have left. -/
def Router.params (r : Router env ω) (method : Verb) (path : Text) : RouteParams :=
  (r.httpRoutes.takeWhile (fun route ↦ !(route.1.hasPath env path && route.1.methodMatch method)) ++
    (r.firstMatch method path).toList).foldl
      (fun params route ↦ (route.1.pathMatch env path params).2) .empty

/-- Who is called for a request. -/
def calls (r : Router env ω) (req : Request) (path : Text) (x : Exchange ω) : List Site :=
  let ip := Proxies.resolve env.asio r.trustedProxies x.peerIP req.fields
  match callUntil req (named .globalMiddleware r.globalMiddlewares) { x with ip } with
  | (sites, none) => sites
  | (sites, some y) =>
    sites ++ (callUntil req (r.functions req.method path)
      { y with params := some (r.params req.method path) }).1

/-! ### The router that keeps a record -/

/-- A world with a record. -/
abbrev Recorded (ω : Type u) : Type u := ω × List Site

/-- The exchange with a record. -/
def Exchange.attach (x : Exchange ω) (record : List Site) : Exchange (Recorded ω) :=
  { ip := x.ip, peerIP := x.peerIP, params := x.params, response := x.response,
    world := (x.world, record) }

/-- The exchange without its record. -/
def Exchange.detach (x : Exchange (Recorded ω)) : Exchange ω :=
  { ip := x.ip, peerIP := x.peerIP, params := x.params, response := x.response,
    world := x.world.1 }

/-- A function that notes that it was called. -/
def tracedHttp (site : Site) (f : HttpHandler ω) : HttpHandler (Recorded ω) := fun req x ↦
  let (outcome, y) := f req x.detach
  (outcome, y.attach (x.world.2 ++ [site]))

/-- A WebSocket function that notes that it was called. -/
def tracedWebSocket (site : Site) (f : WebSocketHandler ω) : WebSocketHandler (Recorded ω) :=
  fun req up ↦
    let (verdict, up') := f req { ws := up.ws, world := up.world.1 }
    (verdict, { ws := up'.ws, world := (up'.world, up.world.2 ++ [site]) })

/-- A function of either kind that notes that it was called. -/
def Handler.traced (site : Site) : Handler ω → Handler (Recorded ω)
  | .http f => .http (tracedHttp site f)
  | .webSocket f => .webSocket (tracedWebSocket site f)

/-- Functions that note that they were called. -/
def tracedAll (fs : List (Site × Handler ω)) : List (Handler (Recorded ω)) :=
  fs.map fun f ↦ f.2.traced f.1

/-- Route number `n`, with functions that note that they were called. -/
def Route.traced (route : Route ω) (n : ℕ) : Route (Recorded ω) where
  handler := route.handler.traced (.handler n)
  pattern := route.pattern
  path := route.path
  paramNames := route.paramNames
  methods := route.methods
  preMiddlewares := tracedAll (named (.preMiddleware n) route.preMiddlewares)
  postMiddlewares := tracedAll (named (.postMiddleware n) route.postMiddlewares)

/-- The router with functions that note that they were called. -/
def Router.traced (r : Router env ω) : Router env (Recorded ω) where
  routes := r.routes.zipIdx.map fun route ↦ route.1.traced route.2
  globalMiddlewares := (named .globalMiddleware r.globalMiddlewares).map fun f ↦ tracedHttp f.1 f.2
  notFoundHandler := r.notFoundHandler.traced .notFound
  methodNotAllowedHandler := r.methodNotAllowedHandler.traced .methodNotAllowed
  trustedProxies := r.trustedProxies

/-- A result with a record. -/
def recorded (result : Outcome × Exchange ω) (record : List Site) :
    Outcome × Exchange (Recorded ω) :=
  (result.1, result.2.attach record)

/-! ### Calling functions in order -/

section Calls

variable (req : Request) {x : Exchange ω} (record : List Site)

/-- Functions in a row are called in that order, until one answers. -/
theorem callUntil_append (fs gs : List (Site × HttpHandler ω)) :
    callUntil req (fs ++ gs) x =
      match callUntil req fs x with
      | (sites, none) => (sites, none)
      | (sites, some y) => (sites ++ (callUntil req gs y).1, (callUntil req gs y).2) := by
  induction fs generalizing x with
  | nil => rfl
  | cons f fs ih =>
    rw [List.cons_append, callUntil, callUntil]
    split
    · rfl
    · split
      · rfl
      · next y _ _ =>
        rw [ih]
        rcases callUntil req fs y with ⟨sites, - | z⟩ <;> rfl

variable {req} in
/-- What silent functions leave is silent. -/
theorem silent_of_callUntil {fs : List (Site × HttpHandler ω)} {sites : List Site}
    {y : Exchange ω} (hx : x.response.hasResponse = false)
    (h : callUntil req fs x = (sites, some y)) : y.response.hasResponse = false := by
  induction fs generalizing x sites with
  | nil =>
    obtain ⟨-, h⟩ := Prod.mk.inj h
    exact Option.some.inj h ▸ hx
  | cons f fs ih =>
    rw [callUntil] at h
    split at h
    · cases h
    · split at h
      · cases h
      · next z _ hz =>
        obtain ⟨-, h⟩ := Prod.mk.inj h
        exact ih (Bool.eq_false_iff.2 hz) (Prod.ext rfl h)

/-- A traced function does what the function does, and is recorded. -/
theorem tracedHttp_attach (site : Site) (f : HttpHandler ω) :
    tracedHttp site f req (x.attach record) = recorded (f req x) (record ++ [site]) :=
  rfl

/-- The loop over the global middlewares calls them in order. -/
theorem runGlobals_traced (fs : List (Site × HttpHandler ω)) :
    runGlobals req (fs.map fun f ↦ tracedHttp f.1 f.2) (x.attach record) =
      ((runGlobals req (fs.map Prod.snd) x).1,
        (runGlobals req (fs.map Prod.snd) x).2.attach (record ++ (callUntil req fs x).1)) := by
  induction fs generalizing x record with
  | nil => rw [callUntil, List.append_nil]; rfl
  | cons f fs ih =>
    rw [List.map_cons, List.map_cons, runGlobals, runGlobals, callUntil, tracedHttp_attach]
    rcases f.2 req x with ⟨- | -, y⟩
    · show (if y.response.hasResponse then _ else _) = _
      cases hy : y.response.hasResponse with
      | true => simp [hy]
      | false => simp [hy, ih, List.append_assoc]
    · rfl

/-- Where the global middlewares lead when all are silent. -/
theorem callUntil_globals (fs : List (Site × HttpHandler ω)) :
    (callUntil req fs x).2 =
      match runGlobals req (fs.map Prod.snd) x with
      | (.passed, y) => some y
      | _ => none := by
  induction fs generalizing x with
  | nil => rfl
  | cons f fs ih =>
    rw [List.map_cons, runGlobals, callUntil]
    rcases f.2 req x with ⟨- | -, y⟩
    · cases hy : y.response.hasResponse with
      | true => simp [hy]
      | false => simpa [hy] using ih
    · rfl

/-- The loop over a route's middlewares calls those of its kind in order. -/
theorem runMiddlewares_traced (fs : List (Site × Handler ω)) :
    runMiddlewares req (tracedAll fs) (x.attach record) =
      recorded (runMiddlewares req (fs.map Prod.snd) x)
        (record ++ (callUntil req (httpOnly fs) x).1) := by
  induction fs generalizing x record with
  | nil => rw [httpOnly, List.filterMap_nil, callUntil, List.append_nil]; rfl
  | cons f fs ih =>
    rcases f with ⟨site, f | f⟩
    · have hhttp : httpOnly ((site, .http f) :: fs) = (site, f) :: httpOnly fs := rfl
      have htraced : tracedAll ((site, .http f) :: fs) =
        .http (tracedHttp site f) :: tracedAll fs := rfl
      rw [hhttp, htraced, List.map_cons, runMiddlewares, runMiddlewares, callUntil,
        tracedHttp_attach]
      rcases f req x with ⟨- | -, y⟩
      · show (if y.response.hasResponse then _ else _) = _
        cases hy : y.response.hasResponse with
        | true => simp [hy, recorded]
        | false => simp [hy, ih, recorded, List.append_assoc]
      · rfl
    · exact ih record

/-- Where a route's middlewares lead when all are silent. -/
theorem callUntil_middlewares (fs : List (Site × Handler ω))
    (hx : x.response.hasResponse = false) :
    (callUntil req (httpOnly fs) x).2 =
      match runMiddlewares req (fs.map Prod.snd) x with
      | (.returned, y) => if y.response.hasResponse then none else some y
      | (.threw, _) => none := by
  induction fs generalizing x with
  | nil =>
    show some x = if x.response.hasResponse then none else some x
    rw [hx]
    rfl
  | cons f fs ih =>
    rcases f with ⟨site, f | f⟩
    · have hhttp : httpOnly ((site, .http f) :: fs) = (site, f) :: httpOnly fs := rfl
      rw [hhttp, List.map_cons, runMiddlewares, callUntil]
      rcases f req x with ⟨- | -, y⟩
      · cases hy : y.response.hasResponse with
        | true => simp [hy]
        | false => simpa [hy] using ih hy
      · rfl
    · exact ih hx

/-- A handler that is called by itself. -/
theorem invoke_traced (site : Site) (handler : Handler ω) :
    (handler.traced site).invoke req (x.attach record) =
      recorded (handler.invoke req x)
        (record ++ (callUntil req (httpOnly [(site, handler)]) x).1) := by
  cases handler with
  | http f =>
    have hcalls : (callUntil req [(site, f)] x).1 = [site] := by
      rw [callUntil]
      split
      · rfl
      · split <;> rfl
    show recorded (f req x) (record ++ [site]) = recorded (f req x) (record ++ _)
    rw [show httpOnly [(site, .http f)] = [(site, f)] from rfl, hcalls]
  | webSocket f =>
    show _ = recorded (.threw, x) (record ++ [])
    rw [List.append_nil]
    rfl

end Calls

/-! ### A route -/

/-- A route calls its functions in order. -/
theorem call_traced (route : Route ω) (n : ℕ) (hkind : route.isWebSocket = false) {req : Request}
    {x : Exchange ω} (hx : x.response.hasResponse = false) (record : List Site) :
    (route.traced n).call req (x.attach record) =
      recorded (route.call req x) (record ++ (callUntil req (route.functions n) x).1) := by
  obtain ⟨f, hf⟩ : ∃ f, route.handler = .http f := by
    rw [Route.isWebSocket] at hkind
    split at hkind
    · next f hf => exact ⟨f, hf⟩
    · cases hkind
  -- the pre-middlewares
  have hpre := runMiddlewares_traced req (x := x) record
    (named (.preMiddleware n) route.preMiddlewares)
  have hafter := callUntil_middlewares req
    (named (.preMiddleware n) route.preMiddlewares) hx
  rw [map_snd_named] at hpre hafter
  have hhandler : (route.traced n).handler = .http (tracedHttp (.handler n) f) := by
    show route.handler.traced (.handler n) = _
    rw [hf]
    rfl
  rw [Route.call, Route.call, Route.functions, callUntil_append, hhandler, hf,
    show (route.traced n).preMiddlewares = tracedAll _ from rfl, hpre]
  generalize runMiddlewares req route.preMiddlewares x = pre at hafter ⊢
  generalize callUntil req (httpOnly (named (.preMiddleware n) route.preMiddlewares)) x = made
    at hafter ⊢
  rcases pre with ⟨- | -, y⟩ <;> rcases made with ⟨sites, next⟩ <;> dsimp only at hafter
  · cases hy : y.response.hasResponse with
    | true =>
      obtain rfl : next = none := by rw [hafter, hy]; rfl
      show (if y.response.hasResponse then _ else _) = _
      simp [hy, recorded]
    | false =>
      obtain rfl : next = some y := by rw [hafter, hy]; rfl
      -- the handler
      have hfunctions : httpOnly [(.handler n, .http f)] ++
          httpOnly (named (.postMiddleware n) route.postMiddlewares) =
          (.handler n, f) :: httpOnly (named (.postMiddleware n) route.postMiddlewares) := rfl
      dsimp only
      rw [hfunctions, callUntil]
      show (if y.response.hasResponse then _ else _) = _
      simp only [hy, Bool.false_eq_true, if_false, Handler.invoke, tracedHttp_attach]
      rcases f req y with ⟨- | -, z⟩
      · show (if z.response.hasResponse then _ else _) = _
        cases hz : z.response.hasResponse with
        | true => simp [hz, recorded, List.append_assoc]
        | false =>
          -- the post-middlewares
          have hpost := runMiddlewares_traced req (x := z) (record ++ sites ++ [.handler n])
            (named (.postMiddleware n) route.postMiddlewares)
          rw [map_snd_named] at hpost
          simp only [Bool.false_eq_true, if_false]
          rw [show (route.traced n).postMiddlewares = tracedAll _ from rfl, List.append_assoc,
            ← List.append_assoc record, hpost]
          simp [hz, List.append_assoc]
      · simp [recorded, List.append_assoc]
  · obtain rfl : next = none := hafter
    rfl

/-! ### The loop over the routes -/

/-- Whether a path matches does not depend on what the parameters were before. -/
theorem pathMatch_fst (env : Env) (route : Route ω) (path : Text) (params : RouteParams) :
    (route.pathMatch env path params).1 = route.hasPath env path := by
  rw [Route.pathMatch, Route.hasPath]
  cases env.fullMatch route.pattern path <;> rfl

/-- What was found: the first route that fits, or whether there is one with the path. -/
def Found.of {ρ : Type*} (f : ρ → Route ω) (first : Option ρ) (pathMatched : Bool) : Found ω :=
  match first with
  | some r => .route (f r)
  | none => if pathMatched then .methodNotAllowed else .notFound

/-- The loop finds the first HTTP route with the path and the method, and otherwise whether there is
one with the path. -/
theorem findRoute_eq (env : Env) {ρ : Type*} (f : ρ → Route ω) (method : Verb) (path : Text)
    (l : List ρ) (pathMatched : Bool) (params : RouteParams) :
    findRoute env method path (l.map f) pathMatched params =
      let http := l.filter fun r ↦ !(f r).isWebSocket
      let fits := fun r ↦ (f r).hasPath env path && (f r).methodMatch method
      (.of f (http.find? fits) (pathMatched || http.any fun r ↦ (f r).hasPath env path),
        (http.takeWhile (fun r ↦ !fits r) ++ (http.find? fits).toList).foldl
          (fun params r ↦ ((f r).pathMatch env path params).2) params) := by
  induction l generalizing pathMatched params with
  | nil =>
    show (if pathMatched then _ else _, params) = _
    simp [Found.of]
  | cons r l ih =>
    rw [List.map_cons, findRoute]
    cases hkind : (f r).isWebSocket with
    | true => simpa [hkind] using ih pathMatched params
    | false =>
      have hpath := pathMatch_fst env (f r) path params
      rcases hmatch : (f r).pathMatch env path params with ⟨matched, params'⟩
      rw [hmatch] at hpath
      subst hpath
      cases hmatched : (f r).hasPath env path with
      | false => simp [hkind, hmatched, hmatch, ih]
      | true =>
        cases hmethod : (f r).methodMatch method with
        | true => simp [hkind, hmatched, hmatch, hmethod, Found.of]
        | false => simp [hkind, hmatched, hmatch, hmethod, ih]

theorem isWebSocket_traced (route : Route ω) (n : ℕ) :
    (route.traced n).isWebSocket = route.isWebSocket := by
  rw [Route.isWebSocket, Route.isWebSocket, Route.traced]
  cases route.handler <;> rfl

/-- What the loop finds in a router. -/
theorem findRoute_routes (r : Router env ω) (method : Verb) (path : Text) :
    findRoute env method path r.routes false .empty =
      (.of Prod.fst (r.firstMatch method path)
          (r.httpRoutes.any fun route ↦ route.1.hasPath env path),
        r.params method path) := by
  have h := findRoute_eq env Prod.fst method path r.routes.zipIdx false .empty
  simp only [List.zipIdx_map_fst, Bool.false_or] at h
  exact h

/-- The loop finds the same in the traced router. -/
theorem findRoute_traced (r : Router env ω) (method : Verb) (path : Text) :
    findRoute env method path r.traced.routes false .empty =
      (.of (fun route ↦ route.1.traced route.2) (r.firstMatch method path)
          (r.httpRoutes.any fun route ↦ route.1.hasPath env path),
        r.params method path) := by
  have h := findRoute_eq env (fun route : Route ω × ℕ ↦ route.1.traced route.2) method path
    r.routes.zipIdx false .empty
  simp only [isWebSocket_traced, Bool.false_or] at h
  exact h

/-! ### A request -/

section Requests

variable (r : Router env ω) (req : Request) {x : Exchange ω} (record : List Site)

theorem internalServerError_attach :
    internalServerError env req (x.attach record) =
      recorded (internalServerError env req x) record := by
  rfl

theorem leave_recorded (result : Outcome × Exchange ω) :
    leave (recorded result record) = recorded (leave result) record := by
  rcases result with ⟨- | -, y⟩ <;> rfl

/-- A route that responds calls its functions, and nothing else. -/
theorem respond_traced (route : Route ω) (n : ℕ) (hkind : route.isWebSocket = false)
    (hx : x.response.hasResponse = false) :
    respond env (route.traced n) req (x.attach record) =
      recorded (respond env route req x) (record ++ (callUntil req (route.functions n) x).1) := by
  rw [respond, respond, call_traced route n hkind hx]
  rcases route.call req x with ⟨- | -, y⟩
  · show (if y.response.hasResponse then _ else _) = _
    cases hy : y.response.hasResponse with
    | true => simp [hy, recorded]
    | false => simp [hy, internalServerError_attach]
  · exact internalServerError_attach req _

/-- route(), once the global middlewares were silent and the target was parsed. -/
def Router.dispatch (r : Router env ω) (req : Request) (path : Text) (x : Exchange ω) :
    Outcome × Exchange ω :=
  match findRoute env req.method path r.routes false .empty with
  | (.route route, params) => leave (respond env route req { x with params := some params })
  | (.methodNotAllowed, params) =>
    leave (r.methodNotAllowedHandler.invoke req { x with params := some params })
  | (.notFound, params) => leave (r.notFoundHandler.invoke req { x with params := some params })

/-- The dispatch calls the functions of the route that it finds, or of its default. -/
theorem dispatch_traced (path : Text) (hx : x.response.hasResponse = false) :
    r.traced.dispatch req path (x.attach record) =
      recorded (r.dispatch req path x) (record ++ (callUntil req (r.functions req.method path)
        { x with params := some (r.params req.method path) }).1) := by
  rw [Router.dispatch, Router.dispatch, findRoute_traced, findRoute_routes, Router.functions]
  cases hfirst : r.firstMatch req.method path with
  | some route =>
    obtain ⟨route, n⟩ := route
    have hkind : route.isWebSocket = false := by
      have hmem := List.mem_of_find?_eq_some hfirst
      simpa using (List.mem_filter.1 hmem).2
    set seen : Exchange ω := { x with params := some (r.params req.method path) }
    have hrespond : respond env (route.traced n) req (seen.attach record) =
        recorded (respond env route req seen)
          (record ++ (callUntil req (route.functions n) seen).1) :=
      respond_traced req record route n hkind hx
    exact (congrArg leave hrespond).trans (leave_recorded _ _)
  | none =>
    set seen : Exchange ω := { x with params := some (r.params req.method path) }
    cases r.httpRoutes.any fun route ↦ route.1.hasPath env path with
    | true =>
      have hinvoke := invoke_traced req (x := seen) record .methodNotAllowed
        r.methodNotAllowedHandler
      exact (congrArg leave hinvoke).trans (leave_recorded _ _)
    | false =>
      have hinvoke := invoke_traced req (x := seen) record .notFound r.notFoundHandler
      exact (congrArg leave hinvoke).trans (leave_recorded _ _)

/-- **A traced router does what the original does, and records the calls of the reference
interpreter.** -/
theorem route_traced {path : Text} (hpath : env.path req.target = some path)
    (hx : x.response.hasResponse = false) :
    r.traced.route req (x.attach record) =
      recorded (r.route req x) (record ++ calls r req path x) := by
  rw [Router.route, Router.route, hpath, calls]
  dsimp only
  set start : Exchange ω :=
    { x with ip := Proxies.resolve env.asio r.trustedProxies x.peerIP req.fields } with hstart
  have hglobals := runGlobals_traced req (x := start) record
    (named .globalMiddleware r.globalMiddlewares)
  have hnext := callUntil_globals req (x := start)
    (named .globalMiddleware r.globalMiddlewares)
  have hsilent : ∀ sites y, callUntil req (named .globalMiddleware r.globalMiddlewares) start =
      (sites, some y) → y.response.hasResponse = false := by
    intro sites y h
    exact silent_of_callUntil (x := start) hx h
  rw [map_snd_named] at hglobals hnext
  have hstarts : ({ x.attach record with
      ip := Proxies.resolve env.asio r.traced.trustedProxies (x.attach record).peerIP
        req.fields } : Exchange (Recorded ω)) = start.attach record := rfl
  rw [hstarts, show r.traced.globalMiddlewares =
    (named .globalMiddleware r.globalMiddlewares).map fun f ↦ tracedHttp f.1 f.2 from rfl, hglobals]
  generalize callUntil req (named .globalMiddleware r.globalMiddlewares) start = made at *
  generalize runGlobals req r.globalMiddlewares start = globals at *
  rcases made with ⟨sites, next⟩
  rcases globals with ⟨- | - | -, y⟩ <;> dsimp only at hnext <;> subst hnext
  · -- all were silent
    have hdispatch := dispatch_traced r req (record ++ sites) path (hsilent sites y rfl)
    rw [List.append_assoc] at hdispatch
    exact hdispatch
  · rfl
  · exact internalServerError_attach req _

end Requests

/-! ### What all functions keep -/

section Keeps

/-- A property of the exchange that a function keeps, also where it throws. -/
def Keeps (P : Exchange ω → Prop) (f : HttpHandler ω) : Prop :=
  ∀ req x, P x → P (f req x).2

/-- An HTTP function has the property; WebSocket functions do not matter. -/
def Handler.Satisfies (p : HttpHandler ω → Prop) : Handler ω → Prop
  | .http f => p f
  | .webSocket _ => True

/-- All HTTP functions of a router have a property. -/
structure Router.AllHttp (p : HttpHandler ω → Prop) (r : Router env ω) : Prop where
  globals : ∀ f ∈ r.globalMiddlewares, p f
  handlers : ∀ route ∈ r.routes, route.handler.Satisfies p
  pre : ∀ route ∈ r.routes, ∀ f ∈ route.preMiddlewares, f.Satisfies p
  post : ∀ route ∈ r.routes, ∀ f ∈ route.postMiddlewares, f.Satisfies p
  notFound : r.notFoundHandler.Satisfies p
  methodNotAllowed : r.methodNotAllowedHandler.Satisfies p

/-- What the functions satisfy may be weakened. -/
theorem Handler.Satisfies.imp {p q : HttpHandler ω → Prop} (h : ∀ f, p f → q f) :
    ∀ {f : Handler ω}, f.Satisfies p → f.Satisfies q
  | .http f, hf => h f hf
  | .webSocket _, _ => trivial

theorem Router.AllHttp.imp {p q : HttpHandler ω → Prop} (h : ∀ f, p f → q f) {r : Router env ω}
    (hr : r.AllHttp p) : r.AllHttp q where
  globals f hf := h f (hr.globals f hf)
  handlers route hroute := (hr.handlers route hroute).imp h
  pre route hroute f hf := (hr.pre route hroute f hf).imp h
  post route hroute f hf := (hr.post route hroute f hf).imp h
  notFound := hr.notFound.imp h
  methodNotAllowed := hr.methodNotAllowed.imp h

variable {P : Exchange ω → Prop} (req : Request) {x : Exchange ω}

/-- What every global function keeps, all of them keep. -/
theorem runGlobals_keeps {fs : List (HttpHandler ω)} (hfs : ∀ f ∈ fs, Keeps P f) (hx : P x) :
    P (runGlobals req fs x).2 := by
  induction fs generalizing x with
  | nil => exact hx
  | cons f fs ih =>
    have hf := hfs f List.mem_cons_self req x hx
    rw [runGlobals]
    generalize f req x = result at hf ⊢
    rcases result with ⟨- | -, y⟩
    · dsimp only
      split
      · exact hf
      · exact ih (fun g hg ↦ hfs g (List.mem_cons_of_mem f hg)) hf
    · exact hf

theorem runMiddlewares_keeps {fs : List (Handler ω)} (hfs : ∀ f ∈ fs, f.Satisfies (Keeps P))
    (hx : P x) : P (runMiddlewares req fs x).2 := by
  induction fs generalizing x with
  | nil => exact hx
  | cons f fs ih =>
    have hrest : ∀ g ∈ fs, g.Satisfies (Keeps P) := fun g hg ↦ hfs g (List.mem_cons_of_mem f hg)
    have hf := hfs f List.mem_cons_self
    cases f with
    | webSocket f => exact ih hrest hx
    | http f =>
      have hy := hf req x hx
      rw [runMiddlewares]
      generalize f req x = result at hy ⊢
      rcases result with ⟨- | -, y⟩
      · dsimp only
        split
        · exact hy
        · exact ih hrest hy
      · exact hy

theorem invoke_keeps {handler : Handler ω} (hf : handler.Satisfies (Keeps P)) (hx : P x) :
    P (handler.invoke req x).2 := by
  cases handler with
  | http f => exact hf req x hx
  | webSocket f => exact hx

/-- A route that is called: its middlewares and its handler. -/
theorem call_keeps {route : Route ω} (hhandler : route.handler.Satisfies (Keeps P))
    (hpre : ∀ f ∈ route.preMiddlewares, f.Satisfies (Keeps P))
    (hpost : ∀ f ∈ route.postMiddlewares, f.Satisfies (Keeps P)) (hx : P x) :
    P (route.call req x).2 := by
  have hy := runMiddlewares_keeps req hpre hx
  rw [Route.call]
  generalize runMiddlewares req route.preMiddlewares x = pre at hy ⊢
  rcases pre with ⟨- | -, y⟩
  · have hz := invoke_keeps req hhandler hy
    dsimp only
    split
    · exact hy
    generalize route.handler.invoke req y = result at hz ⊢
    rcases result with ⟨- | -, z⟩
    · dsimp only
      split
      · exact hz
      · exact runMiddlewares_keeps req hpost hz
    · exact hz
  · exact hy

theorem respond_keeps {route : Route ω} (herror : Keeps P (internalServerError env))
    (hroute : P (route.call req x).2) : P (respond env route req x).2 := by
  rw [respond]
  generalize route.call req x = result at hroute ⊢
  rcases result with ⟨- | -, y⟩
  · dsimp only
    split
    · exact hroute
    · exact herror req y hroute
  · exact herror req y hroute

/-- The route that the loop finds is one of the router's. -/
theorem mem_of_findRoute {method : Verb} {path : Text} {routes : List (Route ω)}
    {route : Route ω} {params : RouteParams}
    (h : findRoute env method path routes false .empty = (.route route, params)) :
    route ∈ routes := by
  have hfind := findRoute_eq env id method path routes false .empty
  rw [List.map_id, h] at hfind
  have hfound := congrArg Prod.fst hfind
  dsimp only at hfound
  unfold Found.of at hfound
  split at hfound
  · next found hfirst =>
    obtain rfl := Found.route.inj hfound
    exact List.mem_of_mem_filter (List.mem_of_find?_eq_some hfirst)
  · split at hfound <;> cases hfound

/-- **What all HTTP functions of a router keep, route() keeps**, from what the global middlewares
leave on, whatever these are. -/
theorem route_keeps {r : Router env ω} (hr : r.AllHttp (Keeps P))
    (herror : Keeps P (internalServerError env)) (hparams : ∀ x params, P x → P { x with params })
    {globals : List (HttpHandler ω)}
    (hglobals : P (runGlobals req globals
      { x with ip := Proxies.resolve env.asio r.trustedProxies x.peerIP req.fields }).2) :
    P (({ r with globalMiddlewares := globals } : Router env ω).route req x).2 := by
  have hleave : ∀ result : Outcome × Exchange ω, P result.2 → P (leave result).2 := by
    rintro ⟨- | -, y⟩ hy
    · exact hparams y none hy
    · exact hy
  rw [Router.route]
  dsimp only
  generalize runGlobals req globals _ = result at hglobals ⊢
  rcases result with ⟨- | - | -, y⟩
  · dsimp only
    split
    · exact herror req y hglobals
    · split
      · next route params hfound =>
        have hmem := mem_of_findRoute hfound
        exact hleave _ (respond_keeps req herror (call_keeps req (hr.handlers route hmem)
          (hr.pre route hmem) (hr.post route hmem) (hparams y params hglobals)))
      · exact hleave _ (invoke_keeps req hr.methodNotAllowed (hparams y _ hglobals))
      · exact hleave _ (invoke_keeps req hr.notFound (hparams y _ hglobals))
  · exact hglobals
  · exact herror req y hglobals

end Keeps

/-! ### WebSocket routes -/

/-- `std::holds_alternative<HttpHandler>`. -/
def Handler.isHttp : Handler ω → Bool
  | .http _ => true
  | .webSocket _ => false

/-- The route without middlewares of the other kind. -/
def Route.withoutWebSockets (route : Route ω) : Route ω :=
  { route with
    preMiddlewares := route.preMiddlewares.filter Handler.isHttp
    postMiddlewares := route.postMiddlewares.filter Handler.isHttp }

/-- The router without WebSocket routes and middlewares. -/
def Router.withoutWebSockets (r : Router env ω) : Router env ω :=
  { r with
    routes := (r.routes.filter fun route ↦ !route.isWebSocket).map Route.withoutWebSockets }

/-- WebSocket middlewares do nothing for an HTTP request. -/
theorem runMiddlewares_filter (req : Request) (fs : List (Handler ω)) (x : Exchange ω) :
    runMiddlewares req (fs.filter Handler.isHttp) x = runMiddlewares req fs x := by
  induction fs generalizing x with
  | nil => rfl
  | cons f fs ih =>
    cases f with
    | http f =>
      rw [List.filter_cons_of_pos rfl, runMiddlewares, runMiddlewares]
      rcases f req x with ⟨- | -, y⟩
      · dsimp only
        rw [ih]
      · rfl
    | webSocket f =>
      rw [List.filter_cons_of_neg Bool.false_ne_true]
      exact ih x

theorem respond_withoutWebSockets (route : Route ω) (req : Request) (x : Exchange ω) :
    respond env route.withoutWebSockets req x = respond env route req x := by
  have hcall : route.withoutWebSockets.call req x = route.call req x := by
    rw [Route.call, Route.call]
    simp only [Route.withoutWebSockets, runMiddlewares_filter]
  rw [respond, hcall, respond]

/-- **WebSocket routes and middlewares do not matter** to an HTTP request. -/
theorem route_withoutWebSockets (r : Router env ω) (req : Request) (x : Exchange ω) :
    r.withoutWebSockets.route req x = r.route req x := by
  have hdispatch : ∀ path y,
      r.withoutWebSockets.dispatch req path y = r.dispatch req path y := by
    intro path y
    set http := r.routes.filter fun route ↦ !route.isWebSocket with hhttp
    set fits : Route ω → Bool := fun route ↦
      route.hasPath env path && route.methodMatch req.method
    set params := (http.takeWhile (fun route ↦ !fits route) ++ (http.find? fits).toList).foldl
      (fun params route ↦ (route.pathMatch env path params).2) RouteParams.empty
    have hall : findRoute env req.method path r.routes false .empty =
        (.of id (http.find? fits) (http.any fun route ↦ route.hasPath env path), params) := by
      have h := findRoute_eq env id req.method path r.routes false .empty
      simp only [List.map_id, Bool.false_or] at h
      exact h
    have honly : findRoute env req.method path r.withoutWebSockets.routes false .empty =
        (.of Route.withoutWebSockets (http.find? fits)
          (http.any fun route ↦ route.hasPath env path), params) := by
      have hfilter : http.filter (fun route ↦ !route.withoutWebSockets.isWebSocket) = http := by
        rw [hhttp, List.filter_filter]
        exact List.filter_congr fun route _ ↦ Bool.and_self _
      have h := findRoute_eq env Route.withoutWebSockets req.method path http false .empty
      simp only [hfilter, Bool.false_or] at h
      exact h
    rw [Router.dispatch, Router.dispatch, hall, honly]
    cases http.find? fits with
    | some route => exact congrArg leave (respond_withoutWebSockets route req _)
    | none => cases http.any fun route ↦ route.hasPath env path <;> rfl
  rw [Router.route, Router.route]
  have hglobals : r.withoutWebSockets.globalMiddlewares = r.globalMiddlewares := rfl
  have hproxies : r.withoutWebSockets.trustedProxies = r.trustedProxies := rfl
  rw [hglobals, hproxies]
  rcases runGlobals req r.globalMiddlewares _ with ⟨- | - | -, y⟩
  · cases hpath : env.path req.target with
    | none => rfl
    | some path => exact hdispatch path y
  · rfl
  · rfl

/-! ### The guarantee -/

/-- **Dispatch.** For a request whose target parses, the user functions called are the ones of the
reference interpreter, in its order; keeping the record changes nothing; and neither do WebSocket
routes and middlewares. -/
theorem dispatch_refines (r : Router env ω) (req : Request) {path : Text}
    (hpath : env.path req.target = some path) (x : Exchange ω)
    (hx : x.response.hasResponse = false) :
    (r.traced.route req (x.attach [])).2.world.2 = calls r req path x ∧
    ((r.traced.route req (x.attach [])).1, (r.traced.route req (x.attach [])).2.detach) =
      r.route req x ∧
    r.withoutWebSockets.route req x = r.route req x := by
  rw [route_traced r req [] hpath hx]
  exact ⟨rfl, rfl, route_withoutWebSockets r req x⟩

/-- A global middleware, a WebSocket route, and two routes of one path; the second one has
middlewares of both kinds. -/
def mixed : Router plainPaths Unit where
  globalMiddlewares := [fun _ x ↦ (.returned, x)]
  routes := [
    { handler := .webSocket fun _ up ↦ (.accepts, up)
      pattern := "/a".toList, path := "/a".toList, paramNames := [], methods := []
      preMiddlewares := [], postMiddlewares := [] },
    { handler := .http fun _ x ↦ (.threw, x)
      pattern := "/a".toList, path := "/a".toList, paramNames := [], methods := [.post]
      preMiddlewares := [], postMiddlewares := [] },
    { handler := .http fun _ x ↦ (.returned, x)
      pattern := "/a".toList, path := "/a".toList, paramNames := [], methods := [.get]
      preMiddlewares := [.webSocket fun _ up ↦ (.refuses, up), .http fun _ x ↦ (.returned, x)]
      postMiddlewares := [.http fun _ x ↦ (.returned, { x with response.status := 200 }),
        .http fun _ x ↦ (.threw, x)] }]

theorem dispatch_refines_mixed :
    (mixed.traced.route { method := .get, target := "/a".toList }
      (Exchange.attach { world := () } [])).2.world.2 =
      [.globalMiddleware 0, .preMiddleware 2 1, .handler 2, .postMiddleware 2 0] :=
  (dispatch_refines mixed { method := .get, target := "/a".toList } rfl { world := () } rfl).1.trans
    rfl

end CppGate.Routing
