import CppGate.Routing.Dispatch
import CppGate.Routing.UrlParams

/-!
# Which user functions run for a WebSocket

The counterpart of `Dispatch` for connections. A handshake goes through upgrade() before it is
answered, and through open() when it is over, with anything in between: the two only share the route
index that upgrade() leaves in the context. What a traced router records is again what a reference
interpreter says: the pre-middlewares of the first WebSocket route that has the path, up to the
first that does not return true, and if all did, later the handler and the post-middlewares of the
same route, up to the first that does not (`handshake_refines`).
-/

namespace CppGate.Routing

open Http

universe u

variable {env : Env} {ω : Type u}

/-! ### After the handshake -/

/-- `Route::open`: the handler, and the post-middlewares until one returns false. The loop is that
of `Route::upgrade`. -/
def Route.open (route : Route ω) (req : Request) (up : Upgrade ω) : Verdict × Upgrade ω :=
  match route.handler with
  -- std::get throws
  | .http _ => (.throws, up)
  | .webSocket handler =>
    match handler req up with
    | (.accepts, up) => runUpgrade req route.postMiddlewares up
    | ended => ended

/-- `Router::open`, and whether it closes the connection with 1011. -/
def Router.open (r : Router env ω) (req : Request) (up : Upgrade ω) : Bool × Upgrade ω :=
  match up.ws.routeIndex.bind (r.routes[·]?) with
  | none => (false, up)
  | some route =>
    match route.open req up with
    | (.throws, up) => (true, up)
    | (_, up) => (false, up)

/-! ### The reference interpreter -/

/-- Call functions in order, up to the first that does not return true: who was called, and where
this leads. -/
def callWhile (req : Request) :
    List (Site × WebSocketHandler ω) → Upgrade ω → List Site × Verdict × Upgrade ω
  | [], up => ([], .accepts, up)
  | (site, f) :: rest, up =>
    match f req up with
    | (.accepts, up) => (site :: (callWhile req rest up).1, (callWhile req rest up).2)
    | ended => ([site], ended)

/-- The WebSocket functions of a list. -/
def webSocketOnly (fs : List (Site × Handler ω)) : List (Site × WebSocketHandler ω) :=
  fs.filterMap fun f ↦
    match f.2 with
    | .http _ => none
    | .webSocket handler => some (f.1, handler)

/-- The first WebSocket route that has the path, with its number. -/
def Router.firstWebSocket (r : Router env ω) (path : Text) : Option (Route ω × ℕ) :=
  r.routes.zipIdx.find? fun route ↦ route.1.isWebSocket && route.1.hasPath env path

/-- The handshake as the pre-middlewares of a route see it. -/
def Route.seen (env : Env) (route : Route ω) (path : Text) (up : Upgrade ω) : Upgrade ω :=
  { up with ws.params := (route.pathMatch env path .empty).2.toList }

/-- The functions that a route calls before the handshake. -/
def Route.before (route : Route ω) (n : ℕ) : List (Site × WebSocketHandler ω) :=
  webSocketOnly (named (.preMiddleware n) route.preMiddlewares)

/-- The functions that a route calls after the handshake. -/
def Route.after (route : Route ω) (n : ℕ) : List (Site × WebSocketHandler ω) :=
  webSocketOnly ((.handler n, route.handler) :: named (.postMiddleware n) route.postMiddlewares)

/-- Who is called before a handshake. -/
def upgradeCalls (r : Router env ω) (req : Request) (up : Upgrade ω) (response : HttpResponse) :
    List Site :=
  let ip := Proxies.resolve env.asio r.trustedProxies up.ws.peerIP req.fields
  let up := { up with ws.ip := ip }
  match env.path req.target with
  | none => []
  | some path =>
    match r.firstWebSocket path with
    | some (route, n) => (callWhile req (route.before n) (route.seen env path up)).1
    | none => (callUntil req (httpOnly [(.notFound, r.notFoundHandler)]) (exchange up response)).1

/-! ### Records -/

/-- The handshake with a record. -/
def Upgrade.attach (up : Upgrade ω) (record : List Site) : Upgrade (Recorded ω) :=
  { ws := up.ws, world := (up.world, record) }

/-- The handshake without its record. -/
def Upgrade.detach (up : Upgrade (Recorded ω)) : Upgrade ω :=
  { ws := up.ws, world := up.world.1 }

/-- The result of upgrade() without its record. -/
def Upgraded.detach (result : Upgraded (Recorded ω)) : Upgraded ω :=
  { verdict := result.verdict, up := result.up.detach, response := result.response }

/-- The result of upgrade() with a record. -/
def Upgraded.attach (result : Upgraded ω) (record : List Site) : Upgraded (Recorded ω) :=
  { verdict := result.verdict, up := result.up.attach record, response := result.response }

section Records

variable (req : Request) (up : Upgrade ω) (record : List Site)

@[simp] theorem attach_detach : (up.attach record).detach = up := rfl

@[simp] theorem upgraded_attach_detach (result : Upgraded ω) :
    (result.attach record).detach = result := rfl

/-- A refusal keeps the record. -/
theorem refuseWith_recorded (up : Upgrade (Recorded ω)) (result : Outcome × Exchange ω) :
    refuseWith up (recorded result record) = (refuseWith up.detach result).attach record := by
  rcases result with ⟨- | -, x⟩ <;> rfl

theorem reject_attach (response : HttpResponse) :
    reject env (up.attach record) response = (reject env up response).attach record := by
  have hws : (up.attach record).ws = up.ws := rfl
  rw [reject, reject, hws]
  rcases (if up.ws.rejectStatus = 0 then response.send env.beast 403 "Forbidden".toList
    else response.send env.beast up.ws.rejectStatus up.ws.rejectBody) with ⟨outcome, sent⟩
  exact refuseWith_recorded record (up.attach record) (outcome, exchange up sent)

/-! ### Calling functions in order -/

/-- The loop calls the functions of its kind in order. -/
theorem callWhile_snd (fs : List (Site × Handler ω)) (up : Upgrade ω) :
    (callWhile req (webSocketOnly fs) up).2 = runUpgrade req (fs.map Prod.snd) up := by
  induction fs generalizing up with
  | nil => rfl
  | cons f fs ih =>
    rcases f with ⟨site, f | f⟩
    · exact ih up
    · have honly : webSocketOnly ((site, .webSocket f) :: fs) = (site, f) :: webSocketOnly fs := rfl
      rw [honly, List.map_cons, runUpgrade, callWhile]
      rcases f req up with ⟨- | - | -, next⟩
      · exact ih next
      · rfl
      · rfl

/-- So does the loop over the traced functions, and it records them. -/
theorem runUpgrade_traced (fs : List (Site × Handler ω)) (up : Upgrade ω) (record : List Site) :
    runUpgrade req (tracedAll fs) (up.attach record) =
      ((callWhile req (webSocketOnly fs) up).2.1,
        (callWhile req (webSocketOnly fs) up).2.2.attach
          (record ++ (callWhile req (webSocketOnly fs) up).1)) := by
  induction fs generalizing up record with
  | nil =>
    show (Verdict.accepts, up.attach record) = (.accepts, up.attach (record ++ []))
    rw [List.append_nil]
  | cons f fs ih =>
    rcases f with ⟨site, f | f⟩
    · exact ih up record
    · have honly : webSocketOnly ((site, .webSocket f) :: fs) = (site, f) :: webSocketOnly fs := rfl
      have htraced : tracedAll ((site, .webSocket f) :: fs) =
          .webSocket (tracedWebSocket site f) :: tracedAll fs := rfl
      have hcall : tracedWebSocket site f req (up.attach record) =
          ((f req up).1, (f req up).2.attach (record ++ [site])) := rfl
      rw [honly, htraced, runUpgrade, hcall, callWhile]
      rcases f req up with ⟨- | - | -, next⟩
      · show runUpgrade req (tracedAll fs) (next.attach (record ++ [site])) = _
        rw [ih, List.append_assoc]
        rfl
      · rfl
      · rfl

end Records

/-! ### The loop over the routes -/

/-- The loop finds the first WebSocket route that has the path, and the captures of its match. -/
theorem findWebSocket_zipIdx (env : Env) {ω' : Type u} (f : Route ω → ℕ → Route ω') (path : Text)
    (routes : List (Route ω)) (i : ℕ) (params : RouteParams) :
    (findWebSocket env path ((routes.zipIdx i).map fun route ↦ f route.1 route.2) i params).map
        (fun found ↦ (found.1, found.2.1, found.2.2.toList)) =
      ((routes.zipIdx i).find? fun route ↦
          (f route.1 route.2).isWebSocket && (f route.1 route.2).hasPath env path).map
        fun route ↦ (route.2, f route.1 route.2,
          ((f route.1 route.2).pathMatch env path .empty).2.toList) := by
  induction routes generalizing i params with
  | nil => rfl
  | cons route routes ih =>
    rw [List.zipIdx_cons, List.map_cons, findWebSocket]
    cases hkind : (f route i).isWebSocket with
    | false => simpa [hkind] using ih (i + 1) params
    | true =>
      have hpath := pathMatch_fst env (f route i) path params
      have hparams := @pathMatch_toList env _ (f route i) path params .empty
      rcases hmatch : (f route i).pathMatch env path params with ⟨matched, params'⟩
      rw [hmatch] at hpath hparams
      subst hpath
      cases hmatched : (f route i).hasPath env path with
      | false => simpa [hkind, hmatched, hmatch] using ih (i + 1) params'
      | true => simpa [hkind, hmatched, hmatch] using hparams

/-- What the loop finds in a router. -/
theorem findWebSocket_routes (r : Router env ω) (path : Text) :
    (findWebSocket env path r.routes 0 .empty).map
        (fun found ↦ (found.1, found.2.1, found.2.2.toList)) =
      (r.firstWebSocket path).map fun route ↦
        (route.2, route.1, (route.1.pathMatch env path .empty).2.toList) := by
  have h := findWebSocket_zipIdx env (fun route _ ↦ route) path r.routes 0 .empty
  rwa [List.zipIdx_map_fst] at h

/-- The loop finds the same in the traced router. -/
theorem findWebSocket_traced (r : Router env ω) (path : Text) :
    (findWebSocket env path r.traced.routes 0 .empty).map
        (fun found ↦ (found.1, found.2.1, found.2.2.toList)) =
      (r.firstWebSocket path).map fun route ↦
        (route.2, route.1.traced route.2, (route.1.pathMatch env path .empty).2.toList) := by
  have h := findWebSocket_zipIdx env Route.traced path r.routes 0 .empty
  simp only [isWebSocket_traced] at h
  exact h

/-! ### A connection -/

section Connections

variable (r : Router env ω) (req : Request) (up : Upgrade ω) (record : List Site)

/-- upgrade(), once a route was found. -/
def Route.verdict (env : Env) (route : Route ω) (n : ℕ) (req : Request) (up : Upgrade ω)
    (response : HttpResponse) : Upgraded ω :=
  match runUpgrade req route.preMiddlewares up with
  | (.throws, up) => refuseWith up (internalServerError env req (exchange up response))
  | (.refuses, up) => reject env up response
  | (.accepts, up) => ⟨.accepts, { up with ws.routeIndex := some n }, response⟩

/-- upgrade(), once the target was parsed. -/
def Router.offer (r : Router env ω) (req : Request) (path : Text) (up : Upgrade ω)
    (response : HttpResponse) : Upgraded ω :=
  match findWebSocket env path r.routes 0 .empty with
  | none => refuseWith up (r.notFoundHandler.invoke req (exchange up response))
  | some (n, route, params) =>
    route.verdict env n req { up with ws.params := params.toList } response

/-- The route that decides about a handshake is the first one that matches. -/
theorem offer_eq (path : Text) (response : HttpResponse) :
    r.offer req path up response =
      match r.firstWebSocket path with
      | some (route, n) => route.verdict env n req (route.seen env path up) response
      | none => refuseWith up (r.notFoundHandler.invoke req (exchange up response)) := by
  have hfound := findWebSocket_routes r path
  rw [Router.offer]
  rcases hfirst : r.firstWebSocket path with - | ⟨route, n⟩ <;> rw [hfirst] at hfound
  · rw [Option.map_none, Option.map_eq_none_iff] at hfound
    rw [hfound]
  · obtain ⟨⟨n', route', params⟩, hsome, heq⟩ := Option.map_eq_some_iff.1 hfound
    dsimp only at heq
    obtain ⟨rfl, hrest⟩ := Prod.mk.inj heq
    obtain ⟨rfl, hparams⟩ := Prod.mk.inj hrest
    rw [hsome]
    dsimp only
    rw [hparams]
    rfl

/-- An offer calls the functions of that route, or the 404 handler. -/
theorem offer_traced (path : Text) (response : HttpResponse) :
    r.traced.offer req path (up.attach record) response =
      (r.offer req path up response).attach (record ++
        match r.firstWebSocket path with
        | some (route, n) => (callWhile req (route.before n) (route.seen env path up)).1
        | none =>
          (callUntil req (httpOnly [(.notFound, r.notFoundHandler)])
            (exchange up response)).1) := by
  have hfound := findWebSocket_traced r path
  rw [offer_eq r, Router.offer]
  rcases hfirst : r.firstWebSocket path with - | ⟨route, n⟩ <;> rw [hfirst] at hfound
  · rw [Option.map_none, Option.map_eq_none_iff] at hfound
    rw [hfound]
    have hinvoke := invoke_traced req (x := exchange up response) record .notFound
      r.notFoundHandler
    exact (congrArg (refuseWith (up.attach record)) hinvoke).trans
      (refuseWith_recorded _ (up.attach record) _)
  · obtain ⟨⟨n', route', params⟩, hsome, heq⟩ := Option.map_eq_some_iff.1 hfound
    dsimp only at heq
    obtain ⟨rfl, hrest⟩ := Prod.mk.inj heq
    obtain ⟨rfl, hparams⟩ := Prod.mk.inj hrest
    rw [hsome]
    dsimp only
    rw [hparams]
    have hseen : ({ (up.attach record) with
        ws.params := (route.pathMatch env path .empty).2.toList } : Upgrade (Recorded ω)) =
        (route.seen env path up).attach record := rfl
    rw [hseen]
    generalize route.seen env path up = up
    have hpre := runUpgrade_traced req (named (.preMiddleware n') route.preMiddlewares) up record
    have hsame := callWhile_snd req (named (.preMiddleware n') route.preMiddlewares) up
    rw [map_snd_named] at hsame
    rw [Route.verdict, Route.verdict, show (route.traced n').preMiddlewares = tracedAll _ from rfl,
      hpre, ← hsame, Route.before]
    rcases (callWhile req (webSocketOnly (named (.preMiddleware n') route.preMiddlewares)) up)
      with ⟨sites, - | - | -, next⟩
    · rfl
    · exact reject_attach next _ response
    · have herror :=
        @internalServerError_attach env _ req (exchange next response) (record ++ sites)
      exact (congrArg (refuseWith (next.attach (record ++ sites))) herror).trans
        (refuseWith_recorded _ (next.attach (record ++ sites)) _)

/-- **A traced router does what the original does before a handshake**, and records the calls of the
reference interpreter. -/
theorem upgrade_traced (response : HttpResponse) :
    r.traced.upgrade req (up.attach record) response =
      (r.upgrade req up response).attach (record ++ upgradeCalls r req up response) := by
  rw [Router.upgrade, Router.upgrade, upgradeCalls]
  dsimp only
  cases env.path req.target with
  | none =>
    rw [List.append_nil]
    exact refuseWith_recorded record _ (internalServerError env req (exchange _ response))
  | some path =>
    exact offer_traced r req
      { up with ws.ip := Proxies.resolve env.asio r.trustedProxies up.ws.peerIP req.fields } record
      path response

/-- What an accepted handshake leaves. -/
theorem of_accepts {response : HttpResponse}
    (h : (r.upgrade req up response).verdict = .accepts) :
    ∃ path route n, env.path req.target = some path ∧ r.firstWebSocket path = some (route, n) ∧
      (r.upgrade req up response).up.ws.routeIndex = some n := by
  have hrefused : ∀ (up : Upgrade ω) (result : Outcome × Exchange ω),
      (refuseWith up result).verdict ≠ .accepts := by
    rintro up ⟨- | -, x⟩ <;> exact nofun
  have hreject : ∀ up : Upgrade ω, (reject env up response).verdict ≠ .accepts := by
    intro up
    rw [reject]
    exact hrefused _ _
  rw [Router.upgrade] at h ⊢
  dsimp only at h ⊢
  cases hpath : env.path req.target with
  | none =>
    rw [hpath] at h
    exact absurd h (hrefused _ _)
  | some path =>
    rw [hpath] at h
    change (r.offer req path _ response).verdict = .accepts at h
    show ∃ path' route n, some path = some path' ∧ _ ∧
      (r.offer req path _ response).up.ws.routeIndex = some n
    rw [offer_eq] at h ⊢
    cases hfirst : r.firstWebSocket path with
    | none =>
      rw [hfirst] at h
      exact absurd h (hrefused _ _)
    | some found =>
      obtain ⟨route, n⟩ := found
      refine ⟨path, route, n, rfl, hfirst, ?_⟩
      rw [hfirst] at h
      dsimp only at h ⊢
      rw [Route.verdict] at h ⊢
      split at h
      · exact absurd h (hrefused _ _)
      · exact absurd h (hreject _)
      · rfl

/-- A route calls its functions in order, after the handshake. -/
theorem route_open_traced {route : Route ω} (n : ℕ) (hkind : route.isWebSocket = true) :
    (route.traced n).open req (up.attach record) =
      ((route.open req up).1,
        (route.open req up).2.attach (record ++ (callWhile req (route.after n) up).1)) ∧
      route.open req up = (callWhile req (route.after n) up).2 := by
  obtain ⟨f, hf⟩ : ∃ f, route.handler = .webSocket f := by
    rw [Route.isWebSocket] at hkind
    split at hkind
    · exact absurd hkind Bool.false_ne_true
    · next f hf => exact ⟨f, hf⟩
  have hpost := fun up record ↦
    runUpgrade_traced req (named (.postMiddleware n) route.postMiddlewares) up record
  have hsame := callWhile_snd req (named (.postMiddleware n) route.postMiddlewares)
  rw [map_snd_named] at hsame
  have hafter : route.after n = (.handler n, f) ::
      webSocketOnly (named (.postMiddleware n) route.postMiddlewares) := by
    rw [Route.after, hf]
    rfl
  have hhandler : (route.traced n).handler = .webSocket (tracedWebSocket (.handler n) f) := by
    show route.handler.traced (.handler n) = _
    rw [hf]
    rfl
  have hcall : tracedWebSocket (.handler n) f req (up.attach record) =
      ((f req up).1, (f req up).2.attach (record ++ [.handler n])) := rfl
  rw [Route.open, Route.open, hhandler, hf, hafter, callWhile]
  dsimp only
  rw [hcall, show (route.traced n).postMiddlewares = tracedAll _ from rfl]
  rcases f req up with ⟨- | - | -, next⟩
  · dsimp only
    rw [hpost, hsame, List.append_assoc]
    exact ⟨rfl, rfl⟩
  · exact ⟨rfl, rfl⟩
  · exact ⟨rfl, rfl⟩

/-- **A traced router does what the original does after a handshake**, and records the calls of the
reference interpreter. -/
theorem open_traced {route : Route ω} {n : ℕ} (hroute : r.routes[n]? = some route)
    (hkind : route.isWebSocket = true) (hindex : up.ws.routeIndex = some n) :
    r.traced.open req (up.attach record) =
      ((r.open req up).1,
        (r.open req up).2.attach (record ++ (callWhile req (route.after n) up).1)) := by
  have htraced : r.traced.routes[n]? = some (route.traced n) := by
    show (r.routes.zipIdx.map fun route ↦ route.1.traced route.2)[n]? = _
    rw [List.getElem?_map, List.getElem?_zipIdx, hroute, Nat.zero_add]
    rfl
  have hindex' : (up.attach record).ws.routeIndex = some n := hindex
  rw [Router.open, Router.open, hindex', hindex, Option.bind_some, Option.bind_some, htraced,
    hroute]
  dsimp only
  rw [(route_open_traced req up record n hkind).1]
  rcases route.open req up with ⟨- | - | -, next⟩ <;> rfl

end Connections

/-! ### The guarantee -/

/-- **Connections.** Before a handshake the user functions called are the ones of the reference
interpreter, in its order, and keeping the record changes nothing. If the handshake is accepted,
open() calls the functions of the route whose pre-middlewares accepted it, whatever became of the
context and the world meanwhile. -/
theorem handshake_refines (r : Router env ω) (req : Request) (up : Upgrade ω)
    (response : HttpResponse) :
    (r.traced.upgrade req (up.attach []) response).up.world.2 = upgradeCalls r req up response ∧
    (r.traced.upgrade req (up.attach []) response).detach = r.upgrade req up response ∧
    ((r.upgrade req up response).verdict = .accepts →
      ∃ path route n, env.path req.target = some path ∧
        r.firstWebSocket path = some (route, n) ∧
        ∀ later : Upgrade ω,
          later.ws.routeIndex = (r.upgrade req up response).up.ws.routeIndex →
          (r.traced.open req (later.attach [])).2.world.2 =
            (callWhile req (route.after n) later).1 ∧
          ((r.traced.open req (later.attach [])).1,
            (r.traced.open req (later.attach [])).2.detach) = r.open req later) := by
  rw [upgrade_traced]
  refine ⟨rfl, rfl, fun haccepts ↦ ?_⟩
  obtain ⟨path, route, n, hpath, hfirst, hindex⟩ := of_accepts r req up haccepts
  refine ⟨path, route, n, hpath, hfirst, fun later hlater ↦ ?_⟩
  have hfound := List.find?_some hfirst
  have hmem := List.mem_of_find?_eq_some hfirst
  rw [Bool.and_eq_true] at hfound
  have hroute : r.routes[n]? = some route := (List.mk_mem_zipIdx_iff_getElem?).1 hmem
  rw [open_traced r req later [] hroute hfound.1 (hlater.trans hindex)]
  exact ⟨rfl, rfl⟩

/-- An HTTP route and two WebSocket routes of one path. The first of these has middlewares of both
kinds, and its first post-middleware returns false. -/
def lobby : Router plainPaths Unit where
  routes := [
    { handler := .http fun _ x ↦ (.returned, x)
      pattern := "/ws".toList, path := "/ws".toList, paramNames := [], methods := [.get]
      preMiddlewares := [], postMiddlewares := [] },
    { handler := .webSocket fun _ up ↦ (.accepts, up)
      pattern := "/ws".toList, path := "/ws".toList, paramNames := [], methods := []
      preMiddlewares := [.http fun _ x ↦ (.threw, x), .webSocket fun _ up ↦ (.accepts, up)]
      postMiddlewares := [.webSocket fun _ up ↦ (.refuses, up),
        .webSocket fun _ up ↦ (.throws, up)] },
    { handler := .webSocket fun _ up ↦ (.throws, up)
      pattern := "/ws".toList, path := "/ws".toList, paramNames := [], methods := []
      preMiddlewares := [], postMiddlewares := [] }]

theorem handshake_refines_lobby :
    (lobby.traced.upgrade { method := .get, target := "/ws".toList }
        (Upgrade.attach ⟨{}, ()⟩ []) {}).up.world.2 = [.preMiddleware 1 1] ∧
      (lobby.traced.open { method := .get, target := "/ws".toList }
        (Upgrade.attach ⟨{ routeIndex := some 1 }, ()⟩ [])).2.world.2 =
        [.handler 1, .postMiddleware 1 0] := by
  obtain ⟨hbefore, -, haccepted⟩ :=
    handshake_refines lobby { method := .get, target := "/ws".toList } ⟨{}, ()⟩ {}
  obtain ⟨path, route, n, hpath, hfirst, hafter⟩ := haccepted rfl
  obtain rfl := Option.some.inj hpath
  obtain ⟨rfl, rfl⟩ := Prod.mk.inj (Option.some.inj hfirst)
  exact ⟨hbefore.trans rfl, (hafter ⟨{ routeIndex := some 1 }, ()⟩ rfl).1.trans rfl⟩

end CppGate.Routing
