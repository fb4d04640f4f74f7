import CppGate.Foundations.Fallible
import CppGate.Middleware.Cors
import CppGate.Routing.Dispatch

/-!
# The CORS headers of the final response

The middleware sets its headers on a response that others then fill in: later middlewares, handlers
and the router's own answers for errors. As long as none of them touches the Access-Control headers
these stay what the middleware left (`route_keeps`), so the final response has them exactly as the
policy says, whatever way it came about.
-/

namespace CppGate.Middleware

open Http Routing

universe u

variable {env : Env} {ω : Type u}

/-! ### Access-Control headers -/

/-- The name begins with `Access-Control-`. -/
def isAccessControl (name : Text) : Bool :=
  Text.iequals (name.take 15) "Access-Control-".toList

/-- The Access-Control headers. -/
def accessControl (fields : List Field) : List Field :=
  fields.filter fun field ↦ isAccessControl field.name

theorem isAccessControl_congr (x y : Text) (h : Text.iequals x y = true) :
    isAccessControl x = isAccessControl y := by
  have htake : (x.take 15).map Char.toLower = (y.take 15).map Char.toLower := by
    rw [List.map_take, List.map_take, beq_iff_eq.1 h]
  rw [isAccessControl, isAccessControl, Text.iequals, Text.iequals, htake]

/-- Setting another field leaves the fields of CORS. -/
theorem accessControl_set (fields : List Field) {name : Text} (hname : isAccessControl name = false)
    (value : Text) : accessControl (set fields name value) = accessControl fields :=
  filter_set isAccessControl_congr fields hname value

/-- The value of `Access-Control-Allow-Origin`. -/
def allowOrigin (res : HttpResponse) : Option Text :=
  find res.fields "Access-Control-Allow-Origin".toList

theorem allowOrigin_congr {res res' : HttpResponse}
    (h : accessControl res.fields = accessControl res'.fields) :
    allowOrigin res = allowOrigin res' := by
  have hname : isAccessControl "Access-Control-Allow-Origin".toList = true := by decide
  rw [allowOrigin, allowOrigin, ← find_filter isAccessControl_congr _ hname,
    ← find_filter isAccessControl_congr res'.fields hname]
  exact congrArg (find · _) h

/-- The function leaves the Access-Control headers alone. -/
def LeavesAccessControl (f : HttpHandler ω) : Prop :=
  ∀ req x, accessControl (f req x).2.response.fields = accessControl x.response.fields

/-- What is assumed of `prepare_payload`: it leaves the Access-Control headers alone. -/
def Spares (beast : Beast) : Prop :=
  ∀ fields length, accessControl (beast.contentLength fields length) = accessControl fields

/-- The send functions leave the fields of CORS. -/
theorem accessControl_send (hbeast : Spares env.beast) (res : HttpResponse) (status : ℕ)
    (content : Text) :
    accessControl (res.send env.beast status content).2.fields = accessControl res.fields := by
  rw [HttpResponse.send, HttpResponse.preparePayload]
  split
  · rfl
  · exact hbeast _ _

theorem leaves_internalServerError (hbeast : Spares env.beast) :
    LeavesAccessControl (internalServerError (ω := ω) env) := by
  intro req x
  exact accessControl_send hbeast x.response 500 _

/-! ### The options -/

/-- Whether a policy made of the options allows an origin. -/
def CorsOptions.allows (options : CorsOptions) (origin : Text) : Bool :=
  match compile options with
  | .ok policy => policy.allows origin
  | .error _ => false

/-- An entry admits everyone exactly if it is the asterisk. -/
theorem compileOrigin_anyOrigin {policy policy' : Policy} {origin : Text}
    (h : compileOrigin policy origin = .ok policy') :
    policy'.anyOrigin = (policy.anyOrigin || decide (origin = "*".toList)) := by
  rw [compileOrigin] at h
  split at h
  · next horigin =>
    obtain rfl := Except.ok.inj h
    rw [decide_eq_true horigin, Bool.or_true]
  next horigin =>
  rw [decide_eq_false horigin, Bool.or_false]
  split at h
  · exact Except.ok.inj h ▸ rfl
  · split at h
    · cases h
    · exact Except.ok.inj h ▸ rfl

/-- The loop over the allowed origins, and what compile() makes of its result. -/
theorem exists_of_compile {options : CorsOptions} {policy : Policy}
    (h : compile options = .ok policy) :
    ∃ origins, options.allowedOrigins.foldlM compileOrigin {} = .ok origins ∧
      policy.anyOrigin = origins.anyOrigin ∧ policy.exact = origins.exact ∧
        policy.subdomains = origins.subdomains ∧ policy.credentials = options.allowCredentials := by
  obtain ⟨origins, horigins, hpolicy⟩ := Fallible.exists_of_bind_eq_ok h
  obtain rfl := Except.ok.inj hpolicy
  exact ⟨origins, horigins, rfl, rfl, rfl, rfl⟩

/-- What matters of a compiled policy. -/
theorem compile_ok {options : CorsOptions} {policy : Policy} (h : compile options = .ok policy) :
    policy.anyOrigin = decide ("*".toList ∈ options.allowedOrigins) ∧
      policy.credentials = options.allowCredentials := by
  obtain ⟨origins, horigins, hany, -, -, hcredentials⟩ := exists_of_compile h
  refine ⟨?_, hcredentials⟩
  have hstar : origins.anyOrigin = true ↔ ({} : Policy).anyOrigin = true ∨
      ∃ origin ∈ options.allowedOrigins, origin = "*".toList := by
    refine Fallible.foldlM_iff_or (P := fun policy ↦ policy.anyOrigin = true) ?_ horigins
    intro policy next origin _ hround
    rw [compileOrigin_anyOrigin hround, Bool.or_eq_true, decide_eq_true_iff]
  rw [hany, Bool.eq_iff_iff, hstar, decide_eq_true_iff]
  simp

/-! ### The middleware -/

/-- What a policy has a browser told: nothing, or who may read the response. -/
def Policy.allowedOrigin (policy : Policy) (origin : Text) : Option Text :=
  if origin ≠ [] ∧ policy.allows origin = true then
    some (if policy.varies then origin else "*".toList)
  else
    none

theorem accessControl_header (res : HttpResponse) {name : Text}
    (hname : isAccessControl name = false) (value : Text) :
    accessControl (res.header name value).fields = accessControl res.fields :=
  accessControl_set res.fields hname value

/-- Headers other than the allowed origin do not matter for it. -/
theorem allowOrigin_header (res : HttpResponse) {name : Text}
    (hname : Text.iequals name "Access-Control-Allow-Origin".toList = false) (value : Text) :
    allowOrigin (res.header name value) = allowOrigin res :=
  find_set_ne res.fields hname value

/-- A policy allows the origin that it was asked for, or everyone. -/
theorem allowOrigin_grant (policy : Policy) (origin : Text) (res : HttpResponse) :
    allowOrigin (policy.grant origin res) =
      some (if policy.varies then origin else "*".toList) := by
  rw [Policy.grant]
  split
  · rw [allowOrigin_header _ (by decide)]
    exact find_set_self _ _ _
  · exact find_set_self _ _ _

theorem allowOrigin_answer (policy : Policy) (req : Request) (res : HttpResponse) :
    allowOrigin (policy.answer req res) = allowOrigin res := by
  have hheaders : ∀ value : Text,
      allowOrigin (((res.header "Access-Control-Allow-Methods".toList policy.methods).header
        "Access-Control-Allow-Headers".toList value)) = allowOrigin res := fun value ↦
    (allowOrigin_header _ (by decide) value).trans (allowOrigin_header res (by decide) _)
  have hsent : ∀ res' : HttpResponse,
      allowOrigin (((res'.header "Access-Control-Max-Age".toList policy.maxAge).header
        "Vary".toList "Origin, Access-Control-Request-Method, Access-Control-Request-Headers".toList
        ).sendNoContent) = allowOrigin res' := fun res' ↦
    (allowOrigin_header _ (by decide) _).trans (allowOrigin_header res' (by decide) _)
  rw [Policy.answer, hsent]
  split
  · exact hheaders _
  split
  · exact hheaders _
  · exact allowOrigin_header res (by decide) _

section Apply

variable (env) (policy : Policy) (req : Request) (res : HttpResponse)

theorem apply_returned : (policy.apply env req res).1 = .returned := by
  rw [Policy.apply]
  dsimp only
  split
  · rfl
  split
  · split
    · exact (HttpResponse.send_fst _ 403 _).2 fun h ↦ absurd h.1 (by decide)
    · rfl
  split
  · rfl
  split <;> rfl

/-- A preflight is always answered. -/
theorem apply_preflight (horigin : header req "Origin".toList ≠ [])
    (hpreflight : preflight req = true) :
    (policy.apply env req res).2.status =
      if policy.allows (header req "Origin".toList) then 204 else 403 := by
  rw [Policy.apply]
  dsimp only
  rw [if_neg horigin]
  cases policy.allows (header req "Origin".toList) with
  | false =>
    rw [if_pos rfl, if_pos hpreflight, if_neg Bool.false_ne_true]
    exact HttpResponse.send_status _ 403 _
  | true =>
    rw [if_neg (Bool.noConfusion ·), if_pos hpreflight, if_pos rfl]
    rfl

variable {env res} in
/-- What the middleware allows is what the policy says of the origin. -/
theorem allowOrigin_apply (hbeast : Spares env.beast) (hres : accessControl res.fields = []) :
    allowOrigin (policy.apply env req res).2 =
      policy.allowedOrigin (header req "Origin".toList) := by
  -- the response before the origin counts
  have hvary : ∀ res' : HttpResponse,
      res' = (if policy.varies then res.header "Vary".toList "Origin".toList else res) →
        accessControl res'.fields = [] := by
    rintro _ rfl
    split
    · exact (accessControl_header res (by decide) _).trans hres
    · exact hres
  have hnone : ∀ res' : HttpResponse, accessControl res'.fields = [] → allowOrigin res' = none :=
    fun res' hres' ↦ by
      have hempty : accessControl ({} : HttpResponse).fields = [] := rfl
      exact (allowOrigin_congr (hres'.trans hempty.symm)).trans rfl
  rw [Policy.apply]
  generalize hres' : (if policy.varies then _ else res) = res'
  specialize hvary res' hres'.symm
  dsimp only
  by_cases horigin : header req "Origin".toList = []
  · have hanswer : policy.allowedOrigin (header req "Origin".toList) = none :=
      if_neg fun h ↦ h.1 horigin
    rw [hanswer, if_pos horigin]
    exact hnone res' hvary
  rw [if_neg horigin]
  cases hallows : policy.allows (header req "Origin".toList) with
  | false =>
    have hanswer : policy.allowedOrigin (header req "Origin".toList) = none :=
      if_neg fun h ↦ Bool.false_ne_true (hallows.symm.trans h.2)
    rw [hanswer, if_pos rfl]
    split
    · refine hnone _ ((accessControl_send hbeast _ 403 _).trans ?_)
      exact (accessControl_set _ (by decide) _).trans hvary
    · exact hnone res' hvary
  | true =>
    have hgrant : allowOrigin (policy.grant (header req "Origin".toList) res') =
        policy.allowedOrigin (header req "Origin".toList) :=
      (allowOrigin_grant policy _ res').trans (if_pos ⟨horigin, hallows⟩).symm
    rw [if_neg (Bool.noConfusion ·)]
    split
    · exact (allowOrigin_answer policy req _).trans hgrant
    split
    · exact (allowOrigin_header _ (by decide) _).trans hgrant
    · exact hgrant

end Apply

/-! ### Behind the router -/

/-- The router with this middleware before its others. -/
def useFirst (r : Router env ω) (middleware : HttpHandler ω) : Router env ω :=
  { r with globalMiddlewares := middleware :: r.globalMiddlewares }

/-- The first middleware answers. -/
theorem route_answered {r : Router env ω} {f : HttpHandler ω} {fs : List (HttpHandler ω)}
    (hglobals : r.globalMiddlewares = f :: fs) {req : Request} {x y : Exchange ω}
    (hcall : f req { x with ip := Proxies.resolve env.asio r.trustedProxies x.peerIP req.fields } =
      (.returned, y)) (hy : y.response.hasResponse = true) :
    r.route req x = (.returned, y) := by
  rw [Router.route, hglobals, runGlobals, hcall]
  dsimp only
  rw [if_pos hy]

variable {middleware : HttpHandler ω}

/-- A middleware of cors() is that of a policy. -/
theorem cors_ok {options : CorsOptions} (hcors : cors env options = .ok middleware) :
    ∃ policy, compile options = .ok policy ∧ middleware = policy.middleware env := by
  rw [cors] at hcors
  split at hcors
  · next policy hpolicy => exact ⟨policy, hpolicy, (Except.ok.inj hcors).symm⟩
  · cases hcors

/-- What the policy of the options has a browser told. -/
theorem allowedOrigin_eq {options : CorsOptions} {policy : Policy}
    (hpolicy : compile options = .ok policy) (origin : Text) :
    policy.allowedOrigin origin =
      if origin ≠ [] ∧ options.allows origin = true then
        some (if "*".toList ∈ options.allowedOrigins ∧ options.allowCredentials = false then
          "*".toList else origin)
      else none := by
  obtain ⟨hany, hcredentials⟩ := compile_ok hpolicy
  have hvaries : policy.varies = true ↔
      ¬("*".toList ∈ options.allowedOrigins ∧ options.allowCredentials = false) := by
    rw [Policy.varies, hany, hcredentials]
    simp [imp_iff_not_or]
  rw [Policy.allowedOrigin, CorsOptions.allows, hpolicy]
  dsimp only
  split
  · congr 1
    split
    · next h => rw [if_neg (hvaries.1 h)]
    · next h => rw [if_pos (not_not.1 (mt hvaries.2 h))]
  · rfl

/-- What the first middleware leaves alone the rest of route() does too. -/
theorem allowOrigin_route (hbeast : Spares env.beast) (policy : Policy) {r : Router env ω}
    (hr : r.AllHttp LeavesAccessControl) (req : Request) (x : Exchange ω)
    (hx : accessControl x.response.fields = []) :
    allowOrigin ((useFirst r (policy.middleware env)).route req x).2.response =
      policy.allowedOrigin (header req "Origin".toList) := by
  let P : Exchange ω → Prop := fun y ↦
    allowOrigin y.response = policy.allowedOrigin (header req "Origin".toList)
  have hkeeps : ∀ f : HttpHandler ω, LeavesAccessControl f → Keeps P f := fun f hf req' y hy ↦
    (allowOrigin_congr (hf req' y)).trans hy
  have hall : r.AllHttp (Keeps P) := hr.imp hkeeps
  have hfirst := allowOrigin_apply policy req hbeast hx
  refine route_keeps req hall (hkeeps _ (leaves_internalServerError hbeast))
    (fun _ _ hy ↦ hy) ?_
  have hreturned := apply_returned env policy req x.response
  rw [runGlobals, Policy.middleware]
  dsimp only
  generalize policy.apply env req x.response = result at hfirst hreturned ⊢
  obtain ⟨outcome, res⟩ := result
  obtain rfl : outcome = .returned := hreturned
  dsimp only
  split
  · exact hfirst
  · exact runGlobals_keeps req hall.globals hfirst

/-- A preflight stops at the first middleware. -/
theorem preflight_route {policy : Policy} {r : Router env ω} {req : Request} {x : Exchange ω}
    (horigin : header req "Origin".toList ≠ []) (hpreflight : preflight req = true) :
    ((useFirst r (policy.middleware env)).route req x).2.response.status =
        (if policy.allows (header req "Origin".toList) then 204 else 403) ∧
      ((useFirst r (policy.middleware env)).traced.route req (x.attach [])).2.world.2 =
        [.globalMiddleware 0] := by
  have hreturned := apply_returned env policy req x.response
  have hstatus := apply_preflight env policy req x.response horigin hpreflight
  set y : Exchange ω :=
    { x with
      ip := Proxies.resolve env.asio r.trustedProxies x.peerIP req.fields
      response := (policy.apply env req x.response).2 }
  have hanswered : y.response.hasResponse = true := by
    rw [HttpResponse.hasResponse, hstatus]
    split <;> rfl
  have hcall : policy.middleware env req
      { x with ip := Proxies.resolve env.asio r.trustedProxies x.peerIP req.fields } =
        (.returned, y) := Prod.ext hreturned rfl
  have htraced : tracedHttp (.globalMiddleware 0) (policy.middleware env) req
      { x.attach [] with ip := Proxies.resolve env.asio r.trustedProxies x.peerIP req.fields } =
        (.returned, y.attach [.globalMiddleware 0]) := congrArg (recorded · _) hcall
  rw [route_answered (r := useFirst r _) rfl hcall hanswered,
    route_answered (r := (useFirst r _).traced) rfl htraced hanswered]
  exact ⟨hstatus, rfl⟩

/-- **CORS headers reach every response.** Behind the middleware of accepted options the final
response names an allowed origin exactly if the request has an origin that the options allow, and a
preflight is answered without any other user function. -/
theorem cors_end_to_end {options : CorsOptions} (hcors : cors env options = .ok middleware)
    (hbeast : Spares env.beast) {r : Router env ω} (hr : r.AllHttp LeavesAccessControl)
    (req : Request) {x : Exchange ω} (hx : accessControl x.response.fields = []) :
    allowOrigin ((useFirst r middleware).route req x).2.response =
        (if header req "Origin".toList ≠ [] ∧
            options.allows (header req "Origin".toList) = true then
          some (if "*".toList ∈ options.allowedOrigins ∧ options.allowCredentials = false then
            "*".toList else header req "Origin".toList)
        else none) ∧
      (header req "Origin".toList ≠ [] → preflight req = true →
        ((useFirst r middleware).route req x).2.response.status =
            (if options.allows (header req "Origin".toList) then 204 else 403) ∧
          ((useFirst r middleware).traced.route req (x.attach [])).2.world.2 =
            [.globalMiddleware 0]) := by
  obtain ⟨policy, hpolicy, rfl⟩ := cors_ok hcors
  have hallows : options.allows = policy.allows := by
    funext origin
    rw [CorsOptions.allows, hpolicy]
  refine ⟨?_, fun horigin hpreflight ↦ ?_⟩
  · rw [allowOrigin_route hbeast policy hr req x hx]
    exact allowedOrigin_eq hpolicy _
  · rw [hallows]
    exact preflight_route horigin hpreflight

/-- One origin and the subdomains of another, with credentials. -/
def subdomainOptions : CorsOptions where
  allowedOrigins := ["https://app.example.com".toList, "https://*.example.org".toList]
  allowCredentials := true

/-- A request from a subdomain, for a path that no route has. -/
def subdomainRequest : Request where
  method := .get
  target := "/missing".toList
  fields := [⟨"Origin".toList, "https://a.example.org".toList⟩]

theorem cors_end_to_end_subdomain :
    ∃ middleware, cors plainPaths subdomainOptions = .ok middleware ∧
      allowOrigin ((useFirst mixed middleware).route subdomainRequest { world := () }).2.response =
        some "https://a.example.org".toList := by
  obtain ⟨middleware, hcors⟩ : ∃ middleware : HttpHandler Unit,
      cors plainPaths subdomainOptions = .ok middleware := ⟨_, rfl⟩
  have hbeast : Spares plainPaths.beast := fun fields _ ↦ accessControl_set fields (by decide) _
  have hmixed : mixed.AllHttp LeavesAccessControl := by
    refine ⟨?_, ?_, ?_, ?_, fun _ x ↦ accessControl_send hbeast x.response 404 _,
      fun _ x ↦ accessControl_send hbeast x.response 405 _⟩
    all_goals simp [mixed, Handler.Satisfies, LeavesAccessControl]
  refine ⟨middleware, hcors, (cors_end_to_end hcors hbeast hmixed subdomainRequest rfl).1.trans ?_⟩
  decide +kernel

end CppGate.Middleware
