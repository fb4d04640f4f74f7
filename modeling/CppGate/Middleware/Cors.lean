import CppGate.Routing.Router

/-!
# Cross-origin resource sharing

`Cors.cpp`: the options are compiled once into a policy, and the middleware puts the headers of the
policy on the response, before the route is known. Preflights it answers itself.
-/

namespace CppGate.Middleware

open Http Routing

universe u

/-! ### Options -/

/-- `CorsOptions`. -/
structure CorsOptions where
  allowedOrigins : List Text := ["*".toList]
  allowedMethods : List Verb := [.get, .head, .post, .put, .patch, .delete]
  /-- Empty: whatever the preflight asks for. -/
  allowedHeaders : List Text := []
  exposedHeaders : List Text := []
  allowCredentials : Bool := false
  /-- In seconds. -/
  maxAge : ℤ := 600
  deriving DecidableEq, Repr

/-- `join`. -/
def join (items : List Text) : Text :=
  items.foldl (fun out item ↦ (if out = [] then [] else out ++ ", ".toList) ++ item) []

/-- `std::to_string`. -/
def decimal (n : ℤ) : Text :=
  if n < 0 then '-' :: Nat.toDigits 10 n.natAbs else Nat.toDigits 10 n.natAbs

/-- `Policy`. -/
structure Policy where
  anyOrigin : Bool := false
  exact : List Text := []
  /-- The entries of `subdomain_prefixes` and `subdomain_suffixes`, side by side. -/
  subdomains : List (Text × Text) := []
  methods : Text := []
  headers : Text := []
  exposed : Text := []
  maxAge : Text := []
  credentials : Bool := false
  deriving DecidableEq, Repr

namespace Policy

/-- The origin is of the form "start, label, end", with a label of at least one character and none
of `/:@`. -/
def matchesSubdomain (origin : Text) (pattern : Text × Text) : Bool :=
  let (start, tail) := pattern
  decide (start.length + tail.length < origin.length) && start.isPrefixOf origin &&
    tail.isSuffixOf origin &&
    !((origin.drop start.length).take (origin.length - start.length - tail.length)).any
      fun c ↦ c == '/' || c == ':' || c == '@'

/-- `allows`. -/
def allows (policy : Policy) (origin : Text) : Bool :=
  policy.anyOrigin || policy.exact.contains origin ||
    policy.subdomains.any (matchesSubdomain origin)

end Policy

/-! ### Compiling the options -/

/-- One round of the loop over the allowed origins. -/
def compileOrigin (policy : Policy) (origin : Text) : Except String Policy :=
  if origin = "*".toList then
    .ok { policy with anyOrigin := true }
  else
    match Text.indexOf "://*.".toList origin with
    | some wildcard =>
      .ok { policy with
        subdomains :=
          policy.subdomains ++ [(origin.take (wildcard + 3), origin.drop (wildcard + 4))] }
    | none =>
      if origin.contains '*' || (Text.indexOf "://".toList origin).isNone ||
          origin.getLast? == some '/' then
        .error ("cors: invalid origin '" ++ String.ofList origin ++
          "', expected e.g. https://app.example.com, https://*.example.com or *")
      else
        .ok { policy with exact := policy.exact ++ [origin] }

/-- `compile`. -/
def compile (options : CorsOptions) : Except String Policy := do
  let policy ← options.allowedOrigins.foldlM compileOrigin {}
  return { policy with
    methods := join (options.allowedMethods.map Verb.text)
    headers := join options.allowedHeaders
    exposed := join options.exposedHeaders
    maxAge := decimal options.maxAge
    credentials := options.allowCredentials }

/-! ### The middleware -/

/-- `HttpRequest::Headers::get`. -/
def header (req : Request) (name : Text) : Text :=
  (find req.fields name).getD []

/-- The request asks for permission for a later one. -/
def preflight (req : Request) : Bool :=
  req.method == .options && header req "Access-Control-Request-Method".toList != []

/-- The answer depends on the origin. -/
def Policy.varies (policy : Policy) : Bool :=
  !(policy.anyOrigin && !policy.credentials)

/-- The headers for a request from an allowed origin. -/
def Policy.grant (policy : Policy) (origin : Text) (res : HttpResponse) : HttpResponse :=
  let res := res.header "Access-Control-Allow-Origin".toList
    (if policy.varies then origin else "*".toList)
  if policy.credentials then res.header "Access-Control-Allow-Credentials".toList "true".toList
  else res

/-- The answer to a preflight from an allowed origin. -/
def Policy.answer (policy : Policy) (req : Request) (res : HttpResponse) : HttpResponse :=
  let res := res.header "Access-Control-Allow-Methods".toList policy.methods
  let requested := header req "Access-Control-Request-Headers".toList
  let res :=
    if policy.headers != [] then res.header "Access-Control-Allow-Headers".toList policy.headers
    else if requested != [] then res.header "Access-Control-Allow-Headers".toList requested
    else res
  let res := res.header "Access-Control-Max-Age".toList policy.maxAge
  let res := res.header "Vary".toList
    "Origin, Access-Control-Request-Method, Access-Control-Request-Headers".toList
  res.sendNoContent

/-- What the middleware does to a response. -/
def Policy.apply (env : Env) (policy : Policy) (req : Request) (res : HttpResponse) :
    Outcome × HttpResponse :=
  let res := if policy.varies then res.header "Vary".toList "Origin".toList else res
  let origin := header req "Origin".toList
  if origin = [] then
    (.returned, res)
  else if policy.allows origin = false then
    if preflight req then
      res.sendAs env.beast 403 "CORS origin not allowed".toList "text/plain".toList
    else
      (.returned, res)
  else
    let res := policy.grant origin res
    if preflight req then
      (.returned, policy.answer req res)
    else if policy.exposed != [] then
      -- the route follows, the headers stay on its response
      (.returned, res.header "Access-Control-Expose-Headers".toList policy.exposed)
    else
      (.returned, res)

/-- The function that cors() returns. -/
def Policy.middleware (env : Env) (policy : Policy) {ω : Type u} : HttpHandler ω := fun req x ↦
  let (outcome, response) := policy.apply env req x.response
  (outcome, { x with response })

/-- `cors`. -/
def cors (env : Env) (options : CorsOptions) {ω : Type u} : Except String (HttpHandler ω) :=
  match compile options with
  | .ok policy => .ok (policy.middleware env)
  | .error error => .error error

end CppGate.Middleware
