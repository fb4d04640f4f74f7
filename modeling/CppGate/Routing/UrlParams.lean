import CppGate.Routing.Attribution

/-!
# Path parameters as a list

`RouteParams` splits its parameters over an array and a vector. What they hold is a list of pairs:
the vector is empty while the array has room (`Ordered`), so that the boundary between the two is
nowhere to be seen (`params_behave_as_list`).

There are two lookups, `HttpRequest::urlParam` in the parameters themselves and
`WebSocketContext::urlParam` in the copy that upgrade() makes of them. They agree because a match
does not depend on what the parameters held before it.
-/

namespace CppGate.Routing

open Http

universe u v

variable {env : Env} {ω : Type u}

/-! ### The abstract parameters -/

/-- The value of the first pair with a key, or empty. -/
def firstValue (list : List (Text × Text)) (key : Text) : Text :=
  ((list.find? fun param ↦ param.1 == key).map Prod.snd).getD []

/-- A call that changes the parameters. -/
inductive ParamCall
  | add (key value : Text)
  | reset

/-- What a call does to a list of pairs. -/
def ParamCall.record (list : List (Text × Text)) : ParamCall → List (Text × Text)
  | .add key value => list ++ [(key, value)]
  | .reset => []

/-- What a call does to the parameters. -/
def ParamCall.run (params : RouteParams) : ParamCall → RouteParams
  | .add key value => params.add key value
  | .reset => params.reset

namespace RouteParams

/-- `forEach`: over the array, then over the vector. -/
def forEach {σ : Type v} (params : RouteParams) (fn : σ → Text → Text → σ) (s : σ) : σ :=
  params.overflow.foldl (fun s param ↦ fn s param.1 param.2)
    ((params.items.toList.take params.count).foldl (fun s param ↦ fn s param.1 param.2) s)

/-- forEach() visits the parameters in their order. -/
theorem forEach_eq_foldl {σ : Type v} (params : RouteParams) (fn : σ → Text → Text → σ) (s : σ) :
    params.forEach fn s = params.toList.foldl (fun s param ↦ fn s param.1 param.2) s :=
  List.foldl_append.symm

/-- The copy of upgrade(), entry by entry. -/
theorem forEach_emplace (params : RouteParams) :
    params.forEach (fun copy key value ↦ copy ++ [(key, value)]) [] = params.toList := by
  have hcopy : ∀ list copy : List (Text × Text),
      list.foldl (fun copy param ↦ copy ++ [(param.1, param.2)]) copy = copy ++ list := by
    intro list
    induction list with
    | nil => exact fun copy ↦ (List.append_nil copy).symm
    | cons param list ih =>
      intro copy
      rw [List.foldl_cons, ih, List.append_assoc, List.singleton_append]
  rw [forEach_eq_foldl, hcopy, List.nil_append]

/-- get() finds the first one of a name. -/
theorem get_eq_firstValue (params : RouteParams) (key : Text) :
    params.get key = firstValue params.toList key := by
  rw [get, firstValue, toList, List.find?_append]
  cases (params.items.toList.take params.count).find? fun param ↦ param.1 == key with
  | some param => rfl
  | none =>
    rw [Option.none_or]
    cases params.overflow.find? fun param ↦ param.1 == key <;> rfl

theorem size_eq_length (params : RouteParams) : params.size = params.toList.length := by
  have hcount : params.count ≤ params.items.toList.length := by simpa using params.count_le
  rw [size, toList, List.length_append, List.length_take, min_eq_left hcount]

/-- Every call does to the parameters what it does to their list. -/
theorem Ordered.run {params : RouteParams} (h : params.Ordered) (call : ParamCall) :
    (call.run params).Ordered ∧ (call.run params).toList = call.record params.toList := by
  cases call with
  | add key value => exact ⟨h.add key value, h.toList_add key value⟩
  | reset => exact ⟨params.ordered_reset, params.toList_reset⟩

/-- **What any calls leave** is the list of the pairs that were added since the last reset. -/
theorem Ordered.toList_foldl_run {params : RouteParams} (h : params.Ordered)
    (calls : List ParamCall) :
    (calls.foldl ParamCall.run params).toList = calls.foldl ParamCall.record params.toList := by
  induction calls generalizing params with
  | nil => rfl
  | cons call calls ih =>
    obtain ⟨hordered, hlist⟩ := h.run call
    rw [List.foldl_cons, List.foldl_cons, ih hordered, hlist]

end RouteParams

/-! ### The two lookups -/

/-- `HttpRequest::urlParam`. -/
def Exchange.urlParam (x : Exchange ω) (key : Text) : Text :=
  match x.params with
  | some params => params.get key
  | none => []

/-- `WebSocketContext::urlParam`. -/
def WebSocketContext.urlParam (ws : WebSocketContext) (key : Text) : Text :=
  match ws.params.find? fun param ↦ param.1 == key with
  | some param => param.2
  | none => []

theorem WebSocketContext.urlParam_eq (ws : WebSocketContext) (key : Text) :
    ws.urlParam key = firstValue ws.params key := by
  rw [urlParam, firstValue]
  cases ws.params.find? fun param ↦ param.1 == key <;> rfl

/-- A match leaves the same parameters whatever they held before it. -/
theorem pathMatch_toList (route : Route ω) (path : Text) (params params' : RouteParams) :
    (route.pathMatch env path params).2.toList = (route.pathMatch env path params').2.toList := by
  cases hcaptures : env.fullMatch route.pattern path with
  | some captures => rw [pathMatch_of_fullMatch hcaptures, pathMatch_of_fullMatch hcaptures]
  | none =>
    rw [Route.pathMatch, Route.pathMatch, hcaptures]
    exact params.toList_reset.trans params'.toList_reset.symm

/-- Routes with one pattern and the same names match alike. -/
theorem pathMatch_congr {route route' : Route ω} (hpattern : route'.pattern = route.pattern)
    (hnames : route'.paramNames = route.paramNames) :
    route'.pathMatch env = route.pathMatch env := by
  funext path params
  rw [Route.pathMatch, Route.pathMatch, hpattern, hnames]

/-- The parameters of the route that the loop finds are those of its match. -/
theorem params_of_findRoute {method : Http.Verb} {path : Text} {routes : List (Route ω)}
    {pathMatched : Bool} {params found : RouteParams} {route : Route ω}
    (h : findRoute env method path routes pathMatched params = (.route route, found)) :
    ∃ previous, route.pathMatch env path previous = (true, found) := by
  induction routes generalizing pathMatched params with
  | nil => cases pathMatched <;> cases h
  | cons first rest ih =>
    rw [findRoute] at h
    split at h
    · exact ih h
    · split at h
      · exact ih h
      · next hmatch =>
        split at h
        · cases h
          exact ⟨params, hmatch⟩
        · exact ih h

/-- The parameters of a handshake are those of the route that was found. -/
theorem params_of_findWebSocket {path : Text} {routes : List (Route ω)} {i j : ℕ}
    {params found : RouteParams} {route : Route ω}
    (h : findWebSocket env path routes i params = some (j, route, found)) :
    route ∈ routes ∧ ∃ previous, route.pathMatch env path previous = (true, found) := by
  induction routes generalizing i params with
  | nil => cases h
  | cons first rest ih =>
    rw [findWebSocket] at h
    split at h
    · split at h
      · next hmatch =>
        cases h
        exact ⟨List.mem_cons_self, params, hmatch⟩
      · exact (ih h).imp (List.mem_cons_of_mem first) id
    · exact (ih h).imp (List.mem_cons_of_mem first) id

/-! ### The copy of upgrade() -/

/-- User functions cannot change the copy, which is private. -/
def Handler.KeepsParams : Handler ω → Prop
  | .http _ => True
  | .webSocket handler => ∀ req up, (handler req up).2.ws.params = up.ws.params

/-- Functions that leave the parameters alone do so in a row. -/
theorem runUpgrade_params {req : Request} {handlers : List (Handler ω)}
    (hkeeps : ∀ handler ∈ handlers, handler.KeepsParams) (up : Upgrade ω) :
    (runUpgrade req handlers up).2.ws.params = up.ws.params := by
  induction handlers generalizing up with
  | nil => rfl
  | cons handler rest ih =>
    obtain ⟨hfirst, hrest⟩ := List.forall_mem_cons.1 hkeeps
    cases handler with
    | http handler => exact ih hrest up
    | webSocket handler =>
      have hsame : (handler req up).2.ws.params = up.ws.params := hfirst req up
      rw [runUpgrade]
      split
      · next up' hup =>
        rw [hup] at hsame
        exact (ih hrest up').trans hsame
      · exact hsame

/-- However the handshake goes on, the context has the parameters of the match. -/
theorem upgrade_params {r : Router env ω} {req : Request} {path : Text} {i : ℕ} {route : Route ω}
    {params : RouteParams} (hpath : env.path req.target = some path)
    (hfound : findWebSocket env path r.routes 0 .empty = some (i, route, params))
    (hkeeps : ∀ handler ∈ route.preMiddlewares, handler.KeepsParams) (up : Upgrade ω)
    (response : HttpResponse) : (r.upgrade req up response).up.ws.params = params.toList := by
  have hrefused : ∀ (up : Upgrade ω) (x : Outcome × Exchange ω),
      (refuseWith up x).up.ws = up.ws := by
    rintro up ⟨outcome, x⟩
    cases outcome <;> rfl
  have hkept : ∀ {up up' : Upgrade ω} {verdict : Verdict},
      runUpgrade req route.preMiddlewares up = (verdict, up') →
        up'.ws.params = up.ws.params := by
    intro up up' verdict hup
    have hsame : (runUpgrade req route.preMiddlewares up).2.ws.params = up.ws.params :=
      runUpgrade_params hkeeps up
    rwa [hup] at hsame
  unfold Router.upgrade
  dsimp only
  rw [hpath]
  dsimp only
  rw [hfound]
  dsimp only
  split
  · next hup => exact (congrArg (·.params) (hrefused _ _)).trans (hkept hup)
  · next hup => exact (congrArg (·.params) (hrefused _ _)).trans (hkept hup)
  · next hup => exact hkept hup

/-- **`RouteParams` is a plain association list**, and both lookups read it so. -/
theorem params_behave_as_list :
    (∀ calls : List ParamCall,
      let params := calls.foldl ParamCall.run .empty
      let list := calls.foldl ParamCall.record []
      params.size = list.length ∧
        (∀ (σ : Type v) (fn : σ → Text → Text → σ) (s : σ),
          params.forEach fn s = list.foldl (fun s param ↦ fn s param.1 param.2) s) ∧
        ∀ key, params.get key = firstValue list key) ∧
    ∀ (env : Env) (ω : Type u) (r http : Router env ω) (req req' : Request) (path : Text) (i : ℕ)
      (route route' : Route ω) (params params' : RouteParams) (up : Upgrade ω) (x : Exchange ω)
      (response : HttpResponse), env.path req.target = some path →
      findWebSocket env path r.routes 0 .empty = some (i, route, params) →
      (∀ handler ∈ route.preMiddlewares, handler.KeepsParams) →
      findRoute env req'.method path http.routes false .empty = (.route route', params') →
      route'.pattern = route.pattern → route'.paramNames = route.paramNames →
      x.params = some params' →
      ∀ key, (r.upgrade req up response).up.ws.urlParam key = x.urlParam key := by
  refine ⟨fun calls ↦ ?_, ?_⟩
  · have hempty : RouteParams.empty.Ordered := fun _ ↦ rfl
    have hlist := hempty.toList_foldl_run calls
    have hnil : RouteParams.empty.toList = [] := rfl
    rw [hnil] at hlist
    refine ⟨?_, fun σ fn s ↦ ?_, fun key ↦ ?_⟩
    · rw [RouteParams.size_eq_length, hlist]
    · rw [RouteParams.forEach_eq_foldl, hlist]
    · rw [RouteParams.get_eq_firstValue, hlist]
  · intro env ω r http req req' path i route route' params params' up x response hpath hfound
      hkeeps hroute hpattern hnames hx key
    obtain ⟨-, previous, hmatch⟩ := params_of_findWebSocket hfound
    obtain ⟨previous', hmatch'⟩ := params_of_findRoute hroute
    rw [pathMatch_congr hpattern hnames] at hmatch'
    have hsame : params.toList = params'.toList := by
      have h : (route.pathMatch env path previous).2.toList =
          (route.pathMatch env path previous').2.toList :=
        pathMatch_toList route path previous previous'
      rwa [hmatch, hmatch'] at h
    rw [WebSocketContext.urlParam_eq, upgrade_params hpath hfound hkeeps, hsame, Exchange.urlParam,
      hx]
    exact (params'.get_eq_firstValue key).symm

/-- Libraries for which every path has nine captures. -/
def ninePaths : Env where
  asio := ⟨fun _ ↦ none, fun _ ↦ [], id, id⟩
  beast := plainBeast
  fullMatch _ _ := some ["1".toList, "2".toList, "3".toList, "4".toList, "5".toList, "6".toList,
    "7".toList, "8".toList, "9".toList]
  path target := some target

/-- A route with nine parameters, one more than the array has room for. -/
def nineRoute (handler : Handler Unit) : Route Unit where
  handler := handler
  pattern := []
  path := []
  paramNames := ["a".toList, "b".toList, "c".toList, "d".toList, "e".toList, "f".toList,
    "g".toList, "h".toList, "i".toList]
  methods := [.get]
  preMiddlewares := []
  postMiddlewares := []

/-- The same route for HTTP requests and for WebSocket handshakes. -/
def nineRouter : Router ninePaths Unit where
  routes := [nineRoute (.http fun _ x ↦ (.returned, x)),
    nineRoute (.webSocket fun _ up ↦ (.accepts, up))]

theorem params_behave_as_list_nine :
    let x : Exchange Unit :=
      { params := some (findRoute ninePaths .get [] nineRouter.routes false .empty).2, world := () }
    (nineRouter.upgrade { method := .get, target := [] } ⟨{}, ()⟩ {}).up.ws.urlParam "i".toList =
      x.urlParam "i".toList ∧ x.urlParam "i".toList = "9".toList :=
  ⟨params_behave_as_list.{0, 0}.2 ninePaths Unit nineRouter nineRouter
    { method := .get, target := [] } { method := .get, target := [] } [] 1 _ _ _ _ _ _ _ rfl rfl
    (fun _ h ↦ absurd h List.not_mem_nil) rfl rfl rfl rfl _, rfl⟩

end CppGate.Routing
