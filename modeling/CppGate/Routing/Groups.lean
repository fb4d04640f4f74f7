import CppGate.Routing.Answers
import CppGate.Routing.Templates

/-!
# Groups of routes

`Router::add` and `Router::group`. A group lets its function register routes in a router of its own
and adds each of them again, with the group's path in front and the group's middlewares before the
route's. So at every level each route is read and compiled once more, and dropped if it does not
compile, in a group already for a part of its path.

`groups_flatten` says that nothing is lost or reordered on the way: a tree of groups registers what
one registers by hand with the paths and the middlewares put together.
-/

namespace CppGate.Routing

open Http

universe u

variable {env : Env} {ω : Type u}

/-! ### Registering routes -/

/-- `Route::Route`. -/
def Route.make (methods : List Verb) (path : Text) (preMiddlewares : List (Handler ω))
    (handler : Handler ω) (postMiddlewares : List (Handler ω)) : Route ω :=
  let (pattern, paramNames) := createRegexPattern path
  { handler, pattern, path, paramNames, methods, preMiddlewares, postMiddlewares }

/-- `pattern->ok()`: whether RE2 accepts a regular expression. -/
abbrev Ok := Text → Bool

/-- `add` for HTTP. -/
def Router.addHttp (ok : Ok) (r : Router env ω) (methods : List Verb) (path : Text)
    (preMiddlewares : List (Handler ω)) (handler : HttpHandler ω)
    (postMiddlewares : List (Handler ω)) : Router env ω :=
  let entry := Route.make methods path preMiddlewares (.http handler) postMiddlewares
  if ok entry.pattern then { r with routes := r.routes ++ [entry] } else r

/-- `add` for WebSockets. -/
def Router.addWebSocket (ok : Ok) (r : Router env ω) (path : Text)
    (preMiddlewares : List (Handler ω)) (handler : WebSocketHandler ω)
    (postMiddlewares : List (Handler ω)) : Router env ω :=
  let entry := Route.make [] path preMiddlewares (.webSocket handler) postMiddlewares
  if ok entry.pattern then { r with routes := r.routes ++ [entry] } else r

/-- `group`. -/
def Router.group (ok : Ok) (r : Router env ω) (root : Text) (preMiddlewares : List (Handler ω))
    (postMiddlewares : List (Handler ω)) (fn : Router env ω → Router env ω) : Router env ω :=
  (fn {}).routes.foldl
    (fun r route ↦
      let pre := preMiddlewares ++ route.preMiddlewares
      let post := postMiddlewares ++ route.postMiddlewares
      let path := root ++ route.path
      match route.handler with
      | .http handler => r.addHttp ok route.methods path pre handler post
      | .webSocket handler => r.addWebSocket ok path pre handler post) r

/-! ### Trees of groups -/

/-- A call of add(). -/
structure Entry (ok : Ok) (ω : Type u) where
  /-- The methods of an HTTP route. -/
  methods : List Verb
  path : Template ok
  preMiddlewares : List (Handler ω)
  handler : Handler ω
  postMiddlewares : List (Handler ω)

/-- What is registered, call by call. -/
inductive Script (ok : Ok) (ω : Type u)
  | done
  | add (entry : Entry ok ω) (rest : Script ok ω)
  | group (root : Template ok) (preMiddlewares postMiddlewares : List (Handler ω))
      (body rest : Script ok ω)

variable {ok : Ok}

/-- The call of add(). -/
def Router.add (r : Router env ω) (entry : Entry ok ω) : Router env ω :=
  match entry.handler with
  | .http handler =>
    r.addHttp ok entry.methods entry.path.text entry.preMiddlewares handler entry.postMiddlewares
  | .webSocket handler =>
    r.addWebSocket ok entry.path.text entry.preMiddlewares handler entry.postMiddlewares

/-- Run the calls. -/
def Script.run : Script ok ω → Router env ω → Router env ω
  | .done, r => r
  | .add entry rest, r => rest.run (r.add entry)
  | .group root pre post body rest, r => rest.run (r.group ok root.text pre post body.run)

/-- The entries of a tree in the order of their registration, each with the paths of the groups it
is in, from the outermost to the innermost, in front of its own, and likewise the middlewares. -/
def Script.entries (root : Template ok) (pre post : List (Handler ω)) :
    Script ok ω → List (Entry ok ω)
  | .done => []
  | .add entry rest =>
    { entry with
      path := root ++ entry.path
      preMiddlewares := pre ++ entry.preMiddlewares
      postMiddlewares := post ++ entry.postMiddlewares } :: rest.entries root pre post
  | .group groupRoot groupPre groupPost body rest =>
    body.entries (root ++ groupRoot) (pre ++ groupPre) (post ++ groupPost) ++
      rest.entries root pre post

/-- What is assumed of RE2: when it accepts the expression of a template, it accepts what is left of
the expression without the first pieces. -/
def AcceptsRests (ok : Ok) : Prop :=
  ∀ s t : Template ok, ok (s ++ t).pattern = true → ok t.pattern = true

/-! ### The route of an entry -/

/-- The route that a call of add() registers. -/
def Entry.route (entry : Entry ok ω) : Route ω :=
  match entry.handler with
  | .http _ =>
    .make entry.methods entry.path.text entry.preMiddlewares entry.handler entry.postMiddlewares
  | .webSocket _ =>
    .make [] entry.path.text entry.preMiddlewares entry.handler entry.postMiddlewares

/-- Whether it is registered at all. -/
def Entry.compiles (entry : Entry ok ω) : Bool :=
  ok entry.path.pattern

/-- The entry inside a group. -/
def Entry.under (root : Template ok) (pre post : List (Handler ω)) (entry : Entry ok ω) :
    Entry ok ω :=
  { entry with
    path := root ++ entry.path
    preMiddlewares := pre ++ entry.preMiddlewares
    postMiddlewares := post ++ entry.postMiddlewares }

/-- A route gets the pattern of its path. -/
theorem make_pattern (methods : List Verb) (path : Template ok) (pre : List (Handler ω))
    (handler : Handler ω) (post : List (Handler ω)) :
    (Route.make methods path.text pre handler post).pattern = path.pattern := by
  rw [Route.make, createRegexPattern_text]

/-- A route is registered behind the others, if its pattern compiles. -/
theorem Entry.add_eq (entry : Entry ok ω) (r : Router env ω) :
    r.add entry =
      { r with routes := r.routes ++ ([entry].filter Entry.compiles).map Entry.route } := by
  rcases entry with ⟨methods, path, pre, handler | handler, post⟩
  · show (if ok (Route.make methods path.text pre (.http handler) post).pattern then _ else _) = _
    rw [make_pattern, List.filter_singleton, Entry.compiles]
    cases ok path.pattern
    · simp
    · rfl
  · show (if ok (Route.make [] path.text pre (.webSocket handler) post).pattern then _ else _) = _
    rw [make_pattern, List.filter_singleton, Entry.compiles]
    cases ok path.pattern
    · simp
    · rfl

/-- Calls of add() append the routes that compile. -/
theorem foldl_add (entries : List (Entry ok ω)) (r : Router env ω) :
    entries.foldl Router.add r =
      { r with routes := r.routes ++ (entries.filter Entry.compiles).map Entry.route } := by
  induction entries generalizing r with
  | nil => simp
  | cons entry entries ih =>
    have hfilter : (entry :: entries).filter Entry.compiles =
        [entry].filter Entry.compiles ++ entries.filter Entry.compiles :=
      List.filter_append [entry] entries
    rw [List.foldl_cons, ih, Entry.add_eq, hfilter, List.map_append, List.append_assoc]

/-- A group adds the routes of its entries again, as entries under it. -/
theorem group_eq (r : Router env ω) (root : Template ok) (pre post : List (Handler ω))
    {fn : Router env ω → Router env ω} {entries : List (Entry ok ω)}
    (hfn : (fn {}).routes = entries.map Entry.route) :
    r.group ok root.text pre post fn =
      (entries.map (Entry.under root pre post)).foldl Router.add r := by
  rw [Router.group, hfn]
  clear hfn
  induction entries generalizing r with
  | nil => rfl
  | cons entry entries ih =>
    rw [List.map_cons, List.foldl_cons, List.map_cons, List.foldl_cons, ih]
    congr 1
    rcases entry with ⟨methods, path, entryPre, handler | handler, entryPost⟩
    all_goals
      rw [Router.add, Entry.under, Template.text_append]
      rfl

/-- What is in the tree under a group is what is in the tree, under the group. -/
theorem entries_eq (root : Template ok) (pre post : List (Handler ω)) (script : Script ok ω) :
    script.entries root pre post =
      (script.entries .empty [] []).map (Entry.under root pre post) := by
  induction script generalizing root pre post with
  | done => rfl
  | add entry rest ih =>
    rw [Script.entries, Script.entries, ih, List.map_cons]
    rfl
  | group groupRoot groupPre groupPost body rest ihBody ihRest =>
    rw [Script.entries, Script.entries, ihRest, ihBody, ihBody (.empty ++ groupRoot),
      List.map_append, List.map_map]
    congr 2
    funext entry
    simp [Entry.under, Template.append_assoc, List.append_assoc]

/-- A group's entries that compile in the group's own router are enough: the others do not compile
with the group's path in front, either. -/
theorem filter_under (hre2 : AcceptsRests ok) (root : Template ok) (pre post : List (Handler ω))
    (entries : List (Entry ok ω)) :
    ((entries.filter Entry.compiles).map (Entry.under root pre post)).filter Entry.compiles =
      (entries.map (Entry.under root pre post)).filter Entry.compiles := by
  rw [List.filter_map, List.filter_map, List.filter_filter]
  congr 1
  refine List.filter_congr fun entry _ ↦ ?_
  rw [Function.comp_apply]
  cases hunder : (entry.under root pre post).compiles with
  | false => rfl
  | true => exact hre2 root entry.path hunder

/-- **A tree registers its entries.** -/
theorem run_eq (hre2 : AcceptsRests ok) (script : Script ok ω) (r : Router env ω) :
    script.run r = (script.entries .empty [] []).foldl Router.add r := by
  induction script generalizing r with
  | done => rfl
  | add entry rest ih =>
    rw [Script.run, Script.entries, List.foldl_cons, ih]
    rfl
  | group root pre post body rest ihBody ihRest =>
    have hbody : (body.run ({} : Router env ω)).routes =
        ((body.entries .empty [] []).filter Entry.compiles).map Entry.route := by
      rw [ihBody, foldl_add]
      rfl
    have hentries : body.entries (.empty ++ root) ([] ++ pre) ([] ++ post) =
        (body.entries .empty [] []).map (Entry.under root pre post) := entries_eq root pre post body
    rw [Script.run, Script.entries, List.foldl_append, ihRest, hentries,
      group_eq r root pre post hbody]
    congr 1
    rw [foldl_add, foldl_add, filter_under hre2]

/-! ### The guarantee -/

/-- **Groups flatten.** The routes of a tree are those of its entries, and every request and every
handshake is dispatched as by a router that got the entries one by one. -/
theorem groups_flatten (hre2 : AcceptsRests ok) (script : Script ok ω) (r : Router env ω) :
    (script.run r).routes = ((script.entries .empty [] []).foldl Router.add r).routes ∧
    (∀ req x, (script.run r).route req x =
      ((script.entries .empty [] []).foldl Router.add r).route req x) ∧
    (∀ req up response, (script.run r).upgrade req up response =
      ((script.entries .empty [] []).foldl Router.add r).upgrade req up response) := by
  rw [run_eq hre2 script r]
  exact ⟨rfl, fun _ _ ↦ rfl, fun _ _ _ ↦ rfl⟩

/-- RE2, on expressions that it accepts. -/
def accepted : Ok := fun _ ↦ true

/-- An RE2 that accepts every pattern accepts the rest of one. -/
theorem acceptsRests_accepted : AcceptsRests accepted :=
  fun _ _ _ ↦ rfl

/-- Literal text without a brace. -/
def Template.ofLiteral (literal : Text) (h : ('{' ∉ literal) := by decide) : Template ok :=
  ⟨[.literal literal], fun _ hpiece ↦ List.mem_singleton.1 hpiece ▸ h⟩

/-- `/users/{id}`. -/
def userPath : Template accepted where
  pieces := [.literal "/users/".toList, .placeholder "id".toList]
  wellFormed := by
    intro piece hpiece
    rcases List.mem_pair.1 hpiece with rfl | rfl
    · show '{' ∉ "/users/".toList
      decide
    · exact ⟨by decide, List.all_eq_true.1 rfl⟩

/-- A group in a group, with a route for HTTP and one for WebSockets, and a route behind it. -/
def nested : Script accepted Unit :=
  .group (.ofLiteral "/api".toList) [.http fun _ x ↦ (.returned, x)] []
    (.group (.ofLiteral "/v1".toList) [] [.webSocket fun _ up ↦ (.accepts, up)]
      (.add ⟨[.get], userPath, [], .http fun _ x ↦ (.threw, x), []⟩
        (.add ⟨[], .ofLiteral "/feed".toList, [], .webSocket fun _ up ↦ (.refuses, up), []⟩ .done))
      .done)
    (.add ⟨[.get], .ofLiteral "/".toList, [], .http fun _ x ↦ (.returned, x), []⟩ .done)

theorem groups_flatten_nested :
    (nested.run ({} : Router plainPaths Unit)).routes =
      ((nested.entries .empty [] []).foldl Router.add ({} : Router plainPaths Unit)).routes ∧
    (nested.run ({} : Router plainPaths Unit)).routes.map Route.pattern =
      ["^\\/api\\/v1\\/users\\/([^/]+)/?$".toList, "^\\/api\\/v1\\/feed/?$".toList,
        "^\\//?$".toList] :=
  ⟨(groups_flatten acceptsRests_accepted nested {}).1, by decide⟩

end CppGate.Routing
