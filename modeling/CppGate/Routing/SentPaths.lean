import CppGate.Foundations.Uri
import CppGate.Routing.Dispatch

/-!
# The path that is routed

`route` and `upgrade` parse a request target as a URI reference, and match the path of the reference
against the routes; routes that do not have it do not matter (`route_eq_of_sameFor`,
`upgrade_eq_of_sameFor`). A target in origin form is a path and a query, and is one of the forms of
a reference, but not the only one that begins with a slash: behind two slashes a reference has an
authority. So a target is routed by its own path exactly if it does not begin with two slashes
(`routed_as_sent_iff`).
-/

namespace CppGate.Routing

open Http

universe u

variable {env : Env} {ω : Type u}

/-! ### The path of a target -/

/-- What is assumed of Boost.URL: `path()` is the decoded path of the reference. -/
def ReadsReferences (env : Env) : Prop :=
  ∀ target path, env.path target = some path → path = Uri.percentDecode (Uri.path target)

/-- The path of a target in origin form. -/
def sentPath (target : Text) : Text :=
  Uri.percentDecode (Uri.hierarchical target)

/-- A path behind an authority is decoded apart from it. -/
theorem sentPath_of_slashes (rest : Text) :
    ∃ authority : Text, sentPath ('/' :: '/' :: rest) =
      '/' :: '/' :: (authority ++ Uri.percentDecode (Uri.path ('/' :: '/' :: rest))) := by
  have hslash : ('/' : Char) ≠ '%' := by decide
  refine ⟨Uri.percentDecode ((Uri.hierarchical rest).takeWhile (· != '/')), ?_⟩
  have hhead : ∀ c ∈ ((Uri.hierarchical rest).dropWhile (· != '/')).head?,
      Uri.hexDigit c = none := by
    intro c hc
    have hstop := List.head?_dropWhile_not (· != '/') (Uri.hierarchical rest)
    rw [hc] at hstop
    obtain rfl : c = '/' := by simpa using hstop
    rfl
  rw [sentPath, Uri.hierarchical_cons (by decide), Uri.hierarchical_cons (by decide),
    Uri.percentDecode_cons fun _ _ _ h ↦ absurd h hslash,
    Uri.percentDecode_cons fun _ _ _ h ↦ absurd h hslash, Uri.path_of_slashes,
    ← Uri.percentDecode_append hhead, List.takeWhile_append_dropWhile]

/-- The path of the reference is what was sent, but for an authority. -/
theorem eq_sentPath_iff (hrfc : ReadsReferences env) {target path : Text}
    (horigin : ['/'] <+: target) (hpath : env.path target = some path) :
    path = sentPath target ↔ ¬ ['/', '/'] <+: target := by
  obtain ⟨rest, rfl⟩ := horigin
  rw [hrfc _ _ hpath]
  constructor
  · rintro h ⟨rest', hrest⟩
    obtain ⟨authority, hsent⟩ := sentPath_of_slashes rest'
    obtain rfl : '/' :: rest' = rest := (List.cons.inj hrest).2
    have hlen := congrArg List.length (h.trans hsent)
    rw [List.length_cons, List.length_cons, List.length_append] at hlen
    exact absurd hlen (by simp only [List.cons_append, List.nil_append]; omega)
  · intro h
    have hhead : rest.head? ≠ some '/' := by
      intro hhead
      obtain ⟨rest, rfl⟩ := List.head?_eq_some_iff.1 hhead
      exact h ⟨rest, rfl⟩
    exact congrArg Uri.percentDecode (Uri.path_of_slash hhead)

/-! ### Routes that do not have the path -/

/-- The same route, or two routes of one kind and one pattern that does not have the path. -/
structure SameFor (env : Env) (path : Text) (route route' : Route ω) : Prop where
  isWebSocket : route'.isWebSocket = route.isWebSocket
  pattern : route'.pattern = route.pattern
  same : route.hasPath env path = true → route' = route

/-- Routes that match alike have the same paths. -/
theorem SameFor.hasPath {path : Text} {route route' : Route ω}
    (h : SameFor env path route route') : route'.hasPath env path = route.hasPath env path := by
  rw [Route.hasPath, Route.hasPath, h.pattern]

/-- The router with other routes. -/
def Router.withRoutes (r : Router env ω) (routes : List (Route ω)) : Router env ω :=
  { r with routes }

variable {path : Text} {pairs : List (Route ω × Route ω)}

/-- A route without the path is passed over. -/
theorem pathMatch_of_not_hasPath {route : Route ω} (h : route.hasPath env path = false)
    (params : RouteParams) : route.pathMatch env path params = (false, params.reset) := by
  rw [Route.hasPath] at h
  rw [Route.pathMatch]
  cases hmatch : env.fullMatch route.pattern path with
  | none => rfl
  | some captures =>
    rw [hmatch] at h
    exact absurd h.symm Bool.false_ne_true

/-- The loop of route() finds the same. -/
theorem findRoute_eq_of_sameFor (h : ∀ pair ∈ pairs, SameFor env path pair.1 pair.2)
    (method : Verb) (pathMatched : Bool) (params : RouteParams) :
    findRoute env method path (pairs.map Prod.snd) pathMatched params =
      findRoute env method path (pairs.map Prod.fst) pathMatched params := by
  induction pairs generalizing pathMatched params with
  | nil => rfl
  | cons pair pairs ih =>
    have hpair := h pair List.mem_cons_self
    have hrest := ih fun p hp ↦ h p (List.mem_cons_of_mem pair hp)
    rw [List.map_cons, List.map_cons, findRoute, findRoute]
    cases hhas : pair.1.hasPath env path with
    | true => simp only [hpair.same hhas, hrest]
    | false =>
      have hhas' := hpair.hasPath.trans hhas
      simp only [hpair.isWebSocket, pathMatch_of_not_hasPath hhas, pathMatch_of_not_hasPath hhas',
        hrest]

/-- The loop of upgrade() finds the same. -/
theorem findWebSocket_eq_of_sameFor (h : ∀ pair ∈ pairs, SameFor env path pair.1 pair.2) (i : ℕ)
    (params : RouteParams) :
    findWebSocket env path (pairs.map Prod.snd) i params =
      findWebSocket env path (pairs.map Prod.fst) i params := by
  induction pairs generalizing i params with
  | nil => rfl
  | cons pair pairs ih =>
    have hpair := h pair List.mem_cons_self
    have hrest := ih fun p hp ↦ h p (List.mem_cons_of_mem pair hp)
    rw [List.map_cons, List.map_cons, findWebSocket, findWebSocket]
    cases hhas : pair.1.hasPath env path with
    | true => simp only [hpair.same hhas, hrest]
    | false =>
      have hhas' := hpair.hasPath.trans hhas
      simp only [hpair.isWebSocket, pathMatch_of_not_hasPath hhas, pathMatch_of_not_hasPath hhas',
        hrest]

/-- **Routes without the path do not matter** to a request. -/
theorem route_eq_of_sameFor (h : ∀ pair ∈ pairs, SameFor env path pair.1 pair.2)
    (r : Router env ω) {req : Request} (hpath : env.path req.target = some path) (x : Exchange ω) :
    (r.withRoutes (pairs.map Prod.snd)).route req x =
      (r.withRoutes (pairs.map Prod.fst)).route req x := by
  rw [Router.route, Router.route, hpath]
  simp only [Router.withRoutes, findRoute_eq_of_sameFor h]

/-- Nor do they matter to a handshake. -/
theorem upgrade_eq_of_sameFor (h : ∀ pair ∈ pairs, SameFor env path pair.1 pair.2)
    (r : Router env ω) {req : Request} (hpath : env.path req.target = some path) (up : Upgrade ω)
    (response : HttpResponse) :
    (r.withRoutes (pairs.map Prod.snd)).upgrade req up response =
      (r.withRoutes (pairs.map Prod.fst)).upgrade req up response := by
  rw [Router.upgrade, Router.upgrade, hpath]
  simp only [Router.withRoutes, findWebSocket_eq_of_sameFor h]

/-! ### The guarantee -/

/-- Only the functions of routes that have the path are used for the request. -/
def RoutedBy (env : Env) (ω : Type u) (path : Text) (req : Request) : Prop :=
  ∀ (r : Router env ω) (pairs : List (Route ω × Route ω)),
    (∀ pair ∈ pairs, SameFor env path pair.1 pair.2) →
      (∀ x : Exchange ω, (r.withRoutes (pairs.map Prod.snd)).route req x =
        (r.withRoutes (pairs.map Prod.fst)).route req x) ∧
      ∀ (up : Upgrade ω) (response : HttpResponse),
        (r.withRoutes (pairs.map Prod.snd)).upgrade req up response =
          (r.withRoutes (pairs.map Prod.fst)).upgrade req up response

/-- **A target is routed by the path that was sent** exactly if it does not begin with two
slashes. -/
theorem routed_as_sent_iff (hrfc : ReadsReferences env) {req : Request} {path : Text}
    (horigin : ['/'] <+: req.target) (hpath : env.path req.target = some path) :
    (path = sentPath req.target ↔ ¬ ['/', '/'] <+: req.target) ∧
    (¬ ['/', '/'] <+: req.target → RoutedBy env ω (sentPath req.target) req) := by
  have hiff := eq_sentPath_iff hrfc horigin hpath
  refine ⟨hiff, fun h ↦ ?_⟩
  obtain rfl := hiff.2 h
  intro r pairs hpairs
  exact ⟨route_eq_of_sameFor hpairs r hpath, upgrade_eq_of_sameFor hpairs r hpath⟩

/-! ### An authority in front of a path -/

/-- Boost.URL for the references that it accepts, and RE2 for the pattern of `/admin`. -/
def references : Env :=
  { plainPaths with
    fullMatch := fun pattern path ↦
      if pattern = "^\\/admin/?$".toList ∧ (path = "/admin".toList ∨ path = "/admin/".toList) then
        some []
      else
        none
    path := fun target ↦ some (Uri.percentDecode (Uri.path target)) }

theorem readsReferences_references : ReadsReferences references :=
  fun _ _ h ↦ (Option.some.inj h).symm

/-- `/%61dmin?page=1`. -/
def escapedAdmin : Request :=
  { method := .get, target := "/%61dmin?page=1".toList }

theorem routed_as_sent_iff_admin :
    ("/admin".toList = sentPath escapedAdmin.target ↔ ¬ ['/', '/'] <+: escapedAdmin.target) ∧
    RoutedBy references Unit (sentPath escapedAdmin.target) escapedAdmin := by
  have hpath : references.path escapedAdmin.target = some "/admin".toList := by decide
  have horigin : ['/'] <+: escapedAdmin.target := by decide
  have h : _ ∧ (_ → RoutedBy references Unit (sentPath escapedAdmin.target) escapedAdmin) :=
    routed_as_sent_iff readsReferences_references horigin hpath
  exact ⟨h.1, h.2 (by decide)⟩

/-- A router with one route, `/admin`. -/
def adminRouter : Router references Unit where
  routes := [
    { handler := .http fun _ x ↦ (.returned, { x with response.status := 200 })
      pattern := "^\\/admin/?$".toList
      path := "/admin".toList
      paramNames := []
      methods := [.get]
      preMiddlewares := []
      postMiddlewares := [] }]

/-- `//evil/admin` reaches `/admin`. -/
theorem admin_behind_authority :
    ¬ (∀ (env : Env), ReadsReferences env → ∀ target path : Text, ['/'] <+: target →
      env.path target = some path → path = sentPath target) ∧
    (adminRouter.route { method := .get, target := "//evil/admin".toList }
      { world := () }).2.response.status = 200 ∧
    (adminRouter.routes.all fun route ↦
      !route.hasPath references (sentPath "//evil/admin".toList)) = true := by
  refine ⟨fun h ↦ ?_, by decide, by decide⟩
  have hsent := h references readsReferences_references "//evil/admin".toList "/admin".toList
    ⟨_, rfl⟩ (by decide)
  exact absurd hsent (by decide)

end CppGate.Routing
