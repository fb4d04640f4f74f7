import CppGate.Middleware.CorsHeaders

/-!
# Cached responses

Two responses that a shared cache must keep apart: their Access-Control headers differ. They have to
say so, with `Origin` in `Vary` (`SafeToCache`). The middleware sets `Vary` unless the answer is a
fixed `*`, but that one is given only to requests with an origin. So what it leaves is safe to cache
except for a fixed `*` and two requests of which one has an origin (`safe_to_cache_iff`).
-/

namespace CppGate.Middleware

open Http Routing

universe u

variable {env : Env} {ω : Type u} {middleware : HttpHandler ω}

/-! ### Vary -/

/-- A field `Vary` lists `Origin`. -/
def VariesByOrigin (res : HttpResponse) : Prop :=
  ∃ value ∈ equalRange res.fields "Vary".toList, ∃ name ∈ value.splitOn ',',
    Text.iequals (Text.trim name) "Origin".toList = true

instance (res : HttpResponse) : Decidable (VariesByOrigin res) :=
  inferInstanceAs (Decidable (∃ value ∈ equalRange res.fields "Vary".toList,
    ∃ name ∈ value.splitOn ',', Text.iequals (Text.trim name) "Origin".toList = true))

/-- A cache may give one response for the other, or knows that it may not. -/
def SafeToCache (res res' : HttpResponse) : Prop :=
  accessControl res.fields = accessControl res'.fields ∨ (VariesByOrigin res ∧ VariesByOrigin res')

instance (res res' : HttpResponse) : Decidable (SafeToCache res res') :=
  inferInstanceAs (Decidable (_ ∨ _))

theorem variesByOrigin_set (res : HttpResponse) :
    VariesByOrigin (res.header "Vary".toList "Origin".toList) := by
  refine ⟨"Origin".toList, ?_, "Origin".toList, by decide, by decide⟩
  rw [HttpResponse.header, equalRange_set_self]
  exact List.mem_cons_self

/-- Another field than Vary says nothing of what a response varies by. -/
theorem variesByOrigin_header (res : HttpResponse) {name : Text}
    (hname : Text.iequals name "Vary".toList = false) (value : Text) :
    VariesByOrigin (res.header name value) ↔ VariesByOrigin res := by
  rw [VariesByOrigin, HttpResponse.header, equalRange_set_ne res.fields hname, VariesByOrigin]

/-! ### Requests other than preflights -/

/-- What the middleware leaves for an origin that is allowed, on a request that is no preflight. -/
def Policy.expose (policy : Policy) (origin : Text) (res : HttpResponse) : HttpResponse :=
  let res := policy.grant origin res
  if policy.exposed != [] then res.header "Access-Control-Expose-Headers".toList policy.exposed
  else res

/-- What the middleware leaves on the response to a request that is no preflight. -/
def Policy.simple (policy : Policy) (origin : Text) (res : HttpResponse) : HttpResponse :=
  let res := if policy.varies then res.header "Vary".toList "Origin".toList else res
  if origin ≠ [] ∧ policy.allows origin = true then policy.expose origin res else res

theorem apply_simple (policy : Policy) {req : Request} (hreq : preflight req = false)
    (res : HttpResponse) :
    (policy.apply env req res).2 = policy.simple (header req "Origin".toList) res := by
  rw [Policy.apply, Policy.simple, hreq]
  dsimp only
  generalize (if policy.varies = true then _ else res) = res'
  by_cases horigin : header req "Origin".toList = []
  · rw [if_pos horigin, if_neg fun h ↦ h.1 horigin]
  rw [if_neg horigin]
  cases hallows : policy.allows (header req "Origin".toList) with
  | false =>
    rw [if_pos rfl, if_neg Bool.false_ne_true, if_neg fun h ↦ Bool.false_ne_true h.2]
  | true =>
    have hallowed : header req "Origin".toList ≠ [] ∧ true = true := ⟨horigin, rfl⟩
    rw [if_neg (Bool.noConfusion ·), if_neg Bool.false_ne_true, if_pos hallowed, Policy.expose]
    split <;> rfl

/-- The headers of the policy other than `Vary` do not matter for `Vary`. -/
theorem variesByOrigin_expose (policy : Policy) (origin : Text) (res : HttpResponse) :
    VariesByOrigin (policy.expose origin res) ↔ VariesByOrigin res := by
  have hgrant : VariesByOrigin (policy.grant origin res) ↔ VariesByOrigin res := by
    rw [Policy.grant]
    split
    · rw [variesByOrigin_header _ (by decide), variesByOrigin_header _ (by decide)]
    · exact variesByOrigin_header res (by decide) _
  rw [Policy.expose]
  split
  · exact (variesByOrigin_header _ (by decide) _).trans hgrant
  · exact hgrant

/-- A response varies by Origin if the policy does, or if it did already. -/
theorem variesByOrigin_simple (policy : Policy) (origin : Text) (res : HttpResponse) :
    VariesByOrigin (policy.simple origin res) ↔ policy.varies = true ∨ VariesByOrigin res := by
  have hvary : VariesByOrigin
      (if policy.varies then res.header "Vary".toList "Origin".toList else res) ↔
        policy.varies = true ∨ VariesByOrigin res := by
    split
    · next h => exact iff_of_true (variesByOrigin_set res) (.inl h)
    · next h => exact (or_iff_right h).symm
  rw [Policy.simple]
  split
  · exact (variesByOrigin_expose policy origin _).trans hvary
  · exact hvary

/-! ### The fixed `*` -/

section Fixed

variable {policy : Policy} (hvaries : policy.varies = false)
include hvaries

theorem simple_empty (res : HttpResponse) : policy.simple [] res = res := by
  rw [Policy.simple, hvaries]
  exact if_neg fun h ↦ h.1 rfl

theorem simple_nonempty {origin : Text} (h : origin ≠ []) (res : HttpResponse) :
    policy.simple origin res = policy.expose origin res := by
  have hany : policy.anyOrigin = true := by
    rw [Policy.varies, Bool.not_eq_false', Bool.and_eq_true] at hvaries
    exact hvaries.1
  have hallows : policy.allows origin = true := by
    rw [Policy.allows, hany, Bool.true_or, Bool.true_or]
  rw [Policy.simple, hvaries]
  exact if_pos ⟨h, hallows⟩

/-- All origins are given the same. -/
theorem expose_congr (origin origin' : Text) (res : HttpResponse) :
    policy.expose origin res = policy.expose origin' res := by
  have hgrant : policy.grant origin res = policy.grant origin' res := by
    rw [Policy.grant, Policy.grant, hvaries]
    rfl
  rw [Policy.expose, Policy.expose, hgrant]

/-- A policy that admits everyone says so. -/
theorem allowOrigin_expose (origin : Text) (res : HttpResponse) :
    allowOrigin (policy.expose origin res) = some "*".toList := by
  have hgrant : allowOrigin (policy.grant origin res) = some "*".toList := by
    rw [allowOrigin_grant, hvaries]
    rfl
  rw [Policy.expose]
  split
  · exact (allowOrigin_header _ (by decide) _).trans hgrant
  · exact hgrant

end Fixed

/-! ### The guarantee -/

/-- A response that says nothing about origins yet. -/
def Fresh (res : HttpResponse) : Prop :=
  accessControl res.fields = [] ∧ ¬ VariesByOrigin res

/-- Both requests have an origin or none has, where the answer is a fixed `*`. -/
def OriginsAlike (options : CorsOptions) (req req' : Request) : Prop :=
  "*".toList ∈ options.allowedOrigins → options.allowCredentials = false →
    (header req "Origin".toList = [] ↔ header req' "Origin".toList = [])

/-- When a policy is the same for all origins. -/
theorem varies_eq_false_iff {options : CorsOptions} {policy : Policy}
    (hpolicy : compile options = .ok policy) :
    policy.varies = false ↔
      "*".toList ∈ options.allowedOrigins ∧ options.allowCredentials = false := by
  obtain ⟨hany, hcredentials⟩ := compile_ok hpolicy
  rw [Policy.varies, hany, hcredentials]
  simp

/-- With a fixed `*` the two responses differ if one request has an origin. -/
theorem not_safe_of_empty {policy : Policy} (hvaries : policy.varies = false) {origin : Text}
    (horigin : origin ≠ []) {res : HttpResponse} (hres : Fresh res) :
    ¬ SafeToCache (policy.simple [] res) (policy.simple origin res) := by
  rw [simple_empty hvaries, simple_nonempty hvaries horigin]
  rintro (hsame | ⟨hvary, -⟩)
  · have hnone : allowOrigin res = none := by
      have hempty : accessControl ({} : HttpResponse).fields = [] := rfl
      exact (allowOrigin_congr (hres.1.trans hempty.symm)).trans rfl
    have hstar := (allowOrigin_congr hsame).symm.trans hnone
    rw [allowOrigin_expose hvaries] at hstar
    cases hstar
  · exact hres.2 hvary

theorem SafeToCache.symm {res res' : HttpResponse} (h : SafeToCache res res') :
    SafeToCache res' res :=
  h.imp Eq.symm And.symm

/-- **Responses are safe to cache** if both requests have an origin or none has, or if the answer is
no fixed `*`; and for responses that said nothing about origins before, only then. -/
theorem safe_to_cache_iff {options : CorsOptions} (hcors : cors env options = .ok middleware)
    {req req' : Request} (hreq : preflight req = false) (hreq' : preflight req' = false)
    {x y : Exchange ω} (hxy : x.response = y.response) :
    (OriginsAlike options req req' →
        SafeToCache (middleware req x).2.response (middleware req' y).2.response) ∧
      (Fresh x.response →
        SafeToCache (middleware req x).2.response (middleware req' y).2.response →
          OriginsAlike options req req') := by
  obtain ⟨policy, hpolicy, rfl⟩ := cors_ok hcors
  have hsimple : (policy.middleware env req x).2.response =
      policy.simple (header req "Origin".toList) x.response := apply_simple policy hreq x.response
  have hsimple' : (policy.middleware env req' y).2.response =
      policy.simple (header req' "Origin".toList) x.response :=
    hxy ▸ apply_simple policy hreq' y.response
  rw [hsimple, hsimple', OriginsAlike]
  constructor
  · intro halike
    cases hvaries : policy.varies with
    | true =>
      exact .inr ⟨(variesByOrigin_simple policy _ _).2 (.inl hvaries),
        (variesByOrigin_simple policy _ _).2 (.inl hvaries)⟩
    | false =>
      obtain ⟨hany, hcredentials⟩ := (varies_eq_false_iff hpolicy).1 hvaries
      have hiff := halike hany hcredentials
      left
      by_cases horigin : header req "Origin".toList = []
      · rw [horigin, hiff.1 horigin]
      · rw [simple_nonempty hvaries horigin, simple_nonempty hvaries (mt hiff.2 horigin),
          expose_congr hvaries]
  · intro hfresh hsafe hany hcredentials
    have hvaries := (varies_eq_false_iff hpolicy).2 ⟨hany, hcredentials⟩
    constructor
    · intro horigin
      by_contra horigin'
      rw [horigin] at hsafe
      exact not_safe_of_empty hvaries horigin' hfresh hsafe
    · intro horigin'
      by_contra horigin
      rw [horigin'] at hsafe
      exact not_safe_of_empty hvaries horigin hfresh hsafe.symm

/-- `GET /` without an origin. -/
def bareRequest : Request where
  method := .get
  target := "/".toList

/-- The same from `https://a`. -/
def crossRequest : Request :=
  { bareRequest with fields := [⟨"Origin".toList, "https://a".toList⟩] }

/-- Responses to requests from two origins. -/
theorem safe_to_cache_iff_origins :
    ∃ middleware : HttpHandler Unit, cors plainPaths {} = .ok middleware ∧
      SafeToCache (middleware crossRequest { world := () }).2.response
        (middleware { bareRequest with fields := [⟨"Origin".toList, "https://b".toList⟩] }
          { world := () }).2.response := by
  obtain ⟨middleware, hcors⟩ : ∃ middleware : HttpHandler Unit,
      cors plainPaths {} = .ok middleware := ⟨_, rfl⟩
  refine ⟨middleware, hcors, (safe_to_cache_iff hcors rfl rfl rfl).1 fun _ _ ↦ ?_⟩
  exact iff_of_false (by decide) (by decide)

/-- With a fixed `*` a request without an origin has a response without it, and no `Vary`. -/
theorem star_without_vary :
    ∃ middleware : HttpHandler Unit, cors plainPaths {} = .ok middleware ∧
      preflight bareRequest = false ∧ preflight crossRequest = false ∧
        ¬ SafeToCache (middleware bareRequest { world := () }).2.response
          (middleware crossRequest { world := () }).2.response :=
  ⟨_, rfl, rfl, rfl, by decide⟩

end CppGate.Middleware
