import CppGate.Foundations.Uri
import CppGate.Middleware.OriginPatterns

/-!
# Subdomain patterns and the hosts they let in

The host of an origin that a pattern `scheme://*.domain` lets in. The code looks at the label only,
and there for a slash, a colon or an at sign: a question mark or a number sign ends the host as
well, and so do parts of a scheme or a domain that do not belong there. `strayHost` is the host in
these cases; in all others it is the label with the domain behind it, without the port
(`originHost_eq`). So the host is in the domain exactly if `StaysInDomain` (`in_domain_iff`).
-/

namespace CppGate.Middleware

/-! ### Hosts -/

/-- The host of an origin: in the text behind the first `://`. -/
def originHost (origin : Text) : Text :=
  match Text.indexOf "://".toList origin with
  | some colon => Uri.host (origin.drop (colon + 3))
  | none => []

/-- A subdomain of the domain without its port. -/
def InDomain (domain host : Text) : Prop :=
  ∃ label, label ≠ [] ∧ host = label ++ '.' :: domain.takeWhile (· != ':')

/-- The host of an admitted origin, where it is not the label with the domain: behind a `://` in the
scheme, in front of a query or a fragment in the label, behind a user in the domain. -/
def strayHost (scheme label domain : Text) : Option Text :=
  match Text.indexOf "://".toList scheme with
  | some colon => some (Uri.host (scheme.drop (colon + 3)))
  | none =>
    if label.any Uri.endsPath then some (label.takeWhile fun c ↦ !Uri.endsPath c)
    else if '@' ∈ Uri.authority domain then some (Uri.host domain)
    else none

/-- What keeps the host in the domain: no stray host outside of it, and no path, query or fragment
in the domain. -/
def StaysInDomain (scheme label domain : Text) : Prop :=
  match strayHost scheme label domain with
  | some host => InDomain domain host
  | none => ∀ c ∈ domain.takeWhile (· != ':'), Uri.endsAuthority c = false

/-- The origin with the label in place of the wildcard. -/
def subdomainOrigin (scheme label domain : Text) : Text :=
  scheme ++ ("://".toList ++ (label ++ '.' :: domain))

/-! ### The host of an admitted origin -/

/-- A second `://` ends the authority behind the first. -/
theorem host_append_separator (scheme rest : Text) :
    Uri.host (scheme ++ ("://".toList ++ rest)) = Uri.host scheme := by
  by_cases hend : ∃ c ∈ scheme, Uri.endsAuthority c = true
  · rw [Uri.host, Uri.authority_append_of_mem hend, Uri.host]
  · have hscheme : ∀ c ∈ scheme, Uri.endsAuthority c = false := by
      intro c hc
      rw [Bool.eq_false_iff]
      exact fun hstop ↦ hend ⟨c, hc, hstop⟩
    have hcolon : ∀ c ∈ scheme ++ [':'], Uri.endsAuthority c = false := by
      intro c hc
      rcases List.mem_append.1 hc with hc | hc
      · exact hscheme c hc
      · rw [List.mem_singleton.1 hc]
        rfl
    have hauthority : Uri.authority (scheme ++ ("://".toList ++ rest)) = scheme ++ [':'] := by
      have hassoc : scheme ++ ("://".toList ++ rest) = (scheme ++ [':']) ++ '/' :: '/' :: rest := by
        rw [List.append_assoc]
        rfl
      rw [hassoc, Uri.authority_append_cons hcolon rfl]
    rw [Uri.host, hauthority, Uri.hostOf_append_colon, Uri.host, Uri.authority_eq_self hscheme]

theorem originHost_of_separator {scheme : Text} {colon : ℕ}
    (h : Text.indexOf "://".toList scheme = some colon) (rest : Text) :
    originHost (scheme ++ ("://".toList ++ rest)) = Uri.host (scheme.drop (colon + 3)) := by
  have hlen : colon + 3 ≤ scheme.length := by
    have hlen := congrArg List.length (Text.indexOf_eq_some h)
    rw [List.length_append, List.length_append, List.length_take, List.length_drop] at hlen
    have hthree : "://".toList.length = 3 := rfl
    omega
  rw [originHost, Text.indexOf_append_of_some h]
  dsimp only
  rw [List.drop_append_of_le_length hlen, host_append_separator]

theorem originHost_of_no_separator {scheme : Text} (h : Text.indexOf "://".toList scheme = none)
    (rest : Text) : originHost (scheme ++ ("://".toList ++ rest)) = Uri.host rest := by
  have hfound : Text.indexOf "://".toList (scheme ++ ("://".toList ++ rest)) =
      some scheme.length := Text.indexOf_append_self (by decide) h rest
  rw [originHost, hfound]
  dsimp only
  rw [List.drop_length_add_append]
  rfl

/-- Only a query or a fragment ends the authority in a label. -/
theorem endsAuthority_of_label {label : Text} (hlabel : ∀ c ∈ label, c ∉ ['/', ':', '@']) :
    ∀ c ∈ label, Uri.endsAuthority c = Uri.endsPath c := by
  intro c hc
  have hslash : (c == '/') = false := by
    rw [beq_eq_false_iff_ne]
    rintro rfl
    exact hlabel _ hc (by decide)
  rw [Uri.endsAuthority, hslash, Bool.false_or]

/-- The host of a label with a domain behind it. -/
theorem host_label {label : Text} (hlabel : ∀ c ∈ label, c ∉ ['/', ':', '@']) (domain : Text) :
    Uri.host (label ++ '.' :: domain) =
      if label.any Uri.endsPath then label.takeWhile fun c ↦ !Uri.endsPath c
      else if '@' ∈ Uri.authority domain then Uri.host domain
      else label ++ '.' :: (Uri.authority domain).takeWhile (· != ':') := by
  have hcolon : ':' ∉ label := fun h ↦ hlabel _ h (by decide)
  have hat : '@' ∉ label := fun h ↦ hlabel _ h (by decide)
  have hends := endsAuthority_of_label hlabel
  split
  · next hany =>
    obtain ⟨c, hc, hend⟩ := List.any_eq_true.1 hany
    have hauthority : Uri.authority label = label.takeWhile fun c ↦ !Uri.endsPath c :=
      Text.takeWhile_congr fun c hc ↦ congrArg not (hends c hc)
    have hsub : ∀ c ∈ label.takeWhile fun c ↦ !Uri.endsPath c, c ∈ label :=
      fun c ↦ (List.takeWhile_prefix _).subset (a := c)
    rw [Uri.host, Uri.authority_append_of_mem ⟨c, hc, (hends c hc).trans hend⟩, hauthority,
      Uri.hostOf_of_not_mem fun h ↦ hat (hsub _ h),
      List.takeWhile_eq_self_iff.2 (Text.bne_of_not_mem fun h ↦ hcolon (hsub _ h))]
  next hany =>
  have hopen : ∀ c ∈ label ++ ['.'], Uri.endsAuthority c = false := by
    intro c hc
    rcases List.mem_append.1 hc with hc | hc
    · rw [hends c hc, Bool.eq_false_iff]
      exact fun hend ↦ hany (List.any_eq_true.2 ⟨c, hc, hend⟩)
    · rw [List.mem_singleton.1 hc]
      rfl
  rw [Uri.host, List.append_cons, Uri.authority_append hopen]
  split
  · next hmem => rw [Uri.hostOf_append_of_mem hmem, Uri.host]
  · next hmem =>
    have hfront : ':' ∉ label ++ ['.'] ∧ '@' ∉ label ++ ['.'] := by
      simp [hcolon, hat]
    rw [Uri.hostOf_of_not_mem (by simp [hat, hmem]),
      List.takeWhile_append_of_pos (Text.bne_of_not_mem hfront.1)]
    exact (List.append_cons _ _ _).symm

/-- The host of an admitted origin. -/
theorem originHost_eq {label : Text} (hlabel : ∀ c ∈ label, c ∉ ['/', ':', '@'])
    (scheme domain : Text) :
    originHost (subdomainOrigin scheme label domain) = (strayHost scheme label domain).getD
      (label ++ '.' :: (Uri.authority domain).takeWhile (· != ':')) := by
  rw [subdomainOrigin, strayHost]
  cases hscheme : Text.indexOf "://".toList scheme with
  | some colon => exact originHost_of_separator hscheme _
  | none =>
    rw [originHost_of_no_separator hscheme, host_label hlabel]
    dsimp only
    split
    · rfl
    split <;> rfl

/-! ### The patterns of a policy -/

/-- A wildcard entry gives one pattern. -/
theorem compileOrigin_subdomains {policy policy' : Policy} {entry : Text}
    (h : compileOrigin policy entry = .ok policy') {pattern : Text × Text}
    (hpattern : pattern ∈ policy'.subdomains) :
    pattern ∈ policy.subdomains ∨ ∃ scheme domain,
      entry = scheme ++ ("://*.".toList ++ domain) ∧
        pattern = (scheme ++ "://".toList, '.' :: domain) := by
  rw [compileOrigin] at h
  split at h
  · obtain rfl := Except.ok.inj h
    exact .inl hpattern
  split at h
  · next wildcard hwildcard =>
    obtain rfl := Except.ok.inj h
    rcases List.mem_append.1 hpattern with hpattern | hpattern
    · exact .inl hpattern
    have hentry := Text.indexOf_eq_some hwildcard
    have hlen : (entry.take wildcard).length = wildcard := by
      have hlen := congrArg List.length hentry
      rw [List.length_append, List.length_append, List.length_drop] at hlen
      have hfive : "://*.".toList.length = 5 := rfl
      rw [List.length_take] at hlen ⊢
      omega
    obtain ⟨htake, hdrop⟩ := split_wildcard (entry.take wildcard)
      (entry.drop (wildcard + "://*.".toList.length))
    rw [hlen, ← hentry] at htake hdrop
    refine .inr ⟨_, _, hentry, ?_⟩
    rw [List.mem_singleton.1 hpattern, htake, hdrop]
  · split at h
    · cases h
    · obtain rfl := Except.ok.inj h
      exact .inl hpattern

/-- The patterns of a policy come from the entries with a wildcard. -/
theorem exists_of_mem_subdomains {options : CorsOptions} {policy : Policy}
    (hcompile : compile options = .ok policy) {pattern : Text × Text}
    (hpattern : pattern ∈ policy.subdomains) :
    ∃ scheme domain, scheme ++ ("://*.".toList ++ domain) ∈ options.allowedOrigins ∧
      pattern = (scheme ++ "://".toList, '.' :: domain) := by
  obtain ⟨origins, horigins, -, -, hsubdomains, -⟩ := exists_of_compile hcompile
  refine Fallible.foldlM_invariant (P := fun policy ↦ ∀ pattern ∈ policy.subdomains,
    ∃ scheme domain, scheme ++ ("://*.".toList ++ domain) ∈ options.allowedOrigins ∧
      pattern = (scheme ++ "://".toList, '.' :: domain)) ?_ ?_ horigins pattern
      (hsubdomains ▸ hpattern)
  · intro policy next entry hentry hpolicy hround pattern hpattern
    rcases compileOrigin_subdomains hround hpattern with hold | ⟨scheme, domain, rfl, rfl⟩
    · exact hpolicy pattern hold
    · exact ⟨scheme, domain, hentry, rfl⟩
  · exact fun pattern hnone ↦ absurd hnone List.not_mem_nil

/-! ### The guarantee -/

theorem endsPath_of_not_stray {scheme label domain : Text}
    (h : strayHost scheme label domain = none) : ∀ c ∈ label, Uri.endsPath c = false := by
  rw [strayHost] at h
  split at h
  · cases h
  split at h
  · cases h
  · next hlabel =>
    intro c hc
    rw [Bool.eq_false_iff]
    exact fun hend ↦ hlabel (List.any_eq_true.2 ⟨c, hc, hend⟩)

/-- Without a stray host the domain has to be the end of the authority. -/
theorem in_domain_of_authority_iff {label : Text} (hne : label ≠ [])
    (hlabel : ∀ c ∈ label, Uri.endsAuthority c = false) (domain : Text) :
    InDomain domain (label ++ '.' :: (Uri.authority domain).takeWhile (· != ':')) ↔
      ∀ c ∈ domain.takeWhile (· != ':'), Uri.endsAuthority c = false := by
  have hcomm : (Uri.authority domain).takeWhile (· != ':') =
      Uri.authority (domain.takeWhile (· != ':')) := by
    rw [Uri.authority, Uri.authority, List.takeWhile_takeWhile, List.takeWhile_takeWhile]
    exact Text.takeWhile_congr fun c _ ↦ decide_eq_decide.2 and_comm
  rw [hcomm]
  constructor
  · rintro ⟨front, -, hhost⟩ c hc
    have hmem : c ∈ label ++ '.' :: Uri.authority (domain.takeWhile (· != ':')) :=
      hhost ▸ List.mem_append_right _ (List.mem_cons_of_mem _ hc)
    rcases List.mem_append.1 hmem with hmem | hmem
    · exact hlabel c hmem
    rcases List.mem_cons.1 hmem with rfl | hmem
    · rfl
    · exact Uri.endsAuthority_of_mem hmem
  · intro hdomain
    exact ⟨label, hne, by rw [Uri.authority_eq_self hdomain]⟩

/-- **Only subdomains are admitted** exactly if the host stays in the domain: for every pattern of
the policy and every origin that it lets in. -/
theorem in_domain_iff {options : CorsOptions} {policy : Policy}
    (hcompile : compile options = .ok policy) {pattern : Text × Text}
    (hpattern : pattern ∈ policy.subdomains) {origin : Text}
    (hadmits : Policy.matchesSubdomain origin pattern = true) :
    ∃ scheme label domain, scheme ++ ("://*.".toList ++ domain) ∈ options.allowedOrigins ∧
      pattern = (scheme ++ "://".toList, '.' :: domain) ∧
        origin = subdomainOrigin scheme label domain ∧
          (InDomain domain (originHost origin) ↔ StaysInDomain scheme label domain) := by
  obtain ⟨scheme, domain, hentry, rfl⟩ := exists_of_mem_subdomains hcompile hpattern
  obtain ⟨label, hne, hlabel, htext⟩ := matchesSubdomain_iff.1 hadmits
  rw [List.append_assoc] at htext
  refine ⟨scheme, label, domain, hentry, rfl, htext, ?_⟩
  have horigin : originHost origin = (strayHost scheme label domain).getD
      (label ++ '.' :: (Uri.authority domain).takeWhile (· != ':')) :=
    htext ▸ originHost_eq hlabel scheme domain
  rw [horigin, StaysInDomain]
  cases hstray : strayHost scheme label domain with
  | some host => exact Iff.rfl
  | none =>
    refine in_domain_of_authority_iff hne (fun c hc ↦ ?_) domain
    rw [endsAuthority_of_label hlabel c hc]
    exact endsPath_of_not_stray hstray c hc

/-- A policy for the subdomains of `example.com`. -/
def exampleOptions : CorsOptions where
  allowedOrigins := ["https://*.example.com".toList]

/-- The pattern of this policy. -/
def examplePattern : Text × Text :=
  ("https://".toList, ".example.com".toList)

/-- `a.example.com` is in the domain. -/
theorem in_domain_iff_example :
    ∃ policy, compile exampleOptions = .ok policy ∧ examplePattern ∈ policy.subdomains ∧
      InDomain "example.com".toList (originHost "https://a.example.com".toList) := by
  obtain ⟨policy, hpolicy⟩ : ∃ policy, compile exampleOptions = .ok policy := ⟨_, rfl⟩
  have hpattern : examplePattern ∈ policy.subdomains := by
    obtain rfl := Except.ok.inj hpolicy
    exact List.mem_cons_self
  have hadmits : Policy.matchesSubdomain "https://a.example.com".toList examplePattern = true := by
    decide
  refine ⟨policy, hpolicy, hpattern, ?_⟩
  obtain ⟨scheme, label, domain, -, hparts, horigin, hiff⟩ :=
    in_domain_iff hpolicy hpattern hadmits
  have hscheme : "https".toList ++ "://".toList = scheme ++ "://".toList := (Prod.mk.inj hparts).1
  obtain rfl : "https".toList = scheme := List.append_cancel_right hscheme
  obtain rfl : "example.com".toList = domain := (List.cons.inj (Prod.mk.inj hparts).2).2
  have htext : "https://".toList ++ (['a'] ++ ".example.com".toList) =
      "https://".toList ++ (label ++ ".example.com".toList) := horigin
  obtain rfl : ['a'] = label := List.append_cancel_right (List.append_cancel_left htext)
  have hdomain : ("example.com".toList.takeWhile (· != ':')).all (!Uri.endsAuthority ·) = true := by
    decide
  exact hiff.2 fun c hc ↦ (Bool.not_eq_true' _).mp (List.all_eq_true.1 hdomain c hc)

/-- An origin of another host is admitted: a question mark in the label ends the host. -/
theorem other_host_admitted :
    ∃ policy, compile exampleOptions = .ok policy ∧ examplePattern ∈ policy.subdomains ∧
      Policy.matchesSubdomain "https://evil.net?.example.com".toList examplePattern = true ∧
        originHost "https://evil.net?.example.com".toList = "evil.net".toList ∧
          ¬ InDomain "example.com".toList "evil.net".toList := by
  refine ⟨_, rfl, List.mem_cons_self, by decide, by decide, ?_⟩
  rintro ⟨label, -, hhost⟩
  have hlen := congrArg List.length hhost
  rw [List.length_append] at hlen
  have htwelve : ('.' :: "example.com".toList.takeWhile (· != ':')).length = 12 := by decide
  have height : "evil.net".toList.length = 8 := by decide
  omega

end CppGate.Middleware
