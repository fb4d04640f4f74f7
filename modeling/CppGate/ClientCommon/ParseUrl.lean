import CppGate.Foundations.UriGrammar
import CppGate.HttpClient.Call

/-!
# What the clients make of a URL

`parseUrl` of `ClientCommon.cpp`: a URL becomes what a client connects to, what it writes into the
Host field and the request line, and the key under which the connection is kept for the next
request.

* The key keeps destinations apart, although the decoded host in it may contain anything
  (`destination_of_key`): a scheme contains no colon, and neither does a port.
* The port is the scheme's where the URL has none (`parseUrl_conforms_iff`). A URL with a colon and
  nothing behind it has a port for `has_port()`, an empty one.
-/

namespace CppGate.ClientCommon

open Uri HttpClient

/-! ### The function -/

/-- `UrlKind`. -/
inductive UrlKind
  | http
  | websocket
  deriving DecidableEq, Repr

def UrlKind.plain : UrlKind → Text
  | .http => "http".toList
  | .websocket => "ws".toList

def UrlKind.secure : UrlKind → Text
  | .http => "https".toList
  | .websocket => "wss".toList

/-- `Target`. -/
structure Target where
  tls : Bool
  /-- For DNS and SNI, IPv6 without brackets. -/
  host : Text
  port : Text
  hostHeader : Text
  target : Text
  /-- For connection reuse. -/
  key : Text
  deriving DecidableEq, Repr

/-- The port of a scheme. -/
def defaultPort (tls : Bool) : Text :=
  if tls then "443".toList else "80".toList

/-- The address or the name that is connected to: `host_ipv6_address()` for an IPv6 address, else
`host()`. -/
def connectHost (lib : Addresses) (host : Host) : Text :=
  match host with
  | .literal address => (lib.format address).getD (percentDecode host.text)
  | .regName text => percentDecode text

/-- The second half of parseUrl(), for a URL with this authority. -/
def makeTarget (lib : Addresses) (u : Url) (a : Authority) (tls : Bool) : Target :=
  let host := connectHost lib a.host
  let port := a.port.getD (defaultPort tls)
  let isDefault := a.port.isNone || port == defaultPort tls
  { tls
    host
    port
    hostHeader := if isDefault && a.port.isSome then a.host.text else hostPort a.host a.port
    target := (if u.path.isEmpty then ['/'] else u.path) ++ after '?' u.query
    key := u.scheme ++ "://".toList ++ host ++ ":".toList ++ port }

/-- `parseUrl`. -/
def parseUrl (lib : Addresses) (url : Text) (kind : UrlKind) : Except ClientError Target :=
  match parse lib url with
  | none => .error .invalidUrl
  | some u =>
    match u.authority with
    | none => .error .invalidUrl
    | some a =>
      if (percentDecode a.host.text).isEmpty then
        .error .invalidUrl
      else if Text.iequals u.scheme kind.secure then
        .ok (makeTarget lib u a true)
      else if Text.iequals u.scheme kind.plain then
        .ok (makeTarget lib u a false)
      else
        .error .unsupportedScheme

/-! ### Absolute URLs -/

variable {lib : Addresses} {url : Text} {kind : UrlKind}

/-- The text is an absolute URL with a host, and these are its parts. -/
structure IsUrl (lib : Addresses) (url : Text) (u : Url) (a : Authority) : Prop where
  valid : u.valid lib = true
  text : url = u.text
  authority : u.authority = some a
  host : a.host.text ≠ []

/-- The scheme is one of the kind. -/
def UrlKind.Supports (kind : UrlKind) (scheme : Text) : Prop :=
  Text.iequals scheme kind.secure = true ∨ Text.iequals scheme kind.plain = true

theorem isUrl_unique {u v : Url} {a b : Authority} (hu : IsUrl lib url u a)
    (hv : IsUrl lib url v b) : u = v ∧ a = b := by
  obtain rfl : u = v := Option.some.inj
    ((parse_eq_some_iff.2 ⟨hu.valid, hu.text⟩).symm.trans (parse_eq_some_iff.2 ⟨hv.valid, hv.text⟩))
  exact ⟨rfl, Option.some.inj (hu.authority.symm.trans hv.authority)⟩

/-- What parseUrl() does with an absolute URL. -/
theorem parseUrl_of_isUrl {u : Url} {a : Authority} (h : IsUrl lib url u a) (kind : UrlKind) :
    parseUrl lib url kind =
      if Text.iequals u.scheme kind.secure then .ok (makeTarget lib u a true)
      else if Text.iequals u.scheme kind.plain then .ok (makeTarget lib u a false)
      else .error .unsupportedScheme := by
  have hhost : (percentDecode a.host.text).isEmpty ≠ true := by
    rw [isEmpty_percentDecode, ne_eq, List.isEmpty_iff]
    exact h.host
  rw [parseUrl, parse_eq_some_iff.2 ⟨h.valid, h.text⟩]
  dsimp only
  rw [h.authority]
  exact if_neg hhost

/-- What else is rejected. -/
theorem parseUrl_of_not_isUrl (h : ∀ u a, ¬IsUrl lib url u a) (kind : UrlKind) :
    parseUrl lib url kind = .error .invalidUrl := by
  rw [parseUrl]
  cases hparse : parse lib url with
  | none => rfl
  | some u =>
    obtain ⟨hvalid, htext⟩ := parse_eq_some_iff.1 hparse
    dsimp only
    cases hauthority : u.authority with
    | none => rfl
    | some a =>
      refine if_pos ?_
      by_contra hhost
      rw [isEmpty_percentDecode, List.isEmpty_iff] at hhost
      exact h u a ⟨hvalid, htext, hauthority, hhost⟩

/-- What parseUrl() accepts. -/
theorem isUrl_of_parseUrl {t : Target} (h : parseUrl lib url kind = .ok t) :
    ∃ u a, IsUrl lib url u a ∧ t = makeTarget lib u a (Text.iequals u.scheme kind.secure) := by
  by_cases hurl : ∃ u a, IsUrl lib url u a
  · obtain ⟨u, a, hurl⟩ := hurl
    refine ⟨u, a, hurl, ?_⟩
    rw [parseUrl_of_isUrl hurl] at h
    split_ifs at h with hsecure hplain
    · rw [hsecure]
      exact (Except.ok.inj h).symm
    · rw [Bool.eq_false_iff.2 hsecure]
      exact (Except.ok.inj h).symm
  · rw [parseUrl_of_not_isUrl fun u a hu ↦ hurl ⟨u, a, hu⟩] at h
    cases h

/-! ### Keys -/

/-- A port contains no colon. -/
theorem not_mem_port {u : Url} {a : Authority} (h : IsUrl lib url u a) (tls : Bool) :
    ':' ∉ a.port.getD (defaultPort tls) := by
  have hvalid := h.valid
  simp only [Url.valid, h.authority, Authority.valid, Bool.and_eq_true, Option.all_eq_true,
    List.all_eq_true] at hvalid
  obtain ⟨⟨⟨-, ⟨-, hport⟩, -⟩, -⟩, -⟩ := hvalid
  cases hform : a.port with
  | none => cases tls <;> decide
  | some port => exact fun hmem ↦ absurd (hport port hform ':' hmem) (by decide)

/-- **A key stands for one destination**: two URLs of one kind with the same key are for the same
host and port, with the same protection. -/
theorem destination_of_key {url url' : Text} {s t : Target}
    (hs : parseUrl lib url kind = .ok s) (ht : parseUrl lib url' kind = .ok t)
    (hkey : s.key = t.key) : s.tls = t.tls ∧ s.host = t.host ∧ s.port = t.port := by
  obtain ⟨u, a, hu, rfl⟩ := isUrl_of_parseUrl hs
  obtain ⟨v, b, hv, rfl⟩ := isUrl_of_parseUrl ht
  have hscheme : ∀ {w : Url}, w.valid lib = true → ':' ∉ w.scheme := by
    intro w hw
    simp only [Url.valid, Bool.and_eq_true] at hw
    exact not_mem_scheme hw.1.1.1.1 (by decide) (by decide)
  -- the first colon ends the scheme, the last one the host
  have hsplit : ∀ (w : Url) (c : Authority) (tls : Bool), (makeTarget lib w c tls).key =
      w.scheme ++ ':' :: (('/' :: '/' :: (makeTarget lib w c tls).host) ++
        ':' :: (makeTarget lib w c tls).port) := by
    intro w c tls
    simp [makeTarget]
  rw [hsplit, hsplit] at hkey
  obtain ⟨hsame, hrest⟩ := Text.append_cons_inj (hscheme hu.valid) (hscheme hv.valid) hkey
  obtain ⟨hhost, hport⟩ := Text.append_cons_inj_right (not_mem_port hu _) (not_mem_port hv _) hrest
  refine ⟨?_, (List.cons.inj (List.cons.inj hhost).2).2, hport⟩
  show Text.iequals u.scheme kind.secure = Text.iequals v.scheme kind.secure
  rw [hsame]

/-! ### The normal form -/

/-- The port that a URL stands for. -/
def normalPort (tls : Bool) (port : Option Text) : Text :=
  if (port.getD []).isEmpty then defaultPort tls else port.getD []

/-- What is to be made of an absolute URL of a supported scheme. -/
structure Normal (u : Url) (a : Authority) (tls : Bool) (t : Target) : Prop where
  secure : t.tls = tls
  port : t.port = normalPort tls a.port
  hostHeader : t.hostHeader = a.host.text ++
    if normalPort tls a.port = defaultPort tls then [] else ':' :: normalPort tls a.port
  target : t.target = (if u.path = [] then ['/'] else u.path) ++
    match u.query with
    | some query => '?' :: query
    | none => []

/-- parseUrl() makes the normal form of the URLs that it should accept, and rejects the others
with the right error. -/
structure Conforms (lib : Addresses) (url : Text) (kind : UrlKind) : Prop where
  accepted : ∀ u a, IsUrl lib url u a → kind.Supports u.scheme →
    ∃ t, parseUrl lib url kind = .ok t ∧ Normal u a (Text.iequals u.scheme kind.secure) t
  unsupported : ∀ u a, IsUrl lib url u a → ¬kind.Supports u.scheme →
    parseUrl lib url kind = .error .unsupportedScheme
  invalid : (∀ u a, ¬IsUrl lib url u a) → parseUrl lib url kind = .error .invalidUrl

/-- The URL has a colon behind its host and no port. -/
def EmptyPort (lib : Addresses) (url : Text) (kind : UrlKind) : Prop :=
  ∃ u a, IsUrl lib url u a ∧ kind.Supports u.scheme ∧ a.port = some []

theorem defaultPort_ne_nil (tls : Bool) : defaultPort tls ≠ [] := by
  cases tls <;> decide

theorem target_makeTarget (u : Url) (a : Authority) (tls : Bool) :
    (makeTarget lib u a tls).target = (if u.path = [] then ['/'] else u.path) ++
      match u.query with
      | some query => '?' :: query
      | none => [] := by
  have hquery : after '?' u.query = match u.query with
      | some query => '?' :: query
      | none => [] := by
    cases u.query <;> rfl
  rw [← hquery]
  cases hpath : u.path <;> simp [makeTarget, hpath]

/-- **The target of a URL is normal** if its port is not empty. -/
theorem normal_makeTarget_iff (u : Url) (a : Authority) (tls : Bool) :
    Normal u a tls (makeTarget lib u a tls) ↔ a.port ≠ some [] := by
  constructor
  · intro h hport
    have hempty : (makeTarget lib u a tls).port = [] := by rw [makeTarget, hport]; rfl
    have hnormal := h.port
    rw [hempty, normalPort, hport] at hnormal
    exact defaultPort_ne_nil tls hnormal.symm
  · intro h
    cases hport : a.port with
    | none =>
      refine ⟨rfl, ?_, ?_, target_makeTarget u a tls⟩
      · simp [makeTarget, normalPort, hport]
      · simp [makeTarget, normalPort, hport, hostPort, after]
    | some port =>
      have hne : port ≠ [] := fun hnil ↦ h (hnil ▸ hport)
      have hnormal : normalPort tls (some port) = port := by simp [normalPort, hne]
      refine ⟨rfl, ?_, ?_, target_makeTarget u a tls⟩
      · rw [hport, hnormal, makeTarget, hport]
        rfl
      · rw [hport, hnormal]
        by_cases hdefault : port = defaultPort tls
        · simp [makeTarget, hport, hdefault]
        · simp [makeTarget, hport, hdefault, hostPort, after]

/-- **parseUrl() makes the normal form** of every URL but those whose port is empty. -/
theorem parseUrl_conforms_iff (lib : Addresses) (url : Text) (kind : UrlKind) :
    Conforms lib url kind ↔ ¬EmptyPort lib url kind := by
  constructor
  · rintro h ⟨u, a, hu, hsupports, hport⟩
    obtain ⟨t, ht, hnormal⟩ := h.accepted u a hu hsupports
    obtain ⟨v, b, hv, rfl⟩ := isUrl_of_parseUrl ht
    obtain ⟨rfl, rfl⟩ := isUrl_unique hu hv
    exact (normal_makeTarget_iff u a _).1 hnormal hport
  · intro h
    refine ⟨fun u a hu hsupports ↦ ?_, fun u a hu hsupports ↦ ?_,
      fun hnone ↦ parseUrl_of_not_isUrl hnone kind⟩
    · have hport : a.port ≠ some [] := fun hport ↦ h ⟨u, a, hu, hsupports, hport⟩
      refine ⟨makeTarget lib u a (Text.iequals u.scheme kind.secure), ?_,
        (normal_makeTarget_iff u a _).2 hport⟩
      rw [parseUrl_of_isUrl hu]
      cases hsecure : Text.iequals u.scheme kind.secure with
      | true => rfl
      | false =>
        rw [UrlKind.Supports, hsecure] at hsupports
        exact (if_neg Bool.false_ne_true).trans
          (if_pos (hsupports.resolve_left Bool.false_ne_true))
    · rw [UrlKind.Supports, not_or] at hsupports
      rw [parseUrl_of_isUrl hu, if_neg hsupports.1, if_neg hsupports.2]

/-- No text is an IPv6 address. -/
def noAddresses : Addresses where
  format _ := none
  chars _ h := absurd h Bool.false_ne_true

theorem parseUrl_conforms_default : Conforms noAddresses "http://a.b:80?q#f".toList .http := by
  refine (parseUrl_conforms_iff _ _ _).2 ?_
  rintro ⟨u, a, hu, -, hport⟩
  have hurl : IsUrl noAddresses "http://a.b:80?q#f".toList
      ⟨"http".toList, some ⟨none, .regName "a.b".toList, some "80".toList⟩, [], some ['q'],
        some ['f']⟩
      ⟨none, .regName "a.b".toList, some "80".toList⟩ := ⟨by decide, rfl, rfl, by decide⟩
  obtain ⟨-, rfl⟩ := isUrl_unique hurl hu
  exact absurd hport (by decide)

/-- A colon without a port stays in the Host field, and the port is empty. -/
theorem empty_port_kept : ¬∀ lib url kind, Conforms lib url kind := by
  intro h
  refine (parseUrl_conforms_iff noAddresses "http://a.b:".toList .http).1 (h _ _ _) ?_
  exact ⟨⟨"http".toList, some ⟨none, .regName "a.b".toList, some []⟩, [], none, none⟩,
    ⟨none, .regName "a.b".toList, some []⟩, ⟨by decide, rfl, rfl, by decide⟩,
    Or.inr (by decide), rfl⟩

end CppGate.ClientCommon
