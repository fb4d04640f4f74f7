import CppGate.Foundations.Uri

/-!
# The grammar of URIs

The generic syntax of URIs: which texts are URIs, and what their parts are. A `Url` is a URI in
parts, as they are written; `Url.valid` says what each part may consist of. `parse` takes a text
apart at the first occurrence of each delimiter, from the outside in, and looks at the parts
afterwards. It accepts exactly the texts of valid URIs (`parse_eq_some_iff`), because no part of a
valid one contains the delimiter that ends it.

Which texts are IPv6 addresses is left to a library, and so is how they are printed.
-/

namespace Uri

/-! ### Characters -/

def isAlpha (c : Char) : Bool :=
  decide ('a' ≤ c ∧ c ≤ 'z') || decide ('A' ≤ c ∧ c ≤ 'Z')

def isDigit (c : Char) : Bool :=
  decide ('0' ≤ c ∧ c ≤ '9')

/-- `unreserved`. -/
def isUnreserved (c : Char) : Bool :=
  isAlpha c || isDigit c || "-._~".toList.contains c

/-- `sub-delims`. -/
def isSubDelim (c : Char) : Bool :=
  "!$&'()*+,;=".toList.contains c

/-- What a registered name consists of, besides escapes. -/
def isNameChar (c : Char) : Bool :=
  isUnreserved c || isSubDelim c

/-- What user information consists of, and an address of a future version. -/
def isUserChar (c : Char) : Bool :=
  isNameChar c || c == ':'

/-- What a path consists of. -/
def isPathChar (c : Char) : Bool :=
  isUserChar c || c == '@' || c == '/'

/-- What a query consists of, or a fragment. -/
def isQueryChar (c : Char) : Bool :=
  isPathChar c || c == '?'

/-- What a scheme consists of, after its first letter. -/
def isSchemeChar (c : Char) : Bool :=
  isAlpha c || isDigit c || "+-.".toList.contains c

/-- The text consists of such characters and of escapes. -/
def isEncoded (allowed : Char → Bool) : Text → Bool
  | [] => true
  | '%' :: a :: b :: text => (hexDigit a).isSome && (hexDigit b).isSome && isEncoded allowed text
  | c :: text => c != '%' && allowed c && isEncoded allowed text

/-- What is neither such a character nor part of an escape does not occur. -/
theorem not_mem_of_isEncoded {allowed : Char → Bool} {c : Char} (hc : allowed c = false)
    (hpercent : c ≠ '%') (hhex : hexDigit c = none) {text : Text}
    (h : isEncoded allowed text = true) : c ∉ text := by
  induction text using isEncoded.induct with
  | case1 => exact List.not_mem_nil
  | case2 a b text ih =>
    simp only [isEncoded, Bool.and_eq_true] at h
    obtain ⟨⟨ha, hb⟩, htext⟩ := h
    simp only [List.mem_cons, not_or]
    refine ⟨hpercent, ?_, ?_, ih htext⟩
    · rintro rfl
      simp [hhex] at ha
    · rintro rfl
      simp [hhex] at hb
  | case3 d text hshort ih =>
    rw [isEncoded.eq_3 allowed d text hshort] at h
    simp only [Bool.and_eq_true] at h
    obtain ⟨⟨-, hd⟩, htext⟩ := h
    simp only [List.mem_cons, not_or]
    refine ⟨?_, ih htext⟩
    rintro rfl
    exact absurd (hc.symm.trans hd) Bool.false_ne_true

/-! ### Cutting a text -/

/-- The text behind a delimiter, with it. -/
def after (c : Char) : Option Text → Text
  | none => []
  | some text => c :: text

/-- The text in front of the first delimiter, and the text behind it. -/
def cut (c : Char) : Text → Text × Option Text
  | [] => ([], none)
  | d :: text => if d = c then ([], some text) else ((d :: (cut c text).1), (cut c text).2)

/-- A text is cut at the first occurrence of the character, or is whole. -/
theorem cut_spec (c : Char) (text : Text) :
    c ∉ (cut c text).1 ∧ text = (cut c text).1 ++ after c (cut c text).2 := by
  induction text with
  | nil => exact ⟨List.not_mem_nil, rfl⟩
  | cons d text ih =>
    rw [cut]
    split_ifs with hd
    · exact ⟨List.not_mem_nil, congrArg (· :: text) hd⟩
    · refine ⟨?_, congrArg (d :: ·) ih.2⟩
      rw [List.mem_cons, not_or]
      exact ⟨Ne.symm hd, ih.1⟩

/-- What is put together with a character is cut there again. -/
theorem cut_append {c : Char} {x : Text} (hx : c ∉ x) (y : Option Text) :
    cut c (x ++ after c y) = (x, y) := by
  induction x with
  | nil =>
    cases y with
    | none => rfl
    | some text => exact if_pos rfl
  | cons d x ih =>
    rw [List.mem_cons, not_or] at hx
    rw [List.cons_append, cut, if_neg (Ne.symm hx.1), ih hx.2]

/-! ### The parts of a URI -/

/-- A host as it is written: an address in brackets, or a name. -/
inductive Host
  | literal (address : Text)
  | regName (text : Text)
  deriving DecidableEq, Repr

/-- An authority in parts. -/
structure Authority where
  userinfo : Option Text
  host : Host
  /-- What stands behind the colon, if there is one. -/
  port : Option Text
  deriving DecidableEq, Repr

/-- A URI in parts. -/
structure Url where
  scheme : Text
  authority : Option Authority
  path : Text
  query : Option Text
  fragment : Option Text
  deriving DecidableEq, Repr

def Host.text : Host → Text
  | .literal address => '[' :: (address ++ [']'])
  | .regName text => text

/-- The text of a host and a port. -/
def hostPort (host : Host) (port : Option Text) : Text :=
  host.text ++ after ':' port

def Authority.text (a : Authority) : Text :=
  (match a.userinfo with
    | some userinfo => userinfo ++ ['@']
    | none => []) ++ hostPort a.host a.port

/-- The text of an authority and a path. -/
def hier (authority : Option Authority) (path : Text) : Text :=
  match authority with
  | some a => '/' :: '/' :: (a.text ++ path)
  | none => path

def Url.text (u : Url) : Text :=
  u.scheme ++ ':' :: (hier u.authority u.path ++ after '?' u.query ++ after '#' u.fragment)

/-! ### Taking a text apart -/

def splitHostPort : Text → Option (Host × Option Text)
  | '[' :: text =>
    match cut ']' text with
    | (address, some []) => some (.literal address, none)
    | (address, some (':' :: port)) => some (.literal address, some port)
    | _ => none
  | text => some (.regName (cut ':' text).1, (cut ':' text).2)

def splitAuthority (text : Text) : Option Authority :=
  match cut '@' text with
  | (userinfo, some rest) =>
    (splitHostPort rest).map fun (host, port) ↦ ⟨some userinfo, host, port⟩
  | (_, none) => (splitHostPort text).map fun (host, port) ↦ ⟨none, host, port⟩

def splitHier : Text → Option (Option Authority × Text)
  | '/' :: '/' :: text =>
    (splitAuthority (cut '/' text).1).map fun a ↦ (some a, after '/' (cut '/' text).2)
  | text => some (none, text)

/-- From the outside in: the fragment, the query, the scheme, the authority. -/
def split (text : Text) : Option Url :=
  let (text, fragment) := cut '#' text
  let (text, query) := cut '?' text
  match cut ':' text with
  | (scheme, some rest) =>
    (splitHier rest).map fun (authority, path) ↦ ⟨scheme, authority, path, query, fragment⟩
  | (_, none) => none

/-! ### Which parts are found -/

/-- The host ends where it should. -/
def Host.Closed : Host → Prop
  | .literal address => ']' ∉ address
  | .regName text => ':' ∉ text ∧ text.head? ≠ some '['

/-- A host that does not begin with a bracket ends at the first colon. -/
theorem splitHostPort_of_name {text : Text} (h : text.head? ≠ some '[') :
    splitHostPort text = some (.regName (cut ':' text).1, (cut ':' text).2) := by
  unfold splitHostPort
  split
  · exact absurd rfl h
  · rfl

/-- The only way to read a host and a port. -/
theorem splitHostPort_eq_some_iff {text : Text} {host : Host} {port : Option Text} :
    splitHostPort text = some (host, port) ↔ host.Closed ∧ text = hostPort host port := by
  constructor
  · intro h
    by_cases hopen : text.head? = some '['
    · obtain ⟨text, rfl⟩ := List.head?_eq_some_iff.1 hopen
      rw [splitHostPort] at h
      have hspec := cut_spec ']' text
      rcases hcut : cut ']' text with ⟨address, - | - | ⟨c, rest⟩⟩ <;> rw [hcut] at h hspec
      · cases h
      · cases h
        exact ⟨hspec.1, by rw [hspec.2]; simp [hostPort, Host.text, after]⟩
      · by_cases hc : c = ':'
        · subst hc
          cases h
          exact ⟨hspec.1, by rw [hspec.2]; simp [hostPort, Host.text, after]⟩
        · split at h
          all_goals simp_all
    · rw [splitHostPort_of_name hopen] at h
      cases h
      obtain ⟨hclosed, htext⟩ := cut_spec ':' text
      refine ⟨⟨hclosed, fun hhead ↦ hopen ?_⟩, htext⟩
      rw [htext, List.head?_append, hhead]
      rfl
  · rintro ⟨hclosed, rfl⟩
    cases host with
    | literal address =>
      have hcut : cut ']' (address ++ ']' :: after ':' port) = (address, some (after ':' port)) :=
        cut_append hclosed (some _)
      have htext : hostPort (.literal address) port =
          '[' :: (address ++ ']' :: after ':' port) := by
        simp [hostPort, Host.text]
      rw [htext, splitHostPort, hcut]
      cases port with
      | none => rfl
      | some port => rfl
    | regName text =>
      have hopen : (text ++ after ':' port).head? ≠ some '[' := by
        rw [List.head?_append]
        cases htext : text.head? with
        | some c => simpa [htext] using hclosed.2
        | none => cases port <;> simp [after]
      rw [hostPort, Host.text, splitHostPort_of_name hopen, cut_append hclosed.1]

/-- The user information ends where it should. -/
def Authority.Closed (a : Authority) : Prop :=
  a.host.Closed ∧ '@' ∉ a.userinfo.getD (hostPort a.host a.port)

/-- **Authorities**: splitting is the inverse of writing them. -/
theorem splitAuthority_eq_some_iff {text : Text} {a : Authority} :
    splitAuthority text = some a ↔ a.Closed ∧ text = a.text := by
  obtain ⟨userinfo, host, port⟩ := a
  constructor
  · intro h
    obtain ⟨hnot, htext⟩ := cut_spec '@' text
    rcases hcut : cut '@' text with ⟨user, - | rest⟩ <;> rw [splitAuthority, hcut] at h <;>
      rw [hcut] at hnot htext <;>
      obtain ⟨⟨host', port'⟩, hsplit, ha⟩ := Option.map_eq_some_iff.1 h <;>
      cases ha <;> obtain ⟨hclosed, hrest⟩ := splitHostPort_eq_some_iff.1 hsplit
    · have huser : text = user := by rw [htext]; simp [after]
      refine ⟨⟨hclosed, ?_⟩, hrest⟩
      rw [Option.getD_none, ← hrest, huser]
      exact hnot
    · refine ⟨⟨hclosed, hnot⟩, ?_⟩
      rw [htext, hrest]
      simp [Authority.text, after]
  · rintro ⟨⟨hclosed, hnot⟩, rfl⟩
    have hsplit : splitHostPort (hostPort host port) = some (host, port) :=
      splitHostPort_eq_some_iff.2 ⟨hclosed, rfl⟩
    cases userinfo with
    | none =>
      have hcut : cut '@' (hostPort host port) = (hostPort host port, none) := by
        simpa [after] using cut_append hnot none
      show splitAuthority (hostPort host port) = _
      rw [splitAuthority, hcut]
      dsimp only
      rw [hsplit]
      rfl
    | some user =>
      have hcut : cut '@' (user ++ '@' :: hostPort host port) = (user, some (hostPort host port)) :=
        cut_append hnot (some _)
      have htext : Authority.text ⟨some user, host, port⟩ = user ++ '@' :: hostPort host port := by
        simp [Authority.text]
      rw [htext, splitAuthority, hcut]
      dsimp only
      rw [hsplit]
      rfl

/-- The authority ends where it should: the path begins with a slash, or does not look like an
authority. -/
def HierClosed : Option Authority → Text → Prop
  | some a, path => a.Closed ∧ '/' ∉ a.text ∧ (path = [] ∨ path.head? = some '/')
  | none, path => ¬['/', '/'] <+: path

/-- Without two slashes in front there is a path and no authority. -/
theorem splitHier_of_path {text : Text} (h : ¬['/', '/'] <+: text) :
    splitHier text = some (none, text) := by
  unfold splitHier
  split
  · exact absurd (List.prefix_append _ _) h
  · rfl

/-- **The hierarchical part**: splitting is the inverse of writing it. -/
theorem splitHier_eq_some_iff {text : Text} {authority : Option Authority} {path : Text} :
    splitHier text = some (authority, path) ↔
      HierClosed authority path ∧ text = hier authority path := by
  constructor
  · intro h
    by_cases hslashes : ['/', '/'] <+: text
    · obtain ⟨rest, rfl⟩ := hslashes
      rw [show ['/', '/'] ++ rest = '/' :: '/' :: rest from rfl, splitHier] at h
      obtain ⟨a, hsplit, ha⟩ := Option.map_eq_some_iff.1 h
      cases ha
      obtain ⟨hclosed, htext⟩ := splitAuthority_eq_some_iff.1 hsplit
      obtain ⟨hnot, hrest⟩ := cut_spec '/' rest
      refine ⟨⟨hclosed, htext ▸ hnot, ?_⟩, ?_⟩
      · rcases (cut '/' rest).2 with - | path
        · exact Or.inl rfl
        · exact Or.inr rfl
      · rw [hier, ← htext, ← hrest]
        rfl
    · rw [splitHier_of_path hslashes] at h
      cases h
      exact ⟨hslashes, rfl⟩
  · rintro ⟨hclosed, rfl⟩
    cases authority with
    | none => exact splitHier_of_path hclosed
    | some a =>
      obtain ⟨hclosed, hnot, hpath⟩ := hclosed
      obtain ⟨behind, rfl⟩ : ∃ behind, path = after '/' behind := by
        rcases hpath with rfl | hpath
        · exact ⟨none, rfl⟩
        · obtain ⟨rest, rfl⟩ := List.head?_eq_some_iff.1 hpath
          exact ⟨some rest, rfl⟩
      rw [hier, splitHier, cut_append hnot, splitAuthority_eq_some_iff.2 ⟨hclosed, rfl⟩]
      rfl

theorem Url.text_eq (u : Url) : u.text =
    u.scheme ++ ':' :: hier u.authority u.path ++ after '?' u.query ++ after '#' u.fragment := by
  simp [Url.text]

/-- Each part ends where it should. -/
def Url.Closed (u : Url) : Prop :=
  HierClosed u.authority u.path ∧ ':' ∉ u.scheme ∧
    '?' ∉ u.scheme ++ ':' :: hier u.authority u.path ∧
      '#' ∉ u.scheme ++ ':' :: hier u.authority u.path ++ after '?' u.query

/-- **There is one way to take a URI apart.** -/
theorem split_eq_some_iff {text : Text} {u : Url} :
    split text = some u ↔ u.Closed ∧ text = u.text := by
  obtain ⟨scheme, authority, path, query, fragment⟩ := u
  constructor
  · intro h
    obtain ⟨hfragment, htext⟩ := cut_spec '#' text
    obtain ⟨hquery, hfront⟩ := cut_spec '?' (cut '#' text).1
    obtain ⟨hscheme, hrest⟩ := cut_spec ':' (cut '?' (cut '#' text).1).1
    rw [split] at h
    dsimp only at h
    rcases hcut : cut ':' (cut '?' (cut '#' text).1).1 with ⟨first, - | rest⟩ <;>
      rw [hcut] at h hscheme hrest
    · cases h
    · obtain ⟨⟨authority', path'⟩, hsplit, hu⟩ := Option.map_eq_some_iff.1 h
      cases hu
      obtain ⟨hclosed, rfl⟩ := splitHier_eq_some_iff.1 hsplit
      dsimp only [after] at hrest
      rw [hrest] at hquery hfront
      refine ⟨⟨hclosed, hscheme, hquery, ?_⟩, ?_⟩
      · dsimp only
        rw [← hfront]
        exact hfragment
      · rw [Url.text_eq]
        dsimp only
        rw [← hfront]
        exact htext
  · rintro ⟨⟨hclosed, hscheme, hquery, hfragment⟩, rfl⟩
    dsimp only at hclosed hscheme hquery hfragment
    have hcolon : cut ':' (scheme ++ ':' :: hier authority path) =
        (scheme, some (hier authority path)) := cut_append hscheme (some _)
    rw [Url.text_eq, split, cut_append hfragment]
    dsimp only
    rw [cut_append hquery]
    dsimp only
    rw [hcolon]
    dsimp only
    rw [splitHier_eq_some_iff.2 ⟨hclosed, rfl⟩]
    rfl

/-! ### Valid URIs -/

/-- A library's IPv6 addresses. -/
structure Addresses where
  /-- How the library prints an IPv6 address, if the text is one. -/
  format : Text → Option Text
  /-- What an address consists of. -/
  chars : ∀ text, (format text).isSome = true → ∀ c ∈ text,
    (hexDigit c).isSome = true ∨ c = ':' ∨ c = '.'

/-- `IPvFuture`. -/
def isFuture : Text → Bool
  | [] => false
  | v :: text =>
    (v == 'v' || v == 'V') && (cut '.' text).1 != [] &&
      (cut '.' text).1.all (fun c ↦ (hexDigit c).isSome) &&
        (cut '.' text).2.any fun address ↦ address != [] && address.all isUserChar

/-- What a host may be. -/
def Host.valid (lib : Addresses) : Host → Bool
  | .literal address => (lib.format address).isSome || isFuture address
  | .regName text => isEncoded isNameChar text

/-- What an authority may be. -/
def Authority.valid (lib : Addresses) (a : Authority) : Bool :=
  a.userinfo.all (isEncoded isUserChar) && a.host.valid lib && a.port.all (·.all isDigit)

/-- What a scheme may be. -/
def validScheme : Text → Bool
  | [] => false
  | c :: text => isAlpha c && text.all isSchemeChar

/-- What a URI may be. -/
def Url.valid (lib : Addresses) (u : Url) : Bool :=
  validScheme u.scheme && isEncoded isPathChar u.path &&
    (match u.authority with
      | some a => a.valid lib && (u.path == [] || u.path.head? == some '/')
      | none => !(['/', '/'].isPrefixOf u.path)) &&
    u.query.all (isEncoded isQueryChar) && u.fragment.all (isEncoded isQueryChar)

/-- `parse_uri`. -/
def parse (lib : Addresses) (text : Text) : Option Url :=
  (split text).filter (Url.valid lib)

/-- A character that may occur in no part of an authority but as its delimiter. -/
structure Foreign (c : Char) : Prop where
  user : isUserChar c = false
  hex : hexDigit c = none
  percent : c ≠ '%'

theorem Foreign.name {c : Char} (h : Foreign c) : isNameChar c = false := by
  have huser := h.user
  rw [isUserChar, Bool.or_eq_false_iff] at huser
  exact huser.1

theorem Foreign.ne {c d : Char} (h : Foreign c) (hd : isUserChar d = true) : c ≠ d := by
  rintro rfl
  exact absurd (h.user.symm.trans hd) Bool.false_ne_true

theorem isUserChar_of_isDigit {c : Char} (h : isDigit c = true) : isUserChar c = true := by
  simp [isUserChar, isNameChar, isUnreserved, h]

/-- A scheme has only letters and the characters of schemes. -/
theorem not_mem_scheme {scheme : Text} (h : validScheme scheme = true) {c : Char}
    (halpha : isAlpha c = false) (hc : isSchemeChar c = false) : c ∉ scheme := by
  cases scheme with
  | nil => exact List.not_mem_nil
  | cons d text =>
    rw [validScheme, Bool.and_eq_true, List.all_eq_true] at h
    rw [List.mem_cons, not_or]
    constructor
    · rintro rfl
      exact absurd (halpha.symm.trans h.1) Bool.false_ne_true
    · exact fun hmem ↦ absurd (hc.symm.trans (h.2 c hmem)) Bool.false_ne_true

theorem not_mem_future {address : Text} (h : isFuture address = true) {c : Char}
    (hc : Foreign c) : c ∉ address := by
  cases address with
  | nil => exact List.not_mem_nil
  | cons v text =>
    simp only [isFuture, Bool.and_eq_true, Bool.or_eq_true, beq_iff_eq, List.all_eq_true,
      Option.any_eq_true] at h
    obtain ⟨⟨⟨hv, -⟩, hhex⟩, address, haddress, -, hchars⟩ := h
    have hspec := (cut_spec '.' text).2
    rw [haddress] at hspec
    rw [List.mem_cons, not_or]
    constructor
    · rcases hv with rfl | rfl
      · exact hc.ne (by decide)
      · exact hc.ne (by decide)
    · rw [hspec]
      simp only [List.mem_append, after, List.mem_cons, not_or]
      refine ⟨fun hmem ↦ ?_, hc.ne (by decide), fun hmem ↦ ?_⟩
      · have hdigit := hhex c hmem
        rw [hc.hex] at hdigit
        cases hdigit
      · exact absurd rfl (hc.ne (hchars c hmem))

theorem not_mem_literal {lib : Addresses} {address : Text}
    (h : (Host.literal address).valid lib = true) {c : Char} (hc : Foreign c) : c ∉ address := by
  rw [Host.valid, Bool.or_eq_true] at h
  rcases h with haddress | hfuture
  · intro hmem
    rcases lib.chars address haddress c hmem with hhex | rfl | rfl
    · rw [hc.hex] at hhex
      cases hhex
    · exact absurd rfl (hc.ne (by decide))
    · exact absurd rfl (hc.ne (by decide))
  · exact not_mem_future hfuture hc

/-- A host with its port has no foreign characters but for its brackets. -/
theorem not_mem_hostPort {lib : Addresses} {a : Authority} (h : a.valid lib = true) {c : Char}
    (hc : Foreign c) (hopen : c ≠ '[') (hclose : c ≠ ']') : c ∉ hostPort a.host a.port := by
  simp only [Authority.valid, Bool.and_eq_true, Option.all_eq_true, List.all_eq_true] at h
  obtain ⟨⟨-, hhost⟩, hport⟩ := h
  rw [hostPort, List.mem_append, not_or]
  constructor
  · cases hform : a.host with
    | literal address =>
      rw [hform] at hhost
      simp [Host.text, hopen, hclose, not_mem_literal hhost hc]
    | regName text =>
      rw [hform] at hhost
      exact not_mem_of_isEncoded hc.name hc.percent hc.hex hhost
  · cases hform : a.port with
    | none => exact List.not_mem_nil
    | some port =>
      rw [after, List.mem_cons, not_or]
      refine ⟨hc.ne (by decide), fun hmem ↦ ?_⟩
      exact absurd rfl (hc.ne (isUserChar_of_isDigit (hport port hform c hmem)))

theorem not_mem_userinfo {lib : Addresses} {a : Authority} (h : a.valid lib = true) {c : Char}
    (hc : Foreign c) : ∀ userinfo ∈ a.userinfo, c ∉ userinfo := by
  simp only [Authority.valid, Bool.and_eq_true, Option.all_eq_true] at h
  exact fun userinfo huser ↦ not_mem_of_isEncoded hc.user hc.percent hc.hex (h.1.1 userinfo huser)

/-- An authority has no foreign characters but for its brackets and its at sign. -/
theorem not_mem_authority {lib : Addresses} {a : Authority} (h : a.valid lib = true) {c : Char}
    (hc : Foreign c) (hopen : c ≠ '[') (hclose : c ≠ ']') (hat : c ≠ '@') : c ∉ a.text := by
  rw [Authority.text, List.mem_append, not_or]
  refine ⟨?_, not_mem_hostPort h hc hopen hclose⟩
  cases hform : a.userinfo with
  | none => exact List.not_mem_nil
  | some userinfo => simp [hat, not_mem_userinfo h hc userinfo hform]

theorem Host.closed_of_valid {lib : Addresses} {host : Host} (h : host.valid lib = true) :
    host.Closed := by
  cases host with
  | literal address => exact not_mem_literal h ⟨by decide, by decide, by decide⟩
  | regName text =>
    refine ⟨not_mem_of_isEncoded (by decide) (by decide) (by decide) h, fun hhead ↦ ?_⟩
    obtain ⟨rest, rfl⟩ := List.head?_eq_some_iff.1 hhead
    exact not_mem_of_isEncoded (c := '[') (by decide) (by decide) (by decide) h List.mem_cons_self

theorem Authority.closed_of_valid {lib : Addresses} {a : Authority} (h : a.valid lib = true) :
    a.Closed := by
  have hhost : a.host.valid lib = true := by
    simp only [Authority.valid, Bool.and_eq_true] at h
    exact h.1.2
  have hat : Foreign '@' := ⟨by decide, by decide, by decide⟩
  refine ⟨Host.closed_of_valid hhost, ?_⟩
  cases hform : a.userinfo with
  | none => exact not_mem_hostPort h hat (by decide) (by decide)
  | some userinfo => exact not_mem_userinfo h hat userinfo hform

/-- What stands in front of the query is free of what ends it. -/
theorem not_mem_front {lib : Addresses} {u : Url} (h : u.valid lib = true) {c : Char}
    (hpath : isPathChar c = false) (hhex : hexDigit c = none) (hpercent : c ≠ '%')
    (hopen : c ≠ '[') (hclose : c ≠ ']') (halpha : isAlpha c = false)
    (hscheme : isSchemeChar c = false) : c ∉ u.scheme ++ ':' :: hier u.authority u.path := by
  simp only [isPathChar, Bool.or_eq_false_iff, beq_eq_false_iff_ne] at hpath
  obtain ⟨⟨huser, hat⟩, hslash⟩ := hpath
  have hforeign : Foreign c := ⟨huser, hhex, hpercent⟩
  simp only [Url.valid, Bool.and_eq_true] at h
  obtain ⟨⟨⟨⟨hs, hp⟩, ha⟩, -⟩, -⟩ := h
  have hnot : c ∉ u.path :=
    not_mem_of_isEncoded (by simp [isPathChar, huser, hat, hslash]) hpercent hhex hp
  have hhier : c ∉ hier u.authority u.path := by
    cases hform : u.authority with
    | none => exact hnot
    | some a =>
      rw [hform] at ha
      have htext := not_mem_authority (Bool.and_eq_true_iff.1 ha).1 hforeign hopen hclose hat
      simp [hier, hslash, htext, hnot]
  rw [List.mem_append, List.mem_cons, not_or, not_or]
  exact ⟨not_mem_scheme hs halpha hscheme, hforeign.ne (by decide), hhier⟩

/-- A valid URL is split as it was written. -/
theorem Url.closed_of_valid {lib : Addresses} {u : Url} (h : u.valid lib = true) : u.Closed := by
  have hquery : '?' ∉ u.scheme ++ ':' :: hier u.authority u.path :=
    not_mem_front h (by decide) (by decide) (by decide) (by decide) (by decide) (by decide)
      (by decide)
  have hfragment : '#' ∉ u.scheme ++ ':' :: hier u.authority u.path :=
    not_mem_front h (by decide) (by decide) (by decide) (by decide) (by decide) (by decide)
      (by decide)
  simp only [Url.valid, Bool.and_eq_true, Option.all_eq_true] at h
  obtain ⟨⟨⟨⟨hs, -⟩, ha⟩, hq⟩, -⟩ := h
  refine ⟨?_, not_mem_scheme hs (by decide) (by decide), hquery, ?_⟩
  · cases hform : u.authority with
    | none =>
      rw [hform] at ha
      intro hprefix
      simp [List.isPrefixOf_iff_prefix.2 hprefix] at ha
    | some a =>
      rw [hform] at ha
      obtain ⟨hvalid, hpath⟩ := Bool.and_eq_true_iff.1 ha
      refine ⟨Authority.closed_of_valid hvalid, ?_, by simpa using hpath⟩
      exact not_mem_authority hvalid ⟨by decide, by decide, by decide⟩ (by decide) (by decide)
        (by decide)
  · rw [List.mem_append, not_or]
    refine ⟨hfragment, ?_⟩
    cases hform : u.query with
    | none => exact List.not_mem_nil
    | some query =>
      rw [after, List.mem_cons, not_or]
      exact ⟨by decide, not_mem_of_isEncoded (by decide) (by decide) (by decide) (hq query hform)⟩

/-- **The parser accepts the texts of valid URIs**, and finds their parts. -/
theorem parse_eq_some_iff {lib : Addresses} {text : Text} {u : Url} :
    parse lib text = some u ↔ u.valid lib = true ∧ text = u.text := by
  rw [parse, Option.filter_eq_some_iff, split_eq_some_iff]
  constructor
  · rintro ⟨⟨-, htext⟩, hvalid⟩
    exact ⟨hvalid, htext⟩
  · rintro ⟨hvalid, htext⟩
    exact ⟨⟨Url.closed_of_valid hvalid, htext⟩, hvalid⟩

/-- A URI without user information, port, query or fragment. -/
example : (parse ⟨fun _ ↦ none, by simp⟩ "http://a.b/c".toList).isSome = true := by decide

end Uri
