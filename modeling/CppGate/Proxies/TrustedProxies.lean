import CppGate.Http.Message
import Mathlib.Data.BitVec

/-!
# The client behind trusted proxies

`TrustedProxies.cpp`: the set of trusted networks, the parser of the addresses found in forwarding
headers, and the scan of `X-Forwarded-For` that names the client of a request.

What the code takes from Boost.Asio — reading an address, printing it, and the canonical form of a
network — is a parameter (`Asio`). Addresses themselves are data: 4 bytes, or 16 bytes and a scope.
-/

namespace CppGate.Proxies

open Http

/-! ### Addresses -/

/-- `boost::asio::ip::address`. -/
inductive Address
  | v4 (bytes : BitVec 32)
  | v6 (bytes : BitVec 128) (scope : ℕ)
  deriving DecidableEq, Repr

/-- `is_v4_mapped()`: ten bytes of zeros, two of ones, then the IPv4 address. -/
def isV4Mapped (bytes : BitVec 128) : Bool :=
  bytes.extractLsb' 32 96 == 0xffff#96

/-- An IPv4-mapped address is the IPv4 address. -/
def normalize : Address → Address
  | .v4 bytes => .v4 bytes
  | .v6 bytes scope =>
    if isV4Mapped bytes then .v4 (bytes.extractLsb' 0 32) else .v6 bytes scope

@[simp] theorem normalize_normalize (a : Address) : normalize (normalize a) = normalize a := by
  cases a with
  | v4 bytes => rfl
  | v6 bytes scope =>
    rw [normalize]
    split
    · rfl
    · next h => rw [normalize, if_neg h]

/-- `network_v4`, whose constructor throws for a longer prefix. -/
structure NetworkV4 where
  address : BitVec 32
  prefixLength : ℕ
  prefixLength_le : prefixLength ≤ 32
  deriving DecidableEq

/-- `network_v6`, whose constructor throws for a longer prefix. -/
structure NetworkV6 where
  address : BitVec 128
  scope : ℕ
  prefixLength : ℕ
  prefixLength_le : prefixLength ≤ 128
  deriving DecidableEq

/-- The functions of Boost.Asio that the code calls. -/
structure Asio where
  /-- `make_address`, or an error. -/
  makeAddress : Text → Option Address
  /-- `address::to_string`. -/
  toString : Address → Text
  /-- `network_v4::canonical`. -/
  canonicalV4 : NetworkV4 → NetworkV4
  /-- `network_v6::canonical`. -/
  canonicalV6 : NetworkV6 → NetworkV6

variable (asio : Asio)

/-! ### Parsing -/

/-- One pair of quotes around the text. -/
def unquote (text : Text) : Text :=
  if 2 ≤ text.length ∧ text.head? = some '"' ∧ text.getLast? = some '"' then
    text.tail.dropLast
  else
    text

/-- Accepts "1.2.3.4", "1.2.3.4:80", "2001:db8::1", "[2001:db8::1]:80", optionally quoted. -/
def parseAddress (text : Text) : Option Address :=
  match unquote (Text.trim text) with
  | '[' :: rest =>
    -- [ipv6] or [ipv6]:port
    if ']' ∈ rest then
      (asio.makeAddress (rest.takeWhile (· != ']'))).map normalize
    else
      none
  | text =>
    if text.count ':' = 1 then
      -- ipv4:port, a bare ipv6 has at least two colons
      (asio.makeAddress (text.takeWhile (· != ':'))).map normalize
    else
      (asio.makeAddress text).map normalize

/-! ### The trusted networks -/

/-- The trusted networks. -/
structure TrustedProxies where
  v4 : List NetworkV4 := []
  v6 : List NetworkV6 := []
  deriving DecidableEq

/-- `std::stoul` of a text of digits. -/
def stoul (digits : Text) : ℕ :=
  digits.foldl (fun n c ↦ 10 * n + (c.toNat - '0'.toNat)) 0

/-- The prefix length written after the slash, or the full length where there is no slash. -/
def prefixLength (cidr : Text) (full : ℕ) : Except Text ℕ :=
  match cidr.dropWhile (· != '/') with
  | [] => .ok full
  | _ :: digits =>
    if digits = [] ∨ 3 < digits.length ∨ digits.any (fun c ↦ !c.isDigit) then
      .error ("TrustedProxies: invalid prefix: ".toList ++ cidr)
    else
      .ok (stoul digits)

/-- "10.0.0.0/8", "fd00::/8", or a single address "127.0.0.1". -/
def add (proxies : TrustedProxies) (cidr : Text) : Except Text TrustedProxies :=
  match parseAddress asio (cidr.takeWhile (· != '/')) with
  | none => .error ("TrustedProxies: invalid address: ".toList ++ cidr)
  | some (.v4 bytes) => do
    let n ← prefixLength cidr 32
    if h : n ≤ 32 then
      return { proxies with v4 := proxies.v4 ++ [asio.canonicalV4 ⟨bytes, n, h⟩] }
    else
      throw ("TrustedProxies: invalid prefix: ".toList ++ cidr)
  | some (.v6 bytes scope) => do
    let n ← prefixLength cidr 128
    if h : n ≤ 128 then
      return { proxies with v6 := proxies.v6 ++ [asio.canonicalV6 ⟨bytes, scope, n, h⟩] }
    else
      throw ("TrustedProxies: invalid prefix: ".toList ++ cidr)

/-- No trusted proxies: the default. -/
def empty (proxies : TrustedProxies) : Bool :=
  proxies.v4.isEmpty && proxies.v6.isEmpty

/-- Whether an address is in one of the networks. -/
def contains (proxies : TrustedProxies) (address : Address) : Bool :=
  match normalize address with
  | .v4 bytes => proxies.v4.any fun network ↦
      asio.canonicalV4 ⟨bytes, network.prefixLength, network.prefixLength_le⟩ == network
  | .v6 bytes scope => proxies.v6.any fun network ↦
      asio.canonicalV6 ⟨bytes, scope, network.prefixLength, network.prefixLength_le⟩ == network

/-! ### The client of a request -/

/-- Several X-Forwarded-For headers are one list, in order: their values, split at the commas. -/
def hops (headers : List Field) : List Text :=
  (equalRange headers "X-Forwarded-For".toList).flatMap fun value ↦ value.splitOn ','

/-- The loop over the hops, closest first: the first one we don't trust is the client. -/
def scan (proxies : TrustedProxies) (closestTrusted : Address) : List Text → Text
  | [] => asio.toString closestTrusted
  | hop :: rest =>
    match parseAddress asio hop with
    | none => asio.toString closestTrusted
    | some address =>
      if contains asio proxies address then scan proxies address rest else asio.toString address

/-- Client IP of a request received from `peer` (the socket address). -/
def resolve (proxies : TrustedProxies) (peer : Text) (headers : List Field) : Text :=
  match parseAddress asio peer with
  | none => peer
  | some peerAddress =>
    if empty proxies || !contains asio proxies peerAddress then
      asio.toString peerAddress
    else if hops headers ≠ [] then
      scan asio proxies peerAddress (hops headers).reverse
    else
      match (find headers "X-Real-IP".toList).bind (parseAddress asio) with
      | some address => asio.toString address
      | none => asio.toString peerAddress

end CppGate.Proxies
