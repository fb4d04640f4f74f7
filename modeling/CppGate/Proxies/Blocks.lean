import CppGate.Foundations.BitPrefixes
import CppGate.Foundations.Fallible
import CppGate.Proxies.Forwarding

/-!
# Trusted blocks

An entry of the trusted networks is an address and a prefix length (`Entry`), and stands for the
addresses of its family that agree with it on the prefix (`InBlock`). What `contains` compares are
canonical networks, which agree if the addresses do (`canonicalV4_eq_iff`, `canonicalV6_eq_iff`); so
an address is contained exactly if it is in the block of an entry (`contains_iff`).

The code brings an IPv4-mapped address into its IPv4 form before it reads the prefix length, and the
two families are apart: a block of IPv6 addresses holds no IPv4 address (`any_address_misses`).
-/

namespace CppGate.Proxies

open BitPrefix

variable {asio : Asio}

/-! ### Canonical networks -/

/-- What is assumed of Boost.Asio's networks: the canonical form has the host bits cleared, and the
scope and the prefix length as they were. -/
structure ClearsHostBits (asio : Asio) : Prop where
  prefixV4 : ∀ network, (asio.canonicalV4 network).prefixLength = network.prefixLength
  bitsV4 : ∀ network, IsPrefix network.prefixLength network.address
    (asio.canonicalV4 network).address
  prefixV6 : ∀ network, (asio.canonicalV6 network).prefixLength = network.prefixLength
  scopeV6 : ∀ network, (asio.canonicalV6 network).scope = network.scope
  bitsV6 : ∀ network, IsPrefix network.prefixLength network.address
    (asio.canonicalV6 network).address

/-- A network is its address and its prefix length. -/
theorem networkV4_ext {p q : NetworkV4} (haddress : p.address = q.address)
    (hlen : p.prefixLength = q.prefixLength) : p = q := by
  cases p
  cases q
  exact NetworkV4.mk.injEq .. ▸ ⟨haddress, hlen⟩

theorem networkV6_ext {p q : NetworkV6} (haddress : p.address = q.address)
    (hscope : p.scope = q.scope) (hlen : p.prefixLength = q.prefixLength) : p = q := by
  cases p
  cases q
  exact NetworkV6.mk.injEq .. ▸ ⟨haddress, hscope, hlen⟩

/-- Networks with one prefix length have one canonical form if their addresses agree. -/
theorem canonicalV4_eq_iff (hasio : ClearsHostBits asio) {x y : BitVec 32} {n : ℕ} (hn : n ≤ 32) :
    asio.canonicalV4 ⟨x, n, hn⟩ = asio.canonicalV4 ⟨y, n, hn⟩ ↔ Agree n x y := by
  rw [← eq_iff_agree hn (hasio.bitsV4 ⟨x, n, hn⟩) (hasio.bitsV4 ⟨y, n, hn⟩)]
  refine ⟨congrArg NetworkV4.address, fun h ↦ networkV4_ext h ?_⟩
  rw [hasio.prefixV4, hasio.prefixV4]

/-- For IPv6 the scopes have to be the same, too. -/
theorem canonicalV6_eq_iff (hasio : ClearsHostBits asio) {x y : BitVec 128} {scope scope' n : ℕ}
    (hn : n ≤ 128) :
    asio.canonicalV6 ⟨x, scope, n, hn⟩ = asio.canonicalV6 ⟨y, scope', n, hn⟩ ↔
      Agree n x y ∧ scope = scope' := by
  rw [← eq_iff_agree hn (hasio.bitsV6 ⟨x, scope, n, hn⟩) (hasio.bitsV6 ⟨y, scope', n, hn⟩)]
  refine ⟨fun h ↦ ⟨congrArg NetworkV6.address h, ?_⟩, fun h ↦ networkV6_ext h.1 ?_ ?_⟩
  · have hscope := congrArg NetworkV6.scope h
    rwa [hasio.scopeV6, hasio.scopeV6] at hscope
  · rw [hasio.scopeV6, hasio.scopeV6]
    exact h.2
  · rw [hasio.prefixV6, hasio.prefixV6]

/-! ### Entries -/

/-- The number of bits of an address. -/
def Address.width : Address → ℕ
  | .v4 _ => 32
  | .v6 _ _ => 128

/-- The number behind the slash of an entry, or all bits where there is no slash. -/
def HasPrefix (text : Text) (address : Address) (n : ℕ) : Prop :=
  '/' ∉ text ∧ n = address.width ∨
    ∃ digits, text.dropWhile (· != '/') = '/' :: digits ∧ n = stoul digits

/-- The address of an entry and the length of its prefix. -/
def Entry (asio : Asio) (text : Text) (address : Address) (n : ℕ) : Prop :=
  parseAddress asio (text.takeWhile (· != '/')) = some address ∧ HasPrefix text address n

/-- The second address is in the block of the first one's prefix. -/
def InBlock (n : ℕ) : Address → Address → Prop
  | .v4 x, .v4 y => Agree n y x
  | .v6 x _, .v6 y _ => Agree n y x
  | _, _ => False

/-- Two IPv6 addresses have one scope. -/
def SameScope : Address → Address → Prop
  | .v6 _ scope, .v6 _ scope' => scope' = scope
  | _, _ => True

/-- An entry is one address and one prefix. -/
theorem Entry.unique {text : Text} {x y : Address} {m n : ℕ} (hx : Entry asio text x m)
    (hy : Entry asio text y n) : x = y ∧ m = n := by
  obtain rfl := Option.some.inj (hx.1.symm.trans hy.1)
  refine ⟨rfl, ?_⟩
  have hslash : ∀ digits, text.dropWhile (· != '/') = '/' :: digits → '/' ∈ text :=
    fun digits h ↦ (List.dropWhile_sublist _).mem (h ▸ List.mem_cons_self)
  obtain ⟨hnone, rfl⟩ | ⟨digits, hdigits, rfl⟩ := hx.2
  · obtain ⟨-, rfl⟩ | ⟨digits, hdigits, -⟩ := hy.2
    · rfl
    · exact absurd (hslash digits hdigits) hnone
  · obtain ⟨hnone, -⟩ | ⟨digits', hdigits', rfl⟩ := hy.2
    · exact absurd (hslash digits hdigits) hnone
    · rw [(List.cons.inj (hdigits.symm.trans hdigits')).2]

/-- The prefix length that add() reads. -/
theorem entry_of_prefixLength {text : Text} {address : Address} {n : ℕ}
    (haddress : parseAddress asio (text.takeWhile (· != '/')) = some address)
    (h : prefixLength text address.width = .ok n) : Entry asio text address n := by
  refine ⟨haddress, ?_⟩
  rw [prefixLength] at h
  split at h
  · next hdrop =>
    refine .inl ⟨fun hslash ↦ ?_, (Except.ok.inj h).symm⟩
    exact bne_iff_ne.1 (List.dropWhile_eq_nil_iff.1 hdrop '/' hslash) rfl
  · next c digits hdrop =>
    split at h
    · cases h
    · obtain rfl : c = '/' := by
        have hstop := List.head?_dropWhile_not (· != '/') text
        rw [hdrop] at hstop
        simpa using hstop
      exact .inr ⟨digits, hdrop, (Except.ok.inj h).symm⟩

/-- **What add() adds** is the canonical network of an entry. -/
theorem add_cases {proxies proxies' : TrustedProxies} {text : Text}
    (h : add asio proxies text = .ok proxies') :
    (∃ bytes n, ∃ hn : n ≤ 32, Entry asio text (.v4 bytes) n ∧
      proxies' = { proxies with v4 := proxies.v4 ++ [asio.canonicalV4 ⟨bytes, n, hn⟩] }) ∨
    ∃ bytes scope n, ∃ hn : n ≤ 128, Entry asio text (.v6 bytes scope) n ∧
      proxies' = { proxies with v6 := proxies.v6 ++ [asio.canonicalV6 ⟨bytes, scope, n, hn⟩] } := by
  unfold add at h
  split at h
  · cases h
  · next bytes haddress =>
    obtain ⟨n, hlen, h⟩ := Fallible.exists_of_bind_eq_ok h
    split at h
    · next hn =>
      exact .inl ⟨bytes, n, hn, entry_of_prefixLength haddress hlen, (Except.ok.inj h).symm⟩
    · cases h
  · next bytes scope haddress =>
    obtain ⟨n, hlen, h⟩ := Fallible.exists_of_bind_eq_ok h
    split at h
    · next hn =>
      exact .inr ⟨bytes, scope, n, hn, entry_of_prefixLength haddress hlen,
        (Except.ok.inj h).symm⟩
    · cases h

/-! ### What is contained -/

/-- An address is in the block of an entry that has the same scope. -/
def ScopedIn (asio : Asio) (entries : List Text) (x : Address) : Prop :=
  ∃ text ∈ entries, ∃ address n, Entry asio text address n ∧ InBlock n address x ∧
    SameScope address x

/-- A network holds the addresses that agree on its prefix. -/
theorem matches_v4_iff (hasio : ClearsHostBits asio) {x y : BitVec 32} {n : ℕ} (hn : n ≤ 32) :
    (let network := asio.canonicalV4 ⟨y, n, hn⟩
    asio.canonicalV4 ⟨x, network.prefixLength, network.prefixLength_le⟩ == network) = true ↔
      Agree n x y := by
  have hnetwork : (⟨x, (asio.canonicalV4 ⟨y, n, hn⟩).prefixLength,
      (asio.canonicalV4 ⟨y, n, hn⟩).prefixLength_le⟩ : NetworkV4) = ⟨x, n, hn⟩ :=
    networkV4_ext rfl (hasio.prefixV4 _)
  dsimp only
  rw [hnetwork, beq_iff_eq, canonicalV4_eq_iff hasio]

/-- An IPv6 network matches if the bits of the prefix and the scope agree. -/
theorem matches_v6_iff (hasio : ClearsHostBits asio) {x y : BitVec 128} {scope scope' n : ℕ}
    (hn : n ≤ 128) :
    (let network := asio.canonicalV6 ⟨y, scope', n, hn⟩
    asio.canonicalV6 ⟨x, scope, network.prefixLength, network.prefixLength_le⟩ == network) = true ↔
      Agree n x y ∧ scope = scope' := by
  have hnetwork : (⟨x, scope, (asio.canonicalV6 ⟨y, scope', n, hn⟩).prefixLength,
      (asio.canonicalV6 ⟨y, scope', n, hn⟩).prefixLength_le⟩ : NetworkV6) = ⟨x, scope, n, hn⟩ :=
    networkV6_ext rfl rfl (hasio.prefixV6 _)
  dsimp only
  rw [hnetwork, beq_iff_eq, canonicalV6_eq_iff hasio]

/-- A new entry adds the addresses of its block, those of its scope. -/
theorem contains_add (hasio : ClearsHostBits asio) {proxies proxies' : TrustedProxies}
    {text : Text} (h : add asio proxies text = .ok proxies') (x : Address) :
    contains asio proxies' x = true ↔ contains asio proxies x = true ∨
      ∃ address n, Entry asio text address n ∧ InBlock n address (normalize x) ∧
        SameScope address (normalize x) := by
  have hentry : ∀ {address : Address} {n : ℕ}, Entry asio text address n →
      ((∃ a m, Entry asio text a m ∧ InBlock m a (normalize x) ∧ SameScope a (normalize x)) ↔
        InBlock n address (normalize x) ∧ SameScope address (normalize x)) := by
    intro address n he
    refine ⟨?_, fun hblock ↦ ⟨address, n, he, hblock⟩⟩
    rintro ⟨a, m, he', hblock⟩
    obtain ⟨rfl, rfl⟩ := he.unique he'
    exact hblock
  obtain ⟨bytes, n, hn, he, rfl⟩ | ⟨bytes, scope, n, hn, he, rfl⟩ := add_cases h
  · rw [hentry he, contains, contains]
    cases normalize x with
    | v4 bytes' =>
      dsimp only
      rw [List.any_append, Bool.or_eq_true, List.any_cons, List.any_nil, Bool.or_false]
      exact or_congr_right ((matches_v4_iff hasio hn).trans (and_iff_left trivial).symm)
    | v6 bytes' scope' => exact (or_iff_left_of_imp fun hblock ↦ hblock.1.elim).symm
  · rw [hentry he, contains, contains]
    cases normalize x with
    | v4 bytes' => exact (or_iff_left_of_imp fun hblock ↦ hblock.1.elim).symm
    | v6 bytes' scope' =>
      dsimp only
      rw [List.any_append, Bool.or_eq_true, List.any_cons, List.any_nil, Bool.or_false]
      exact or_congr_right (matches_v6_iff hasio hn)

/-- **What is contained**, to the bit: the addresses in the block of an entry of their scope. -/
theorem contains_iff_scopedIn (hasio : ClearsHostBits asio) {entries : List Text}
    {proxies : TrustedProxies} (hadd : entries.foldlM (add asio) {} = .ok proxies) (x : Address) :
    contains asio proxies x = true ↔ ScopedIn asio entries (normalize x) := by
  have hempty : contains asio {} x = false := by
    rw [contains]
    cases normalize x <;> rfl
  have hround : ∀ before after, ∀ text ∈ entries, add asio before text = .ok after →
      (contains asio after x = true ↔ contains asio before x = true ∨
        ∃ address n, Entry asio text address n ∧ InBlock n address (normalize x) ∧
          SameScope address (normalize x)) :=
    fun before after text _ hstep ↦ contains_add hasio hstep x
  have hfold := Fallible.foldlM_iff_or hround hadd
  rwa [hempty, or_iff_right Bool.false_ne_true] at hfold

/-! ### Points -/

/-- The place of an address among all addresses: IPv4 addresses are their mapped forms, and scopes
do not matter. -/
def point : Address → BitVec 128
  | .v4 bytes => 0xffff#96 ++ bytes
  | .v6 bytes _ => bytes

/-- The length of a prefix, counted on the point. -/
def pointPrefix (n : ℕ) : Address → ℕ
  | .v4 _ => 96 + n
  | .v6 _ _ => n

/-- A mapped address and its IPv4 form are one point. -/
theorem point_normalize (x : Address) : point (normalize x) = point x := by
  cases x with
  | v4 bytes => rfl
  | v6 bytes scope =>
    rw [normalize]
    split
    · next hmapped =>
      have hhead : bytes.extractLsb' 32 96 = 0xffff#96 := eq_of_beq hmapped
      rw [point, point, ← hhead]
      refine BitVec.eq_of_getLsbD_eq fun i hi ↦ ?_
      rw [BitVec.getLsbD_append, BitVec.getLsbD_extractLsb', BitVec.getLsbD_extractLsb']
      split
      · next hlow => rw [decide_eq_true hlow, Bool.true_and, Nat.zero_add]
      · next hhigh =>
        rw [decide_eq_true (by omega : i - 32 < 96), Bool.true_and, Nat.add_sub_cancel' (by omega)]
    · rfl

/-- Blocks as they are seen in IPv6. -/
theorem inBlock_iff {n : ℕ} {a x : Address} :
    InBlock n a x ↔ a.width = x.width ∧ Agree (pointPrefix n a) (point x) (point a) := by
  cases a with
  | v4 bytes =>
    cases x with
    | v4 bytes' => exact (agree_append_iff 0xffff#96).symm.trans (and_iff_right rfl).symm
    | v6 bytes' scope' => exact ⟨False.elim, fun h ↦ absurd h.1 (show 32 ≠ 128 by decide)⟩
  | v6 bytes scope =>
    cases x with
    | v4 bytes' => exact ⟨False.elim, fun h ↦ absurd h.1 (show 128 ≠ 32 by decide)⟩
    | v6 bytes' scope' => exact (and_iff_right rfl).symm

/-- **The trusted addresses are those in the block of an entry**, provided that an address in the
block of some entry has the scope of one such entry. -/
theorem contains_iff (hasio : ClearsHostBits asio) {entries : List Text} {proxies : TrustedProxies}
    (hadd : entries.foldlM (add asio) {} = .ok proxies) {x : Address}
    (hscope : ∀ text ∈ entries, ∀ address n, Entry asio text address n →
      InBlock n address (normalize x) → ScopedIn asio entries (normalize x)) :
    contains asio proxies x = true ↔
      ∃ text ∈ entries, ∃ address n, Entry asio text address n ∧
        address.width = (normalize x).width ∧
        Agree (pointPrefix n address) (point x) (point address) := by
  have hpoint : ∀ address n, (address.width = (normalize x).width ∧
      Agree (pointPrefix n address) (point x) (point address)) ↔
        InBlock n address (normalize x) := fun address n ↦ by
    rw [inBlock_iff, point_normalize]
  rw [contains_iff_scopedIn hasio hadd]
  simp only [hpoint]
  constructor
  · rintro ⟨text, htext, address, n, hentry, hblock, -⟩
    exact ⟨text, htext, address, n, hentry, hblock⟩
  · rintro ⟨text, htext, address, n, hentry, hblock⟩
    exact hscope text htext address n hentry hblock

/-! ### IPv4 addresses in an IPv6 block -/

/-- Boost.Asio on IPv4 addresses and on `::`, with networks of both families. -/
def masks : Asio :=
  { dottedDecimal with
    makeAddress := fun text ↦
      if text = "::".toList then some (.v6 0 0) else dottedDecimal.makeAddress text
    canonicalV4 := fun network ↦
      { network with address := clear network.prefixLength network.address }
    canonicalV6 := fun network ↦
      { network with address := clear network.prefixLength network.address } }

theorem clearsHostBits_masks : ClearsHostBits masks where
  prefixV4 _ := rfl
  bitsV4 network := isPrefix_clear network.prefixLength network.address
  prefixV6 _ := rfl
  scopeV6 _ := rfl
  bitsV6 network := isPrefix_clear network.prefixLength network.address

/-- `10.0.0.0/8`, and `::ffff:10.1.2.3`. -/
theorem contains_iff_ten :
    ∃ text ∈ ["10.0.0.0/8".toList], ∃ address n, Entry masks text address n ∧
      address.width = (normalize (.v6 0xffff0a010203 0)).width ∧
      Agree (pointPrefix n address) (point (.v6 0xffff0a010203 0)) (point address) := by
  have hadd : ["10.0.0.0/8".toList].foldlM (add masks) {} =
      .ok ⟨[⟨0x0a000000, 8, by decide⟩], []⟩ := by decide
  have hmapped : normalize (.v6 0xffff0a010203 0) = .v4 0x0a010203 := by decide
  refine (contains_iff clearsHostBits_masks hadd fun text htext address n hentry hblock ↦ ?_).1
    (by decide)
  refine ⟨text, htext, address, n, hentry, hblock, ?_⟩
  rw [hmapped]
  cases address <;> trivial

/-- Every address is in `::/0`, and `10.0.0.1` is not contained. -/
theorem any_address_misses :
    ¬ ∀ (asio : Asio) (entries : List Text) (proxies : TrustedProxies), ClearsHostBits asio →
      entries.foldlM (add asio) {} = .ok proxies → ∀ x,
        (contains asio proxies x = true ↔ ∃ text ∈ entries, ∃ address n,
          asio.makeAddress (text.takeWhile (· != '/')) = some address ∧
          HasPrefix text address n ∧
          Agree (pointPrefix n address) (point x) (point address)) := by
  intro h
  have hadd : ["::/0".toList].foldlM (add masks) {} = .ok ⟨[], [⟨0, 0, 0, by decide⟩]⟩ := by
    decide
  have hcontains := (h masks _ _ clearsHostBits_masks hadd (.v4 0x0a000001)).2
    ⟨"::/0".toList, List.mem_cons_self, .v6 0 0, 0, by decide, .inr ⟨['0'], by decide, by decide⟩,
      fun i hi ↦ absurd hi (Nat.not_lt_zero i)⟩
  exact absurd hcontains (by decide)

end CppGate.Proxies
