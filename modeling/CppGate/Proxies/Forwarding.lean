import CppGate.Proxies.TrustedProxies

/-!
# A client cannot choose its address

A request travels from a client through a chain of proxies, each of which appends the address it
received the request from to the `X-Forwarded-For` list. Whatever the client wrote there stays to
the left of that (`hops_of_relay`), the scan reads from the right, and it stops at the client
(`scan_trusted`).
-/

namespace CppGate.Proxies

open Http

variable {asio : Asio} {proxies : TrustedProxies}

/-! ### What is assumed of the addresses' texts -/

/-- What the printed form of an address is assumed to be: it reads back, it is no list, is neither
quoted nor bracketed, holds no blanks, and does not look like an IPv4 address with a port. -/
structure Printed (asio : Asio) (a : Address) : Prop where
  makeAddress_toString : asio.makeAddress (asio.toString a) = some a
  comma : ',' ∉ asio.toString a
  quote : '"' ∉ asio.toString a
  bracket : '[' ∉ asio.toString a
  blank : ∀ c ∈ asio.toString a, Text.isBlank c = false
  colon : (asio.toString a).count ':' ≠ 1

/-- A printed address is read as its normalized form. -/
theorem Printed.parseAddress_toString {a : Address} (h : Printed asio a) :
    parseAddress asio (asio.toString a) = some (normalize a) := by
  have hunquote : unquote (Text.trim (asio.toString a)) = asio.toString a := by
    rw [Text.trim_eq_self h.blank, unquote, if_neg]
    intro ⟨_, hhead, _⟩
    exact h.quote (List.mem_of_head? hhead)
  rw [parseAddress, hunquote]
  split
  · next rest hrest => exact absurd (hrest ▸ List.mem_cons_self) h.bracket
  · rw [if_neg h.colon, h.makeAddress_toString]
    rfl

/-- So is a printed address with a blank in front, as it stands after a comma. -/
theorem Printed.parseAddress_blank {a : Address} (h : Printed asio a) :
    parseAddress asio (' ' :: asio.toString a) = some (normalize a) := by
  have htrim : Text.trim (' ' :: asio.toString a) = Text.trim (asio.toString a) :=
    Text.trim_cons_blank rfl _
  rw [← h.parseAddress_toString, parseAddress, parseAddress, htrim]

@[simp] theorem contains_normalize (a : Address) :
    contains asio proxies (normalize a) = contains asio proxies a := by
  rw [contains, contains, normalize_normalize]

theorem empty_of_contains {a : Address} (h : contains asio proxies a = true) :
    empty proxies = false := by
  rw [empty, Bool.and_eq_false_iff]
  unfold contains at h
  split at h
  · obtain ⟨network, hmem, -⟩ := List.any_eq_true.1 h
    exact Or.inl (by simpa using List.ne_nil_of_mem hmem)
  · obtain ⟨network, hmem, -⟩ := List.any_eq_true.1 h
    exact Or.inr (by simpa using List.ne_nil_of_mem hmem)

/-! ### Proxies -/

/-- The values of the X-Forwarded-For fields. -/
abbrev forwardedFor (fields : List Field) : List Text :=
  equalRange fields "X-Forwarded-For".toList

/-- The hops are those of all the fields, in their order. -/
theorem hops_eq (fields : List Field) :
    hops fields = (forwardedFor fields).flatMap fun value ↦ value.splitOn ',' := rfl

/-- A proxy passes a request on: it appends a text to the X-Forwarded-For list, as a new last field
or at the end of the last one, and does what it likes with the other fields. -/
def Appended (text : Text) (fields fields' : List Field) : Prop :=
  forwardedFor fields' = forwardedFor fields ++ [text] ∨
    ∃ init last, forwardedFor fields = init ++ [last] ∧
      forwardedFor fields' = init ++ [last ++ ", ".toList ++ text]

/-- A request from `sender` passes through a chain of proxies: each appends the address it received
the request from. -/
inductive Relayed (asio : Asio) : Address → List Address → List Field → List Field → Prop
  | arrived (sender : Address) (fields : List Field) : Relayed asio sender [] fields fields
  | proxy {sender p : Address} {ps : List Address} {fields fields' fields'' : List Field}
    (happ : Appended (asio.toString sender) fields fields')
    (hrest : Relayed asio p ps fields' fields'') : Relayed asio sender (p :: ps) fields fields''

/-- A hop that a proxy appended: the text of an address, with or without the blank after a comma. -/
def HopOf (asio : Asio) (a : Address) (hop : Text) : Prop :=
  hop = asio.toString a ∨ hop = ' ' :: asio.toString a

/-- A hop that a proxy appended is read as the address that it saw. -/
theorem HopOf.parseAddress {a : Address} {hop : Text} (h : HopOf asio a hop)
    (ha : Printed asio a) : parseAddress asio hop = some (normalize a) := by
  rcases h with rfl | rfl
  · exact ha.parseAddress_toString
  · exact ha.parseAddress_blank

/-- Appending a text without commas appends one hop, and changes none that was there. -/
theorem Appended.hops {a : Address} {fields fields' : List Field} (ha : Printed asio a)
    (h : Appended (asio.toString a) fields fields') :
    ∃ hop, HopOf asio a hop ∧ hops fields' = hops fields ++ [hop] := by
  rcases h with h | ⟨init, last, hinit, h⟩
  · refine ⟨asio.toString a, Or.inl rfl, ?_⟩
    rw [hops_eq, hops_eq, h, List.flatMap_append, List.flatMap_singleton,
      List.splitOn_eq_singleton ha.comma]
  · refine ⟨' ' :: asio.toString a, Or.inr rfl, ?_⟩
    have hblank : ',' ∉ ' ' :: asio.toString a := by simp [ha.comma]
    have hsplit : (last ++ ", ".toList ++ asio.toString a).splitOn ',' =
        last.splitOn ',' ++ [' ' :: asio.toString a] := by
      rw [← List.splitOn_eq_singleton hblank, ← List.splitOn_append_cons_self, List.append_assoc]
      rfl
    rw [hops_eq, hops_eq, h, hinit, List.flatMap_append, List.flatMap_append,
      List.flatMap_singleton, List.flatMap_singleton, hsplit, List.append_assoc]

/-- After the last proxy, the client's own fields are followed by one hop for each address the
request was received from: the client's, and those of all proxies but the last. -/
theorem hops_of_relay {sender : Address} {ps : List Address} {fields fields' : List Field}
    (hrelay : Relayed asio sender ps fields fields')
    (hprint : ∀ a ∈ sender :: ps, Printed asio a) :
    ∃ appended, List.Forall₂ (HopOf asio) (sender :: ps).dropLast appended ∧
      hops fields' = hops fields ++ appended := by
  induction hrelay with
  | arrived sender fields => exact ⟨[], .nil, (List.append_nil _).symm⟩
  | @proxy sender p ps fields fields' fields'' happ hrest ih =>
    obtain ⟨hop, hhop, heq⟩ := happ.hops (hprint sender List.mem_cons_self)
    obtain ⟨appended, hall, heq'⟩ := ih fun a ha ↦ hprint a (List.mem_cons_of_mem _ ha)
    refine ⟨hop :: appended, ?_, ?_⟩
    · rw [List.dropLast_cons_cons]
      exact .cons hhop hall
    · rw [heq', heq, List.append_assoc, List.singleton_append]

/-! ### The scan -/

/-- The scan passes over the hops of trusted proxies and answers with the first other address. -/
theorem scan_trusted {closest c : Address} {ps : List Address} {trusted left : List Text}
    {hop : Text} (hps : List.Forall₂ (HopOf asio) ps trusted)
    (hprint : ∀ p ∈ ps, Printed asio p) (htrust : ∀ p ∈ ps, contains asio proxies p = true)
    (hhop : HopOf asio c hop) (hc : Printed asio c) (hout : contains asio proxies c = false) :
    scan asio proxies closest (trusted ++ hop :: left) = asio.toString (normalize c) := by
  induction hps generalizing closest with
  | nil =>
    rw [List.nil_append, scan, hhop.parseAddress hc]
    dsimp only
    rw [contains_normalize, hout, if_neg Bool.false_ne_true]
  | @cons p hop' ps trusted hp _ ih =>
    rw [List.cons_append, scan, hp.parseAddress (hprint p List.mem_cons_self)]
    dsimp only
    rw [contains_normalize, htrust p List.mem_cons_self, if_pos rfl]
    exact ih (fun q hq ↦ hprint q (List.mem_cons_of_mem _ hq))
      fun q hq ↦ htrust q (List.mem_cons_of_mem _ hq)

/-- **The client's address cannot be spoofed.** -/
theorem resolve_relayed {c : Address} {ps : List Address} {sent received : List Field}
    (hps : ps ≠ []) (hrelay : Relayed asio c ps sent received)
    (hprint : ∀ a ∈ c :: ps, Printed asio a) (hout : contains asio proxies c = false)
    (htrust : ∀ p ∈ ps, contains asio proxies p = true) :
    resolve asio proxies (asio.toString (ps.getLast hps)) received =
      asio.toString (normalize c) := by
  have hlast := htrust _ (List.getLast_mem hps)
  have hpeer := (hprint _ (List.mem_cons_of_mem c (List.getLast_mem hps))).parseAddress_toString
  obtain ⟨appended, hall, hhops⟩ := hops_of_relay hrelay hprint
  rw [List.dropLast_cons_of_ne_nil hps] at hall
  obtain ⟨hop, trusted, hhop, htrusted, rfl⟩ := List.forall₂_cons_left_iff.1 hall
  rw [resolve, hpeer]
  dsimp only
  rw [contains_normalize, hlast, empty_of_contains hlast, if_neg (by simp),
    if_pos (by simp [hhops]), hhops, List.reverse_append, List.reverse_cons, List.append_assoc,
    List.singleton_append]
  have hreverse : List.Forall₂ (HopOf asio) ps.dropLast.reverse trusted.reverse :=
    List.rel_reverse htrusted
  refine scan_trusted hreverse ?_ ?_ hhop (hprint c List.mem_cons_self) hout
  · exact fun p hp ↦ hprint p
      (List.mem_cons_of_mem c (List.mem_of_mem_dropLast (List.mem_reverse.1 hp)))
  · exact fun p hp ↦ htrust p (List.mem_of_mem_dropLast (List.mem_reverse.1 hp))

/-- Boost.Asio on IPv4 addresses, for runs on fixed inputs. -/
def dottedDecimal : Asio where
  makeAddress text :=
    match text.all (fun c ↦ c.isDigit || c == '.'), (text.splitOn '.').map stoul with
    | true, [a, b, c, d] => some (.v4 (BitVec.ofNat 32 (((a * 256 + b) * 256 + c) * 256 + d)))
    | _, _ => none
  toString
    | .v4 bytes =>
      ['.'].intercalate ([24, 16, 8, 0].map fun i ↦ Nat.toDigits 10 (bytes.toNat / 2 ^ i % 256))
    | .v6 _ _ => []
  canonicalV4 network :=
    { network with
      address := BitVec.allOnes 32 <<< (32 - network.prefixLength) &&& network.address }
  canonicalV6 network := network

/-- A client with a forged field, then a proxy that extends it, then one that adds its own. -/
theorem resolve_relayed_forged :
    resolve dottedDecimal ⟨[⟨0x0a000000, 8, by decide⟩], []⟩ "10.0.0.1".toList
        [⟨"X-Forwarded-For".toList, "1.1.1.1, 203.0.113.7".toList⟩,
          ⟨"x-forwarded-for".toList, "10.0.0.2".toList⟩] = "203.0.113.7".toList := by
  have hblank (a : Address) (ha : (dottedDecimal.toString a).any Text.isBlank = false) (c : Char)
      (hc : c ∈ dottedDecimal.toString a) : Text.isBlank c = false :=
    Bool.eq_false_iff.2 (List.any_eq_false.1 ha c hc)
  have hprint : ∀ a ∈ [Address.v4 0xcb007107, .v4 0x0a000002, .v4 0x0a000001],
      Printed dottedDecimal a := by
    simp only [List.forall_mem_cons]
    refine ⟨?_, ?_, ?_, fun _ ha ↦ absurd ha List.not_mem_nil⟩ <;>
      exact ⟨by decide, by decide, by decide, by decide, hblank _ (by decide), by decide⟩
  have hfirst : Appended (dottedDecimal.toString (.v4 0xcb007107))
      [⟨"X-Forwarded-For".toList, "1.1.1.1".toList⟩]
      [⟨"X-Forwarded-For".toList, "1.1.1.1, 203.0.113.7".toList⟩] :=
    Or.inr ⟨[], "1.1.1.1".toList, by decide, by decide⟩
  have hsecond : Appended (dottedDecimal.toString (.v4 0x0a000002))
      [⟨"X-Forwarded-For".toList, "1.1.1.1, 203.0.113.7".toList⟩]
      [⟨"X-Forwarded-For".toList, "1.1.1.1, 203.0.113.7".toList⟩,
        ⟨"x-forwarded-for".toList, "10.0.0.2".toList⟩] := Or.inl (by decide)
  have hrelay := Relayed.proxy hfirst (.proxy hsecond (.arrived (.v4 0x0a000001) _))
  exact resolve_relayed (List.cons_ne_nil _ _) hrelay hprint (by decide) (by decide)

end CppGate.Proxies
