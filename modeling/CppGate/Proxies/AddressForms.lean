import CppGate.Proxies.Forwarding

/-!
# The texts of addresses

The forms of an address that forwarding headers use, as a relation (`Form`): a literal, an IPv4
literal with a port, an IPv6 literal in brackets, with or without a port. `parseAddress` cuts the
literal out of the text and reads that; what it cuts away it does not look at. So it reads exactly
these forms but for what stands behind the literal (`as_documented_iff`).

What a literal is, Boost.Asio decides. It reads a C string, and so a text up to its first NUL.
-/

namespace CppGate.Proxies

variable {asio : Asio}

/-! ### Literals -/

/-- `c_str()`: a text up to its first NUL. -/
def cString (text : Text) : Text :=
  text.takeWhile (· != Char.ofNat 0)

/-- What is assumed of `make_address`: it reads a C string, no literal begins with a bracket, those
of IPv4 have no colon, and those of IPv6 have two. -/
structure ReadsLiterals (asio : Asio) : Prop where
  upToNul : ∀ text, asio.makeAddress text = asio.makeAddress (cString text)
  head : ∀ text address, asio.makeAddress text = some address → text.head? ≠ some '['
  colonV4 : ∀ text bytes, asio.makeAddress text = some (.v4 bytes) → ':' ∉ cString text
  colonsV6 : ∀ text bytes scope, asio.makeAddress text = some (.v6 bytes scope) →
    2 ≤ text.count ':'

/-! ### The documented forms -/

/-- A port: some digits. -/
def IsPort (port : Text) : Prop :=
  port ≠ [] ∧ ∀ c ∈ port, c.isDigit = true

/-- The forms of an address. A literal in brackets ends at the first closing one. -/
inductive Form (asio : Asio) : Text → Address → Prop
  | v4 {text : Text} {bytes : BitVec 32} (h : asio.makeAddress text = some (.v4 bytes)) :
    Form asio text (.v4 bytes)
  | v4Port {literal port : Text} {bytes : BitVec 32}
    (h : asio.makeAddress literal = some (.v4 bytes)) (hport : IsPort port) :
    Form asio (literal ++ ':' :: port) (.v4 bytes)
  | v6 {text : Text} {bytes : BitVec 128} {scope : ℕ}
    (h : asio.makeAddress text = some (.v6 bytes scope)) : Form asio text (.v6 bytes scope)
  | bracketed {literal : Text} {bytes : BitVec 128} {scope : ℕ} (hclosed : ']' ∉ literal)
    (h : asio.makeAddress literal = some (.v6 bytes scope)) :
    Form asio ('[' :: (literal ++ [']'])) (.v6 bytes scope)
  | bracketedPort {literal port : Text} {bytes : BitVec 128} {scope : ℕ} (hclosed : ']' ∉ literal)
    (h : asio.makeAddress literal = some (.v6 bytes scope)) (hport : IsPort port) :
    Form asio ('[' :: (literal ++ ']' :: ':' :: port)) (.v6 bytes scope)

/-- The text without the blanks around it and one pair of quotes. -/
def body (text : Text) : Text :=
  unquote (Text.trim text)

/-- The text is read as the address that it is a form of, and if it is none, it is rejected. -/
def AsDocumented (asio : Asio) (text : Text) : Prop :=
  ∀ address, parseAddress asio text = some address ↔
    ∃ raw, Form asio (body text) raw ∧ address = normalize raw

/-- What may stand behind the closing bracket of an IPv6 literal. -/
def EndsWell (raw : Address) (rest : Text) : Prop :=
  (∃ bytes scope, raw = .v6 bytes scope) ∧ (rest = [] ∨ ∃ port, rest = ':' :: port ∧ IsPort port)

/-- A literal is followed by something else than a form allows. -/
def Misread (asio : Asio) (text : Text) : Prop :=
  ∃ literal rest raw, asio.makeAddress literal = some raw ∧
    (body text = '[' :: (literal ++ ']' :: rest) ∧ ']' ∉ literal ∧ ¬ EndsWell raw rest ∨
      body text = literal ++ ':' :: rest ∧ (body text).count ':' = 1 ∧
        Char.ofNat 0 ∉ literal ∧ ¬ IsPort rest)

/-! ### What is read -/

variable {text literal rest : Text}

/-- A text that begins with a closed bracket is read up to it. -/
theorem parseAddress_bracketed (h : body text = '[' :: (literal ++ ']' :: rest))
    (hclosed : ']' ∉ literal) :
    parseAddress asio text = (asio.makeAddress literal).map normalize := by
  have hbody : unquote (Text.trim text) = '[' :: (literal ++ ']' :: rest) := h
  have hmem : ']' ∈ literal ++ ']' :: rest := List.mem_append_right _ List.mem_cons_self
  rw [parseAddress, hbody]
  refine (if_pos hmem).trans ?_
  rw [Text.takeWhile_append_cons hclosed]

/-- An open bracket is no address. -/
theorem parseAddress_unclosed (h : body text = '[' :: rest) (hopen : ']' ∉ rest) :
    parseAddress asio text = none := by
  have hbody : unquote (Text.trim text) = '[' :: rest := h
  rw [parseAddress, hbody]
  exact if_neg hopen

/-- Behind the only colon nothing is looked at. -/
theorem parseAddress_port (hhead : (body text).head? ≠ some '[')
    (h : body text = literal ++ ':' :: rest) (hcolon : ':' ∉ literal)
    (hcount : (body text).count ':' = 1) :
    parseAddress asio text = (asio.makeAddress literal).map normalize := by
  unfold parseAddress
  split
  · next rest hbody => exact absurd (congrArg List.head? hbody) hhead
  · refine (if_pos hcount).trans ?_
    have hbody : unquote (Text.trim text) = literal ++ ':' :: rest := h
    rw [hbody, Text.takeWhile_append_cons hcolon]

/-- Without brackets and with other than one colon, all of the text is read. -/
theorem parseAddress_plain (hhead : (body text).head? ≠ some '[')
    (hcount : (body text).count ':' ≠ 1) :
    parseAddress asio text = (asio.makeAddress (body text)).map normalize := by
  unfold parseAddress
  split
  · next rest hbody => exact absurd (congrArg List.head? hbody) hhead
  · exact if_neg hcount

/-! ### What the forms are -/

/-- A form is a literal, a literal and a port, or a literal in brackets. -/
theorem form_cases {raw : Address} (h : Form asio text raw) :
    asio.makeAddress text = some raw ∨
    (∃ literal port bytes, text = literal ++ ':' :: port ∧ raw = .v4 bytes ∧
      asio.makeAddress literal = some raw ∧ IsPort port) ∨
    ∃ literal rest, text = '[' :: (literal ++ ']' :: rest) ∧ ']' ∉ literal ∧
      asio.makeAddress literal = some raw ∧ EndsWell raw rest := by
  cases h with
  | v4 h => exact .inl h
  | v4Port h hport => exact .inr (.inl ⟨_, _, _, rfl, rfl, h, hport⟩)
  | v6 h => exact .inl h
  | bracketed hclosed h => exact .inr (.inr ⟨_, _, rfl, hclosed, h, ⟨_, _, rfl⟩, .inl rfl⟩)
  | bracketedPort hclosed h hport =>
    exact .inr (.inr ⟨_, _, rfl, hclosed, h, ⟨_, _, rfl⟩, .inr ⟨_, rfl, hport⟩⟩)

/-- A literal that Asio reads is an address. -/
theorem form_of_literal {raw : Address} (h : asio.makeAddress text = some raw) :
    Form asio text raw := by
  cases raw with
  | v4 bytes => exact .v4 h
  | v6 bytes scope => exact .v6 h

theorem form_of_bracketed {raw : Address} (hclosed : ']' ∉ literal)
    (h : asio.makeAddress literal = some raw) (hend : EndsWell raw rest) :
    Form asio ('[' :: (literal ++ ']' :: rest)) raw := by
  obtain ⟨⟨bytes, scope, rfl⟩, rfl | ⟨port, rfl, hport⟩⟩ := hend
  · exact .bracketed hclosed h
  · exact .bracketedPort hclosed h hport

/-- No literal begins with a bracket. -/
theorem no_bracket (hasio : ReadsLiterals asio) {raw : Address}
    (h : asio.makeAddress literal = some raw) {y : Text}
    (htext : literal ++ ':' :: rest = '[' :: y) : False := by
  refine hasio.head _ _ h ?_
  cases literal with
  | nil => cases htext
  | cons c literal => exact congrArg some (List.cons.inj htext).1

/-- What begins with a bracket is a literal in brackets. -/
theorem form_bracket_iff (hasio : ReadsLiterals asio) {y : Text} {raw : Address} :
    Form asio ('[' :: y) raw ↔ ∃ literal rest, y = literal ++ ']' :: rest ∧ ']' ∉ literal ∧
      asio.makeAddress literal = some raw ∧ EndsWell raw rest := by
  constructor
  · intro h
    obtain hy | ⟨literal, port, bytes, htext, -, hliteral, -⟩ | ⟨literal, rest, htext, hrest⟩ :=
      form_cases h
    · exact absurd rfl (hasio.head _ _ hy)
    · exact (no_bracket hasio hliteral htext.symm).elim
    · exact ⟨literal, rest, (List.cons.inj htext).2, hrest⟩
  · rintro ⟨literal, rest, rfl, hclosed, h, hend⟩
    exact form_of_bracketed hclosed h hend

/-- A NUL ends the text. -/
theorem makeAddress_of_nul (hasio : ReadsLiterals asio) (h : Char.ofNat 0 ∈ literal) (rest : Text) :
    asio.makeAddress (literal ++ rest) = asio.makeAddress literal := by
  obtain ⟨x, y, rfl, hx⟩ := List.eq_append_cons_of_mem h
  rw [hasio.upToNul, hasio.upToNul (x ++ _), cString, cString, List.append_assoc, List.cons_append,
    Text.takeWhile_append_cons hx, Text.takeWhile_append_cons hx]

/-- There is no colon in front of the only one. -/
theorem not_mem_of_count (htext : text = literal ++ ':' :: rest) (hcount : text.count ':' = 1) :
    ':' ∉ literal := by
  rw [htext, List.count_append, List.count_cons_self] at hcount
  exact List.count_eq_zero.1 (by omega)

/-- What has one colon is an IPv4 literal with a port. -/
theorem form_port_iff (hasio : ReadsLiterals asio) (hhead : text.head? ≠ some '[')
    (htext : text = literal ++ ':' :: rest) (hcount : text.count ':' = 1) {raw : Address} :
    Form asio text raw ↔
      asio.makeAddress literal = some raw ∧ (Char.ofNat 0 ∈ literal ∨ IsPort rest) := by
  have hliteral := not_mem_of_count htext hcount
  constructor
  · intro h
    obtain h | ⟨literal', port, bytes, htext', -, h, hport⟩ | ⟨literal', rest', htext', -⟩ :=
      form_cases h
    · have hnul : Char.ofNat 0 ∈ literal := by
        by_contra hnul
        cases raw with
        | v4 bytes =>
          refine hasio.colonV4 _ _ h ?_
          rw [htext, cString, List.takeWhile_append_of_pos (Text.bne_of_not_mem hnul)]
          rw [List.takeWhile_cons_of_pos (by decide)]
          exact List.mem_append_right _ List.mem_cons_self
        | v6 bytes scope => exact absurd (hasio.colonsV6 _ _ _ h) (by omega)
      rw [htext, makeAddress_of_nul hasio hnul] at h
      exact ⟨h, .inl hnul⟩
    · obtain ⟨rfl, rfl⟩ := Text.append_cons_inj hliteral (not_mem_of_count htext' hcount)
        (htext.symm.trans htext')
      exact ⟨h, .inr hport⟩
    · exact absurd (congrArg List.head? htext') hhead
  · rintro ⟨h, hnul | hport⟩
    · refine form_of_literal ?_
      rw [htext, makeAddress_of_nul hasio hnul, h]
    · cases raw with
      | v4 bytes => exact htext ▸ .v4Port h hport
      | v6 bytes scope =>
        have hcolons := hasio.colonsV6 _ _ _ h
        rw [List.count_eq_zero.2 hliteral] at hcolons
        omega

/-- What has no colon or several is a literal. -/
theorem form_plain_iff (hasio : ReadsLiterals asio) (hhead : text.head? ≠ some '[')
    (hcount : text.count ':' ≠ 1) {raw : Address} :
    Form asio text raw ↔ asio.makeAddress text = some raw := by
  refine ⟨fun h ↦ ?_, form_of_literal⟩
  obtain h | ⟨literal, port, bytes, rfl, rfl, h, hport⟩ | ⟨literal, rest, htext, -⟩ := form_cases h
  · exact h
  · -- A second colon can only stand behind a NUL.
    have hnul : Char.ofNat 0 ∈ literal := by
      by_contra hnul
      have hall : cString literal = literal :=
        List.takeWhile_eq_self_iff.2 (Text.bne_of_not_mem hnul)
      have hliteral : literal.count ':' = 0 :=
        List.count_eq_zero.2 (hall ▸ hasio.colonV4 _ _ h)
      have hdigits : port.count ':' = 0 :=
        List.count_eq_zero.2 fun hmem ↦ absurd (hport.2 ':' hmem) (by decide)
      rw [List.count_append, List.count_cons_self, hliteral, hdigits] at hcount
      exact hcount rfl
    rw [makeAddress_of_nul hasio hnul, h]
  · exact absurd (congrArg List.head? htext) hhead

/-! ### The guarantee -/

/-- A text is read as documented if the literal that is cut out of it makes it a form. -/
theorem asDocumented_of {literal? : Option Address} {P : Address → Prop}
    (hparse : parseAddress asio text = literal?.map normalize)
    (hform : ∀ raw, Form asio (body text) raw ↔ literal? = some raw ∧ P raw) :
    AsDocumented asio text ↔ ∀ raw, literal? = some raw → P raw := by
  rw [AsDocumented, hparse]
  constructor
  · intro h raw hraw
    obtain ⟨raw', hraw', -⟩ := (h (normalize raw)).1 (congrArg (Option.map normalize) hraw)
    obtain ⟨hliteral, hP⟩ := (hform raw').1 hraw'
    exact Option.some.inj (hliteral.symm.trans hraw) ▸ hP
  · intro h address
    rw [Option.map_eq_some_iff]
    constructor
    · rintro ⟨raw, hraw, rfl⟩
      exact ⟨raw, (hform raw).2 ⟨hraw, h raw hraw⟩, rfl⟩
    · rintro ⟨raw, hraw, rfl⟩
      exact ⟨raw, ((hform raw).1 hraw).1, rfl⟩

/-- A text that is read as nothing but its literal. -/
theorem asDocumented_of_iff {literal? : Option Address}
    (hparse : parseAddress asio text = literal?.map normalize)
    (hform : ∀ raw, Form asio (body text) raw ↔ literal? = some raw) : AsDocumented asio text := by
  refine (asDocumented_of (P := fun _ ↦ True) hparse fun raw ↦ ?_).2 fun _ _ ↦ trivial
  rw [hform, and_true]

/-- Brackets are read as documented if an IPv6 literal stands in them, and a port behind. -/
theorem asDocumented_bracketed (hasio : ReadsLiterals asio)
    (hbody : body text = '[' :: (literal ++ ']' :: rest)) (hclosed : ']' ∉ literal) :
    AsDocumented asio text ↔ ∀ raw, asio.makeAddress literal = some raw → EndsWell raw rest := by
  refine asDocumented_of (parseAddress_bracketed hbody hclosed) fun raw ↦ ?_
  rw [hbody, form_bracket_iff hasio]
  constructor
  · rintro ⟨literal', rest', htext, hclosed', hraw, hend⟩
    obtain ⟨rfl, rfl⟩ := Text.append_cons_inj hclosed hclosed' htext
    exact ⟨hraw, hend⟩
  · rintro ⟨hraw, hend⟩
    exact ⟨literal, rest, rfl, hclosed, hraw, hend⟩

theorem asDocumented_unclosed (hasio : ReadsLiterals asio) (hbody : body text = '[' :: rest)
    (hopen : ']' ∉ rest) : AsDocumented asio text := by
  have hparse : parseAddress asio text = (none : Option Address).map normalize :=
    parseAddress_unclosed hbody hopen
  refine asDocumented_of_iff hparse fun raw ↦ ?_
  rw [hbody, form_bracket_iff hasio]
  constructor
  · rintro ⟨literal, behind, rfl, -⟩
    exact absurd (List.mem_append_right _ List.mem_cons_self) hopen
  · exact fun h ↦ absurd h.symm (Option.some_ne_none raw)

/-- **Texts are read as documented** exactly if behind the literal stands what its form allows. -/
theorem asDocumented_iff (hasio : ReadsLiterals asio) (text : Text) :
    AsDocumented asio text ↔ ¬ Misread asio text := by
  by_cases hhead : (body text).head? = some '['
  · obtain ⟨y, hbody⟩ := List.head?_eq_some_iff.1 hhead
    by_cases hbracket : ']' ∈ y
    · -- a literal in brackets
      obtain ⟨literal, rest, rfl, hclosed⟩ := List.eq_append_cons_of_mem hbracket
      rw [asDocumented_bracketed hasio hbody hclosed]
      constructor
      · rintro h ⟨literal', rest', raw, hraw, ⟨hbody', hclosed', hend⟩ | ⟨hbody', -⟩⟩
        · obtain ⟨rfl, rfl⟩ := Text.append_cons_inj hclosed hclosed'
            (List.cons.inj (hbody.symm.trans hbody')).2
          exact hend (h raw hraw)
        · exact no_bracket hasio hraw (hbody'.symm.trans hbody)
      · intro h raw hraw
        by_contra hend
        exact h ⟨literal, rest, raw, hraw, .inl ⟨hbody, hclosed, hend⟩⟩
    · -- no closing bracket
      refine iff_of_true (asDocumented_unclosed hasio hbody hbracket) ?_
      rintro ⟨literal', rest', raw, hraw, ⟨hbody', -⟩ | ⟨hbody', -⟩⟩
      · rw [(List.cons.inj (hbody.symm.trans hbody')).2] at hbracket
        exact hbracket (List.mem_append_right _ List.mem_cons_self)
      · exact no_bracket hasio hraw (hbody'.symm.trans hbody)
  · have hmisread : ∀ {literal rest : Text}, body text ≠ '[' :: (literal ++ ']' :: rest) :=
      fun hbody ↦ hhead (congrArg List.head? hbody)
    by_cases hcount : (body text).count ':' = 1
    · -- one colon
      have hmem : ':' ∈ body text := List.count_pos_iff.1 (by omega)
      obtain ⟨literal, rest, hbody, hcolon⟩ := List.eq_append_cons_of_mem hmem
      rw [asDocumented_of (parseAddress_port hhead hbody hcolon hcount)
        fun raw ↦ form_port_iff hasio hhead hbody hcount]
      constructor
      · rintro h ⟨literal', rest', raw, hraw, ⟨hbody', -⟩ | ⟨hbody', -, hnul, hport⟩⟩
        · exact hmisread hbody'
        · obtain ⟨rfl, rfl⟩ := Text.append_cons_inj hcolon (not_mem_of_count hbody' hcount)
            (hbody.symm.trans hbody')
          exact (h raw hraw).elim hnul hport
      · intro h raw hraw
        by_contra hend
        rw [not_or] at hend
        exact h ⟨literal, rest, raw, hraw, .inr ⟨hbody, hcount, hend⟩⟩
    · -- a literal
      refine iff_of_true (asDocumented_of_iff (parseAddress_plain hhead hcount)
        fun raw ↦ form_plain_iff hasio hhead hcount) ?_
      rintro ⟨literal', rest', raw, -, ⟨hbody', -⟩ | ⟨-, hcount', -⟩⟩
      · exact hmisread hbody'
      · exact hcount hcount'

/-! ### Text behind a literal -/

/-- Boost.Asio on IPv4 literals and on `::1`. -/
def literals : Asio :=
  { dottedDecimal with
    makeAddress := fun text ↦
      if cString text = "::1".toList then some (.v6 1 0)
      else dottedDecimal.makeAddress (cString text) }

theorem cString_cString (text : Text) : cString (cString text) = cString text :=
  List.takeWhile_eq_self_iff.2 fun _ hc ↦ List.mem_takeWhile_imp (p := (· != Char.ofNat 0)) hc

/-- IPv4 literals are digits and dots. -/
theorem v4_of_dottedDecimal {text : Text} {raw : Address}
    (h : dottedDecimal.makeAddress text = some raw) :
    (∀ c ∈ text, (c.isDigit || c == '.') = true) ∧ ∃ bytes, raw = .v4 bytes := by
  simp only [dottedDecimal] at h
  split at h
  · next hall _ => exact ⟨List.all_eq_true.1 hall, _, (Option.some.inj h).symm⟩
  · exact absurd h.symm (Option.some_ne_none raw)

theorem literals_cases {text : Text} {raw : Address}
    (h : literals.makeAddress text = some raw) :
    cString text = "::1".toList ∧ raw = .v6 1 0 ∨
      (∀ c ∈ cString text, (c.isDigit || c == '.') = true) ∧ ∃ bytes, raw = .v4 bytes := by
  simp only [literals] at h
  split at h
  · next htext => exact .inl ⟨htext, (Option.some.inj h).symm⟩
  · exact .inr (v4_of_dottedDecimal h)

theorem readsLiterals_literals : ReadsLiterals literals where
  upToNul text := by simp only [literals, cString_cString]
  head text raw h hhead := by
    obtain ⟨y, rfl⟩ := List.head?_eq_some_iff.1 hhead
    have hcString : cString ('[' :: y) = '[' :: cString y :=
      List.takeWhile_cons_of_pos (by decide)
    obtain ⟨htext, -⟩ | ⟨hall, -⟩ := literals_cases h
    · rw [hcString] at htext
      exact absurd (List.cons.inj htext).1 (by decide)
    · exact absurd (hall '[' (hcString ▸ List.mem_cons_self)) (by decide)
  colonV4 text bytes h hmem := by
    obtain ⟨-, hraw⟩ | ⟨hall, -⟩ := literals_cases h
    · cases hraw
    · exact absurd (hall ':' hmem) (by decide)
  colonsV6 text bytes scope h := by
    obtain ⟨htext, -⟩ | ⟨-, bytes', hraw⟩ := literals_cases h
    · calc
        2 = (cString text).count ':' := by rw [htext]; decide
        _ ≤ text.count ':' := (List.takeWhile_sublist _).count_le ':'
    · cases hraw

theorem asDocumented_iff_port :
    AsDocumented literals "\"[::1]:80\"".toList ↔ ¬ Misread literals "\"[::1]:80\"".toList :=
  asDocumented_iff readsLiterals_literals _

/-- `1.2.3.4:x`. -/
theorem port_not_checked :
    ¬ (∀ asio, ReadsLiterals asio → ∀ text, AsDocumented asio text) ∧
    parseAddress literals "1.2.3.4:x".toList = some (.v4 0x01020304) := by
  have hparse : parseAddress literals "1.2.3.4:x".toList = some (.v4 0x01020304) := by decide
  refine ⟨fun h ↦ ?_, hparse⟩
  obtain ⟨raw, hform, -⟩ := (h literals readsLiterals_literals _ _).1 hparse
  have hbody : body "1.2.3.4:x".toList = "1.2.3.4".toList ++ ':' :: ['x'] := by decide
  have hport := (form_port_iff readsLiterals_literals (by decide) hbody (by decide)).1 hform
  obtain hnul | hport := hport.2
  · exact absurd hnul (by decide)
  · exact absurd (hport.2 'x' List.mem_cons_self) (by decide)

end CppGate.Proxies
