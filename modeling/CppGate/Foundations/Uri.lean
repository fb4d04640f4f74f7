import CppGate.Foundations.Text

/-!
# URI references

The parts of a URI reference by the generic syntax: a scheme up to a colon, an authority behind two
slashes, the path up to a question mark or a number sign. The functions split any text; which texts
are references is not looked at.

Percent-decoding goes over a text from the left, and so over its parts, if the second part does not
begin with a digit that could be the end of an escape (`percentDecode_append`).
-/

namespace Uri

/-! ### The parts -/

/-- What ends a path. -/
def endsPath (c : Char) : Bool :=
  c == '?' || c == '#'

/-- What ends an authority. -/
def endsAuthority (c : Char) : Bool :=
  c == '/' || endsPath c

/-- The text in front of the query and the fragment. -/
def hierarchical (ref : Text) : Text :=
  ref.takeWhile fun c ↦ !endsPath c

/-- The text behind the scheme and its colon, if there is a scheme. -/
def afterScheme (ref : Text) : Text :=
  match ref.dropWhile fun c ↦ !(c == ':' || endsAuthority c) with
  | ':' :: rest => if ref.head? = some ':' then ref else rest
  | _ => ref

/-- The path. -/
def path (ref : Text) : Text :=
  match afterScheme (hierarchical ref) with
  | '/' :: '/' :: rest => rest.dropWhile (· != '/')
  | rest => rest

theorem hierarchical_cons {c : Char} (h : endsPath c = false) (ref : Text) :
    hierarchical (c :: ref) = c :: hierarchical ref :=
  List.takeWhile_cons_of_pos (by rw [h]; rfl)

/-- What begins with a slash has no scheme. -/
theorem afterScheme_of_slash (ref : Text) : afterScheme ('/' :: ref) = '/' :: ref := by
  rw [afterScheme, List.dropWhile_cons_of_neg (by decide)]
  rfl

/-- One slash begins a path. -/
theorem path_of_slash {ref : Text} (h : ref.head? ≠ some '/') :
    path ('/' :: ref) = hierarchical ('/' :: ref) := by
  rw [path, hierarchical_cons (by decide), afterScheme_of_slash]
  split
  · next rest hrest =>
    obtain ⟨-, hrest⟩ := List.cons.inj hrest
    have hlen : '/' :: rest <+: ref := hrest ▸ List.takeWhile_prefix _
    obtain ⟨behind, rfl⟩ := hlen
    exact absurd rfl h
  · rfl

/-- Two slashes begin an authority. -/
theorem path_of_slashes (ref : Text) :
    path ('/' :: '/' :: ref) = (hierarchical ref).dropWhile (· != '/') := by
  rw [path, hierarchical_cons (by decide), hierarchical_cons (by decide), afterScheme_of_slash]
  rfl

/-! ### The host -/

/-- The authority at the beginning of a text. -/
def authority (text : Text) : Text :=
  text.takeWhile fun c ↦ !endsAuthority c

/-- The host in an authority: behind the user, in front of the port. -/
def hostOf (authority : Text) : Text :=
  (authority.rtakeWhile (· != '@')).takeWhile (· != ':')

/-- The host of the authority at the beginning of a text. -/
def host (text : Text) : Text :=
  hostOf (authority text)

/-- An authority goes on through text that does not end it. -/
theorem authority_append {x : Text} (hx : ∀ c ∈ x, endsAuthority c = false) (y : Text) :
    authority (x ++ y) = x ++ authority y :=
  List.takeWhile_append_of_pos fun c hc ↦ by rw [hx c hc]; rfl

theorem authority_eq_self {x : Text} (hx : ∀ c ∈ x, endsAuthority c = false) : authority x = x :=
  List.takeWhile_eq_self_iff.2 fun c hc ↦ by rw [hx c hc]; rfl

/-- Nothing in an authority ends it. -/
theorem endsAuthority_of_mem {x : Text} {c : Char} (hc : c ∈ authority x) :
    endsAuthority c = false := by
  rw [authority] at hc
  have hopen := List.mem_takeWhile_imp (p := fun c ↦ !endsAuthority c) hc
  rwa [Bool.not_eq_true'] at hopen

theorem authority_append_cons {x : Text} (hx : ∀ c ∈ x, endsAuthority c = false) {c : Char}
    (hc : endsAuthority c = true) (y : Text) : authority (x ++ c :: y) = x := by
  rw [authority_append hx, authority, List.takeWhile_cons_of_neg (by rw [hc]; decide),
    List.append_nil]

/-- Where an authority ends, more text does not matter. -/
theorem authority_append_of_mem {x : Text} (h : ∃ c ∈ x, endsAuthority c = true) (y : Text) :
    authority (x ++ y) = authority x := by
  obtain ⟨c, hc, hend⟩ := h
  exact Text.takeWhile_append_of_mem ⟨c, hc, by rw [hend]; rfl⟩ y

/-- Without a user the host begins at once. -/
theorem hostOf_of_not_mem {x : Text} (h : '@' ∉ x) : hostOf x = x.takeWhile (· != ':') := by
  rw [hostOf, List.rtakeWhile_eq_self_iff.2 (Text.bne_of_not_mem h)]

/-- What stands in front of a user does not matter. -/
theorem hostOf_append_of_mem {y : Text} (h : '@' ∈ y) (x : Text) : hostOf (x ++ y) = hostOf y := by
  have hstop : ∃ c ∈ y.reverse, (c != '@') = false := ⟨'@', List.mem_reverse.2 h, by decide⟩
  rw [hostOf, hostOf, List.rtakeWhile, List.rtakeWhile, List.reverse_append,
    Text.takeWhile_append_of_mem hstop]

/-- A colon ends the host. -/
theorem hostOf_append_colon (x : Text) : hostOf (x ++ [':']) = hostOf x := by
  have hcolon : ∀ y : Text, (y ++ [':']).takeWhile (· != ':') = y.takeWhile (· != ':') := by
    intro y
    by_cases hy : ':' ∈ y
    · exact Text.takeWhile_append_of_mem ⟨':', hy, by decide⟩ _
    · rw [Text.takeWhile_append_cons hy, List.takeWhile_eq_self_iff.2 (Text.bne_of_not_mem hy)]
  rw [hostOf, hostOf, List.rtakeWhile_concat_pos _ _ _ (by decide), hcolon]

/-! ### Percent-decoding -/

/-- The value of a hexadecimal digit. -/
def hexDigit (c : Char) : Option ℕ :=
  if '0' ≤ c ∧ c ≤ '9' then some (c.toNat - '0'.toNat)
  else if 'a' ≤ c ∧ c ≤ 'f' then some (c.toNat - 'a'.toNat + 10)
  else if 'A' ≤ c ∧ c ≤ 'F' then some (c.toNat - 'A'.toNat + 10)
  else none

/-- The text with every escape replaced by its byte. -/
def percentDecode : Text → Text
  | [] => []
  | '%' :: a :: b :: text =>
    match hexDigit a, hexDigit b with
    | some m, some n => Char.ofNat (16 * m + n) :: percentDecode text
    | _, _ => '%' :: percentDecode (a :: b :: text)
  | c :: text => c :: percentDecode text

/-- A character that does not begin an escape stays as it is. -/
theorem percentDecode_cons {c : Char} {text : Text}
    (h : ∀ a b rest, c = '%' → text = a :: b :: rest → hexDigit a = none ∨ hexDigit b = none) :
    percentDecode (c :: text) = c :: percentDecode text := by
  by_cases hescape : ∃ a b rest, c = '%' ∧ text = a :: b :: rest
  · obtain ⟨a, b, rest, rfl, rfl⟩ := hescape
    rw [percentDecode]
    split
    · next m n hm hn =>
      rcases h a b rest rfl rfl with hnone | hnone
      · exact absurd (hnone.symm.trans hm).symm (Option.some_ne_none m)
      · exact absurd (hnone.symm.trans hn).symm (Option.some_ne_none n)
    · rfl
  · exact percentDecode.eq_3 c text fun a b rest hc htext ↦ hescape ⟨a, b, rest, hc, htext⟩

/-- **Parts are decoded one by one**, unless an escape goes from one to the other. -/
theorem percentDecode_append {x y : Text} (hy : ∀ c ∈ y.head?, hexDigit c = none) :
    percentDecode (x ++ y) = percentDecode x ++ percentDecode y := by
  induction x using percentDecode.induct with
  | case1 => rfl
  | case2 a b text m n hn hm ih =>
    rw [List.cons_append, List.cons_append, List.cons_append, percentDecode, percentDecode, hm, hn,
      ih, List.cons_append]
  | case3 a b text hdigits ih =>
    have hnone : hexDigit a = none ∨ hexDigit b = none := by
      cases hm : hexDigit a with
      | none => exact .inl rfl
      | some m => exact .inr (Option.eq_none_iff_forall_not_mem.2 fun n hn ↦ hdigits m n hm hn)
    have hplain : ∀ rest, percentDecode ('%' :: a :: b :: rest) =
        '%' :: percentDecode (a :: b :: rest) := by
      intro rest
      refine percentDecode_cons fun a' b' rest' _ htext ↦ ?_
      cases htext
      exact hnone
    rw [hplain]
    exact (hplain (text ++ y)).trans (congrArg ('%' :: ·) ih)
  | case4 c text hshort ih =>
    rw [percentDecode.eq_3 c text hshort]
    refine (percentDecode_cons fun a b rest hc htext ↦ ?_).trans (congrArg (c :: ·) ih)
    -- A second digit can only come from the second part.
    rcases text with - | ⟨d, - | ⟨e, text⟩⟩
    · have hy' : y = a :: b :: rest := htext
      exact .inl (hy a (hy' ▸ rfl))
    · have hy' : y = b :: rest := (List.cons.inj htext).2
      exact .inr (hy b (hy' ▸ rfl))
    · exact (hshort d e text hc rfl).elim

/-- Nothing disappears when it is decoded. -/
theorem isEmpty_percentDecode (text : Text) : (percentDecode text).isEmpty = text.isEmpty := by
  induction text using percentDecode.induct with
  | case1 => rfl
  | case2 a b text m n hn hm ih => simp [percentDecode, hm, hn]
  | case3 a b text hdigits ih =>
    rw [percentDecode]
    split
    · next m n hm hn => exact absurd hn (hdigits m n hm)
    · rfl
  | case4 c text hshort ih =>
    rw [percentDecode.eq_3 c text hshort]
    rfl

end Uri
