import CppGate.Proxies.Forwarding

/-!
# The end of the forwarding chain

The scan goes over the hops from the right and stops at the first one that decides: that is no
address, or an address of nobody we trust. What stands to the left of it, and every other header,
makes no difference (`scan_decided`). And the hops are those of one list, however it is spread over
the fields: a field ends like a comma (`splitOn_intercalate_values`).
-/

namespace CppGate.Proxies

open Http

variable {asio : Asio} {proxies : TrustedProxies}

/-! ### The loop over a value -/

/-- The loop over the value of a field: up to the next comma, and again from behind it. -/
def splitFrom (value : Text) (start : ℕ) : List Text :=
  if start ≤ value.length then
    let hop := (value.drop start).takeWhile (· != ',')
    hop :: splitFrom value (start + hop.length + 1)
  else
    []
  termination_by value.length + 1 - start

/-- The loop splits at the commas. -/
theorem splitFrom_eq {value : Text} {start : ℕ} (h : start ≤ value.length) :
    splitFrom value start = (value.drop start).splitOn ',' := by
  induction start using splitFrom.induct value with
  | case1 start hstart hop ih =>
    have hcomma : ',' ∉ hop := fun hmem ↦
      bne_iff_ne.1 (List.mem_takeWhile_imp (p := (· != ',')) hmem) rfl
    have hloop : splitFrom value start = hop :: splitFrom value (start + hop.length + 1) := by
      rw [splitFrom, if_pos hstart]
    have hrest : hop ++ (value.drop start).dropWhile (· != ',') = value.drop start :=
      List.takeWhile_append_dropWhile
    have hlen := congrArg List.length hrest
    rw [List.length_append, List.length_drop] at hlen
    cases hbehind : (value.drop start).dropWhile (· != ',') with
    | nil =>
      -- The last hop ends with the value.
      rw [hbehind, List.append_nil] at hrest
      rw [hbehind, List.length_nil] at hlen
      rw [hloop, ← hrest, List.splitOn_eq_singleton hcomma, splitFrom, if_neg (by omega)]
    | cons c behind =>
      obtain rfl : c = ',' := by
        have hstop := List.head?_dropWhile_not (· != ',') (value.drop start)
        rw [hbehind] at hstop
        simpa using hstop
      rw [hbehind] at hrest
      rw [hbehind, List.length_cons] at hlen
      have hdrop : value.drop (start + hop.length + 1) = behind := by
        rw [Nat.add_assoc, ← List.drop_drop, ← hrest, ← List.drop_drop, List.drop_left]
        rfl
      rw [hloop, ih (by omega), hdrop, ← hrest, List.splitOn_append_cons_self_of_not_mem hcomma]
  | case2 start hstart => exact absurd h hstart

/-- So the hops are those that the loop over the fields finds. -/
theorem hops_eq_splitFrom (headers : List Field) :
    hops headers = (forwardedFor headers).flatMap fun value ↦ splitFrom value 0 := by
  rw [hops_eq]
  exact List.flatMap_congr fun value _ ↦ (splitFrom_eq (Nat.zero_le _)).symm

/-! ### Values and fields -/

/-- A comma separates like the end of a field. -/
theorem splitOn_intercalate_values {values : List Text} (h : values ≠ []) :
    ([','].intercalate values).splitOn ',' = values.flatMap fun value ↦ value.splitOn ',' := by
  induction values with
  | nil => exact absurd rfl h
  | cons value values ih =>
    by_cases hvalues : values = []
    · rw [hvalues, List.intercalate_singleton, List.flatMap_singleton]
    · rw [List.intercalate_cons_of_ne_nil hvalues, List.flatMap_cons, ← ih hvalues,
        List.append_assoc, List.singleton_append, List.splitOn_append_cons_self]

/-! ### What decides -/

/-- A hop at which the scan stops: it is no address, or not a trusted one. -/
def Decides (asio : Asio) (proxies : TrustedProxies) (hop : Text) : Prop :=
  ∀ address ∈ parseAddress asio hop, contains asio proxies address = false

/-- **The scan does not look behind the hop that decides.** -/
theorem scan_decided {closest : Address} {trusted : List Text} {hop : Text}
    (htrusted : ∀ h ∈ trusted, ¬ Decides asio proxies h) (hhop : Decides asio proxies hop)
    (left left' : List Text) :
    scan asio proxies closest (trusted ++ hop :: left) =
      scan asio proxies closest (trusted ++ hop :: left') := by
  induction trusted generalizing closest with
  | nil =>
    rw [List.nil_append, List.nil_append, scan, scan]
    cases haddress : parseAddress asio hop with
    | none => rfl
    | some address =>
      dsimp only
      rw [hhop address haddress, if_neg Bool.false_ne_true, if_neg Bool.false_ne_true]
  | cons h trusted ih =>
    rw [List.cons_append, List.cons_append, scan, scan]
    cases parseAddress asio h with
    | none => rfl
    | some address =>
      dsimp only
      rw [ih fun g hg ↦ htrusted g (List.mem_cons_of_mem h hg)]

/-- The client depends on the fields through their hops, if there are any. -/
theorem resolve_of_hops {peer : Text} {headers headers' : List Field} (hne : hops headers ≠ [])
    (hne' : hops headers' ≠ [])
    (hscan : ∀ closest, scan asio proxies closest (hops headers).reverse =
      scan asio proxies closest (hops headers').reverse) :
    resolve asio proxies peer headers = resolve asio proxies peer headers' := by
  rw [resolve, resolve]
  cases parseAddress asio peer with
  | none => rfl
  | some address =>
    dsimp only
    rw [if_pos hne, if_pos hne', hscan]

theorem hops_ne_nil {headers : List Field} (h : forwardedFor headers ≠ []) : hops headers ≠ [] := by
  rw [hops_eq, ← splitOn_intercalate_values h]
  exact List.splitOn_ne_nil ',' _

/-- **Only the end of the chain matters**, from the last hop that decides, and not how the chain is
spread over the fields. -/
theorem resolve_suffix (asio : Asio) (proxies : TrustedProxies) (peer : Text)
    (headers headers' : List Field) :
    (∀ left left' right hop, hops headers = left ++ hop :: right →
      hops headers' = left' ++ hop :: right → Decides asio proxies hop →
      (∀ h ∈ right, ¬ Decides asio proxies h) →
        resolve asio proxies peer headers = resolve asio proxies peer headers') ∧
    (forwardedFor headers ≠ [] → forwardedFor headers' ≠ [] →
      [','].intercalate (forwardedFor headers) = [','].intercalate (forwardedFor headers') →
        resolve asio proxies peer headers = resolve asio proxies peer headers') := by
  constructor
  · intro left left' right hop hhops hhops' hhop hright
    have hreverse : ∀ l : List Text, (l ++ hop :: right).reverse =
        right.reverse ++ hop :: l.reverse := fun l ↦ by
      rw [List.reverse_append, List.reverse_cons, List.append_assoc, List.singleton_append]
    refine resolve_of_hops (by simp [hhops]) (by simp [hhops']) fun closest ↦ ?_
    rw [hhops, hhops', hreverse, hreverse]
    exact scan_decided (fun h hh ↦ hright h (List.mem_reverse.1 hh)) hhop _ _
  · intro hne hne' hjoined
    have hhops : hops headers = hops headers' := by
      rw [hops_eq, hops_eq, ← splitOn_intercalate_values hne, ← splitOn_intercalate_values hne',
        hjoined]
    exact resolve_of_hops (hops_ne_nil hne) (hops_ne_nil hne') fun closest ↦ by rw [hhops]

/-- `10.0.0.0/8`. -/
def tenNetwork : TrustedProxies :=
  ⟨[⟨0x0a000000, 8, by decide⟩], []⟩

/-- Other hops on the left and another `X-Real-IP`; and one field instead of two. -/
theorem resolve_suffix_forged :
    resolve dottedDecimal tenNetwork "10.0.0.1".toList
        [⟨"X-Forwarded-For".toList, "1.1.1.1,203.0.113.7".toList⟩,
          ⟨"X-Forwarded-For".toList, "10.0.0.2".toList⟩] =
      resolve dottedDecimal tenNetwork "10.0.0.1".toList
        [⟨"X-Real-IP".toList, "2.2.2.2".toList⟩,
          ⟨"X-Forwarded-For".toList, "203.0.113.7,10.0.0.2".toList⟩] ∧
    resolve dottedDecimal tenNetwork "10.0.0.1".toList
        [⟨"X-Forwarded-For".toList, "203.0.113.7".toList⟩,
          ⟨"X-Forwarded-For".toList, "10.0.0.2".toList⟩] =
      resolve dottedDecimal tenNetwork "10.0.0.1".toList
        [⟨"X-Forwarded-For".toList, "203.0.113.7,10.0.0.2".toList⟩] := by
  have hclient : Decides dottedDecimal tenNetwork "203.0.113.7".toList := by
    intro address haddress
    have hparse : parseAddress dottedDecimal "203.0.113.7".toList = some (.v4 0xcb007107) := by
      decide
    obtain rfl := Option.some.inj (hparse.symm.trans haddress)
    decide
  have hproxy : ∀ h ∈ ["10.0.0.2".toList], ¬ Decides dottedDecimal tenNetwork h := by
    intro h hh hdecides
    rw [List.mem_singleton.1 hh] at hdecides
    exact absurd (hdecides (.v4 0x0a000002) (by decide)) (by decide)
  refine ⟨(resolve_suffix _ _ _ _ _).1 ["1.1.1.1".toList] [] ["10.0.0.2".toList]
    "203.0.113.7".toList (by decide) (by decide) hclient hproxy, ?_⟩
  exact (resolve_suffix _ _ _ _ _).2 (by decide) (by decide) (by decide)

end CppGate.Proxies
