import CppGate.Routing.Attribution

/-!
# Plain templates

A template is plain if it is made of literal text and `{name}` placeholders. Its expression matches
the paths that are the template with every placeholder replaced by a segment, some text that is not
empty and has no slash, up to a slash at the end; and what its groups capture is these segments
(`matches_expr_iff`). So this is what `pathMatch` accepts, and what it stores (`pathMatch_plain`).

RE2 reads patterns and texts as UTF-8, so the characters of a path are its code points here.
-/

namespace CppGate.Routing

open Http

universe u

variable {env : Env} {ω : Type u} {parse : Parse}

/-! ### What a plain template stands for -/

/-- Literal text, or a placeholder without a regex. -/
def Piece.IsPlain : Piece → Prop
  | .literal _ | .placeholder _ => True
  | .custom _ _ => False

/-- No placeholder has a regex. -/
def Template.IsPlain {ok : Ok} (t : Template ok) : Prop :=
  ∀ piece ∈ t.pieces, piece.IsPlain

/-- What a placeholder stands for: some text without a slash. -/
def IsSegment (value : Text) : Prop :=
  value ≠ [] ∧ '/' ∉ value

/-- There is one segment for each placeholder, and with these in their places the template is the
path, up to a slash at its end. -/
def Template.Rebuilds {ok : Ok} (t : Template ok) (values : List Text) (path : Text) : Prop :=
  values.length = t.names.length ∧ (∀ value ∈ values, IsSegment value) ∧
    ∃ tail, (tail = [] ∨ tail = ['/']) ∧ fill t.pieces values ++ tail = path

/-! ### What its expression matches -/

/-- A segment has characters, and no slash. -/
theorem isSegment_iff {value : Text} :
    IsSegment value ↔ value ≠ [] ∧ ∀ c ∈ value, (c != '/') = true := by
  refine and_congr_right fun _ ↦ ⟨fun h c hc ↦ bne_iff_ne.2 fun hslash ↦ h (hslash ▸ hc), ?_⟩
  intro h hslash
  exact bne_iff_ne.1 (h '/' hslash) rfl

/-- A placeholder matches the segments, and captures them. -/
theorem matches_placeholder_iff {name before x behind : Text} {cs : List (Option Text)} :
    ((Piece.placeholder name).expr parse).Matches before x behind cs ↔
      IsSegment x ∧ cs = [some x] := by
  rw [Piece.expr, Regex.matches_group_iff, isSegment_iff]
  constructor
  · rintro ⟨ds, rfl, h⟩
    obtain ⟨hne, hx, rfl⟩ := Regex.matches_plus_letter_iff.1 h
    exact ⟨⟨hne, hx⟩, rfl⟩
  · rintro ⟨⟨hne, hx⟩, rfl⟩
    exact ⟨[], rfl, Regex.matches_plus_letter_iff.2 ⟨hne, hx, rfl⟩⟩

/-- Plain pieces match their literal text with segments between, and capture the segments. -/
theorem matches_exprs_iff {pieces : List Piece} (hplain : ∀ piece ∈ pieces, piece.IsPlain)
    {before x behind : Text} {cs : List (Option Text)} :
    (exprs parse pieces).Matches before x behind cs ↔
      ∃ values : List Text, values.length = (pieces.flatMap Piece.names).length ∧
        (∀ value ∈ values, IsSegment value) ∧ fill pieces values = x ∧ cs = values.map some := by
  induction pieces generalizing before x cs with
  | nil =>
    rw [exprs, Regex.matches_empty_iff]
    constructor
    · rintro ⟨rfl, rfl⟩
      exact ⟨[], rfl, fun _ h ↦ absurd h List.not_mem_nil, rfl, rfl⟩
    · rintro ⟨values, hlen, -, rfl, rfl⟩
      rw [List.length_eq_zero_iff.1 hlen]
      exact ⟨rfl, rfl⟩
  | cons piece pieces ih =>
    have hpiece := hplain piece List.mem_cons_self
    have hrest := fun q hq ↦ hplain q (List.mem_cons_of_mem piece hq)
    rw [exprs, Regex.matches_seq_iff]
    cases piece with
    | literal text =>
      constructor
      · rintro ⟨y, z, ds, es, rfl, rfl, htext, hz⟩
        obtain ⟨rfl, rfl⟩ := Regex.matches_text_iff.1 htext
        obtain ⟨values, hlen, hvalues, rfl, rfl⟩ := (ih hrest).1 hz
        exact ⟨values, hlen, hvalues, rfl, rfl⟩
      · rintro ⟨values, hlen, hvalues, rfl, rfl⟩
        exact ⟨text, fill pieces values, [], values.map some, rfl, rfl,
          Regex.matches_text_iff.2 ⟨rfl, rfl⟩, (ih hrest).2 ⟨values, hlen, hvalues, rfl, rfl⟩⟩
    | placeholder name =>
      constructor
      · rintro ⟨y, z, ds, es, rfl, rfl, hvalue, hz⟩
        obtain ⟨hy, rfl⟩ := matches_placeholder_iff.1 hvalue
        obtain ⟨values, hlen, hvalues, rfl, rfl⟩ := (ih hrest).1 hz
        exact ⟨y :: values, congrArg (· + 1) hlen, List.forall_mem_cons.2 ⟨hy, hvalues⟩, rfl, rfl⟩
      · rintro ⟨values, hlen, hvalues, rfl, rfl⟩
        obtain ⟨value, values, rfl⟩ : ∃ y ys, values = y :: ys :=
          List.exists_cons_of_length_eq_add_one hlen
        obtain ⟨hvalue, hvalues⟩ := List.forall_mem_cons.1 hvalues
        exact ⟨value, fill pieces values, [some value], values.map some, rfl, rfl,
          matches_placeholder_iff.2 ⟨hvalue, rfl⟩,
          (ih hrest).2 ⟨values, Nat.succ.inj hlen, hvalues, rfl, rfl⟩⟩
    | custom name regex => exact hpiece.elim

/-- The slash at the end may be there or not. -/
theorem matches_tail_iff {before x : Text} {cs : List (Option Text)} :
    (Regex.seq (.opt (.letter (· == '/'))) .stop).Matches before x [] cs ↔
      (x = [] ∨ x = ['/']) ∧ cs = [] := by
  rw [Regex.matches_seq_iff]
  constructor
  · rintro ⟨y, z, ds, es, rfl, rfl, hopt, hstop⟩
    obtain ⟨-, rfl, rfl⟩ := Regex.matches_assert_iff.1 hstop
    rw [List.append_nil, List.append_nil]
    refine ⟨?_, List.length_eq_zero_iff.1 hopt.length_captures⟩
    rcases Regex.matches_opt hopt with hy | ⟨gs, hletter⟩
    · exact .inl hy
    · obtain ⟨c, hc, hy, -⟩ := Regex.matches_letter_iff.1 hletter
      exact .inr (eq_of_beq hc ▸ hy)
  · rintro ⟨hx, rfl⟩
    refine ⟨x, [], [], [], (List.append_nil x).symm, rfl, ?_, .assert rfl⟩
    rcases hx with rfl | rfl
    · exact .done
    · exact .more (x := ['/']) (y := []) (by decide) (.letter rfl) .done

/-- **The paths of a plain template**, and what its groups capture of them. -/
theorem matches_expr_iff {ok : Ok} {t : Template ok} (hplain : t.IsPlain) {path : Text}
    {cs : List (Option Text)} :
    (t.expr parse).Matches [] path [] cs ↔
      ∃ values, t.Rebuilds values path ∧ cs = values.map some := by
  rw [Template.expr, Regex.matches_seq_iff]
  constructor
  · rintro ⟨a, b, as, bs, rfl, rfl, hstart, hbody⟩
    obtain ⟨-, rfl, rfl⟩ := Regex.matches_assert_iff.1 hstart
    obtain ⟨x, tail, ds, es, rfl, rfl, hpieces, hend⟩ := Regex.matches_seq_iff.1 hbody
    obtain ⟨htail, rfl⟩ := matches_tail_iff.1 hend
    obtain ⟨values, hlen, hvalues, rfl, rfl⟩ := (matches_exprs_iff hplain).1 hpieces
    exact ⟨values, ⟨hlen, hvalues, tail, htail, rfl⟩, List.append_nil _⟩
  · rintro ⟨values, ⟨hlen, hvalues, tail, htail, rfl⟩, rfl⟩
    refine ⟨[], _, [], _, rfl, rfl, .assert rfl, Regex.matches_seq_iff.2 ?_⟩
    exact ⟨fill t.pieces values, tail, values.map some, [], rfl, (List.append_nil _).symm,
      (matches_exprs_iff hplain).2 ⟨values, hlen, hvalues, rfl, rfl⟩,
      matches_tail_iff.2 ⟨htail, rfl⟩⟩

/-! ### What pathMatch accepts and stores -/

/-- What is assumed of RE2's matching besides `CapturesInOrder`: what matches the whole text is
found. -/
def FindsMatches (parse : Parse) (env : Env) : Prop :=
  ∀ (pattern : Text) (e : Regex Char) (path : Text) (cs : List (Option Text)),
    parse pattern = some e → e.Matches [] path [] cs →
      ∃ captures, env.fullMatch pattern path = some captures

/-- The slots for the whole match and the captures: on the stack, or on the heap for a route with
many parameters. -/
def captureSlots (numParams : ℕ) : ℕ :=
  if inlineCapacity < numParams then numParams + 1 else inlineCapacity + 1

theorem lt_captureSlots {numParams i : ℕ} (h : i < numParams) :
    i + 1 < captureSlots numParams := by
  rw [captureSlots]
  split <;> omega

theorem firstCaptures_eq_self (captures : List Text) :
    firstCaptures captures.length captures = captures := by
  induction captures with
  | nil => rfl
  | cons capture captures ih =>
    rw [List.length_cons, firstCaptures, List.headD_cons, List.tail_cons, ih]

theorem map_captureText (values : List Text) : (values.map some).map captureText = values := by
  rw [List.map_map]
  exact List.map_id values

/-- **Plain templates match their paths** and no others, and the segments that are stored rebuild
the path. -/
theorem pathMatch_plain (hre2 : CapturesInOrder parse env) (hfinds : FindsMatches parse env)
    {t : Template (valid parse)} (hplain : t.IsPlain) (hread : t.ReadsPieces) {route : Route ω}
    (hroute : (route.pattern, route.paramNames) = createRegexPattern t.text) (path : Text)
    (params : RouteParams) :
    ((route.pathMatch env path params).1 = true ↔ ∃ values, t.Rebuilds values path) ∧
    ((route.pathMatch env path params).1 = true →
      ∃ values, t.Rebuilds values path ∧
        (route.pathMatch env path params).2.toList = t.names.zip values) ∧
    ∀ i < route.paramNames.length, i + 1 < captureSlots route.paramNames.length := by
  rw [createRegexPattern_text] at hroute
  obtain ⟨hpattern, hnames⟩ := Prod.mk.inj hroute
  have hstored : (route.pathMatch env path params).1 = true →
      ∃ values, t.Rebuilds values path ∧
        (route.pathMatch env path params).2.toList = t.names.zip values := by
    intro h
    obtain ⟨captures, hmatch⟩ := fullMatch_of_pathMatch h
    have hparams := pathMatch_of_fullMatch hmatch params
    rw [hpattern] at hmatch
    obtain ⟨cs, hcs, rfl⟩ := hre2 _ _ _ _ hread hmatch
    obtain ⟨values, hvalues, rfl⟩ := (matches_expr_iff hplain).1 hcs
    refine ⟨values, hvalues, ?_⟩
    rw [hparams, hnames, map_captureText, ← hvalues.1, firstCaptures_eq_self]
  refine ⟨⟨fun h ↦ ?_, ?_⟩, hstored, fun i hi ↦ lt_captureSlots hi⟩
  · obtain ⟨values, hvalues, -⟩ := hstored h
    exact ⟨values, hvalues⟩
  · rintro ⟨values, hvalues⟩
    obtain ⟨captures, hmatch⟩ :=
      hfinds _ _ path _ hread ((matches_expr_iff hplain).2 ⟨values, hvalues, rfl⟩)
    rw [Route.pathMatch, hpattern, hmatch]

/-! ### A template with a placeholder -/

/-- `/users/{id}`. -/
def userPieces : List Piece :=
  [.literal "/users/".toList, .placeholder "id".toList]

def userPattern : Text :=
  '^' :: (userPieces.flatMap Piece.pattern ++ "/?$".toList)

def userExpr : Regex Char :=
  .seq .start (.seq (exprs (fun _ ↦ none) userPieces) (.seq (.opt (.letter (· == '/'))) .stop))

/-- RE2's reading of the pattern. -/
def userParse : Parse := fun text ↦
  if text = userPattern then some userExpr else none

def userTemplate : Template (valid userParse) where
  pieces := userPieces
  wellFormed := by
    intro piece hpiece
    simp only [userPieces, List.mem_cons, List.not_mem_nil, or_false] at hpiece
    rcases hpiece with rfl | rfl
    · show '{' ∉ "/users/".toList
      decide
    · exact ⟨by decide, List.all_eq_true.1 rfl⟩

/-- The capture of the group. -/
def matchUser (path : Text) : Option (List Text) :=
  let id := (path.drop 7).takeWhile (· != '/')
  if id ≠ [] ∧ (path = "/users/".toList ++ id ∨ path = "/users/".toList ++ (id ++ ['/'])) then
    some [id]
  else
    none

/-- RE2 for `/users/{id}`. -/
def userEnv : Env :=
  { plainPaths with fullMatch := fun pattern path ↦
      if pattern = userPattern then matchUser path else none }

def userRoute : Route Unit :=
  .make [.get] userTemplate.text [] (.http fun _ x ↦ (.returned, x)) []

/-- The matcher of the example follows its template. -/
theorem matchUser_eq_some_iff {path : Text} {captures : List Text} :
    matchUser path = some captures ↔ userTemplate.Rebuilds captures path := by
  have hfill : ∀ value : Text, fill userTemplate.pieces [value] = "/users/".toList ++ value :=
    fun value ↦ congrArg ("/users/".toList ++ ·) (List.append_nil value)
  rw [matchUser]
  constructor
  · intro h
    split at h
    · next hid =>
      obtain ⟨hne, hpath⟩ := hid
      obtain rfl := Option.some.inj h
      refine ⟨rfl, fun value hvalue ↦ ?_, ?_⟩
      · rw [List.mem_singleton.1 hvalue]
        exact isSegment_iff.2 ⟨hne, fun c hc ↦ List.mem_takeWhile_imp (p := (· != '/')) hc⟩
      · rw [hfill]
        rcases hpath with hpath | hpath
        · exact ⟨[], .inl rfl, (List.append_nil _).trans hpath.symm⟩
        · exact ⟨['/'], .inr rfl, (List.append_assoc _ _ _).trans hpath.symm⟩
    · exact absurd h.symm (Option.some_ne_none _)
  · rintro ⟨hlen, hvalues, tail, htail, rfl⟩
    obtain ⟨value, rfl⟩ := List.length_eq_one_iff.1 hlen
    obtain ⟨hne, hvalue⟩ := isSegment_iff.1 (hvalues value List.mem_cons_self)
    have hid : (("/users/".toList ++ (value ++ tail)).drop 7).takeWhile (· != '/') = value := by
      have hdrop : ("/users/".toList ++ (value ++ tail)).drop 7 = value ++ tail := rfl
      rw [hdrop, List.takeWhile_append_of_pos hvalue]
      rcases htail with rfl | rfl <;> exact List.append_nil value
    have hpath : "/users/".toList ++ (value ++ tail) = "/users/".toList ++ value ∨
        "/users/".toList ++ (value ++ tail) = "/users/".toList ++ (value ++ ['/']) := by
      rcases htail with rfl | rfl
      · exact .inl (congrArg _ (List.append_nil value))
      · exact .inr rfl
    rw [hfill, List.append_assoc, hid, if_pos ⟨hne, hpath⟩]

theorem fullMatch_userEnv (path : Text) : userEnv.fullMatch userPattern path = matchUser path := by
  show (if userPattern = userPattern then matchUser path else none) = matchUser path
  exact if_pos rfl

theorem pathMatch_plain_users :
    (userRoute.pathMatch userEnv "/users/7/".toList {}).1 = true ∧
    ∃ values, userTemplate.Rebuilds values "/users/7/".toList ∧
      (userRoute.pathMatch userEnv "/users/7/".toList {}).2.toList =
        userTemplate.names.zip values := by
  have hplain : userTemplate.IsPlain := by
    intro piece hpiece
    simp only [userTemplate, userPieces, List.mem_cons, List.not_mem_nil, or_false] at hpiece
    rcases hpiece with rfl | rfl <;> trivial
  have hread : userTemplate.ReadsPieces := if_pos rfl
  have hmatches : ∀ {pattern : Text} {e : Regex Char}, userParse pattern = some e →
      pattern = userPattern ∧ e = userTemplate.expr userParse := by
    intro pattern e h
    rw [userParse] at h
    split at h
    · next hpattern => exact ⟨hpattern, (Option.some.inj h).symm⟩
    · exact absurd h.symm (Option.some_ne_none _)
  have hre2 : CapturesInOrder userParse userEnv := by
    intro pattern e path captures hparse h
    obtain ⟨rfl, rfl⟩ := hmatches hparse
    have hvalues := matchUser_eq_some_iff.1 ((fullMatch_userEnv path).symm.trans h)
    exact ⟨captures.map some, (matches_expr_iff hplain).2 ⟨captures, hvalues, rfl⟩,
      (map_captureText captures).symm⟩
  have hfinds : FindsMatches userParse userEnv := by
    intro pattern e path cs hparse h
    obtain ⟨rfl, rfl⟩ := hmatches hparse
    obtain ⟨values, hvalues, -⟩ := (matches_expr_iff hplain).1 h
    exact ⟨values, (fullMatch_userEnv path).trans (matchUser_eq_some_iff.2 hvalues)⟩
  have hroute : (userRoute.pattern, userRoute.paramNames) = createRegexPattern userTemplate.text :=
    rfl
  have hmatch : (userRoute.pathMatch userEnv "/users/7/".toList {}).1 = true := by decide
  exact ⟨hmatch, (pathMatch_plain hre2 hfinds hplain hread hroute _ {}).2.1 hmatch⟩

end CppGate.Routing
