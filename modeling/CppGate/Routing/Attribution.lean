import CppGate.Foundations.Regex
import CppGate.Routing.Groups

/-!
# Which value a placeholder gets

`createRegexPattern` puts each placeholder in parentheses, and `pathMatch` gives the capture of
group `i + 1` to placeholder `i`. RE2 numbers the groups by their
opening parentheses, and the regex of a placeholder may have groups of its own: then the
placeholders behind it are other groups than `pathMatch` takes them for (`attributed_iff`).

What RE2 reads in a text is a parameter (`Parse`), an expression of the library of regular
expressions; a placeholder's value is what the parentheses around it capture (`own`).
-/

namespace CppGate.Routing

open Http

universe u

variable {env : Env} {ω : Type u}

/-! ### What pathMatch stores -/

namespace RouteParams

/-- The vector is for what the array has no room for. -/
def Ordered (params : RouteParams) : Prop :=
  params.count < inlineCapacity → params.overflow = []

theorem ordered_reset (params : RouteParams) : params.reset.Ordered :=
  fun _ ↦ rfl

theorem toList_reset (params : RouteParams) : params.reset.toList = [] := by
  simp [toList, reset]

/-- A parameter is added behind the others. -/
theorem Ordered.add {params : RouteParams} (h : params.Ordered) (key value : Text) :
    (params.add key value).Ordered := by
  intro hlt
  rw [RouteParams.add] at hlt ⊢
  split at hlt
  · next hroom =>
    rw [dif_pos hroom]
    exact h hroom
  · next hfull => exact absurd hlt hfull

/-- A parameter is added at the end. -/
theorem Ordered.toList_add {params : RouteParams} (h : params.Ordered) (key value : Text) :
    (params.add key value).toList = params.toList ++ [(key, value)] := by
  rw [RouteParams.add]
  split
  · next hroom =>
    have hlen : params.count < params.items.toList.length := by simpa using hroom
    rw [toList, toList, h hroom, List.append_nil, List.append_nil, Vector.toList_set hroom,
      List.take_add_one, List.take_set_of_le (Nat.le_refl _), List.getElem?_set_self hlen]
    rfl
  · simp [toList]

end RouteParams

/-- What the loop of pathMatch() adds. -/
theorem toList_foldl_add (names : List Text) (k : ℕ) (captures : List Text) {params : RouteParams}
    (h : params.Ordered) :
    ((names.zipIdx k).foldl
      (fun params name ↦ params.add name.1 (captures.getD name.2 [])) params).toList =
      params.toList ++ (names.zipIdx k).map fun name ↦ (name.1, captures.getD name.2 []) := by
  induction names generalizing k params with
  | nil => simp
  | cons name names ih =>
    rw [List.zipIdx_cons, List.foldl_cons, List.map_cons, ih (k + 1) (h.add _ _), h.toList_add,
      List.append_assoc, List.singleton_append]

/-- The first `n` captures. -/
def firstCaptures : ℕ → List Text → List Text
  | 0, _ => []
  | n + 1, captures => captures.headD [] :: firstCaptures n captures.tail

theorem length_firstCaptures (n : ℕ) (captures : List Text) :
    (firstCaptures n captures).length = n := by
  induction n generalizing captures with
  | zero => rfl
  | succ n ih => rw [firstCaptures, List.length_cons, ih]

/-- Names with the captures of their places. -/
theorem map_zipIdx_getD (names : List Text) (k : ℕ) (captures : List Text) :
    ((names.zipIdx k).map fun name ↦ (name.1, captures.getD name.2 [])) =
      names.zip (firstCaptures names.length (captures.drop k)) := by
  induction names generalizing k with
  | nil => rfl
  | cons name names ih =>
    rw [List.zipIdx_cons, List.map_cons, ih, List.length_cons, firstCaptures, List.zip_cons_cons,
      List.tail_drop, List.headD_eq_head?_getD, List.head?_drop, List.getD_eq_getElem?_getD]

/-- **The captures of the first groups**, as many as there are names. -/
theorem pathMatch_of_fullMatch {route : Route ω} {path : Text} {captures : List Text}
    (h : env.fullMatch route.pattern path = some captures) (params : RouteParams) :
    (route.pathMatch env path params).2.toList =
      route.paramNames.zip (firstCaptures route.paramNames.length captures) := by
  rw [Route.pathMatch, h]
  dsimp only
  rw [toList_foldl_add _ 0 _ params.ordered_reset, RouteParams.toList_reset, List.nil_append,
    map_zipIdx_getD, List.drop_zero]

/-! ### The groups of a template -/

/-- RE2's reading of a regular expression, if it accepts it. -/
abbrev Parse := Text → Option (Regex Char)

variable (parse : Parse)

/-- `ok()`. -/
def valid : Ok := fun regex ↦ (parse regex).isSome

/-- What RE2 reads in a placeholder's regex. -/
def inner (regex : Text) : Regex Char :=
  (parse regex).getD .empty

/-- What a piece is for RE2: quoted text, or a group. -/
def Piece.expr : Piece → Regex Char
  | .literal text => .text text
  | .placeholder _ => .group (.plus (.letter (· != '/')))
  | .custom _ regex => .group (inner parse regex)

/-- The pieces, one after the other. -/
def exprs : List Piece → Regex Char
  | [] => .empty
  | piece :: pieces => .seq (piece.expr parse) (exprs pieces)

/-- The expression of a template: its pieces and an optional slash, from the beginning of the text
to its end. -/
def Template.expr {ok : Ok} (t : Template ok) : Regex Char :=
  .seq .start (.seq (exprs parse t.pieces) (.seq (.opt (.letter (· == '/'))) .stop))

/-- The captures of the placeholders' own groups: behind it stand those of the groups in its
regex. -/
def own : List Piece → List Text → List Text
  | [], _ => []
  | .literal _ :: pieces, captures => own pieces captures
  | .placeholder _ :: pieces, captures => captures.headD [] :: own pieces captures.tail
  | .custom _ regex :: pieces, captures =>
    captures.headD [] :: own pieces (captures.tail.drop (inner parse regex).groups)

/-- The values in the place of the placeholders. -/
def fill : List Piece → List Text → Text
  | [], _ => []
  | .literal text :: pieces, values => text ++ fill pieces values
  | .placeholder _ :: pieces, values | .custom _ _ :: pieces, values =>
    values.headD [] ++ fill pieces values.tail

/-- No regex has groups of its own, that of the last placeholder apart. -/
def Ungrouped : List Piece → Prop
  | [] => True
  | .literal _ :: pieces | .placeholder _ :: pieces => Ungrouped pieces
  | .custom _ regex :: pieces =>
    ((inner parse regex).groups = 0 ∨ pieces.flatMap Piece.names = []) ∧ Ungrouped pieces

theorem length_own (pieces : List Piece) (captures : List Text) :
    (own parse pieces captures).length = (pieces.flatMap Piece.names).length := by
  induction pieces generalizing captures with
  | nil => rfl
  | cons piece pieces ih =>
    cases piece with
    | literal text => exact ih captures
    | placeholder name => exact congrArg (· + 1) (ih _)
    | custom name regex => exact congrArg (· + 1) (ih _)

theorem own_of_names_nil {pieces : List Piece} (h : pieces.flatMap Piece.names = [])
    (captures : List Text) : own parse pieces captures = [] :=
  List.length_eq_zero_iff.1 ((length_own parse pieces captures).trans (h ▸ rfl))

/-- The first placeholder of the pieces has the first group. -/
theorem head_own {pieces : List Piece} (h : pieces.flatMap Piece.names ≠ [])
    (captures : List Text) : (own parse pieces captures).head? = some (captures.headD []) := by
  induction pieces with
  | nil => exact absurd rfl h
  | cons piece pieces ih =>
    cases piece with
    | literal text => exact ih h
    | placeholder name => rfl
    | custom name regex => rfl

/-- **The first groups are the placeholders' own** exactly if there are no others between them. -/
theorem firstCaptures_eq_own_iff (pieces : List Piece) :
    (∀ captures, firstCaptures (pieces.flatMap Piece.names).length captures =
      own parse pieces captures) ↔ Ungrouped parse pieces := by
  induction pieces with
  | nil => exact ⟨fun _ ↦ trivial, fun _ _ ↦ rfl⟩
  | cons piece pieces ih =>
    cases piece with
    | literal text => exact ih
    | placeholder name =>
      rw [Ungrouped, ← ih]
      constructor
      · intro h captures
        exact (List.cons.inj (h ([] :: captures))).2
      · intro h captures
        exact congrArg (captures.headD [] :: ·) (h captures.tail)
    | custom name regex =>
      rw [Ungrouped, ← ih]
      constructor
      · intro h
        have hrest : ∀ captures, firstCaptures (pieces.flatMap Piece.names).length captures =
            own parse pieces (captures.drop (inner parse regex).groups) :=
          fun captures ↦ (List.cons.inj (h ([] :: captures))).2
        by_cases hnames : pieces.flatMap Piece.names = []
        · refine ⟨.inr hnames, fun captures ↦ ?_⟩
          rw [own_of_names_nil parse hnames, hnames]
          rfl
        -- A group in the regex would take the place of the next placeholder's.
        have hzero : (inner parse regex).groups = 0 := by
          by_contra hgroups
          have hfirst := congrArg List.head? (hrest [['x']])
          obtain ⟨n, hn⟩ := Nat.exists_eq_succ_of_ne_zero
            (mt List.length_eq_zero_iff.1 hnames)
          rw [head_own parse hnames, hn, List.drop_of_length_le (Nat.pos_of_ne_zero hgroups)]
            at hfirst
          have hx : some ['x'] = some ([] : Text) := hfirst
          exact absurd hx (by decide)
        refine ⟨.inl hzero, fun captures ↦ ?_⟩
        rw [hrest, hzero, List.drop_zero]
      · rintro ⟨hgroups, h⟩ captures
        have hrest : firstCaptures (pieces.flatMap Piece.names).length captures.tail =
            own parse pieces (captures.tail.drop (inner parse regex).groups) := by
          rcases hgroups with hzero | hnames
          · rw [hzero, List.drop_zero]
            exact h captures.tail
          · rw [own_of_names_nil parse hnames, hnames]
            rfl
        exact congrArg (captures.headD [] :: ·) hrest

/-! ### What the groups capture -/

/-- The text of a capture: empty if the group took no part. -/
def captureText (capture : Option Text) : Text :=
  capture.getD []

/-- **A match of the pieces is made of their literal text and of what their own groups capture.** -/
theorem fill_own_of_matches {pieces : List Piece} {before x behind : Text}
    {cs : List (Option Text)} (h : (exprs parse pieces).Matches before x behind cs) :
    fill pieces (own parse pieces (cs.map captureText)) = x := by
  induction pieces generalizing before x cs with
  | nil => exact (Regex.matches_empty_iff.1 h).1.symm
  | cons piece pieces ih =>
    obtain ⟨y, z, ds, es, rfl, rfl, hpiece, hrest⟩ := Regex.matches_seq_iff.1 h
    have hz := ih hrest
    cases piece with
    | literal text =>
      obtain ⟨rfl, rfl⟩ := Regex.matches_text_iff.1 hpiece
      rw [List.nil_append, own, fill, hz]
    | placeholder name =>
      obtain ⟨fs, rfl, hinner⟩ := Regex.matches_group_iff.1 hpiece
      have hfs : fs = [] := List.length_eq_zero_iff.1 hinner.length_captures
      rw [hfs, List.singleton_append, List.map_cons, own, fill, List.headD_cons, List.headD_cons,
        List.tail_cons, List.tail_cons, hz]
      rfl
    | custom name regex =>
      obtain ⟨fs, rfl, hinner⟩ := Regex.matches_group_iff.1 hpiece
      have hdrop : ((fs ++ es).map captureText).drop (inner parse regex).groups =
          es.map captureText := by
        rw [List.map_append, ← hinner.length_captures, ← List.length_map captureText,
          List.drop_left]
      rw [List.cons_append, List.map_cons, own, fill, List.headD_cons, List.headD_cons,
        List.tail_cons, List.tail_cons, hdrop, hz]
      rfl

/-- The same for a whole path. -/
theorem fill_own_of_matches_expr {ok : Ok} {t : Template ok} {path : Text}
    {cs : List (Option Text)} (h : (t.expr parse).Matches [] path [] cs) :
    ∃ tail, (tail = [] ∨ tail = ['/']) ∧
      fill t.pieces (own parse t.pieces (cs.map captureText)) ++ tail = path := by
  obtain ⟨a, b, as, bs, rfl, rfl, hstart, hrest⟩ := Regex.matches_seq_iff.1 h
  obtain ⟨-, rfl, rfl⟩ := Regex.matches_assert_iff.1 hstart
  obtain ⟨x, y, ds, es, rfl, rfl, hpieces, hrest⟩ := Regex.matches_seq_iff.1 hrest
  obtain ⟨u, v, fs, gs, rfl, rfl, hopt, hstop⟩ := Regex.matches_seq_iff.1 hrest
  obtain ⟨-, rfl, rfl⟩ := Regex.matches_assert_iff.1 hstop
  have hfs : fs = [] := List.length_eq_zero_iff.1 hopt.length_captures
  have htail : u = [] ∨ u = ['/'] := by
    rcases Regex.matches_opt hopt with hu | ⟨gs, hletter⟩
    · exact .inl hu
    · obtain ⟨c, hc, hu, -⟩ := Regex.matches_letter_iff.1 hletter
      exact .inr (eq_of_beq hc ▸ hu)
  refine ⟨u, htail, ?_⟩
  rw [hfs, List.nil_append, List.append_nil, List.append_nil, List.append_nil, List.nil_append,
    fill_own_of_matches parse hpieces]

/-! ### The guarantee -/

variable {parse}

/-- What is assumed of RE2's matching: the captures it returns are those of a match of the whole
text, in the order of the opening parentheses. -/
def CapturesInOrder (parse : Parse) (env : Env) : Prop :=
  ∀ (pattern : Text) (e : Regex Char) (path : Text) (captures : List Text),
    parse pattern = some e → env.fullMatch pattern path = some captures →
      ∃ cs, e.Matches [] path [] cs ∧ captures = cs.map captureText

/-- What is assumed of RE2's syntax: a pattern made of quoted text and of regexes in parentheses is
read piece by piece. -/
def Template.ReadsPieces (t : Template (valid parse)) : Prop :=
  parse t.pattern = some (t.expr parse)

/-- The `i`-th value is the capture of the `i`-th placeholder's group, and with the values in place
of the placeholders the template is the path, up to a slash at its end. -/
def Attributed (t : Template (valid parse)) (env : Env) (path : Text) (params : RouteParams) :
    Prop :=
  ∃ captures values, env.fullMatch t.pattern path = some captures ∧
    values = own parse t.pieces captures ∧ params.toList = t.names.zip values ∧
    ∃ tail, (tail = [] ∨ tail = ['/']) ∧ fill t.pieces values ++ tail = path

/-- Whatever RE2 captures, the values are the captures of the placeholders' groups. -/
def StoresOwn (t : Template (valid parse)) (route : Route ω) : Prop :=
  ∀ (env : Env) (path : Text) (params : RouteParams) (captures : List Text),
    env.fullMatch route.pattern path = some captures →
      (route.pathMatch env path params).2.toList = t.names.zip (own parse t.pieces captures)

theorem fullMatch_of_pathMatch {route : Route ω} {path : Text} {params : RouteParams}
    (h : (route.pathMatch env path params).1 = true) :
    ∃ captures, env.fullMatch route.pattern path = some captures := by
  rw [Route.pathMatch] at h
  cases hmatch : env.fullMatch route.pattern path with
  | none =>
    rw [hmatch] at h
    exact absurd h Bool.false_ne_true
  | some captures => exact ⟨captures, rfl⟩

/-- A route stores each name's own value exactly if no custom regex has groups. -/
theorem storesOwn_iff (t : Template (valid parse)) (env : Env) {route : Route ω}
    (hroute : (route.pattern, route.paramNames) = createRegexPattern t.text) :
    StoresOwn t route ↔ Ungrouped parse t.pieces := by
  rw [createRegexPattern_text] at hroute
  obtain ⟨hpattern, hnames⟩ := Prod.mk.inj hroute
  rw [← firstCaptures_eq_own_iff]
  constructor
  · intro h captures
    have hstored := h { env with fullMatch := fun _ _ ↦ some captures } [] .empty captures rfl
    rw [pathMatch_of_fullMatch rfl, hnames] at hstored
    have hvalues := congrArg (List.map Prod.snd) hstored
    have hlen : (own parse t.pieces captures).length ≤ t.names.length :=
      (length_own parse t.pieces captures).le
    rwa [List.map_snd_zip (length_firstCaptures _ _).le, List.map_snd_zip hlen] at hvalues
  · intro h env path params captures hmatch
    rw [pathMatch_of_fullMatch hmatch, hnames]
    exact congrArg (t.names.zip ·) (h captures)

/-- **Values go to their placeholders** exactly if no regex in front of another placeholder has
groups of its own. -/
theorem attributed_iff (hre2 : CapturesInOrder parse env) {t : Template (valid parse)}
    (hread : t.ReadsPieces) {route : Route ω}
    (hroute : (route.pattern, route.paramNames) = createRegexPattern t.text) :
    (StoresOwn t route ↔ Ungrouped parse t.pieces) ∧
    (Ungrouped parse t.pieces → ∀ path params, (route.pathMatch env path params).1 = true →
      Attributed t env path (route.pathMatch env path params).2) := by
  have hiff := storesOwn_iff t env hroute
  rw [createRegexPattern_text] at hroute
  obtain ⟨hpattern, hnames⟩ := Prod.mk.inj hroute
  refine ⟨hiff, fun hungrouped path params h ↦ ?_⟩
  obtain ⟨captures, hmatch⟩ := fullMatch_of_pathMatch h
  have hstored := hiff.2 hungrouped env path params captures hmatch
  rw [hpattern] at hmatch
  obtain ⟨cs, hcs, rfl⟩ := hre2 _ _ _ _ hread hmatch
  exact ⟨_, _, hmatch, rfl, hstored, fill_own_of_matches_expr parse hcs⟩

/-! ### A template with two placeholders -/

/-- `/{kind:regex}/{id}`. -/
def kindPieces (regex : Text) : List Piece :=
  [.literal ['/'], .custom "kind".toList regex, .literal ['/'], .placeholder "id".toList]

def kindPattern (regex : Text) : Text :=
  '^' :: ((kindPieces regex).flatMap Piece.pattern ++ "/?$".toList)

/-- What RE2 reads in the pattern, when it reads `r` in the regex. -/
def kindExpr (regex : Text) (r : Regex Char) : Regex Char :=
  .seq .start (.seq (exprs (fun _ ↦ some r) (kindPieces regex))
    (.seq (.opt (.letter (· == '/'))) .stop))

/-- RE2's reading of the regex and of the pattern. -/
def kindParse (regex : Text) (r : Regex Char) : Parse := fun text ↦
  if text = regex then some r
  else if text = kindPattern regex then some (kindExpr regex r)
  else none

/-- RE2 where it is asked about `/a/7`, with these captures. -/
def kindEnv (regex : Text) (captures : List Text) : Env :=
  { plainPaths with fullMatch := fun pattern path ↦
      if pattern = kindPattern regex ∧ path = ['/', 'a', '/', '7'] then some captures else none }

def kindTemplate (regex : Text) (r : Regex Char) (h : regex ≠ [] ∧ '}' ∉ regex := by decide) :
    Template (valid (kindParse regex r)) where
  pieces := kindPieces regex
  wellFormed := by
    have hvalid : valid (kindParse regex r) regex = true := by
      rw [valid, kindParse, if_pos rfl]
      rfl
    intro piece hpiece
    simp only [kindPieces, List.mem_cons, List.not_mem_nil, or_false] at hpiece
    rcases hpiece with rfl | rfl | rfl | rfl
    · show '{' ∉ ['/']
      decide
    · exact ⟨⟨by decide, List.all_eq_true.1 rfl⟩, h.1, h.2, hvalid⟩
    · show '{' ∉ ['/']
      decide
    · exact ⟨by decide, List.all_eq_true.1 rfl⟩

/-- The template is read as it is written. -/
theorem readsPieces_kind {regex : Text} {r : Regex Char} (h : regex ≠ [] ∧ '}' ∉ regex)
    (hne : kindPattern regex ≠ regex) : (kindTemplate regex r h).ReadsPieces := by
  have hinner : inner (kindParse regex r) regex = r := by
    rw [inner, kindParse, if_pos rfl]
    rfl
  have hexpr : (kindTemplate regex r h).expr (kindParse regex r) = kindExpr regex r := by
    simp only [Template.expr, kindExpr, kindTemplate, kindPieces, exprs, Piece.expr, hinner]
    rfl
  have hparse : kindParse regex r (kindPattern regex) = some (kindExpr regex r) := by
    rw [kindParse, if_neg hne, if_pos rfl]
  rw [Template.ReadsPieces, hexpr]
  exact hparse

def kindRoute (regex : Text) (r : Regex Char) (h : regex ≠ [] ∧ '}' ∉ regex := by decide) :
    Route Unit :=
  .make [.get] (kindTemplate regex r h).text [] (.http fun _ x ↦ (.returned, x)) []

/-- The pattern with the group of the custom regex, and what it captures. -/
theorem kind_matches {r : Regex Char} {cs : List (Option Text)}
    (h : r.Matches ['/'] ['a'] ['/', '7'] cs) (regex : Text) :
    (kindExpr regex r).Matches [] ['/', 'a', '/', '7'] []
      (some ['a'] :: (cs ++ [some ['7']])) := by
  have hslash : ∀ before behind : Text, (Regex.text ['/']).Matches before ['/'] behind [] :=
    fun _ _ ↦ Regex.matches_text_iff.2 ⟨rfl, rfl⟩
  have hseven : (Regex.plus (.letter (· != '/'))).Matches ['/', 'a', '/'] ['7'] [] [] :=
    .more (x := ['7']) (y := []) (by decide) (.letter (by decide)) .done
  have hid : (exprs (fun _ ↦ some r) [.placeholder "id".toList]).Matches
      ['/', 'a', '/'] ['7'] [] [some ['7']] :=
    .seq (x := ['7']) (y := []) (.group hseven) .empty
  have hbehind : (exprs (fun _ ↦ some r) [.literal ['/'], .placeholder "id".toList]).Matches
      ['/', 'a'] ['/', '7'] [] [some ['7']] :=
    .seq (x := ['/']) (y := ['7']) (hslash _ _) hid
  have hkind : (exprs (fun _ ↦ some r)
      [.custom "kind".toList regex, .literal ['/'], .placeholder "id".toList]).Matches
      ['/'] ['a', '/', '7'] [] (some ['a'] :: (cs ++ [some ['7']])) :=
    .seq (x := ['a']) (y := ['/', '7']) (.group h) hbehind
  have hpieces : (exprs (fun _ ↦ some r) (kindPieces regex)).Matches
      [] ['/', 'a', '/', '7'] [] (some ['a'] :: (cs ++ [some ['7']])) :=
    .seq (x := ['/']) (y := ['a', '/', '7']) (hslash _ _) hkind
  have hend : (Regex.seq (.opt (.letter (· == '/'))) .stop).Matches
      ['/', 'a', '/', '7'] ([] : Text) [] [] :=
    .seq (x := []) (y := []) .done (.assert rfl)
  have hbody : (Regex.seq (exprs (fun _ ↦ some r) (kindPieces regex))
      (.seq (.opt (.letter (· == '/'))) .stop)).Matches [] ['/', 'a', '/', '7'] []
      (some ['a'] :: (cs ++ [some ['7']]) ++ []) :=
    .seq (y := []) hpieces hend
  rw [List.append_nil] at hbody
  exact .seq (x := []) (.assert rfl) hbody

/-- What RE2 returns for `/a/7` is what it captures. -/
theorem capturesInOrder_kind {regex : Text} {r : Regex Char} {cs : List (Option Text)}
    (h : r.Matches ['/'] ['a'] ['/', '7'] cs) (hne : kindPattern regex ≠ regex) :
    CapturesInOrder (kindParse regex r)
      (kindEnv regex ((some ['a'] :: (cs ++ [some ['7']])).map captureText)) := by
  intro pattern e path captures hparse hmatch
  have hmatch' : (if pattern = kindPattern regex ∧ path = ['/', 'a', '/', '7'] then
    some ((some ['a'] :: (cs ++ [some ['7']])).map captureText) else none) = some captures := hmatch
  split at hmatch'
  · next hasked =>
    obtain ⟨rfl, rfl⟩ := hasked
    rw [kindParse, if_neg hne, if_pos rfl] at hparse
    obtain rfl := Option.some.inj hparse
    exact ⟨_, kind_matches h regex, (Option.some.inj hmatch').symm⟩
  · exact absurd hmatch'.symm (Option.some_ne_none _)

/-- `a|b`. -/
def aOrB : Regex Char :=
  .alt (.letter (· == 'a')) (.letter (· == 'b'))

/-- RE2 for `/{kind:a|b}/{id}`. -/
def alternatives : Env :=
  kindEnv "a|b".toList [['a'], ['7']]

theorem attributed_iff_alternatives :
    Attributed (kindTemplate "a|b".toList aOrB) alternatives ['/', 'a', '/', '7']
      ((kindRoute "a|b".toList aOrB).pathMatch alternatives ['/', 'a', '/', '7'] {}).2 := by
  have hne : kindPattern "a|b".toList ≠ "a|b".toList := by decide
  have ha : aOrB.Matches ['/'] ['a'] ['/', '7'] [] := .left (.letter rfl)
  have hre2 : CapturesInOrder (kindParse "a|b".toList aOrB) alternatives :=
    capturesInOrder_kind ha hne
  have hroute : ((kindRoute "a|b".toList aOrB).pattern, (kindRoute "a|b".toList aOrB).paramNames) =
      createRegexPattern (kindTemplate "a|b".toList aOrB).text := rfl
  exact (attributed_iff hre2 (readsPieces_kind _ hne) hroute).2 ⟨.inl rfl, trivial⟩ _ _ (by decide)

/-- RE2 for `/{kind:(a|b)}/{id}`. -/
def groupedAlternatives : Env :=
  kindEnv "(a|b)".toList [['a'], ['a'], ['7']]

/-- In `/{kind:(a|b)}/{id}` the group in the first regex comes before the second placeholder's. -/
theorem id_misattributed :
    ¬ (∀ (parse : Parse) (env : Env) (t : Template (valid parse)) (route : Route Unit),
      CapturesInOrder parse env → t.ReadsPieces →
      (route.pattern, route.paramNames) = createRegexPattern t.text →
      ∀ path params, (route.pathMatch env path params).1 = true →
        Attributed t env path (route.pathMatch env path params).2) ∧
    ((kindRoute "(a|b)".toList (.group aOrB)).pathMatch groupedAlternatives
      ['/', 'a', '/', '7'] {}).2.toList = [("kind".toList, ['a']), ("id".toList, ['a'])] := by
  have hstored : ((kindRoute "(a|b)".toList (.group aOrB)).pathMatch groupedAlternatives
      ['/', 'a', '/', '7'] {}).2.toList = [("kind".toList, ['a']), ("id".toList, ['a'])] := by
    decide
  refine ⟨fun h ↦ ?_, hstored⟩
  have hne : kindPattern "(a|b)".toList ≠ "(a|b)".toList := by decide
  have ha : (Regex.group aOrB).Matches ['/'] ['a'] ['/', '7'] [some ['a']] :=
    .group (.left (.letter rfl))
  have hre2 : CapturesInOrder (kindParse "(a|b)".toList (.group aOrB)) groupedAlternatives :=
    capturesInOrder_kind ha hne
  have hroute : ((kindRoute "(a|b)".toList (.group aOrB)).pattern,
      (kindRoute "(a|b)".toList (.group aOrB)).paramNames) =
      createRegexPattern (kindTemplate "(a|b)".toList (.group aOrB)).text := rfl
  obtain ⟨captures, values, hmatch, rfl, hvalues, -⟩ :=
    h _ _ _ _ hre2 (readsPieces_kind _ hne) hroute ['/', 'a', '/', '7'] {} (by decide)
  have hcaptures : groupedAlternatives.fullMatch (kindPattern "(a|b)".toList)
      ['/', 'a', '/', '7'] = some [['a'], ['a'], ['7']] := by decide
  obtain rfl := Option.some.inj (hcaptures.symm.trans hmatch)
  rw [hstored] at hvalues
  exact absurd hvalues (by decide)

end CppGate.Routing
