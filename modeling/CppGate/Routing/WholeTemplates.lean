import CppGate.Routing.Groups

/-!
# What the loop leaves of a path

The loop of `createRegexPattern` stops at the first brace that does not start a block, and nothing
looks at the rest of the path (`unread`). What it has read is a well-formed template in front of
that rest, and the pattern and the parameters are those of this template
(`createRegexPattern_reads`).

So a path whose blocks are all placeholders is read to its end, and no other path is: it is
registered as the shorter route (`reads_whole_iff`).
-/

namespace CppGate.Routing

open Http

universe u

variable {env : Env} {ω : Type u}

/-! ### The rest of a path -/

/-- What the loop leaves of its input. -/
def unreadFrom : ℕ → Text → Text
  | 0, input => input
  | rounds + 1, input =>
    match consumeBlock (input.dropWhile (· != '{')) with
    | some (_, _, rest) => unreadFrom rounds rest
    | none => input.dropWhile (· != '{')

/-- What `createRegexPattern` leaves of a path. -/
def unread (path : Text) : Text :=
  unreadFrom (path.length + 1) path

/-- Whether a regex is valid is not looked at by the loop. -/
def anyRegex : Ok := fun _ ↦ true

/-! ### What the loop has read -/

/-- **The loop reads pieces up to where it stops.** -/
theorem readTemplate_reads (rounds : ℕ) (input : Text) :
    ∃ pieces : List Piece, (∀ piece ∈ pieces, piece.WellFormed anyRegex) ∧
      pieces.flatMap Piece.text ++ unreadFrom rounds input = input ∧
      readTemplate rounds input = (pieces.flatMap Piece.pattern, pieces.flatMap Piece.names) := by
  induction rounds generalizing input with
  | zero => exact ⟨[], fun _ h ↦ absurd h List.not_mem_nil, rfl, rfl⟩
  | succ rounds ih =>
    have hliteral : (Piece.literal (input.takeWhile (· != '{'))).WellFormed anyRegex := by
      intro hmem
      exact absurd (List.mem_takeWhile_imp (p := (· != '{')) hmem) (by decide)
    have hinput := List.takeWhile_append_dropWhile (p := (· != '{')) (l := input)
    cases hblock : consumeBlock (input.dropWhile (· != '{')) with
    | none =>
      refine ⟨[.literal (input.takeWhile (· != '{'))], ?_, ?_, ?_⟩
      · intro piece hpiece
        exact List.mem_singleton.1 hpiece ▸ hliteral
      · rw [unreadFrom, hblock]
        simp [Piece.text, hinput]
      · rw [readTemplate, hblock]
        simp [Piece.pattern, Piece.names]
    | some block =>
      obtain ⟨name, regex, rest⟩ := block
      obtain ⟨piece, hpiece, hpattern, hnames, htext⟩ := placeholder_of_consumeBlock hblock
      obtain ⟨pieces, hpieces, hrest, hread⟩ := ih rest
      refine ⟨.literal (input.takeWhile (· != '{')) :: piece :: pieces, ?_, ?_, ?_⟩
      · intro q hq
        rcases List.mem_cons.1 hq with rfl | hq
        · exact hliteral
        rcases List.mem_cons.1 hq with rfl | hq
        · exact hpiece
        · exact hpieces q hq
      · have hunread : unreadFrom (rounds + 1) input = unreadFrom rounds rest := by
          rw [unreadFrom, hblock]
        rw [List.flatMap_cons, List.flatMap_cons, List.append_assoc, List.append_assoc, hunread,
          hrest, htext, Piece.text, hinput]
      · rw [readTemplate, hblock, List.flatMap_cons, List.flatMap_cons, hpattern,
          List.flatMap_cons, List.flatMap_cons, hnames]
        dsimp only
        rw [hread]
        rfl

/-- A path is compiled as what the loop has read of it. -/
theorem createRegexPattern_reads (path : Text) :
    ∃ t : Template anyRegex, t.text ++ unread path = path ∧
      createRegexPattern path = createRegexPattern t.text := by
  obtain ⟨pieces, hpieces, htext, hread⟩ := readTemplate_reads (path.length + 1) path
  refine ⟨⟨pieces, hpieces⟩, htext, ?_⟩
  rw [createRegexPattern_text, createRegexPattern, hread]
  rfl

/-- Literal text does not stop the loop. -/
theorem unreadFrom_literal {literal : Text} (hl : '{' ∉ literal) (rounds : ℕ) (input : Text) :
    unreadFrom (rounds + 1) (literal ++ input) = unreadFrom (rounds + 1) input := by
  have hall := Text.bne_of_not_mem hl
  rw [unreadFrom, unreadFrom, List.dropWhile_append_of_pos hall]

/-- Nor does a block. -/
theorem unreadFrom_block {block name regex input : Text} (rounds : ℕ)
    (hblock : consumeBlock ('{' :: block) = some (name, regex, input)) :
    unreadFrom (rounds + 1) ('{' :: block) = unreadFrom rounds input := by
  have hbrace : ('{' != '{') = false := by decide
  rw [unreadFrom, List.dropWhile_cons_of_neg (hbrace ▸ Bool.false_ne_true), hblock]

/-- The text of pieces is read to its end. -/
theorem unreadFrom_pieces {ok : Text → Bool} {pieces : List Piece}
    (hpieces : ∀ piece ∈ pieces, piece.WellFormed ok) {rounds : ℕ}
    (hrounds : (pieces.flatMap Piece.text).length < rounds) :
    unreadFrom rounds (pieces.flatMap Piece.text) = [] := by
  induction pieces generalizing rounds with
  | nil =>
    obtain ⟨rounds, rfl⟩ : ∃ n, rounds = n + 1 := ⟨rounds - 1, by omega⟩
    rfl
  | cons piece pieces ih =>
    have hpiece := hpieces piece List.mem_cons_self
    have hrest : ∀ piece ∈ pieces, piece.WellFormed ok :=
      fun q hq ↦ hpieces q (List.mem_cons_of_mem piece hq)
    rw [List.flatMap_cons, List.length_append] at hrounds
    obtain ⟨rounds, rfl⟩ : ∃ n, rounds = n + 1 := ⟨rounds - 1, by omega⟩
    rw [List.flatMap_cons]
    cases piece with
    | literal text =>
      rw [Piece.text, unreadFrom_literal hpiece]
      exact ih hrest (by omega)
    | placeholder name =>
      obtain ⟨hne, hname⟩ := hpiece
      have hlen : 0 < (Piece.placeholder name).text.length := Nat.succ_pos _
      refine (unreadFrom_block rounds (consumeBlock_placeholder hne hname _)).trans ?_
      exact ih hrest (by omega)
    | custom name regex =>
      obtain ⟨⟨hne, hname⟩, hregex, hbrace, -⟩ := hpiece
      have hlen : 0 < (Piece.custom name regex).text.length := Nat.succ_pos _
      refine (unreadFrom_block rounds (consumeBlock_custom hne hname hregex hbrace _)).trans ?_
      exact ih hrest (by omega)

/-- Literal text and placeholders, nothing else. -/
def IsTemplate (path : Text) : Prop :=
  ∃ t : Template anyRegex, t.text = path

/-- **The loop reaches the end of the templates.** -/
theorem unread_eq_nil_iff (path : Text) : unread path = [] ↔ IsTemplate path := by
  constructor
  · intro h
    obtain ⟨t, htext, -⟩ := createRegexPattern_reads path
    rw [h, List.append_nil] at htext
    exact ⟨t, htext⟩
  · rintro ⟨t, rfl⟩
    exact unreadFrom_pieces t.wellFormed (Nat.lt_succ_self _)

/-! ### The routes of a call -/

/-- A call that registers routes. -/
inductive Registration (env : Env) (ω : Type u) : Type u
  /-- `add` for HTTP. -/
  | http (methods : List Verb) (path : Text) (preMiddlewares : List (Handler ω))
      (handler : HttpHandler ω) (postMiddlewares : List (Handler ω))
  /-- `add` for WebSockets. -/
  | webSocket (path : Text) (preMiddlewares : List (Handler ω)) (handler : WebSocketHandler ω)
      (postMiddlewares : List (Handler ω))
  /-- `group`. -/
  | group (root : Text) (preMiddlewares postMiddlewares : List (Handler ω))
      (fn : Router env ω → Router env ω)

/-- The router after the call. -/
def Router.register (ok : Ok) (r : Router env ω) : Registration env ω → Router env ω
  | .http methods path pre handler post => r.addHttp ok methods path pre handler post
  | .webSocket path pre handler post => r.addWebSocket ok path pre handler post
  | .group root pre post fn => r.group ok root pre post fn

/-- The paths that it gives to add(). -/
def Registration.paths : Registration env ω → List Text
  | .http _ path _ _ _ | .webSocket path _ _ _ => [path]
  | .group root _ _ fn => (fn {}).routes.map fun route ↦ root ++ route.path

/-- The routes that it registers. -/
def Registration.registered (ok : Ok) (r : Router env ω) (call : Registration env ω) :
    List (Route ω) :=
  (r.register ok call).routes.drop r.routes.length

/-- `pattern->ok()` for the pattern of a path. -/
def compiles (ok : Ok) (path : Text) : Bool :=
  ok (createRegexPattern path).1

/-- Routes for those of the paths that compile come behind the routes there are. -/
def Registers (ok : Ok) (r : Router env ω) (paths : List Text) (r' : Router env ω) : Prop :=
  ∃ added, r'.routes = r.routes ++ added ∧ added.map Route.path = paths.filter (compiles ok)

theorem Registers.trans {ok : Ok} {r r' r'' : Router env ω} {paths paths' : List Text}
    (h : Registers ok r paths r') (h' : Registers ok r' paths' r'') :
    Registers ok r (paths ++ paths') r'' := by
  obtain ⟨added, hroutes, hpaths⟩ := h
  obtain ⟨added', hroutes', hpaths'⟩ := h'
  refine ⟨added ++ added', ?_, ?_⟩
  · rw [hroutes', hroutes, List.append_assoc]
  · rw [List.map_append, hpaths, hpaths', List.filter_append]

/-- What add() does for both kinds of routes. -/
theorem registers_one (ok : Ok) (r : Router env ω) (route : Route ω) :
    Registers ok r [route.path]
      (if compiles ok route.path then { r with routes := r.routes ++ [route] } else r) := by
  cases hok : compiles ok route.path with
  | false => exact ⟨[], (List.append_nil _).symm, by simp [hok]⟩
  | true => exact ⟨[route], rfl, by simp [hok]⟩

/-- add() of an HTTP route registers its path. -/
theorem registers_addHttp (ok : Ok) (r : Router env ω) (methods : List Verb) (path : Text)
    (pre : List (Handler ω)) (handler : HttpHandler ω) (post : List (Handler ω)) :
    Registers ok r [path] (r.addHttp ok methods path pre handler post) :=
  registers_one ok r (.make methods path pre (.http handler) post)

theorem registers_addWebSocket (ok : Ok) (r : Router env ω) (path : Text)
    (pre : List (Handler ω)) (handler : WebSocketHandler ω) (post : List (Handler ω)) :
    Registers ok r [path] (r.addWebSocket ok path pre handler post) :=
  registers_one ok r (.make [] path pre (.webSocket handler) post)

/-- group() registers the paths of its routes behind its own. -/
theorem registers_group (ok : Ok) (r : Router env ω) (root : Text) (pre post : List (Handler ω))
    (fn : Router env ω → Router env ω) :
    Registers ok r ((fn {}).routes.map fun route ↦ root ++ route.path)
      (r.group ok root pre post fn) := by
  rw [Router.group]
  induction (fn {}).routes generalizing r with
  | nil => exact ⟨[], (List.append_nil _).symm, rfl⟩
  | cons route routes ih =>
    rw [List.foldl_cons, List.map_cons, ← List.singleton_append]
    refine Registers.trans ?_ (ih _)
    split
    · exact registers_addHttp ok r _ _ _ _ _
    · exact registers_addWebSocket ok r _ _ _ _

/-- **A call registers those of its paths that compile.** -/
theorem paths_registered (ok : Ok) (r : Router env ω) (call : Registration env ω) :
    (call.registered ok r).map Route.path = call.paths.filter (compiles ok) := by
  have h : Registers ok r call.paths (r.register ok call) := by
    cases call with
    | http methods path pre handler post =>
      exact registers_addHttp ok r methods path pre handler post
    | webSocket path pre handler post => exact registers_addWebSocket ok r path pre handler post
    | group root pre post fn => exact registers_group ok r root pre post fn
  obtain ⟨added, hroutes, hpaths⟩ := h
  rw [Registration.registered, hroutes, List.drop_left, hpaths]

/-! ### The guarantee -/

/-- Every character of every registered path has been read. -/
def ReadsWhole (ok : Ok) (r : Router env ω) (call : Registration env ω) : Prop :=
  ∀ route ∈ call.registered ok r, unread route.path = []

/-- **Paths are read whole exactly if they are templates.** -/
theorem reads_whole_iff (ok : Ok) (r : Router env ω) (call : Registration env ω) :
    ReadsWhole ok r call ↔ ∀ path ∈ call.paths, compiles ok path = true → IsTemplate path := by
  have hpaths := paths_registered ok r call
  constructor
  · intro h path hpath hok
    have hmem : path ∈ (call.registered ok r).map Route.path :=
      hpaths.symm ▸ List.mem_filter.2 ⟨hpath, hok⟩
    obtain ⟨route, hroute, rfl⟩ := List.mem_map.1 hmem
    exact (unread_eq_nil_iff _).1 (h route hroute)
  · intro h route hroute
    have hmem : route.path ∈ call.paths.filter (compiles ok) :=
      hpaths ▸ List.mem_map_of_mem hroute
    obtain ⟨hpath, hok⟩ := List.mem_filter.1 hmem
    exact (unread_eq_nil_iff _).2 (h route.path hpath hok)

/-- `/files/{id`, registered as `/files/`. -/
theorem files_shortened :
    ¬ (∀ (ok : Ok) (r : Router plainPaths Unit) (call : Registration plainPaths Unit),
      ReadsWhole ok r call) ∧
    createRegexPattern "/files/\x7bid".toList = createRegexPattern "/files/".toList := by
  refine ⟨fun h ↦ ?_, by decide⟩
  have hread : unread "/files/\x7bid".toList = [] :=
    h accepted {} (.http [.get] "/files/\x7bid".toList [] (fun _ x ↦ (.returned, x)) [])
      (Route.make [.get] "/files/\x7bid".toList [] (.http fun _ x ↦ (.returned, x)) [])
      List.mem_cons_self
  exact absurd hread (by decide)

end CppGate.Routing
