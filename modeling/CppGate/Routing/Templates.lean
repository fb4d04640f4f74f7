import CppGate.Routing.Router
import Mathlib.Data.List.TakeWhile

/-!
# Path templates

How the constructor of a route reads its path, `createRegexPattern`: literal text up to a brace is
quoted, a `{name}` or `{name:regex}` block becomes a capture group, and at the first brace that does
not start such a block the loop stops.

A well-formed template is a list of literal pieces and placeholders (`Template`); for its text the
loop reads exactly these pieces (`createRegexPattern_text`).
-/

namespace CppGate.Routing

open Http

/-! ### The loop of createRegexPattern -/

/-- `[a-zA-Z0-9_]`. -/
def isNameChar (c : Char) : Bool :=
  c.isAlphanum || c == '_'

/-- `RE2::QuoteMeta`. -/
def quoteMeta (text : Text) : Text :=
  text.flatMap fun c ↦
    if c = Char.ofNat 0 then "\\x00".toList
    else if isNameChar c || decide (128 ≤ c.toNat) then [c]
    else ['\\', c]

/-- Consume a block `{name}` or `{name:regex}`: the name, the regex (empty if there is none), and
the rest of the input. -/
def consumeBlock : Text → Option (Text × Text × Text)
  | '{' :: input =>
    let name := input.takeWhile isNameChar
    if name = [] then
      none
    else
      match input.dropWhile isNameChar with
      | '}' :: rest => some (name, [], rest)
      | ':' :: input =>
        let regex := input.takeWhile (· != '}')
        match input.dropWhile (· != '}') with
        | _ :: rest => if regex = [] then none else some (name, regex, rest)
        | [] => none
      | _ => none
  | _ => none

/-- What a block adds to the pattern. -/
def groupPattern (regex : Text) : Text :=
  if regex = [] then "([^/]+)".toList else '(' :: (regex ++ [')'])

/-- The loop: the pattern and the names of the placeholders. Each round but the last consumes a
block, so as many rounds as the input has characters are enough (`readTemplate_of_le`). -/
def readTemplate : ℕ → Text → Text × List Text
  | 0, _ => ([], [])
  | rounds + 1, input =>
    let literal := quoteMeta (input.takeWhile (· != '{'))
    match consumeBlock (input.dropWhile (· != '{')) with
    | some (name, regex, rest) =>
      let (pattern, names) := readTemplate rounds rest
      (literal ++ (groupPattern regex ++ pattern), name :: names)
    | none => (literal, [])

/-- `Route::createRegexPattern`. -/
def createRegexPattern (path : Text) : Text × List Text :=
  let (pattern, names) := readTemplate (path.length + 1) path
  ('^' :: (pattern ++ "/?$".toList), names)

/-! ### Well-formed templates -/

/-- A piece of a template. -/
inductive Piece
  | literal (text : Text)
  /-- `{name}`. -/
  | placeholder (name : Text)
  /-- `{name:regex}`. -/
  | custom (name regex : Text)
  deriving DecidableEq, Repr

namespace Piece

/-- How the piece is written. -/
def text : Piece → Text
  | .literal text => text
  | .placeholder name => '{' :: (name ++ ['}'])
  | .custom name regex => '{' :: (name ++ ':' :: (regex ++ ['}']))

/-- What it adds to the pattern. -/
def pattern : Piece → Text
  | .literal text => quoteMeta text
  | .placeholder _ => groupPattern []
  | .custom _ regex => groupPattern regex

/-- The name it adds to the parameters. -/
def names : Piece → List Text
  | .literal _ => []
  | .placeholder name | .custom name _ => [name]

/-- Literal text has no opening brace; a placeholder has a name; a regex is there, has no closing
brace, and is accepted by RE2 (`ok`). -/
def WellFormed (ok : Text → Bool) : Piece → Prop
  | .literal text => '{' ∉ text
  | .placeholder name => name ≠ [] ∧ ∀ c ∈ name, isNameChar c = true
  | .custom name regex =>
    (name ≠ [] ∧ ∀ c ∈ name, isNameChar c = true) ∧ regex ≠ [] ∧ '}' ∉ regex ∧ ok regex = true

end Piece

/-- A sequence of literal text and placeholders. -/
@[ext] structure Template (ok : Text → Bool) where
  pieces : List Piece
  wellFormed : ∀ piece ∈ pieces, piece.WellFormed ok

namespace Template

variable {ok : Text → Bool}

/-- How the template is written. -/
def text (t : Template ok) : Text :=
  t.pieces.flatMap Piece.text

/-- The regular expression of the template. -/
def pattern (t : Template ok) : Text :=
  '^' :: (t.pieces.flatMap Piece.pattern ++ "/?$".toList)

/-- The names of its placeholders. -/
def names (t : Template ok) : List Text :=
  t.pieces.flatMap Piece.names

/-- One template after the other. -/
instance : Append (Template ok) where
  append s t := ⟨s.pieces ++ t.pieces, fun piece h ↦
    (List.mem_append.1 h).elim (s.wellFormed piece) (t.wellFormed piece)⟩

/-- The empty template. -/
def empty : Template ok :=
  ⟨[], fun _ h ↦ absurd h List.not_mem_nil⟩

@[simp] theorem text_append (s t : Template ok) : (s ++ t).text = s.text ++ t.text :=
  List.flatMap_append

theorem append_assoc (s t u : Template ok) : s ++ t ++ u = s ++ (t ++ u) :=
  Template.ext (List.append_assoc s.pieces t.pieces u.pieces)

@[simp] theorem empty_append (t : Template ok) : empty ++ t = t :=
  rfl

end Template

/-! ### What a block is -/

/-- What the loop takes for a block is a placeholder. -/
theorem placeholder_of_consumeBlock {input name regex rest : Text}
    (h : consumeBlock input = some (name, regex, rest)) :
    ∃ piece : Piece, (piece.WellFormed fun _ ↦ true) ∧ piece.pattern = groupPattern regex ∧
      piece.names = [name] ∧ piece.text ++ rest = input := by
  unfold consumeBlock at h
  split at h
  · next input =>
    dsimp only at h
    have hname : ∀ c ∈ input.takeWhile isNameChar, isNameChar c = true :=
      fun c hc ↦ List.mem_takeWhile_imp hc
    have hinput := List.takeWhile_append_dropWhile (p := isNameChar) (l := input)
    split at h
    · exact absurd h.symm (Option.some_ne_none _)
    next hne =>
    split at h
    · next rest' hrest =>
      simp only [Option.some.injEq, Prod.mk.injEq] at h
      obtain ⟨rfl, rfl, rfl⟩ := h
      refine ⟨.placeholder _, ⟨hne, hname⟩, rfl, rfl, ?_⟩
      rw [Piece.text, List.cons_append, List.append_assoc, List.singleton_append, ← hrest, hinput]
    · next input' hinput' =>
      have hregex := List.takeWhile_append_dropWhile (p := (· != '}')) (l := input')
      split at h
      · next c rest' hrest =>
        split at h
        · exact absurd h.symm (Option.some_ne_none _)
        next hnonempty =>
        simp only [Option.some.injEq, Prod.mk.injEq] at h
        obtain ⟨rfl, rfl, rfl⟩ := h
        -- The loop of `[^}]+` stopped at a brace.
        have hc : c = '}' := by
          have hstop := List.head?_dropWhile_not (· != '}') input'
          rw [hrest] at hstop
          simpa using hstop
        rw [hc] at hrest
        have hbrace : '}' ∉ input'.takeWhile (· != '}') := fun hmem ↦ by
          simpa using List.mem_takeWhile_imp hmem
        refine ⟨.custom _ _, ⟨⟨hne, hname⟩, hnonempty, hbrace, rfl⟩, rfl, rfl, ?_⟩
        rw [Piece.text, List.cons_append, List.append_assoc, List.cons_append, List.append_assoc,
          List.singleton_append, ← hrest, hregex, ← hinput', hinput]
      · exact absurd h.symm (Option.some_ne_none _)
    · exact absurd h.symm (Option.some_ne_none _)
  · exact absurd h.symm (Option.some_ne_none _)

/-- A block is not empty. -/
theorem length_of_consumeBlock {input name regex rest : Text}
    (h : consumeBlock input = some (name, regex, rest)) : rest.length < input.length := by
  obtain ⟨piece, -, -, hnames, rfl⟩ := placeholder_of_consumeBlock h
  have hpos : 0 < piece.text.length := by
    cases piece with
    | literal text => exact absurd hnames.symm (List.cons_ne_nil _ _)
    | placeholder name => exact Nat.succ_pos _
    | custom name regex => exact Nat.succ_pos _
  rw [List.length_append]
  omega

/-- More rounds than characters change nothing. -/
theorem readTemplate_of_le {m n : ℕ} {input : Text} (hn : input.length < n) (hm : n ≤ m) :
    readTemplate m input = readTemplate n input := by
  induction n generalizing m input with
  | zero => omega
  | succ n ih =>
    obtain ⟨m, rfl⟩ : ∃ k, m = k + 1 := ⟨m - 1, by omega⟩
    rw [readTemplate, readTemplate]
    split
    · next name regex rest hblock =>
      have hlen := length_of_consumeBlock hblock
      have hdrop := (List.dropWhile_suffix (· != '{') (l := input)).length_le
      rw [ih (by omega) (by omega)]
    · rfl

/-! ### What the loop reads of a well-formed template -/

/-- Literal text in front is quoted. -/
theorem readTemplate_literal {literal : Text} (hl : '{' ∉ literal) (rounds : ℕ) (input : Text) :
    readTemplate (rounds + 1) (literal ++ input) =
      (quoteMeta literal ++ (readTemplate (rounds + 1) input).1,
        (readTemplate (rounds + 1) input).2) := by
  have hall := Text.bne_of_not_mem hl
  have hquote : ∀ x y : Text, quoteMeta (x ++ y) = quoteMeta x ++ quoteMeta y :=
    fun x y ↦ List.flatMap_append
  rw [readTemplate, readTemplate, List.takeWhile_append_of_pos hall,
    List.dropWhile_append_of_pos hall, hquote]
  split
  · simp only [List.append_assoc]
  · rfl

/-- A placeholder is a block. -/
theorem consumeBlock_placeholder {name : Text} (hne : name ≠ [])
    (hname : ∀ c ∈ name, isNameChar c = true) (input : Text) :
    consumeBlock ((Piece.placeholder name).text ++ input) = some (name, [], input) := by
  have hstop : isNameChar '}' = false := by decide
  rw [Piece.text, List.cons_append, List.append_assoc, consumeBlock]
  rw [List.takeWhile_append_of_pos hname, List.dropWhile_append_of_pos hname]
  simp [hstop, hne]

theorem consumeBlock_custom {name regex : Text} (hne : name ≠ [])
    (hname : ∀ c ∈ name, isNameChar c = true) (hregex : regex ≠ []) (hbrace : '}' ∉ regex)
    (input : Text) :
    consumeBlock ((Piece.custom name regex).text ++ input) = some (name, regex, input) := by
  have hstop : isNameChar ':' = false := by decide
  have hall := Text.bne_of_not_mem hbrace
  rw [Piece.text, List.cons_append, List.append_assoc, consumeBlock]
  rw [List.takeWhile_append_of_pos hname, List.dropWhile_append_of_pos hname]
  simp [hstop, hne, List.takeWhile_append_of_pos hall, List.dropWhile_append_of_pos hall, hregex]

/-- A block in front becomes a group, and the loop goes on behind it. -/
theorem readTemplate_block {block name regex input : Text} (rounds : ℕ)
    (hblock : consumeBlock ('{' :: block) = some (name, regex, input)) :
    readTemplate (rounds + 1) ('{' :: block) =
      (groupPattern regex ++ (readTemplate rounds input).1,
        name :: (readTemplate rounds input).2) := by
  have hbrace : ('{' != '{') = false := by decide
  rw [readTemplate, List.takeWhile_cons_of_neg (hbrace ▸ Bool.false_ne_true),
    List.dropWhile_cons_of_neg (hbrace ▸ Bool.false_ne_true), hblock]
  rfl

/-- The loop reads a well-formed template piece by piece. -/
theorem readTemplate_pieces {ok : Text → Bool} {pieces : List Piece}
    (hpieces : ∀ piece ∈ pieces, piece.WellFormed ok) {rounds : ℕ}
    (hrounds : (pieces.flatMap Piece.text).length < rounds) :
    readTemplate rounds (pieces.flatMap Piece.text) =
      (pieces.flatMap Piece.pattern, pieces.flatMap Piece.names) := by
  induction pieces generalizing rounds with
  | nil =>
    obtain ⟨rounds, rfl⟩ : ∃ n, rounds = n + 1 := ⟨rounds - 1, by omega⟩
    rfl
  | cons piece pieces ih =>
    have hpiece := hpieces piece List.mem_cons_self
    have hrest : ∀ piece ∈ pieces, piece.WellFormed ok :=
      fun q hq ↦ hpieces q (List.mem_cons_of_mem piece hq)
    rw [List.flatMap_cons, List.length_append] at hrounds
    obtain ⟨rounds, rfl⟩ : ∃ n, rounds = n + 1 := ⟨rounds - 1, by omega⟩
    rw [List.flatMap_cons, List.flatMap_cons, List.flatMap_cons]
    cases piece with
    | literal text =>
      rw [Piece.text, readTemplate_literal hpiece, ih hrest (by omega)]
      rfl
    | placeholder name =>
      obtain ⟨hne, hname⟩ := hpiece
      have hlen : 0 < (Piece.placeholder name).text.length := Nat.succ_pos _
      refine (readTemplate_block rounds (consumeBlock_placeholder hne hname _)).trans ?_
      rw [ih hrest (by omega)]
      rfl
    | custom name regex =>
      obtain ⟨⟨hne, hname⟩, hregex, hbrace, -⟩ := hpiece
      have hlen : 0 < (Piece.custom name regex).text.length := Nat.succ_pos _
      refine (readTemplate_block rounds (consumeBlock_custom hne hname hregex hbrace _)).trans ?_
      rw [ih hrest (by omega)]
      rfl

/-- **The pattern and the names of a well-formed template.** -/
theorem createRegexPattern_text {ok : Text → Bool} (t : Template ok) :
    createRegexPattern t.text = (t.pattern, t.names) := by
  rw [createRegexPattern, Template.text, readTemplate_pieces t.wellFormed (Nat.lt_succ_self _)]
  rfl

example : createRegexPattern "/users/\x7bid\x7d/\x7bpage:\\d+\x7d".toList =
    ("^\\/users\\/([^/]+)\\/(\\d+)/?$".toList, ["id".toList, "page".toList]) := by decide

end CppGate.Routing
