import Mathlib.Data.List.Basic

/-!
# Regular expressions with captures

An expression, what it matches, and what its groups capture. The captures come in the order of the
groups' opening parentheses, one for each group of the expression whether it took part in the match
or not (`Matches.length_captures`); so those of a sequence are those of its first part and then
those of its second.

A match stands between the text before it and the text behind it, which the assertions look at.
Which of several matches is preferred is left open.
-/

universe u

/-- A regular expression over an alphabet. -/
inductive Regex (α : Type u) : Type u
  | empty
  /-- One letter of a class. -/
  | letter (p : α → Bool)
  /-- An assertion about the text before and the text behind. -/
  | assert (p : List α → List α → Bool)
  | seq (r s : Regex α)
  | alt (r s : Regex α)
  /-- At least `least` times, and at most `most` times if that is a number. -/
  | rep (least : ℕ) (most : Option ℕ) (r : Regex α)
  /-- A capturing group. -/
  | group (r : Regex α)

namespace Regex

variable {α : Type u}

/-! ### Derived expressions -/

/-- A text, letter by letter. -/
def text [BEq α] : List α → Regex α
  | [] => empty
  | c :: cs => seq (letter (· == c)) (text cs)

/-- `r?`. -/
abbrev opt (r : Regex α) : Regex α := rep 0 (some 1) r

/-- `r+`. -/
abbrev plus (r : Regex α) : Regex α := rep 1 none r

/-- The beginning of the text. -/
def start : Regex α := assert fun before _ ↦ before.isEmpty

/-- The end of the text. -/
def stop : Regex α := assert fun _ behind ↦ behind.isEmpty

/-- The number of its groups. -/
def groups : Regex α → ℕ
  | empty | letter _ | assert _ => 0
  | seq r s | alt r s => r.groups + s.groups
  | rep _ _ r => r.groups
  | group r => r.groups + 1

/-! ### Matching -/

/-- What the groups of a repeated expression have captured after one more round: a group that took
no part keeps its capture. -/
def later (first rest : List (Option (List α))) : List (Option (List α)) :=
  first.zipWith (fun c d ↦ d <|> c) rest

/-- `r.Matches before x behind captures`: between the two texts `r` matches `x`, with these
captures. -/
inductive Matches :
    Regex α → List α → List α → List α → List (Option (List α)) → Prop
  | empty {before behind : List α} : Matches .empty before [] behind []
  | letter {p : α → Bool} {c : α} {before behind : List α} (h : p c = true) :
    Matches (.letter p) before [c] behind []
  | assert {p : List α → List α → Bool} {before behind : List α} (h : p before behind = true) :
    Matches (.assert p) before [] behind []
  | seq {r s : Regex α} {before x y behind : List α} {cs ds : List (Option (List α))}
    (hr : Matches r before x (y ++ behind) cs) (hs : Matches s (before ++ x) y behind ds) :
    Matches (.seq r s) before (x ++ y) behind (cs ++ ds)
  | left {r s : Regex α} {before x behind : List α} {cs : List (Option (List α))}
    (hr : Matches r before x behind cs) :
    Matches (.alt r s) before x behind (cs ++ List.replicate s.groups none)
  | right {r s : Regex α} {before x behind : List α} {ds : List (Option (List α))}
    (hs : Matches s before x behind ds) :
    Matches (.alt r s) before x behind (List.replicate r.groups none ++ ds)
  | done {r : Regex α} {most : Option ℕ} {before behind : List α} :
    Matches (.rep 0 most r) before [] behind (List.replicate r.groups none)
  | more {r : Regex α} {least : ℕ} {most : Option ℕ} {before x y behind : List α}
    {cs ds : List (Option (List α))} (hmost : most ≠ some 0)
    (hr : Matches r before x (y ++ behind) cs)
    (hrest : Matches (.rep (least - 1) (most.map (· - 1)) r) (before ++ x) y behind ds) :
    Matches (.rep least most r) before (x ++ y) behind (later cs ds)
  | group {r : Regex α} {before x behind : List α} {cs : List (Option (List α))}
    (hr : Matches r before x behind cs) :
    Matches (.group r) before x behind (some x :: cs)

variable {r s : Regex α} {before x behind : List α} {cs : List (Option (List α))}

/-- **One capture for each group.** -/
theorem Matches.length_captures (h : r.Matches before x behind cs) : cs.length = r.groups := by
  induction h with
  | empty | letter _ | assert _ => rfl
  | seq _ _ ihr ihs => rw [List.length_append, ihr, ihs, groups]
  | left _ ih => rw [List.length_append, List.length_replicate, ih, groups]
  | right _ ih => rw [List.length_append, List.length_replicate, ih, groups]
  | done => rw [List.length_replicate, groups]
  | more _ _ _ ihr ihrest =>
    rw [groups] at ihrest
    rw [later, List.length_zipWith, ihr, ihrest, Nat.min_self, groups]
  | group _ ih => rw [List.length_cons, ih, groups]

/-! ### Inversion -/

theorem matches_empty_iff : Matches .empty before x behind cs ↔ x = [] ∧ cs = [] := by
  constructor
  · intro h
    cases h
    exact ⟨rfl, rfl⟩
  · rintro ⟨rfl, rfl⟩
    exact .empty

theorem matches_letter_iff {p : α → Bool} :
    Matches (.letter p) before x behind cs ↔ ∃ c, p c = true ∧ x = [c] ∧ cs = [] := by
  constructor
  · intro h
    cases h with
    | letter h => exact ⟨_, h, rfl, rfl⟩
  · rintro ⟨c, h, rfl, rfl⟩
    exact .letter h

theorem matches_assert_iff {p : List α → List α → Bool} :
    Matches (.assert p) before x behind cs ↔ p before behind = true ∧ x = [] ∧ cs = [] := by
  constructor
  · intro h
    cases h with
    | assert h => exact ⟨h, rfl, rfl⟩
  · rintro ⟨h, rfl, rfl⟩
    exact .assert h

/-- The two parts of a sequence match one after the other. -/
theorem matches_seq_iff :
    Matches (.seq r s) before x behind cs ↔
      ∃ y z ds es, x = y ++ z ∧ cs = ds ++ es ∧
        r.Matches before y (z ++ behind) ds ∧ s.Matches (before ++ y) z behind es := by
  constructor
  · intro h
    cases h with
    | seq hr hs => exact ⟨_, _, _, _, rfl, rfl, hr, hs⟩
  · rintro ⟨y, z, ds, es, rfl, rfl, hr, hs⟩
    exact .seq hr hs

/-- A group captures what it matches, in front of what the groups in it capture. -/
theorem matches_group_iff :
    Matches (.group r) before x behind cs ↔
      ∃ ds, cs = some x :: ds ∧ r.Matches before x behind ds := by
  constructor
  · intro h
    cases h with
    | group hr => exact ⟨_, rfl, hr⟩
  · rintro ⟨ds, rfl, hr⟩
    exact .group hr

/-- A text matches itself only. -/
theorem matches_text_iff [BEq α] [LawfulBEq α] {l : List α} :
    (text l).Matches before x behind cs ↔ x = l ∧ cs = [] := by
  induction l generalizing before x cs with
  | nil => exact matches_empty_iff
  | cons c l ih =>
    constructor
    · intro h
      obtain ⟨y, z, ds, es, rfl, rfl, hletter, hrest⟩ := matches_seq_iff.1 h
      obtain ⟨d, hd, rfl, rfl⟩ := matches_letter_iff.1 hletter
      obtain ⟨rfl, rfl⟩ := ih.1 hrest
      rw [eq_of_beq hd]
      exact ⟨rfl, rfl⟩
    · rintro ⟨rfl, rfl⟩
      exact .seq (.letter (p := (· == c)) BEq.rfl) (ih.2 ⟨rfl, rfl⟩)

/-- A repeated expression is done, or matches once more. -/
theorem matches_rep_iff {least : ℕ} {most : Option ℕ} :
    Matches (.rep least most r) before x behind cs ↔
      (least = 0 ∧ x = [] ∧ cs = List.replicate r.groups none) ∨
      ∃ y z ds es, x = y ++ z ∧ cs = later ds es ∧ most ≠ some 0 ∧
        r.Matches before y (z ++ behind) ds ∧
        Matches (.rep (least - 1) (most.map (· - 1)) r) (before ++ y) z behind es := by
  constructor
  · intro h
    cases h with
    | done => exact .inl ⟨rfl, rfl, rfl⟩
    | more hmost hr hrest => exact .inr ⟨_, _, _, _, rfl, rfl, hmost, hr, hrest⟩
  · rintro (⟨rfl, rfl, rfl⟩ | ⟨y, z, ds, es, rfl, rfl, hmost, hr, hrest⟩)
    · exact .done
    · exact .more hmost hr hrest

/-- Letters of a class, as many as there are. -/
theorem matches_letters_iff {p : α → Bool} :
    Matches (.rep 0 none (.letter p)) before x behind cs ↔ (∀ c ∈ x, p c = true) ∧ cs = [] := by
  induction x generalizing before cs with
  | nil =>
    constructor
    · intro h
      exact ⟨fun _ hc ↦ absurd hc List.not_mem_nil, List.length_eq_zero_iff.1 h.length_captures⟩
    · rintro ⟨-, rfl⟩
      exact .done
  | cons c x ih =>
    constructor
    · intro h
      obtain ⟨-, hx, -⟩ | ⟨y, z, ds, es, hx, -, -, hletter, hrest⟩ := matches_rep_iff.1 h
      · exact absurd hx (List.cons_ne_nil c x)
      obtain ⟨d, hd, rfl, -⟩ := matches_letter_iff.1 hletter
      obtain ⟨rfl, rfl⟩ := List.cons.inj hx
      refine ⟨?_, List.length_eq_zero_iff.1 h.length_captures⟩
      exact List.forall_mem_cons.2 ⟨hd, (ih.1 hrest).1⟩
    · rintro ⟨hx, rfl⟩
      obtain ⟨hc, hx⟩ := List.forall_mem_cons.1 hx
      exact .more (x := [c]) (Option.some_ne_none 0).symm (.letter hc) (ih.2 ⟨hx, rfl⟩)

/-- Letters of a class, at least one of them. -/
theorem matches_plus_letter_iff {p : α → Bool} :
    (plus (letter p)).Matches before x behind cs ↔
      x ≠ [] ∧ (∀ c ∈ x, p c = true) ∧ cs = [] := by
  constructor
  · intro h
    obtain ⟨hleast, -, -⟩ | ⟨y, z, ds, es, rfl, -, -, hletter, hrest⟩ := matches_rep_iff.1 h
    · exact absurd hleast Nat.one_ne_zero
    obtain ⟨c, hc, rfl, -⟩ := matches_letter_iff.1 hletter
    refine ⟨List.cons_ne_nil c z, ?_, List.length_eq_zero_iff.1 h.length_captures⟩
    exact List.forall_mem_cons.2 ⟨hc, (matches_letters_iff.1 hrest).1⟩
  · rintro ⟨hne, hx, rfl⟩
    obtain ⟨c, x, rfl⟩ := List.exists_cons_of_ne_nil hne
    obtain ⟨hc, hx⟩ := List.forall_mem_cons.1 hx
    exact .more (x := [c]) (Option.some_ne_none 0).symm (.letter hc)
      (matches_letters_iff.2 ⟨hx, rfl⟩)

/-- At most once. -/
theorem matches_opt (h : (opt r).Matches before x behind cs) :
    x = [] ∨ ∃ ds, r.Matches before x behind ds := by
  cases h with
  | done => exact .inl rfl
  | more _ hr hrest =>
    cases hrest with
    | done => exact .inr ⟨_, by simpa using hr⟩
    | more hmost _ _ => exact absurd rfl hmost

end Regex
