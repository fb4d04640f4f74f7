import Mathlib.Data.List.DropRight

/-!
# Texts

Texts as lists of characters, with the operations that header parsers share: removing blanks at both
ends, comparing without case, and finding the first occurrence of a character or a text. A program's
byte strings are texts whose characters are bytes.
-/

/-- A text. -/
abbrev Text := List Char

namespace Text

/-- A space or a tab. -/
def isBlank (c : Char) : Bool :=
  c == ' ' || c == '\t'

/-- Remove the blanks at both ends. -/
def trim (text : Text) : Text :=
  (text.dropWhile isBlank).rdropWhile isBlank

/-- Equality up to the case of ASCII letters. -/
def iequals (x y : Text) : Bool :=
  x.map Char.toLower == y.map Char.toLower

/-- The position of the first occurrence of a text in another. -/
def indexOf (part : Text) : Text → Option ℕ
  | [] => if part = [] then some 0 else none
  | c :: text => if part.isPrefixOf (c :: text) then some 0 else (indexOf part text).map (· + 1)

/-- Texts that are equal up to case are equal to the same texts. -/
theorem iequals_congr (other x y : Text) (h : iequals x y = true) :
    iequals x other = iequals y other := by
  rw [iequals, beq_iff_eq] at h
  rw [iequals, iequals, h]

/-! ### Occurrences of a character -/

/-- A character that does not occur is none of the text's. -/
theorem bne_of_not_mem {c : Char} {text : Text} (h : c ∉ text) : ∀ d ∈ text, (d != c) = true := by
  intro d hd
  rw [bne_iff_ne]
  rintro rfl
  exact h hd

/-- The text in front of the first occurrence of a character. -/
theorem takeWhile_append_cons {c : Char} {text : Text} (h : c ∉ text) (rest : Text) :
    (text ++ c :: rest).takeWhile (· != c) = text := by
  rw [List.takeWhile_append_of_pos (bne_of_not_mem h), List.takeWhile_cons_of_neg (by simp),
    List.append_nil]

/-- Text behind a character that stops the loop does not matter. -/
theorem takeWhile_append_of_mem {p : Char → Bool} {x : Text} (h : ∃ c ∈ x, p c = false)
    (y : Text) : (x ++ y).takeWhile p = x.takeWhile p := by
  induction x with
  | nil => exact absurd h (by simp)
  | cons c x ih =>
    cases hc : p c with
    | false => simp [hc]
    | true =>
      have hx : ∃ d ∈ x, p d = false := by
        obtain ⟨d, hd, hstop⟩ := h
        rcases List.mem_cons.1 hd with rfl | hd
        · exact absurd (hstop.symm.trans hc) Bool.false_ne_true
        · exact ⟨d, hd, hstop⟩
      rw [List.cons_append, List.takeWhile_cons_of_pos hc, List.takeWhile_cons_of_pos hc, ih hx]

theorem takeWhile_congr {p q : Char → Bool} {text : Text} (h : ∀ c ∈ text, p c = q c) :
    text.takeWhile p = text.takeWhile q := by
  induction text with
  | nil => rfl
  | cons c text ih =>
    have htext := ih fun d hd ↦ h d (List.mem_cons_of_mem c hd)
    rw [List.takeWhile_cons, List.takeWhile_cons, h c List.mem_cons_self, htext]

/-- There is one first occurrence of a character. -/
theorem append_cons_inj {c : Char} {x y u v : Text} (hx : c ∉ x) (hy : c ∉ y)
    (h : x ++ c :: u = y ++ c :: v) : x = y ∧ u = v := by
  have hxy : x = y := by
    rw [← takeWhile_append_cons hx u, h, takeWhile_append_cons hy]
  subst hxy
  exact ⟨rfl, (List.cons.inj (List.append_cancel_left h)).2⟩

/-- There is one last occurrence of a character. -/
theorem append_cons_inj_right {c : Char} {x y u v : Text} (hu : c ∉ u) (hv : c ∉ v)
    (h : x ++ c :: u = y ++ c :: v) : x = y ∧ u = v := by
  have hreverse : u.reverse ++ c :: x.reverse = v.reverse ++ c :: y.reverse := by
    simpa using congrArg List.reverse h
  obtain ⟨huv, hxy⟩ := append_cons_inj (by simpa using hu) (by simpa using hv) hreverse
  exact ⟨List.reverse_injective hxy, List.reverse_injective huv⟩

/-! ### Occurrences of a text -/

theorem prefix_of_prefix_append {part x y : Text} (h : part <+: x ++ y)
    (hlen : part.length ≤ x.length) : part <+: x :=
  List.prefix_of_prefix_length_le h (List.prefix_append x y) hlen

theorem indexOf_cons (part : Text) (c : Char) (text : Text) :
    indexOf part (c :: text) =
      if part <+: c :: text then some 0 else (indexOf part text).map (· + 1) := by
  rw [indexOf]
  exact if_congr List.isPrefixOf_iff_prefix rfl rfl

/-- Where a text occurs, and that it occurs nowhere if there is no position. -/
theorem indexOf_eq_some {part text : Text} {i : ℕ} (h : indexOf part text = some i) :
    text = text.take i ++ (part ++ text.drop (i + part.length)) := by
  induction text generalizing i with
  | nil =>
    rw [indexOf] at h
    split at h
    · next hpart => rw [hpart, List.take_nil, List.drop_nil]; rfl
    · cases h
  | cons c text ih =>
    rw [indexOf_cons] at h
    split at h
    · next hpre =>
      obtain ⟨rest, hrest⟩ := hpre
      obtain rfl := Option.some.inj h
      rw [← hrest, List.take_zero, Nat.zero_add, List.drop_left, List.nil_append]
    · obtain ⟨j, hj, rfl⟩ := Option.map_eq_some_iff.1 h
      rw [List.take_succ_cons, List.cons_append, Nat.add_right_comm, List.drop_succ_cons, ← ih hj]

/-- More text behind does not move the first occurrence. -/
theorem indexOf_append_of_some {part text : Text} {i : ℕ} (h : indexOf part text = some i)
    (rest : Text) : indexOf part (text ++ rest) = some i := by
  induction text generalizing i with
  | nil =>
    rw [indexOf] at h
    split at h
    · next hpart =>
      obtain rfl := Option.some.inj h
      cases rest with
      | nil => rw [hpart]; rfl
      | cons c rest => rw [List.nil_append, indexOf_cons, if_pos (hpart ▸ List.nil_prefix)]
    · cases h
  | cons c text ih =>
    rw [indexOf_cons] at h
    rw [List.cons_append, indexOf_cons]
    split at h
    · next hpre =>
      have hpre' : part <+: c :: (text ++ rest) := hpre.trans (List.prefix_append (c :: text) rest)
      rw [if_pos hpre', h]
    · next hpre =>
      obtain ⟨j, hj, rfl⟩ := Option.map_eq_some_iff.1 h
      have hlen : part.length ≤ text.length := by
        have hlen := congrArg List.length (indexOf_eq_some hj)
        simp only [List.length_append, List.length_take, List.length_drop] at hlen
        omega
      have hnot : ¬ part <+: c :: (text ++ rest) := fun h ↦
        hpre (prefix_of_prefix_append (x := c :: text) h (Nat.le_succ_of_le hlen))
      rw [if_neg hnot, ih hj]
      rfl

/-- A text whose first character does not come again occurs first where it is put behind a text
that it does not occur in. -/
theorem indexOf_append_self {c : Char} {part text : Text} (hc : c ∉ part)
    (h : indexOf (c :: part) text = none) (rest : Text) :
    indexOf (c :: part) (text ++ (c :: part ++ rest)) = some text.length := by
  induction text with
  | nil => rw [List.nil_append, List.cons_append, indexOf_cons, if_pos ⟨rest, rfl⟩]; rfl
  | cons d text ih =>
    rw [indexOf_cons] at h
    split at h
    · cases h
    next hpre =>
    have hnot : ¬ c :: part <+: d :: (text ++ (c :: part ++ rest)) := by
      rintro ⟨behind, hbehind⟩
      obtain ⟨rfl, htext⟩ : c = d ∧ part ++ behind = text ++ (c :: part ++ rest) :=
        List.cons.inj hbehind
      refine hpre ?_
      by_cases hlen : part.length ≤ text.length
      · exact (List.prefix_cons_inj _).2 (prefix_of_prefix_append ⟨behind, htext⟩ hlen)
      · -- the first character would come again
        have hfront : text <+: part := by
          have hwhole : text <+: part ++ behind := htext ▸ List.prefix_append text _
          exact List.prefix_of_prefix_length_le hwhole (List.prefix_append part behind) (by omega)
        obtain ⟨z, rfl⟩ := hfront
        rw [List.append_assoc] at htext
        cases z with
        | nil => exact absurd (congrArg List.length (List.append_nil text)).le hlen
        | cons e z =>
          obtain ⟨rfl, -⟩ := List.cons.inj (List.append_cancel_left htext)
          exact absurd (List.mem_append_right text List.mem_cons_self) hc
    rw [List.cons_append, indexOf_cons, if_neg hnot, ih (Option.map_eq_none_iff.1 h)]
    rfl

/-! ### Blanks -/

/-- A text without blanks stays as it is. -/
theorem trim_eq_self {text : Text} (h : ∀ c ∈ text, isBlank c = false) : trim text = text := by
  have hfront : text.dropWhile isBlank = text := by
    cases text with
    | nil => rfl
    | cons c text => exact List.dropWhile_cons_of_neg (by simp [h c List.mem_cons_self])
  rw [trim, hfront, List.rdropWhile_eq_self_iff]
  intro hne hblank
  rw [h _ (List.getLast_mem hne)] at hblank
  exact absurd hblank Bool.false_ne_true

/-- A blank in front is removed. -/
theorem trim_cons_blank {c : Char} (h : isBlank c = true) (text : Text) :
    trim (c :: text) = trim text := by
  rw [trim, List.dropWhile_cons_of_pos h, trim]

end Text
