import CppGate.Foundations.ListWeights
import Mathlib.Data.List.Nodup

/-!
# Rosters: members that are not owned, and the closings that reach them

A component that has to reach all the objects it handed out when it shuts down, without keeping them
alive until then, lists them without owning them. An object joins when it starts and is taken off
the list some time after it is gone. Closing sets a flag and takes those that are still there, both
at once; each of them is told after that, one by one, so other things happen in between. Once the
roster is closed nobody may join any more.

`Reaches` is what makes this work: while the roster is open every member is listed or gone, and once
it is closed every member is gone, was told, or is owed it by a closing in progress. Every operation
keeps it, so no member slips through, whatever the order of the operations (`Reaches.settled`).
-/

universe u v

/-- Members that are not owned, and the closings in progress, each with those it has not told. -/
structure Roster (ι : Type u) where
  members : List ι := []
  closed : Bool := false
  closings : List (List ι) := []
  deriving DecidableEq, Repr

namespace Roster

variable {ι : Type u} [DecidableEq ι]

/-- List a member. -/
def join (r : Roster ι) (i : ι) : Roster ι :=
  { r with members := r.members.insert i }

/-- Take members off the list that are not there any more. -/
def prune (r : Roster ι) (present : ι → Bool) : Roster ι :=
  { r with members := r.members.filter present }

/-- Close the roster and take the members that are still there. -/
def close (r : Roster ι) (present : ι → Bool) : Roster ι :=
  { r with closed := true, closings := r.closings ++ [r.members.filter present] }

/-- Take everybody off the list. -/
def clear (r : Roster ι) : Roster ι :=
  { r with members := [] }

/-- Whom a closing tells next. -/
def next (r : Roster ι) (k : ℕ) : Option ι :=
  (r.closings[k]?).bind List.head?

/-- A closing tells the next one. -/
def tell (r : Roster ι) (k : ℕ) : Roster ι :=
  { r with closings := r.closings.modify k List.tail }

/-- How many closings have yet to tell a member. -/
def owing (r : Roster ι) (i : ι) : ℕ :=
  (r.closings.map (List.count i)).sum

variable {r : Roster ι} {i j : ι} {k : ℕ} {present : ι → Bool}

/-! ### Who is owed -/

/-- Nobody is listed twice. -/
theorem nodup_join (h : r.members.Nodup) (i : ι) : (r.join i).members.Nodup :=
  h.insert

omit [DecidableEq ι] in
theorem nodup_prune (h : r.members.Nodup) (present : ι → Bool) : (r.prune present).members.Nodup :=
  h.filter _

@[simp] theorem owing_join (r : Roster ι) (i j : ι) : (r.join i).owing j = r.owing j := rfl

@[simp] theorem owing_prune (r : Roster ι) (present : ι → Bool) (i : ι) :
    (r.prune present).owing i = r.owing i := rfl

@[simp] theorem owing_clear (r : Roster ι) (i : ι) : r.clear.owing i = r.owing i := rfl

/-- A closing owes it to those it took. -/
theorem owing_close (h : r.members.Nodup) (present : ι → Bool) (i : ι) :
    (r.close present).owing i =
      r.owing i + if i ∈ r.members ∧ present i = true then 1 else 0 := by
  have hcount : (r.members.filter present).count i =
      if i ∈ r.members ∧ present i = true then 1 else 0 := by
    rw [(h.filter present).count]
    simp only [List.mem_filter]
  rw [owing, close, List.map_append, List.sum_append, List.map_singleton, List.sum_singleton,
    hcount]
  rfl

/-- Where nobody is closing, nobody is owed. -/
theorem owing_of_quiet (h : r.closings.length = 0) (i : ι) : r.owing i = 0 := by
  rw [owing, List.length_eq_zero_iff.1 h]
  rfl

omit [DecidableEq ι] in
/-- The only closing has told everybody. -/
theorem settled_of_next (hsingle : r.closings.length = 1) (hnext : r.next 0 = none) :
    ∀ c ∈ r.closings, c = [] := by
  obtain ⟨c, hc⟩ := List.length_eq_one_iff.1 hsingle
  rw [next, hc] at hnext
  rw [hc]
  exact fun _ hmem ↦ List.mem_singleton.1 hmem ▸ List.head?_eq_none_iff.1 hnext

/-- Telling one settles what one closing owed. -/
theorem owing_tell (h : r.next k = some i) (j : ι) :
    (r.tell k).owing j + (if i = j then 1 else 0) = r.owing j := by
  obtain ⟨c, hc, hhead⟩ := Option.bind_eq_some_iff.1 h
  obtain ⟨rest, rfl⟩ := List.head?_eq_some_iff.1 hhead
  have hset : r.closings.modify k List.tail = r.closings.set k rest := by
    rw [List.modify_eq_set_getElem?, hc]
    rfl
  have hsum := List.sum_map_set_add (List.count j) hc rest
  rw [List.count_cons] at hsum
  simp only [beq_iff_eq] at hsum
  show ((r.closings.modify k List.tail).map (List.count j)).sum + _ = (r.closings.map _).sum
  rw [hset]
  omega

/-! ### Nobody slips through -/

/-- Every member is listed or gone while the roster is open. Once it is closed, every member is
gone, was told or is owed it. -/
structure Reaches (r : Roster ι) (joined gone told : ι → Prop) : Prop where
  listed : r.closed = false → ∀ i, joined i → gone i ∨ i ∈ r.members
  owed : r.closed = true → ∀ i, joined i → gone i ∨ told i ∨ 0 < r.owing i

variable {joined gone told : ι → Prop}

/-- An empty roster reaches everyone that joined, as nobody did. -/
theorem reaches_empty (gone told : ι → Prop) :
    Reaches ({} : Roster ι) (fun _ ↦ False) gone told :=
  ⟨fun _ _ h ↦ h.elim, fun _ _ h ↦ h.elim⟩

/-- Fewer may have joined, more may be gone or told. -/
theorem Reaches.mono (h : r.Reaches joined gone told) {joined' gone' told' : ι → Prop}
    (hjoined : ∀ i, joined' i → joined i) (hgone : ∀ i, gone i → gone' i)
    (htold : ∀ i, told i → told' i) : r.Reaches joined' gone' told' where
  listed hopen i hi := (h.listed hopen i (hjoined i hi)).imp_left (hgone i)
  owed hclosed i hi := (h.owed hclosed i (hjoined i hi)).imp (hgone i) (Or.imp_left (htold i))

/-- While the roster is open a new member may join. -/
theorem Reaches.join (h : r.Reaches joined gone told) (hopen : r.closed = false) (i : ι) :
    (r.join i).Reaches (fun j ↦ j = i ∨ joined j) gone told where
  listed _ j := by
    rintro (rfl | hj)
    · exact Or.inr (List.mem_insert_self ..)
    · exact (h.listed hopen j hj).imp_right List.mem_insert_of_mem
  owed hclosed := absurd (hopen.symm.trans hclosed) Bool.false_ne_true

/-- Those that are gone may be taken off the list. -/
theorem Reaches.prune (h : r.Reaches joined gone told)
    (hpresent : ∀ i, joined i → present i = false → gone i) :
    (r.prune present).Reaches joined gone told where
  listed hopen i hi := by
    rcases h.listed hopen i hi with hgone | hmem
    · exact Or.inl hgone
    · cases hp : present i with
      | false => exact Or.inl (hpresent i hi hp)
      | true => exact Or.inr (List.mem_filter.2 ⟨hmem, hp⟩)
  owed := h.owed

/-- Closing owes it to every member that is not gone, whether or not the roster was closed. -/
theorem Reaches.close (h : r.Reaches joined gone told) (hnodup : r.members.Nodup)
    (hpresent : ∀ i, joined i → present i = false → gone i) :
    (r.close present).Reaches joined gone told where
  listed hopen := absurd hopen.symm Bool.false_ne_true
  owed _ i hi := by
    rw [owing_close hnodup]
    cases hclosed : r.closed with
    | true => exact (h.owed hclosed i hi).imp_right (Or.imp_right fun h ↦ by omega)
    | false =>
      rcases h.listed hclosed i hi with hgone | hmem
      · exact Or.inl hgone
      · cases hp : present i with
        | false => exact Or.inl (hpresent i hi hp)
        | true => exact Or.inr (Or.inr (by rw [if_pos ⟨hmem, rfl⟩]; omega))

/-- Once the roster is closed it does not matter who is listed. -/
theorem Reaches.relist (h : r.Reaches joined gone told) (hclosed : r.closed = true)
    (members : List ι) : Reaches { r with members } joined gone told where
  listed hopen := absurd (hopen.symm.trans hclosed) Bool.false_ne_true
  owed := h.owed

/-- Telling one keeps the others owed. -/
theorem Reaches.tell (h : r.Reaches joined gone told) (hnext : r.next k = some i) :
    (r.tell k).Reaches joined gone (fun j ↦ j = i ∨ told j) where
  listed := h.listed
  owed hclosed j hj := by
    have howing := owing_tell hnext j
    rcases h.owed hclosed j hj with hgone | htold | howed
    · exact Or.inl hgone
    · exact Or.inr (Or.inl (Or.inr htold))
    · by_cases hij : i = j
      · exact Or.inr (Or.inl (Or.inl hij.symm))
      · rw [if_neg hij] at howing
        exact Or.inr (Or.inr (by omega))

/-- **Nobody slips through.** Once the roster is closed and no closing owes anything, every member
is gone or was told. -/
theorem Reaches.settled (h : r.Reaches joined gone told) (hclosed : r.closed = true)
    (hsettled : ∀ c ∈ r.closings, c = []) (hi : joined i) : gone i ∨ told i := by
  rcases h.owed hclosed i hi with hgone | htold | howed
  · exact Or.inl hgone
  · exact Or.inr htold
  · have hzero : r.owing i = 0 := by
      refine List.sum_eq_zero fun n hn ↦ ?_
      obtain ⟨c, hc, rfl⟩ := List.mem_map.1 hn
      rw [hsettled c hc, List.count_nil]
    exact absurd howed (by omega)

/-! ### Objects that are made one after the other

An object's number is its place in the list of all that were made. -/

section Objects

variable {σ : Type v} {objects objects' : List σ} {s t new : σ} {n : ℕ}
  {becomes : σ → σ → Prop} {P J G T : σ → Prop} {r : Roster ℕ}

/-- An object was made, and is such. -/
def At (objects : List σ) (P : σ → Prop) (n : ℕ) : Prop :=
  ∃ s, objects[n]? = some s ∧ P s

/-- Every object goes on, and none is made. -/
structure Kept (becomes : σ → σ → Prop) (objects objects' : List σ) : Prop where
  length : objects'.length = objects.length
  becomes : ∀ (n : ℕ) (s : σ), objects[n]? = some s → ∃ t, objects'[n]? = some t ∧ becomes s t

theorem kept_modify {f : σ → σ} (hrefl : ∀ s, becomes s s) (hs : objects[n]? = some s)
    (h : becomes s (f s)) : Kept becomes objects (objects.modify n f) where
  length := List.length_modify ..
  becomes m u hu := by
    by_cases hnm : n = m
    · subst hnm
      obtain rfl := Option.some.inj (hs.symm.trans hu)
      exact ⟨f s, by rw [List.getElem?_modify_eq, hs]; rfl, h⟩
    · exact ⟨u, by rw [List.getElem?_modify_ne _ _ hnm, hu], hrefl u⟩

/-- Replacing one object keeps the others. -/
theorem kept_set (hrefl : ∀ s, becomes s s) (hs : objects[n]? = some s) (h : becomes s t) :
    Kept becomes objects (objects.set n t) := by
  rw [List.set_eq_modify]
  exact kept_modify hrefl hs h

theorem kept_map {f : σ → σ} (h : ∀ s, becomes s (f s)) :
    Kept becomes objects (objects.map f) where
  length := List.length_map ..
  becomes n s hs := ⟨f s, by rw [List.getElem?_map, hs]; rfl, h s⟩

/-- An object that is there has become what it is from one that was there. -/
theorem Kept.of_get (h : Kept becomes objects objects') (ht : objects'[n]? = some t) :
    ∃ s, objects[n]? = some s ∧ becomes s t := by
  have hn : n < objects.length := h.length ▸ (List.getElem?_eq_some_iff.1 ht).1
  obtain ⟨t', ht', hbecomes⟩ := h.becomes n _ (List.getElem?_eq_getElem hn)
  obtain rfl := Option.some.inj (ht.symm.trans ht')
  exact ⟨_, List.getElem?_eq_getElem hn, hbecomes⟩

/-- Objects that go on stay reached. -/
theorem Reaches.kept (h : r.Reaches (At objects J) (At objects G) (At objects T))
    (hkept : Kept becomes objects objects') (hJ : ∀ s t, becomes s t → J t → J s)
    (hG : ∀ s t, becomes s t → G s → G t) (hT : ∀ s t, becomes s t → T s → T t) :
    r.Reaches (At objects' J) (At objects' G) (At objects' T) := by
  have hforth : ∀ P : σ → Prop, (∀ s t, becomes s t → P s → P t) →
      ∀ n, At objects P n → At objects' P n := by
    rintro P hP n ⟨s, hs, hp⟩
    obtain ⟨t, ht, hbecomes⟩ := hkept.becomes n s hs
    exact ⟨t, ht, hP s t hbecomes hp⟩
  refine h.mono ?_ (hforth G hG) (hforth T hT)
  rintro n ⟨t, ht, hj⟩
  obtain ⟨s, hs, hbecomes⟩ := hkept.of_get ht
  exact ⟨s, hs, hJ s t hbecomes hj⟩

theorem of_get_append (ht : (objects ++ [new])[n]? = some t) :
    objects[n]? = some t ∨ n = objects.length ∧ t = new := by
  rcases Nat.lt_or_ge n objects.length with hn | hn
  · exact Or.inl (List.getElem?_append_left hn ▸ ht)
  · rw [List.getElem?_append_right hn, List.getElem?_singleton] at ht
    obtain ⟨hzero, ht⟩ := Option.ite_none_right_eq_some.1 ht
    exact Or.inr ⟨by omega, (Option.some.inj ht).symm⟩

/-- An object is made. -/
theorem Reaches.made (h : r.Reaches (fun n ↦ n = objects.length ∧ J new ∨ At objects J n)
    (At objects G) (At objects T)) : r.Reaches (At (objects ++ [new]) J) (At (objects ++ [new]) G)
    (At (objects ++ [new]) T) := by
  have hforth : ∀ (P : σ → Prop) n, At objects P n → At (objects ++ [new]) P n := by
    rintro P n ⟨s, hs, hp⟩
    exact ⟨s, (List.getElem?_append_left (List.getElem?_eq_some_iff.1 hs).1).trans hs, hp⟩
  refine h.mono ?_ (hforth G) (hforth T)
  rintro n ⟨t, ht, hj⟩
  rcases of_get_append ht with hold | ⟨hn, rfl⟩
  · exact Or.inr ⟨t, hold, hj⟩
  · exact Or.inl ⟨hn, hj⟩

end Objects

end Roster
