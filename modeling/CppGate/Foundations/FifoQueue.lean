import Mathlib.Data.List.Nodup
import Mathlib.Data.List.Sublists

/-!
# Queues that are served at the front

A queue read off its history. An event says that somebody joins at the back or leaves in some way
`β`, and some of these ways are to be served, which only the front one is (`served`). Nobody is in
the queue twice at a time. A history is possible if it leads to a queue at all (`queue`).

Two facts about possible histories, neither of which looks at a queue any more:

* `no_overtaking`: who is served has been in front of nobody who joined before and had not left.
* `leaves_once`: between two departures of the same one there is a joining.
-/

namespace Fifo

variable {α β : Type*} [DecidableEq α]

/-- What happens to a queue. -/
inductive Event (α β : Type*)
  | join (a : α)
  | leave (a : α) (how : β)
  deriving DecidableEq, Repr

/-- The event is a departure of `a`. -/
def Event.departs (a : α) : Event α β → Prop
  | .join _ => False
  | .leave b _ => a = b

instance (a : α) (e : Event α β) : Decidable (e.departs a) :=
  match e with
  | .join _ => inferInstanceAs (Decidable False)
  | .leave b _ => inferInstanceAs (Decidable (a = b))

variable (served : β → Bool)

/-- The queue after an event, where the event is possible. -/
def after (q : List α) : Event α β → Option (List α)
  | .join a => if a ∈ q then none else some (q ++ [a])
  | .leave a how =>
    if served how then
      if q.head? = some a then some q.tail else none
    else
      if a ∈ q then some (q.erase a) else none

/-- The queue a history leads to. -/
def queue (events : List (Event α β)) : Option (List α) :=
  events.foldlM (after served) []

variable {served}

/-- A queue is replayed event by event. -/
theorem queue_append {q : List α} {xs : List (Event α β)} (hxs : queue served xs = some q)
    (ys : List (Event α β)) : queue served (xs ++ ys) = ys.foldlM (after served) q := by
  rw [queue, List.foldlM_append, ← queue, hxs]
  rfl

/-- Every part of a possible history is possible. -/
theorem queue_of_append {q : List α} {xs ys : List (Event α β)}
    (h : queue served (xs ++ ys) = some q) :
    ∃ p, queue served xs = some p ∧ ys.foldlM (after served) p = some q := by
  rw [queue, List.foldlM_append] at h
  exact Option.bind_eq_some_iff.1 h

/-! ### One event -/

/-- Who joins was not in the queue, and is the last one in it. -/
theorem join_not_mem {q q' : List α} {a : α} (h : after served q (.join a : Event α β) = some q') :
    a ∉ q ∧ q' = q ++ [a] := by
  obtain ⟨hmem, h⟩ := Option.ite_none_left_eq_some.1 h
  exact ⟨hmem, (Option.some.inj h).symm⟩

theorem leave_mem {q q' : List α} {a : α} {how : β} (h : after served q (.leave a how) = some q') :
    a ∈ q ∧ q' = q.erase a := by
  rw [after] at h
  split at h
  · obtain ⟨hhead, h⟩ := Option.ite_none_right_eq_some.1 h
    obtain ⟨rest, rfl⟩ := List.head?_eq_some_iff.1 hhead
    obtain rfl := Option.some.inj h
    exact ⟨List.mem_cons_self, by rw [List.erase_cons_head, List.tail_cons]⟩
  · obtain ⟨hmem, h⟩ := Option.ite_none_right_eq_some.1 h
    exact ⟨hmem, (Option.some.inj h).symm⟩

/-- No event puts anybody in the queue twice. -/
theorem after_nodup {q q' : List α} {e : Event α β} (hq : q.Nodup)
    (h : after served q e = some q') : q'.Nodup := by
  cases e with
  | join a =>
    obtain ⟨hmem, rfl⟩ := join_not_mem h
    exact hq.append (List.nodup_singleton a) fun b hb hba ↦ hmem (List.mem_singleton.1 hba ▸ hb)
  | leave a how =>
    obtain ⟨-, rfl⟩ := leave_mem h
    exact hq.erase a

/-- **Order is kept.** Who stands in front of whom does not change while neither leaves. -/
theorem after_sublist {q q' l : List α} {e : Event α β} (hl : ∀ a ∈ l, ¬e.departs a)
    (hsub : l.Sublist q) (h : after served q e = some q') : l.Sublist q' := by
  cases e with
  | join a =>
    obtain ⟨-, rfl⟩ := join_not_mem h
    exact hsub.trans (List.sublist_append_left q [a])
  | leave a how =>
    obtain ⟨-, rfl⟩ := leave_mem h
    have hmem : a ∉ l := fun hmem ↦ hl a hmem rfl
    rw [← List.erase_of_not_mem hmem]
    exact hsub.erase a

/-- Who does not join is not in the queue afterwards, either. -/
theorem after_not_mem {q q' : List α} {a : α} {e : Event α β} (ha : a ∉ q) (he : e ≠ .join a)
    (h : after served q e = some q') : a ∉ q' := by
  cases e with
  | join b =>
    obtain ⟨-, rfl⟩ := join_not_mem h
    rw [List.mem_append, List.mem_singleton, not_or]
    exact ⟨ha, fun hab ↦ he (hab ▸ rfl)⟩
  | leave b how =>
    obtain ⟨-, rfl⟩ := leave_mem h
    exact fun hmem ↦ ha (List.mem_of_mem_erase hmem)

/-! ### Histories -/

variable {events xs ys zs rest : List (Event α β)} {q q' : List α} {a b : α} {how : β}

theorem foldlM_nodup (hq : q.Nodup) (h : events.foldlM (after served) q = some q') : q'.Nodup := by
  induction events generalizing q with
  | nil => exact Option.some.inj h ▸ hq
  | cons e events ih =>
    rw [List.foldlM_cons] at h
    obtain ⟨p, hp, hrest⟩ := Option.bind_eq_some_iff.1 h
    exact ih (after_nodup hq hp) hrest

theorem queue_nodup (h : queue served events = some q) : q.Nodup :=
  foldlM_nodup List.nodup_nil h

/-- Those who do not leave keep their order. -/
theorem foldlM_sublist {l : List α} (hl : ∀ e ∈ events, ∀ a ∈ l, ¬e.departs a)
    (hsub : l.Sublist q) (h : events.foldlM (after served) q = some q') : l.Sublist q' := by
  induction events generalizing q with
  | nil => exact Option.some.inj h ▸ hsub
  | cons e events ih =>
    rw [List.foldlM_cons] at h
    obtain ⟨p, hp, hrest⟩ := Option.bind_eq_some_iff.1 h
    exact ih (fun e he ↦ hl e (List.mem_cons_of_mem _ he))
      (after_sublist (hl e List.mem_cons_self) hsub hp) hrest

/-- Who does not join is not in the queue. -/
theorem foldlM_not_mem (ha : a ∉ q) (hno : .join a ∉ events)
    (h : events.foldlM (after served) q = some q') : a ∉ q' := by
  induction events generalizing q with
  | nil => exact Option.some.inj h ▸ ha
  | cons e events ih =>
    rw [List.foldlM_cons] at h
    obtain ⟨p, hp, hrest⟩ := Option.bind_eq_some_iff.1 h
    rw [List.mem_cons, not_or] at hno
    exact ih (after_not_mem ha (Ne.symm hno.1) hp) hno.2 hrest

/-- When all leave, in whatever order, the queue is empty. -/
theorem foldlM_leave_all {l : List α} (hhow : served how = false) (hl : l.Perm q) :
    (l.map fun a ↦ Event.leave a how).foldlM (after served) q = some [] := by
  induction l generalizing q with
  | nil => exact congrArg some hl.nil_eq.symm
  | cons a l ih =>
    have hmem : a ∈ q := hl.subset List.mem_cons_self
    rw [List.map_cons, List.foldlM_cons, after, if_neg (hhow ▸ Bool.false_ne_true), if_pos hmem]
    have hrest : l.Perm (q.erase a) := by
      have herase := hl.erase a
      rwa [List.erase_cons_head] at herase
    exact ih hrest

/-- Who is in the queue has joined. -/
theorem joined_of_mem (ha : a ∈ q) (h : queue served events = some q) : .join a ∈ events := by
  by_contra hno
  exact foldlM_not_mem List.not_mem_nil hno h ha

/-- Who leaves has joined. -/
theorem joined_of_leave (h : queue served (xs ++ .leave a how :: ys) = some q) : .join a ∈ xs := by
  obtain ⟨p, hp, hrest⟩ := queue_of_append h
  rw [List.foldlM_cons] at hrest
  obtain ⟨p', hleave, -⟩ := Option.bind_eq_some_iff.1 hrest
  exact joined_of_mem (leave_mem hleave).1 hp

/-- Who joined and has not left is in the queue. -/
theorem mem_of_joined (h : queue served (xs ++ .join a :: ys) = some q)
    (hys : ∀ e ∈ ys, ¬e.departs a) : a ∈ q := by
  obtain ⟨p, -, hp⟩ := queue_of_append h
  rw [List.foldlM_cons] at hp
  obtain ⟨p', hjoin, hrest⟩ := Option.bind_eq_some_iff.1 hp
  obtain ⟨-, rfl⟩ := join_not_mem hjoin
  have hsub : [a].Sublist (p ++ [a]) := List.sublist_append_right p [a]
  have hkept := foldlM_sublist (fun e he b hb ↦ List.mem_singleton.1 hb ▸ hys e he) hsub hrest
  exact List.singleton_sublist.1 hkept

/-- **Nobody is overtaken.** If `b` joined after `a` and is served, `a` has left before. -/
theorem no_overtaking (hserved : served how = true)
    (h : queue served (xs ++ .join a :: (ys ++ .join b :: (zs ++ .leave b how :: rest))) = some q)
    (hzs : ∀ e ∈ zs, ¬e.departs b) : ∃ e ∈ ys ++ zs, e.departs a := by
  by_contra hno
  push Not at hno
  obtain ⟨p, hp, hjoin⟩ := queue_of_append h
  rw [List.foldlM_cons] at hjoin
  obtain ⟨p₁, hp₁, hrest⟩ := Option.bind_eq_some_iff.1 hjoin
  have hp₁q : queue served (xs ++ [.join a]) = some p₁ := by
    rw [queue_append hp, List.foldlM_cons, hp₁]
    rfl
  -- `a` stays in the queue until `b` joins
  have ha : a ∈ p₁ := by
    refine mem_of_joined hp₁q fun e he ↦ absurd he List.not_mem_nil
  rw [List.foldlM_append] at hrest
  obtain ⟨p₂, hp₂, hrest⟩ := Option.bind_eq_some_iff.1 hrest
  have ha₂ : a ∈ p₂ := List.singleton_sublist.1 (foldlM_sublist
    (fun e he c hc ↦ List.mem_singleton.1 hc ▸ hno e (List.mem_append_left zs he))
    (List.singleton_sublist.2 ha) hp₂)
  rw [List.foldlM_cons] at hrest
  obtain ⟨p₃, hp₃, hrest⟩ := Option.bind_eq_some_iff.1 hrest
  obtain ⟨hb, rfl⟩ := join_not_mem hp₃
  have hne : a ≠ b := fun hab ↦ hb (hab ▸ ha₂)
  -- from then on `a` stands in front of `b`
  have hsub : [a, b].Sublist (p₂ ++ [b]) :=
    (List.singleton_sublist.2 ha₂).append (List.Sublist.refl [b])
  rw [List.foldlM_append] at hrest
  obtain ⟨p₄, hp₄, hrest⟩ := Option.bind_eq_some_iff.1 hrest
  have hsub₄ : [a, b].Sublist p₄ := by
    refine foldlM_sublist (fun e he c hc ↦ ?_) hsub hp₄
    rcases List.mem_cons.1 hc with rfl | hc
    · exact hno e (List.mem_append_right ys he)
    · exact List.mem_singleton.1 hc ▸ hzs e he
  have hnodup : p₄.Nodup := by
    refine foldlM_nodup ?_ hp₄
    refine after_nodup (foldlM_nodup (queue_nodup hp₁q) hp₂) hp₃
  rw [List.foldlM_cons] at hrest
  obtain ⟨p₅, hp₅, -⟩ := Option.bind_eq_some_iff.1 hrest
  rw [after, if_pos hserved] at hp₅
  obtain ⟨hhead, -⟩ := Option.ite_none_right_eq_some.1 hp₅
  obtain ⟨tail, rfl⟩ := List.head?_eq_some_iff.1 hhead
  -- but `b` is in front
  have hnot : b ∉ tail := (List.nodup_cons.1 hnodup).1
  rcases List.sublist_cons_iff.1 hsub₄ with htail | ⟨r, hr, -⟩
  · exact hnot (htail.subset (List.mem_cons_of_mem _ (List.mem_singleton_self b)))
  · exact hne (List.cons.inj hr).1

/-- **Everybody leaves once.** Between two departures there is a joining. -/
theorem leaves_once {how' : β}
    (h : queue served (xs ++ .leave a how :: (ys ++ .leave a how' :: zs)) = some q) :
    .join a ∈ ys := by
  by_contra hno
  obtain ⟨p, hp, hleave⟩ := queue_of_append h
  rw [List.foldlM_cons] at hleave
  obtain ⟨p₁, hp₁, hrest⟩ := Option.bind_eq_some_iff.1 hleave
  obtain ⟨-, rfl⟩ := leave_mem hp₁
  have hnot : a ∉ p.erase a := (queue_nodup hp).not_mem_erase
  rw [List.foldlM_append] at hrest
  obtain ⟨p₂, hp₂, hrest⟩ := Option.bind_eq_some_iff.1 hrest
  have hnot₂ : a ∉ p₂ := foldlM_not_mem hnot hno hp₂
  rw [List.foldlM_cons] at hrest
  obtain ⟨p₃, hp₃, -⟩ := Option.bind_eq_some_iff.1 hrest
  exact hnot₂ (leave_mem hp₃).1

end Fifo
