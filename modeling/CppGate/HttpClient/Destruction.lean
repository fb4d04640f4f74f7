import CppGate.HttpClient.Lifetime

/-!
# Destroying a client

Each call of a client does what its strand does (`Calls.Inv.follows`), whatever the other calls and
~HttpClient do meanwhile, so what holds of a call on its strand holds of every call of a client.
That no call slips through between being listed, the removal of those that are gone and the closing
is what `Roster.Reaches` says; together they say that ~HttpClient leaves no call to wait for
(`destroyed_leaves_none`).
-/

namespace CppGate.HttpClient

universe u v

variable {κ : Type u} {ρ : Type v}

/-! ### The invariant -/

namespace CallState

variable {s t : CallState κ ρ}

/-- A call that is gone is over, and one that was refused goes no further. -/
structure Sound (s : CallState κ ρ) : Prop where
  complete : s.alive = false → s.strand.sending.call.finished = true ∧
    ∃ result, s.strand.sending.call.promise = [result]
  refused : s.refused = true → Refused (s.strand, s.watch)

/-- A call goes on. -/
structure Becomes (s t : CallState κ ρ) : Prop where
  refused : t.refused = s.refused
  gone : s.alive = false → t.alive = false
  ended : Ended (s.strand, s.watch) → Ended (t.strand, t.watch)
  sound : s.Sound → t.Sound

theorem becomes_refl (s : CallState κ ρ) : s.Becomes s :=
  ⟨rfl, id, id, id⟩

/-- A call takes a step. -/
theorem becomes_goTo {onComplete : Bool} {x y : Strand κ ρ × Watch ρ} {a : Act κ ρ}
    (hx : Pursues onComplete x.1 x.2) (hposted : x.1.posted = s.strand.posted)
    (hsending : x.1.sending = s.strand.sending) (hwatch : x.2 = s.watch) (halive : s.alive = true)
    (hstep : (callMachine κ ρ).step x a = some y) : s.Becomes (s.goTo y) where
  refused := rfl
  gone hdead := absurd (hdead.symm.trans halive) Bool.false_ne_true
  ended h := by
    rw [Ended, ← hposted, ← hsending, ← hwatch] at h
    exact Ended.step hx h hstep
  sound h := by
    refine ⟨fun hdead ↦ absurd (hdead.symm.trans halive) Bool.false_ne_true, fun hrefused ↦ ?_⟩
    have hstays := h.refused hrefused
    rw [Refused, ← hsending] at hstays
    exact Refused.step hx hstays hstep

/-- A call that is over may go. -/
theorem becomes_expire (hover : s.strand.sending.call.finished = true ∧
    ∃ result, s.strand.sending.call.promise = [result]) : s.Becomes { s with alive := false } where
  refused := rfl
  gone _ := rfl
  ended := id
  sound h := ⟨fun _ ↦ hover, h.refused⟩

end CallState

namespace Calls

/-- send() listed the call. -/
def Joined (c : Calls κ ρ) : ℕ → Prop :=
  Roster.At c.states fun s ↦ s.refused = false

/-- Nothing refers to the call any more. -/
def Gone (c : Calls κ ρ) : ℕ → Prop :=
  Roster.At c.states fun s ↦ s.alive = false

/-- An abort of ~HttpClient is posted to the call, or it was aborted, or it is over. -/
def Told (c : Calls κ ρ) : ℕ → Prop :=
  Roster.At c.states fun s ↦ Ended (s.strand, s.watch)

/-- The invariant: no call slips through, and each does what its strand does. -/
structure Inv (c : Calls κ ρ) : Prop where
  nodup : c.roster.members.Nodup
  /-- There is one ~HttpClient. -/
  single : c.roster.closings.length = if c.roster.closed then 1 else 0
  once : ∀ i, c.roster.owing i ≤ 1
  /-- ~HttpClient holds the calls that it has yet to abort. -/
  held : ∀ i, 0 < c.roster.owing i → (c.call i).isSome = true
  welcome : c.roster.closed = false → ∀ (i : ℕ) (s : CallState κ ρ), c.states[i]? = some s →
    s.refused = false
  sound : ∀ (i : ℕ) (s : CallState κ ρ), c.states[i]? = some s → s.Sound
  reaches : c.roster.Reaches c.Joined c.Gone c.Told
  strands : ∀ (i : ℕ) x, c.call i = some x → (callMachine κ ρ).ReachableVia HttpClient.Sane x

end Calls

/-- Calls that go on stay reached. -/
theorem Calls.reaches_kept {r roster roster' : Roster ℕ} {states states' : List (CallState κ ρ)}
    (hkept : Roster.Kept CallState.Becomes states states')
    (h : r.Reaches (Calls.Joined ⟨roster, states⟩) (Calls.Gone ⟨roster, states⟩)
      (Calls.Told ⟨roster, states⟩)) :
    r.Reaches (Calls.Joined ⟨roster', states'⟩) (Calls.Gone ⟨roster', states'⟩)
      (Calls.Told ⟨roster', states'⟩) :=
  Roster.Reaches.kept h hkept (fun _ _ hst ht ↦ hst.refused.symm.trans ht)
    (fun _ _ hst ↦ hst.gone) fun _ _ hst ↦ hst.ended

/-! ### Steps -/

section Steps

variable {c c' : Calls κ ρ} {a : Calls.Action κ ρ} {x : Strand κ ρ × Watch ρ} {i j : ℕ}

namespace Calls

/-- Before ~HttpClient nobody is owed an abort. -/
theorem Inv.quiet (h : Inv c) (hopen : c.roster.closed = false) (i : ℕ) :
    c.roster.owing i = 0 := by
  refine Roster.owing_of_quiet ?_ i
  rw [h.single, hopen]
  rfl

theorem Inv.unowed (h : Inv c) (hi : c.states.length ≤ i) : c.roster.owing i = 0 := by
  by_contra hne
  have hsome := h.held i (Nat.pos_of_ne_zero hne)
  rw [call, look_of_length_le hi] at hsome
  cases hsome

/-- While the client is open, it lists the calls that are alive. -/
theorem Inv.listed (h : Inv c) (hopen : c.roster.closed = false) (hcall : c.call i = some x) :
    i ∈ c.roster.members := by
  obtain ⟨s, hs, halive, -⟩ := of_look hcall
  rcases h.reaches.listed hopen i ⟨s, hs, h.welcome hopen i s hs⟩ with ⟨t, ht, hgone⟩ | hmem
  · obtain rfl := Option.some.inj (hs.symm.trans ht)
    exact absurd (hgone.symm.trans halive) Bool.false_ne_true
  · exact hmem

/-- A call that was made is alive or gone. -/
theorem gone_of_call (i : ℕ) (hjoined : c.Joined i) (hnone : (c.call i).isSome = false) :
    c.Gone i := by
  obtain ⟨s, hs, -⟩ := hjoined
  rw [call, isSome_look, hs, Option.any_some] at hnone
  exact ⟨s, hs, hnone⟩

/-- **What a step of the client does to a call** is nothing, or a step of its strand. -/
theorem Inv.follows (h : Inv c) (hsane : c.Sane a) (hstep : c.step a = some c') (j : ℕ) :
    (callMachine κ ρ).FollowsVia HttpClient.Sane (c.call j) (c'.call j) := by
  cases a with
  | send method header body onProgress onComplete =>
    rw [← Option.some.inj hstep]
    have hclosed : (if c.roster.closed then c.roster else
        (c.roster.prune fun i ↦ (c.call i).isSome).join c.states.length).closed =
        c.roster.closed := by
      split <;> rfl
    have howing : (if c.roster.closed then c.roster else
        (c.roster.prune fun i ↦ (c.call i).isSome).join c.states.length).owing j =
        c.roster.owing j := by
      split <;> rfl
    rw [call, call]
    dsimp only
    rw [look_congr hclosed howing]
    rcases Nat.lt_trichotomy j c.states.length with hj | rfl | hj
    · rw [look_append hj]
      exact .stays _
    · rw [look_of_length_le (le_refl c.states.length), look,
        List.getElem?_append_right (le_refl c.states.length), Nat.sub_self,
        h.unowed (le_refl c.states.length)]
      refine .appears _ _ (.init ⟨onComplete, ⟨_, c.roster.closed, ⟨_, header, body,
        ⟨method, body.length, onProgress, c.roster.closed, rfl⟩, rfl, rfl⟩, rfl, rfl⟩, rfl⟩)
    · rw [look_of_length_le hj.le, look_of_length_le (by rw [List.length_append]; exact hj)]
      exact .stays none
  | destroy =>
    obtain ⟨hopen, hstep⟩ := Option.ite_none_left_eq_some.1 hstep
    rw [← Option.some.inj hstep]
    rw [Bool.not_eq_true] at hopen
    have howing := Roster.owing_close h.nodup (fun i ↦ (c.call i).isSome) j
    rw [h.quiet hopen, Nat.zero_add] at howing
    cases hcall : c.call j with
    | none =>
      have hnone : look (c.roster.close fun i ↦ (c.call i).isSome).clear c.states j = none := by
        rw [← Option.isNone_iff_eq_none, ← Option.not_isSome, isSome_look,
          ← isSome_look c.roster c.states j, show look c.roster c.states j = none from hcall]
        rfl
      show (callMachine κ ρ).FollowsVia HttpClient.Sane none (look _ c.states j)
      rw [hnone]
      exact .stays none
    | some x =>
      obtain ⟨s, hs, halive, rfl⟩ := of_look hcall
      rw [if_pos ⟨h.listed hopen hcall, by rw [hcall]; rfl⟩] at howing
      show (callMachine κ ρ).FollowsVia HttpClient.Sane _
        (look (c.roster.close fun i ↦ (c.call i).isSome).clear c.states j)
      rw [look, hs, Option.bind_some, if_pos halive, Roster.owing_clear, howing]
      refine .steps _ Act.close _ trivial ?_
      show Option.map _ (if c.roster.closed then none else _) = _
      rw [hopen]
      rfl
  | post =>
    obtain ⟨i, hnext, hstep⟩ := Option.bind_eq_some_iff.1 hstep
    obtain ⟨x, hcall, hstep⟩ := Option.bind_eq_some_iff.1 hstep
    obtain ⟨y, hy, rfl⟩ := Option.map_eq_some_iff.1 hstep
    have howing := Roster.owing_tell hnext j
    by_cases hij : i = j
    · subst hij
      rw [if_pos rfl] at howing
      have hzero : (c.roster.tell 0).owing i = 0 := by have := h.once i; omega
      have hclosed : x.1.closed = c.roster.closed := by
        obtain ⟨s, -, -, rfl⟩ := of_look hcall
        rfl
      obtain ⟨hstays, hflight, -⟩ := Strand.of_evict hy
      have hlook : look (c.roster.tell 0) (c.states.modify i (·.goTo y)) i = some y :=
        look_goTo hcall (hstays.trans hclosed) (by rw [hflight, hzero]; rfl)
      rw [hcall, call, hlook]
      exact .steps x Act.evict y trivial hy
    · rw [if_neg hij, Nat.add_zero] at howing
      have hsame : look (c.roster.tell 0) c.states j = look c.roster c.states j :=
        look_congr rfl howing
      rw [call, call]
      dsimp only
      rw [look_modify_ne hij, hsame]
      exact .stays _
  | go i a =>
    obtain ⟨hout, hstep⟩ := Option.ite_none_left_eq_some.1 hstep
    obtain ⟨x, hcall, hstep⟩ := Option.bind_eq_some_iff.1 hstep
    obtain ⟨y, hy, rfl⟩ := Option.map_eq_some_iff.1 hstep
    by_cases hij : i = j
    · subst hij
      have hsees : y.1.closed = c.roster.closed ∧
          y.1.inFlight = decide (0 < c.roster.owing i) := by
        obtain ⟨s, hs, halive, rfl⟩ := of_look hcall
        obtain ⟨y', hy', rfl⟩ := Option.map_eq_some_iff.1 hy
        exact Strand.sees_step hy' (Bool.not_eq_true _ ▸ hout)
      have hlook : look c.roster (c.states.modify i (·.goTo y)) i = some y :=
        look_goTo hcall hsees.1 hsees.2
      rw [hcall, call, hlook]
      exact .steps x a y (hsane x hcall) hy
    · rw [call, call]
      dsimp only
      rw [look_modify_ne hij]
      exact .stays _
  | expire i =>
    obtain ⟨x, hcall, hstep⟩ := Option.bind_eq_some_iff.1 hstep
    obtain ⟨hidle, hstep⟩ := Option.ite_none_right_eq_some.1 hstep
    rw [← Option.some.inj hstep]
    by_cases hij : i = j
    · subst hij
      have hlook : look c.roster (c.states.modify i ({ · with alive := false })) i = none :=
        look_dead fun _ ↦ rfl
      rw [call, call]
      dsimp only
      rw [hlook]
      exact .goes _
    · rw [call, call]
      dsimp only
      rw [look_modify_ne hij]
      exact .stays _

/-- A call that takes a step goes on. -/
theorem Inv.kept_goTo (h : Inv c) {act : Act κ ρ} {y : Strand κ ρ × Watch ρ}
    (hcall : c.call i = some x) (hy : (callMachine κ ρ).step x act = some y) :
    Roster.Kept CallState.Becomes c.states (c.states.modify i (·.goTo y)) := by
  obtain ⟨onComplete, hx⟩ := pursues_of_reachable (h.strands i x hcall)
  obtain ⟨s, hs, halive, rfl⟩ := of_look hcall
  exact Roster.kept_modify CallState.becomes_refl hs
    (CallState.becomes_goTo hx rfl rfl rfl halive hy)

/-- Calls go on, and ~HttpClient may. -/
theorem Inv.of_kept (h : Inv c) {roster : Roster ℕ} {states : List (CallState κ ρ)}
    (hkept : Roster.Kept CallState.Becomes c.states states)
    (hmembers : roster.members = c.roster.members) (hclosed : roster.closed = c.roster.closed)
    (hlength : roster.closings.length = c.roster.closings.length)
    (howing : ∀ i, roster.owing i ≤ c.roster.owing i)
    (hheld : ∀ i, 0 < roster.owing i → (look roster states i).isSome = true)
    (hreaches : roster.Reaches (Joined ⟨roster, states⟩) (Gone ⟨roster, states⟩)
      (Told ⟨roster, states⟩))
    (hstrands : ∀ (i : ℕ) x, look roster states i = some x →
      (callMachine κ ρ).ReachableVia HttpClient.Sane x) : Inv ⟨roster, states⟩ where
  nodup := by
    rw [hmembers]
    exact h.nodup
  single := by
    rw [hlength, hclosed]
    exact h.single
  once i := (howing i).trans (h.once i)
  held := hheld
  welcome hopen i t ht := by
    obtain ⟨s, hs, hbecomes⟩ := hkept.of_get ht
    exact hbecomes.refused.trans (h.welcome (hclosed ▸ hopen) i s hs)
  sound i t ht := by
    obtain ⟨s, hs, hbecomes⟩ := hkept.of_get ht
    exact hbecomes.sound (h.sound i s hs)
  reaches := hreaches
  strands := hstrands

/-- A call is made. -/
theorem Inv.made (h : Inv c) {roster : Roster ℕ} {new : CallState κ ρ}
    (hnodup : roster.members.Nodup) (hclosed : roster.closed = c.roster.closed)
    (hclosings : roster.closings = c.roster.closings) (hnew : new.Sound)
    (hrefused : new.refused = c.roster.closed)
    (hreaches : roster.Reaches (fun i ↦ (i = c.states.length ∧ new.refused = false) ∨ c.Joined i)
      c.Gone c.Told)
    (hstrands : ∀ (i : ℕ) x, look roster (c.states ++ [new]) i = some x →
      (callMachine κ ρ).ReachableVia HttpClient.Sane x) :
    Inv { roster, states := c.states ++ [new] } := by
  have howing : ∀ i, roster.owing i = c.roster.owing i := by
    intro i
    rw [Roster.owing, hclosings]
    rfl
  refine ⟨hnodup, ?_, fun i ↦ (howing i).trans_le (h.once i), fun i hi ↦ ?_, fun hopen i t ht ↦ ?_,
    fun i t ht ↦ ?_, hreaches.made, hstrands⟩
  · show roster.closings.length = if roster.closed then 1 else 0
    rw [hclosings, hclosed]
    exact h.single
  · have hlt : i < c.states.length := by
      by_contra hge
      have hzero := h.unowed (Nat.not_lt.1 hge)
      have hi' : 0 < roster.owing i := hi
      rw [howing, hzero] at hi'
      exact absurd hi' (Nat.lt_irrefl 0)
    show (look roster (c.states ++ [new]) i).isSome = true
    rw [look_append hlt, isSome_look, ← isSome_look c.roster]
    exact h.held i (howing i ▸ hi)
  · rcases Roster.of_get_append ht with hold | ⟨-, rfl⟩
    · exact h.welcome (hclosed ▸ hopen) i t hold
    · exact hrefused.trans (hclosed ▸ hopen)
  · rcases Roster.of_get_append ht with hold | ⟨-, rfl⟩
    · exact h.sound i t hold
    · exact hnew

/-- **The step lemma**: no action of a client loses a call. -/
theorem inv_step (h : Inv c) (hsane : c.Sane a) (hstep : c.step a = some c') : Inv c' := by
  have hstrands : ∀ (j : ℕ) x, c'.call j = some x →
      (callMachine κ ρ).ReachableVia HttpClient.Sane x :=
    fun j ↦ (h.follows hsane hstep j).reachable (h.strands j)
  cases a with
  | send method header body onProgress onComplete =>
    rw [← Option.some.inj hstep] at hstrands ⊢
    refine h.made ?_ ?_ ?_ ⟨nofun, fun hrefused ↦ Or.inr ?_⟩ rfl ?_ hstrands
    · split
      · exact h.nodup
      · exact Roster.nodup_join (Roster.nodup_prune h.nodup _) _
    · split <;> rfl
    · split <;> rfl
    · have hclosed : c.roster.closed = true := hrefused
      show [if c.roster.closed then Op.refuse else Op.start] = [Op.refuse]
      rw [hclosed, if_pos rfl]
    · cases hclosed : c.roster.closed with
      | true =>
        refine h.reaches.mono (fun i hi ↦ hi.resolve_left fun hnew ↦ ?_) (fun _ ↦ id) fun _ ↦ id
        exact absurd hnew.2.symm Bool.false_ne_true
      | false =>
        exact ((h.reaches.prune gone_of_call).join hclosed c.states.length).mono
          (fun i hi ↦ hi.imp_left And.left) (fun _ ↦ id) fun _ ↦ id
  | destroy =>
    obtain ⟨hopen, hstep⟩ := Option.ite_none_left_eq_some.1 hstep
    rw [← Option.some.inj hstep] at hstrands ⊢
    rw [Bool.not_eq_true] at hopen
    have howing := fun i ↦ Roster.owing_close h.nodup (fun i ↦ (c.call i).isSome) i
    refine ⟨List.nodup_nil, ?_, fun i ↦ ?_, fun i hi ↦ ?_, nofun, h.sound, ?_, hstrands⟩
    · show (c.roster.closings ++ [_]).length = 1
      rw [List.length_append, h.single, hopen]
      rfl
    · show (c.roster.close fun i ↦ (c.call i).isSome).owing i ≤ 1
      rw [howing, h.quiet hopen]
      split <;> omega
    · have hi' : 0 < (c.roster.close fun i ↦ (c.call i).isSome).owing i := hi
      rw [howing, h.quiet hopen] at hi'
      show (look _ c.states i).isSome = true
      rw [isSome_look, ← isSome_look c.roster]
      by_contra hnot
      rw [if_neg fun hand ↦ hnot hand.2] at hi'
      exact absurd hi' (Nat.lt_irrefl 0)
    · exact (h.reaches.close h.nodup gone_of_call).relist rfl []
  | post =>
    obtain ⟨i, hnext, hstep⟩ := Option.bind_eq_some_iff.1 hstep
    obtain ⟨x, hcall, hstep⟩ := Option.bind_eq_some_iff.1 hstep
    obtain ⟨y, hy, rfl⟩ := Option.map_eq_some_iff.1 hstep
    have hkept := h.kept_goTo hcall hy
    have howing := Roster.owing_tell hnext
    refine h.of_kept hkept rfl rfl (List.length_modify ..) (fun j ↦ ?_) (fun j hj ↦ ?_) ?_ hstrands
    · exact (Nat.le_add_right _ _).trans (howing j).le
    · rw [isSome_look_goTo c.roster]
      exact h.held j (hj.trans_le ((Nat.le_add_right _ _).trans (howing j).le))
    · refine ((reaches_kept hkept h.reaches).tell hnext).mono (fun _ ↦ id) (fun _ ↦ id) ?_
      rintro j (rfl | hj)
      · obtain ⟨s, hs, -⟩ := of_look hcall
        refine ⟨s.goTo y, ?_, Or.inl (Strand.of_evict hy).2.2⟩
        show (c.states.modify j (·.goTo y))[j]? = _
        rw [List.getElem?_modify_eq, hs]
        rfl
      · exact hj
  | go i act =>
    obtain ⟨hout, hstep⟩ := Option.ite_none_left_eq_some.1 hstep
    obtain ⟨x, hcall, hstep⟩ := Option.bind_eq_some_iff.1 hstep
    obtain ⟨y, hy, rfl⟩ := Option.map_eq_some_iff.1 hstep
    have hkept := h.kept_goTo hcall hy
    refine h.of_kept hkept rfl rfl rfl (fun _ ↦ le_rfl) (fun j hj ↦ ?_)
      (reaches_kept hkept h.reaches) hstrands
    rw [isSome_look_goTo c.roster]
    exact h.held j hj
  | expire i =>
    obtain ⟨x, hcall, hstep⟩ := Option.bind_eq_some_iff.1 hstep
    obtain ⟨hidle, hstep⟩ := Option.ite_none_right_eq_some.1 hstep
    rw [← Option.some.inj hstep] at hstrands ⊢
    obtain ⟨onComplete, hx⟩ := pursues_of_reachable (h.strands i x hcall)
    obtain ⟨s, hs, halive, rfl⟩ := of_look hcall
    obtain ⟨hpending, hflight⟩ := Strand.of_idle hidle
    have hkept : Roster.Kept CallState.Becomes c.states
        (c.states.modify i ({ · with alive := false })) :=
      Roster.kept_modify CallState.becomes_refl hs
        (CallState.becomes_expire (hx.settled.over_of_pending hpending))
    refine h.of_kept hkept rfl rfl rfl (fun _ ↦ le_rfl) (fun j hj ↦ ?_)
      (reaches_kept hkept h.reaches) hstrands
    by_cases hij : i = j
    · subst hij
      exact absurd hj (of_decide_eq_false hflight)
    · rw [look_modify_ne hij]
      exact h.held j hj

/-- **The run lemma.** -/
theorem inv_of_reachable (h : (lifetimeMachine κ ρ).ReachableVia Sane c) : Inv c := by
  refine h.invariant (I := Inv) ?_ fun _ _ _ hc hsane hstep ↦ inv_step hc hsane hstep
  rintro _ rfl
  refine ⟨List.nodup_nil, rfl, fun _ ↦ Nat.zero_le 1, fun _ h ↦ absurd h (Nat.lt_irrefl 0),
    fun _ i s hs ↦ ?_, fun i s hs ↦ ?_, (Roster.reaches_empty _ _).mono ?_ (fun _ ↦ id)
    fun _ ↦ id, fun i x hx ↦ ?_⟩
  · cases hs
  · cases hs
  · rintro i ⟨s, hs, -⟩
    cases hs
  · cases hx

end Calls

end Steps

/-! ### Nobody is left -/

/-- How a call stands once ~HttpClient has come to it. -/
inductive CallState.Answered (s : CallState κ ρ) : Prop
  /-- It is over, with one result. -/
  | complete (result : Result ρ) (hfinished : s.strand.sending.call.finished = true)
      (hpromise : s.strand.sending.call.promise = [result])
  /-- It found the client closed, and goes no further. -/
  | refused (hrefused : s.refused = true) (hpending : s.strand.sending.call.pending = [.refuse])
  /-- The abort of ~HttpClient is posted to its strand. -/
  | posted (hposted : .abort .closed ∈ s.strand.posted)
  /-- It was aborted, and one handler of it has run since at most. -/
  | aborted (why : ClientError) (hfirst : s.watch.first = some why)
      (haborted : s.strand.sending.call.aborted = some why) (hsince : s.watch.since ≤ 1)

section Answers

variable {c : Calls κ ρ} {s : CallState κ ρ} {i : ℕ}

/-- A call is gone and over, or it is alive and known on its strand. -/
theorem Calls.Inv.known (h : Calls.Inv c) (hs : c.states[i]? = some s) :
    (s.strand.sending.call.finished = true ∧
      ∃ result, s.strand.sending.call.promise = [result]) ∨
    ∃ onComplete x, c.call i = some x ∧ x.1.sending = s.strand.sending ∧ x.2 = s.watch ∧
      Pursues onComplete x.1 x.2 := by
  cases halive : s.alive with
  | false => exact Or.inl ((h.sound i s hs).complete halive)
  | true =>
    have hcall : (c.call i).isSome = true := by
      rw [Calls.call, isSome_look, hs]
      exact halive
    obtain ⟨x, hx⟩ := Option.isSome_iff_exists.1 hcall
    obtain ⟨onComplete, hpursues⟩ := pursues_of_reachable (h.strands i x hx)
    obtain ⟨t, ht, -, rfl⟩ := of_look hx
    obtain rfl := Option.some.inj (hs.symm.trans ht)
    exact Or.inr ⟨onComplete, _, hx, rfl, rfl, hpursues⟩

/-- A call that is over has its one result. -/
theorem Calls.Inv.answered_of_finished (h : Calls.Inv c) (hs : c.states[i]? = some s)
    (hfinished : s.strand.sending.call.finished = true) : s.Answered := by
  rcases h.known hs with ⟨-, result, hpromise⟩ | ⟨onComplete, x, -, hsending, -, hx⟩
  · exact .complete result hfinished hpromise
  · have hpending := hx.settled.pending_eq_nil (hsending ▸ hfinished)
    obtain ⟨-, result, hpromise⟩ := hx.settled.over_of_pending hpending
    exact .complete result hfinished (hsending ▸ hpromise)

/-- A call that ~HttpClient came to is over, aborted, or about to be. -/
theorem Calls.Inv.answered_of_ended (h : Calls.Inv c) (hs : c.states[i]? = some s)
    (hended : Ended (s.strand, s.watch)) : s.Answered := by
  rcases hended with hposted | hfirst | hfinished
  · exact .posted hposted
  · rcases h.known hs with ⟨hfinished, result, hpromise⟩ | ⟨onComplete, x, -, hsending, hwatch, hx⟩
    · exact .complete result hfinished hpromise
    · have hfits := hx.fits
      rw [hwatch] at hfits
      have hfirst' : s.watch.first.isSome = true := hfirst
      cases hfits with
      | before hw =>
        rw [hw] at hfirst'
        cases hfirst'
      | pursued why hwhy _ haborted _ _ hsince =>
        refine .aborted why hwhy (hsending ▸ haborted) ?_
        rcases hsince with ⟨hzero, -⟩ | ⟨hone, -⟩
        · exact hzero.trans_le zero_le_one
        · exact hone.le
      | ended why _ hfinished => exact h.answered_of_finished hs (hsending ▸ hfinished)
  · exact h.answered_of_finished hs hfinished

/-- ~HttpClient is not stuck. -/
theorem Calls.Inv.post_enabled (h : Calls.Inv c) (hnext : c.roster.next 0 = some i) :
    ∃ c', c.step .post = some c' := by
  have howing := Roster.owing_tell hnext i
  rw [if_pos rfl] at howing
  have howed : 0 < c.roster.owing i := by omega
  obtain ⟨x, hcall⟩ := Option.isSome_iff_exists.1 (h.held i howed)
  have hflight : x.1.inFlight = true := by
    obtain ⟨s, -, -, rfl⟩ := of_look hcall
    exact decide_eq_true howed
  have hevict : (callMachine κ ρ).step x .evict = some ({ x.1 with
      inFlight := false, posted := x.1.posted ++ [.abort .closed] }, x.2) := by
    show Option.map _ (if x.1.inFlight then _ else none) = _
    rw [hflight]
    rfl
  refine Option.isSome_iff_exists.1 ?_
  rw [Calls.step, hnext, Option.bind_some, hcall, Option.bind_some, hevict]
  rfl

end Answers

/-- **~HttpClient leaves no call behind.** Once the client is closed, ~HttpClient has an abort to
post and can post it, or every call that was ever made is over with one result, was refused, has the
abort posted to its strand, or was aborted; one that was aborted and is not over has run one handler
since at most. -/
theorem destroyed_leaves_none {c : Calls κ ρ}
    (h : (lifetimeMachine κ ρ).ReachableVia Calls.Sane c) (hclosed : c.roster.closed = true) :
    (∃ c', c.step .post = some c') ∨
      ∀ (i : ℕ) (s : CallState κ ρ), c.states[i]? = some s → s.Answered := by
  have hinv := Calls.inv_of_reachable h
  cases hnext : c.roster.next 0 with
  | some i => exact Or.inl (hinv.post_enabled hnext)
  | none =>
    refine Or.inr fun i s hs ↦ ?_
    have hsettled : ∀ taken ∈ c.roster.closings, taken = [] := by
      refine Roster.settled_of_next ?_ hnext
      rw [hinv.single, hclosed]
      rfl
    cases hrefused : s.refused with
    | true =>
      rcases (hinv.sound i s hs).refused hrefused with hfinished | hpending
      · exact hinv.answered_of_finished hs hfinished
      · exact .refused hrefused hpending
    | false =>
      rcases hinv.reaches.settled hclosed hsettled ⟨s, hs, hrefused⟩ with
        ⟨t, ht, hgone⟩ | ⟨t, ht, hended⟩
      · obtain rfl := Option.some.inj (hs.symm.trans ht)
        exact hinv.answered_of_finished hs ((hinv.sound i s hs).complete hgone).1
      · obtain rfl := Option.some.inj (hs.symm.trans ht)
        exact hinv.answered_of_ended hs hended

/-- A call is resolving when the client is destroyed, another one is over and gone, and a third one
is sent by a callback meanwhile. -/
def threeCalls : List (Calls.Action Unit Unit) :=
  [.send .get ['h'] [] false true, .go 0 .dispatch,
    .go 0 (.handle (.begin (.error (.client .invalidUrl)) none) 0), .expire 0,
    .send .get ['h'] [] false true, .go 1 .dispatch,
    .go 1 (.handle (.begin (.ok ⟨[], false⟩) none) 0), .destroy, .send .get ['h'] [] false false,
    .post, .go 2 .dispatch, .go 1 (.handle (.abort .closed) 0)]

theorem destroyed_leaves_none_threeCalls : ∃ c, (lifetimeMachine Unit Unit).run {} threeCalls =
    some c ∧ ∀ (i : ℕ) (s : CallState Unit Unit), c.states[i]? = some s → s.Answered := by
  have hstart : (lifetimeMachine Unit Unit).ReachableVia Calls.Sane {} := .init rfl
  have hend := hstart.run threeCalls (by decide +kernel) rfl
  refine ⟨_, rfl, (destroyed_leaves_none hend rfl).resolve_left ?_⟩
  rintro ⟨c', hc'⟩
  cases hc'

end CppGate.HttpClient
