import CppGate.Foundations.Parts
import CppGate.Foundations.Roster
import CppGate.HttpClient.FirstAbort

/-!
# The calls of a client

A client lists the calls that were sent without owning them. ~HttpClient closes it, takes those that
are still there and posts an abort to the strand of each, one after the other, while the threads of
the client run their handlers. A callback may send on the client meanwhile: such a call finds the
client closed, is not listed and ends without a connection.

The machine keeps the list apart from the calls, and fills in what a strand sees of it (`look`).
-/

namespace CppGate.HttpClient

universe u v

variable {κ : Type u} {ρ : Type v}

/-! ### A call -/

/-- A call on its strand with the notes on it, with or without an onComplete callback. -/
def callMachine (κ : Type u) (ρ : Type v) : Machine (Strand κ ρ × Watch ρ) (Act κ ρ) where
  Init x := ∃ onComplete, (watched κ ρ onComplete).Init x
  step x a := (x.1.step a).map fun y ↦ (y, x.2.after x.1 a y)

/-- What is assumed of the operations of a call. -/
def Sane (x : Strand κ ρ × Watch ρ) (a : Act κ ρ) : Prop :=
  Assumed x.2 a

/-- An abort of ~HttpClient is posted to the call, or it was aborted, or it is over. -/
def Ended (x : Strand κ ρ × Watch ρ) : Prop :=
  .abort .closed ∈ x.1.posted ∨ x.2.first.isSome = true ∨ x.1.sending.call.finished = true

/-- A call that found the client closed goes no further. -/
def Refused (x : Strand κ ρ × Watch ρ) : Prop :=
  x.1.sending.call.finished = true ∨ x.1.sending.call.pending = [.refuse]

/-- ~HttpClient does it, and not the call. -/
def Act.outside : Act κ ρ → Bool
  | .close | .evict => true
  | _ => false

section Call

variable {x y : Strand κ ρ × Watch ρ} {a : Act κ ρ} {onComplete : Bool}

theorem pursues_of_init (h : (watched κ ρ onComplete).Init x) : Pursues onComplete x.1 x.2 := by
  obtain ⟨⟨sending, closed, ⟨call, header, body, hnew, -, rfl⟩, hpending, hx⟩, hw⟩ := h
  obtain ⟨strand, watch⟩ := x
  obtain rfl : strand = _ := hx
  obtain rfl : watch = {} := hw
  have hempty : call.conn = none ∧ call.aborted = none := by
    obtain ⟨method, bodySize, onProgress, refused, rfl⟩ := hnew
    exact ⟨rfl, rfl⟩
  refine ⟨Call.Settled.reachable (Machine.Reachable.init hnew), fun op hop ↦ ?_,
    ⟨nofun, fun _ ↦ ⟨[], nofun, Or.inl ⟨rfl, rfl⟩⟩⟩, .before rfl hempty.2⟩
  rw [hpending, List.mem_singleton] at hop
  subst hop
  show call.conn.isSome = _
  rw [hempty.1]
  cases closed <;> rfl

/-- What is known of a call on its strand holds of the call. -/
theorem pursues_of_reachable (h : (callMachine κ ρ).ReachableVia Sane x) :
    ∃ onComplete, Pursues onComplete x.1 x.2 := by
  refine h.invariant (I := fun x ↦ ∃ onComplete, Pursues onComplete x.1 x.2) ?_ ?_
  · rintro x ⟨onComplete, hx⟩
    exact ⟨onComplete, pursues_of_init hx⟩
  · rintro x a _ ⟨onComplete, hx⟩ hsane hstep
    obtain ⟨y, hy, rfl⟩ := Option.map_eq_some_iff.1 hstep
    exact ⟨onComplete, hx.step hy hsane⟩

/-- The first abort is not forgotten. -/
theorem Watch.first_after (w : Watch ρ) (x : Strand κ ρ) (a : Act κ ρ) (y : Strand κ ρ)
    (h : w.first.isSome = true) : (w.after x a y).first.isSome = true := by
  cases a with
  | handle e n =>
    cases hop : e.op with
    | none =>
      cases e with
      | abort why =>
        rw [Watch.after, h, Bool.or_true, if_pos rfl]
        exact h
      | _ => cases hop
    | some op =>
      rw [Watch.after_complete hop]
      split
      · exact h
      · exact h
  | _ => exact h

/-- finish() ends the call, if it was not over already. -/
theorem Call.finish_finished (s : Call κ ρ) (result : Result ρ) :
    (s.finish result).finished = true := by
  rw [Call.finish]
  split
  · assumption
  · rfl

/-- Where nothing is outstanding the call is over. -/
theorem Call.Settled.over_of_pending {s : Call κ ρ} (h : s.Settled onComplete)
    (hpending : s.pending = []) : s.finished = true ∧ ∃ result, s.promise = [result] := by
  rcases h with ⟨-, ⟨op, hop, -⟩, -⟩ | ⟨hfinished, -, result, hpromise, -⟩
  · exact absurd (hpending.symm.trans hop).symm (List.cons_ne_nil op [])
  · exact ⟨hfinished, result, hpromise⟩

/-- A call that is over stays over. -/
theorem Strand.finished_step {s t : Strand κ ρ} (hs : s.sending.call.Settled onComplete)
    (hfinished : s.sending.call.finished = true) (hstep : s.step a = some t) :
    t.sending.call.finished = true := by
  cases a with
  | handle e n =>
    have hhandles := Strand.handles_of_step hstep
    cases hop : e.op with
    | none =>
      cases e with
      | abort why =>
        rw [← Option.some.inj hhandles.call]
        show (s.sending.call.abort why).finished = true
        rw [Call.abort, hfinished, Bool.true_or, if_pos rfl]
        exact hfinished
      | _ => cases hop
    | some op =>
      have hmem := (Call.handle_of_step hop hhandles.call).1
      rw [hs.pending_eq_nil hfinished] at hmem
      exact absurd hmem List.not_mem_nil
  | dispatch | close =>
    obtain ⟨-, hstep⟩ := Option.ite_none_left_eq_some.1 hstep
    exact Option.some.inj hstep ▸ hfinished
  | cancel | evict =>
    obtain ⟨-, hstep⟩ := Option.ite_none_right_eq_some.1 hstep
    exact Option.some.inj hstep ▸ hfinished

/-- What was posted is posted until its turn has come. -/
theorem Strand.posted_step {s t : Strand κ ρ} {handler : Posted} (hposted : handler ∈ s.posted)
    (hstep : s.step a = some t) :
    handler ∈ t.posted ∨ ∃ e n, a = .handle e n ∧ e.posted = some handler := by
  cases a with
  | handle e n =>
    have hhandles := Strand.handles_of_step hstep
    rcases hhandles.posted with ⟨-, heq⟩ | ⟨first, hfirst, hhead⟩
    · exact Or.inl (heq ▸ hposted)
    · rw [hhead] at hposted
      rcases List.mem_cons.1 hposted with rfl | hrest
      · exact Or.inr ⟨e, n, rfl, hfirst⟩
      · exact Or.inl hrest
  | dispatch =>
    obtain ⟨-, hstep⟩ := Option.ite_none_left_eq_some.1 hstep
    exact Option.some.inj hstep ▸ Or.inl (List.mem_append_left _ hposted)
  | cancel | evict =>
    obtain ⟨-, hstep⟩ := Option.ite_none_right_eq_some.1 hstep
    exact Option.some.inj hstep ▸ Or.inl (List.mem_append_left _ hposted)
  | close =>
    obtain ⟨-, hstep⟩ := Option.ite_none_left_eq_some.1 hstep
    exact Option.some.inj hstep ▸ Or.inl hposted

/-- What runs for an abort that ~HttpClient posted is that abort. -/
theorem Event.eq_abort_closed {e : Event κ ρ} (h : e.posted = some (.abort .closed)) :
    e = .abort .closed := by
  cases e with
  | abort why => cases why <;> first | rfl | cases h
  | _ => cases h

/-- What ends a call is not taken back. -/
theorem Ended.step (hx : Pursues onComplete x.1 x.2) (h : Ended x)
    (hstep : (callMachine κ ρ).step x a = some y) : Ended y := by
  obtain ⟨y, hy, rfl⟩ := Option.map_eq_some_iff.1 hstep
  rcases h with hposted | hfirst | hfinished
  · rcases Strand.posted_step hposted hy with hposted | ⟨e, n, rfl, he⟩
    · exact Or.inl hposted
    · obtain rfl := Event.eq_abort_closed he
      refine Or.inr ?_
      cases hfinished : x.1.sending.call.finished with
      | true => exact Or.inr (Strand.finished_step hx.settled hfinished hy)
      | false =>
        cases hfirst : x.2.first with
        | some why => exact Or.inl (x.2.first_after x.1 _ y (by rw [hfirst]; rfl))
        | none =>
          refine Or.inl ?_
          rw [Watch.after, hfinished, hfirst]
          rfl
  · exact Or.inr (Or.inl (x.2.first_after x.1 a y hfirst))
  · exact Or.inr (Or.inr (Strand.finished_step hx.settled hfinished hy))

/-- A refused call stays refused, or is over. -/
theorem Refused.step (hx : Pursues onComplete x.1 x.2) (h : Refused x)
    (hstep : (callMachine κ ρ).step x a = some y) : Refused y := by
  obtain ⟨y, hy, rfl⟩ := Option.map_eq_some_iff.1 hstep
  rcases h with hfinished | hpending
  · exact Or.inl (Strand.finished_step hx.settled hfinished hy)
  · cases a with
    | handle e n =>
      have hhandles := Strand.handles_of_step hy
      cases hop : e.op with
      | none =>
        cases e with
        | abort why =>
          refine Or.inr ?_
          show y.sending.call.pending = _
          rw [← Option.some.inj hhandles.call]
          show (x.1.sending.call.abort why).pending = _
          rw [Call.abort]
          split
          · exact hpending
          · exact hpending
        | _ => cases hop
      | some op =>
        obtain ⟨hmem, hcall⟩ := Call.handle_of_step hop hhandles.call
        rw [hpending, List.mem_singleton] at hmem
        subst hmem
        obtain rfl : e = .refuse := by
          cases e with
          | refuse => rfl
          | _ => cases hop
        refine Or.inl ?_
        show y.sending.call.finished = true
        rw [hcall]
        exact Call.finish_finished _ _
    | dispatch | close =>
      obtain ⟨-, hy⟩ := Option.ite_none_left_eq_some.1 hy
      exact Option.some.inj hy ▸ Or.inr hpending
    | cancel | evict =>
      obtain ⟨-, hy⟩ := Option.ite_none_right_eq_some.1 hy
      exact Option.some.inj hy ▸ Or.inr hpending

end Call

/-! ### The client -/

/-- A call that was made, as it is where the client is left aside. -/
structure CallState (κ : Type u) (ρ : Type v) where
  strand : Strand κ ρ
  watch : Watch ρ := {}
  /-- send() found the client closed. -/
  refused : Bool
  /-- Something refers to the call. -/
  alive : Bool := true

/-- The calls of a client. -/
structure Calls (κ : Type u) (ρ : Type v) where
  /-- `calls` and `closed` of `ClientImpl`, and the calls that ~HttpClient has yet to abort. A
  call's number stands for its address. -/
  roster : Roster ℕ := {}
  states : List (CallState κ ρ) := []

/-- A call that is alive, with what its strand sees of the client. -/
def look (roster : Roster ℕ) (states : List (CallState κ ρ)) (i : ℕ) :
    Option (Strand κ ρ × Watch ρ) :=
  (states[i]?).bind fun s ↦
    if s.alive then
      some ({ s.strand with closed := roster.closed, inFlight := decide (0 < roster.owing i) },
        s.watch)
    else
      none

/-- The call is elsewhere on its strand. -/
def CallState.goTo (s : CallState κ ρ) (x : Strand κ ρ × Watch ρ) : CallState κ ρ :=
  { s with strand := x.1, watch := x.2 }

/-- Whether nothing that a call does keeps it alive: send() has returned, nothing is outstanding or
posted, and ~HttpClient does not hold it. -/
def Strand.idle (x : Strand κ ρ) : Bool :=
  x.dispatched && x.posted.isEmpty && x.sending.call.pending.isEmpty && !x.inFlight

namespace Calls

/-- A call that is alive. -/
def call (c : Calls κ ρ) (i : ℕ) : Option (Strand κ ρ × Watch ρ) :=
  look c.roster c.states i

/-- What happens next. -/
inductive Action (κ : Type u) (ρ : Type v)
  /-- send(), up to where it unlocks. -/
  | send (method : Http.Verb) (header body : Text) (onProgress onComplete : Bool)
  /-- ~HttpClient, up to where it unlocks. -/
  | destroy
  /-- ~HttpClient posts the next abort. -/
  | post
  /-- send() goes on, the call is cancelled, or a handler of it runs. -/
  | go (i : ℕ) (a : Act κ ρ)
  /-- The last reference to a call is gone. -/
  | expire (i : ℕ)

/-- One step of a client. -/
def step (c : Calls κ ρ) : Action κ ρ → Option (Calls κ ρ)
  | .send method header body onProgress onComplete =>
    let closed := c.roster.closed
    let call : Call κ ρ :=
      { method, bodySize := body.length, onProgress, onComplete
        pending := [if closed then .refuse else .start] }
    some
      { roster :=
          if closed then c.roster
          else (c.roster.prune fun i ↦ (c.call i).isSome).join c.states.length
        states := c.states ++
          [{ strand := { sending := { call, header, body }, closed }, refused := closed }] }
  | .destroy =>
    if c.roster.closed then none
    else some { c with roster := (c.roster.close fun i ↦ (c.call i).isSome).clear }
  | .post =>
    (c.roster.next 0).bind fun i ↦ (c.call i).bind fun x ↦
      ((callMachine κ ρ).step x .evict).map fun y ↦
        { roster := c.roster.tell 0, states := c.states.modify i (·.goTo y) }
  | .go i a =>
    if a.outside then none
    else (c.call i).bind fun x ↦ ((callMachine κ ρ).step x a).map fun y ↦
      { c with states := c.states.modify i (·.goTo y) }
  | .expire i =>
    (c.call i).bind fun x ↦
      if x.1.idle then some { c with states := c.states.modify i ({ · with alive := false }) }
      else none

end Calls

/-- A client with its calls, from its construction to the end of its destructor. -/
def lifetimeMachine (κ : Type u) (ρ : Type v) : Machine (Calls κ ρ) (Calls.Action κ ρ) where
  Init c := c = {}
  step := Calls.step

/-- What is assumed of the operations of the calls. -/
def Calls.Sane (c : Calls κ ρ) : Calls.Action κ ρ → Prop
  | .go i a => ∀ x ∈ c.call i, HttpClient.Sane x a
  | _ => True

instance (x : Strand κ ρ × Watch ρ) : DecidablePred (Sane x) :=
  inferInstanceAs (DecidablePred (Assumed x.2))

instance (c : Calls κ ρ) : DecidablePred c.Sane
  | .go i a => inferInstanceAs (Decidable (∀ x ∈ c.call i, HttpClient.Sane x a))
  | .send .. | .destroy | .post | .expire _ => .isTrue trivial

/-! ### Looking at a call -/

section Look

variable {roster roster' : Roster ℕ} {states : List (CallState κ ρ)} {s : CallState κ ρ}
  {x y : Strand κ ρ × Watch ρ} {a : Act κ ρ} {i j : ℕ}

/-- What is seen of a call: it is alive, and its strand sees the client as it is. -/
theorem of_look (h : look roster states i = some x) : ∃ s, states[i]? = some s ∧ s.alive = true ∧
    x = ({ s.strand with closed := roster.closed, inFlight := decide (0 < roster.owing i) },
      s.watch) := by
  obtain ⟨s, hs, h⟩ := Option.bind_eq_some_iff.1 h
  obtain ⟨halive, h⟩ := Option.ite_none_right_eq_some.1 h
  exact ⟨s, hs, halive, (Option.some.inj h).symm⟩

theorem isSome_look (roster : Roster ℕ) (states : List (CallState κ ρ)) (i : ℕ) :
    (look roster states i).isSome = (states[i]?).any (·.alive) := by
  rw [look]
  cases states[i]? with
  | none => rfl
  | some s =>
    rw [Option.bind_some, Option.any_some]
    cases halive : s.alive with
    | false => rfl
    | true => rfl

/-- Where the client looks the same to a call, the call is the same. -/
theorem look_congr (hclosed : roster'.closed = roster.closed)
    (howing : roster'.owing i = roster.owing i) : look roster' states i = look roster states i := by
  rw [look, look, hclosed, howing]

theorem look_append (hi : i < states.length) (new : List (CallState κ ρ)) :
    look roster (states ++ new) i = look roster states i := by
  rw [look, look, List.getElem?_append_left hi]

theorem look_of_length_le (hi : states.length ≤ i) : look roster states i = none := by
  rw [look, List.getElem?_eq_none hi, Option.bind_none]

/-- What one call does changes nothing about the others. -/
theorem look_modify_ne (hij : i ≠ j) (f : CallState κ ρ → CallState κ ρ) :
    look roster (states.modify i f) j = look roster states j := by
  rw [look, look, List.getElem?_modify_ne _ _ hij]

/-- A call is seen where its strand has gone. -/
theorem look_goTo (h : look roster states i = some x) (hclosed : y.1.closed = roster'.closed)
    (hflight : y.1.inFlight = decide (0 < roster'.owing i)) :
    look roster' (states.modify i (·.goTo y)) i = some y := by
  obtain ⟨s, hs, halive, -⟩ := of_look h
  rw [look, List.getElem?_modify_eq, hs, ← hclosed, ← hflight]
  exact if_pos halive

/-- A call that goes on is there. -/
theorem isSome_look_goTo (roster roster' : Roster ℕ) (states : List (CallState κ ρ))
    (y : Strand κ ρ × Watch ρ) (i j : ℕ) :
    (look roster' (states.modify i (·.goTo y)) j).isSome = (look roster states j).isSome := by
  rw [isSome_look, isSome_look, List.getElem?_modify]
  cases states[j]? with
  | none => rfl
  | some s =>
    show Option.any _ (some (if i = j then s.goTo y else s)) = _
    split <;> rfl

theorem look_dead {f : CallState κ ρ → CallState κ ρ} (hf : ∀ s, (f s).alive = false) :
    look roster (states.modify i f) i = none := by
  rw [look, List.getElem?_modify_eq]
  cases states[i]? with
  | none => rfl
  | some s => exact if_neg (Bool.eq_false_iff.1 (hf s))

/-- What a call does itself changes nothing that it sees of the client. -/
theorem Strand.sees_step {s t : Strand κ ρ} (hstep : s.step a = some t)
    (hout : a.outside = false) : t.closed = s.closed ∧ t.inFlight = s.inFlight := by
  cases a with
  | handle e n =>
    have hhandles := Strand.handles_of_step hstep
    exact ⟨hhandles.closed, hhandles.inFlight⟩
  | dispatch =>
    obtain ⟨-, hstep⟩ := Option.ite_none_left_eq_some.1 hstep
    exact Option.some.inj hstep ▸ ⟨rfl, rfl⟩
  | cancel =>
    obtain ⟨-, hstep⟩ := Option.ite_none_right_eq_some.1 hstep
    exact Option.some.inj hstep ▸ ⟨rfl, rfl⟩
  | close | evict => cases hout

/-- ~HttpClient posts its abort. -/
theorem Strand.of_evict (hstep : (callMachine κ ρ).step x .evict = some y) :
    y.1.closed = x.1.closed ∧ y.1.inFlight = false ∧ .abort .closed ∈ y.1.posted := by
  obtain ⟨t, ht, rfl⟩ := Option.map_eq_some_iff.1 hstep
  obtain ⟨-, ht⟩ := Option.ite_none_right_eq_some.1 ht
  exact Option.some.inj ht ▸ ⟨rfl, rfl, List.mem_append_right _ (List.mem_singleton_self _)⟩

/-- Nothing is outstanding for a call that nothing keeps alive. -/
theorem Strand.of_idle {s : Strand κ ρ} (h : s.idle = true) :
    s.sending.call.pending = [] ∧ s.inFlight = false := by
  simp only [Strand.idle, Bool.and_eq_true, List.isEmpty_iff, Bool.not_eq_true'] at h
  exact ⟨h.1.2, h.2⟩

end Look

end CppGate.HttpClient
