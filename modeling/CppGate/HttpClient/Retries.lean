import CppGate.HttpClient.Attempts
import Mathlib.Data.List.Infix

/-!
# Retries are safe while no empty write fails

fail() tries again only on a connection from the pool, and connect() is the only one that takes a
connection from there: so there is a second attempt at most, on a connection that onResolve() made.
A request that is not idempotent is tried again for a failed write only, and a failed write left
some of the request behind, unless it had no data left.

So the case that breaks it is the last write of a request without a body: the request is out, the
write that finishes the serializer fails, and the request goes out again.
-/

namespace CppGate.HttpClient

open Http

universe u v

variable {κ : Type u} {ρ : Type v}

/-- An attempt on a connection from the pool. -/
def Attempt.Pooled (a : Attempt κ) : Prop :=
  ∃ conn, a.source = some (.pooled conn) ∧ a.conn = some conn

/-- An attempt on a connection opened for it. -/
def Attempt.Opened (a : Attempt κ) : Prop :=
  ∃ conn, a.source = some (.opened conn) ∧ a.conn = some conn

/-- **Retries are safe**: what the attempts of a call with this method and this request have to
be. -/
structure RetriesSafely (method : Verb) (octets : Text) (attempts : List (Attempt κ)) : Prop where
  atMostTwo : attempts.length ≤ 2
  /-- Each attempt hands over the same request, from its first octet. -/
  fromFirst : ∀ a ∈ attempts, a.handed <+: octets
  retried : ∀ first second, attempts = [first, second] → first.Pooled ∧ second.Opened ∧
    ∃ failure, first.failure = some failure ∧ failure.received = false ∧
      failure.aborted = false ∧ (idempotent method = true ∨ failure.duringWrite = true)
  /-- A request that is not idempotent goes out completely once. -/
  once : idempotent method = false → (attempts.filter fun a ↦ a.handed = octets).length ≤ 1

/-! ### Attempts before the current one -/

/-- An attempt that may be followed by another one. -/
structure Attempt.Retried (method : Verb) (octets : Text) (a : Attempt κ) : Prop where
  pooled : a.Pooled
  failed : ∃ failure, a.failure = some failure ∧ failure.received = false ∧
    failure.aborted = false ∧ (idempotent method = true ∨ failure.duringWrite = true)
  handed : a.handed <+: octets
  incomplete : idempotent method = false → a.handed ≠ octets

/-- The attempts that have ended while the call goes on. -/
def Earlier (method : Verb) (octets : Text) (retried : Bool) (ended : List (Attempt κ)) : Prop :=
  ended = [] ∧ retried = false ∨
    ∃ first : Attempt κ, ended = [first] ∧ first.Retried method octets ∧ retried = true

variable {method : Verb} {octets : Text} {retried : Bool} {ended : List (Attempt κ)}

/-- Ended attempts that allowed another one, and the current one. -/
theorem Earlier.safe (h : Earlier method octets retried ended) (last : Option (Attempt κ))
    (hlast : ∀ a ∈ last, a.handed <+: octets ∧ (ended ≠ [] → a.Opened)) :
    RetriesSafely method octets (ended ++ last.toList) := by
  rcases last with _ | a
  · rw [Option.toList_none, List.append_nil]
    rcases h with ⟨rfl, -⟩ | ⟨first, rfl, hfirst, -⟩
    · exact ⟨Nat.zero_le 2, fun a ha ↦ absurd ha List.not_mem_nil,
        fun _ _ heq ↦ absurd heq.symm (List.cons_ne_nil _ _), fun _ ↦ Nat.zero_le 1⟩
    · exact ⟨Nat.le_succ 1, fun a ha ↦ List.mem_singleton.1 ha ▸ hfirst.handed,
        fun _ _ heq ↦ absurd (List.cons.inj heq).2.symm (List.cons_ne_nil _ _),
        fun _ ↦ List.length_filter_le _ _⟩
  · obtain ⟨hhanded, hopened⟩ := hlast a rfl
    rw [Option.toList_some]
    rcases h with ⟨rfl, -⟩ | ⟨first, rfl, hfirst, -⟩
    · exact ⟨Nat.le_succ 1, fun b hb ↦ List.mem_singleton.1 hb ▸ hhanded,
        fun _ _ heq ↦ absurd (List.cons.inj heq).2.symm (List.cons_ne_nil _ _),
        fun _ ↦ List.length_filter_le _ _⟩
    · refine ⟨le_rfl, ?_, ?_, fun hmethod ↦ ?_⟩
      · intro b hb
        rcases List.mem_cons.1 hb with rfl | hb
        · exact hfirst.handed
        · exact List.mem_singleton.1 hb ▸ hhanded
      · intro b c heq
        obtain ⟨rfl, rfl⟩ : first = b ∧ a = c := by simpa using heq
        exact ⟨hfirst.pooled, hopened (List.cons_ne_nil _ _), hfirst.failed⟩
      · rw [List.singleton_append, List.filter_cons_of_neg
          (by simpa using hfirst.incomplete hmethod)]
        exact List.length_filter_le _ _

/-! ### The invariant -/

namespace Sending

/-- The attempt that the call is at: on the first one, `reused` tells where its connection is
from. -/
def At (s : Sending κ ρ) (a : Attempt κ) : Prop :=
  s.current = some a ∧
    (s.ended = [] ∧ s.call.reused = true ∧ a.Pooled ∨ s.call.reused = false ∧ a.Opened)

/-- What is so while a step is outstanding. -/
def Phase (s : Sending κ ρ) : Op → Prop
  | .start => s.ended = [] ∧ s.current = none ∧ s.call.retried = false ∧ s.call.reused = false
  | .refuse => s.ended = [] ∧ s.current = none ∧ s.call.retried = false
  | .resolve => Earlier s.call.method s.octets s.call.retried s.ended ∧ s.current = none ∧
      s.call.reused = false
  | .connect | .handshake => Earlier s.call.method s.octets s.call.retried s.ended ∧
      s.current = none ∧ s.call.reused = false ∧
        ∃ conn, s.source = some (.opened conn) ∧ s.call.conn = some conn
  | .writeHeader => Earlier s.call.method s.octets s.call.retried s.ended ∧
      ∃ a, s.At a ∧ a.handed = [] ∧ s.left = s.octets
  | .writeBody => Earlier s.call.method s.octets s.call.retried s.ended ∧
      ∃ a, s.At a ∧ a.handed ++ s.left = s.octets
  | .readHeader => Earlier s.call.method s.octets s.call.retried s.ended ∧
      ∃ a, s.At a ∧ a.handed <+: s.octets
  | .readBody => Earlier s.call.method s.octets s.call.retried s.ended ∧
      ∃ a, s.At a ∧ a.handed <+: s.octets ∧ s.call.parser.any Parser.gotSome = true

/-- The attempts are safe, and the call is over or waits for one step. -/
def Inv (s : Sending κ ρ) : Prop :=
  RetriesSafely s.call.method s.octets s.attempts ∧
    (s.call.pending = [] ∨ ∃ op, s.call.pending = [op] ∧ s.Phase op)

variable {s : Sending κ ρ} {e : Event κ ρ} {c t : Call κ ρ} {a : Attempt κ}

@[simp] theorem hand_zero : s.hand 0 = s := by
  have hcurrent : s.current.map (fun a ↦ a.hand []) = s.current := by simp
  rw [hand, List.drop_zero, List.take_zero, hcurrent]

/-- The current attempt has failed. -/
theorem goOn_of_failure {failure : Failure}
    (hfailure : e.failure s.call.aborted.isSome = some failure) (hcurrent : s.current = some a) :
    s.goOn e t = { s with
      call := t
      source := none
      current := none
      ended := s.ended ++ [a.fail failure] } := by
  rw [goOn, hfailure, hcurrent]
  rfl

/-- Another attempt starts: the request is written from its beginning. -/
theorem goOn_of_start (hfailure : e.failure s.call.aborted.isSome = none)
    (hop : e.op.isSome = true) (hmem : .writeHeader ∈ t.pending) :
    s.goOn e t = { s with
      call := t
      source := e.source.or s.source
      left := s.octets
      current := some { conn := t.conn, source := e.source.or s.source }
      ended := s.attempts } := by
  rw [goOn, hfailure]
  exact if_pos ⟨hop, hmem⟩

theorem goOn_of_not_mem (hfailure : e.failure s.call.aborted.isSome = none)
    (hmem : .writeHeader ∉ t.pending) :
    s.goOn e t = { s with call := t, source := e.source.or s.source } := by
  rw [goOn, hfailure]
  exact if_neg fun h ↦ hmem h.2

/-! ### Handlers -/

/-- A handler of the call runs. -/
structure Handling (s : Sending κ ρ) (c : Call κ ρ) : Prop where
  pending : c.pending = []
  method : c.method = s.call.method
  reused : c.reused = s.call.reused
  retried : c.retried = s.call.retried
  aborted : c.aborted = s.call.aborted

theorem handling_complete {op : Op} (h : s.call.pending = [op]) :
    s.Handling (s.call.complete op) :=
  ⟨by rw [Call.complete_pending, h, List.erase_cons_head], rfl, rfl, rfl, rfl⟩

/-- The handler ends the call. -/
theorem Handling.ends (h : s.Handling c)
    (hsafe : RetriesSafely s.call.method s.octets s.attempts)
    (hfailure : e.failure s.call.aborted.isSome = none) (hends : c.Ends t) : (s.goOn e t).Inv := by
  have hpending : t.pending = [] := hends.pending.trans h.pending
  rw [goOn_of_not_mem hfailure (by rw [hpending]; exact List.not_mem_nil)]
  refine ⟨?_, Or.inl hpending⟩
  have hmethod : t.method = s.call.method := hends.method.trans h.method
  exact hmethod.symm ▸ hsafe

/-- The handler starts a step of the attempt that the call is at. -/
theorem Handling.awaits (h : s.Handling c)
    (hsafe : RetriesSafely s.call.method s.octets s.attempts)
    (hfailure : e.failure s.call.aborted.isSome = none) {op : Op} (hawaits : c.Awaits t op)
    (hop : op ≠ .writeHeader)
    (hphase : Phase { s with call := t, source := e.source.or s.source } op) :
    (s.goOn e t).Inv := by
  have hpending : t.pending = [op] := by rw [hawaits.pending, h.pending, List.nil_append]
  rw [goOn_of_not_mem hfailure (by rw [hpending, List.mem_singleton]; exact hop.symm)]
  refine ⟨?_, Or.inr ⟨op, hpending, hphase⟩⟩
  have hmethod : t.method = s.call.method := hawaits.method.trans h.method
  exact hmethod.symm ▸ hsafe

/-- The handler starts an attempt. -/
theorem inv_start (hearlier : Earlier s.call.method s.octets s.call.retried s.ended)
    (hcurrent : s.current = none) (hfailure : e.failure s.call.aborted.isSome = none)
    (hop : e.op.isSome = true) (hpending : t.pending = [.writeHeader])
    (hmethod : t.method = s.call.method) (hretried : t.retried = s.call.retried)
    (hconn : s.ended = [] ∧ t.reused = true ∧
        Attempt.Pooled { conn := t.conn, source := e.source.or s.source } ∨
      t.reused = false ∧ Attempt.Opened { conn := t.conn, source := e.source.or s.source }) :
    (s.goOn e t).Inv := by
  have hattempts : s.attempts = s.ended := by
    rw [attempts, hcurrent, Option.toList_none, List.append_nil]
  rw [goOn_of_start hfailure hop (by rw [hpending]; exact List.mem_singleton_self _), hattempts]
  rw [← hmethod, ← hretried] at hearlier
  refine ⟨hearlier.safe _ fun a ha ↦ ?_, Or.inr ⟨_, hpending, hearlier, _, ⟨rfl, hconn⟩, rfl, rfl⟩⟩
  obtain rfl := Option.some.inj ha
  refine ⟨List.nil_prefix, fun hended ↦ ?_⟩
  rcases hconn with ⟨hnone, -⟩ | ⟨-, hopened⟩
  · exact absurd hnone hended
  · exact hopened

/-- A step of an attempt fails. -/
theorem Handling.fails (h : s.Handling c)
    (hearlier : Earlier s.call.method s.octets s.call.retried s.ended) (hat : s.At a)
    (hhanded : a.handed <+: s.octets) {ec : ErrorCode} {duringWrite : Bool} (received : Bool)
    (hfailure : e.failure s.call.aborted.isSome =
      some { duringWrite, received, aborted := s.call.aborted.isSome })
    (hretry : s.call.aborted = none → ec ∉ [.bodyLimit, .bufferOverflow, .timeout] →
      c.retries duringWrite = true →
        received = false ∧ (idempotent s.call.method = false → a.handed ≠ s.octets)) :
    (s.goOn e (c.fail ec duringWrite)).Inv := by
  rw [goOn_of_failure hfailure hat.1]
  have hopened : s.ended ≠ [] → a.Opened := fun hended ↦ by
    rcases hat.2 with ⟨hnone, -⟩ | ⟨-, hopened⟩
    · exact absurd hnone hended
    · exact hopened
  rcases c.fail_cases ec duringWrite with hends | ⟨haborted, hec, hretries, heq⟩
  · have hmethod : (c.fail ec duringWrite).method = s.call.method := hends.method.trans h.method
    refine ⟨?_, Or.inl (hends.pending.trans h.pending)⟩
    have hsafe := hearlier.safe (some (a.fail ⟨duringWrite, received,
      s.call.aborted.isSome⟩)) fun b hb ↦ Option.some.inj hb ▸ ⟨hhanded, hopened⟩
    rw [hmethod, attempts, Option.toList_none, List.append_nil]
    exact hsafe
  · rw [h.aborted] at haborted
    obtain ⟨hreceived, hincomplete⟩ := hretry haborted hec hretries
    simp only [Call.retries, Bool.and_eq_true, Bool.or_eq_true, h.reused, h.method] at hretries
    obtain ⟨⟨⟨hreused, -⟩, -⟩, hmay⟩ := hretries
    obtain ⟨hended, -, hpooled⟩ : s.ended = [] ∧ s.call.reused = true ∧ a.Pooled := by
      rcases hat.2 with hfirst | ⟨hnew, -⟩
      · exact hfirst
      · exact absurd (hnew.symm.trans hreused) Bool.false_ne_true
    have hretried : (a.fail ⟨duringWrite, received, s.call.aborted.isSome⟩).Retried s.call.method
        s.octets :=
      ⟨hpooled, ⟨_, rfl, hreceived, by rw [haborted, Option.isSome_none], hmay⟩, hhanded,
        hincomplete⟩
    have hearlier' : Earlier s.call.method s.octets true
        (s.ended ++ [a.fail ⟨duringWrite, received, s.call.aborted.isSome⟩]) :=
      Or.inr ⟨_, by rw [hended, List.nil_append], hretried, rfl⟩
    have hmethod : (c.fail ec duringWrite).method = s.call.method := by
      rw [heq]
      exact h.method
    refine ⟨?_, Or.inr ⟨.resolve, ?_, ?_, rfl, ?_⟩⟩
    · rw [hmethod]
      exact hearlier'.safe none fun b hb ↦ absurd hb.symm (Option.some_ne_none b)
    · rw [heq, Call.resolve, Call.await_pending, h.pending, List.nil_append]
    · rw [hmethod, heq]
      exact hearlier'
    · rw [heq]
      rfl

/-! ### The events -/

/-- A write that has no data left fails, and the whole request goes out again. -/
def ResendsWhole (s : Sending κ ρ) : Event κ ρ → Prop
  | .bodyWritten (.error ec) _ => s.left = [] ∧ s.call.reused = true ∧ s.call.aborted = none ∧
      idempotent s.call.method = false ∧ ec ∉ [.bodyLimit, .bufferOverflow, .timeout]
  | _ => False

instance (s : Sending κ ρ) : DecidablePred s.ResendsWhole
  | .bodyWritten (.error _) _ => inferInstanceAs (Decidable (_ ∧ _ ∧ _ ∧ _ ∧ _))
  | .bodyWritten (.ok _) _ | .begin .. | .refuse | .resolved _ | .connected _ | .handshaken _
  | .headerWritten .. | .headerRead .. | .bodyRead .. | .abort _ => .isFalse id

/-- What is outstanding, and what is so meanwhile. -/
theorem Inv.phase (h : s.Inv) {op : Op} (hmem : op ∈ s.call.pending) :
    s.call.pending = [op] ∧ s.Phase op := by
  obtain ⟨-, hpending | ⟨op', hpending, hphase⟩⟩ := h
  · rw [hpending] at hmem
    exact absurd hmem List.not_mem_nil
  · obtain rfl : op = op' := by rwa [hpending, List.mem_singleton] at hmem
    exact ⟨hpending, hphase⟩

/-- An abort leaves it to the outstanding step. -/
theorem Inv.abort (h : s.Inv) (why : ClientError) :
    (s.goOn (.abort why) (s.call.abort why)).Inv := by
  have heq : s.goOn (.abort why) (s.call.abort why) = { s with call := s.call.abort why } := by
    simp [Sending.goOn, Event.failure, Event.op, Event.source]
  have habort : s.call.abort why = s.call ∨ s.call.abort why = { s.call with aborted := why } := by
    rw [Call.abort]
    split_ifs
    · exact Or.inl rfl
    · exact Or.inr rfl
  rw [heq]
  rcases habort with hsame | haborted
  · rw [hsame]
    exact h
  · rw [haborted]
    obtain ⟨hsafe, hpending | ⟨op, hpending, hphase⟩⟩ := h
    · exact ⟨hsafe, Or.inl hpending⟩
    · exact ⟨hsafe, Or.inr ⟨op, hpending, by cases op <;> exact hphase⟩⟩

/-- begin() starts no attempt, unless it finds a connection in the pool. -/
theorem Inv.begin (h : s.Inv) (hmem : .start ∈ s.call.pending) (target : Except ErrorCode Target)
    (idle : Option κ) :
    (s.goOn (.begin target idle)
      (Call.begin { s.call.complete .start with begun := true } target idle)).Inv := by
  obtain ⟨hpending, hended, hcurrent, hretried, hreused⟩ := h.phase hmem
  have hc : s.Handling { s.call.complete .start with begun := true } :=
    ⟨(handling_complete hpending).pending, rfl, rfl, rfl, rfl⟩
  have hearlier : Earlier s.call.method s.octets s.call.retried s.ended :=
    Or.inl ⟨hended, hretried⟩
  rcases Call.begin_cases { s.call.complete .start with begun := true } target idle with
    hends | hawaits | ⟨conn, rfl, hwrites, hmethod, hretried', hreused', hconn⟩
  · exact hc.ends h.1 rfl hends
  · refine hc.awaits h.1 rfl hawaits (by decide) ⟨?_, hcurrent, hawaits.reused.trans hreused⟩
    exact hawaits.method.symm ▸ hawaits.retried.symm ▸ hearlier
  · refine inv_start hearlier hcurrent rfl rfl ?_ hmethod hretried'
      (Or.inl ⟨hended, hreused', conn, rfl, hconn⟩)
    rw [hwrites, hc.pending, List.nil_append]

/-- Without an attempt, fail() ends the call: a connection that was just opened is not reused. -/
theorem Handling.fails_early (h : s.Handling c)
    (hsafe : RetriesSafely s.call.method s.octets s.attempts)
    (hfailure : e.failure s.call.aborted.isSome = none) (hreused : s.call.reused = false)
    (ec : ErrorCode) : (s.goOn e (c.fail ec false)).Inv := by
  rcases c.fail_cases ec false with hends | ⟨-, -, hretries, -⟩
  · exact h.ends hsafe hfailure hends
  · rw [Call.retries, h.reused, hreused] at hretries
    exact absurd hretries Bool.false_ne_true

theorem Inv.resolved (h : s.Inv) (hmem : .resolve ∈ s.call.pending)
    (result : Except ErrorCode κ) :
    (s.goOn (.resolved result) ((s.call.complete .resolve).handle (.resolved result))).Inv := by
  obtain ⟨hpending, hearlier, hcurrent, hreused⟩ := h.phase hmem
  have hc := handling_complete hpending
  rcases result with ec | conn
  · exact hc.fails_early h.1 rfl hreused ec
  · rcases (s.call.complete .resolve).onResolve_cases conn with hends | ⟨hawaits, hconn⟩
    · exact hc.ends h.1 rfl hends
    · refine hc.awaits h.1 rfl hawaits (by decide)
        ⟨?_, hcurrent, hawaits.reused.trans hreused, conn, rfl, hconn⟩
      exact hawaits.method.symm ▸ hawaits.retried.symm ▸ hearlier

theorem Inv.connected (h : s.Inv) (hmem : .connect ∈ s.call.pending)
    (result : Except ErrorCode (Except ErrorCode Unit)) :
    (s.goOn (.connected result) ((s.call.complete .connect).handle (.connected result))).Inv := by
  obtain ⟨hpending, hearlier, hcurrent, hreused, conn, hsource, hconn⟩ := h.phase hmem
  have hc := handling_complete hpending
  rcases result with ec | sni
  · exact hc.fails_early h.1 rfl hreused ec
  · rcases (s.call.complete .connect).onConnect_cases sni with hends | ⟨op, hop, hawaits, hsame⟩
    · exact hc.ends h.1 rfl hends
    · rcases List.mem_cons.1 hop with rfl | hop
      · refine inv_start hearlier hcurrent rfl rfl ?_ hawaits.method hawaits.retried
          (Or.inr ⟨hawaits.reused.trans hreused, conn, hsource, hsame.trans hconn⟩)
        rw [Call.handle, hawaits.pending, hc.pending, List.nil_append]
      · obtain rfl := List.mem_singleton.1 hop
        refine hc.awaits h.1 rfl hawaits (by decide)
          ⟨?_, hcurrent, hawaits.reused.trans hreused, conn, hsource, hsame.trans hconn⟩
        exact hawaits.method.symm ▸ hawaits.retried.symm ▸ hearlier

theorem Inv.handshaken (h : s.Inv) (hmem : .handshake ∈ s.call.pending)
    (result : Except ErrorCode Unit) :
    (s.goOn (.handshaken result)
      ((s.call.complete .handshake).handle (.handshaken result))).Inv := by
  obtain ⟨hpending, hearlier, hcurrent, hreused, conn, hsource, hconn⟩ := h.phase hmem
  have hc := handling_complete hpending
  rcases result with ec | _
  · exact hc.fails_early h.1 rfl hreused ec
  · exact inv_start hearlier hcurrent rfl rfl
      (by rw [Call.handle, Call.writeHeader, Call.await_pending, hc.pending, List.nil_append])
      rfl rfl (Or.inr ⟨hreused, conn, hsource, hconn⟩)

/-! ### Writing -/

/-- The attempts are safe while the current one has handed over the first octets. -/
theorem At.safe (hat : s.At a)
    (hearlier : Earlier s.call.method s.octets s.call.retried s.ended)
    (hhanded : a.handed <+: s.octets) : RetriesSafely s.call.method s.octets s.attempts := by
  rw [attempts, hat.1]
  refine hearlier.safe (some a) fun b hb ↦ ?_
  obtain rfl := Option.some.inj hb
  refine ⟨hhanded, fun hended ↦ ?_⟩
  rcases hat.2 with ⟨hnone, -⟩ | ⟨-, hopened⟩
  · exact absurd hnone hended
  · exact hopened

/-- What the network takes, the serializer has no longer. -/
theorem At.hand (hat : s.At a) (hhanded : a.handed ++ s.left = s.octets) (n : ℕ) :
    (s.hand n).At (a.hand (s.left.take n)) ∧
      (a.hand (s.left.take n)).handed ++ (s.hand n).left = s.octets := by
  refine ⟨⟨?_, hat.2⟩, ?_⟩
  · rw [Sending.hand, hat.1]
    rfl
  · rw [Attempt.hand_handed, List.append_assoc, ← hhanded]
    exact congrArg _ (List.take_append_drop n s.left)

/-- After some of the request was written, the call writes on or reads the response. -/
theorem Handling.written (h : s.Handling c)
    (hearlier : Earlier s.call.method s.octets s.call.retried s.ended) (hat : s.At a)
    (hhanded : a.handed ++ s.left = s.octets)
    (hfailure : e.failure s.call.aborted.isSome = none) {isDone : Bool}
    (hawaits : c.Awaits t (if isDone then .readHeader else .writeBody)) : (s.goOn e t).Inv := by
  have hprefix : a.handed <+: s.octets := ⟨s.left, hhanded⟩
  have hmethod : t.method = s.call.method := hawaits.method.trans h.method
  have hretried : t.retried = s.call.retried := hawaits.retried.trans h.retried
  have hat' : At { s with call := t, source := e.source.or s.source } a := by
    refine ⟨hat.1, ?_⟩
    rw [show t.reused = s.call.reused from hawaits.reused.trans h.reused]
    exact hat.2
  have hearlier' := hearlier
  rw [← hmethod, ← hretried] at hearlier'
  rcases isDone with _ | _
  · exact h.awaits (hat.safe hearlier hprefix) hfailure hawaits (by decide)
      ⟨hearlier', a, hat', hhanded⟩
  · exact h.awaits (hat.safe hearlier hprefix) hfailure hawaits (by decide)
      ⟨hearlier', a, hat', hprefix⟩

/-- The header is written, or the attempt fails with what was handed over. -/
theorem Inv.headerWritten (h : s.Inv) (hmem : .writeHeader ∈ s.call.pending) {n : ℕ}
    (result : Except ErrorCode Bool) (now : Time)
    (hallows : s.allows n (.headerWritten result now) = true) :
    ((s.hand n).goOn (.headerWritten result now)
      ((s.call.complete .writeHeader).handle (.headerWritten result now))).Inv := by
  obtain ⟨hpending, hearlier, a, hat, hempty, hleft⟩ := h.phase hmem
  have hc : (s.hand n).Handling (s.call.complete .writeHeader) := handling_complete hpending
  obtain ⟨hat', hhanded⟩ := hat.hand (by rw [hempty, hleft, List.nil_append]) n
  rcases result with ec | isDone
  · have hn : n < s.header.length := of_decide_eq_true hallows
    refine hc.fails hearlier hat' ⟨_, hhanded⟩ false rfl
      fun _ _ _ ↦ ⟨rfl, fun _ heq ↦ ?_⟩
    have hlength : (a.hand (s.left.take n)).handed.length = s.octets.length := by
      rw [heq]
      rfl
    rw [Attempt.hand_handed, hempty, hleft, List.nil_append, octets, List.length_take,
      List.length_append] at hlength
    omega
  · exact hc.written hearlier hat' hhanded rfl (Call.awaits_writeBody _ isDone now)

/-- Some of the body is written, or the attempt fails before the server has it all. -/
theorem Inv.bodyWritten (h : s.Inv) (hmem : .writeBody ∈ s.call.pending) {n : ℕ}
    (result : Except ErrorCode (ℕ × Bool)) (now : Time)
    (hallows : s.allows n (.bodyWritten result now) = true)
    (hresends : ¬ s.ResendsWhole (.bodyWritten result now)) :
    ((s.hand n).goOn (.bodyWritten result now)
      ((s.call.complete .writeBody).handle (.bodyWritten result now))).Inv := by
  obtain ⟨hpending, hearlier, a, hat, hhanded⟩ := h.phase hmem
  have hc : (s.hand n).Handling (s.call.complete .writeBody) := handling_complete hpending
  obtain ⟨hat', hhanded'⟩ := hat.hand hhanded n
  rcases result with ec | ⟨m, isDone⟩
  · refine hc.fails hearlier hat' ⟨_, hhanded'⟩ false rfl
      fun haborted hec hretries ↦ ⟨rfl, fun hmethod heq ↦ ?_⟩
    have hreused : s.call.reused = true := by
      simp only [Call.retries, Bool.and_eq_true] at hretries
      exact hretries.1.1.1
    -- Something was left, so the write that failed left something.
    have hleft : s.left ≠ [] := fun hnone ↦
      hresends ⟨hnone, hreused, haborted, hmethod, hec⟩
    have hn : n < s.left.length := by
      have hpos := List.length_pos_iff.2 hleft
      simp only [allows, Bool.or_eq_true, Bool.and_eq_true, decide_eq_true_eq,
        List.isEmpty_iff, beq_iff_eq] at hallows
      rcases hallows with hn | ⟨-, hnone⟩
      · exact hn
      · exact absurd hnone hleft
    have hlength : (a.hand (s.left.take n)).handed.length = s.octets.length := by
      rw [heq]
      rfl
    rw [Attempt.hand_handed, ← hhanded, List.length_append, List.length_append,
      List.length_take] at hlength
    omega
  · exact hc.written hearlier hat' hhanded' rfl (Call.awaits_onWritten _ m isDone now)

/-! ### Reading -/

/-- After a part of the response was read, the call is over or reads on. -/
theorem Handling.read (h : s.Handling c)
    (hearlier : Earlier s.call.method s.octets s.call.retried s.ended) (hat : s.At a)
    (hhanded : a.handed <+: s.octets) (hfailure : e.failure s.call.aborted.isSome = none)
    {message : Message ρ}
    (ht : c.Ends t ∨ c.Awaits t .readBody ∧ t.parser = some (.message message)) :
    (s.goOn e t).Inv := by
  rcases ht with hends | ⟨hawaits, hparser⟩
  · exact h.ends (hat.safe hearlier hhanded) hfailure hends
  · have hmethod : t.method = s.call.method := hawaits.method.trans h.method
    have hretried : t.retried = s.call.retried := hawaits.retried.trans h.retried
    have hearlier' := hearlier
    rw [← hmethod, ← hretried] at hearlier'
    refine h.awaits (hat.safe hearlier hhanded) hfailure hawaits (by decide)
      ⟨hearlier', a, ⟨hat.1, ?_⟩, hhanded, by rw [hparser]; rfl⟩
    rw [show t.reused = s.call.reused from hawaits.reused.trans h.reused]
    exact hat.2

/-- The header of the response is read, or the attempt fails without one. -/
theorem Inv.headerRead (h : s.Inv) (hmem : .readHeader ∈ s.call.pending)
    (result : Except (ErrorCode × Parser ρ) (Message ρ)) (now : Time) :
    (s.goOn (.headerRead result now)
      ((s.call.complete .readHeader).handle (.headerRead result now))).Inv := by
  obtain ⟨hpending, hearlier, a, hat, hhanded⟩ := h.phase hmem
  have hc := handling_complete hpending
  rcases result with ⟨ec, parser⟩ | message
  · have hparser : s.Handling { s.call.complete .readHeader with parser := some parser } :=
      ⟨hc.pending, rfl, rfl, rfl, rfl⟩
    refine hparser.fails hearlier hat hhanded _ rfl fun _ _ hretries ↦ ?_
    simp only [Call.retries, Option.any_some, Bool.and_eq_true, Bool.not_eq_true', Bool.or_false]
      at hretries
    exact ⟨hretries.1.2, fun hmethod ↦ absurd (hmethod.symm.trans hretries.2) Bool.false_ne_true⟩
  · exact hc.read hearlier hat hhanded rfl (Call.onHeader_cases _ message now)

/-- After the header a failure ends the call. -/
theorem Inv.bodyRead (h : s.Inv) (hmem : .readBody ∈ s.call.pending)
    (result : Except ErrorCode (Message ρ)) (now : Time) :
    (s.goOn (.bodyRead result now)
      ((s.call.complete .readBody).handle (.bodyRead result now))).Inv := by
  obtain ⟨hpending, hearlier, a, hat, hhanded, hgot⟩ := h.phase hmem
  have hc := handling_complete hpending
  rcases result with ec | message
  · refine hc.fails hearlier hat hhanded _ rfl fun _ _ hretries ↦ ?_
    simp only [Call.retries, Call.complete_parser, hgot, Bool.not_true, Bool.and_false,
      Bool.false_and] at hretries
    exact absurd hretries Bool.false_ne_true
  · exact hc.read hearlier hat hhanded rfl (Call.onBody_cases _ message now)

/-! ### Runs -/

/-- **The step lemma**, for events that do not send a whole request again. -/
theorem Inv.step {s' : Sending κ ρ} {x : Event κ ρ × ℕ} (h : s.Inv)
    (hresends : ¬ s.ResendsWhole x.1) (hx : s.step x = some s') : s'.Inv := by
  obtain ⟨e, n⟩ := x
  obtain ⟨hallows, t, ht, rfl⟩ := call_of_step hx
  -- Only the write steps hand anything over.
  have hnone (hn : (n == 0) = true) : s.hand n = s := by rw [eq_of_beq hn, hand_zero]
  cases e with
  | abort why =>
    obtain rfl := Option.some.inj ht
    rw [hnone hallows]
    exact h.abort why
  | begin target idle =>
    obtain ⟨hmem, rfl⟩ := Call.handle_of_step rfl ht
    rw [hnone hallows]
    exact h.begin hmem target idle
  | refuse =>
    obtain ⟨hmem, rfl⟩ := Call.handle_of_step rfl ht
    rw [hnone hallows]
    have hc := handling_complete (h.phase hmem).1
    have hbegun : s.Handling { s.call.complete .refuse with begun := true } :=
      ⟨hc.pending, rfl, rfl, rfl, rfl⟩
    exact hbegun.ends h.1 rfl (Call.ends_finish _ _)
  | resolved result =>
    obtain ⟨hmem, rfl⟩ := Call.handle_of_step rfl ht
    rw [hnone hallows]
    exact h.resolved hmem result
  | connected result =>
    obtain ⟨hmem, rfl⟩ := Call.handle_of_step rfl ht
    rw [hnone hallows]
    exact h.connected hmem result
  | handshaken result =>
    obtain ⟨hmem, rfl⟩ := Call.handle_of_step rfl ht
    rw [hnone hallows]
    exact h.handshaken hmem result
  | headerWritten result now =>
    obtain ⟨hmem, rfl⟩ := Call.handle_of_step rfl ht
    exact h.headerWritten hmem result now hallows
  | bodyWritten result now =>
    obtain ⟨hmem, rfl⟩ := Call.handle_of_step rfl ht
    exact h.bodyWritten hmem result now hallows hresends
  | headerRead result now =>
    obtain ⟨hmem, rfl⟩ := Call.handle_of_step rfl ht
    rw [hnone hallows]
    exact h.headerRead hmem result now
  | bodyRead result now =>
    obtain ⟨hmem, rfl⟩ := Call.handle_of_step rfl ht
    rw [hnone hallows]
    exact h.bodyRead hmem result now

theorem IsNew.inv {onComplete : Bool} (h : s.IsNew onComplete) : s.Inv := by
  obtain ⟨call, header, body, ⟨method, bodySize, onProgress, closed, rfl⟩, -, rfl⟩ := h
  have hearlier : Earlier method (header ++ body) false ([] : List (Attempt κ)) :=
    Or.inl ⟨rfl, rfl⟩
  refine ⟨hearlier.safe none fun a ha ↦ absurd ha.symm (Option.some_ne_none a), Or.inr ?_⟩
  rcases closed with _ | _
  · exact ⟨.start, rfl, rfl, rfl, rfl, rfl⟩
  · exact ⟨.refuse, rfl, rfl, rfl, rfl⟩

/-- **Retries are safe** in every run in which no write fails that had no data left, on a connection
from the pool and of a request that is not idempotent. -/
theorem retries_safely {onComplete : Bool} {s : Sending κ ρ}
    (h : (machine κ ρ onComplete).ReachableVia (fun s x ↦ ¬ s.ResendsWhole x.1) s) :
    RetriesSafely s.call.method s.octets s.attempts :=
  (h.invariant (I := Inv) (fun s (hs : s.IsNew onComplete) ↦ hs.inv)
    fun _ _ _ hs hresends hx ↦ hs.step hresends hx).1

/-- A POST on a connection from the pool. -/
def post (body : Text) : Sending Bool Unit where
  call := { method := .post, bodySize := body.length }
  header := ['h']
  body := body

/-- The connection breaks in the middle of the body, and the second attempt sends it all. -/
theorem retries_safely_broken : RetriesSafely .post ['h', 'a', 'b']
    [⟨some false, some (.pooled false), ['h', 'a'], some ⟨true, false, false⟩⟩,
      ⟨some true, some (.opened true), ['h', 'a', 'b'], none⟩] := by
  have hrun : ∃ s, (machine Bool Unit true).run (post ['a', 'b'])
      [(.begin (.ok ⟨[], false⟩) (some false), 0), (.headerWritten (.ok false) 0, 1),
        (.bodyWritten (.error (.other 32)) 0, 1), (.resolved (.ok true), 0),
        (.connected (.ok (.ok ())), 0), (.headerWritten (.ok false) 0, 1),
        (.bodyWritten (.ok (2, true)) 0, 2)] = some s ∧ s.call.method = .post ∧
      s.octets = ['h', 'a', 'b'] ∧ s.attempts =
        [⟨some false, some (.pooled false), ['h', 'a'], some ⟨true, false, false⟩⟩,
          ⟨some true, some (.opened true), ['h', 'a', 'b'], none⟩] := ⟨_, rfl, rfl, rfl, rfl⟩
  obtain ⟨s, hrun, hmethod, hoctets, hattempts⟩ := hrun
  have hnew : (post ['a', 'b']).IsNew true := ⟨_, _, _, ⟨.post, 2, false, false, rfl⟩, rfl, rfl⟩
  rw [← hattempts, ← hoctets, ← hmethod]
  exact retries_safely (Machine.ReachableVia.run (Machine.ReachableVia.init hnew) _
    (by decide +kernel) hrun)

/-- A POST without a body fails after it went out, and goes out again. -/
theorem sent_twice : ∃ s, (machine Bool Unit true).Reachable s ∧
    ¬ RetriesSafely s.call.method s.octets s.attempts := by
  have hnew : (post []).IsNew true := ⟨_, _, _, ⟨.post, 0, false, false, rfl⟩, rfl, rfl⟩
  refine ⟨_, Machine.run_reachable [(.begin (.ok ⟨[], false⟩) (some false), 0),
    (.headerWritten (.ok false) 0, 1), (.bodyWritten (.error (.other 32)) 0, 0),
    (.resolved (.ok true), 0), (.connected (.ok (.ok ())), 0), (.headerWritten (.ok false) 0, 1),
    (.bodyWritten (.ok (0, true)) 0, 0)] hnew rfl, fun hsafe ↦ ?_⟩
  exact absurd (hsafe.once rfl) (by decide)

end Sending

end CppGate.HttpClient
