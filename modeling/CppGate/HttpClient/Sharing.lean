import CppGate.HttpClient.ConnectionFlow
import CppGate.HttpClient.IdleStore
import Mathlib.Logic.Function.Basic

/-!
# The connections that calls share

Any number of calls and the store of idle connections, on a clock that does not go back. A call's
handler takes a connection from the store, opens a new one, keeps or drops what it has, or gives it
to the store (`Call.Flow`); destroying the client empties the store for good. Whatever the order,
a connection is in one place (`Unique`), and each vector of the store is as it should be
(`Stored.Orderly`). What takeIdle() takes is right where its comparison with the timeout is
(`store_invariant_iff`), and the timeout that means for ever expires everything
(`keepForever_expires`).

What a server answers does not matter here, so a read may complete with any message.
-/

namespace CppGate.HttpClient

open Http

universe v

/-! ### The machine -/

/-- `ClientImpl`, the calls made with it, and the clock. -/
structure Shared (ρ : Type v) where
  calls : List (Call Conn ρ) := []
  /-- The idle connections of each key, the vector's back first. -/
  idle : Text → List Stored := fun _ ↦ []
  closed : Bool := false
  /-- How many connections were made. -/
  opened : ℕ := 0
  clock : Time

/-- A label: a call is made, call `i` goes on at a time, or the client is destroyed. -/
inductive Move (ρ : Type v)
  | send (method : Verb) (bodySize : ℕ) (onProgress onComplete : Bool)
  | go (i : ℕ) (now : Time) (e : Event Conn ρ)
  | destroy

namespace Shared

variable {ρ : Type v}

/-- `putIdle`. -/
def putIdle (options : Options) (s : Shared ρ) (conn : Conn) : Shared ρ :=
  if s.closed || decide (options.maxIdlePerHost ≤ (s.idle conn.key).length) then
    s
  else
    { s with idle := Function.update s.idle conn.key (⟨conn, s.clock⟩ :: s.idle conn.key) }

/-- What the store of a client with wires keeps is the same, whatever else it knows of its
connections. -/
theorem idle_putIdle {view : Connection → Conn} (hview : ∀ connection,
    (view connection).key = connection.key) {client : Client} {s : Shared ρ}
    (hclosed : s.closed = client.closed)
    (hidle : ∀ key, s.idle key = (client.idle key).map (Stored.ofIdle view)) (options : Options)
    (connection : Connection) (key : Text) :
    (s.putIdle options (view connection)).idle key =
      ((client.putIdle options connection s.clock).idle key).map (Stored.ofIdle view) := by
  rw [putIdle, Client.putIdle, hview, hclosed, hidle connection.key, List.length_map]
  split
  · exact hidle key
  · dsimp only
    by_cases hkey : key = connection.key
    · subst hkey
      rw [Function.update_self, Function.update_self]
      rfl
    · rw [Function.update_of_ne hkey, Function.update_of_ne hkey, hidle]

/-- The connection that an event brings comes from the store, or is a new one of the call's key. -/
def bring (options : Options) (s : Shared ρ) (call : Call Conn ρ) :
    Event Conn ρ → Option (Shared ρ)
  | .begin (.error _) idle => if idle = none then some s else none
  | .begin (.ok target) idle =>
    let (found, rest) := Stored.takeIdle options s.clock (s.idle target.key)
    if idle = found then some { s with idle := Function.update s.idle target.key rest } else none
  | .resolved (.ok conn) =>
    if conn = ⟨s.opened, call.target.key⟩ then some { s with opened := s.opened + 1 } else none
  | _ => some s

/-- Call `i` is at `call` from now on, without what it gave away. -/
def hold (s : Shared ρ) (i : ℕ) (call : Call Conn ρ) : Shared ρ :=
  { s with calls := s.calls.set i { call with released := none } }

/-- Call `i` was left at `call` by a handler: the store gets what it gave away. -/
def settle (options : Options) (s : Shared ρ) (i : ℕ) (call : Call Conn ρ) : Shared ρ :=
  match call.released with
  | some conn => (s.hold i call).putIdle options conn
  | none => s.hold i call

/-- One step of the client. -/
def step (options : Options) (s : Shared ρ) : Move ρ → Option (Shared ρ)
  | .send method bodySize onProgress onComplete =>
    let call : Call Conn ρ :=
      { method, bodySize, onProgress, onComplete
        pending := [if s.closed then .refuse else .start] }
    some { s with calls := s.calls ++ [call] }
  | .go i now e =>
    if now < s.clock then
      none
    else
      (s.calls[i]?).bind fun call ↦
        (bring options { s with clock := now } call e).bind fun s ↦
          (call.step e).map (s.settle options i)
  | .destroy => some { s with closed := true, idle := fun _ ↦ [] }

end Shared

/-- A client, from its construction on. -/
def sharedMachine (ρ : Type v) (options : Options) : Machine (Shared ρ) (Move ρ) where
  Init s := ∃ clock, s = { clock }
  step := Shared.step options

/-! ### Places -/

/-- Where a connection can be: with a call, or in the store. -/
inductive Place
  | call (i : ℕ)
  | store (key : Text) (j : ℕ)
  deriving DecidableEq, Repr

/-- The place so much further from the back of its vector. -/
def Place.shift (n : Text → ℕ) : Place → Place
  | .call i => .call i
  | .store key j => .store key (j + n key)

/-- Taking from the back of the vectors keeps places apart. -/
theorem Place.shift_injective (n : Text → ℕ) : Function.Injective (Place.shift n) := by
  rintro (i | ⟨key, j⟩) (i' | ⟨key', j'⟩) h
  · exact h
  · cases h
  · cases h
  · obtain ⟨rfl, hj⟩ := Place.store.inj h
    rw [Nat.add_right_cancel hj]

namespace Shared

variable {ρ : Type v} {options : Options} {s t : Shared ρ}

/-- Connection `id` is in a place. -/
def At (s : Shared ρ) (id : ℕ) : Place → Prop
  | .call i => ∃ call conn, s.calls[i]? = some call ∧ call.conn = some conn ∧ conn.id = id
  | .store key j => ∃ stored, (s.idle key)[j]? = some stored ∧ stored.conn.id = id

/-- Every connection is in one place at most. -/
def Unique (s : Shared ρ) : Prop :=
  ∀ id p q, s.At id p → s.At id q → p = q

/-- Only connections that were made are somewhere. -/
def Known (s : Shared ρ) : Prop :=
  ∀ id p, s.At id p → id < s.opened

variable {i : ℕ} {call : Call Conn ρ} {conn : Conn}

/-! ### What moves where -/

/-- Connections are taken from the back of the vectors. -/
theorem at_of_drop {n : Text → ℕ} (hcalls : t.calls = s.calls)
    (hidle : ∀ key, t.idle key = (s.idle key).drop (n key)) {id : ℕ} {p : Place}
    (h : t.At id p) : s.At id (p.shift n) := by
  cases p with
  | call i =>
    obtain ⟨call, conn, hget, hat⟩ := h
    exact ⟨call, conn, hcalls ▸ hget, hat⟩
  | store key j =>
    obtain ⟨stored, hget, hid⟩ := h
    rw [hidle, List.getElem?_drop, Nat.add_comm] at hget
    exact ⟨stored, hget, hid⟩

/-- Taking from the back of the vectors leaves each connection in one place. -/
theorem Unique.of_drop (h : s.Unique) {n : Text → ℕ} (hcalls : t.calls = s.calls)
    (hidle : ∀ key, t.idle key = (s.idle key).drop (n key)) : t.Unique := by
  intro id p q hp hq
  exact Place.shift_injective n (h id _ _ (at_of_drop hcalls hidle hp) (at_of_drop hcalls hidle hq))

/-- A call is where it was left, and the others are where they were. -/
theorem at_hold {id : ℕ} {p : Place} (h : (s.hold i call).At id p) :
    (p = .call i ∧ ∃ conn, call.conn = some conn ∧ conn.id = id) ∨ (p ≠ .call i ∧ s.At id p) := by
  cases p with
  | store key j => exact .inr ⟨fun hp ↦ (by cases hp), h⟩
  | call j =>
    obtain ⟨call', conn, hget, hconn, hid⟩ := h
    rw [hold, List.getElem?_set] at hget
    split at hget
    · next hij =>
      subst hij
      split at hget
      · obtain rfl := Option.some.inj hget
        exact .inl ⟨rfl, conn, hconn, hid⟩
      · cases hget
    · next hij =>
      exact .inr ⟨fun hp ↦ hij (Place.call.inj hp).symm, call', conn, hget, hconn, hid⟩

/-- A call may hold a connection that is nowhere else. -/
theorem Unique.hold (h : s.Unique)
    (hconn : ∀ conn, call.conn = some conn → ∀ p, s.At conn.id p → p = .call i) :
    (s.hold i call).Unique := by
  intro id p q hp hq
  rcases at_hold hp with ⟨rfl, conn, hcall, rfl⟩ | ⟨hne, hp⟩
  · rcases at_hold hq with ⟨rfl, -⟩ | ⟨hne, hq⟩
    · rfl
    · exact absurd (hconn conn hcall q hq) hne
  · rcases at_hold hq with ⟨rfl, conn, hcall, rfl⟩ | ⟨-, hq⟩
    · exact absurd (hconn conn hcall p hp) hne
    · exact h id p q hp hq

/-- A connection is put at the back of its vector. -/
theorem at_push {stored : Stored} {key : Text}
    (ht : t = { s with idle := Function.update s.idle key (stored :: s.idle key) }) {id : ℕ}
    {p : Place} (h : t.At id p) :
    p = .store key 0 ∧ id = stored.conn.id ∨ ∃ q, p = q.shift (Pi.single key 1) ∧ s.At id q := by
  subst ht
  cases p with
  | call j => exact .inr ⟨.call j, rfl, h⟩
  | store key' j =>
    obtain ⟨found, hget, hid⟩ := h
    dsimp only at hget
    by_cases hkey : key' = key
    · subst hkey
      rw [Function.update_self] at hget
      cases j with
      | zero =>
        obtain rfl := Option.some.inj hget
        exact .inl ⟨rfl, hid.symm⟩
      | succ j =>
        refine .inr ⟨.store key' j, ?_, found, hget, hid⟩
        rw [Place.shift, Pi.single_eq_same]
    · rw [Function.update_of_ne hkey] at hget
      refine .inr ⟨.store key' j, ?_, found, hget, hid⟩
      rw [Place.shift, Pi.single_eq_of_ne hkey, Nat.add_zero]

/-- A connection that is nowhere can be put into the store. -/
theorem Unique.putIdle (h : s.Unique) (hfree : ∀ p, ¬ s.At conn.id p) :
    (s.putIdle options conn).Unique := by
  rw [Shared.putIdle]
  split
  · exact h
  intro id p q hp hq
  rcases at_push rfl hp with ⟨rfl, rfl⟩ | ⟨p', rfl, hp'⟩
  · rcases at_push rfl hq with ⟨rfl, -⟩ | ⟨q', -, hq'⟩
    · rfl
    · exact absurd hq' (hfree q')
  · rcases at_push rfl hq with ⟨-, rfl⟩ | ⟨q', rfl, hq'⟩
    · exact absurd hp' (hfree p')
    · rw [h id p' q' hp' hq']

/-! ### What an event brings -/

/-- How the store changes for an event that may bring a connection: `n` connections are taken from
the back of each vector, the last of them is the one that comes from the store, and a new one is the
next that was made. -/
structure Brings (s t : Shared ρ) (source : Option (Source Conn)) (n : Text → ℕ) : Prop where
  calls : t.calls = s.calls
  closed : t.closed = s.closed
  clock : t.clock = s.clock
  opened_le : s.opened ≤ t.opened
  idle : ∀ key, t.idle key = (s.idle key).drop (n key)
  pooled : ∀ conn, source = some (.pooled conn) → ∃ key m stored, n key = m + 1 ∧
    (s.idle key)[m]? = some stored ∧ stored.conn = conn
  made : ∀ conn, source = some (.opened conn) → conn.id = s.opened ∧ t.opened = s.opened + 1

theorem brings_none (s : Shared ρ) : Brings s s none fun _ ↦ 0 where
  calls := rfl
  closed := rfl
  clock := rfl
  opened_le := le_rfl
  idle _ := List.drop_zero.symm
  pooled _ h := by cases h
  made _ h := by cases h

/-- takeIdle() takes from the back of one vector, and brings the last that it took or none. -/
theorem brings_of_take (s : Shared ρ) (key : Text) {found : Option Conn} {rest : List Stored}
    (htake : Stored.takeIdle options s.clock (s.idle key) = (found, rest)) :
    ∃ n, Brings s { s with idle := Function.update s.idle key rest } (found.map .pooled) n := by
  obtain ⟨m, hrest, hfound⟩ := Stored.takeIdle_spec options s.clock (s.idle key)
  rw [htake] at hrest hfound
  refine ⟨Pi.single key m, rfl, rfl, rfl, le_rfl, fun key' ↦ ?_, fun conn hconn ↦ ?_,
    fun conn hconn ↦ ?_⟩
  · dsimp only
    by_cases hkey : key' = key
    · subst hkey
      rw [Function.update_self, Pi.single_eq_same]
      exact hrest
    · rw [Function.update_of_ne hkey, Pi.single_eq_of_ne hkey, List.drop_zero]
  · obtain ⟨conn', rfl, hpooled⟩ := Option.map_eq_some_iff.1 hconn
    obtain rfl := Source.pooled.inj hpooled
    obtain ⟨m', stored, rfl, hget, hself, -⟩ := hfound
    exact ⟨key, m', stored, Pi.single_eq_same _ _, hget, hself⟩
  · obtain ⟨conn', -, hpooled⟩ := Option.map_eq_some_iff.1 hconn
    cases hpooled

/-- Where an event's connection comes from: the store, a new one, or nowhere. -/
theorem brings_of_bring {e : Event Conn ρ} (h : s.bring options call e = some t) :
    ∃ n, Brings s t e.source n := by
  cases e with
  | begin target idle =>
    cases target with
    | error ec =>
      rw [bring] at h
      split at h
      · next hidle =>
        subst hidle
        obtain rfl := Option.some.inj h
        exact ⟨_, brings_none s⟩
      · cases h
    | ok target =>
      rw [bring] at h
      cases htake : Stored.takeIdle options s.clock (s.idle target.key) with
      | mk found rest =>
        rw [htake] at h
        dsimp only at h
        split at h
        · next hidle =>
          subst hidle
          obtain rfl := Option.some.inj h
          cases idle with
          | none => exact brings_of_take s target.key htake
          | some conn => exact brings_of_take s target.key htake
        · cases h
  | resolved result =>
    cases result with
    | error ec =>
      obtain rfl := Option.some.inj h
      exact ⟨_, brings_none s⟩
    | ok conn =>
      rw [bring] at h
      split at h
      · next hconn =>
        obtain rfl := Option.some.inj h
        refine ⟨fun _ ↦ 0, rfl, rfl, rfl, Nat.le_succ _, fun key ↦ List.drop_zero.symm,
          fun conn' hconn' ↦ (by cases hconn'), fun conn' hconn' ↦ ?_⟩
        obtain rfl := Source.opened.inj (Option.some.inj hconn')
        exact ⟨congrArg Conn.id hconn, rfl⟩
      · cases h
  | _ =>
    obtain rfl := Option.some.inj h
    exact ⟨_, brings_none s⟩

/-! ### The invariant -/

/-- The state of the client between two steps. -/
structure Inv (options : Options) (s : Shared ρ) : Prop where
  settled : ∀ (i : ℕ) (call : Call Conn ρ), s.calls[i]? = some call →
    (∃ onComplete, call.Settled onComplete) ∧ call.released = none
  orderly : ∀ key, Stored.Orderly options s.clock key (s.idle key)
  closed : s.closed = true → ∀ key, s.idle key = []
  unique : s.Unique
  known : s.Known

/-- The connection that an event brings is nowhere yet, or no more. -/
def Free (s : Shared ρ) (conn : Conn) : Prop :=
  (∀ p, ¬ s.At conn.id p) ∧ conn.id < s.opened

theorem Inv.tick (h : Inv options s) {now : Time} (hnow : s.clock ≤ now) :
    Inv options { s with clock := now } where
  settled := h.settled
  orderly key := (h.orderly key).mono hnow
  closed := h.closed
  unique := h.unique
  known := h.known

/-- Taking a connection keeps the store as it should be. -/
theorem Inv.bring (h : Inv options s) {source : Option (Source Conn)} {n : Text → ℕ}
    (hbrings : Brings s t source n) : Inv options t where
  settled i call hcall := h.settled i call (hbrings.calls ▸ hcall)
  orderly key := by
    rw [hbrings.clock, hbrings.idle]
    exact (h.orderly key).drop _
  closed hclosed key := by
    rw [hbrings.idle, h.closed (hbrings.closed ▸ hclosed), List.drop_nil]
  unique := h.unique.of_drop hbrings.calls hbrings.idle
  known id p hp :=
    (h.known id _ (at_of_drop hbrings.calls hbrings.idle hp)).trans_le hbrings.opened_le

/-- The connection that was taken is nowhere else. -/
theorem Inv.free (h : Inv options s) {source : Source Conn} {n : Text → ℕ}
    (hbrings : Brings s t (some source) n) : t.Free source.conn := by
  cases source with
  | pooled conn =>
    obtain ⟨key, m, stored, hn, hget, rfl⟩ := hbrings.pooled conn rfl
    have hat : s.At stored.conn.id (.store key m) := ⟨stored, hget, rfl⟩
    refine ⟨fun p hp ↦ ?_, (h.known _ _ hat).trans_le hbrings.opened_le⟩
    have hplace := h.unique _ _ _ (at_of_drop hbrings.calls hbrings.idle hp) hat
    cases p with
    | call i => cases hplace
    | store key' j =>
      obtain ⟨rfl, hj⟩ := Place.store.inj hplace
      omega
  | opened conn =>
    obtain ⟨hid, hopened⟩ := hbrings.made conn rfl
    refine ⟨fun p hp ↦ ?_, ?_⟩
    · have hlt := h.known _ _ (at_of_drop hbrings.calls hbrings.idle hp)
      exact absurd hid hlt.ne
    · show conn.id < t.opened
      omega

/-- A call that keeps its connection, has dropped it, or holds one that was free. -/
theorem Inv.hold (h : Inv options s) {call' : Call Conn ρ} (hcall : s.calls[i]? = some call)
    (hsettled : ∃ onComplete, call'.Settled onComplete)
    (hconn : ∀ conn, call'.conn = some conn → call.conn = some conn ∨ s.Free conn) :
    Inv options (s.hold i call') where
  settled j other hother := by
    rw [Shared.hold, List.getElem?_set] at hother
    split at hother
    · split at hother
      · obtain rfl := Option.some.inj hother
        exact ⟨hsettled, rfl⟩
      · cases hother
    · exact h.settled j other hother
  orderly := h.orderly
  closed := h.closed
  unique := by
    refine h.unique.hold fun conn hheld p hp ↦ ?_
    rcases hconn conn hheld with hkept | hfree
    · exact h.unique _ _ _ hp ⟨call, conn, hcall, hkept, rfl⟩
    · exact absurd hp (hfree.1 p)
  known id p hp := by
    rcases at_hold hp with ⟨rfl, conn, hheld, rfl⟩ | ⟨-, hp⟩
    · rcases hconn conn hheld with hkept | hfree
      · have hat : s.At conn.id (.call i) := ⟨call, conn, hcall, hkept, rfl⟩
        exact h.known _ _ hat
      · exact hfree.2
    · exact h.known id p hp

/-- A connection that is nowhere else may be given to the store. -/
theorem Inv.putIdle (h : Inv options s) (hfree : s.Free conn) :
    Inv options (s.putIdle options conn) := by
  have hunique : (s.putIdle options conn).Unique := h.unique.putIdle hfree.1
  rw [Shared.putIdle] at hunique ⊢
  by_cases hfull : (s.closed || decide (options.maxIdlePerHost ≤ (s.idle conn.key).length)) = true
  · rw [if_pos hfull]
    exact h
  rw [if_neg hfull] at hunique ⊢
  rw [Bool.not_eq_true, Bool.or_eq_false_iff, decide_eq_false_iff_not, not_le] at hfull
  obtain ⟨hopen, hroom⟩ := hfull
  refine ⟨h.settled, fun key ↦ ?_, fun hclosed ↦ ?_, hunique, fun id p hp ↦ ?_⟩
  · dsimp only
    by_cases hkey : key = conn.key
    · subst hkey
      rw [Function.update_self]
      exact (h.orderly conn.key).cons rfl hroom
    · rw [Function.update_of_ne hkey]
      exact h.orderly key
  · exact absurd (hopen.symm.trans hclosed) Bool.false_ne_true
  · rcases at_push rfl hp with ⟨-, rfl⟩ | ⟨p', -, hp'⟩
    · exact hfree.2
    · exact h.known id p' hp'

/-- A handler of call `i` ran. -/
theorem Inv.settle (h : Inv options s) {call' : Call Conn ρ} {e : Event Conn ρ}
    (hcall : s.calls[i]? = some call) (he : call.step e = some call')
    (hfree : ∀ source, e.source = some source → s.Free source.conn) :
    Inv options (s.settle options i call') := by
  obtain ⟨⟨onComplete, hsettled⟩, hreleased⟩ := h.settled i call hcall
  have hsettled' : ∃ onComplete, call'.Settled onComplete := ⟨onComplete, hsettled.step he⟩
  rw [Shared.settle]
  rcases Call.flow_of_step hsettled he with ⟨hconn, hsame⟩ | ⟨source, hsource, hconn, hsame⟩ |
    ⟨-, -, -, hconn, hgiven, -⟩
  · rw [hsame, hreleased]
    refine h.hold hcall hsettled' fun conn hheld ↦ .inl ?_
    rcases hconn with hkept | hdropped
    · exact hkept ▸ hheld
    · rw [hdropped] at hheld
      cases hheld
  · rw [hsame, hreleased]
    refine h.hold hcall hsettled' fun conn hheld ↦ .inr ?_
    obtain rfl := Option.some.inj (hconn.symm.trans hheld)
    exact hfree source hsource
  · have hheld : Inv options (s.hold i call') := by
      refine h.hold hcall hsettled' fun conn hheld ↦ ?_
      rw [hconn] at hheld
      cases hheld
    rw [hgiven]
    cases hown : call.conn with
    | none => exact hheld
    | some conn =>
      have hat : s.At conn.id (.call i) := ⟨call, conn, hcall, hown, rfl⟩
      refine hheld.putIdle ⟨fun p hp ↦ ?_, h.known _ _ hat⟩
      rcases at_hold hp with ⟨-, conn', hconn', -⟩ | ⟨hne, hp⟩
      · rw [hconn] at hconn'
        cases hconn'
      · exact hne (h.unique _ _ _ hp hat)

/-- A new call has no connection. -/
theorem Inv.send (h : Inv options s) {call : Call Conn ρ} {onComplete : Bool}
    (hnew : call.IsNew onComplete) : Inv options { s with calls := s.calls ++ [call] } := by
  have hsettled : call.Settled onComplete := Call.Settled.reachable (Machine.Reachable.init hnew)
  have hempty : call.conn = none ∧ call.released = none := by
    obtain ⟨method, bodySize, onProgress, closed, rfl⟩ := hnew
    exact ⟨rfl, rfl⟩
  have hold : ∀ id p, Shared.At { s with calls := s.calls ++ [call] } id p → s.At id p := by
    rintro id (j | ⟨key, j⟩) hp
    · obtain ⟨other, conn, hget, hconn, hid⟩ := hp
      rw [List.getElem?_append] at hget
      split at hget
      · exact ⟨other, conn, hget, hconn, hid⟩
      · obtain rfl := List.mem_singleton.1 (List.mem_of_getElem? hget)
        rw [hempty.1] at hconn
        cases hconn
    · exact hp
  refine ⟨fun j other hother ↦ ?_, h.orderly, h.closed, ?_,
    fun id p hp ↦ h.known id p (hold id p hp)⟩
  · dsimp only at hother
    rw [List.getElem?_append] at hother
    split at hother
    · exact h.settled j other hother
    · obtain rfl := List.mem_singleton.1 (List.mem_of_getElem? hother)
      exact ⟨⟨onComplete, hsettled⟩, hempty.2⟩
  · exact fun id p q hp hq ↦ h.unique id p q (hold id p hp) (hold id q hq)

/-- The store is emptied for good. -/
theorem Inv.destroy (h : Inv options s) :
    Inv options { s with closed := true, idle := fun _ ↦ [] } := by
  have hold : ∀ id p, Shared.At { s with closed := true, idle := fun _ ↦ [] } id p → s.At id p := by
    rintro id (j | ⟨key, j⟩) hp
    · exact hp
    · obtain ⟨stored, hget, -⟩ := hp
      cases hget
  exact ⟨h.settled, fun _ ↦ Stored.orderly_nil, fun _ _ ↦ rfl,
    fun id p q hp hq ↦ h.unique id p q (hold id p hp) (hold id q hq),
    fun id p hp ↦ h.known id p (hold id p hp)⟩

/-- **The step lemma.** -/
theorem Inv.step (h : Inv options s) {a : Move ρ} (ha : s.step options a = some t) :
    Inv options t := by
  cases a with
  | send method bodySize onProgress onComplete =>
    obtain rfl := Option.some.inj ha
    exact h.send ⟨method, bodySize, onProgress, s.closed, rfl⟩
  | destroy =>
    obtain rfl := Option.some.inj ha
    exact h.destroy
  | go i now e =>
    rw [Shared.step] at ha
    split at ha
    · cases ha
    next hnow =>
    obtain ⟨call, hcall, ha⟩ := Option.bind_eq_some_iff.1 ha
    obtain ⟨u, hbring, ha⟩ := Option.bind_eq_some_iff.1 ha
    obtain ⟨call', he, rfl⟩ := Option.map_eq_some_iff.1 ha
    obtain ⟨n, hbrings⟩ := brings_of_bring hbring
    have htick := h.tick (not_lt.1 hnow)
    refine (htick.bring hbrings).settle (hbrings.calls ▸ hcall) he fun source hsource ↦ ?_
    rw [hsource] at hbrings
    exact htick.free hbrings

/-- **The run lemma.** -/
theorem inv_of_reachable (h : (sharedMachine ρ options).Reachable s) : Inv options s := by
  refine Machine.Reachable.invariant (fun s hs ↦ ?_) (fun s a t hs ha ↦ hs.step ha) h
  obtain ⟨clock, rfl⟩ := hs
  have hnowhere : ∀ id p, ¬ Shared.At ({ clock } : Shared ρ) id p := by
    rintro id (j | ⟨key, j⟩) hp
    · obtain ⟨call, conn, hget, -⟩ := hp
      cases hget
    · obtain ⟨stored, hget, -⟩ := hp
      cases hget
  exact ⟨fun i call hcall ↦ (by cases hcall), fun _ ↦ Stored.orderly_nil, fun _ _ ↦ rfl,
    fun id p q hp _ ↦ absurd hp (hnowhere id p), fun id p hp ↦ absurd hp (hnowhere id p)⟩

/-- What the store of idle connections promises, and takeIdle() for a key at a time: the vector of
each key has connections of that key only, not too many, the newest at the back; a connection is in
the store or with one call; a closed store is empty; and takeIdle() takes a connection of the key
that has not expired, and none only if all have. -/
def Kept (options : Options) (s : Shared ρ) (key : Text) (now : Time) : Prop :=
  (∀ key, (∀ stored ∈ s.idle key, stored.conn.key = key) ∧
    (s.idle key).length ≤ options.maxIdlePerHost ∧
      (s.idle key).Pairwise fun newer older ↦ older.idleSince ≤ newer.idleSince) ∧
  (∀ id p q, s.At id p → s.At id q → p = q) ∧
  (s.closed = true → ∀ key, s.idle key = []) ∧
  Stored.TakesYoung options now key (s.idle key)

/-- **The store of idle connections.** In every reachable state the promises are kept for a key at a
time exactly if takeIdle() judges right, then, the newest connection that is stored for the key. -/
theorem store_invariant_iff (h : (sharedMachine ρ options).Reachable s) (key : Text) (now : Time) :
    s.Kept options key now ↔ Stored.Judged options now (s.idle key) := by
  have hinv := inv_of_reachable h
  rw [← Stored.takesYoung_iff (hinv.orderly key)]
  refine ⟨fun hkept ↦ hkept.2.2.2, fun htakes ↦ ⟨fun key ↦ ?_, hinv.unique, hinv.closed, htakes⟩⟩
  exact ⟨(hinv.orderly key).keys, (hinv.orderly key).length_le, (hinv.orderly key).sorted⟩

/-- A GET on a new connection, which is given to the store afterwards; a second one takes it. -/
def pooling : List (Move Unit) :=
  [.send .get 0 false true, .go 0 0 (.begin (.ok ⟨[], false⟩) none),
    .go 0 1 (.resolved (.ok ⟨0, []⟩)), .go 0 2 (.connected (.ok (.ok ()))),
    .go 0 3 (.headerWritten (.ok true) 3),
    .go 0 4 (.headerRead (.ok ⟨(), true, some 0, 0, true⟩) 4), .send .get 0 false true,
    .go 1 5 (.begin (.ok ⟨[], false⟩) (some ⟨0, []⟩))]

/-- The connection is with the second call then, and nowhere else. -/
theorem store_invariant_iff_pooling :
    ∃ s, (sharedMachine Unit {}).run { clock := 0 } pooling = some s ∧ s.At 0 (.call 1) ∧
      (∀ p, s.At 0 p → p = .call 1) ∧ s.Kept {} [] 5 := by
  obtain ⟨s, hs⟩ : ∃ s, (sharedMachine Unit {}).run { clock := 0 } pooling = some s := ⟨_, rfl⟩
  have hat : s.At 0 (.call 1) := by
    obtain rfl := Option.some.inj hs
    exact ⟨_, _, rfl, rfl, rfl⟩
  have hreachable : (sharedMachine Unit {}).Reachable s :=
    Machine.run_reachable pooling ⟨0, rfl⟩ hs
  have hkept := (store_invariant_iff hreachable [] 5).2
    (Stored.judged_of_representable (by decide) (by decide))
  exact ⟨s, hs, hat, fun p hp ↦ hkept.2.1 0 p _ hp hat, hkept⟩

/-- `std::chrono::milliseconds::max()`. -/
def keepForever : Options where
  idleTimeout := 2 ^ 63 - 1

/-- A connection that was given to the store a nanosecond ago has expired. -/
theorem keepForever_expires :
    ¬ ∀ options s, (sharedMachine Unit options).Reachable s →
      ∀ key now, s.clock ≤ now → s.Kept options key now := by
  intro h
  obtain ⟨s, hs⟩ : ∃ s, (sharedMachine Unit keepForever).run { clock := 0 } (pooling.take 6) =
      some s := ⟨_, rfl⟩
  have hkept := h keepForever s (Machine.run_reachable (pooling.take 6) ⟨0, rfl⟩ hs) [] 5
  obtain rfl := Option.some.inj hs
  have hnone := (hkept (by decide)).2.2.2.2 (by decide) ⟨⟨0, []⟩, 4⟩ (by decide)
  exact hnone (by decide)

end Shared

end CppGate.HttpClient
