import CppGate.HttpClient.Client

/-!
# The connections of a key

The vector of idle connections that the store keeps for a key, its back first. Connections have an
identity here, which of the allocated ones it is: the store and the calls move them, and none is
ever copied. Of what takeIdle() does one lemma says all (`takeIdle_spec`): it pops the connections
that have expired up to a fresh one. `Orderly` is what the store promises of each vector.

takeIdle() calls fresh what has been idle for less than the timeout in 64-bit nanoseconds, and the
conversion wraps: for the largest number of milliseconds nothing is ever fresh. Since the newest
connection decides, takeIdle() does what it should exactly if it judges that one right
(`takesYoung_iff`).
-/

namespace CppGate.HttpClient

/-- `Connection`: which one, and what for. -/
structure Conn where
  id : ℕ
  key : Text
  deriving DecidableEq, Repr

/-- A connection in the store. -/
structure Stored where
  conn : Conn
  idleSince : Time
  deriving DecidableEq, Repr

namespace Stored

/-- What takeIdle() takes. -/
def Fresh (options : Options) (now : Time) (stored : Stored) : Prop :=
  now - stored.idleSince < options.idleNanos

instance (options : Options) (now : Time) (stored : Stored) :
    Decidable (stored.Fresh options now) :=
  inferInstanceAs (Decidable (_ < _))

/-- The loop of takeIdle(). -/
def takeIdle (options : Options) (now : Time) : List Stored → Option Conn × List Stored
  | [] => (none, [])
  | stored :: rest =>
    if stored.Fresh options now then (some stored.conn, rest) else takeIdle options now rest

/-- A connection in the store of a client with wires; `view` says which one it is. -/
def ofIdle (view : Connection → Conn) (idle : Idle) : Stored where
  conn := view idle.connection
  idleSince := idle.idleSince

/-- The same connection is found there, and the same ones are left. -/
theorem takeIdle_map (options : Options) (now : Time) (view : Connection → Conn)
    (list : List Idle) : takeIdle options now (list.map (ofIdle view)) =
      ((HttpClient.takeIdle options now list).1.map view,
        (HttpClient.takeIdle options now list).2.map (ofIdle view)) := by
  induction list with
  | nil => rfl
  | cons idle list ih =>
    rw [List.map_cons, takeIdle, HttpClient.takeIdle]
    by_cases hfresh : (ofIdle view idle).Fresh options now
    · have hidle : now - idle.idleSince < options.idleNanos := hfresh
      rw [if_pos hfresh, if_pos hidle]
      rfl
    · have hidle : ¬ now - idle.idleSince < options.idleNanos := hfresh
      rw [if_neg hfresh, if_neg hidle, ih]

/-- What takeIdle() finds and leaves: of the first `n` connections all but the last have expired,
and the last one is found; or all have expired. -/
theorem takeIdle_spec (options : Options) (now : Time) (list : List Stored) :
    ∃ n, (takeIdle options now list).2 = list.drop n ∧
      match (takeIdle options now list).1 with
      | some conn => ∃ m stored, n = m + 1 ∧ list[m]? = some stored ∧ stored.conn = conn ∧
        stored.Fresh options now ∧ ∀ old ∈ list.take m, ¬ old.Fresh options now
      | none => ∀ old ∈ list, ¬ old.Fresh options now := by
  induction list with
  | nil => exact ⟨0, rfl, fun old hold ↦ absurd hold List.not_mem_nil⟩
  | cons stored rest ih =>
    rw [takeIdle]
    by_cases hfresh : stored.Fresh options now
    · rw [if_pos hfresh]
      exact ⟨1, rfl, 0, stored, rfl, rfl, rfl, hfresh, fun old hold ↦ absurd hold List.not_mem_nil⟩
    · rw [if_neg hfresh]
      obtain ⟨n, hrest, hfound⟩ := ih
      refine ⟨n + 1, hrest, ?_⟩
      cases hconn : (takeIdle options now rest).1 with
      | none =>
        rw [hconn] at hfound
        exact List.forall_mem_cons.2 ⟨hfresh, hfound⟩
      | some conn =>
        rw [hconn] at hfound
        obtain ⟨m, found, rfl, hget, hself, hfound, hold⟩ := hfound
        exact ⟨m + 1, found, rfl, hget, hself, hfound, List.forall_mem_cons.2 ⟨hfresh, hold⟩⟩

/-! ### What is promised of a vector -/

/-- The connections of a key at a time: all are for the key, they are not too many, and the back is
the newest. -/
structure Orderly (options : Options) (clock : Time) (key : Text) (list : List Stored) : Prop where
  keys : ∀ stored ∈ list, stored.conn.key = key
  length_le : list.length ≤ options.maxIdlePerHost
  sorted : list.Pairwise fun newer older ↦ older.idleSince ≤ newer.idleSince
  past : ∀ stored ∈ list, stored.idleSince ≤ clock

variable {options : Options} {clock now : Time} {key : Text} {list : List Stored}

/-- An empty vector. -/
theorem orderly_nil : Orderly options clock key [] where
  keys _ h := absurd h List.not_mem_nil
  length_le := Nat.zero_le _
  sorted := List.Pairwise.nil
  past _ h := absurd h List.not_mem_nil

/-- Connections are popped from the back. -/
theorem Orderly.drop (h : Orderly options clock key list) (n : ℕ) :
    Orderly options clock key (list.drop n) where
  keys stored hstored := h.keys stored (List.mem_of_mem_drop hstored)
  length_le := (List.length_drop.trans_le (Nat.sub_le _ _)).trans h.length_le
  sorted := h.sorted.drop
  past stored hstored := h.past stored (List.mem_of_mem_drop hstored)

/-- Time passes. -/
theorem Orderly.mono (h : Orderly options clock key list) (hnow : clock ≤ now) :
    Orderly options now key list :=
  { h with past := fun stored hstored ↦ (h.past stored hstored).trans hnow }

/-- The newest connection is pushed to the back. -/
theorem Orderly.cons (h : Orderly options clock key list) {conn : Conn} (hkey : conn.key = key)
    (hroom : list.length < options.maxIdlePerHost) :
    Orderly options clock key (⟨conn, clock⟩ :: list) where
  keys := List.forall_mem_cons.2 ⟨hkey, h.keys⟩
  length_le := hroom
  sorted := List.pairwise_cons.2 ⟨h.past, h.sorted⟩
  past := List.forall_mem_cons.2 ⟨le_rfl, h.past⟩

/-! ### Connections that have not expired -/

/-- Idle for less than `idle_timeout`. -/
def Young (options : Options) (now : Time) (stored : Stored) : Prop :=
  now - stored.idleSince < options.idleTimeout * 1000000

instance (options : Options) (now : Time) (stored : Stored) :
    Decidable (stored.Young options now) :=
  inferInstanceAs (Decidable (_ < _))

/-- What is promised of takeIdle() for a key: a connection of the key that has not expired, and
nothing only if all have. -/
def TakesYoung (options : Options) (now : Time) (key : Text) (list : List Stored) : Prop :=
  (∀ conn, (takeIdle options now list).1 = some conn → conn.key = key ∧
    ∃ stored ∈ list, stored.conn = conn ∧ stored.Young options now) ∧
  ((takeIdle options now list).1 = none → ∀ stored ∈ list, ¬ stored.Young options now)

/-- The newest connection is judged as it should be. -/
def Judged (options : Options) (now : Time) (list : List Stored) : Prop :=
  ∀ newest ∈ list.head?, newest.Fresh options now ↔ newest.Young options now

instance (options : Options) (now : Time) (list : List Stored) :
    Decidable (Judged options now list) :=
  inferInstanceAs (Decidable (∀ newest ∈ list.head?, _))

/-- A timeout that is representable in nanoseconds is compared as it is. -/
theorem judged_of_representable (hlo : -2 ^ 63 ≤ options.idleTimeout * 1000000)
    (hhi : options.idleTimeout * 1000000 < 2 ^ 63) : Judged options now list := by
  intro newest _
  rw [Fresh, Young, Options.idleNanos, Word.signed_eq_self hlo hhi]

/-- The newest connection has been idle for the shortest time. -/
theorem Orderly.elapsed_le {newest : Stored} {rest : List Stored}
    (h : Orderly options clock key (newest :: rest)) (now : Time) :
    ∀ stored ∈ newest :: rest, now - newest.idleSince ≤ now - stored.idleSince :=
  List.forall_mem_cons.2 ⟨le_rfl, fun stored hstored ↦
    Int.sub_le_sub_left ((List.pairwise_cons.1 h.sorted).1 stored hstored) now⟩

/-- If the newest connection has expired, all have. -/
theorem Orderly.not_young {newest : Stored} {rest : List Stored}
    (h : Orderly options clock key (newest :: rest)) (hnewest : ¬ newest.Young options now) :
    ∀ stored ∈ newest :: rest, ¬ stored.Young options now :=
  fun stored hstored hyoung ↦ hnewest ((h.elapsed_le now stored hstored).trans_lt hyoung)

/-- If the newest connection is not taken, none is. -/
theorem Orderly.takeIdle_none {newest : Stored} {rest : List Stored}
    (h : Orderly options clock key (newest :: rest)) (hnewest : ¬ newest.Fresh options now) :
    (takeIdle options now (newest :: rest)).1 = none := by
  obtain ⟨n, -, hfound⟩ := takeIdle_spec options now (newest :: rest)
  cases htake : (takeIdle options now (newest :: rest)).1 with
  | none => rfl
  | some conn =>
    rw [htake] at hfound
    obtain ⟨m, stored, -, hget, -, hfresh, -⟩ := hfound
    have hle := h.elapsed_le now stored (List.mem_of_getElem? hget)
    exact absurd (hle.trans_lt hfresh) hnewest

/-- **takeIdle() keeps its promise** exactly if it judges the newest connection right. -/
theorem takesYoung_iff (h : Orderly options clock key list) :
    TakesYoung options now key list ↔ Judged options now list := by
  cases list with
  | nil =>
    refine iff_of_true ⟨fun conn hconn ↦ ?_, fun _ ↦ List.forall_mem_nil _⟩ fun newest hnewest ↦ ?_
    · cases hconn
    · cases hnewest
  | cons newest rest =>
    have hjudged : Judged options now (newest :: rest) ↔
        (newest.Fresh options now ↔ newest.Young options now) :=
      ⟨fun hall ↦ hall newest rfl, fun heq _ hmem ↦ Option.some.inj hmem ▸ heq⟩
    rw [hjudged]
    by_cases hfresh : newest.Fresh options now
    · have htake : (takeIdle options now (newest :: rest)).1 = some newest.conn := by
        rw [takeIdle, if_pos hfresh]
      rw [TakesYoung, htake]
      refine ⟨fun hpromise ↦ iff_of_true hfresh ?_, fun heq ↦ ⟨?_, fun hnone ↦ (by cases hnone)⟩⟩
      · by_contra hold
        obtain ⟨-, stored, hstored, -, hyoung⟩ := hpromise.1 newest.conn rfl
        exact h.not_young hold stored hstored hyoung
      · rintro conn hconn
        obtain rfl := Option.some.inj hconn
        exact ⟨h.keys newest List.mem_cons_self, newest, List.mem_cons_self, rfl, heq.1 hfresh⟩
    · rw [TakesYoung, h.takeIdle_none hfresh]
      refine ⟨fun hpromise ↦ iff_of_false hfresh (hpromise.2 rfl newest List.mem_cons_self),
        fun heq ↦ ⟨fun conn hconn ↦ (by cases hconn), fun _ ↦ ?_⟩⟩
      exact h.not_young fun hyoung ↦ hfresh (heq.2 hyoung)

end Stored

end CppGate.HttpClient
