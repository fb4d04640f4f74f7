import Mathlib.Data.List.Basic

/-!
# Messages in a stream

A receiver that takes messages off a stream one after the other, knowing of each what to expect. It
needs nothing but the stream where every message tells its own end (`Delimits`); then what it reads
is what was written (`readAll_flatMap`).
-/

universe u v w

namespace Framing

variable {ι : Type u} {α : Type v} {β : Type w}

/-- A receiver takes a message of the expected kind off the front of a stream. -/
abbrev Reader (ι : Type u) (α : Type v) (β : Type w) : Type (max u v w) :=
  ι → List α → Option (β × List α)

/-- Whatever follows them, these octets are read as that message. -/
def Delimits (read : Reader ι α β) (kind : ι) (octets : List α) (message : β) : Prop :=
  ∀ rest, read kind (octets ++ rest) = some (message, rest)

/-- Read one message of each kind, and nothing must be left. -/
def readAll (read : Reader ι α β) : List ι → List α → Option (List β)
  | [], [] => some []
  | [], _ :: _ => none
  | kind :: kinds, stream =>
    match read kind stream with
    | some (message, rest) => (readAll read kinds rest).map (message :: ·)
    | none => none

/-- **Messages that tell their end are read back**, in order and with nothing left. -/
theorem readAll_flatMap {γ : Type*} {read : Reader ι α β} {kind : γ → ι} {octets : γ → List α}
    {message : γ → β} {xs : List γ}
    (h : ∀ x ∈ xs, Delimits read (kind x) (octets x) (message x)) :
    readAll read (xs.map kind) (xs.flatMap octets) = some (xs.map message) := by
  induction xs with
  | nil => rfl
  | cons x xs ih =>
    have hfirst := h x List.mem_cons_self (xs.flatMap octets)
    have hrest := ih fun y hy ↦ h y (List.mem_cons_of_mem x hy)
    rw [List.map_cons, List.flatMap_cons, readAll, hfirst]
    dsimp only
    rw [hrest]
    rfl

end Framing
