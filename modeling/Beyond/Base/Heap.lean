import Beyond.Base.Ledger

/-!
# An allocator that may refuse

The requests of one call are numbered, and `fails` says which of them the allocator refuses.  What a
piece of code leaves is said of the ledgers before and behind it, by `Ledger.Grown`.
-/

namespace Beyond

/-- A block of memory and what is in it. -/
structure Block (α : Type*) where
  address : Nat
  contents : α
  deriving DecidableEq, Repr

/-- `attempts` counts the requests of the call, refused or not. -/
structure Heap where
  ledger : Ledger
  attempts : Nat

namespace Heap

def start (l : Ledger) : Heap := ⟨l, 0⟩

def alloc (fails : Nat → Bool) (h : Heap) : Heap × Option Nat :=
  if fails h.attempts then (⟨h.ledger, h.attempts + 1⟩, none)
  else (⟨h.ledger.alloc, h.attempts + 1⟩, some h.ledger.allocated)

def free (h : Heap) (a : Nat) : Heap := { h with ledger := h.ledger.free a }

variable {fails : Nat → Bool} {h : Heap}

theorem alloc_of_fails (hfails : fails h.attempts = true) :
    h.alloc fails = (⟨h.ledger, h.attempts + 1⟩, none) := if_pos hfails

theorem alloc_of_not_fails (hfails : fails h.attempts = false) :
    h.alloc fails = (⟨h.ledger.alloc, h.attempts + 1⟩, some h.ledger.allocated) :=
  if_neg (by rw [hfails]; exact Bool.false_ne_true)

/-! ## A sequence of requests -/

/-- How a piece of code ends that stops at the first request that is refused. -/
inductive Ending
  | whole
  | refused
  | unreadable
  deriving DecidableEq, Repr

/-- The list says of each request whether what is to be copied cannot be read, which is noticed before
the allocator is asked. -/
def ending (fails : Nat → Bool) : Nat → List Bool → Ending
  | _, [] => .whole
  | n, unreadable :: rest =>
      if unreadable then .unreadable else if fails n then .refused else ending fails (n + 1) rest

theorem ending_append (fails : Nat → Bool) (n : Nat) (as bs : List Bool) :
    ending fails n (as ++ bs) =
      if ending fails n as = .whole then ending fails (n + as.length) bs else ending fails n as := by
  induction as generalizing n with
  | nil => rfl
  | cons a as ih =>
      cases a with
      | true => rfl
      | false =>
          have hrest := ih (n + 1)
          by_cases hfails : fails n = true
          · simp [ending, hfails]
          · simpa [ending, hfails, Nat.add_assoc, Nat.add_comm 1] using hrest

end Heap
end Beyond
