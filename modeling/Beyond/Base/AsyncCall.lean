import Mathlib.Data.List.Basic
import Beyond.Base.Run

/-!
# Asynchronous calls

A service accepts calls and completes them in the order in which it has accepted them, each with
success or without.  The caller is told of the completions in this order, and a success leaves an
output for it, to be taken in this order, too.

* `step` is the service with its caller;
* `Served` is what the caller may rely on, `served` that it may after every run;
* `exec_tells` is for a caller that is told of several completions at once.
-/

namespace Beyond
namespace AsyncCall

structure State (κ : Type*) where
  accepted : List κ
  /-- How the calls have ended, in the order of the calls. -/
  outcomes : List Bool
  /-- How many of the completions the caller was told of. -/
  told : Nat
  /-- How many outputs it has taken. -/
  taken : Nat
  deriving DecidableEq, Repr

inductive Act (κ : Type*)
  | accept (call : κ)
  | complete (ok : Bool)
  | tell
  | take
  deriving DecidableEq, Repr

variable {κ : Type*}

def State.start : State κ := ⟨[], [], 0, 0⟩

def step (s : State κ) : Act κ → Option (State κ)
  | .accept call => some { s with accepted := s.accepted ++ [call] }
  | .complete ok =>
      if s.outcomes.length < s.accepted.length then
        some { s with outcomes := s.outcomes ++ [ok] }
      else none
  | .tell => if s.told < s.outcomes.length then some { s with told := s.told + 1 } else none
  | .take => if s.taken < s.outcomes.count true then some { s with taken := s.taken + 1 } else none

/-! ## What the caller sees -/

/-- The calls that have ended with success. -/
def successes (calls : List (κ × Bool)) : List κ := (calls.filter Prod.snd).map Prod.fst

namespace State

variable (s : State κ)

def completed : List (κ × Bool) := s.accepted.zip s.outcomes

/-- The completions that the caller was told of. -/
def toldCalls : List (κ × Bool) := s.completed.take s.told

/-- The calls whose outputs it has taken. -/
def takenCalls : List κ := (successes s.completed).take s.taken

end State

/-- What the caller may rely on. -/
structure Served (s : State κ) : Prop where
  /-- It was told of the first calls, once each and in order. -/
  told : s.toldCalls.map Prod.fst = s.accepted.take s.told ∧ s.told ≤ s.accepted.length
  /-- The outputs that it takes are those of the successes that it is told of, in the same order. -/
  matched : successes s.toldCalls <+: s.takenCalls ∨ s.takenCalls <+: successes s.toldCalls
  taken : s.takenCalls.length = s.taken
  /-- Behind a success there is an output, so that taking it does not block. -/
  ready : s.taken < (successes s.toldCalls).length → (step s .take).isSome = true

/-! ## Lists -/

theorem successes_append (calls calls' : List (κ × Bool)) :
    successes (calls ++ calls') = successes calls ++ successes calls' := by
  simp [successes]

theorem successes_prefix {calls calls' : List (κ × Bool)} (h : calls <+: calls') :
    successes calls <+: successes calls' :=
  (h.filter _).map _

theorem map_fst_zip {accepted : List κ} {outcomes : List Bool}
    (h : outcomes.length ≤ accepted.length) :
    (accepted.zip outcomes).map Prod.fst = accepted.take outcomes.length := by
  induction accepted generalizing outcomes with
  | nil => simp
  | cons call accepted ih =>
      cases outcomes with
      | nil => rfl
      | cons ok outcomes =>
          have hrest := ih (Nat.le_of_succ_le_succ h)
          simp [hrest]

/-- There are as many outputs as successes. -/
theorem length_successes {accepted : List κ} {outcomes : List Bool}
    (h : outcomes.length ≤ accepted.length) :
    (successes (accepted.zip outcomes)).length = outcomes.count true := by
  induction accepted generalizing outcomes with
  | nil =>
      have hnil : outcomes = [] := List.eq_nil_of_length_eq_zero (Nat.le_zero.1 h)
      rw [hnil]
      rfl
  | cons call accepted ih =>
      cases outcomes with
      | nil => rfl
      | cons ok outcomes =>
          have hrest := ih (Nat.le_of_succ_le_succ h)
          cases ok with
          | true => simpa [successes] using hrest
          | false => simpa [successes] using hrest

/-! ## The invariant -/

structure Inv (s : State κ) : Prop where
  outcomes : s.outcomes.length ≤ s.accepted.length
  told : s.told ≤ s.outcomes.length
  taken : s.taken ≤ s.outcomes.count true

theorem inv_start : Inv (State.start : State κ) :=
  ⟨Nat.le_refl 0, Nat.le_refl 0, Nat.le_refl 0⟩

theorem inv_step {s s' : State κ} {a : Act κ} (hs : Inv s) (h : step s a = some s') : Inv s' := by
  cases a with
  | accept call =>
      cases h
      refine ⟨?_, hs.told, hs.taken⟩
      simpa using Nat.le_succ_of_le hs.outcomes
  | complete ok =>
      simp only [step] at h
      split at h
      · rename_i hlt
        cases h
        refine ⟨by simpa using Nat.succ_le_of_lt hlt, ?_, ?_⟩
        · simpa using Nat.le_succ_of_le hs.told
        · rw [List.count_append]
          exact Nat.le_add_right_of_le hs.taken
      · cases h
  | tell =>
      simp only [step] at h
      split at h
      · rename_i hlt
        cases h
        exact ⟨hs.outcomes, hlt, hs.taken⟩
      · cases h
  | take =>
      simp only [step] at h
      split at h
      · rename_i hlt
        cases h
        exact ⟨hs.outcomes, hs.told, hlt⟩
      · cases h

theorem Inv.served {s : State κ} (hs : Inv s) : Served s := by
  have hlength := length_successes hs.outcomes
  have hprefix : successes s.toldCalls <+: successes s.completed :=
    successes_prefix (List.take_prefix _ _)
  refine ⟨⟨?_, Nat.le_trans hs.told hs.outcomes⟩, ?_, ?_, fun hlt => ?_⟩
  · calc s.toldCalls.map Prod.fst
        = (s.completed.map Prod.fst).take s.told := List.map_take
      _ = (s.accepted.take s.outcomes.length).take s.told := by
          rw [State.completed, map_fst_zip hs.outcomes]
      _ = s.accepted.take s.told := by rw [List.take_take, Nat.min_eq_left hs.told]
  · exact List.prefix_or_prefix_of_prefix hprefix (List.take_prefix _ _)
  · rw [State.takenCalls, List.length_take]
    exact Nat.min_eq_left (hlength ▸ hs.taken)
  · -- A success that was told of is one of the successes.
    have hcount : s.taken < s.outcomes.count true := by
      rw [← hlength]
      exact Nat.lt_of_lt_of_le hlt hprefix.length_le
    simp [step, hcount]

theorem served {as : List (Act κ)} {s : State κ}
    (hexec : Run.exec step State.start as = some s) : Served s :=
  (Run.exec_preserved (fun _ _ _ hs h => inv_step hs h) inv_start hexec).served

/-! ## Several completions at once -/

theorem exec_tells {s : State κ} {n : Nat} (h : s.told + n ≤ s.outcomes.length) :
    Run.exec step s (List.replicate n .tell) = some { s with told := s.told + n } := by
  induction n generalizing s with
  | zero => rfl
  | succ n ih =>
      have hlt : s.told < s.outcomes.length := by omega
      have hrest : s.told + 1 + n ≤ s.outcomes.length := by omega
      rw [List.replicate_succ, Run.exec_cons]
      simp only [step, hlt, if_true, Option.bind_some]
      rw [ih hrest, Nat.add_right_comm]
      rfl

end AsyncCall
end Beyond
