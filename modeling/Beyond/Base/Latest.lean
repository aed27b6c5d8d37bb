import Mathlib.Data.List.Induction
import Mathlib.Data.Option.Basic

/-!
# The latest of a list of updates

A register that some of the updates set and the others leave alone holds, behind a list of updates,
the latest value that was set.
-/

namespace Beyond

/-- The last value of a list of updates; `none` if no update sets one. -/
def latest {α : Type*} : List (Option α) → Option α
  | [] => none
  | u :: us => (latest us).or u

section Latest

variable {α β σ : Type*}

@[simp] theorem latest_nil : latest ([] : List (Option α)) = none := rfl

@[simp] theorem latest_cons (u : Option α) (us : List (Option α)) :
    latest (u :: us) = (latest us).or u := rfl

theorem latest_append (us vs : List (Option α)) :
    latest (us ++ vs) = (latest vs).or (latest us) := by
  induction us with
  | nil => simp
  | cons u us ih => simp [ih, Option.or_assoc]

theorem latest_concat (us : List (Option α)) (u : Option α) :
    latest (us ++ [u]) = u.or (latest us) := by
  simp [latest_append]

theorem latest_map (f : α → β) (us : List (Option α)) :
    latest (us.map (Option.map f)) = (latest us).map f := by
  induction us with
  | nil => rfl
  | cons u us ih => cases h : latest us <;> simp [ih, h]

theorem latest_eq_none_iff {us : List (Option α)} : latest us = none ↔ ∀ u ∈ us, u = none := by
  induction us with
  | nil => simp
  | cons u us ih =>
      rw [latest_cons, Option.or_eq_none_iff, ih]
      simp [and_comm]

/-- The latest value is the last of the values that were set. -/
theorem latest_map_eq_getLast? (f : β → Option α) (bs : List β) :
    latest (bs.map f) = (bs.filterMap f).getLast? := by
  induction bs using List.reverseRecOn with
  | nil => rfl
  | append_singleton bs b ih =>
      rw [List.map_append, List.map_singleton, latest_concat, List.filterMap_append, ih]
      cases h : f b <;> simp [h]

/-- A component that each step sets or keeps holds the latest value, or what it held at first. -/
theorem foldl_getD {step : σ → β → σ} {view : σ → α} {update : β → Option α}
    (h : ∀ s b, view (step s b) = (update b).getD (view s)) (s : σ) (bs : List β) :
    view (bs.foldl step s) = (latest (bs.map update)).getD (view s) := by
  induction bs generalizing s with
  | nil => rfl
  | cons b bs ih =>
      rw [List.foldl_cons, ih, h]
      cases hl : latest (bs.map update) <;> simp [hl]

/-- The same for a component that may hold nothing. -/
theorem foldl_or {step : σ → β → σ} {view : σ → Option α} {update : β → Option α}
    (h : ∀ s b, view (step s b) = (update b).or (view s)) (s : σ) (bs : List β) :
    view (bs.foldl step s) = (latest (bs.map update)).or (view s) := by
  induction bs generalizing s with
  | nil => rfl
  | cons b bs ih => rw [List.foldl_cons, ih, h, List.map_cons, latest_cons, Option.or_assoc]

/-- A component that each step sets holds what the last step gave it. -/
theorem foldl_last {step : σ → β → σ} {view : σ → α} {update : β → α}
    (h : ∀ s b, view (step s b) = update b) (s : σ) (bs : List β) :
    view (bs.foldl step s) = (bs.getLast?.map update).getD (view s) := by
  induction bs using List.reverseRecOn with
  | nil => rfl
  | append_singleton bs b _ => simp [h]

end Latest
end Beyond
