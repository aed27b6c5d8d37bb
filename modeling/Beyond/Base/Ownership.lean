import Mathlib.Data.List.Nodup
import Mathlib.Logic.Function.Basic

/-!
# Ownership of records

Records on a heap are passed around as pointers: through pipes, into calls, back to an allocator.  At
any time several parties each hold a list of pointers.  The records are owned when no pointer is held
twice and every held pointer leads to a record.  Allocation, writes through a held pointer, handing
one over and deleting keep it so, and nobody sees what happens behind the pointers of somebody else.
-/

namespace Beyond

variable {κ ρ υ : Type*}

/-- `holding` lists the pointers that each party has. -/
structure Owned (holding : κ → List ρ) (heap : ρ → Option υ) : Prop where
  nodup : ∀ k, (holding k).Nodup
  disjoint : ∀ j k a, a ∈ holding j → a ∈ holding k → j = k
  live : ∀ k, ∀ a ∈ holding k, (heap a).isSome = true

namespace Owned

variable {holding : κ → List ρ} {heap : ρ → Option υ}

theorem not_mem_of_fresh (h : Owned holding heap) {a : ρ} (ha : heap a = none) (k : κ) :
    a ∉ holding k := by
  intro hmem
  have hlive := h.live k a hmem
  simp [ha] at hlive

theorem not_mem_of_ne (h : Owned holding heap) {j k : κ} {a : ρ} (ha : a ∈ holding j)
    (hjk : j ≠ k) : a ∉ holding k := fun hmem => hjk (h.disjoint j k a ha hmem)

/-- Pointers may be forgotten. -/
theorem mono (h : Owned holding heap) {kept : κ → List ρ}
    (hkept : ∀ k, (kept k).Sublist (holding k)) : Owned kept heap where
  nodup k := (hkept k).nodup (h.nodup k)
  disjoint j k a hj hk := h.disjoint j k a ((hkept j).mem hj) ((hkept k).mem hk)
  live k a ha := h.live k a ((hkept k).mem ha)

/-- The first pointer of one party goes to another one. -/
theorem move [DecidableEq κ] (h : Owned holding heap) {j k : κ} {a : ρ} {rest : List ρ}
    (hj : holding j = a :: rest) (hjk : j ≠ k) :
    Owned (Function.update (Function.update holding j rest) k (holding k ++ [a])) heap := by
  have ha : a ∈ holding j := by rw [hj]; exact List.mem_cons_self
  have hrest : a ∉ rest ∧ rest.Nodup := List.nodup_cons.1 (hj ▸ h.nodup j)
  have hmem : ∀ i b,
      b ∈ Function.update (Function.update holding j rest) k (holding k ++ [a]) i →
        (b ∈ holding i ∧ b ≠ a) ∨ (b = a ∧ i = k) := by
    intro i b hb
    by_cases hik : i = k
    · subst hik
      rw [Function.update_self, List.mem_append, List.mem_singleton] at hb
      rcases hb with hb | hb
      · exact .inl ⟨hb, fun heq => h.not_mem_of_ne ha hjk (heq ▸ hb)⟩
      · exact .inr ⟨hb, rfl⟩
    · rw [Function.update_of_ne hik] at hb
      by_cases hij : i = j
      · subst hij
        rw [Function.update_self] at hb
        exact .inl ⟨by rw [hj]; exact List.mem_cons_of_mem _ hb, fun heq => hrest.1 (heq ▸ hb)⟩
      · rw [Function.update_of_ne hij] at hb
        exact .inl ⟨hb, fun heq => h.not_mem_of_ne ha (Ne.symm hij) (heq ▸ hb)⟩
  refine ⟨fun i => ?_, fun i i' b hi hi' => ?_, fun i b hb => ?_⟩
  · by_cases hik : i = k
    · subst hik
      rw [Function.update_self, List.nodup_append]
      refine ⟨h.nodup i, List.nodup_singleton a, fun b hb c hc heq => ?_⟩
      rw [List.mem_singleton] at hc
      exact h.not_mem_of_ne ha hjk (hc ▸ heq ▸ hb)
    · rw [Function.update_of_ne hik]
      by_cases hij : i = j
      · subst hij
        rw [Function.update_self]
        exact hrest.2
      · rw [Function.update_of_ne hij]
        exact h.nodup i
  · rcases hmem i b hi with ⟨hi, hne⟩ | ⟨heq, rfl⟩
    · rcases hmem i' b hi' with ⟨hi', -⟩ | ⟨heq, -⟩
      · exact h.disjoint i i' b hi hi'
      · exact absurd heq hne
    · rcases hmem i' b hi' with ⟨-, hne⟩ | ⟨-, rfl⟩
      · exact absurd heq hne
      · rfl
  · rcases hmem i b hb with ⟨hb, -⟩ | ⟨heq, -⟩
    · exact h.live i b hb
    · exact heq ▸ h.live j a ha

variable [DecidableEq ρ]

theorem live_update {a : ρ} {v : υ} {b : ρ} (hb : (heap b).isSome = true) :
    (Function.update heap a (some v) b).isSome = true := by
  by_cases hba : b = a
  · subst hba
    simp
  · rwa [Function.update_of_ne hba]

/-- A write through a pointer. -/
theorem store (h : Owned holding heap) (a : ρ) (v : υ) :
    Owned holding (Function.update heap a (some v)) :=
  ⟨h.nodup, h.disjoint, fun k b hb => live_update (h.live k b hb)⟩

variable [DecidableEq κ]

/-- A new record. -/
theorem alloc (h : Owned holding heap) {a : ρ} (ha : heap a = none) (k : κ) (v : υ) :
    Owned (Function.update holding k (holding k ++ [a])) (Function.update heap a (some v)) := by
  have hfresh := h.not_mem_of_fresh ha
  -- Who holds the new pointer is `k`.
  have hmem : ∀ j b, b ∈ Function.update holding k (holding k ++ [a]) j →
      b ∈ holding j ∨ (b = a ∧ j = k) := by
    intro j b hb
    by_cases hjk : j = k
    · subst hjk
      simpa using hb
    · rw [Function.update_of_ne hjk] at hb
      exact .inl hb
  refine ⟨fun j => ?_, fun i j b hi hj => ?_, fun j b hb => ?_⟩
  · by_cases hjk : j = k
    · subst hjk
      rw [Function.update_self, List.nodup_append]
      refine ⟨h.nodup j, List.nodup_singleton a, fun b hb c hc heq => ?_⟩
      rw [List.mem_singleton] at hc
      exact hfresh j (hc ▸ heq ▸ hb)
    · rw [Function.update_of_ne hjk]
      exact h.nodup j
  · rcases hmem i b hi with hbi | ⟨rfl, rfl⟩
    · rcases hmem j b hj with hbj | ⟨rfl, rfl⟩
      · exact h.disjoint i j b hbi hbj
      · exact absurd hbi (hfresh i)
    · rcases hmem j b hj with hbj | ⟨-, rfl⟩
      · exact absurd hbj (hfresh j)
      · rfl
  · rcases hmem j b hb with hb | ⟨rfl, -⟩
    · exact live_update (h.live j b hb)
    · simp

/-- A record is deleted by the party that has its pointer. -/
theorem free (h : Owned holding heap) {k : κ} {a : ρ} (ha : a ∈ holding k) :
    Owned (Function.update holding k ((holding k).erase a)) (Function.update heap a none) := by
  have hmem : ∀ j b, b ∈ Function.update holding k ((holding k).erase a) j →
      b ∈ holding j ∧ b ≠ a := by
    intro j b hb
    by_cases hjk : j = k
    · subst hjk
      rw [Function.update_self] at hb
      have hb' := (h.nodup j).mem_erase_iff.1 hb
      exact ⟨hb'.2, hb'.1⟩
    · rw [Function.update_of_ne hjk] at hb
      exact ⟨hb, fun heq => h.not_mem_of_ne ha (Ne.symm hjk) (heq ▸ hb)⟩
  refine ⟨fun j => ?_, fun i j b hi hj => h.disjoint i j b (hmem i b hi).1 (hmem j b hj).1,
    fun j b hb => ?_⟩
  · by_cases hjk : j = k
    · subst hjk
      rw [Function.update_self]
      exact (h.nodup j).erase a
    · rw [Function.update_of_ne hjk]
      exact h.nodup j
  · rw [Function.update_of_ne (hmem j b hb).2]
    exact h.live j b (hmem j b hb).1

end Owned

end Beyond
