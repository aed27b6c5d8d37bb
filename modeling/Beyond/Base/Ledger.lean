import Mathlib.Data.List.Count
import Mathlib.Data.List.Perm.Basic
import Mathlib.Logic.Function.Basic

/-!
# A ledger of allocations

The blocks that an allocator gives out are numbered, and the ledger counts how often each of them is
released.  A program holds blocks in its variables, its records and its queues.  It is balanced when
every block that was given out is either held in one place and not released, or released once and held
nowhere; this excludes leaks, double releases and pointers that are left behind.
-/

namespace Beyond

structure Ledger where
  allocated : Nat
  releases : Nat → Nat

namespace Ledger

def empty : Ledger := ⟨0, fun _ => 0⟩

/-- The block that is given out has the number `l.allocated`. -/
def alloc (l : Ledger) : Ledger := { l with allocated := l.allocated + 1 }

def free (l : Ledger) (a : Nat) : Ledger :=
  { l with releases := Function.update l.releases a (l.releases a + 1) }

def freeAll (l : Ledger) : List Nat → Ledger
  | [] => l
  | a :: as => (l.free a).freeAll as

/-- `held` lists the blocks that the program holds, each as often as it holds it. -/
structure Balanced (l : Ledger) (held : List Nat) : Prop where
  once : ∀ a < l.allocated, l.releases a + held.count a = 1
  fresh : ∀ a, l.allocated ≤ a → l.releases a + held.count a = 0

@[simp] theorem allocated_alloc (l : Ledger) : l.alloc.allocated = l.allocated + 1 := rfl

@[simp] theorem releases_alloc (l : Ledger) : l.alloc.releases = l.releases := rfl

@[simp] theorem allocated_free (l : Ledger) (a : Nat) : (l.free a).allocated = l.allocated := rfl

@[simp] theorem releases_free_self (l : Ledger) (a : Nat) :
    (l.free a).releases a = l.releases a + 1 := Function.update_self ..

@[simp] theorem releases_free_of_ne (l : Ledger) {a b : Nat} (hba : b ≠ a) :
    (l.free a).releases b = l.releases b := Function.update_of_ne hba ..

/-- What was released stays so. -/
theorem releases_le_free (l : Ledger) (a b : Nat) : l.releases b ≤ (l.free a).releases b := by
  by_cases heq : b = a
  · subst heq
    rw [releases_free_self]
    exact Nat.le_succ _
  · exact Nat.le_of_eq (releases_free_of_ne l heq).symm

@[simp] theorem freeAll_nil (l : Ledger) : l.freeAll [] = l := rfl

@[simp] theorem freeAll_cons (l : Ledger) (a : Nat) (as : List Nat) :
    l.freeAll (a :: as) = (l.free a).freeAll as := rfl

theorem freeAll_append (l : Ledger) (as bs : List Nat) :
    l.freeAll (as ++ bs) = (l.freeAll as).freeAll bs := by
  induction as generalizing l with
  | nil => rfl
  | cons a as ih => exact ih (l.free a)

@[simp] theorem allocated_freeAll (l : Ledger) (as : List Nat) :
    (l.freeAll as).allocated = l.allocated := by
  induction as generalizing l with
  | nil => rfl
  | cons a as ih => exact ih (l.free a)

namespace Balanced

variable {l : Ledger} {held held' : List Nat} {a : Nat}

theorem empty : Ledger.empty.Balanced [] :=
  ⟨fun a ha => absurd ha (Nat.not_lt_zero a), fun _ _ => rfl⟩

/-- Only how often a block is held counts, not where. -/
theorem congr (h : l.Balanced held) (hcount : ∀ a, held'.count a = held.count a) :
    l.Balanced held' where
  once a ha := (congrArg (l.releases a + ·) (hcount a)).trans (h.once a ha)
  fresh a ha := (congrArg (l.releases a + ·) (hcount a)).trans (h.fresh a ha)

theorem perm (h : l.Balanced held) (hperm : held.Perm held') : l.Balanced held' :=
  h.congr fun a => (hperm.count_eq a).symm

/-- A block that is given out is held from then on. -/
theorem alloc (h : l.Balanced held) : l.alloc.Balanced (l.allocated :: held) where
  once a ha := by
    rw [releases_alloc, List.count_cons]
    by_cases heq : l.allocated = a
    · subst heq
      have hsum := h.fresh l.allocated (Nat.le_refl _)
      simp only [beq_self_eq_true, if_true]
      omega
    · rw [allocated_alloc] at ha
      have hsum := h.once a (by omega)
      simpa [heq] using hsum
  fresh a ha := by
    rw [allocated_alloc] at ha
    have hne : l.allocated ≠ a := by omega
    have hsum := h.fresh a (by omega)
    simpa [List.count_cons, hne] using hsum

/-- The sums that the ledger keeps do not change when a held block is released. -/
theorem releases_free (b : Nat) :
    (l.free a).releases b + held.count b = l.releases b + (a :: held).count b := by
  rw [List.count_cons]
  by_cases hab : a = b
  · subst hab
    simp only [releases_free_self, beq_self_eq_true, if_true]
    omega
  · have hba : b ≠ a := fun heq => hab heq.symm
    simp [hba, hab]

theorem free (h : l.Balanced (a :: held)) : (l.free a).Balanced held where
  once b hb := (releases_free b).trans (h.once b hb)
  fresh b hb := (releases_free b).trans (h.fresh b hb)

theorem freeAll {as : List Nat} (h : l.Balanced (as ++ held)) : (l.freeAll as).Balanced held := by
  induction as generalizing l with
  | nil => exact h
  | cons a as ih => exact ih h.free

theorem nodup (h : l.Balanced held) : held.Nodup := by
  rw [List.nodup_iff_count]
  intro a
  rcases Nat.lt_or_ge a l.allocated with ha | ha
  · have hsum := h.once a ha
    omega
  · have hsum := h.fresh a ha
    omega

/-- What is held can be used. -/
theorem live (h : l.Balanced held) (ha : a ∈ held) : a < l.allocated ∧ l.releases a = 0 := by
  have hcount := List.count_pos_iff.2 ha
  rcases Nat.lt_or_ge a l.allocated with hlt | hge
  · have hsum := h.once a hlt
    exact ⟨hlt, by omega⟩
  · have hsum := h.fresh a hge
    omega

/-- What nobody holds was released once. -/
theorem released (h : l.Balanced held) (ha : a < l.allocated) (hheld : a ∉ held) :
    l.releases a = 1 := by
  have hsum := h.once a ha
  rwa [List.count_eq_zero_of_not_mem hheld] at hsum

/-- Blocks that the program loses sight of leave it out of balance. -/
theorem iff_none_lost {lost : List Nat} (h : l.Balanced (lost ++ held)) :
    l.Balanced held ↔ lost = [] := by
  constructor
  · intro hheld
    rw [List.eq_nil_iff_forall_not_mem]
    intro a ha
    have hcount := List.count_pos_iff.2 ha
    have hlt := (h.live (List.mem_append_left held ha)).1
    have hsum := h.once a hlt
    have hsum' := hheld.once a hlt
    rw [List.count_append] at hsum
    omega
  · rintro rfl
    exact h

end Balanced

/-- Between `l` and `l'` blocks were given out that are now in `held` or released, each once, and no
other block was released. -/
structure Grown (l l' : Ledger) (held : List Nat) : Prop where
  allocated_le : l.allocated ≤ l'.allocated
  recent : ∀ a ∈ held, l.allocated ≤ a
  sums : ∀ a, l'.releases a + held.count a =
    l.releases a + if l.allocated ≤ a ∧ a < l'.allocated then 1 else 0

namespace Grown

variable {l l' l'' : Ledger} {held held' : List Nat} {a : Nat}

theorem refl (l : Ledger) : l.Grown l [] where
  allocated_le := Nat.le_refl _
  recent _ ha := absurd ha List.not_mem_nil
  sums a := by
    have hnone : ¬ (l.allocated ≤ a ∧ a < l.allocated) := by omega
    rw [if_neg hnone]
    rfl

theorem alloc (l : Ledger) : l.Grown l.alloc [l.allocated] where
  allocated_le := Nat.le_succ _
  recent _ ha := Nat.le_of_eq (List.mem_singleton.1 ha).symm
  sums a := by
    rw [releases_alloc, allocated_alloc, List.count_singleton]
    by_cases heq : l.allocated = a
    · subst heq
      simp
    · have hnone : ¬ (l.allocated ≤ a ∧ a < l.allocated + 1) := by omega
      rw [if_neg hnone, beq_false_of_ne heq]
      rfl

theorem trans (h : l.Grown l' held) (h' : l'.Grown l'' held') : l.Grown l'' (held ++ held') where
  allocated_le := Nat.le_trans h.allocated_le h'.allocated_le
  recent a ha := by
    rcases List.mem_append.1 ha with ha | ha
    · exact h.recent a ha
    · exact Nat.le_trans h.allocated_le (h'.recent a ha)
  sums a := by
    have hle := h.allocated_le
    have hle' := h'.allocated_le
    have hsum := h.sums a
    have hsum' := h'.sums a
    rw [List.count_append]
    -- a block is given out on one of the two ways, or on none
    split at hsum <;> split at hsum' <;> split <;> omega

theorem free (h : l.Grown l' (a :: held)) : l.Grown (l'.free a) held where
  allocated_le := h.allocated_le
  recent b hb := h.recent b (List.mem_cons_of_mem a hb)
  sums b := (Balanced.releases_free b).trans (h.sums b)

theorem freeAll {as : List Nat} (h : l.Grown l' (as ++ held)) : l.Grown (l'.freeAll as) held := by
  induction as generalizing l' with
  | nil => exact h
  | cons a as ih => exact ih h.free

theorem perm (h : l.Grown l' held) (hperm : held.Perm held') : l.Grown l' held' where
  allocated_le := h.allocated_le
  recent a ha := h.recent a (hperm.mem_iff.2 ha)
  sums a := by rw [← hperm.count_eq a]; exact h.sums a

/-- What is held on the way balances the ledger again, together with what was held before. -/
theorem balanced {before : List Nat} (h : l.Grown l' held) (hl : l.Balanced before) :
    l'.Balanced (held ++ before) where
  once a ha := by
    have hsum := h.sums a
    rw [List.count_append, ← Nat.add_assoc, hsum]
    rcases Nat.lt_or_ge a l.allocated with hlt | hge
    · rw [if_neg fun hnew => Nat.not_le_of_lt hlt hnew.1]
      exact hl.once a hlt
    · rw [if_pos ⟨hge, ha⟩]
      have hfresh := hl.fresh a hge
      omega
  fresh a ha := by
    have hsum := h.sums a
    have hfresh := hl.fresh a (Nat.le_trans h.allocated_le ha)
    rw [List.count_append, ← Nat.add_assoc, hsum, if_neg fun hnew => Nat.not_le_of_lt hnew.2 ha]
    exact hfresh

/-- What is held is determined by the ledgers. -/
theorem not_of_mem (h : l.Grown l' held) (ha : a ∈ held) : ¬ l.Grown l' [] := by
  intro hnone
  have hcount := List.count_pos_iff.2 ha
  have hsum := h.sums a
  have hsum' := hnone.sums a
  rw [List.count_nil] at hsum'
  omega

/-- Where nothing is held, what was given out is released, and the rest is as it was. -/
theorem alive (h : l.Grown l' []) (ha : a < l'.allocated) (halive : l'.releases a = 0) :
    a < l.allocated ∧ l.releases a = 0 := by
  have hsum := h.sums a
  rw [halive, List.count_nil] at hsum
  split at hsum <;> omega

end Grown

/-- A program that is in balance. -/
structure Account where
  ledger : Ledger
  held : List Nat
  balanced : ledger.Balanced held

def Account.empty : Account := ⟨.empty, [], .empty⟩

end Ledger
end Beyond
