import Mathlib.Data.List.Nodup
import Mathlib.Data.Nat.ModEq

/-!
# 64-bit counters

A counter that starts at some number and is incremented modulo `2^64` runs through
`from n 0, from n 1, …`.  Two of its values can be equal only when they are a multiple of `2^64`
increments apart.
-/

namespace Beyond
namespace Counter

/-- The counter after `k` increments. -/
def after (n : UInt64) (k : Nat) : UInt64 := n + UInt64.ofNat k

/-- The first `k` values of the counter. -/
def values (n : UInt64) (k : Nat) : List UInt64 := (List.range k).map (after n)

@[simp] theorem after_zero (n : UInt64) : after n 0 = n := by
  simp [after]

theorem after_succ (n : UInt64) (k : Nat) : after n (k + 1) = after n k + 1 := by
  simp [after, UInt64.ofNat_add, UInt64.add_assoc]

theorem after_succ_left (n : UInt64) (k : Nat) : after n (k + 1) = after (n + 1) k := by
  rw [after_succ, after, after, UInt64.add_assoc, UInt64.add_assoc, UInt64.add_comm 1]

@[simp] theorem length_values (n : UInt64) (k : Nat) : (values n k).length = k := by
  simp [values]

theorem values_succ (n : UInt64) (k : Nat) : values n (k + 1) = values n k ++ [after n k] := by
  simp [values, List.range_succ]

theorem getElem?_values {n : UInt64} {k i : Nat} (h : i < k) :
    (values n k)[i]? = some (after n i) := by
  simp [values, h]

theorem after_eq_iff {n : UInt64} {i j : Nat} : after n i = after n j ↔ i ≡ j [MOD 2 ^ 64] := by
  unfold after
  rw [UInt64.add_right_inj, ← UInt64.toNat_inj]
  simp [Nat.ModEq]

/-- No value comes back within `2^64` increments. -/
theorem after_ne {n : UInt64} {i j : Nat} (hlt : i < j) (hgap : j < i + 2 ^ 64) :
    after n i ≠ after n j := by
  rw [Ne, after_eq_iff, Nat.ModEq]
  omega

/-- The first `2^64` values of a counter are distinct. -/
theorem nodup_values (n : UInt64) {k : Nat} (h : k ≤ 2 ^ 64) : (values n k).Nodup := by
  refine List.Nodup.map_on ?_ List.nodup_range
  intro i hi j hj heq
  -- Both places are below `2^64`, where congruent places are equal.
  rw [List.mem_range] at hi hj
  rw [after_eq_iff, Nat.ModEq] at heq
  omega

end Counter
end Beyond
