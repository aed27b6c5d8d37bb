import Mathlib.Data.List.TakeWhile
import Mathlib.Data.List.Infix
import Mathlib.Data.Nat.Basic
import Mathlib.Tactic.Ring

/-!
# Byte strings

Strings, buffers and records of a C program as lists of bytes:

* decimal text (`std::to_string`) and ASCII literals;
* fixed-width little-endian numbers and the conversion of a number to a 32-bit `int`;
* C strings inside a buffer, read byte by byte: a `none` is a read past the end of the buffer.
-/

namespace Beyond

abbrev Bytes := List UInt8

namespace Bytes

/-! ## Text -/

/-- The bytes of an ASCII literal, without the terminating zero byte. -/
def ascii (s : String) : Bytes := s.toList.map fun c => UInt8.ofNat c.toNat

/-- The bytes are UTF-8. -/
def IsUtf8 (text : Bytes) : Prop := (ByteArray.mk text.toArray).IsValidUTF8

instance (text : Bytes) : Decidable (IsUtf8 text) :=
  inferInstanceAs (Decidable (ByteArray.mk text.toArray).IsValidUTF8)

/-- The decimal text of a number, as `std::to_string` writes it. -/
def decimal (n : Nat) : Bytes := (Nat.toDigits 10 n).map fun c => UInt8.ofNat c.toNat

/-- The decimal text of an `int`. -/
def integer (n : Int) : Bytes :=
  if n < 0 then 0x2d :: decimal n.natAbs else decimal n.natAbs

theorem decimal_chars (n : Nat) :
    (decimal n).map (fun b => Char.ofNat b.toNat) = Nat.toDigits 10 n := by
  have hchar : ∀ c ∈ Nat.toDigits 10 n, Char.ofNat (UInt8.ofNat c.toNat).toNat = c := by
    intro c hc
    -- A digit is below 256, so its byte is still the whole character.
    have hdigit : c.isDigit := Nat.isDigit_of_mem_toDigits (by decide) (by decide) hc
    have hrange : 48 ≤ c.toNat ∧ c.toNat ≤ 57 := by
      simpa [Char.isDigit, UInt32.le_iff_toNat_le] using hdigit
    have hbyte : (UInt8.ofNat c.toNat).toNat = c.toNat % 256 := by simp
    rw [hbyte, Nat.mod_eq_of_lt (by omega)]
    exact Char.ofNat_toNat c
  simpa [decimal, List.map_map, Function.comp_def] using List.map_congr_left hchar

theorem decimal_injective : Function.Injective decimal := by
  intro m n h
  have hdigits : Nat.toDigits 10 m = Nat.toDigits 10 n := by
    rw [← decimal_chars m, ← decimal_chars n, h]
  simpa using congrArg (fun cs => Nat.ofDigitChars 10 cs 0) hdigits

theorem decimal_ne_nil (n : Nat) : decimal n ≠ [] := by
  simp [decimal, Nat.toDigits_ne_nil]

/-! ## Numbers -/

/-- The `k` low bytes of a number, least significant first. -/
def leBytes : Nat → Nat → Bytes
  | 0, _ => []
  | k + 1, n => UInt8.ofNat n :: leBytes k (n / 256)

/-- The number that a little-endian byte string stands for. -/
def leNat : Bytes → Nat
  | [] => 0
  | b :: bs => b.toNat + 256 * leNat bs

@[simp] theorem length_leBytes (k n : Nat) : (leBytes k n).length = k := by
  induction k generalizing n with
  | zero => rfl
  | succ k ih => simp [leBytes, ih]

theorem leNat_leBytes (k n : Nat) : leNat (leBytes k n) = n % 256 ^ k := by
  induction k generalizing n with
  | zero => simp [leBytes, leNat, Nat.mod_one]
  | succ k ih =>
      have hlow : (UInt8.ofNat n).toNat = n % 256 := by simp
      rw [leBytes, leNat, ih, hlow, Nat.pow_succ, Nat.mul_comm (256 ^ k) 256, Nat.mod_mul]

/-- The value of a number after its conversion to a 32-bit `int`. -/
def toInt32 (n : Int) : Int := n.bmod (2 ^ 32)

theorem toInt32_of_lt {n : Nat} (h : n < 2 ^ 31) : toInt32 n = n := by
  unfold toInt32
  rw [Int.bmod_def]
  omega

theorem toInt32_lt (n : Int) : toInt32 n < 2 ^ 31 := by
  unfold toInt32
  rw [Int.bmod_def]
  omega

/-! ## Buffers and C strings -/

/-- `len` bytes of the buffer from offset `off` on, if all of them are inside it.  Reading no
bytes at all is possible anywhere. -/
def slice (buf : Bytes) (off len : Nat) : Option Bytes :=
  if len = 0 ∨ off + len ≤ buf.length then some ((buf.drop off).take len) else none

theorem slice_isSome {buf : Bytes} {off len : Nat} :
    (slice buf off len).isSome ↔ len = 0 ∨ off + len ≤ buf.length := by
  simp [slice]

theorem slice_eq_none {buf : Bytes} {off len : Nat} :
    slice buf off len = none ↔ len ≠ 0 ∧ buf.length < off + len := by
  simp [slice]

theorem slice_append {a b c : Bytes} {off len : Nat} (ha : a.length = off) (hb : b.length = len) :
    slice (a ++ (b ++ c)) off len = some b := by
  subst ha hb
  simp [slice]

theorem slice_take {buf : Bytes} {len : Nat} (h : len ≤ buf.length) :
    slice buf 0 len = some (buf.take len) := by
  unfold slice
  rw [Nat.zero_add, if_pos (.inr h), List.drop_zero]

theorem slice_self {buf : Bytes} {len : Nat} (h : buf.length = len) : slice buf 0 len = some buf := by
  rw [slice_take h.ge, List.take_of_length_le h.le]

/-- The buffer after a write of `bytes` at offset `off`; `none` if a byte would be written outside. -/
def store (buf : Bytes) (off : Nat) (bytes : Bytes) : Option Bytes :=
  if off + bytes.length ≤ buf.length then
    some (buf.take off ++ (bytes ++ buf.drop (off + bytes.length)))
  else none

theorem store_append {a b rest : Bytes} (h : b.length ≤ rest.length) :
    store (a ++ rest) a.length b = some (a ++ (b ++ rest.drop b.length)) := by
  simp [store, h, List.drop_append]

theorem store_eq_none {buf b : Bytes} {off : Nat} :
    store buf off b = none ↔ buf.length < off + b.length := by
  simp [store]

/-- `strlen`: the number of bytes before the first zero byte. -/
def strlen : Bytes → Option Nat
  | [] => none
  | b :: bs => if b = 0 then some 0 else (strlen bs).map (· + 1)

/-- The text of a C string stored in a field. -/
def cstring (field : Bytes) : Bytes := field.takeWhile (· ≠ 0)

/-- `strncmp(a, b, n) == 0`, reading both arrays from the front. -/
def strncmpEq : Bytes → Bytes → Nat → Option Bool
  | _, _, 0 => some true
  | x :: a, y :: b, n + 1 =>
      -- Both strings may end before `n` characters are compared.
      if x ≠ y then some false else if x = 0 then some true else strncmpEq a b n
  | _, _, _ + 1 => none

theorem strlen_isSome {buf : Bytes} : (strlen buf).isSome ↔ 0 ∈ buf := by
  induction buf with
  | nil => simp [strlen]
  | cons b bs ih =>
      by_cases hb : b = 0
      · simp [strlen, hb]
      · simp [strlen, hb, ih, Ne.symm hb]

/-- A bounded comparison with a text of exactly that length is a test for a prefix. -/
theorem strncmpEq_true_iff (t : Bytes) {u b : Bytes} (hu : 0 ∉ u) :
    strncmpEq (u ++ t) b u.length = some true ↔ u <+: b := by
  induction u generalizing b with
  | nil => simp [strncmpEq]
  | cons x u ih =>
      -- The text has no zero byte, so the comparison does not end early.
      have hx : x ≠ 0 := fun h => hu (by simp [h])
      have hu' : 0 ∉ u := fun h => hu (by simp [h])
      cases b with
      | nil => simp [strncmpEq]
      | cons y b =>
          by_cases hxy : x = y
          · subst hxy
            simp [strncmpEq, hx, ih hu']
          · simp [strncmpEq, hxy]

/-- The comparison runs past the buffer only when the buffer ends inside the common prefix. -/
theorem strncmpEq_none_iff (t : Bytes) {u b : Bytes} (hu : 0 ∉ u) :
    strncmpEq (u ++ t) b u.length = none ↔ b <+: u ∧ b.length < u.length := by
  induction u generalizing b with
  | nil => simp [strncmpEq]
  | cons x u ih =>
      have hx : x ≠ 0 := fun h => hu (by simp [h])
      have hu' : 0 ∉ u := fun h => hu (by simp [h])
      cases b with
      | nil => simp [strncmpEq]
      | cons y b =>
          by_cases hxy : x = y
          · subst hxy
            simp [strncmpEq, hx, ih hu']
          · simp [strncmpEq, hxy, Ne.symm hxy]

/-- A text without a zero byte is its own C string. -/
theorem cstring_eq_self {u : Bytes} (hu : 0 ∉ u) : cstring u = u := by
  induction u with
  | nil => rfl
  | cons b u ih =>
      have hb : b ≠ 0 := fun h => hu (by simp [h])
      have hu' : 0 ∉ u := fun h => hu (by simp [h])
      have htail := ih hu'
      unfold cstring at htail ⊢
      rw [List.takeWhile_cons_of_pos (by simpa using hb), htail]

theorem cstring_cstring (field : Bytes) : cstring (cstring field) = cstring field :=
  List.takeWhile_idem

theorem zero_not_mem_cstring (field : Bytes) : 0 ∉ cstring field := by
  intro hmem
  exact absurd (List.mem_takeWhile_imp hmem) (by decide)

/-- A text without a zero byte is part of the C string. -/
theorem length_cstring_lt {field : Bytes} (h : 0 ∈ field) : (cstring field).length < field.length := by
  rcases List.append_of_mem h with ⟨u, t, rfl⟩
  induction u with
  | nil => simp [cstring]
  | cons b u ih =>
      have hrest := ih (List.mem_append_right u List.mem_cons_self)
      unfold cstring at hrest ⊢
      by_cases hb : b = 0
      · simp [hb]
      · simpa [hb] using hrest

theorem cstring_append {u : Bytes} (hu : 0 ∉ u) (t : Bytes) : cstring (u ++ t) = u ++ cstring t := by
  unfold cstring
  apply List.takeWhile_append_of_pos
  intro b hb
  exact decide_eq_true fun h => hu (h ▸ hb)

theorem cstring_append_zero {u t : Bytes} (hu : 0 ∉ u) : cstring (u ++ 0 :: t) = u := by
  unfold cstring
  rw [List.takeWhile_append_of_pos]
  · simp
  · intro b hb
    simpa using fun h : b = 0 => hu (h ▸ hb)

end Bytes
end Beyond
