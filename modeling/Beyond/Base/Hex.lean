import Mathlib.Data.Nat.Digits.Defs
import Beyond.Base.Bytes

/-!
# Hexadecimal text

A byte string as a text of two upper case digits for each byte, its decoder, and the `%X` conversion
of `printf` with a precision and a bounded buffer.
-/

namespace Beyond
namespace Hex

/-- The digit of a number below 16. -/
def digit (n : Nat) : UInt8 := if n < 10 then UInt8.ofNat (48 + n) else UInt8.ofNat (55 + n)

/-- What a digit, upper or lower case, stands for. -/
def value (c : UInt8) : Option Nat :=
  if 48 ≤ c ∧ c ≤ 57 then some (c.toNat - 48)
  else if 65 ≤ c ∧ c ≤ 70 then some (c.toNat - 55)
  else if 97 ≤ c ∧ c ≤ 102 then some (c.toNat - 87)
  else none

def pair (b : UInt8) : Bytes := [digit (b.toNat / 16), digit (b.toNat % 16)]

def encode (bs : Bytes) : Bytes := bs.flatMap pair

/-- The bytes of a text; `none` for an odd number of characters or one that is no digit. -/
def decode : Bytes → Option Bytes
  | [] => some []
  | [_] => none
  | hi :: lo :: text =>
      match value hi, value lo, decode text with
      | some h, some l, some bs => some (UInt8.ofNat (16 * h + l) :: bs)
      | _, _, _ => none

theorem value_digit {n : Nat} (h : n < 16) : value (digit n) = some n := by
  revert n
  decide

@[simp] theorem encode_nil : encode [] = [] := rfl

theorem encode_cons (b : UInt8) (bs : Bytes) : encode (b :: bs) = pair b ++ encode bs := by
  simp [encode]

@[simp] theorem length_encode (bs : Bytes) : (encode bs).length = 2 * bs.length := by
  induction bs with
  | nil => rfl
  | cons b bs ih =>
      rw [encode_cons, List.length_append, ih]
      simp [pair]
      ring

@[simp] theorem decode_encode (bs : Bytes) : decode (encode bs) = some bs := by
  induction bs with
  | nil => rfl
  | cons b bs ih =>
      have hb := b.toNat_lt
      have hhi := value_digit (n := b.toNat / 16) (by omega)
      have hlo := value_digit (n := b.toNat % 16) (by omega)
      have hbyte : UInt8.ofNat (16 * (b.toNat / 16) + b.toNat % 16) = b := by
        rw [Nat.div_add_mod]
        exact UInt8.ofNat_toNat
      simp [encode_cons, pair, decode, hhi, hlo, ih, hbyte]

theorem encode_injective : Function.Injective encode := by
  intro a b h
  have hdecoded : decode (encode a) = decode (encode b) := congrArg decode h
  simpa using hdecoded

/-! ## `printf` -/

/-- `%.pX`: at least `p` digits, none of them a leading zero beyond that. -/
def printX (p n : Nat) : Bytes := List.leftpad p 48 ((Nat.digits 16 n).reverse.map digit)

/-- The text that `snprintf(buf, size, ...)` leaves in the buffer in front of the terminator. -/
def snprintf (size : Nat) (text : Bytes) : Bytes := text.take (size - 1)

end Hex
end Beyond
