import Mathlib.Data.List.Basic
import Mathlib.Data.Vector.Basic

/-!
# Cipher block chaining with padding

The chaining mode over any block cipher, messages as lists of bytes cut into blocks, and the padding
that fills the last block with copies of its own length.
-/

namespace Beyond
namespace Cbc

/-! ## Chaining -/

section Chaining

variable {β : Type*}

/-- Each block is mixed with the ciphertext of the block before. -/
def encrypt (E : β → β) (xor : β → β → β) : β → List β → List β
  | _, [] => []
  | iv, b :: bs => E (xor b iv) :: encrypt E xor (E (xor b iv)) bs

def decrypt (D : β → β) (xor : β → β → β) : β → List β → List β
  | _, [] => []
  | iv, c :: cs => xor (D c) iv :: decrypt D xor c cs

variable {E D : β → β} {xor : β → β → β}

theorem length_encrypt (iv : β) (bs : List β) : (encrypt E xor iv bs).length = bs.length := by
  induction bs generalizing iv with
  | nil => rfl
  | cons b bs ih => simp [encrypt, ih]

/-- The chaining goes on from the last block of ciphertext. -/
theorem encrypt_append (iv : β) (bs bs' : List β) :
    encrypt E xor iv (bs ++ bs') =
      encrypt E xor iv bs ++ encrypt E xor ((encrypt E xor iv bs).getLastD iv) bs' := by
  induction bs generalizing iv with
  | nil => rfl
  | cons b bs ih =>
      rw [List.cons_append, encrypt, encrypt, ih, List.getLastD_cons]
      rfl

theorem decrypt_encrypt (hE : ∀ b, D (E b) = b) (hxor : ∀ a b, xor (xor a b) b = a) (iv : β)
    (bs : List β) : decrypt D xor iv (encrypt E xor iv bs) = bs := by
  induction bs generalizing iv with
  | nil => rfl
  | cons b bs ih => simp [encrypt, decrypt, hE, hxor, ih]

end Chaining

/-! ## Blocks -/

section Blocks

variable {α : Type*} {k : Nat}

/-- The first `n` blocks of a message. -/
def blocks (k : Nat) : Nat → List α → List (Vector α k)
  | 0, _ => []
  | n + 1, l =>
      if h : k ≤ l.length then ⟨(l.take k).toArray, by simp [h]⟩ :: blocks k n (l.drop k) else []

/-- The message that is made of the blocks. -/
def join (bs : List (Vector α k)) : List α := bs.flatMap Vector.toList

@[simp] theorem join_nil : join ([] : List (Vector α k)) = [] := rfl

@[simp] theorem join_cons (b : Vector α k) (bs : List (Vector α k)) :
    join (b :: bs) = b.toList ++ join bs := rfl

@[simp] theorem join_append (bs bs' : List (Vector α k)) :
    join (bs ++ bs') = join bs ++ join bs' := by
  simp [join]

@[simp] theorem length_join (bs : List (Vector α k)) : (join bs).length = bs.length * k := by
  induction bs with
  | nil => simp
  | cons b bs ih => simp [ih, Nat.add_mul, Nat.add_comm]

theorem blocks_join (bs : List (Vector α k)) (rest : List α) :
    blocks k bs.length (join bs ++ rest) = bs := by
  induction bs with
  | nil => rfl
  | cons b bs ih =>
      have hlength : k ≤ (join (b :: bs) ++ rest).length := by simp
      have hblock : b.toList.toArray = b.toArray := by cases b; rfl
      simp [blocks, hblock, ih]

theorem join_blocks (n : Nat) (l : List α) (h : n * k ≤ l.length) :
    join (blocks k n l) = l.take (n * k) := by
  induction n generalizing l with
  | zero => simp [blocks]
  | succ n ih =>
      rw [Nat.succ_mul] at h
      have hk : k ≤ l.length := by omega
      have hrest : n * k ≤ (l.drop k).length := by simp; omega
      simp only [blocks, hk, dif_pos, join_cons, ih _ hrest]
      rw [Nat.succ_mul, Nat.add_comm, List.take_add]
      rfl

theorem length_blocks (n : Nat) (l : List α) (h : n * k ≤ l.length) :
    (blocks k n l).length = n := by
  induction n generalizing l with
  | zero => rfl
  | succ n ih =>
      rw [Nat.succ_mul] at h
      have hk : k ≤ l.length := by omega
      have hrest : n * k ≤ (l.drop k).length := by simp; omega
      simp [blocks, hk, ih _ hrest]

end Blocks

/-! ## Padding -/

section Padding

variable {k : Nat}

/-- What is put behind a message of `n` bytes: a whole block, if the message fills its blocks. -/
def padding (k n : Nat) : List UInt8 := List.replicate (k - n % k) (UInt8.ofNat (k - n % k))

/-- The bytes of a last block without the padding; `none` if it is not padded. -/
def unpad (b : Vector UInt8 k) : Option (List UInt8) :=
  let n := (b.toList.getLastD 0).toNat
  if n = 0 ∨ k < n then none
  else if b.toList.drop (k - n) = List.replicate n (UInt8.ofNat n) then
    some (b.toList.take (k - n))
  else none

example : padding 16 13 = [3, 3, 3] := by decide

@[simp] theorem length_padding (k n : Nat) : (padding k n).length = k - n % k := by
  simp [padding]

theorem unpad_padding (hk : k < 256) {rest : List UInt8} (hrest : rest.length < k)
    {b : Vector UInt8 k} (hb : b.toList = rest ++ padding k rest.length) :
    unpad b = some rest := by
  rw [padding, Nat.mod_eq_of_lt hrest] at hb
  -- The padding is never empty, so the last byte of the block is its length.
  obtain ⟨n, hn⟩ : ∃ n, k - rest.length = n + 1 := ⟨k - rest.length - 1, by omega⟩
  rw [hn] at hb
  have hlast : (b.toList.getLastD 0).toNat = n + 1 := by
    rw [hb, List.replicate_succ', ← List.append_assoc, List.getLastD_concat]
    exact UInt8.toNat_ofNat_of_lt' (show n + 1 < 256 by omega)
  have hlength : k - (n + 1) = rest.length := by omega
  have hdrop : b.toList.drop (k - (n + 1)) = List.replicate (n + 1) (UInt8.ofNat (n + 1)) := by
    rw [hlength, hb, List.drop_left]
  have htake : b.toList.take (k - (n + 1)) = rest := by
    rw [hlength, hb, List.take_left]
  simp only [unpad, hlast, hdrop, htake, if_true]
  exact if_neg (by omega)

end Padding

/-! ## Block ciphers -/

/-- A block cipher undoes its encryption. -/
structure BlockCipher (κ : Type*) (k : Nat) where
  encrypt : κ → Vector UInt8 k → Vector UInt8 k
  decrypt : κ → Vector UInt8 k → Vector UInt8 k
  decrypt_encrypt : ∀ key b, decrypt key (encrypt key b) = b

instance (κ : Type*) (k : Nat) : Inhabited (BlockCipher κ k) :=
  ⟨⟨fun _ b => b, fun _ b => b, fun _ _ => rfl⟩⟩

def xorBlock {k : Nat} (a b : Vector UInt8 k) : Vector UInt8 k := Vector.zipWith (· ^^^ ·) a b

theorem xorBlock_xorBlock {k : Nat} (a b : Vector UInt8 k) : xorBlock (xorBlock a b) b = a := by
  apply Vector.ext
  intro i hi
  simp only [xorBlock, Vector.getElem_zipWith, UInt8.xor_assoc, UInt8.xor_self, UInt8.xor_zero]

end Cbc
end Beyond
