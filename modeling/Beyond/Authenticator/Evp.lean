import Beyond.Base.Bytes
import Beyond.Base.Cbc

/-!
# The cipher context

What the authenticator uses of OpenSSL's `EVP_EncryptUpdate`, `EVP_EncryptFinal_ex` and their
counterparts for decryption, as documented for a cipher in chaining mode with padding: an update
emits the blocks that are complete and buffers the rest.  AES-256 is any block cipher with keys of 32
bytes.
-/

namespace Beyond
namespace Authenticator

open Cbc

abbrev Key := Vector UInt8 32

abbrev Block := Vector UInt8 16

/-- `EVP_CIPHER_CTX`, with padding. -/
structure CipherCtx where
  key : Key
  /-- The block of ciphertext to chain with. -/
  chain : Block
  /-- The bytes of a block that is not complete. -/
  buf : Bytes
  /-- The decrypted block that is held back, as it may be padded. -/
  final : Option Block
  deriving Repr

/-- `EVP_EncryptInit_ex` and `EVP_DecryptInit_ex`. -/
def CipherCtx.init (key : Key) (iv : Block) : CipherCtx := ⟨key, iv, [], none⟩

variable (aes : BlockCipher Key 16)

def encryptUpdate (ctx : CipherCtx) (inp : Bytes) : CipherCtx × Bytes :=
  let data := ctx.buf ++ inp
  let n := data.length / 16
  let cs := Cbc.encrypt (aes.encrypt ctx.key) xorBlock ctx.chain (blocks 16 n data)
  ({ ctx with chain := cs.getLastD ctx.chain, buf := data.drop (n * 16) }, join cs)

def encryptFinal (ctx : CipherCtx) : Bytes :=
  join (Cbc.encrypt (aes.encrypt ctx.key) xorBlock ctx.chain
    (blocks 16 1 (ctx.buf ++ padding 16 ctx.buf.length)))

def decryptUpdate (ctx : CipherCtx) (inp : Bytes) : CipherCtx × Bytes :=
  let data := ctx.buf ++ inp
  let n := data.length / 16
  let cs : List Block := blocks 16 n data
  let rest := data.drop (n * 16)
  let plain := ctx.final.toList ++ Cbc.decrypt (aes.decrypt ctx.key) xorBlock ctx.chain cs
  -- Only a block with input behind it is certainly not the last one.
  if rest = [] then
    ({ ctx with chain := cs.getLastD ctx.chain, buf := [], final := plain.getLast? },
      join plain.dropLast)
  else ({ ctx with chain := cs.getLastD ctx.chain, buf := rest, final := none }, join plain)

/-- `none` if the input did not end with a padded block. -/
def decryptFinal (ctx : CipherCtx) : Option Bytes :=
  if ctx.buf ≠ [] then none else ctx.final.bind unpad

/-- All the bytes that an encryption emits. -/
def ciphertext (key : Key) (iv : Block) (data : Bytes) : Bytes :=
  (encryptUpdate aes (.init key iv) data).2 ++
    encryptFinal aes (encryptUpdate aes (.init key iv) data).1

variable (key : Key) (iv : Block) (data : Bytes)

theorem length_encryptUpdate :
    (encryptUpdate aes (.init key iv) data).2.length = data.length / 16 * 16 := by
  have hle : data.length / 16 * 16 ≤ data.length := Nat.div_mul_le_self _ _
  simp [encryptUpdate, CipherCtx.init, Cbc.length_encrypt, length_blocks, hle]

theorem buf_encryptUpdate :
    (encryptUpdate aes (.init key iv) data).1.buf = data.drop (data.length / 16 * 16) := rfl

/-- The bytes behind the last whole block, padded. -/
theorem exists_lastBlock :
    ∃ b : Block,
      blocks 16 1 (data.drop (data.length / 16 * 16) ++
        padding 16 (data.drop (data.length / 16 * 16)).length) = [b] ∧
      b.toList = data.drop (data.length / 16 * 16) ++
        padding 16 (data.drop (data.length / 16 * 16)).length := by
  generalize hrest : data.drop (data.length / 16 * 16) = rest
  have hlength : rest.length < 16 := by
    rw [← hrest, List.length_drop]
    omega
  have hpadded : (rest ++ padding 16 rest.length).length = 16 := by
    rw [List.length_append, length_padding, Nat.mod_eq_of_lt hlength]
    omega
  have hcount : (blocks 16 1 (rest ++ padding 16 rest.length)).length = 1 :=
    length_blocks 1 _ (by omega)
  have hjoin : join (blocks 16 1 (rest ++ padding 16 rest.length)) =
      rest ++ padding 16 rest.length :=
    (join_blocks 1 _ (by omega)).trans (List.take_of_length_le (by omega))
  rcases List.length_eq_one_iff.1 hcount with ⟨b, hb⟩
  refine ⟨b, hb, ?_⟩
  rw [hb] at hjoin
  simpa using hjoin

/-- The ciphertext is the chained encryption of the whole blocks and the padded one. -/
theorem ciphertext_eq {data : Bytes} {b : Block}
    (hb : blocks 16 1 (data.drop (data.length / 16 * 16) ++
      padding 16 (data.drop (data.length / 16 * 16)).length) = [b]) :
    ciphertext aes key iv data =
      join (Cbc.encrypt (aes.encrypt key) xorBlock iv
        (blocks 16 (data.length / 16) data ++ [b])) := by
  rw [Cbc.encrypt_append, join_append, ← hb]
  rfl

theorem length_encryptFinal :
    (encryptFinal aes (encryptUpdate aes (.init key iv) data).1).length = 16 := by
  rcases exists_lastBlock data with ⟨b, hb, -⟩
  -- One block, whatever is left over from the update.
  rw [encryptFinal, buf_encryptUpdate, hb, length_join, Cbc.length_encrypt]
  rfl

theorem length_ciphertext :
    (ciphertext aes key iv data).length = data.length / 16 * 16 + 16 := by
  rw [ciphertext, List.length_append, length_encryptUpdate, length_encryptFinal]

/-- Decryption of the ciphertext emits the whole blocks, and then the bytes without the padding. -/
theorem decrypt_ciphertext :
    (decryptUpdate aes (.init key iv) (ciphertext aes key iv data)).2 =
        data.take (data.length / 16 * 16) ∧
      decryptFinal (decryptUpdate aes (.init key iv) (ciphertext aes key iv data)).1 =
        some (data.drop (data.length / 16 * 16)) := by
  rcases exists_lastBlock data with ⟨b, hb, hlast⟩
  have hle : data.length / 16 * 16 ≤ data.length := Nat.div_mul_le_self _ _
  have hrest : (data.drop (data.length / 16 * 16)).length < 16 := by
    rw [List.length_drop]
    omega
  -- `cs` are the blocks of the ciphertext; the update cuts it into exactly these again.
  generalize hbs : blocks 16 (data.length / 16) data = bs
  have hcipher : ciphertext aes key iv data = _ := ciphertext_eq aes key iv hb
  rw [hbs] at hcipher
  generalize hcs : Cbc.encrypt (aes.encrypt key) xorBlock iv (bs ++ [b]) = cs
  rw [hcs] at hcipher
  have hlength : (ciphertext aes key iv data).length = cs.length * 16 := by
    rw [hcipher, length_join]
  have hblocks : blocks 16 cs.length (ciphertext aes key iv data) = cs := by
    have h := blocks_join cs []
    rwa [List.append_nil, ← hcipher] at h
  have hplain : Cbc.decrypt (aes.decrypt key) xorBlock iv cs = bs ++ [b] := by
    rw [← hcs]
    exact Cbc.decrypt_encrypt (aes.decrypt_encrypt key) xorBlock_xorBlock iv _
  have hdrop : (ciphertext aes key iv data).drop (cs.length * 16) = [] := by
    rw [← hlength, List.drop_length]
  have hjoin : join bs = data.take (data.length / 16 * 16) := by
    rw [← hbs]
    exact join_blocks _ _ hle
  have hcount : (ciphertext aes key iv data).length / 16 = cs.length := by
    rw [hlength, Nat.mul_div_cancel _ (by omega)]
  -- The update holds the padded block back, and the final call takes the padding off.
  have hunpad : unpad b = some (data.drop (data.length / 16 * 16)) :=
    unpad_padding (by omega) hrest hlast
  constructor
  · simp [decryptUpdate, CipherCtx.init, hcount, hblocks, hdrop, hplain, hjoin]
  · simp [decryptUpdate, decryptFinal, CipherCtx.init, hcount, hblocks, hdrop, hplain, hunpad]

end Authenticator
end Beyond
