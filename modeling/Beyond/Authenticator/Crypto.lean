import Beyond.Authenticator.Evp
import Beyond.Base.Base64
import Beyond.Base.Platform

/-!
# Encryption with the secret key

`Authenticator::CryptoSymmetric` runs a cipher over its input into a buffer whose size it computes
beforehand; `Authenticator::Crypto` puts base64 around it and queues the result.
-/

namespace Beyond
namespace Authenticator

open Errno Bytes

/-- `CRYPTO_OP`. -/
inductive CryptoOp
  | encrypt
  | decrypt
  deriving DecidableEq, Repr

/-- What `Crypto` uses of `sslContext` and `sslConfig`. -/
structure Config where
  secretKey : Key
  enableBase64 : Bool

/-- What the calls of one operation to other libraries do. -/
structure Env where
  /-- `EVP_CIPHER_CTX_new` and the initialisation of the context. -/
  context : Bool
  calloc : Bool
  realloc : Bool
  newOutput : Bool
  /-- A negative code if a call of `EncodeBase64`, or one of `DecodeBase64` but `BIO_read`, fails. -/
  base64 : Int
  /-- What `BIO_read` puts out for a text; `none` if it returns -2. -/
  bioRead : Bytes → Option Bytes
  send : Int

/-- Nothing fails, except that a buffer may not be shrunk, and `BIO_read` reads back what
`EncodeBase64` has written. -/
def Env.working (realloc : Bool) : Env :=
  ⟨true, true, realloc, true, 0, fun text => some ((Base64.decode text).getD []), 0⟩

section Working

variable (realloc : Bool)

@[simp] theorem working_context : (Env.working realloc).context = true := rfl

@[simp] theorem working_calloc : (Env.working realloc).calloc = true := rfl

@[simp] theorem working_realloc : (Env.working realloc).realloc = realloc := rfl

@[simp] theorem working_newOutput : (Env.working realloc).newOutput = true := rfl

@[simp] theorem working_base64 : (Env.working realloc).base64 = 0 := rfl

@[simp] theorem working_bioRead (bytes : Bytes) :
    (Env.working realloc).bioRead (Base64.encode bytes) = some bytes := by
  simp [Env.working, Base64.decode_encode]

@[simp] theorem working_send : (Env.working realloc).send = 0 := rfl

end Working

/-- `CryptoOutput`: what `output` points to, and `size`. -/
structure CryptoOutput where
  output : Bytes
  size : Int
  deriving DecidableEq, Repr

/-- The bytes that a caller of `GetResult` gets. -/
def CryptoOutput.bytes (o : CryptoOutput) : Bytes := o.output.take o.size.toNat

/-- What `Crypto` returns, and the output, possibly null, that it has queued. -/
structure CryptoResult where
  ret : Int
  sent : Option (Option CryptoOutput)
  deriving DecidableEq, Repr

inductive Failure
  /-- A byte is written outside of the buffer. -/
  | outOfBounds
  | code (ret : Int)
  deriving DecidableEq, Repr

/-! ## CryptoSymmetric -/

section Symmetric

variable (aes : Cbc.BlockCipher Key 16)

/-- The table `operation`. -/
def CryptoOp.operation : CryptoOp → CipherCtx → Bytes → CipherCtx × Bytes
  | encrypt => encryptUpdate aes
  | decrypt => decryptUpdate aes

/-- The table `finalize`. -/
def CryptoOp.finalize : CryptoOp → CipherCtx → Option Bytes
  | encrypt => fun ctx => some (encryptFinal aes ctx)
  | decrypt => decryptFinal

/-- The size of the buffer for `inlen` bytes. -/
def bufferSize (inlen : Nat) : Nat :=
  let blockSize := 16
  -- Whole blocks are padded, too, but get no room for it.
  let paddingSize := inlen % blockSize
  inlen + if paddingSize = 0 then 0 else blockSize - paddingSize

/-- A write of `bytes` to the buffer at offset `off`. -/
def emit (out : Bytes) (off : Nat) (bytes : Bytes) : Except Failure Bytes :=
  match store out off bytes with
  | none => .error .outOfBounds
  | some out => .ok out

/-- `operation` and `finalize` into a buffer of `outlen` bytes, and how many bytes they put out. -/
def runCipher (op : CryptoOp) (ctx : CipherCtx) (inp : Bytes) (outlen : Nat) :
    Except Failure (Bytes × Nat) := do
  let update := op.operation aes ctx inp
  let out ← emit (List.replicate outlen 0) 0 update.2
  match op.finalize aes update.1 with
  | none => throw (.code (-EFAULT))
  | some last =>
      let out ← emit out update.2.length last
      return (out, update.2.length + last.length)

def cryptoSymmetric (env : Env) (config : Config) (op : CryptoOp) (inp : Bytes) (iv : Block) :
    Except Failure (Bytes × Nat) :=
  if env.context = false then .error (.code (-EFAULT))
  else if env.calloc = false then .error (.code (-ENOMEM))
  else
    match runCipher aes op (.init config.secretKey iv) inp (bufferSize inp.length) with
    | .error e => .error e
    | .ok (out, n) =>
        -- The size is only ever corrected downwards.
        if toInt32 n < toInt32 (bufferSize inp.length) then
          .ok (if env.realloc = true then out.take (toInt32 n).toNat else out, (toInt32 n).toNat)
        else .ok (out, bufferSize inp.length)

end Symmetric

/-! ## Crypto -/

/-- `EncodeBase64` of the first `length` bytes. -/
def encodeBase64 (env : Env) (input : Bytes) (length : Int) : Except Int (Bytes × Int) :=
  if env.base64 < 0 then .error env.base64
  -- `BIO_write` takes no negative length.
  else if length ≤ 0 then .error (-EFAULT)
  else
    let text := Base64.encode (input.take length.toNat)
    .ok (text, toInt32 text.length)

def decodeBase64 (env : Env) (input : Bytes) : Except Int Bytes :=
  if env.base64 < 0 then .error env.base64
  else
    match env.bioRead input with
    | none => .error (-ENOTSUP)
    | some bytes => if bytes = [] then .error (-EFAULT) else .ok bytes

/-- What is given to the cipher. -/
def cipherInput (env : Env) (config : Config) (op : CryptoOp) (data : Bytes) : Except Int Bytes :=
  if op = .decrypt ∧ config.enableBase64 = true then decodeBase64 env data else .ok data

/-- The end of `Crypto`: the output is sent, also where there is none. -/
def sendOutput (env : Env) (output : Option CryptoOutput) : CryptoResult :=
  if env.send < 0 then ⟨env.send, none⟩ else ⟨env.send, some output⟩

/-- What becomes of the `outlen` bytes that the cipher has put out. -/
def makeOutput (env : Env) (config : Config) (op : CryptoOp) (out : Bytes) (outlen : Nat) :
    Option CryptoOutput :=
  if env.newOutput = false then none
  else if op = .encrypt ∧ config.enableBase64 = true then
    match encodeBase64 env out (toInt32 outlen) with
    | .error _ => none
    | .ok (text, size) => if size ≤ 0 then none else some ⟨text, size⟩
  else some ⟨out, toInt32 outlen⟩

section Crypto

variable (aes : Cbc.BlockCipher Key 16)

/-- `Crypto` with `SECRET_KEY`; `none` if a byte is written outside of the buffer. -/
def crypto (env : Env) (config : Config) (op : CryptoOp) (data : Bytes) (iv : Block) :
    Option CryptoResult :=
  match cipherInput env config op data with
  -- This return queues nothing.
  | .error ret => some ⟨ret, none⟩
  | .ok inp =>
      match cryptoSymmetric aes env config op inp iv with
      | .error .outOfBounds => none
      | .error (.code _) => some (sendOutput env none)
      | .ok (out, outlen) => some (sendOutput env (makeOutput env config op out outlen))

/-! ## The property -/

/-- The whole result of an encryption: the ciphertext, or its text. -/
def sealed (config : Config) (iv : Block) (data : Bytes) : Bytes :=
  if config.enableBase64 = true then Base64.encode (ciphertext aes config.secretKey iv data)
  else ciphertext aes config.secretKey iv data

/-- `Crypto` encrypts inside its buffer and reports the whole result and its size, from which it
gets back the input and its size. -/
def RoundTrip (env : Env) (config : Config) (iv : Block) (data : Bytes) : Prop :=
  ∃ o o', crypto aes env config .encrypt data iv = some ⟨0, some (some o)⟩ ∧
    o.size = (sealed aes config iv data).length ∧ o.bytes = sealed aes config iv data ∧
    crypto aes env config .decrypt o.bytes iv = some ⟨0, some (some o')⟩ ∧
    o'.size = data.length ∧ o'.bytes = data

/-- The size of the whole result for `n` bytes of input. -/
def sealedSize (enableBase64 : Bool) (n : Nat) : Nat :=
  if enableBase64 = true then (n / 16 * 16 + 16 + 2) / 3 * 4 else n / 16 * 16 + 16

end Crypto

/-! ## Sizes -/

theorem bufferSize_aligned {n : Nat} (h : n % 16 = 0) : bufferSize n = n := by
  simp [bufferSize, h]

/-- For every other length the buffer has room for the whole blocks and one more. -/
theorem bufferSize_unaligned {n : Nat} (h : n % 16 ≠ 0) : bufferSize n = n / 16 * 16 + 16 := by
  simp only [bufferSize, if_neg h]
  omega

theorem le_sealedSize (enableBase64 : Bool) (n : Nat) :
    n / 16 * 16 + 16 ≤ sealedSize enableBase64 n := by
  unfold sealedSize
  split <;> omega

theorem emit_append {a b rest : Bytes} (h : b.length ≤ rest.length) :
    emit (a ++ rest) a.length b = .ok (a ++ (b ++ rest.drop b.length)) := by
  rw [emit, store_append h]

theorem emit_outOfBounds {out b : Bytes} {off : Nat} (h : out.length < off + b.length) :
    emit out off b = .error .outOfBounds := by
  rw [emit, store_eq_none.2 h]

section Proofs

variable (aes : Cbc.BlockCipher Key 16) (config : Config) (iv : Block) (realloc : Bool) {data : Bytes}

theorem length_sealed (data : Bytes) :
    (sealed aes config iv data).length = sealedSize config.enableBase64 data.length := by
  unfold sealed sealedSize
  split
  · rw [Base64.length_encode, length_ciphertext]
  · rw [length_ciphertext]

/-! ## The cipher -/

section Run

variable {op : CryptoOp} {ctx : CipherCtx} {inp : Bytes} {outlen : Nat}

/-- What the update emits stands at the beginning of the buffer, if it fits. -/
theorem emit_first {bytes : Bytes} (h : bytes.length ≤ outlen) :
    emit (List.replicate outlen 0) 0 bytes =
      .ok (bytes ++ List.replicate (outlen - bytes.length) 0) := by
  have hle : bytes.length ≤ (List.replicate outlen (0 : UInt8)).length := by simpa using h
  have hemit : emit ([] ++ List.replicate outlen 0) ([] : Bytes).length bytes = _ := emit_append hle
  simpa using hemit

theorem runCipher_ok {update : CipherCtx × Bytes} {last : Bytes}
    (hupdate : op.operation aes ctx inp = update) (hlast : op.finalize aes update.1 = some last)
    (h : update.2.length + last.length ≤ outlen) :
    ∃ rest, runCipher aes op ctx inp outlen =
      .ok (update.2 ++ (last ++ rest), update.2.length + last.length) ∧
      rest.length = outlen - (update.2.length + last.length) := by
  have hroom : last.length ≤ (List.replicate (outlen - update.2.length) (0 : UInt8)).length := by
    simp
    omega
  refine ⟨(List.replicate (outlen - update.2.length) 0).drop last.length, ?_, by simp; omega⟩
  simp only [runCipher, hupdate, hlast, emit_first (Nat.le_trans (Nat.le_add_right _ _) h)]
  show (emit (update.2 ++ List.replicate (outlen - update.2.length) 0) update.2.length last >>= _) = _
  rw [emit_append hroom]
  rfl

theorem runCipher_outOfBounds {update : CipherCtx × Bytes} {last : Bytes}
    (hupdate : op.operation aes ctx inp = update) (hlast : op.finalize aes update.1 = some last)
    (hfits : update.2.length ≤ outlen) (h : outlen < update.2.length + last.length) :
    runCipher aes op ctx inp outlen = .error .outOfBounds := by
  have hlength : (update.2 ++ List.replicate (outlen - update.2.length) 0).length = outlen := by
    simp
    omega
  simp only [runCipher, hupdate, hlast, emit_first hfits]
  show (emit (update.2 ++ List.replicate (outlen - update.2.length) 0) update.2.length last >>= _) = _
  rw [emit_outOfBounds (by omega)]
  rfl

end Run

/-- An input of whole blocks: the block of padding does not fit. -/
theorem cryptoSymmetric_aligned (h : data.length % 16 = 0) :
    cryptoSymmetric aes (.working realloc) config .encrypt data iv = .error .outOfBounds := by
  have hlength := length_encryptUpdate aes config.secretKey iv data
  have hfinal := length_encryptFinal aes config.secretKey iv data
  generalize hupdate : encryptUpdate aes (.init config.secretKey iv) data = update
    at hlength hfinal
  -- The update fills the buffer, and the last block comes behind it.
  have hrun : runCipher aes .encrypt (.init config.secretKey iv) data (bufferSize data.length) =
      .error .outOfBounds := by
    rw [bufferSize_aligned h]
    exact runCipher_outOfBounds aes hupdate rfl (by omega) (by omega)
  simp [cryptoSymmetric, hrun]

/-- The encryption of whole blocks writes outside of its buffer. -/
theorem crypto_aligned (h : data.length % 16 = 0) :
    crypto aes (.working realloc) config .encrypt data iv = none := by
  simp [crypto, cipherInput, cryptoSymmetric_aligned aes config iv realloc h]

theorem cryptoSymmetric_unaligned (h : data.length % 16 ≠ 0) :
    cryptoSymmetric aes (.working realloc) config .encrypt data iv =
      .ok (ciphertext aes config.secretKey iv data, data.length / 16 * 16 + 16) := by
  have hlength := length_encryptUpdate aes config.secretKey iv data
  have hfinal := length_encryptFinal aes config.secretKey iv data
  have hsize := bufferSize_unaligned h
  unfold ciphertext
  generalize hupdate : encryptUpdate aes (.init config.secretKey iv) data = update
    at hlength hfinal
  have hrun : ∃ rest, runCipher aes .encrypt (.init config.secretKey iv) data
      (bufferSize data.length) = .ok (_ ++ (_ ++ rest), _) ∧ rest.length = _ :=
    runCipher_ok aes hupdate rfl (by omega)
  rcases hrun with ⟨rest, hrun, hrest⟩
  -- The buffer is full.
  have hnil : rest = [] := List.eq_nil_of_length_eq_zero (by omega)
  rw [hnil, List.append_nil, hlength, hfinal, hsize] at hrun
  simp [cryptoSymmetric, hrun, hsize]

/-- Decryption of a ciphertext leaves the input at the beginning of its buffer. -/
theorem cryptoSymmetric_ciphertext (h : data.length / 16 * 16 + 16 < 2 ^ 31) :
    ∃ out, cryptoSymmetric aes (.working realloc) config .decrypt
        (ciphertext aes config.secretKey iv data) iv = .ok (out, data.length) ∧
      out.take data.length = data := by
  have hsize : bufferSize (ciphertext aes config.secretKey iv data).length =
      data.length / 16 * 16 + 16 := by
    rw [length_ciphertext, bufferSize_aligned (by omega)]
  -- `update` puts out the whole blocks of the input and `finalize` the rest.
  have hdecrypt := decrypt_ciphertext aes config.secretKey iv data
  generalize hupdate : decryptUpdate aes (.init config.secretKey iv)
    (ciphertext aes config.secretKey iv data) = update at hdecrypt
  have hwhole : update.2 ++ data.drop (data.length / 16 * 16) = data := by
    rw [hdecrypt.1, List.take_append_drop]
  have hcount : update.2.length + (data.drop (data.length / 16 * 16)).length = data.length := by
    rw [← List.length_append, hwhole]
  have hrun : ∃ rest, runCipher aes .decrypt (.init config.secretKey iv)
      (ciphertext aes config.secretKey iv data)
      (bufferSize (ciphertext aes config.secretKey iv data).length) =
        .ok (_ ++ (_ ++ rest), _) ∧ rest.length = _ :=
    runCipher_ok aes hupdate hdecrypt.2 (by omega)
  rcases hrun with ⟨rest, hrun, -⟩
  rw [hcount, ← List.append_assoc, hwhole, hsize] at hrun
  have hint : toInt32 data.length = data.length := toInt32_of_lt (by omega)
  have hint' : toInt32 ((data.length / 16 * 16 + 16 : Nat) : Int) =
    (data.length / 16 * 16 + 16 : Nat) := toInt32_of_lt h
  refine ⟨if realloc = true then data else data ++ rest, ?_, ?_⟩
  · -- Less was put out than the buffer has room for, so the size is corrected.
    have hlt : (data.length : Int) < (data.length / 16 * 16 + 16 : Nat) := by omega
    simp only [cryptoSymmetric, hsize, hrun, hint, hint', if_pos hlt]
    simp
  · split <;> simp

/-! ## Crypto -/

/-- The size of an output is an `int`. -/
theorem size_makeOutput {env : Env} {op : CryptoOp} {out : Bytes} {outlen : Nat} {o : CryptoOutput}
    (h : makeOutput env config op out outlen = some o) : o.size < 2 ^ 31 := by
  have hint : ∀ n, o.size = toInt32 n → o.size < 2 ^ 31 := fun n hn => hn ▸ toInt32_lt n
  unfold makeOutput at h
  split at h
  · cases h
  · split at h
    · split at h
      · cases h
      · rename_i text size hencode
        unfold encodeBase64 at hencode
        split at hencode
        · cases hencode
        · split at hencode
          · cases hencode
          · rw [Except.ok.injEq, Prod.mk.injEq] at hencode
            split at h
            · cases h
            · rw [Option.some.injEq] at h
              apply hint
              rw [← h, hencode.2]
    · rw [Option.some.injEq] at h
      apply hint
      rw [← h]

theorem eq_some_of_sendOutput {env : Env} {output : Option CryptoOutput} {ret : Int}
    {o : CryptoOutput} (h : sendOutput env output = ⟨ret, some (some o)⟩) : output = some o := by
  unfold sendOutput at h
  split at h
  · cases h
  · cases h
    rfl

theorem size_lt {env : Env} {op : CryptoOp} {ret : Int} {o : CryptoOutput}
    (h : crypto aes env config op data iv = some ⟨ret, some (some o)⟩) : o.size < 2 ^ 31 := by
  unfold crypto at h
  split at h
  · cases h
  · split at h
    · cases h
    · cases eq_some_of_sendOutput (Option.some.inj h)
    · exact size_makeOutput config (eq_some_of_sendOutput (Option.some.inj h))

theorem encodeBase64_working {input text : Bytes} {length : Int} (hpos : 0 < length)
    (htext : Base64.encode (input.take length.toNat) = text) :
    encodeBase64 (.working realloc) input length = .ok (text, toInt32 text.length) := by
  rw [encodeBase64, working_base64, if_neg (by decide), if_neg (Int.not_le.2 hpos), htext]

/-- The output for a ciphertext whose result has a size that is an `int`. -/
theorem makeOutput_ciphertext
    (h : sealedSize config.enableBase64 data.length < 2 ^ 31) :
    makeOutput (.working realloc) config .encrypt (ciphertext aes config.secretKey iv data)
        (data.length / 16 * 16 + 16) =
      some ⟨sealed aes config iv data, sealedSize config.enableBase64 data.length⟩ := by
  have hcipher := length_ciphertext aes config.secretKey iv data
  have hle := le_sealedSize config.enableBase64 data.length
  have hint : toInt32 ((data.length / 16 * 16 + 16 : Nat) : Int) =
    (data.length / 16 * 16 + 16 : Nat) := toInt32_of_lt (Nat.lt_of_le_of_lt hle h)
  have hsealed : (sealed aes config iv data).length = _ := length_sealed aes config iv data
  have hsize : toInt32 ((sealed aes config iv data).length : Nat) =
      (sealedSize config.enableBase64 data.length : Nat) := by
    rw [hsealed]
    exact toInt32_of_lt h
  rw [makeOutput, working_newOutput, if_neg (by decide), hint]
  cases hbase64 : config.enableBase64 with
  | false =>
      rw [if_neg (by decide)]
      simp only [sealed, sealedSize, hbase64]
      rfl
  | true =>
      have htext : Base64.encode ((ciphertext aes config.secretKey iv data).take
          ((data.length / 16 * 16 + 16 : Nat) : Int).toNat) = sealed aes config iv data := by
        rw [Int.toNat_natCast, ← hcipher, List.take_length, sealed, if_pos hbase64]
      have hpos : ¬ (sealedSize config.enableBase64 data.length : Int) ≤ 0 := by omega
      rw [if_pos ⟨rfl, rfl⟩, encodeBase64_working realloc (by omega) htext]
      simp only [hsize, if_neg hpos]
      rw [hbase64]

/-- Decryption of a whole result gives back the input. -/
theorem crypto_sealed (h : sealedSize config.enableBase64 data.length < 2 ^ 31) :
    ∃ o, crypto aes (.working realloc) config .decrypt (sealed aes config iv data) iv =
      some ⟨0, some (some o)⟩ ∧ o.size = data.length ∧ o.bytes = data := by
  have hcipher := length_ciphertext aes config.secretKey iv data
  have hlt := Nat.lt_of_le_of_lt (le_sealedSize config.enableBase64 data.length) h
  rcases cryptoSymmetric_ciphertext aes config iv realloc hlt with ⟨out, hout, htake⟩
  have hint : toInt32 data.length = data.length := toInt32_of_lt (by omega)
  have hmake : makeOutput (.working realloc) config .decrypt out data.length =
      some ⟨out, data.length⟩ := by
    rw [makeOutput, working_newOutput, if_neg (by decide), if_neg (by simp), hint]
  refine ⟨⟨out, data.length⟩, ?_, rfl, ?_⟩
  · cases hbase64 : config.enableBase64 with
    | false => simp [crypto, cipherInput, sealed, hbase64, hout, hmake, sendOutput]
    | true =>
        have hne : ciphertext aes config.secretKey iv data ≠ [] := by
          intro hnil
          rw [hnil, List.length_nil] at hcipher
          omega
        simp [crypto, cipherInput, sealed, hbase64, decodeBase64, hne, hout, hmake, sendOutput]
  · rw [CryptoOutput.bytes, Int.toNat_natCast, htake]

/-- The round trip succeeds, inside the buffer and with the whole size, exactly for the inputs that
do not consist of whole blocks and whose result has a size that is an `int`. -/
theorem roundTrip_iff (data : Bytes) :
    RoundTrip aes (.working realloc) config iv data ↔
      data.length % 16 ≠ 0 ∧ sealedSize config.enableBase64 data.length < 2 ^ 31 := by
  constructor
  · rintro ⟨o, o', hencrypt, hsize, -, -⟩
    -- The encryption alone is enough to exclude the other inputs.
    refine ⟨fun haligned => ?_, ?_⟩
    · rw [crypto_aligned aes config iv realloc haligned] at hencrypt
      cases hencrypt
    · have hlt := size_lt aes config iv hencrypt
      rw [hsize, length_sealed] at hlt
      exact_mod_cast hlt
  · rintro ⟨hunaligned, hfits⟩
    have hsym := cryptoSymmetric_unaligned aes config iv realloc hunaligned
    have hmake := makeOutput_ciphertext aes config iv realloc hfits
    have hlength := length_sealed aes config iv data
    rcases crypto_sealed aes config iv realloc hfits with ⟨o', hdecrypt, hsize', hbytes'⟩
    have hbytes : CryptoOutput.bytes ⟨sealed aes config iv data,
        sealedSize config.enableBase64 data.length⟩ = sealed aes config iv data := by
      rw [CryptoOutput.bytes, Int.toNat_natCast, ← hlength, List.take_length]
    refine ⟨_, o', ?_, ?_, hbytes, ?_, hsize', hbytes'⟩
    · simp [crypto, cipherInput, hsym, hmake, sendOutput]
    · rw [hlength]
    · rw [hbytes]
      exact hdecrypt

end Proofs

/-- Sixteen bytes: with no cipher, key or vector is the encryption inside its buffer. -/
theorem whole_block_overruns :
    ¬ ∃ (aes : Cbc.BlockCipher Key 16) (config : Config) (iv : Block) (realloc : Bool),
      crypto aes (.working realloc) config .encrypt (List.replicate 16 0) iv ≠ none ∨
        RoundTrip aes (.working realloc) config iv (List.replicate 16 0) := by
  rintro ⟨aes, config, iv, realloc, hinside | htrip⟩
  all_goals have haligned : (List.replicate 16 (0 : UInt8)).length % 16 = 0 := by simp
  · exact hinside (crypto_aligned aes config iv realloc haligned)
  · rcases htrip with ⟨o, o', hencrypt, -⟩
    rw [crypto_aligned aes config iv realloc haligned] at hencrypt
    cases hencrypt

end Authenticator
end Beyond
