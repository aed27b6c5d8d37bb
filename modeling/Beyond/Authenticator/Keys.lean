import Beyond.Authenticator.Operations

/-!
# The keys of the authenticator

`CommandGenerate` makes or loads the key pair, the certificate and the secret key, `CommandCleanup`
releases the first two, and `GetKey`, `GenerateSign` and `VerifySign` use them.  A synchronous
authenticator executes them inside its calls.  Key pairs and certificates are those of OpenSSL and
belong to arbitrary types; what OpenSSL and the allocations return is part of each call.
-/

namespace Beyond
namespace Authenticator
namespace Keys

open Errno
open Operations (KeyId)

/-- `sslContext`. -/
structure SslContext (κ χ : Type*) where
  x509 : Option χ
  keypair : Option κ
  secretKey : Bytes
  deriving DecidableEq, Repr

/-- What the functions below use of `sslConfig`. -/
structure SslConfig where
  privateKey : Bytes
  certificate : Bytes
  enableBase64 : Bool
  deriving DecidableEq, Repr

variable {κ χ : Type*}

/-! ## Generation -/

/-- What the functions called by `CommandGenerate` come to. -/
structure GenerateEnv (κ χ : Type*) where
  /-- The new key pair of `GenerateKey`. -/
  generateKey : Option κ
  /-- The certificate of a key pair, or what `GenerateCertificate` returns. -/
  generateCertificate : κ → Except Int χ
  loadPrivateKey : Bytes → Except Int κ
  loadCertificate : Bytes → Except Int χ
  generateSecretKey : Except Int Bytes

/-- `GenerateKey` and, behind it, `GenerateCertificate`. -/
def generateKey (ssl : SslContext κ χ) (e : GenerateEnv κ χ) : SslContext κ χ × Int :=
  match e.generateKey with
  | none => (ssl, -EFAULT)
  | some keypair =>
      match e.generateCertificate keypair with
      | .error ret => ({ ssl with keypair := some keypair }, ret)
      | .ok x509 => ({ ssl with keypair := some keypair, x509 := some x509 }, 0)

/-- The first half of `LoadCertificate`; an error returns from it. -/
def loadPrivateKey (config : SslConfig) (ssl : SslContext κ χ) (e : GenerateEnv κ χ) :
    Except Int (SslContext κ χ × Int) :=
  if config.privateKey = [] then .ok (ssl, -ENOENT)
  else
    match e.loadPrivateKey config.privateKey with
    | .error ret => .error ret
    | .ok keypair => .ok ({ ssl with keypair := some keypair }, 0)

def loadCertificate (config : SslConfig) (ssl : SslContext κ χ) (e : GenerateEnv κ χ) :
    SslContext κ χ × Int :=
  match loadPrivateKey config ssl e with
  | .error ret => (ssl, ret)
  | .ok (ssl, ret) =>
      if config.certificate = [] then (ssl, ret)
      else
        match e.loadCertificate config.certificate with
        | .error ret => (ssl, ret)
        | .ok x509 => ({ ssl with x509 := some x509 }, 0)

/-- The key pair and the certificate of `CommandGenerate`. -/
def generateKeypair (config : SslConfig) (ssl : SslContext κ χ) (e : GenerateEnv κ χ) :
    SslContext κ χ × Int :=
  if config.privateKey = [] ∧ config.certificate = [] then generateKey ssl e
  else loadCertificate config ssl e

def commandGenerate (config : SslConfig) (ssl : SslContext κ χ) (e : GenerateEnv κ χ) :
    SslContext κ χ × Int :=
  let made := generateKeypair config ssl e
  if made.1.secretKey = [] then
    -- Whatever the key pair has come to, this is what is returned.
    match e.generateSecretKey with
    | .error ret => (made.1, ret)
    | .ok secretKey => ({ made.1 with secretKey := secretKey }, 0)
  else made

/-- `CommandCleanup`, without its event. -/
def SslContext.cleanup (ssl : SslContext κ χ) : SslContext κ χ :=
  { ssl with keypair := none, x509 := none }

@[simp] theorem cleanup_keypair (ssl : SslContext κ χ) : ssl.cleanup.keypair = none := rfl

@[simp] theorem cleanup_x509 (ssl : SslContext κ χ) : ssl.cleanup.x509 = none := rfl

@[simp] theorem cleanup_secretKey (ssl : SslContext κ χ) :
    ssl.cleanup.secretKey = ssl.secretKey := rfl

/-! ## Keys -/

/-- What `GetKey` has got: `size` bytes at `key`. -/
structure KeyInfo where
  key : Bytes
  size : Int
  deriving DecidableEq, Repr

/-- What the functions called by `GetKey` do. -/
structure KeyEnv (κ χ : Type*) where
  bioNew : Bool
  /-- What `PEM_write_bio_PrivateKey` writes. -/
  writePrivateKey : κ → Option Bytes
  /-- `X509_get_pubkey`. -/
  getPubkey : χ → Option κ
  /-- `EVP_PKEY_get1_RSA`. -/
  getRsa : Bool
  writePublicKey : κ → Option Bytes
  writeX509 : χ → Option Bytes
  calloc : Bool
  /-- A negative code if a call of `EncodeBase64` fails. -/
  base64 : Int

/-- `DEFAULT_BIO_BUFSZ`. -/
def bioBufferSize : Nat := 4096

section GetKey

variable (config : SslConfig) (ssl : SslContext κ χ) (e : KeyEnv κ χ)

/-- `BIO_read` of what was written, and the copy of it. -/
def readBio (written : Option Bytes) : Except Int KeyInfo :=
  match written with
  | none => .error (-EFAULT)
  | some text =>
      let buffer := text.take bioBufferSize
      if buffer = [] then .error (-EFAULT)
      else if e.calloc = false then .error (-ENOMEM)
      else .ok ⟨buffer, buffer.length⟩

def getPrivateKey : Except Int KeyInfo :=
  match ssl.keypair with
  | none => .error (-EINVAL)
  | some keypair =>
      if e.bioNew = false then .error (-EFAULT) else readBio e (e.writePrivateKey keypair)

def getPublicKey : Except Int KeyInfo :=
  match ssl.x509 with
  | none => .error (-EINVAL)
  | some x509 =>
      if e.bioNew = false then .error (-EFAULT)
      else
        match e.getPubkey x509 with
        | none => .error (-EFAULT)
        | some pubkey =>
            if e.getRsa = false then .error (-EFAULT) else readBio e (e.writePublicKey pubkey)

def getCertificate : Except Int KeyInfo :=
  match ssl.x509 with
  | none => .error (-EINVAL)
  | some x509 => if e.bioNew = false then .error (-EFAULT) else readBio e (e.writeX509 x509)

def getSecretKey : Except Int KeyInfo :=
  if ssl.secretKey = [] then .error (-EINVAL)
  else if config.enableBase64 = true then
    match encodeBase64 { Env.working true with base64 := e.base64 } ssl.secretKey
      (Bytes.toInt32 ssl.secretKey.length) with
    | .error ret => .error ret
    | .ok (output, outputSize) =>
        if outputSize ≤ 0 then .error (-EINVAL) else .ok ⟨output, outputSize⟩
  else if e.calloc = false then .error (-ENOMEM)
  else .ok ⟨ssl.secretKey, Bytes.toInt32 ssl.secretKey.length⟩

def getKey : KeyId → Except Int KeyInfo
  | .privateKey => getPrivateKey ssl e
  | .publicKey => getPublicKey ssl e
  | .certificate => getCertificate ssl e
  | .secretKey => getSecretKey config ssl e
  | .other => .error (-EINVAL)

end GetKey

/-! ## Signatures -/

/-- The calls of `GenerateSign` that may fail; both calls of `EVP_DigestSignFinal` are `final`. -/
inductive SignFailure
  | getRsa
  | pkeyNew
  | assignRsa
  | mdCtxCreate
  | getDigest
  | init
  | update
  | final
  | calloc
  deriving DecidableEq, Repr

structure SignEnv (κ : Type*) where
  fails : Option SignFailure
  /-- The signature of the data. -/
  sign : κ → Bytes → Bytes

def generateSign (ssl : SslContext κ χ) (data : Bytes) (e : SignEnv κ) : Except Int Bytes :=
  match ssl.keypair with
  | none => .error (-EINVAL)
  | some keypair =>
      match e.fails with
      | some .calloc => .error (-ENOMEM)
      | some _ => .error (-EFAULT)
      | none => .ok (e.sign keypair data)

structure VerifyEnv (χ : Type*) where
  /-- No call before `EVP_DigestVerifyFinal` fails. -/
  context : Bool
  /-- What `EVP_DigestVerifyFinal` returns for a signature and the data. -/
  final : χ → Bytes → Bytes → Int

def verifySign (ssl : SslContext κ χ) (signedData original : Bytes) (e : VerifyEnv χ) :
    Except Int Bool :=
  match ssl.x509 with
  | none => .error (-EINVAL)
  | some x509 =>
      if e.context = false then .error (-EFAULT)
      else
        let ret := e.final x509 signedData original
        if 0 ≤ ret then .ok (ret == 1) else .error (-EFAULT)

/-! ## Requests -/

/-- A call of `GetKey`, `GenerateSignature` or `VerifySignature`. -/
inductive Request (κ χ : Type*)
  | getKey (id : KeyId) (e : KeyEnv κ χ)
  | generateSignature (data : Bytes) (e : SignEnv κ)
  | verifySignature (signedData original : Bytes) (e : VerifyEnv χ)

/-- What such a call puts out where it returns 0. -/
inductive Output
  | key (info : KeyInfo)
  | signature (encoded : Bytes)
  | authentic (authentic : Bool)
  deriving DecidableEq, Repr

def answer (config : SslConfig) (ssl : SslContext κ χ) : Request κ χ → Except Int Output
  | .getKey id e => (getKey config ssl e id).map .key
  | .generateSignature data e => (generateSign ssl data e).map .signature
  | .verifySignature signedData original e =>
      (verifySign ssl signedData original e).map .authentic

/-! ## The synchronous authenticator -/

/-- `Authenticator::Create(false)`: there is no event loop. -/
structure Sync (κ χ : Type*) where
  activated : Bool
  ssl : SslContext κ χ
  deriving DecidableEq, Repr

namespace Sync

def activate (s : Sync κ χ) : Sync κ χ × Int := ({ s with activated := true }, 0)

def prepare (config : SslConfig) (s : Sync κ χ) (e : GenerateEnv κ χ) : Sync κ χ × Int :=
  if s.activated = false then (s, -EILSEQ)
  else
    let done := commandGenerate config s.ssl e
    ({ s with ssl := done.1 }, done.2)

def deactivate (s : Sync κ χ) : Sync κ χ × Int :=
  if s.activated = false then (s, -EILSEQ)
  else ({ activated := false, ssl := s.ssl.cleanup }, 0)

end Sync

/-! ## The secret key -/

/-- What `CommandGenerate` makes of the secret key. -/
def secretAfter (key : Bytes) (e : GenerateEnv κ χ) : Bytes :=
  if key = [] then
    match e.generateSecretKey with
    | .error _ => key
    | .ok secretKey => secretKey
  else key

section SecretKey

variable {config : SslConfig} {ssl : SslContext κ χ} {e : GenerateEnv κ χ}

theorem generateKey_secretKey : (generateKey ssl e).1.secretKey = ssl.secretKey := by
  unfold generateKey
  cases e.generateKey with
  | none => rfl
  | some keypair => cases h : e.generateCertificate keypair <;> simp [h]

theorem loadPrivateKey_secretKey {made : SslContext κ χ × Int}
    (h : loadPrivateKey config ssl e = .ok made) : made.1.secretKey = ssl.secretKey := by
  unfold loadPrivateKey at h
  split at h
  · cases h
    rfl
  · cases hkey : e.loadPrivateKey config.privateKey with
    | error ret => simp [hkey] at h
    | ok keypair =>
        simp only [hkey, Except.ok.injEq] at h
        subst h
        rfl

theorem loadCertificate_secretKey : (loadCertificate config ssl e).1.secretKey = ssl.secretKey := by
  unfold loadCertificate
  cases h : loadPrivateKey config ssl e with
  | error ret => rfl
  | ok made =>
      have hmade := loadPrivateKey_secretKey h
      simp only
      split
      · exact hmade
      · cases e.loadCertificate config.certificate with
        | error ret => exact hmade
        | ok x509 => exact hmade

theorem generateKeypair_secretKey : (generateKeypair config ssl e).1.secretKey = ssl.secretKey := by
  unfold generateKeypair
  split
  · exact generateKey_secretKey
  · exact loadCertificate_secretKey

/-- Only the secret key decides what becomes of the secret key. -/
theorem commandGenerate_secretKey :
    (commandGenerate config ssl e).1.secretKey = secretAfter ssl.secretKey e := by
  simp only [commandGenerate, secretAfter, generateKeypair_secretKey]
  split
  · cases e.generateSecretKey with
    | error ret => exact generateKeypair_secretKey
    | ok secretKey => rfl
  · exact generateKeypair_secretKey

end SecretKey

end Keys
end Authenticator
end Beyond
