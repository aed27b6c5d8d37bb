import Beyond.Authenticator.Keys
import Beyond.Base.Bytes

/-!
# Configuration of the authenticator

`Configure` takes a secret key, the options of the `ssl` section, or a JSON document with both.  A secret
key is kept as it was given in `sslConfig` and, decoded or not, in `sslContext`; where none is given, one
is generated.

The functions below are `none` where a byte outside of a string is read.  A JSON document is what jsoncpp
makes of the text; what OpenSSL and the allocations come to is part of each call.
-/

namespace Beyond
namespace Authenticator
namespace Configure

open Errno Bytes

/-! ## State -/

def DEFAULT_SECRET_KEY_BITS : Int := 256
def DEFAULT_BITS : Int := 4096
def DEFAULT_SERIAL : Int := 1
def DEFAULT_DAYS : Int := 365

/-- `BITS_TO_BYTES`, for bits that are not negative. -/
def bitsToBytes (bits : Int) : Nat := (bits / 8).toNat

structure SslConfig where
  passphrase : Bytes
  privateKey : Bytes
  certificate : Bytes
  alternativeName : Bytes
  bits : Int
  serial : Int
  days : Int
  isCA : Bool
  enableBase64 : Bool
  secretKey : Bytes
  secretKeyBits : Int
  deriving DecidableEq, Repr

/-- What `Configure` changes of an authenticator; `secretKey` is that of `sslContext`. -/
structure State where
  sslConfig : SslConfig
  secretKey : Bytes
  deriving DecidableEq, Repr

/-- The constructor. -/
def State.created : State where
  sslConfig :=
    { passphrase := [], privateKey := [], certificate := [], alternativeName := []
      bits := DEFAULT_BITS, serial := DEFAULT_SERIAL, days := DEFAULT_DAYS
      isCA := true, enableBase64 := true
      secretKey := [], secretKeyBits := DEFAULT_SECRET_KEY_BITS }
  secretKey := []

/-- What the calls of OpenSSL and the allocations come to. -/
structure ConfigureEnv where
  /-- The calls of `DecodeBase64` up to `BIO_push`. -/
  bio : Bool
  calloc : Bool
  /-- What `BIO_read` puts out for a text; `none` if it returns -2. -/
  bioRead : Bytes → Option Bytes
  realloc : Bool
  malloc : Bool
  /-- The bytes of `RAND_bytes`. -/
  random : (n : Nat) → Option (Vector UInt8 n)

/-! ## Secret keys -/

/-- `DecodeBase64` of a text that has been read. -/
def ConfigureEnv.decodeBase64 (e : ConfigureEnv) (text : Bytes) : Except Int Bytes :=
  if e.bio = false then .error (-EFAULT)
  else if e.calloc = false then .error (-ENOMEM)
  else
    match e.bioRead text with
    | none => .error (-ENOTSUP)
    | some output =>
        if output = [] then .error (-EFAULT)
        else if e.realloc = false then .error (-ENOMEM)
        else .ok output

def generateSecretKey (e : ConfigureEnv) (s : State) : State × Int :=
  if e.malloc = false then (s, -ENOMEM)
  else
    match e.random (bitsToBytes s.sslConfig.secretKeyBits) with
    | none => (s, -EFAULT)
    | some buffer => ({ s with secretKey := buffer.toList }, 0)

def loadSecretKey (e : ConfigureEnv) (s : State) : Option (State × Int) :=
  if s.sslConfig.enableBase64 = true then do
    let text ← slice s.sslConfig.secretKey 0 (bitsToBytes s.sslConfig.secretKeyBits)
    match e.decodeBase64 text with
    | .error ret => some (s, ret)
    | .ok output => some ({ s with secretKey := output }, 0)
  else some ({ s with secretKey := s.sslConfig.secretKey }, 0)

/-- `beyond_authenticator_ssl_config_secret_key`, with the bytes that `key` points to. -/
structure SecretKeyOption where
  key : Option Bytes
  keyBits : Int
  deriving DecidableEq, Repr

/-- The part of `ConfigureSecretKey` that sets `sslConfig`. -/
def SslConfig.setSecretKey (config : SslConfig) (secretKey : Bytes) (bits : Int) : SslConfig :=
  { config with secretKey := secretKey, secretKeyBits := bits }

/-- The end of `ConfigureSecretKey`. -/
def useSecretKey (e : ConfigureEnv) (s : State) : Option (State × Int) :=
  if s.sslConfig.secretKey = [] then some (generateSecretKey e s) else loadSecretKey e s

def configureSecretKey (e : ConfigureEnv) (s : State) (secrets : SecretKeyOption) :
    Option (State × Int) :=
  match secrets.key with
  | some key =>
      if secrets.keyBits ≤ 0 then some (s, -EINVAL)
      else do
        let secretKey ← slice key 0 (bitsToBytes secrets.keyBits)
        useSecretKey e { s with sslConfig := s.sslConfig.setSecretKey secretKey secrets.keyBits }
  | none =>
      if 0 ≤ secrets.keyBits then
        useSecretKey e { s with sslConfig := s.sslConfig.setSecretKey [] secrets.keyBits }
      else
        useSecretKey e
          { s with sslConfig := s.sslConfig.setSecretKey [] DEFAULT_SECRET_KEY_BITS }

/-! ## The ssl section -/

/-- `beyond_authenticator_ssl_config_ssl`, with what its pointers point to. -/
structure SslOption where
  bits : Int
  serial : Int
  days : Int
  isCA : Int
  enableBase64 : Int
  passphrase : Option Bytes
  privateKey : Option Bytes
  certificate : Option Bytes
  alternativeName : Option Bytes
  deriving DecidableEq, Repr

/-- `std::string(text)`, or an empty string for a null pointer. -/
def textOption (text : Option Bytes) : Bytes := cstring (text.getD [])

/-- 0 stands for the default, and a negative number for what was there. -/
def numberOption (number default old : Int) : Int :=
  if 0 < number then number else if number = 0 then default else old

/-- A negative number stands for `true`. -/
def flagOption (flag : Int) : Bool := if 0 ≤ flag then flag != 0 else true

def SslConfig.configureSsl (config : SslConfig) (ssl : SslOption) : SslConfig :=
  { config with
    passphrase := textOption ssl.passphrase
    privateKey := textOption ssl.privateKey
    certificate := textOption ssl.certificate
    alternativeName := textOption ssl.alternativeName
    bits := numberOption ssl.bits DEFAULT_BITS config.bits
    days := numberOption ssl.days DEFAULT_DAYS config.days
    serial := numberOption ssl.serial DEFAULT_SERIAL config.serial
    isCA := flagOption ssl.isCA
    enableBase64 := flagOption ssl.enableBase64 }

def configureSsl (s : State) (ssl : SslOption) : State × Int :=
  ({ s with sslConfig := s.sslConfig.configureSsl ssl }, 0)

/-! ## JSON documents -/

/-- The object `secret_key`; a member of another type is as good as none. -/
structure SecretKeySection where
  key : Option Bytes
  keyBits : Option Int
  deriving DecidableEq, Repr

def SecretKeySection.option (section_ : SecretKeySection) : SecretKeyOption :=
  ⟨section_.key, section_.keyBits.getD (-1)⟩

/-- The object `ssl`. -/
structure SslSection where
  passphrase : Option Bytes
  privateKey : Option Bytes
  certificate : Option Bytes
  alternativeName : Option Bytes
  bits : Option Int
  days : Option Int
  serial : Option Int
  isCA : Option Int
  enableBase64 : Option Int
  deriving DecidableEq, Repr

def SslSection.option (section_ : SslSection) : SslOption where
  bits := section_.bits.getD (-1)
  serial := section_.serial.getD (-1)
  days := section_.days.getD (-1)
  isCA := section_.isCA.getD (-1)
  enableBase64 := section_.enableBase64.getD (-1)
  passphrase := section_.passphrase
  privateKey := section_.privateKey
  certificate := section_.certificate
  alternativeName := section_.alternativeName

/-- The sections of a document that are there and not empty. -/
structure Document where
  secretKey : Option SecretKeySection
  ssl : Option SslSection
  deriving DecidableEq, Repr

/-- What the reader makes of the text. -/
inductive Parsed
  | noReader
  | invalid
  /-- It puts out errors, although it succeeds. -/
  | errors
  | document (d : Document)
  deriving DecidableEq, Repr

/-- The second half of `ConfigureJSON`. -/
def configureSslSection (s : State) (d : Document) : State × Int :=
  match d.ssl with
  | none => (s, 0)
  | some section_ => configureSsl s section_.option

def configureDocument (e : ConfigureEnv) (s : State) (d : Document) : Option (State × Int) :=
  match d.secretKey with
  | none => some (configureSslSection s d)
  | some section_ => do
      let done ← configureSecretKey e s section_.option
      if done.2 < 0 then some done else some (configureSslSection done.1 d)

def configureJson (e : ConfigureEnv) (s : State) : Parsed → Option (State × Int)
  | .noReader => some (s, -EFAULT)
  | .invalid => some (s, -EINVAL)
  | .errors => some (s, -EFAULT)
  | .document d => configureDocument e s d

end Configure
end Authenticator
end Beyond
