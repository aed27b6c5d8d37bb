import Beyond.Base.Run
import Beyond.Authenticator.Configure

/-!
# Reads of key material

The secret key comes from a struct, from a JSON document, from its decoding or from random numbers, each
with a length of its own, and the cipher reads 32 bytes of it and 16 of the initial vector of its caller.

This module follows the lengths through any sequence of calls of `Configure`, `Prepare`, `Encrypt` and
`Decrypt`, of an authenticator with or without a thread for its commands.
-/

namespace Beyond
namespace Authenticator
namespace KeyReads

open Errno Bytes
open Configure (ConfigureEnv SecretKeyOption SslOption Document Parsed bitsToBytes)

/-! ## State -/

/-- The bytes that `EVP_aes_256_cbc` reads of a key. -/
def keyLength : Nat := 32

/-- The bytes that it reads of an initial vector. -/
def ivLength : Nat := 16

inductive Command
  | generate
  | crypto (op : CryptoOp) (iv : Bytes)
  deriving DecidableEq, Repr

/-- What an operation with `SECRET_KEY` has come to.  If it has reached the initialisation of the cipher,
it had `key` bytes of a key and `iv` bytes of an initial vector there. -/
structure Operation where
  reached : Bool
  key : Nat
  iv : Nat
  ret : Int
  deriving DecidableEq, Repr

structure State where
  configured : Configure.State
  activated : Bool
  /-- There is an event loop, whose thread executes the commands. -/
  async : Bool
  command : List Command
  operations : List Operation
  /-- A byte outside of a key was read for the configuration. -/
  overread : Bool

/-- An authenticator that was just created. -/
def State.start (async : Bool) : State where
  configured := .created
  activated := false
  async := async
  command := []
  operations := []
  overread := false

/-- A struct with a buffer of at least as many bytes as it says. -/
structure SecretKeyStruct extends SecretKeyOption where
  held : ∀ buffer, key = some buffer → bitsToBytes keyBits ≤ buffer.length

/-- What the calls of `Crypto` come to. -/
structure CryptoEnv where
  /-- What `DecodeBase64` of the input returns. -/
  decodeInput : Int
  /-- `EVP_CIPHER_CTX_new`. -/
  context : Bool
  /-- What `Send` of the output returns. -/
  send : Int
  deriving DecidableEq, Repr

/-- What a call of `Encrypt` or `Decrypt` meets if there is an event loop. -/
structure SendEnv where
  newInput : Bool
  sent : Int
  deriving DecidableEq, Repr

inductive Act
  | configureSecretKey (secrets : SecretKeyStruct) (e : ConfigureEnv)
  | configureSsl (ssl : SslOption)
  | configureJson (parsed : Parsed) (e : ConfigureEnv)
  /-- `Activate` returns `ret`. -/
  | activate (ret : Int)
  | deactivate
  | prepare (sent : Int) (e : ConfigureEnv)
  /-- `Encrypt` or `Decrypt` with `SECRET_KEY` and the bytes that `iv` points to. -/
  | request (op : CryptoOp) (iv : Option Bytes) (send : SendEnv) (e : CryptoEnv)
  /-- The thread executes the next command. -/
  | serve (g : ConfigureEnv) (e : CryptoEnv)

/-! ## Steps -/

/-- What `CommandGenerate` makes of the secret key. -/
def generate (e : ConfigureEnv) (c : Configure.State) : Configure.State :=
  if c.secretKey = [] then (Configure.generateSecretKey e c).1 else c

/-- `Crypto` with `SECRET_KEY`, of which only the initialisation of the cipher reads the key. -/
def crypto (c : Configure.State) (op : CryptoOp) (iv : Bytes) (e : CryptoEnv) : Operation :=
  if op = .decrypt ∧ c.sslConfig.enableBase64 = true ∧ e.decodeInput < 0 then
    ⟨false, 0, 0, e.decodeInput⟩
  -- What `CryptoSymmetric` returns is lost behind what `Send` returns.
  else if e.context = false then ⟨false, 0, 0, e.send⟩
  else ⟨true, c.secretKey.length, iv.length, e.send⟩

/-- It is what the whole of `CommandGenerate` leaves of the secret key. -/
theorem commandGenerate_secretKey {κ χ : Type*} (config : Keys.SslConfig)
    (ssl : Keys.SslContext κ χ) (g : Keys.GenerateEnv κ χ) {e : ConfigureEnv} {c : Configure.State}
    (hkey : ssl.secretKey = c.secretKey)
    (hgenerate : Configure.generateSecretKey e c =
      match g.generateSecretKey with
      | .error ret => (c, ret)
      | .ok secretKey => ({ c with secretKey := secretKey }, 0)) :
    (Keys.commandGenerate config ssl g).1.secretKey = (generate e c).secretKey := by
  rw [Keys.commandGenerate_secretKey, hkey]
  unfold Keys.secretAfter generate
  rw [hgenerate]
  split
  · cases g.generateSecretKey <;> rfl
  · rfl

namespace State

variable (s : State)

/-- The outcome of a `Configure`. -/
def configure : Option (Configure.State × Int) → State
  | none => { s with overread := true }
  | some done => { s with configured := done.1 }

def note (o : Operation) : State := { s with operations := s.operations ++ [o] }

/-- The call returns `ret` without any use of the key. -/
def refuse (ret : Int) : State := s.note ⟨false, 0, 0, ret⟩

end State

def prepare (s : State) (sent : Int) (e : ConfigureEnv) : State :=
  if s.activated = false then s
  else if s.async = true then
    if sent < 0 then s else { s with command := s.command ++ [.generate] }
  else { s with configured := generate e s.configured }

def request (s : State) (op : CryptoOp) (iv : Option Bytes) (send : SendEnv) (e : CryptoEnv) :
    State :=
  if s.activated = false then s.refuse (-EILSEQ)
  else if iv.getD [] = [] then s.refuse (-EINVAL)
  else if s.async = true then
    if send.newInput = false then s.refuse (-ENOMEM)
    else if send.sent < 0 then s.refuse send.sent
    else { s with command := s.command ++ [.crypto op (iv.getD [])] }
  else s.note (crypto s.configured op (iv.getD []) e)

def serve (s : State) (g : ConfigureEnv) (e : CryptoEnv) : Option State :=
  match s.command with
  | [] => none
  | .generate :: rest => some { s with command := rest, configured := generate g s.configured }
  | .crypto op iv :: rest => some ({ s with command := rest }.note (crypto s.configured op iv e))

def step (s : State) : Act → Option State
  | .configureSecretKey secrets e =>
      some (s.configure (Configure.configureSecretKey e s.configured secrets.toSecretKeyOption))
  | .configureSsl ssl => some (s.configure (some (Configure.configureSsl s.configured ssl)))
  | .configureJson parsed e => some (s.configure (Configure.configureJson e s.configured parsed))
  | .activate ret => some { s with activated := ret == 0 }
  | .deactivate => some { s with activated := false }
  | .prepare sent e => some (prepare s sent e)
  | .request op iv send e => some (request s op iv send e)
  | .serve g e => serve s g e

/-! ## The property -/

/-- The cipher finds the bytes that it reads, or it is not initialised and a negative code returned. -/
def Operation.Safe (o : Operation) : Prop :=
  if o.reached = true then keyLength ≤ o.key ∧ ivLength ≤ o.iv else o.ret < 0

/-- No byte outside of a key or of an initial vector was read. -/
structure NeverOverread (s : State) : Prop where
  configuration : s.overread = false
  operations : ∀ o ∈ s.operations, o.Safe

/-! ## The condition -/

/-- The key that is configured, or will be generated, is long enough for the cipher. -/
def Enough (enableBase64 : Bool) (e : ConfigureEnv) (secrets : SecretKeyOption) : Prop :=
  match secrets.key with
  | none => secrets.keyBits < 0 ∨ 8 * (keyLength : Int) ≤ secrets.keyBits
  | some key =>
      -- Otherwise it is refused.
      0 < secrets.keyBits → 8 * (keyLength : Int) ≤ secrets.keyBits ∧
        (enableBase64 = true → ∀ output,
          e.decodeBase64 (key.take (bitsToBytes secrets.keyBits)) = .ok output →
            keyLength ≤ output.length)

/-- The document asks for no more of its key than there is. -/
def Held (secrets : SecretKeyOption) : Prop :=
  ∀ key, secrets.key = some key → 0 < secrets.keyBits → bitsToBytes secrets.keyBits ≤ key.length

/-- The input of a decryption cannot be decoded; or there is a key and an initial vector that is long
enough for the cipher; or there is no memory for its context, and `Send` fails, too. -/
def SoundCrypto (c : Configure.State) (op : CryptoOp) (iv : Bytes) (e : CryptoEnv) : Prop :=
  (op = .decrypt ∧ c.sslConfig.enableBase64 = true ∧ e.decodeInput < 0) ∨
    (e.context = true ∧ c.secretKey ≠ [] ∧ ivLength ≤ iv.length) ∨
      (e.context = false ∧ e.send < 0)

/-- What is asked of each call. -/
def Sound (s : State) : Act → Prop
  | .configureSecretKey secrets e =>
      Enough s.configured.sslConfig.enableBase64 e secrets.toSecretKeyOption
  | .configureJson (.document d) e =>
      ∀ section_, d.secretKey = some section_ →
        Held section_.option ∧ Enough s.configured.sslConfig.enableBase64 e section_.option
  | .request op iv _ e =>
      s.activated = true → s.async = false → iv.getD [] ≠ [] →
        SoundCrypto s.configured op (iv.getD []) e
  | .serve _ e => ∀ op iv rest, s.command = .crypto op iv :: rest →
      SoundCrypto s.configured op iv e
  | _ => True

/-! ## Long keys -/

/-- A key that is held is long enough, and so is one that will be generated. -/
structure Long (c : Configure.State) : Prop where
  key : c.secretKey = [] ∨ keyLength ≤ c.secretKey.length
  bits : 8 * (keyLength : Int) ≤ c.sslConfig.secretKeyBits

theorem le_bitsToBytes {bits : Int} (h : 8 * (keyLength : Int) ≤ bits) :
    keyLength ≤ bitsToBytes bits := by
  unfold bitsToBytes
  omega

section Keys

variable {e : ConfigureEnv} {c : Configure.State}

theorem Long.generated (h : Long c) : Long (Configure.generateSecretKey e c).1 := by
  unfold Configure.generateSecretKey
  split
  · exact h
  · split
    · exact h
    · next buffer _ =>
        refine ⟨.inr ?_, h.bits⟩
        rw [Vector.length_toList]
        exact le_bitsToBytes h.bits

/-- The text that is configured is the whole of what its bits say. -/
theorem Long.loaded (h : Long c)
    (hlength : c.sslConfig.secretKey.length = bitsToBytes c.sslConfig.secretKeyBits)
    (hdecoded : c.sslConfig.enableBase64 = true → ∀ output,
      e.decodeBase64 c.sslConfig.secretKey = .ok output → keyLength ≤ output.length) :
    ∃ done, Configure.loadSecretKey e c = some done ∧ Long done.1 := by
  have hslice : slice c.sslConfig.secretKey 0 (bitsToBytes c.sslConfig.secretKeyBits) =
      some c.sslConfig.secretKey := slice_self hlength
  unfold Configure.loadSecretKey
  split
  · next hflag =>
      rw [hslice]
      dsimp only [bind, Option.bind]
      cases houtput : e.decodeBase64 c.sslConfig.secretKey with
      | error ret => exact ⟨_, rfl, h⟩
      | ok output => exact ⟨_, rfl, .inr (hdecoded hflag output houtput), h.bits⟩
  · refine ⟨_, rfl, .inr ?_, h.bits⟩
    dsimp only
    rw [hlength]
    exact le_bitsToBytes h.bits

theorem Long.configured (h : Long c) {secrets : SecretKeyOption} (hheld : Held secrets)
    (henough : Enough c.sslConfig.enableBase64 e secrets) :
    ∃ done, Configure.configureSecretKey e c secrets = some done ∧ Long done.1 := by
  -- Without a key one is generated.
  have hnone : ∀ bits, 8 * (keyLength : Int) ≤ bits →
      ∃ done, Configure.useSecretKey e { c with sslConfig := c.sslConfig.setSecretKey [] bits } =
        some done ∧ Long done.1 := by
    intro bits hbits
    refine ⟨_, if_pos rfl, Long.generated ⟨h.key, hbits⟩⟩
  unfold Configure.configureSecretKey
  cases hkey : secrets.key with
  | none =>
      rw [Enough, hkey] at henough
      dsimp only
      split
      · next hbits =>
          refine hnone _ (henough.resolve_left ?_)
          exact not_lt.2 hbits
      · exact hnone _ (by decide)
  | some key =>
      rw [Enough, hkey] at henough
      dsimp only
      split
      · exact ⟨_, rfl, h⟩
      · next hbits =>
          -- The text is read up to its bits, and what is kept of it has that length.
          rcases henough (not_le.1 hbits) with ⟨hlong, hdecoded⟩
          have hlength := hheld key hkey (not_le.1 hbits)
          rw [slice_take hlength]
          dsimp only [bind, Option.bind]
          have htake : (key.take (bitsToBytes secrets.keyBits)).length =
              bitsToBytes secrets.keyBits := List.length_take_of_le hlength
          unfold Configure.useSecretKey
          split
          · exact ⟨_, rfl, Long.generated ⟨h.key, hlong⟩⟩
          · exact Long.loaded ⟨h.key, hlong⟩ htake hdecoded

theorem Long.ssl (h : Long c) (ssl : SslOption) : Long (Configure.configureSsl c ssl).1 :=
  ⟨h.key, h.bits⟩

theorem Long.sslSection (h : Long c) (d : Document) : Long (Configure.configureSslSection c d).1 := by
  unfold Configure.configureSslSection
  split
  · exact h
  · exact h.ssl _

theorem Long.json (h : Long c) {parsed : Parsed}
    (hsound : ∀ d, parsed = .document d → ∀ section_, d.secretKey = some section_ →
      Held section_.option ∧ Enough c.sslConfig.enableBase64 e section_.option) :
    ∃ done, Configure.configureJson e c parsed = some done ∧ Long done.1 := by
  cases parsed with
  | noReader => exact ⟨_, rfl, h⟩
  | invalid => exact ⟨_, rfl, h⟩
  | errors => exact ⟨_, rfl, h⟩
  | document d =>
      unfold Configure.configureJson Configure.configureDocument
      dsimp only
      cases hsection : d.secretKey with
      | none => exact ⟨_, rfl, h.sslSection d⟩
      | some section_ =>
          -- The section `ssl`, which comes behind it, does not touch the key.
          rcases hsound d rfl section_ hsection with ⟨hheld, henough⟩
          rcases h.configured hheld henough with ⟨done, hdone, hlong⟩
          dsimp only
          rw [hdone]
          dsimp only [bind, Option.bind]
          split
          · exact ⟨_, rfl, hlong⟩
          · exact ⟨_, rfl, hlong.sslSection d⟩

theorem Long.generate (h : Long c) : Long (generate e c) := by
  unfold KeyReads.generate
  split
  · exact h.generated
  · exact h

/-- An operation on a long key is safe. -/
theorem Long.crypto (h : Long c) {op : CryptoOp} {iv : Bytes} {env : CryptoEnv}
    (hsound : SoundCrypto c op iv env) : (crypto c op iv env).Safe := by
  unfold KeyReads.crypto
  split
  · next hinput => exact hinput.2.2
  · next hinput =>
      rcases hsound with hfails | ⟨hcontext, hkey, hiv⟩ | ⟨hcontext, hsend⟩
      · exact absurd hfails hinput
      · rw [if_neg (hcontext ▸ nofun)]
        exact ⟨h.key.resolve_left hkey, hiv⟩
      · rw [if_pos hcontext]
        exact hsend

end Keys

/-! ## Steps and runs -/

/-- What every step keeps. -/
structure Inv (s : State) : Prop extends NeverOverread s where
  long : Long s.configured

section Steps

variable {s : State}

theorem inv_start (async : Bool) : Inv (.start async) where
  configuration := rfl
  operations := nofun
  long := ⟨.inl rfl, le_rfl⟩

theorem Inv.configure (hs : Inv s) {outcome : Option (Configure.State × Int)}
    (h : ∃ done, outcome = some done ∧ Long done.1) : Inv (s.configure outcome) := by
  rcases h with ⟨done, rfl, hlong⟩
  exact ⟨⟨hs.configuration, hs.operations⟩, hlong⟩

theorem Inv.note (hs : Inv s) {o : Operation} (ho : o.Safe) : Inv (s.note o) := by
  refine ⟨⟨hs.configuration, fun other hother => ?_⟩, hs.long⟩
  rcases List.mem_append.1 hother with hold | hnew
  · exact hs.operations other hold
  · rw [List.mem_singleton.1 hnew]
    exact ho

theorem Inv.refuse (hs : Inv s) {ret : Int} (hret : ret < 0) : Inv (s.refuse ret) := hs.note hret

theorem Inv.command (hs : Inv s) (command : List Command) : Inv { s with command := command } :=
  ⟨⟨hs.configuration, hs.operations⟩, hs.long⟩

theorem Inv.prepare (hs : Inv s) (sent : Int) (e : ConfigureEnv) : Inv (prepare s sent e) := by
  unfold KeyReads.prepare
  split
  · exact hs
  · split
    · split
      · exact hs
      · exact hs.command _
    · exact ⟨⟨hs.configuration, hs.operations⟩, hs.long.generate⟩

theorem Inv.request (hs : Inv s) {op : CryptoOp} {iv : Option Bytes} {send : SendEnv}
    {e : CryptoEnv} (hsound : Sound s (.request op iv send e)) : Inv (request s op iv send e) := by
  unfold KeyReads.request
  split
  · exact hs.refuse (by decide)
  · next hactivated =>
      split
      · exact hs.refuse (by decide)
      · next hiv =>
          split
          · split
            · exact hs.refuse (by decide)
            · split
              · next hsent => exact hs.refuse hsent
              · exact hs.command _
          · next hasync =>
              -- Without a thread the operation is executed by the call.
              refine hs.note (hs.long.crypto (hsound ?_ ?_ hiv))
              · simpa using hactivated
              · simpa using hasync

theorem Inv.serve (hs : Inv s) {g : ConfigureEnv} {e : CryptoEnv} {s' : State}
    (hsound : Sound s (.serve g e)) (h : serve s g e = some s') : Inv s' := by
  unfold KeyReads.serve at h
  split at h
  · cases h
  · cases h
    exact ⟨⟨hs.configuration, hs.operations⟩, hs.long.generate⟩
  · next op iv rest hcommand =>
      cases h
      exact (hs.command rest).note (hs.long.crypto (hsound op iv rest hcommand))

theorem inv_preserved : Run.Preserved step Sound Inv := by
  intro s a s' hs hsound h
  cases a with
  | configureSecretKey secrets e =>
      cases h
      refine hs.configure (hs.long.configured ?_ hsound)
      exact fun key hkey _ => secrets.held key hkey
  | configureSsl ssl =>
      cases h
      exact hs.configure ⟨_, rfl, hs.long.ssl ssl⟩
  | configureJson parsed e =>
      cases h
      refine hs.configure (hs.long.json ?_)
      rintro d rfl
      exact hsound
  | activate ret =>
      cases h
      exact ⟨⟨hs.configuration, hs.operations⟩, hs.long⟩
  | deactivate =>
      cases h
      exact ⟨⟨hs.configuration, hs.operations⟩, hs.long⟩
  | prepare sent e =>
      cases h
      exact hs.prepare sent e
  | request op iv send e =>
      cases h
      exact hs.request hsound
  | serve g e => exact hs.serve hsound h

end Steps

/-- A run of sound steps reads no byte that is not there. -/
theorem key_never_overread (async : Bool) (acts : List Act) {s : State}
    (hsound : Run.Along step Sound (.start async) acts)
    (hrun : Run.exec step (.start async) acts = some s) : NeverOverread s :=
  (Run.exec_invariant inv_preserved (inv_start async) hsound hrun).toNeverOverread

/-- Nothing fails, and texts are not decoded. -/
def working : ConfigureEnv where
  bio := true
  calloc := true
  bioRead := some
  realloc := true
  malloc := true
  random := fun n => some (Vector.replicate n 0)

/-- An encryption with an initial vector of 16 bytes. -/
def encryption : Act := .request .encrypt (some (List.replicate 16 1)) ⟨true, 0⟩ ⟨0, true, 0⟩

theorem prepared_encryption : ∃ s,
    Run.exec step (.start false) [.activate 0, .prepare 0 working, encryption] = some s ∧
      NeverOverread s := by
  refine ⟨_, rfl, key_never_overread false [.activate 0, .prepare 0 working, encryption] ?_ rfl⟩
  refine Run.along_of_step trivial rfl (Run.along_of_step trivial rfl ?_)
  refine Run.along_of_step (fun _ _ _ => .inr (.inl ⟨rfl, ?_, le_rfl⟩)) rfl trivial
  exact List.ne_nil_of_length_pos (by decide)

/-- A struct without a key that asks for 128 bits. -/
def shortKey : SecretKeyStruct where
  key := none
  keyBits := 128
  held := nofun

theorem shortKey_overread : ∃ s,
    Run.exec step (.start false) [.configureSecretKey shortKey working, .activate 0, encryption] =
        some s ∧ ¬ NeverOverread s := by
  refine ⟨_, rfl, fun hnever => ?_⟩
  have hsafe := hnever.operations ⟨true, 16, 16, 0⟩ (List.mem_singleton.2 rfl)
  exact absurd hsafe.1 (by decide)

end KeyReads
end Authenticator
end Beyond
