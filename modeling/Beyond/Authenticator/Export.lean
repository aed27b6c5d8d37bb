import Beyond.Authenticator.Configure
import Beyond.Authenticator.Prepare

/-!
# Exported keys

`GetKey` writes a key pair, a public key or a certificate as PEM text and reads the text back through a
buffer of `DEFAULT_BIO_BUFSZ` bytes.  What it passes on can be given to another authenticator by
`ConfigureSSL`, which loads it when it is prepared.

Of OpenSSL it is assumed that it reads what it has written and does not accept the beginning of a text; a
memory BIO gives no more bytes than it is asked for, and all of them if there are no more.
-/

namespace Beyond
namespace Authenticator
namespace Export

open Bytes
open Errno
open Keys
open Operations (KeyId)
open Prepare (PrepareEnv)

/-! ## OpenSSL -/

/-- The PEM functions for one kind of objects. -/
structure Pem (α : Type*) where
  write : α → Bytes
  read : Bytes → Option α
  read_write : ∀ a, read (write a) = some a
  truncated : ∀ a n, n < (write a).length → read ((write a).take n) = none
  ne_nil : ∀ a, write a ≠ []
  /-- A PEM text has no zero byte. -/
  text : ∀ a, 0 ∉ write a

structure OpenSsl (κ χ : Type*) where
  privateKey : Pem κ
  certificate : Pem χ
  /-- The key of a certificate. -/
  pubkey : χ → κ
  writePublicKey : κ → Bytes

/-- Which of the calls of `GetKey` succeed. -/
structure Calls where
  bioNew : Bool
  getPubkey : Bool
  getRsa : Bool
  write : Bool
  calloc : Bool
  deriving DecidableEq, Repr

variable {κ χ : Type*}

def OpenSsl.env (o : OpenSsl κ χ) (c : Calls) : KeyEnv κ χ where
  bioNew := c.bioNew
  writePrivateKey := fun keypair => if c.write then some (o.privateKey.write keypair) else none
  getPubkey := fun x509 => if c.getPubkey then some (o.pubkey x509) else none
  getRsa := c.getRsa
  writePublicKey := fun pubkey => if c.write then some (o.writePublicKey pubkey) else none
  writeX509 := fun x509 => if c.write then some (o.certificate.write x509) else none
  calloc := c.calloc
  base64 := 0

/-- A text of which at most `n` bytes were kept is read if it has no more. -/
theorem Pem.read_take {α : Type*} (p : Pem α) (a : α) (n : Nat) :
    p.read ((p.write a).take n) = if (p.write a).length ≤ n then some a else none := by
  split
  · next hle => rw [List.take_of_length_le hle, p.read_write]
  · next hlt => exact p.truncated a n (Nat.lt_of_not_le hlt)

theorem Pem.take_ne_nil {α : Type*} (p : Pem α) (a : α) {n : Nat} (hn : 0 < n) :
    (p.write a).take n ≠ [] := by
  intro hnil
  rcases List.take_eq_nil_iff.1 hnil with hzero | hempty
  · omega
  · exact p.ne_nil a hempty

/-! ## `GetKey` -/

/-- The keys that are exported as PEM text. -/
def IsPem : KeyId → Prop
  | .privateKey | .publicKey | .certificate => True
  | .secretKey | .other => False

theorem isPem_privateKey : IsPem .privateKey := trivial

theorem isPem_certificate : IsPem .certificate := trivial

/-- The whole text of what is held. -/
def pemText (o : OpenSsl κ χ) (ssl : SslContext κ χ) : KeyId → Option Bytes
  | .privateKey => ssl.keypair.map o.privateKey.write
  | .publicKey => ssl.x509.map fun x509 => o.writePublicKey (o.pubkey x509)
  | .certificate => ssl.x509.map o.certificate.write
  | .secretKey | .other => none

/-- All calls for this key succeed. -/
def Works (c : Calls) : KeyId → Prop
  | .publicKey => c.bioNew = true ∧ c.getPubkey = true ∧ c.getRsa = true ∧ c.write = true ∧
      c.calloc = true
  | _ => c.bioNew = true ∧ c.write = true ∧ c.calloc = true

section GetKey

variable (o : OpenSsl κ χ) (config : Keys.SslConfig) (ssl : SslContext κ χ) (c : Calls)

/-- The key that comes of a text. -/
def exported (text : Bytes) : KeyInfo :=
  ⟨text.take bioBufferSize, (text.take bioBufferSize).length⟩

theorem readBio_ok_iff {written : Option Bytes} {info : KeyInfo} :
    readBio (o.env c) written = .ok info ↔
      ∃ text, written = some text ∧ c.calloc = true ∧ text ≠ [] ∧ info = exported text := by
  cases written with
  | none => simp [readBio]
  | some text =>
      have hempty : text.take bioBufferSize = [] ↔ text = [] := by
        rw [List.take_eq_nil_iff]
        exact or_iff_right (by decide)
      cases hcalloc : c.calloc with
      | false =>
          simp only [readBio, OpenSsl.env, hcalloc, if_true]
          split <;> simp
      | true =>
          simp only [readBio, OpenSsl.env, hcalloc, Bool.true_eq_false, if_false]
          split
          · next hnil => simp [hempty.1 hnil]
          · next hne =>
              have htext : text ≠ [] := fun h => hne (hempty.2 h)
              constructor
              · intro hok
                cases hok
                exact ⟨text, rfl, trivial, htext, rfl⟩
              · rintro ⟨_, hsome, -, -, rfl⟩
                cases hsome
                rfl

/-- `GetKey` succeeds where all of its calls do, with what fits into the buffer. -/
theorem getKey_ok_iff {id : KeyId} (hid : IsPem id) {info : KeyInfo} :
    getKey config ssl (o.env c) id = .ok info ↔
      ∃ text, pemText o ssl id = some text ∧ Works c id ∧ text ≠ [] ∧ info = exported text := by
  cases id with
  | secretKey => exact hid.elim
  | other => exact hid.elim
  | privateKey =>
      cases hkeypair : ssl.keypair with
      | none => simp [getKey, getPrivateKey, pemText, hkeypair]
      | some keypair =>
          cases hbio : c.bioNew with
          | false => simp [getKey, getPrivateKey, OpenSsl.env, hkeypair, hbio, Works]
          | true =>
              have hread : getKey config ssl (o.env c) .privateKey =
                  readBio (o.env c) (if c.write then some (o.privateKey.write keypair) else none) := by
                simp [getKey, getPrivateKey, OpenSsl.env, hkeypair, hbio]
              rw [hread, readBio_ok_iff]
              simp [pemText, hkeypair, Works, hbio, and_assoc]
  | certificate =>
      cases hx509 : ssl.x509 with
      | none => simp [getKey, getCertificate, pemText, hx509]
      | some x509 =>
          cases hbio : c.bioNew with
          | false => simp [getKey, getCertificate, OpenSsl.env, hx509, hbio, Works]
          | true =>
              have hread : getKey config ssl (o.env c) .certificate =
                  readBio (o.env c) (if c.write then some (o.certificate.write x509) else none) := by
                simp [getKey, getCertificate, OpenSsl.env, hx509, hbio]
              rw [hread, readBio_ok_iff]
              simp [pemText, hx509, Works, hbio, and_assoc]
  | publicKey =>
      cases hx509 : ssl.x509 with
      | none => simp [getKey, getPublicKey, pemText, hx509]
      | some x509 =>
          by_cases hcalls : c.bioNew = true ∧ c.getPubkey = true ∧ c.getRsa = true
          · rcases hcalls with ⟨hbio, hpubkey, hrsa⟩
            have hread : getKey config ssl (o.env c) .publicKey =
                readBio (o.env c)
                  (if c.write then some (o.writePublicKey (o.pubkey x509)) else none) := by
              simp [getKey, getPublicKey, OpenSsl.env, hx509, hbio, hpubkey, hrsa]
            rw [hread, readBio_ok_iff]
            simp [pemText, hx509, Works, hbio, hpubkey, hrsa, and_assoc]
          · constructor
            · intro hok
              exfalso
              -- One of the calls in front of the writing fails.
              simp only [getKey, getPublicKey, OpenSsl.env, hx509] at hok
              grind
            · rintro ⟨text, -, hworks, -⟩
              exact absurd ⟨hworks.1, hworks.2.1, hworks.2.2.1⟩ hcalls

/-- A key that is passed on is the whole text, with its length. -/
def Complete (id : KeyId) : Prop :=
  ∀ info, getKey config ssl (o.env c) id = .ok info →
    ∃ text, pemText o ssl id = some text ∧ info = ⟨text, text.length⟩

/-- Where nothing fails, the text has no more bytes than the buffer. -/
def Fits (id : KeyId) : Prop :=
  ∀ text, pemText o ssl id = some text → Works c id → text.length ≤ bioBufferSize

theorem exported_eq_iff (text : Bytes) :
    exported text = ⟨text, text.length⟩ ↔ text.length ≤ bioBufferSize := by
  constructor
  · intro h
    have hkey : text.take bioBufferSize = text := congrArg KeyInfo.key h
    exact List.take_eq_self_iff _ |>.1 hkey
  · intro hle
    simp only [exported, List.take_of_length_le hle]

theorem complete_iff {id : KeyId} (hid : IsPem id) :
    Complete o config ssl c id ↔ Fits o ssl c id := by
  constructor
  · intro h text htext hworks
    by_cases hnil : text = []
    · rw [hnil]
      exact Nat.zero_le _
    · have hok := (getKey_ok_iff o config ssl c hid).2 ⟨text, htext, hworks, hnil, rfl⟩
      rcases h _ hok with ⟨whole, hwhole, hinfo⟩
      cases Option.some.inj (htext.symm.trans hwhole)
      exact (exported_eq_iff text).1 hinfo
  · intro h info hok
    rcases (getKey_ok_iff o config ssl c hid).1 hok with ⟨text, htext, hworks, -, rfl⟩
    exact ⟨text, htext, (exported_eq_iff text).2 (h text htext hworks)⟩

end GetKey

/-! ## The second authenticator -/

/-- What `CommandGenerate` uses of what `ConfigureSSL` has set. -/
def configured (config : Configure.SslConfig) : Keys.SslConfig :=
  ⟨config.privateKey, config.certificate, config.enableBase64⟩

/-- The options of another authenticator with exported keys; `GetKey` ends them with a zero byte. -/
def withExported (option : Configure.SslOption) (privateKey certificate : KeyInfo) :
    Configure.SslOption :=
  { option with
    privateKey := some (privateKey.key ++ [0])
    certificate := some (certificate.key ++ [0]) }

/-- `ConfigureSSL` with the exported keys, then `Prepare`, which executes `CommandGenerate`. -/
def second (s : Configure.State) (ssl : SslContext κ χ) (option : Configure.SslOption)
    (p : PrepareEnv κ χ) (privateKey certificate : KeyInfo) : SslContext κ χ :=
  let s := (Configure.configureSsl s (withExported option privateKey certificate)).1
  (commandGenerate (configured s.sslConfig) ssl p.env).1

/-- No call in front of `PEM_read_bio_PrivateKey` and `PEM_read_bio_X509` fails. -/
structure Reads (o : OpenSsl κ χ) (p : PrepareEnv κ χ) : Prop where
  privateKey : p.readPrivateKey = o.privateKey.read
  x509 : p.readX509 = o.certificate.read

/-- Every second authenticator holds the same key pair and the same certificate. -/
def RoundTrip (o : OpenSsl κ χ) (config : Keys.SslConfig) (ssl : SslContext κ χ)
    (c d : Calls) : Prop :=
  ∀ privateKey certificate,
    getKey config ssl (o.env c) .privateKey = .ok privateKey →
    getKey config ssl (o.env d) .certificate = .ok certificate →
    ∀ s ssl' option p, Reads o p →
      (second s ssl' option p privateKey certificate).keypair = ssl.keypair ∧
        (second s ssl' option p privateKey certificate).x509 = ssl.x509

section Second

variable {o : OpenSsl κ χ}

theorem loadPrivateKey_toOption (p : PrepareEnv κ χ) (text : Bytes) :
    (p.loadPrivateKey text).toOption = p.readPrivateKey text := by
  unfold PrepareEnv.loadPrivateKey
  cases p.readPrivateKey text <;> rfl

theorem loadPrivateKey_isOk (p : PrepareEnv κ χ) (text : Bytes) :
    (p.loadPrivateKey text).isOk = (p.readPrivateKey text).isSome := by
  unfold PrepareEnv.loadPrivateKey
  cases p.readPrivateKey text <;> rfl

theorem loadCertificate_toOption (p : PrepareEnv κ χ) (text : Bytes) :
    (p.loadCertificate text).toOption = p.readX509 text := by
  unfold PrepareEnv.loadCertificate
  cases p.readX509 text <;> rfl

/-- Where both texts are given, each is loaded if it can be read; without the private key, the
certificate is not looked at. -/
theorem commandGenerate_both (config : Keys.SslConfig) (ssl : SslContext κ χ) (p : PrepareEnv κ χ)
    (hkey : config.privateKey ≠ []) (hx509 : config.certificate ≠ []) :
    (commandGenerate config ssl p.env).1.keypair =
        (p.readPrivateKey config.privateKey).or ssl.keypair ∧
      (commandGenerate config ssl p.env).1.x509 =
        (if (p.readPrivateKey config.privateKey).isSome then p.readX509 config.certificate
          else none).or ssl.x509 := by
  have hmade : Prepare.Made ssl (Prepare.keypairSteps config p.env)
      (Prepare.obtainedKeypair config p.env) (Prepare.obtainedX509 config p.env)
      (generateKeypair config ssl p.env) :=
    Prepare.generateKeypair_made (Prepare.errorsNegative p)
  have hnone : ¬ (config.privateKey = [] ∧ config.certificate = []) := fun h => hkey h.1
  rw [Prepare.commandGenerate_made.1, Prepare.commandGenerate_made.2, hmade.keypair, hmade.x509]
  constructor
  · simp only [Prepare.obtainedKeypair, if_neg hnone, if_neg hkey]
    exact congrArg (Option.or · ssl.keypair) (loadPrivateKey_toOption p config.privateKey)
  · have hload : p.env.loadPrivateKey config.privateKey = p.loadPrivateKey config.privateKey := rfl
    simp only [Prepare.obtainedX509, if_neg hx509, ne_eq, hkey, not_false_eq_true,
      true_and, hload, loadPrivateKey_isOk]
    cases (p.readPrivateKey config.privateKey) with
    | none => simp
    | some keypair =>
        simp only [Option.isSome_some, Bool.true_eq_false, if_false, if_true]
        exact congrArg (Option.or · ssl.x509) (loadCertificate_toOption p config.certificate)

/-- A PEM text comes through `ConfigureSSL` as it was exported. -/
theorem textOption_exported {α : Type*} (p : Pem α) (a : α) :
    Configure.textOption (some ((exported (p.write a)).key ++ [0])) =
      (p.write a).take bioBufferSize := by
  have hzero : 0 ∉ (p.write a).take bioBufferSize := fun h => p.text a (List.mem_of_mem_take h)
  exact cstring_append_zero hzero

/-- What becomes of the second authenticator. -/
theorem second_eq {p : PrepareEnv κ χ} (hreads : Reads o p) (s : Configure.State)
    (ssl : SslContext κ χ) (option : Configure.SslOption) (keypair : κ) (x509 : χ) :
    (second s ssl option p (exported (o.privateKey.write keypair))
        (exported (o.certificate.write x509))).keypair =
      (if (o.privateKey.write keypair).length ≤ bioBufferSize then some keypair
        else none).or ssl.keypair ∧
    (second s ssl option p (exported (o.privateKey.write keypair))
        (exported (o.certificate.write x509))).x509 =
      (if (o.privateKey.write keypair).length ≤ bioBufferSize ∧
          (o.certificate.write x509).length ≤ bioBufferSize then some x509
        else none).or ssl.x509 := by
  have hbuffer : 0 < bioBufferSize := by decide
  have hkey := textOption_exported o.privateKey keypair
  have hx509 := textOption_exported o.certificate x509
  have hload := commandGenerate_both (configured (Configure.configureSsl s
    (withExported option (exported (o.privateKey.write keypair))
      (exported (o.certificate.write x509)))).1.sslConfig) ssl p
    (fun h => o.privateKey.take_ne_nil keypair hbuffer (hkey.symm.trans h))
    (fun h => o.certificate.take_ne_nil x509 hbuffer (hx509.symm.trans h))
  have hprivateKey : p.readPrivateKey ((o.privateKey.write keypair).take bioBufferSize) =
      if (o.privateKey.write keypair).length ≤ bioBufferSize then some keypair else none := by
    rw [hreads.privateKey, o.privateKey.read_take]
  have hcertificate : p.readX509 ((o.certificate.write x509).take bioBufferSize) =
      if (o.certificate.write x509).length ≤ bioBufferSize then some x509 else none := by
    rw [hreads.x509, o.certificate.read_take]
  refine ⟨hload.1.trans ?_, hload.2.trans ?_⟩
  · exact congrArg (Option.or · ssl.keypair) ((congrArg p.readPrivateKey hkey).trans hprivateKey)
  · refine congrArg (Option.or · ssl.x509) ?_
    have hsome := (congrArg p.readPrivateKey hkey).trans hprivateKey
    have hread := (congrArg p.readX509 hx509).trans hcertificate
    refine Eq.trans (congrArg₂ (fun (k : Option κ) x => if k.isSome then x else none) hsome hread) ?_
    by_cases hfits : (o.privateKey.write keypair).length ≤ bioBufferSize
    · simp [hfits]
    · simp [hfits]

end Second

/-! ## Exact conditions -/

section Exact

variable (o : OpenSsl κ χ) (config : Keys.SslConfig) (ssl : SslContext κ χ)

/-- The second authenticator gets both keys exactly when both texts fit or one is not exported. -/
theorem exchange_iff (c d : Calls) :
    RoundTrip o config ssl c d ↔
      ∀ keypair x509, ssl.keypair = some keypair → ssl.x509 = some x509 →
        Works c .privateKey → Works d .certificate →
        (o.privateKey.write keypair).length ≤ bioBufferSize ∧
          (o.certificate.write x509).length ≤ bioBufferSize := by
  constructor
  · intro h keypair x509 hkeypair hx509 hc hd
    have hkeyText : pemText o ssl .privateKey = some (o.privateKey.write keypair) := by
      simp [pemText, hkeypair]
    have hcertText : pemText o ssl .certificate = some (o.certificate.write x509) := by
      simp [pemText, hx509]
    have hkey := (getKey_ok_iff o config ssl c isPem_privateKey).2
      ⟨_, hkeyText, hc, o.privateKey.ne_nil keypair, rfl⟩
    have hcert := (getKey_ok_iff o config ssl d isPem_certificate).2
      ⟨_, hcertText, hd, o.certificate.ne_nil x509, rfl⟩
    -- A second authenticator that holds nothing before shows what was loaded.
    let reader : PrepareEnv κ χ :=
      { newKeypair := none, x509New := false, subjectName := false, selfSign := fun _ => none
        parent := none, readPrivateKey := o.privateKey.read, readX509 := o.certificate.read
        malloc := false, randBytes := none }
    have hreads : Reads o reader := ⟨rfl, rfl⟩
    let option : Configure.SslOption :=
      { bits := 0, serial := 0, days := 0, isCA := 0, enableBase64 := 0
        passphrase := none, privateKey := none, certificate := none, alternativeName := none }
    have hsame := h _ _ hkey hcert .created ⟨none, none, []⟩ option reader hreads
    have hsecond := second_eq hreads .created ⟨none, none, []⟩ option keypair x509
    have hx : (if (o.privateKey.write keypair).length ≤ bioBufferSize ∧
        (o.certificate.write x509).length ≤ bioBufferSize then some x509 else none) = some x509 := by
      have hor := hsecond.2.symm.trans (hsame.2.trans hx509)
      rwa [Option.or_none] at hor
    by_contra hlong
    rw [if_neg hlong] at hx
    cases hx
  · intro h privateKey certificate hkey hcert s ssl' option p hreads
    rcases (getKey_ok_iff o config ssl c isPem_privateKey).1 hkey with
      ⟨keyText, hkeyText, hc, -, rfl⟩
    rcases (getKey_ok_iff o config ssl d isPem_certificate).1 hcert with
      ⟨certText, hcertText, hd, -, rfl⟩
    rcases Option.map_eq_some_iff.1 hkeyText with ⟨keypair, hkeypair, rfl⟩
    rcases Option.map_eq_some_iff.1 hcertText with ⟨x509, hx509, rfl⟩
    rcases h keypair x509 hkeypair hx509 hc hd with ⟨hkeyFits, hcertFits⟩
    have hsecond := second_eq hreads s ssl' option keypair x509
    rw [if_pos hkeyFits, if_pos ⟨hkeyFits, hcertFits⟩] at hsecond
    exact ⟨hsecond.1.trans hkeypair.symm, hsecond.2.trans hx509.symm⟩

/-- Every exported key is complete, and a second authenticator can be made of them. -/
structure Exported (c : KeyId → Calls) : Prop where
  complete : ∀ id, IsPem id → Complete o config ssl (c id) id
  roundTrip : RoundTrip o config ssl (c .privateKey) (c .certificate)

/-- Exports are complete exactly when no text that is exported is longer than the buffer. -/
theorem exported_iff (c : KeyId → Calls) :
    Exported o config ssl c ↔ ∀ id, IsPem id → Fits o ssl (c id) id := by
  constructor
  · intro h id hid
    exact (complete_iff o config ssl (c id) hid).1 (h.complete id hid)
  · intro h
    refine ⟨fun id hid => (complete_iff o config ssl (c id) hid).2 (h id hid), ?_⟩
    refine (exchange_iff o config ssl _ _).2 ?_
    intro keypair x509 hkeypair hx509 hc hd
    have hkeyText : pemText o ssl .privateKey = some (o.privateKey.write keypair) := by
      simp [pemText, hkeypair]
    have hcertText : pemText o ssl .certificate = some (o.certificate.write x509) := by
      simp [pemText, hx509]
    exact ⟨h .privateKey trivial _ hkeyText hc, h .certificate trivial _ hcertText hd⟩

end Exact

/-! ## A long text -/

/-- A PEM text of one byte more than the buffer. -/
def longPem : Pem Unit where
  write := fun _ => List.replicate (bioBufferSize + 1) 0x2d
  read := fun text => if text = List.replicate (bioBufferSize + 1) 0x2d then some () else none
  read_write := fun _ => if_pos rfl
  truncated := by
    intro _ n hn
    refine if_neg fun h => ?_
    have hlength := congrArg List.length h
    simp only [List.length_replicate, List.length_take] at hn hlength
    omega
  ne_nil := by
    intro _ h
    have hlength := congrArg List.length h
    simp at hlength
  text := by
    intro _ h
    exact absurd (List.eq_of_mem_replicate h) (by decide)

def longKeys : OpenSsl Unit Unit := ⟨longPem, longPem, fun _ => (), longPem.write⟩

/-- The last byte is missing, and the call succeeds. -/
theorem longKey_truncated :
    ¬ Exported longKeys ⟨[], [], false⟩ ⟨some (), some (), []⟩
      fun _ => ⟨true, true, true, true, true⟩ := by
  intro h
  have hok : getKey ⟨[], [], false⟩ ⟨some (), some (), []⟩
      (longKeys.env ⟨true, true, true, true, true⟩) .privateKey =
        .ok (exported (longPem.write ())) :=
    (getKey_ok_iff longKeys _ _ _ isPem_privateKey).2
      ⟨_, rfl, ⟨rfl, rfl, rfl⟩, longPem.ne_nil (), rfl⟩
  rcases h.complete .privateKey trivial _ hok with ⟨text, htext, hinfo⟩
  cases Option.some.inj htext
  have hfits := (exported_eq_iff (longPem.write ())).1 hinfo
  have hlength : (longPem.write ()).length = bioBufferSize + 1 := List.length_replicate
  omega

end Export
end Authenticator
end Beyond
