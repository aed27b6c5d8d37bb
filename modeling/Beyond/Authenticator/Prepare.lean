import Beyond.Authenticator.Keys

/-!
# What Prepare reports

`CommandGenerate` makes or loads a key pair and a certificate, and a secret key if there is none.  The
steps share one status, which it returns and from which it chooses the event, and each of them replaces its
own part of `sslContext`.

`Keys` has what becomes of `sslContext`; this module adds where the steps fail, and the event.
-/

namespace Beyond
namespace Authenticator
namespace Prepare

open Errno
open Keys

variable {κ χ : Type*}

/-! ## The functions called -/

/-- The authenticator that signs for another one. -/
structure Parent (κ χ : Type*) where
  /-- `GetKey` of the private key: what it returns, and the key. -/
  privateKey : Int × Bytes
  certificate : Int × Bytes
  /-- `X509_sign` for a key pair with the key of the parent, of a certificate it issues. -/
  sign : κ → κ → χ → Option χ

/-- What OpenSSL, `malloc` and the parent come to. -/
structure PrepareEnv (κ χ : Type*) where
  /-- The calls from `EVP_PKEY_new` to `EVP_PKEY_assign_RSA`. -/
  newKeypair : Option κ
  x509New : Bool
  subjectName : Bool
  /-- `X509_sign` for a key pair with the key pair itself. -/
  selfSign : κ → Option χ
  parent : Option (Parent κ χ)
  /-- The calls from `BIO_new` to `PEM_read_bio_PrivateKey`. -/
  readPrivateKey : Bytes → Option κ
  readX509 : Bytes → Option χ
  malloc : Bool
  randBytes : Option Bytes

namespace PrepareEnv

variable (p : PrepareEnv κ χ)

/-- `LoadPrivateKey` of a text. -/
def loadPrivateKey (text : Bytes) : Except Int κ :=
  match p.readPrivateKey text with
  | none => .error (-EFAULT)
  | some keypair => .ok keypair

/-- `LoadCertificate` of a text. -/
def loadCertificate (text : Bytes) : Except Int χ :=
  match p.readX509 text with
  | none => .error (-EFAULT)
  | some x509 => .ok x509

/-- The key and the certificate of the parent sign. -/
def signByParent (parent : Parent κ χ) (keypair : κ) : Except Int χ :=
  if parent.privateKey.1 < 0 then .error parent.privateKey.1
  else
    match p.loadPrivateKey parent.privateKey.2 with
    | .error ret => .error ret
    | .ok caKey =>
        if parent.certificate.1 < 0 then .error parent.certificate.1
        else
          match p.loadCertificate parent.certificate.2 with
          | .error ret => .error ret
          | .ok caX509 =>
              match parent.sign keypair caKey caX509 with
              | none => .error (-EFAULT)
              | some x509 => .ok x509

/-- `GenerateCertificate`. -/
def generateCertificate (keypair : κ) : Except Int χ :=
  if p.x509New = false then .error (-EFAULT)
  else if p.subjectName = false then .error (-EFAULT)
  else
    match p.parent with
    | some parent => p.signByParent parent keypair
    | none =>
        match p.selfSign keypair with
        | none => .error (-EFAULT)
        | some x509 => .ok x509

/-- `GenerateSecretKey`. -/
def generateSecretKey : Except Int Bytes :=
  if p.malloc = false then .error (-ENOMEM)
  else
    match p.randBytes with
    | none => .error (-EFAULT)
    | some buffer => .ok buffer

def env : GenerateEnv κ χ where
  generateKey := p.newKeypair
  generateCertificate := p.generateCertificate
  loadPrivateKey := p.loadPrivateKey
  loadCertificate := p.loadCertificate
  generateSecretKey := p.generateSecretKey

end PrepareEnv

/-! ## CommandGenerate -/

/-- The `BEYOND_PLUGIN_AUTHENTICATOR_EVENT_TYPE`s of `CommandGenerate`. -/
inductive Event
  | prepareDone
  | prepareError
  deriving DecidableEq, Repr

/-- The events that are published with a status; without an event object there are none. -/
def published (eventObject : Bool) (ret : Int) : List Event :=
  if eventObject = true then [if ret = 0 then .prepareDone else .prepareError] else []

/-! ## The steps -/

inductive Step
  | generateKey
  | generateCertificate
  | loadPrivateKey
  | loadCertificate
  | generateSecretKey
  deriving DecidableEq, Repr

section Steps

variable (config : SslConfig) (ssl : SslContext κ χ) (e : GenerateEnv κ χ)

/-- The steps of `LoadCertificate`, with their outcomes. -/
def loadingSteps : List (Step × Bool) :=
  if config.privateKey = [] then [(.loadCertificate, (e.loadCertificate config.certificate).isOk)]
  else
    (.loadPrivateKey, (e.loadPrivateKey config.privateKey).isOk) ::
      -- A failure returns, and there need not be a certificate.
      if (e.loadPrivateKey config.privateKey).isOk = true ∧ config.certificate ≠ [] then
        [(.loadCertificate, (e.loadCertificate config.certificate).isOk)]
      else []

/-- The steps that are attempted for the key pair and the certificate. -/
def keypairSteps : List (Step × Bool) :=
  if config.privateKey = [] ∧ config.certificate = [] then
    match e.generateKey with
    | none => [(.generateKey, false)]
    | some keypair =>
        [(.generateKey, true), (.generateCertificate, (e.generateCertificate keypair).isOk)]
  else loadingSteps config e

def secretSteps : List (Step × Bool) :=
  if ssl.secretKey = [] then [(.generateSecretKey, e.generateSecretKey.isOk)] else []

/-- All steps that are attempted. -/
def attempted : List (Step × Bool) := keypairSteps config e ++ secretSteps ssl e

end Steps

def Succeeded (steps : List (Step × Bool)) : Prop := ∀ step ∈ steps, step.2 = true

/-- The status and the event tell whether all steps succeeded, and after a failure the key pair and the
certificate are those from before. -/
structure Reported (eventObject : Bool) (config : SslConfig) (ssl : SslContext κ χ)
    (e : GenerateEnv κ χ) : Prop where
  done : Succeeded (attempted config ssl e) →
    (commandGenerate config ssl e).2 = 0 ∧
      published eventObject (commandGenerate config ssl e).2 =
        if eventObject = true then [.prepareDone] else []
  failed : ¬ Succeeded (attempted config ssl e) →
    (commandGenerate config ssl e).2 < 0 ∧
      published eventObject (commandGenerate config ssl e).2 =
        if eventObject = true then [.prepareError] else []
  kept : ¬ Succeeded (attempted config ssl e) →
    (commandGenerate config ssl e).1.keypair = ssl.keypair ∧
      (commandGenerate config ssl e).1.x509 = ssl.x509

/-! ## What replaces the key pair and the certificate -/

section Obtained

variable (config : SslConfig) (e : GenerateEnv κ χ)

/-- The key pair that a step gives. -/
def obtainedKeypair : Option κ :=
  if config.privateKey = [] ∧ config.certificate = [] then e.generateKey
  else if config.privateKey = [] then none
  else (e.loadPrivateKey config.privateKey).toOption

/-- The certificate that a step gives. -/
def obtainedX509 : Option χ :=
  if config.privateKey = [] ∧ config.certificate = [] then
    e.generateKey.bind fun keypair => (e.generateCertificate keypair).toOption
  else if config.certificate = [] then none
  else if config.privateKey ≠ [] ∧ (e.loadPrivateKey config.privateKey).isOk = false then none
  else (e.loadCertificate config.certificate).toOption

end Obtained

/-! ## Errors are negative -/

structure ErrorsNegative (e : GenerateEnv κ χ) : Prop where
  generateCertificate : ∀ {keypair ret}, e.generateCertificate keypair = .error ret → ret < 0
  loadPrivateKey : ∀ {text ret}, e.loadPrivateKey text = .error ret → ret < 0
  loadCertificate : ∀ {text ret}, e.loadCertificate text = .error ret → ret < 0
  generateSecretKey : ∀ {ret}, e.generateSecretKey = .error ret → ret < 0

theorem efault_neg : -EFAULT < 0 := by decide

section Negative

variable {p : PrepareEnv κ χ} {ret : Int}

theorem loadPrivateKey_neg {text : Bytes} (h : p.loadPrivateKey text = .error ret) : ret < 0 := by
  unfold PrepareEnv.loadPrivateKey at h
  split at h
  · cases h
    exact efault_neg
  · cases h

theorem loadCertificate_neg {text : Bytes} (h : p.loadCertificate text = .error ret) : ret < 0 := by
  unfold PrepareEnv.loadCertificate at h
  split at h
  · cases h
    exact efault_neg
  · cases h

theorem signByParent_neg {parent : Parent κ χ} {keypair : κ}
    (h : p.signByParent parent keypair = .error ret) : ret < 0 := by
  unfold PrepareEnv.signByParent at h
  split at h
  · next hkey =>
      cases h
      exact hkey
  · split at h
    · next hload =>
        cases h
        exact loadPrivateKey_neg hload
    · split at h
      · next hcertificate =>
          cases h
          exact hcertificate
      · split at h
        · next hload =>
            cases h
            exact loadCertificate_neg hload
        · split at h
          · cases h
            exact efault_neg
          · cases h

theorem generateCertificate_neg {keypair : κ} (h : p.generateCertificate keypair = .error ret) :
    ret < 0 := by
  unfold PrepareEnv.generateCertificate at h
  split at h
  · cases h
    exact efault_neg
  · split at h
    · cases h
      exact efault_neg
    · split at h
      · exact signByParent_neg h
      · split at h
        · cases h
          exact efault_neg
        · cases h

theorem generateSecretKey_neg (h : p.generateSecretKey = .error ret) : ret < 0 := by
  unfold PrepareEnv.generateSecretKey at h
  split at h
  · cases h
    decide
  · split at h
    · cases h
      exact efault_neg
    · cases h

variable (p) in
theorem errorsNegative : ErrorsNegative p.env where
  generateCertificate := generateCertificate_neg
  loadPrivateKey := loadPrivateKey_neg
  loadCertificate := loadCertificate_neg
  generateSecretKey := generateSecretKey_neg

end Negative

/-! ## The key pair and the certificate -/

section Keypair

variable {config : SslConfig} {ssl : SslContext κ χ} {e : GenerateEnv κ χ}

theorem succeeded_nil : Succeeded [] := nofun

theorem succeeded_cons {step : Step} {ok : Bool} {steps : List (Step × Bool)} :
    Succeeded ((step, ok) :: steps) ↔ ok = true ∧ Succeeded steps := by
  unfold Succeeded
  rw [List.forall_mem_cons]

theorem succeeded_append {steps rest : List (Step × Bool)} :
    Succeeded (steps ++ rest) ↔ Succeeded steps ∧ Succeeded rest := by
  unfold Succeeded
  rw [List.forall_mem_append]

/-- What the two ways to a key pair and a certificate have in common. -/
structure Made (ssl : SslContext κ χ) (steps : List (Step × Bool)) (keypair : Option κ)
    (x509 : Option χ) (made : SslContext κ χ × Int) : Prop where
  succeeded : Succeeded steps → made.2 = 0
  failed : ¬ Succeeded steps → made.2 < 0
  keypair : made.1.keypair = keypair.or ssl.keypair
  x509 : made.1.x509 = x509.or ssl.x509

theorem made_ok {steps : List (Step × Bool)} {keypair : Option κ} {x509 : Option χ}
    {made : SslContext κ χ × Int} (hsteps : Succeeded steps) (hret : made.2 = 0)
    (hkeypair : made.1.keypair = keypair.or ssl.keypair) (hx509 : made.1.x509 = x509.or ssl.x509) :
    Made ssl steps keypair x509 made :=
  ⟨fun _ => hret, fun h => absurd hsteps h, hkeypair, hx509⟩

theorem made_error {steps : List (Step × Bool)} {keypair : Option κ} {x509 : Option χ}
    {made : SslContext κ χ × Int} (hsteps : ¬ Succeeded steps) (hret : made.2 < 0)
    (hkeypair : made.1.keypair = keypair.or ssl.keypair) (hx509 : made.1.x509 = x509.or ssl.x509) :
    Made ssl steps keypair x509 made :=
  ⟨fun h => absurd h hsteps, fun _ => hret, hkeypair, hx509⟩

theorem succeeded_pair {step : Step} {ok : Bool} : Succeeded [(step, ok)] ↔ ok = true := by
  rw [succeeded_cons, and_iff_left succeeded_nil]

theorem generateKey_made (he : ErrorsNegative e)
    (hempty : config.privateKey = [] ∧ config.certificate = []) :
    Made ssl (keypairSteps config e) (obtainedKeypair config e) (obtainedX509 config e)
      (generateKeypair config ssl e) := by
  unfold keypairSteps obtainedKeypair obtainedX509 generateKeypair generateKey
  rw [if_pos hempty, if_pos hempty, if_pos hempty, if_pos hempty]
  cases e.generateKey with
  | none => exact made_error (by simp [succeeded_cons]) efault_neg rfl rfl
  | some keypair =>
      dsimp only [Option.bind]
      cases hcertificate : e.generateCertificate keypair with
      | error ret =>
          refine made_error ?_ (he.generateCertificate hcertificate) rfl rfl
          simp [succeeded_cons, Except.isOk, Except.toBool]
      | ok x509 =>
          refine made_ok ?_ rfl rfl rfl
          simp [succeeded_cons, succeeded_nil, Except.isOk, Except.toBool]

/-- Only a certificate is configured. -/
theorem loadX509_made (he : ErrorsNegative e) (hkey : config.privateKey = [])
    (hx509 : config.certificate ≠ []) :
    Made ssl (loadingSteps config e) none (e.loadCertificate config.certificate).toOption
      (loadCertificate config ssl e) := by
  unfold loadingSteps loadCertificate loadPrivateKey
  rw [if_pos hkey, if_pos hkey]
  dsimp only
  rw [if_neg hx509]
  cases hload : e.loadCertificate config.certificate with
  | error ret =>
      refine made_error ?_ (he.loadCertificate hload) rfl rfl
      simp [succeeded_pair, Except.isOk, Except.toBool]
  | ok x509 => exact made_ok (succeeded_pair.2 rfl) rfl rfl rfl

/-- Only a private key is configured. -/
theorem loadKeypair_made (he : ErrorsNegative e) (hkey : config.privateKey ≠ [])
    (hx509 : config.certificate = []) :
    Made ssl (loadingSteps config e) (e.loadPrivateKey config.privateKey).toOption none
      (loadCertificate config ssl e) := by
  unfold loadingSteps loadCertificate loadPrivateKey
  rw [if_neg hkey, if_neg hkey, if_neg fun h => h.2 hx509]
  cases hload : e.loadPrivateKey config.privateKey with
  | error ret =>
      refine made_error ?_ (he.loadPrivateKey hload) rfl rfl
      simp [succeeded_pair, Except.isOk, Except.toBool]
  | ok keypair =>
      dsimp only
      rw [if_pos hx509]
      exact made_ok (succeeded_pair.2 rfl) rfl rfl rfl

/-- Both are configured; the certificate is looked at once the private key is loaded. -/
theorem loadBoth_made (he : ErrorsNegative e) (hkey : config.privateKey ≠ [])
    (hx509 : config.certificate ≠ []) :
    Made ssl (loadingSteps config e) (e.loadPrivateKey config.privateKey).toOption
      (if (e.loadPrivateKey config.privateKey).isOk = false then none
        else (e.loadCertificate config.certificate).toOption)
      (loadCertificate config ssl e) := by
  unfold loadingSteps loadCertificate loadPrivateKey
  rw [if_neg hkey, if_neg hkey]
  cases hload : e.loadPrivateKey config.privateKey with
  | error ret =>
      refine made_error ?_ (he.loadPrivateKey hload) rfl rfl
      simp [succeeded_cons, Except.isOk, Except.toBool]
  | ok keypair =>
      have hok : (Except.ok keypair : Except Int κ).isOk = true := rfl
      rw [if_pos ⟨hok, hx509⟩]
      dsimp only
      rw [if_neg hx509, if_neg (hok ▸ nofun)]
      cases hload : e.loadCertificate config.certificate with
      | error ret =>
          -- The key pair is replaced all the same.
          refine made_error ?_ (he.loadCertificate hload) rfl rfl
          simp [succeeded_cons, Except.isOk, Except.toBool]
      | ok x509 =>
          refine made_ok ?_ rfl rfl rfl
          simp [succeeded_cons, succeeded_nil, Except.isOk, Except.toBool]

theorem generateKeypair_made (he : ErrorsNegative e) :
    Made ssl (keypairSteps config e) (obtainedKeypair config e) (obtainedX509 config e)
      (generateKeypair config ssl e) := by
  by_cases hempty : config.privateKey = [] ∧ config.certificate = []
  · exact generateKey_made he hempty
  · unfold keypairSteps obtainedKeypair obtainedX509 generateKeypair
    rw [if_neg hempty, if_neg hempty, if_neg hempty, if_neg hempty]
    -- A text that is not configured is skipped, so there are three ways to load.
    by_cases hkey : config.privateKey = []
    · have hx509 : config.certificate ≠ [] := fun h => hempty ⟨hkey, h⟩
      rw [if_pos hkey, if_neg hx509, if_neg fun h => h.1 hkey]
      exact loadX509_made he hkey hx509
    · rw [if_neg hkey]
      by_cases hx509 : config.certificate = []
      · rw [if_pos hx509]
        exact loadKeypair_made he hkey hx509
      · rw [if_neg hx509]
        simp only [ne_eq, hkey, not_false_eq_true, true_and]
        exact loadBoth_made he hkey hx509

/-! ## The status -/

variable (config ssl e) in
/-- The failure of the key pair or of the certificate is not covered up by a new secret key. -/
def NotCovered : Prop :=
  Succeeded (keypairSteps config e) ∨ ssl.secretKey ≠ [] ∨ e.generateSecretKey.isOk = false

theorem commandGenerate_made :
    (commandGenerate config ssl e).1.keypair = (generateKeypair config ssl e).1.keypair ∧
      (commandGenerate config ssl e).1.x509 = (generateKeypair config ssl e).1.x509 := by
  unfold commandGenerate
  dsimp only
  split
  · split
    · exact ⟨rfl, rfl⟩
    · exact ⟨rfl, rfl⟩
  · exact ⟨rfl, rfl⟩

theorem status_of_secretKey (hsecret : ssl.secretKey ≠ []) :
    (commandGenerate config ssl e).2 = (generateKeypair config ssl e).2 := by
  unfold commandGenerate
  dsimp only
  rw [if_neg (by rwa [generateKeypair_secretKey])]

theorem status_of_no_secretKey (hsecret : ssl.secretKey = []) :
    (commandGenerate config ssl e).2 =
      match e.generateSecretKey with
      | .error ret => ret
      | .ok _ => 0 := by
  unfold commandGenerate
  dsimp only
  rw [if_pos (by rwa [generateKeypair_secretKey])]
  cases e.generateSecretKey <;> rfl

theorem status_of_succeeded (he : ErrorsNegative e) (h : Succeeded (attempted config ssl e)) :
    (commandGenerate config ssl e).2 = 0 := by
  rcases succeeded_append.1 h with ⟨hkeypair, hsecretSteps⟩
  by_cases hsecret : ssl.secretKey = []
  · rw [status_of_no_secretKey hsecret]
    rw [secretSteps, if_pos hsecret, succeeded_pair] at hsecretSteps
    cases hmade : e.generateSecretKey with
    | error ret =>
        rw [hmade] at hsecretSteps
        cases hsecretSteps
    | ok secretKey => rfl
  · rw [status_of_secretKey hsecret]
    exact (generateKeypair_made he).succeeded hkeypair

/-- A failure is reported unless the step behind it hides it. -/
theorem status_of_failed (he : ErrorsNegative e) (h : ¬ Succeeded (attempted config ssl e)) :
    (commandGenerate config ssl e).2 < 0 ↔ NotCovered config ssl e := by
  unfold attempted at h
  rw [succeeded_append] at h
  unfold NotCovered
  by_cases hsecret : ssl.secretKey = []
  · rw [secretSteps, if_pos hsecret, succeeded_pair] at h
    rw [status_of_no_secretKey hsecret, or_iff_right (not_not_intro hsecret)]
    cases hmade : e.generateSecretKey with
    | error ret => exact iff_of_true (he.generateSecretKey hmade) (.inr rfl)
    | ok secretKey =>
        -- The status of the key pair is overwritten.
        rw [hmade] at h
        refine iff_of_false (lt_irrefl 0) ?_
        rintro (hkeypair | hnot)
        · exact h ⟨hkeypair, rfl⟩
        · cases hnot
  · rw [secretSteps, if_neg hsecret, and_iff_left succeeded_nil] at h
    rw [status_of_secretKey hsecret]
    exact iff_of_true ((generateKeypair_made he).failed h) (.inr (.inl hsecret))

/-! ## What is reported -/

theorem published_done (eventObject : Bool) :
    published eventObject 0 = if eventObject = true then [.prepareDone] else [] := rfl

theorem published_error (eventObject : Bool) {ret : Int} (h : ret < 0) :
    published eventObject ret = if eventObject = true then [.prepareError] else [] := by
  unfold published
  rw [if_neg h.ne]

/-- What is put in place of something is what was there, or nothing is put. -/
theorem or_eq_self {α : Type*} {obtained old : Option α} :
    obtained.or old = old ↔ ∀ a, obtained = some a → old = some a := by
  cases obtained with
  | none => simp
  | some a => simp [eq_comm]

theorem reported_iff (eventObject : Bool) (he : ErrorsNegative e) :
    Reported eventObject config ssl e ↔ Succeeded (attempted config ssl e) ∨
      (NotCovered config ssl e ∧
        (∀ keypair, obtainedKeypair config e = some keypair → ssl.keypair = some keypair) ∧
          ∀ x509, obtainedX509 config e = some x509 → ssl.x509 = some x509) := by
  have hmade : Made ssl (keypairSteps config e) (obtainedKeypair config e) (obtainedX509 config e)
      (generateKeypair config ssl e) := generateKeypair_made he
  have hsame : (commandGenerate config ssl e).1.keypair = (generateKeypair config ssl e).1.keypair ∧
      (commandGenerate config ssl e).1.x509 = (generateKeypair config ssl e).1.x509 :=
    commandGenerate_made
  -- The context is kept where what was obtained was there before.
  rw [← or_eq_self, ← or_eq_self, ← hmade.keypair, ← hmade.x509, ← hsame.1, ← hsame.2]
  by_cases h : Succeeded (attempted config ssl e)
  · have hret := status_of_succeeded he h
    refine iff_of_true ⟨fun _ => ⟨hret, ?_⟩, fun hnot => absurd h hnot, fun hnot => absurd h hnot⟩
      (.inl h)
    rw [hret, published_done]
  · rw [or_iff_right h, ← status_of_failed he h]
    constructor
    · intro hreported
      exact ⟨(hreported.failed h).1, hreported.kept h⟩
    · rintro ⟨hret, hkept⟩
      exact ⟨fun hdone => absurd hdone h, fun _ => ⟨hret, published_error eventObject hret⟩,
        fun _ => hkept⟩

end Keypair

/-- The certificate, if there is one, is one of the private key. -/
def Paired (certifies : χ → κ → Prop) (ssl : SslContext κ χ) : Prop :=
  ∀ keypair x509, ssl.keypair = some keypair → ssl.x509 = some x509 → certifies x509 keypair

/-- A failure that is reported as it should be does not tear a pair apart. -/
theorem Reported.paired {eventObject : Bool} {config : SslConfig} {ssl : SslContext κ χ}
    {e : GenerateEnv κ χ} {certifies : χ → κ → Prop} (h : Reported eventObject config ssl e)
    (hfailed : ¬ Succeeded (attempted config ssl e)) (hpaired : Paired certifies ssl) :
    Paired certifies (commandGenerate config ssl e).1 := by
  rcases h.kept hfailed with ⟨hkeypair, hx509⟩
  intro keypair x509 hk hx
  exact hpaired keypair x509 (hkeypair ▸ hk) (hx509 ▸ hx)

theorem prepare_reports_iff (eventObject : Bool) (config : SslConfig) (ssl : SslContext κ χ)
    (p : PrepareEnv κ χ) :
    Reported eventObject config ssl p.env ↔ Succeeded (attempted config ssl p.env) ∨
      (NotCovered config ssl p.env ∧
        (∀ keypair, obtainedKeypair config p.env = some keypair → ssl.keypair = some keypair) ∧
          ∀ x509, obtainedX509 config p.env = some x509 → ssl.x509 = some x509) :=
  reported_iff eventObject (errorsNegative p)

/-- A private key that cannot be read. -/
def unreadableKey : SslConfig := ⟨[1], [2], false⟩

/-- Nothing is held yet. -/
def unprepared : SslContext Nat Nat := ⟨none, none, []⟩

/-- Only the random numbers work. -/
def onlyRandom : PrepareEnv Nat Nat where
  newKeypair := none
  x509New := false
  subjectName := false
  selfSign := fun _ => none
  parent := none
  readPrivateKey := fun _ => none
  readX509 := fun _ => none
  malloc := true
  randBytes := some [7]

theorem unreadable_key_done : ¬ Reported true unreadableKey unprepared onlyRandom.env := by
  intro hreported
  have hfailed : ¬ Succeeded (attempted unreadableKey unprepared onlyRandom.env) := by
    intro h
    have hstep := h (.loadPrivateKey, false) (by decide)
    cases hstep
  exact absurd (hreported.failed hfailed).1 (by decide)

end Prepare
end Authenticator
end Beyond
