import Beyond.Authenticator.Configure
import Beyond.Base.Base64

/-!
# A JSON document applied twice

`ConfigureJSON` applies the section `secret_key` of a document before its section `ssl`.  The secret key is
therefore decoded, or not, as the documents before have said, and a failure leaves behind what was
configured until then.

The calls of OpenSSL come to the same in both applications.
-/

namespace Beyond
namespace Authenticator
namespace ConfigureTwice

open Errno Bytes
open Configure

/-! ## Documents with a secret key -/

/-- The key is a string and has the bits that are asked for. -/
structure KeyDocument where
  key : Bytes
  keyBits : Option Int
  ssl : Option SslSection
  held : bitsToBytes (keyBits.getD (-1)) ≤ key.length

namespace KeyDocument

variable (d : KeyDocument)

def document : Document := ⟨some ⟨some d.key, d.keyBits⟩, d.ssl⟩

/-- `key_bits`, as `ConfigureSecretKey` gets it. -/
def bits : Int := d.keyBits.getD (-1)

/-- The bytes of the key that are used. -/
def raw : Bytes := d.key.take (bitsToBytes d.bits)

/-- The value of `enable_base64` once the document is applied. -/
def enableBase64 (config : SslConfig) : Bool :=
  match d.ssl with
  | none => config.enableBase64
  | some section_ => flagOption section_.option.enableBase64

/-- What the section `ssl` makes of a configuration. -/
def applySsl (config : SslConfig) : SslConfig :=
  match d.ssl with
  | none => config
  | some section_ => config.configureSsl section_.option

end KeyDocument

/-- The secret key that is meant by a text. -/
def interpret (e : ConfigureEnv) (enableBase64 : Bool) (text : Bytes) : Except Int Bytes :=
  if enableBase64 = true then e.decodeBase64 text else .ok text

/-! ## The property -/

/-- The outcome of an application is that of the text in the meaning of the document. -/
def Interpreted (e : ConfigureEnv) (enableBase64 : Bool) (text : Bytes) (s : State) (ret : Int) :
    Prop :=
  match interpret e enableBase64 text with
  | .error _ => ret < 0
  | .ok secretKey => ret = 0 ∧ s.secretKey = secretKey

/-- A second application changes nothing, and neither does one that fails. -/
structure Lawful (e : ConfigureEnv) (s : State) (d : KeyDocument) (once : State) (ret : Int) :
    Prop where
  applied : configureJson e s (.document d.document) = some (once, ret)
  twice : ∃ ret', configureJson e once (.document d.document) = some (once, ret')
  atomic : ret < 0 → once = s
  interpreted : 0 < d.bits → d.raw ≠ [] →
    Interpreted e (d.enableBase64 s.sslConfig) d.raw once ret

/-- The key of the document is what was configured before. -/
def Already (s : State) (d : KeyDocument) : Prop :=
  s.sslConfig.secretKey = d.raw ∧ s.sslConfig.secretKeyBits = d.bits

/-! ## Errors -/

theorem decodeBase64_neg {e : ConfigureEnv} {text : Bytes} {ret : Int}
    (h : e.decodeBase64 text = .error ret) : ret < 0 := by
  unfold ConfigureEnv.decodeBase64 at h
  split at h
  · cases h
    decide
  · split at h
    · cases h
      decide
    · split at h
      · cases h
        decide
      · split at h
        · cases h
          decide
        · split at h
          · cases h
            decide
          · cases h

theorem interpret_neg {e : ConfigureEnv} {enableBase64 : Bool} {text : Bytes} {ret : Int}
    (h : interpret e enableBase64 text = .error ret) : ret < 0 := by
  unfold interpret at h
  split at h
  · exact decodeBase64_neg h
  · cases h

/-- A secret key of so many bytes can be generated. -/
def Generates (e : ConfigureEnv) (n : Nat) : Prop := e.malloc = true ∧ (e.random n).isSome = true

theorem generateSecretKey_ok {e : ConfigureEnv} {s : State}
    (h : Generates e (bitsToBytes s.sslConfig.secretKeyBits)) :
    ∃ buffer : Vector UInt8 (bitsToBytes s.sslConfig.secretKeyBits),
      generateSecretKey e s = ({ s with secretKey := buffer.toList }, 0) := by
  rcases h with ⟨hmalloc, hrandom⟩
  rcases Option.isSome_iff_exists.1 hrandom with ⟨buffer, hbuffer⟩
  refine ⟨buffer, ?_⟩
  unfold generateSecretKey
  rw [if_neg (hmalloc ▸ nofun), hbuffer]

theorem generateSecretKey_error {e : ConfigureEnv} {s : State}
    (h : ¬ Generates e (bitsToBytes s.sslConfig.secretKeyBits)) :
    ∃ ret, ret < 0 ∧ generateSecretKey e s = (s, ret) := by
  unfold generateSecretKey
  split
  · exact ⟨-ENOMEM, by decide, rfl⟩
  · next hmalloc =>
      split
      · exact ⟨-EFAULT, by decide, rfl⟩
      · next buffer hbuffer =>
          refine absurd ⟨?_, ?_⟩ h
          · simpa using hmalloc
          · rw [hbuffer]
            rfl

/-! ## The two sections -/

section Sections

variable (d : KeyDocument) (config : SslConfig)

theorem applySsl_setSecretKey (secretKey : Bytes) (bits : Int) :
    d.applySsl (config.setSecretKey secretKey bits) =
      (d.applySsl config).setSecretKey secretKey bits := by
  unfold KeyDocument.applySsl
  cases d.ssl <;> rfl

theorem applySsl_enableBase64 : (d.applySsl config).enableBase64 = d.enableBase64 config := by
  unfold KeyDocument.applySsl KeyDocument.enableBase64
  cases d.ssl <;> rfl

theorem numberOption_idem (number default old : Int) :
    numberOption number default (numberOption number default old) =
      numberOption number default old := by
  unfold numberOption
  split
  · rfl
  · split <;> rfl

theorem applySsl_idem : d.applySsl (d.applySsl config) = d.applySsl config := by
  unfold KeyDocument.applySsl
  cases d.ssl with
  | none => rfl
  | some section_ =>
      unfold SslConfig.configureSsl
      dsimp only
      rw [numberOption_idem, numberOption_idem, numberOption_idem]

theorem setSecretKey_eq_self {secretKey : Bytes} {bits : Int} :
    config.setSecretKey secretKey bits = config ↔
      config.secretKey = secretKey ∧ config.secretKeyBits = bits := by
  constructor
  · intro h
    exact ⟨congrArg SslConfig.secretKey h.symm, congrArg SslConfig.secretKeyBits h.symm⟩
  · rintro ⟨rfl, rfl⟩
    rfl

theorem configureSslSection_eq (secretKey : Bytes) :
    configureSslSection ⟨config, secretKey⟩ d.document = (⟨d.applySsl config, secretKey⟩, 0) := by
  unfold configureSslSection KeyDocument.applySsl KeyDocument.document
  cases d.ssl <;> rfl

end Sections

/-! ## One application -/

section Once

variable {e : ConfigureEnv} {s : State} {d : KeyDocument}

theorem slice_key : slice d.key 0 (bitsToBytes d.bits) = some d.raw := slice_take d.held

theorem length_raw : d.raw.length = bitsToBytes d.bits := List.length_take_of_le d.held

theorem slice_raw : slice d.raw 0 (bitsToBytes d.bits) = some d.raw := slice_self length_raw

/-- The configuration with the key of the document. -/
def keyed (s : State) (d : KeyDocument) : State :=
  { s with sslConfig := s.sslConfig.setSecretKey d.raw d.bits }

theorem keyed_eq_self : keyed s d = s ↔ Already s d := by
  unfold Already
  rw [← setSecretKey_eq_self]
  constructor
  · intro h
    exact congrArg State.sslConfig h
  · intro h
    unfold keyed
    rw [h]

theorem configure_refused (hbits : d.bits ≤ 0) :
    configureJson e s (.document d.document) = some (s, -EINVAL) := by
  have hrefused : configureSecretKey e s ⟨some d.key, d.bits⟩ = some (s, -EINVAL) := if_pos hbits
  unfold configureJson configureDocument
  dsimp only [KeyDocument.document, SecretKeySection.option]
  rw [show d.keyBits.getD (-1) = d.bits from rfl, hrefused]
  rfl

theorem configure_keyed (hbits : 0 < d.bits) :
    configureJson e s (.document d.document) = (useSecretKey e (keyed s d)).bind fun done =>
      if done.2 < 0 then some done else some (configureSslSection done.1 d.document) := by
  have hused : configureSecretKey e s ⟨some d.key, d.bits⟩ = useSecretKey e (keyed s d) := by
    unfold configureSecretKey
    dsimp only
    rw [if_neg (not_le.2 hbits), slice_key]
    rfl
  unfold configureJson configureDocument
  dsimp only [KeyDocument.document, SecretKeySection.option]
  rw [show d.keyBits.getD (-1) = d.bits from rfl, hused]
  rfl

/-- Behind a failure of the section `secret_key` the section `ssl` is not looked at. -/
theorem configure_of_failed (hbits : 0 < d.bits) {ret : Int} (hret : ret < 0)
    (hused : useSecretKey e (keyed s d) = some (keyed s d, ret)) :
    configureJson e s (.document d.document) = some (keyed s d, ret) := by
  rw [configure_keyed hbits, hused]
  exact if_pos hret

/-- The key is decoded as it was said before the document. -/
theorem useSecretKey_keyed (hraw : d.raw ≠ []) :
    useSecretKey e (keyed s d) =
      match interpret e s.sslConfig.enableBase64 d.raw with
      | .error ret => some (keyed s d, ret)
      | .ok secretKey => some ({ keyed s d with secretKey := secretKey }, 0) := by
  have hkey : ¬ (keyed s d).sslConfig.secretKey = [] := hraw
  unfold useSecretKey
  rw [if_neg hkey]
  unfold loadSecretKey interpret
  by_cases hflag : s.sslConfig.enableBase64 = true
  · rw [if_pos hflag, if_pos (show (keyed s d).sslConfig.enableBase64 = true from hflag),
      show slice (keyed s d).sslConfig.secretKey 0 (bitsToBytes (keyed s d).sslConfig.secretKeyBits) =
        some d.raw from slice_raw]
    refine (Option.bind_some d.raw _).trans ?_
    cases e.decodeBase64 d.raw <;> rfl
  · rw [if_neg hflag]
    exact if_neg hflag

/-- The state behind a successful application. -/
def applied (s : State) (d : KeyDocument) (secretKey : Bytes) : State :=
  ⟨d.applySsl (s.sslConfig.setSecretKey d.raw d.bits), secretKey⟩

theorem configure_of_used (hbits : 0 < d.bits) {secretKey : Bytes}
    (hused : useSecretKey e (keyed s d) = some ({ keyed s d with secretKey := secretKey }, 0)) :
    configureJson e s (.document d.document) = some (applied s d secretKey, 0) := by
  rw [configure_keyed hbits, hused]
  calc (if (0 : Int) < 0 then some ({ keyed s d with secretKey := secretKey }, 0)
        else some (configureSslSection { keyed s d with secretKey := secretKey } d.document))
      = some (configureSslSection { keyed s d with secretKey := secretKey } d.document) :=
        if_neg (lt_irrefl 0)
    _ = some (applied s d secretKey, 0) := congrArg some (configureSslSection_eq d _ secretKey)

theorem configure_error (hbits : 0 < d.bits) (hraw : d.raw ≠ []) {ret : Int}
    (h : interpret e s.sslConfig.enableBase64 d.raw = .error ret) :
    configureJson e s (.document d.document) = some (keyed s d, ret) := by
  refine configure_of_failed hbits (interpret_neg h) ?_
  rw [useSecretKey_keyed hraw, h]

theorem configure_ok (hbits : 0 < d.bits) (hraw : d.raw ≠ []) {secretKey : Bytes}
    (h : interpret e s.sslConfig.enableBase64 d.raw = .ok secretKey) :
    configureJson e s (.document d.document) = some (applied s d secretKey, 0) := by
  refine configure_of_used hbits ?_
  rw [useSecretKey_keyed hraw, h]

/-- What a document has set stays set. -/
theorem keyed_applied (secretKey : Bytes) : keyed (applied s d secretKey) d = applied s d secretKey := by
  unfold keyed applied
  dsimp only
  rw [← applySsl_setSecretKey]
  rfl

theorem applied_applied (secretKey other : Bytes) :
    applied (applied s d secretKey) d other = applied s d other := by
  have hkeyed := congrArg State.sslConfig (keyed_applied (s := s) (d := d) secretKey)
  unfold applied at hkeyed ⊢
  unfold keyed at hkeyed
  dsimp only at hkeyed ⊢
  rw [hkeyed, applySsl_idem]

theorem applied_enableBase64 (secretKey : Bytes) :
    (applied s d secretKey).sslConfig.enableBase64 = d.enableBase64 s.sslConfig :=
  applySsl_enableBase64 d _

/-- A key of no bytes is generated. -/
theorem useSecretKey_empty (hraw : d.raw = []) :
    useSecretKey e (keyed s d) = some (generateSecretKey e (keyed s d)) :=
  if_pos hraw

theorem configure_generated (hbits : 0 < d.bits) (hraw : d.raw = [])
    (h : Generates e (bitsToBytes d.bits)) :
    configureJson e s (.document d.document) = some (applied s d [], 0) := by
  rcases generateSecretKey_ok (s := keyed s d) h with ⟨buffer, hbuffer⟩
  -- The buffer has as many bytes as the key.
  have hempty : buffer.toList = [] := by
    rw [← List.length_eq_zero_iff, Vector.length_toList]
    exact length_raw.symm.trans (List.length_eq_zero_iff.2 hraw)
  refine configure_of_used hbits ?_
  rw [useSecretKey_empty hraw, hbuffer, hempty]

theorem configure_ungenerated (hbits : 0 < d.bits) (hraw : d.raw = [])
    (h : ¬ Generates e (bitsToBytes d.bits)) :
    ∃ ret, ret < 0 ∧ configureJson e s (.document d.document) = some (keyed s d, ret) := by
  rcases generateSecretKey_error (s := keyed s d) h with ⟨ret, hret, hgenerated⟩
  refine ⟨ret, hret, configure_of_failed hbits hret ?_⟩
  rw [useSecretKey_empty hraw, hgenerated]

end Once

/-! ## Both applications -/

section Both

variable {e : ConfigureEnv} {s : State} {d : KeyDocument}

theorem lawful_of_applied {once : State} {ret : Int}
    (h : configureJson e s (.document d.document) = some (once, ret)) :
    (∃ once ret, Lawful e s d once ret) ↔ Lawful e s d once ret := by
  constructor
  · rintro ⟨other, ret', hlawful⟩
    have hsame := Option.some.inj (hlawful.applied.symm.trans h)
    cases hsame
    exact hlawful
  · intro hlawful
    exact ⟨once, ret, hlawful⟩

/-- A failure is in order where it has changed nothing. -/
theorem atomic_iff {ret : Int} (hret : ret < 0)
    (happlied : configureJson e s (.document d.document) = some (keyed s d, ret)) :
    Lawful e s d (keyed s d) ret ↔ Already s d ∧
      (0 < d.bits → d.raw ≠ [] →
        Interpreted e (d.enableBase64 s.sslConfig) d.raw (keyed s d) ret) := by
  constructor
  · intro hlawful
    exact ⟨keyed_eq_self.1 (hlawful.atomic hret), hlawful.interpreted⟩
  · rintro ⟨halready, hinterpreted⟩
    have hself := keyed_eq_self.2 halready
    -- The second application starts where the first one did.
    refine ⟨happlied, ⟨ret, ?_⟩, fun _ => hself, hinterpreted⟩
    rw [hself] at happlied ⊢
    exact happlied

theorem lawful_refused (hbits : d.bits ≤ 0) : ∃ once ret, Lawful e s d once ret := by
  refine ⟨s, -EINVAL, configure_refused hbits, ⟨-EINVAL, configure_refused hbits⟩, fun _ => rfl, ?_⟩
  intro hpos
  exact absurd hpos (not_lt.2 hbits)

theorem lawful_empty_iff (hbits : 0 < d.bits) (hraw : d.raw = []) :
    (∃ once ret, Lawful e s d once ret) ↔ Generates e (bitsToBytes d.bits) ∨ Already s d := by
  by_cases h : Generates e (bitsToBytes d.bits)
  · refine iff_of_true ?_ (.inl h)
    refine ⟨applied s d [], 0, configure_generated hbits hraw h, ⟨0, ?_⟩, nofun, ?_⟩
    · rw [configure_generated hbits hraw h, applied_applied]
    · intro _ hne
      exact absurd hraw hne
  · rcases configure_ungenerated hbits hraw h with ⟨ret, hret, happlied⟩
    rw [lawful_of_applied happlied, atomic_iff hret happlied, or_iff_right h, and_iff_left]
    intro _ hne
    exact absurd hraw hne

/-- A text means the same in both meanings where it is its own decoding. -/
theorem interpret_eq_iff {flag flag' : Bool} {text : Bytes} :
    interpret e flag text = interpret e flag' text ↔
      flag = flag' ∨ e.decodeBase64 text = .ok text := by
  have hdecoded : interpret e true text = e.decodeBase64 text := rfl
  have hraw : interpret e false text = .ok text := rfl
  cases flag <;> cases flag' <;> simp only [hdecoded, hraw, reduceCtorEq, true_or, false_or]
  exact eq_comm

theorem interpreted_done {flag : Bool} {secretKey : Bytes} :
    Interpreted e flag d.raw (applied s d secretKey) 0 ↔
      interpret e flag d.raw = .ok secretKey := by
  unfold Interpreted
  cases interpret e flag d.raw with
  | error ret => exact iff_of_false (lt_irrefl 0) nofun
  | ok other =>
      constructor
      · rintro ⟨-, hkey⟩
        exact congrArg Except.ok hkey.symm
      · intro h
        cases h
        exact ⟨rfl, rfl⟩

/-- Once the key is used, the second application is in order if it means the same key. -/
theorem lawful_ok_iff (hbits : 0 < d.bits) (hraw : d.raw ≠ []) {secretKey : Bytes}
    (h : interpret e s.sslConfig.enableBase64 d.raw = .ok secretKey) :
    (∃ once ret, Lawful e s d once ret) ↔
      interpret e (d.enableBase64 s.sslConfig) d.raw = .ok secretKey := by
  have happlied := configure_ok hbits hraw h
  rw [lawful_of_applied happlied, ← interpreted_done]
  constructor
  · intro hlawful
    exact hlawful.interpreted hbits hraw
  · intro hinterpreted
    -- The second application interprets the key as the document says.
    have hsame : interpret e (applied s d secretKey).sslConfig.enableBase64 d.raw =
        .ok secretKey := by
      rw [applied_enableBase64]
      exact interpreted_done.1 hinterpreted
    refine ⟨happlied, ⟨0, ?_⟩, nofun, fun _ _ => hinterpreted⟩
    rw [configure_ok hbits hraw hsame, applied_applied]

theorem lawful_error_iff (hbits : 0 < d.bits) (hraw : d.raw ≠ []) {ret : Int}
    (h : interpret e s.sslConfig.enableBase64 d.raw = .error ret) :
    (∃ once ret, Lawful e s d once ret) ↔
      Already s d ∧ interpret e (d.enableBase64 s.sslConfig) d.raw = .error ret := by
  have hret := interpret_neg h
  have happlied := configure_error hbits hraw h
  rw [lawful_of_applied happlied, atomic_iff hret happlied]
  refine and_congr_right fun _ => ?_
  unfold Interpreted
  cases hnew : interpret e (d.enableBase64 s.sslConfig) d.raw with
  | error other =>
      -- Only decoding fails, and that fails in the same way.
      have hsame : other = ret := by
        unfold interpret at h hnew
        split at h
        · split at hnew
          · exact Except.error.inj (hnew.symm.trans h)
          · cases hnew
        · cases h
      exact iff_of_true (fun _ _ => hret) (congrArg Except.error hsame)
  | ok secretKey =>
      refine iff_of_false (fun hall => ?_) nofun
      exact absurd (hall hbits hraw).1 hret.ne

theorem lawful_key_iff (hbits : 0 < d.bits) (hraw : d.raw ≠ []) :
    (∃ once ret, Lawful e s d once ret) ↔
      (d.enableBase64 s.sslConfig = s.sslConfig.enableBase64 ∨ e.decodeBase64 d.raw = .ok d.raw) ∧
        (Already s d ∨ ∃ secretKey, interpret e s.sslConfig.enableBase64 d.raw = .ok secretKey) := by
  rw [← interpret_eq_iff]
  cases h : interpret e s.sslConfig.enableBase64 d.raw with
  | error ret =>
      rw [lawful_error_iff hbits hraw h, and_comm]
      refine and_congr_right fun _ => (or_iff_left ?_).symm
      rintro ⟨secretKey, hkey⟩
      cases hkey
  | ok secretKey =>
      rw [lawful_ok_iff hbits hraw h]
      exact (and_iff_left (.inr ⟨secretKey, rfl⟩)).symm

end Both

/-- When a document with a secret key is applied lawfully. -/
theorem configureJson_lawful_iff (e : ConfigureEnv) (s : State) (d : KeyDocument) :
    (∃ once ret, Lawful e s d once ret) ↔
      d.bits ≤ 0 ∨
        (d.raw = [] ∧ (Generates e (bitsToBytes d.bits) ∨ Already s d)) ∨
          (d.raw ≠ [] ∧
            (d.enableBase64 s.sslConfig = s.sslConfig.enableBase64 ∨
              e.decodeBase64 d.raw = .ok d.raw) ∧
            (Already s d ∨
              ∃ secretKey, interpret e s.sslConfig.enableBase64 d.raw = .ok secretKey)) := by
  by_cases hbits : d.bits ≤ 0
  · exact iff_of_true (lawful_refused hbits) (.inl hbits)
  · rw [or_iff_right hbits]
    by_cases hraw : d.raw = []
    · rw [lawful_empty_iff (not_le.1 hbits) hraw, and_iff_right hraw]
      exact (or_iff_left fun h => h.1 hraw).symm
    · rw [lawful_key_iff (not_le.1 hbits) hraw, and_iff_right hraw]
      exact (or_iff_right fun h => hraw h.1).symm

/-- Nothing fails. -/
def working : ConfigureEnv where
  bio := true
  calloc := true
  bioRead := fun text => some ((Base64.decode text).getD [])
  realloc := true
  malloc := true
  random := fun n => some (Vector.replicate n 0)

/-- The text `QUJD`, with `enable_base64` 0. -/
def plainKey : KeyDocument where
  key := [81, 85, 74, 68]
  keyBits := some 32
  ssl := some ⟨none, none, none, none, none, none, none, none, some 0⟩
  held := by decide

/-- The key is decoded by the first application and taken as it is by the second. -/
theorem plainKey_unlawful : ¬ ∃ once ret, Lawful working .created plainKey once ret := by
  rw [lawful_key_iff (by decide) (by decide)]
  rintro ⟨hflag | hself, -⟩
  · cases hflag
  · exact absurd hself (by decide)

end ConfigureTwice
end Authenticator
end Beyond
