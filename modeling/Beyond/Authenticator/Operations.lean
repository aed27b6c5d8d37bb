import Beyond.Authenticator.Crypto
import Beyond.Base.Run

/-!
# Crypto operations and their results

`Authenticator::Encrypt` and `Authenticator::Decrypt` run `Crypto` at once, or send it to a worker
thread if the authenticator has an event loop.  `Crypto` queues its output for `GetResult`, and
`CommandCrypto` publishes an event.  This module interleaves any sequence of calls with the worker.
What the libraries and the system calls return is part of the actions.

`step` says what a write to a pipe does once it gets through; `Blocking.step` is the system in which
a write waits for room.
-/

namespace Beyond
namespace Authenticator
namespace Operations

open Errno

/-! ## Crypto -/

/-- `beyond_authenticator_key_id`; `other` are the values that it does not name. -/
inductive KeyId
  | privateKey
  | publicKey
  | certificate
  | secretKey
  | other
  deriving DecidableEq, Repr

/-- The keys that `CryptoAsymmetric` finds, and what its calls of OpenSSL do. -/
structure Pkey where
  keypair : Bool
  x509 : Bool
  getPubkey : Bool
  context : Bool
  init : Bool
  padding : Bool
  /-- What `operation` returns when it is asked for the size. -/
  size : Int
  calloc : Bool
  /-- What `operation` puts out. -/
  operation : Option Bytes

/-- What the calls of one operation to other code do. -/
structure OperationEnv extends Env where
  pkey : Pkey
  /-- `Send` returns 0 or a negative code. -/
  send_le : send ≤ 0

/-- All calls of other code succeed. -/
def OperationEnv.working : OperationEnv :=
  { Env.working true with
    pkey := ⟨true, true, true, true, true, true, 1, true, some [0]⟩
    send_le := Int.le_refl 0 }

/-- `CryptoInput`. -/
structure CryptoInput where
  op : CryptoOp
  id : KeyId
  data : Bytes
  iv : Option Block
  ivsize : Int
  deriving DecidableEq, Repr

/-- The choice of the key. -/
def Pkey.key (pkey : Pkey) : KeyId → Except Int Unit
  | .privateKey => if pkey.keypair = false then .error (-EINVAL) else .ok ()
  | .publicKey =>
      if pkey.x509 = false then .error (-EINVAL)
      else if pkey.getPubkey = false then .error (-EFAULT)
      else .ok ()
  | _ => .error (-EINVAL)

def cryptoAsymmetric (pkey : Pkey) (id : KeyId) : Except Int (Bytes × Nat) :=
  match pkey.key id with
  | .error ret => .error ret
  | .ok () =>
      if pkey.context = false then .error (-EFAULT)
      else if pkey.init = false then .error (-EFAULT)
      else if pkey.padding = false then .error (-EFAULT)
      else if pkey.size = -2 then .error (-ENOTSUP)
      else if pkey.size ≤ 0 then .error (-EFAULT)
      else if pkey.calloc = false then .error (-ENOMEM)
      else
        match pkey.operation with
        | none => .error (-EFAULT)
        | some out => .ok (out, out.length)

section Crypto

variable (aes : Cbc.BlockCipher Key 16) (config : Config) (e : OperationEnv) (input : CryptoInput)

/-- The `switch` of `Crypto`. -/
def cipher (inp : Bytes) : Except Failure (Bytes × Nat) :=
  match input.id with
  | .certificate => (cryptoAsymmetric e.pkey .publicKey).mapError .code
  | .privateKey => (cryptoAsymmetric e.pkey .privateKey).mapError .code
  | .publicKey => (cryptoAsymmetric e.pkey .publicKey).mapError .code
  | .secretKey =>
      -- A fresh context has a vector of zeros, but no caller gets here without one of its own.
      cryptoSymmetric aes e.toEnv config input.op inp (input.iv.getD (Vector.replicate 16 0))
  | .other => .error (.code (-EINVAL))

/-- `Crypto`; `none` if a byte is written outside of a buffer. -/
def crypto : Option CryptoResult :=
  match cipherInput e.toEnv config input.op input.data with
  -- This return queues nothing.
  | .error ret => some ⟨ret, none⟩
  | .ok inp =>
      match cipher aes config e input inp with
      | .error .outOfBounds => none
      -- `ret` is what `Send` returns, no longer what the cipher has returned.
      | .error (.code _) => some (sendOutput e.toEnv none)
      | .ok (out, outlen) =>
          some (sendOutput e.toEnv (makeOutput e.toEnv config input.op out outlen))

/-- What the operation itself comes to. -/
def outcome : Option CryptoOutput :=
  match cipherInput e.toEnv config input.op input.data with
  | .error _ => none
  | .ok inp =>
      match cipher aes config e input inp with
      | .error _ => none
      | .ok (out, outlen) => makeOutput e.toEnv config input.op out outlen

end Crypto

/-! ## State -/

inductive Event
  | cryptoDone
  | cryptoError
  deriving DecidableEq, Repr

/-- Inside `CommandCrypto`. -/
inductive Worker
  | idle
  | running (input : CryptoInput)
  | publishing (input : CryptoInput) (event : Event)
  deriving Repr

/-- A call of `Encrypt` or `Decrypt`: what it returned, and the output, possibly null, that it has
queued itself. -/
structure Call where
  input : CryptoInput
  result : CryptoResult
  deriving Repr

/-- What a `GetResult` that has received a record returns. -/
structure Answer where
  ret : Int
  data : Option CryptoOutput
  deriving DecidableEq, Repr

structure State where
  activated : Bool
  /-- There are an event loop and an event object. -/
  async : Bool
  /-- Commands that the worker has not received. -/
  command : List CryptoInput
  worker : Worker
  /-- Between `outputProducer` and `outputConsumer`. -/
  output : List (Option CryptoOutput)
  /-- A byte was written outside of a buffer. -/
  overrun : Bool
  calls : List Call
  /-- What the operations whose calls returned 0 have come to, for those that have run. -/
  outcomes : List (CryptoInput × Option CryptoOutput)
  /-- What was ever sent to `outputProducer`. -/
  queued : List (Option CryptoOutput)
  events : List (CryptoInput × Event)
  /-- What the `GetResult`s that received a record have returned. -/
  taken : List Answer

/-- What a call of `Encrypt` or `Decrypt` meets. -/
structure CallEnv where
  newInput : Bool
  sent : Int
  /-- `Send` returns 0 or a negative code. -/
  sent_le : sent ≤ 0
  operation : OperationEnv

def CallEnv.working : CallEnv := ⟨true, 0, Int.le_refl 0, .working⟩

/-- Before `Prepare` there are no keys. -/
def CallEnv.unprepared : CallEnv :=
  { CallEnv.working with
    operation := { OperationEnv.working with
      pkey := ⟨false, false, true, true, true, true, 1, true, some [0]⟩ } }

inductive Act
  | encrypt (id : KeyId) (data : Bytes) (iv : Option Block) (ivsize : Int) (e : CallEnv)
  | decrypt (id : KeyId) (data : Bytes) (iv : Option Block) (ivsize : Int) (e : CallEnv)
  /-- `GetResult`; `recv` is the result of `Recv`. -/
  | getResult (recv : Int)
  | receive
  | crypto (e : OperationEnv)
  | publish (ret : Int)

/-- A step of the worker, not of a caller. -/
def Act.byWorker : Act → Bool
  | .receive => true
  | .crypto _ => true
  | .publish _ => true
  | _ => false

/-! ## Steps -/

section Steps

variable (aes : Cbc.BlockCipher Key 16) (config : Config)

/-- What `Encrypt` and `Decrypt` refuse at once; `forbidden` is the other half of the key pair. -/
def refusal (s : State) (forbidden : KeyId) (input : CryptoInput) : Option Int :=
  if s.activated = false then some (-EILSEQ)
  else if input.id = .secretKey then
    if input.iv = none ∨ input.ivsize ≤ 0 then some (-EINVAL) else none
  else if input.id = forbidden then some (-EINVAL)
  else none

/-- The call returns, and nothing was queued by it. -/
def State.return (s : State) (input : CryptoInput) (ret : Int) : State :=
  { s with calls := s.calls ++ [⟨input, ret, none⟩] }

/-- `Crypto` in the thread of the caller. -/
def runHere (s : State) (input : CryptoInput) (e : OperationEnv) : State :=
  match crypto aes config e input with
  | none => { s with overrun := true }
  | some result =>
      { s with
        output := s.output ++ result.sent.toList
        queued := s.queued ++ result.sent.toList
        calls := s.calls ++ [⟨input, result⟩]
        outcomes := s.outcomes ++
          if result.ret = 0 then [(input, outcome aes config e input)] else [] }

def request (forbidden : KeyId) (s : State) (input : CryptoInput) (e : CallEnv) : State :=
  match refusal s forbidden input with
  | some ret => s.return input ret
  | none =>
      if s.async = true then
        if e.newInput = false then s.return input (-ENOMEM)
        else if e.sent < 0 then s.return input e.sent
        else { s.return input e.sent with command := s.command ++ [input] }
      else runHere aes config s input e.operation

def encrypt (s : State) (id : KeyId) (data : Bytes) (iv : Option Block) (ivsize : Int)
    (e : CallEnv) : State :=
  request aes config .privateKey s ⟨.encrypt, id, data, iv, ivsize⟩ e

/-- A certificate stands for the public key, too, but is not refused. -/
def decrypt (s : State) (id : KeyId) (data : Bytes) (iv : Option Block) (ivsize : Int)
    (e : CallEnv) : State :=
  request aes config .publicKey s ⟨.decrypt, id, data, iv, ivsize⟩ e

/-- What `GetResult` makes of a record. -/
def answer : Option CryptoOutput → Answer
  | none => ⟨-EINVAL, none⟩
  | some output => ⟨0, some output⟩

/-- `Recv` blocks as long as nothing is queued. -/
def getResult (s : State) (recv : Int) : Option State :=
  if s.activated = false then some s
  else if recv < 0 then some s
  else
    match s.output with
    | [] => none
    | output :: rest => some { s with output := rest, taken := s.taken ++ [answer output] }

/-- `CommandCrypto` is called with the next command. -/
def receive (s : State) : Option State :=
  match s.worker, s.command with
  | .idle, input :: rest => some { s with command := rest, worker := .running input }
  | _, _ => none

def commandCrypto (s : State) (e : OperationEnv) : Option State :=
  match s.worker with
  | .running input =>
      match crypto aes config e input with
      | none => some { s with overrun := true }
      | some result =>
          some { s with
            output := s.output ++ result.sent.toList
            queued := s.queued ++ result.sent.toList
            outcomes := s.outcomes ++ [(input, outcome aes config e input)]
            worker := .publishing input (if result.ret = 0 then .cryptoDone else .cryptoError) }
  | _ => none

/-- What `PublishEventData` returns is not looked at. -/
def publish (s : State) (ret : Int) : Option State :=
  match s.worker with
  | .publishing input event =>
      if ret < 0 then some { s with worker := .idle }
      else some { s with worker := .idle, events := s.events ++ [(input, event)] }
  | _ => none

/-- After a write outside of a buffer nothing is said about what happens. -/
def step (s : State) (a : Act) : Option State :=
  if s.overrun = true then none
  else
    match a with
    | .encrypt id data iv ivsize e => some (encrypt aes config s id data iv ivsize e)
    | .decrypt id data iv ivsize e => some (decrypt aes config s id data iv ivsize e)
    | .getResult recv => getResult s recv
    | .receive => receive s
    | .crypto e => commandCrypto aes config s e
    | .publish ret => publish s ret

end Steps

def State.start (activated async : Bool) : State :=
  { activated, async, command := [], worker := .idle, output := [], overrun := false, calls := []
    outcomes := [], queued := [], events := [], taken := [] }

/-! ## The property -/

/-- The event that tells what the operation has come to. -/
def Event.of : Option CryptoOutput → Event
  | none => .cryptoError
  | some _ => .cryptoDone

namespace Worker

/-- The operation that has not run yet. -/
def waiting : Worker → List CryptoInput
  | running input => [input]
  | _ => []

def unpublished : Worker → List (CryptoInput × Event)
  | publishing input event => [(input, event)]
  | _ => []

/-- The steps until the worker is idle. -/
def remaining : Worker → Nat
  | idle => 0
  | running _ => 2
  | publishing _ _ => 1

end Worker

namespace State

/-- The operations whose calls returned 0, in order. -/
def accepted (s : State) : List CryptoInput :=
  (s.calls.filter fun call => call.result.ret = 0).map Call.input

/-- The worker's steps until every accepted operation has run. -/
def remaining (s : State) : Nat := s.worker.remaining + 3 * s.command.length

end State

section Condition

variable (aes : Cbc.BlockCipher Key 16) (config : Config)

/-- The cipher stays inside of its buffer and succeeds, and an output is made of its bytes. -/
def Produces (e : OperationEnv) (input : CryptoInput) (inp : Bytes) : Prop :=
  ∃ out outlen, cipher aes config e input inp = .ok (out, outlen) ∧
    makeOutput e.toEnv config input.op out outlen ≠ none

/-- Without an event loop: behind the base64 decoding only the queue may fail. -/
def ReportsHere (e : OperationEnv) (input : CryptoInput) : Prop :=
  ∀ inp, cipherInput e.toEnv config input.op input.data = .ok inp →
    Produces aes config e input inp ∨
      (e.send < 0 ∧ cipher aes config e input inp ≠ .error .outOfBounds)

/-- In the worker nothing may fail. -/
def ReportsLater (e : OperationEnv) (input : CryptoInput) : Prop :=
  e.send = 0 ∧ ∃ inp, cipherInput e.toEnv config input.op input.data = .ok inp ∧
    Produces aes config e input inp

def Sound (s : State) : Act → Prop
  | .encrypt id data iv ivsize e =>
      s.async = false → refusal s .privateKey ⟨.encrypt, id, data, iv, ivsize⟩ = none →
        ReportsHere aes config e.operation ⟨.encrypt, id, data, iv, ivsize⟩
  | .decrypt id data iv ivsize e =>
      s.async = false → refusal s .publicKey ⟨.decrypt, id, data, iv, ivsize⟩ = none →
        ReportsHere aes config e.operation ⟨.decrypt, id, data, iv, ivsize⟩
  | .crypto e => ∀ input, s.worker = .running input → ReportsLater aes config e input
  | .publish ret => 0 ≤ ret
  | _ => True

end Condition

/-! ## One operation -/

section Operation

variable {aes : Cbc.BlockCipher Key 16} {config : Config} {e : OperationEnv} {input : CryptoInput}

theorem crypto_undecoded {ret : Int}
    (h : cipherInput e.toEnv config input.op input.data = .error ret) :
    crypto aes config e input = some ⟨ret, none⟩ ∧ outcome aes config e input = none := by
  simp [crypto, outcome, h]

theorem crypto_decoded {inp : Bytes}
    (h : cipherInput e.toEnv config input.op input.data = .ok inp)
    (hinside : cipher aes config e input inp ≠ .error .outOfBounds) :
    crypto aes config e input = some (sendOutput e.toEnv (outcome aes config e input)) := by
  unfold crypto outcome
  cases hcipher : cipher aes config e input inp with
  | error failure =>
      cases failure with
      | outOfBounds => exact absurd hcipher hinside
      | code ret => simp only [h, hcipher]
  | ok out => simp only [h, hcipher]

theorem crypto_outOfBounds {inp : Bytes}
    (h : cipherInput e.toEnv config input.op input.data = .ok inp)
    (hinside : cipher aes config e input inp = .error .outOfBounds) :
    crypto aes config e input = none := by
  simp [crypto, h, hinside]

/-- Behind the decoding, the operation produces an output if no part of it fails. -/
theorem produces_iff {inp : Bytes}
    (h : cipherInput e.toEnv config input.op input.data = .ok inp) :
    Produces aes config e input inp ↔ outcome aes config e input ≠ none := by
  unfold Produces outcome
  simp only [h]
  cases hcipher : cipher aes config e input inp with
  | error failure => simp
  | ok out =>
      rcases out with ⟨out, outlen⟩
      simp

theorem Produces.inside {inp : Bytes} (h : Produces aes config e input inp) :
    cipher aes config e input inp ≠ .error .outOfBounds := by
  rcases h with ⟨out, outlen, hcipher, -⟩
  rw [hcipher]
  nofun

/-- A failure of the base64 decoding is reported as a negative code. -/
theorem cipherInput_error {ret : Int}
    (h : cipherInput e.toEnv config input.op input.data = .error ret) : ret < 0 := by
  unfold cipherInput at h
  split at h
  · unfold decodeBase64 at h
    split at h
    · cases h
      assumption
    · split at h
      · cases h
        decide
      · split at h
        · cases h
          decide
        · cases h
  · cases h

theorem sendOutput_sent {output : Option CryptoOutput} (h : e.send = 0) :
    sendOutput e.toEnv output = ⟨0, some output⟩ := by
  rw [sendOutput, h]
  rfl

theorem sendOutput_lost {output : Option CryptoOutput} (h : e.send < 0) :
    sendOutput e.toEnv output = ⟨e.send, none⟩ := by
  rw [sendOutput, if_pos h]

/-- In the thread of the caller an operation reports its own outcome exactly under the condition. -/
theorem reportsHere_iff :
    (∃ result, crypto aes config e input = some result ∧
        (result.ret = 0 ↔ ∃ output, result.sent = some (some output))) ↔
      ReportsHere aes config e input := by
  unfold ReportsHere
  cases hinput : cipherInput e.toEnv config input.op input.data with
  | error ret =>
      have hret := cipherInput_error hinput
      rw [(crypto_undecoded hinput).1]
      constructor
      · intro _ inp h
        cases h
      · intro _
        refine ⟨_, rfl, fun h => ?_, nofun⟩
        exact absurd h (ne_of_lt hret)
  | ok inp =>
      simp only [Except.ok.injEq, forall_eq']
      by_cases hinside : cipher aes config e input inp = .error .outOfBounds
      · rw [crypto_outOfBounds hinput hinside]
        constructor
        · rintro ⟨result, h, -⟩
          cases h
        · rintro (h | ⟨-, h⟩)
          · exact absurd hinside h.inside
          · exact absurd hinside h
      · rw [crypto_decoded hinput hinside, produces_iff hinput]
        rcases lt_or_eq_of_le e.send_le with hlost | hsent
        · rw [sendOutput_lost hlost]
          refine ⟨fun _ => .inr ⟨hlost, hinside⟩, fun _ => ⟨_, rfl, fun h => ?_, nofun⟩⟩
          exact absurd h (ne_of_lt hlost)
        · rw [sendOutput_sent hsent]
          constructor
          · rintro ⟨result, h, hreport⟩
            cases h
            rcases hreport.1 rfl with ⟨output, houtput⟩
            rw [Option.some.inj houtput]
            exact .inl (Option.some_ne_none output)
          · rintro (h | ⟨hlost, -⟩)
            · rcases Option.ne_none_iff_exists'.1 h with ⟨output, houtput⟩
              exact ⟨_, rfl, fun _ => ⟨output, congrArg some houtput⟩, fun _ => rfl⟩
            · exact absurd hsent (ne_of_lt hlost)

/-- In the worker an operation is queued with its outcome, and returns 0 if and only if there is an
output, exactly under the condition. -/
theorem reportsLater_iff :
    (∃ ret, crypto aes config e input = some ⟨ret, some (outcome aes config e input)⟩ ∧
        (ret = 0 ↔ outcome aes config e input ≠ none)) ↔
      ReportsLater aes config e input := by
  unfold ReportsLater
  cases hinput : cipherInput e.toEnv config input.op input.data with
  | error ret =>
      rw [(crypto_undecoded hinput).1]
      constructor
      · rintro ⟨ret', h, -⟩
        cases h
      · rintro ⟨-, inp, h, -⟩
        cases h
  | ok inp =>
      simp only [Except.ok.injEq, exists_eq_left']
      by_cases hinside : cipher aes config e input inp = .error .outOfBounds
      · rw [crypto_outOfBounds hinput hinside]
        constructor
        · rintro ⟨ret, h, -⟩
          cases h
        · rintro ⟨-, h⟩
          exact absurd hinside h.inside
      · rw [crypto_decoded hinput hinside, produces_iff hinput]
        rcases lt_or_eq_of_le e.send_le with hlost | hsent
        · rw [sendOutput_lost hlost]
          constructor
          · rintro ⟨ret, h, -⟩
            cases h
          · rintro ⟨h, -⟩
            exact absurd h (ne_of_lt hlost)
        · rw [sendOutput_sent hsent]
          constructor
          · rintro ⟨ret, h, hreport⟩
            cases h
            exact ⟨hsent, hreport.1 rfl⟩
          · rintro ⟨-, h⟩
            exact ⟨0, rfl, fun _ => h, fun _ => rfl⟩

/-- With the secret key it is the `Crypto` whose round trip is looked at on its own. -/
theorem crypto_secretKey {op : CryptoOp} {data : Bytes} {iv : Block} {ivsize : Int} :
    crypto aes config e ⟨op, .secretKey, data, some iv, ivsize⟩ =
      Authenticator.crypto aes e.toEnv config op data iv := rfl

end Operation

/-! ## The invariant -/

structure Inv (s : State) : Prop where
  intact : s.overrun = false
  returned : s.async = false → ∀ call ∈ s.calls,
    call.result.ret = 0 ↔ ∃ output, call.result.sent = some (some output)
  /-- Without an event loop there is no worker. -/
  alone : s.async = false → s.worker = .idle ∧ s.command = []
  events : s.async = true →
    s.outcomes.map (fun p => (p.1, Event.of p.2)) = s.events ++ s.worker.unpublished
  run : s.accepted = s.outcomes.map Prod.fst ++ (s.worker.waiting ++ s.command)
  queued : s.queued = s.outcomes.map Prod.snd
  answered : s.queued.map answer = s.taken ++ s.output.map answer

theorem inv_start (activated async : Bool) : Inv (State.start activated async) := by
  constructor
  case alone => exact fun _ => ⟨rfl, rfl⟩
  all_goals simp [State.start, State.accepted, Worker.unpublished, Worker.waiting]

theorem accepted_return (s : State) (input : CryptoInput) (ret : Int) :
    (s.return input ret).accepted = s.accepted ++ if ret = 0 then [input] else [] := by
  by_cases h : ret = 0
  · simp [State.return, State.accepted, h]
  · simp [State.return, State.accepted, h]

/-! ## Progress -/

section Steps

variable {aes : Cbc.BlockCipher Key 16} {config : Config} {s s' : State}

theorem remaining_lt {a : Act} (ha : a.byWorker = true) (h : step aes config s a = some s') :
    s'.overrun = true ∨ s'.remaining < s.remaining := by
  unfold step at h
  split at h
  · cases h
  · cases a with
    | encrypt id data iv ivsize e => cases ha
    | decrypt id data iv ivsize e => cases ha
    | getResult recv => cases ha
    | receive =>
        simp only [receive] at h
        split at h
        · rename_i hw hc
          cases h
          right
          simp [State.remaining, Worker.remaining, hw, hc]
          omega
        · cases h
    | crypto e =>
        simp only [commandCrypto] at h
        split at h
        · rename_i hw
          split at h
          · cases h
            exact .inl rfl
          · cases h
            right
            simp [State.remaining, Worker.remaining, hw]
        · cases h
    | publish ret =>
        simp only [publish] at h
        split at h
        · rename_i hw
          right
          split at h <;> cases h <;> simp [State.remaining, Worker.remaining, hw]
        · cases h

/-! ## Steps of the callers -/

theorem inv_return (hs : Inv s) {input : CryptoInput} {ret : Int} (hret : ret ≠ 0) :
    Inv (s.return input ret) := by
  refine ⟨hs.intact, fun hasync call hcall => ?_, hs.alone, hs.events, ?_, hs.queued, hs.answered⟩
  · rcases List.mem_append.1 hcall with hold | hnew
    · exact hs.returned hasync call hold
    · rw [List.mem_singleton.1 hnew]
      exact ⟨fun h => absurd h hret, nofun⟩
  · rw [accepted_return, if_neg hret, List.append_nil]
    exact hs.run

/-- What `Crypto` has queued is the outcome, or it has failed and queued nothing. -/
theorem crypto_cases {e : OperationEnv} {input : CryptoInput} {result : CryptoResult}
    (h : crypto aes config e input = some result) :
    (result.ret < 0 ∧ result.sent = none) ∨ result = ⟨0, some (outcome aes config e input)⟩ := by
  cases hinput : cipherInput e.toEnv config input.op input.data with
  | error ret =>
      rw [(crypto_undecoded hinput).1] at h
      cases h
      exact .inl ⟨cipherInput_error hinput, rfl⟩
  | ok inp =>
      by_cases hinside : cipher aes config e input inp = .error .outOfBounds
      · rw [crypto_outOfBounds hinput hinside] at h
        cases h
      · rw [crypto_decoded hinput hinside, Option.some.injEq] at h
        rcases lt_or_eq_of_le e.send_le with hlost | hsent
        · rw [← h, sendOutput_lost hlost]
          exact .inl ⟨hlost, rfl⟩
        · rw [← h, sendOutput_sent hsent]
          exact .inr rfl

theorem inv_runHere (hs : Inv s) (hasync : s.async = false) {input : CryptoInput}
    {e : OperationEnv} (hsound : ReportsHere aes config e input) :
    Inv (runHere aes config s input e) := by
  rcases reportsHere_iff.2 hsound with ⟨result, hcrypto, hreport⟩
  have halone := hs.alone hasync
  have hreturned : ∀ call ∈ s.calls ++ [⟨input, result⟩],
      call.result.ret = 0 ↔ ∃ output, call.result.sent = some (some output) := by
    intro call hcall
    rcases List.mem_append.1 hcall with hold | hnew
    · exact hs.returned hasync call hold
    · rw [List.mem_singleton.1 hnew]
      exact hreport
  unfold runHere
  rw [hcrypto]
  rcases crypto_cases hcrypto with ⟨hret, hsent⟩ | hresult
  · have hne : ¬ result.ret = 0 := ne_of_lt hret
    refine ⟨hs.intact, fun _ => hreturned, hs.alone, ?_, ?_, ?_, ?_⟩
    · intro h
      rw [hasync] at h
      cases h
    · simpa [State.accepted, hne] using hs.run
    · simpa [hsent, hne] using hs.queued
    · simpa [hsent] using hs.answered
  · subst hresult
    refine ⟨hs.intact, fun _ => hreturned, hs.alone, ?_, ?_, ?_, ?_⟩
    · intro h
      rw [hasync] at h
      cases h
    · have hrun := hs.run
      rw [halone.1, halone.2] at hrun
      simpa [State.accepted, halone, Worker.waiting] using hrun
    · simpa using hs.queued
    · simp [hs.answered]

theorem inv_request (hs : Inv s) {forbidden : KeyId} {input : CryptoInput} {e : CallEnv}
    (hsound : s.async = false → refusal s forbidden input = none →
      ReportsHere aes config e.operation input) :
    Inv (request aes config forbidden s input e) := by
  unfold request
  cases hrefusal : refusal s forbidden input with
  | some ret =>
      refine inv_return hs ?_
      unfold refusal at hrefusal
      split at hrefusal
      · cases hrefusal
        decide
      · split at hrefusal
        · split at hrefusal
          · cases hrefusal
            decide
          · cases hrefusal
        · split at hrefusal
          · cases hrefusal
            decide
          · cases hrefusal
  | none =>
      by_cases hasync : s.async = true
      · simp only [if_pos hasync]
        split
        · exact inv_return hs (by decide)
        · split
          · rename_i hlost
            exact inv_return hs (ne_of_lt hlost)
          · -- The command is accepted, and waits behind the others.
            rename_i hsent
            have hzero : e.sent = 0 := le_antisymm e.sent_le (not_lt.1 hsent)
            refine ⟨hs.intact, fun h => ?_, fun h => ?_, hs.events, ?_, hs.queued, hs.answered⟩
            · rw [show s.async = false from h] at hasync
              cases hasync
            · rw [show s.async = false from h] at hasync
              cases hasync
            · have haccepted := accepted_return s input e.sent
              rw [if_pos hzero, hs.run] at haccepted
              simpa [State.accepted, State.return] using haccepted
      · have hsync : s.async = false := by simpa using hasync
        simp only [if_neg hasync]
        exact inv_runHere hs hsync (hsound hsync hrefusal)

theorem inv_getResult {recv : Int} (hs : Inv s) (h : getResult s recv = some s') : Inv s' := by
  unfold getResult at h
  split at h
  · cases h
    exact hs
  · split at h
    · cases h
      exact hs
    · split at h
      · cases h
      · rename_i output rest hout
        cases h
        refine ⟨hs.intact, hs.returned, hs.alone, hs.events, hs.run, hs.queued, ?_⟩
        simpa [hout] using hs.answered

/-! ## Steps of the worker -/

theorem Inv.async_of_busy (hs : Inv s) (h : s.worker ≠ .idle) : s.async = true := by
  by_contra hasync
  exact h (hs.alone (by simpa using hasync)).1

theorem inv_receive (hs : Inv s) (h : receive s = some s') : Inv s' := by
  unfold receive at h
  split at h
  · rename_i input rest hw hc
    cases h
    have hrun := hs.run
    have hevents := hs.events
    rw [hw] at hrun hevents
    rw [hc] at hrun
    -- The command is still waiting to be run, now in the hands of the worker.
    refine ⟨hs.intact, hs.returned, fun hasync => ?_, hevents, hrun, hs.queued, hs.answered⟩
    have halone := (hs.alone hasync).2
    rw [hc] at halone
    cases halone
  · cases h

theorem inv_commandCrypto {e : OperationEnv} (hs : Inv s)
    (hsound : ∀ input, s.worker = .running input → ReportsLater aes config e input)
    (h : commandCrypto aes config s e = some s') : Inv s' := by
  unfold commandCrypto at h
  split at h
  · rename_i input hw
    rcases reportsLater_iff.2 (hsound input hw) with ⟨ret, hcrypto, hret⟩
    rw [hcrypto] at h
    cases h
    have hasync : s.async = true := hs.async_of_busy (by rw [hw]; nofun)
    have hrun := hs.run
    have hevents := hs.events hasync
    rw [hw] at hrun hevents
    have hevent : (if ret = 0 then Event.cryptoDone else .cryptoError) =
        Event.of (outcome aes config e input) := by
      cases houtcome : outcome aes config e input with
      | none =>
          rw [if_neg fun hzero => hret.1 hzero houtcome]
          rfl
      | some output =>
          rw [if_pos (hret.2 (by rw [houtcome]; nofun))]
          rfl
    refine ⟨hs.intact, fun h => ?_, fun h => ?_, fun _ => ?_, ?_, ?_, ?_⟩
    · rw [show s.async = false from h] at hasync
      cases hasync
    · rw [show s.async = false from h] at hasync
      cases hasync
    · simp only [Worker.unpublished, List.append_nil] at hevents
      simp [Worker.unpublished, hevents, hevent]
    · simpa [Worker.waiting, State.accepted] using hrun
    · simpa using hs.queued
    · simp [hs.answered]
  · cases h

theorem inv_publish {ret : Int} (hs : Inv s) (hret : 0 ≤ ret) (h : publish s ret = some s') :
    Inv s' := by
  unfold publish at h
  split at h
  · rename_i input event hw
    rw [if_neg (not_lt.2 hret)] at h
    cases h
    have hasync : s.async = true := hs.async_of_busy (by rw [hw]; nofun)
    have hrun := hs.run
    have hevents := hs.events hasync
    rw [hw] at hrun hevents
    refine ⟨hs.intact, hs.returned, fun h => ?_, fun _ => ?_, hrun, hs.queued, hs.answered⟩
    · rw [show s.async = false from h] at hasync
      cases hasync
    · simpa [Worker.unpublished] using hevents
  · cases h

theorem inv_step {a : Act} (hs : Inv s) (hsound : Sound aes config s a)
    (h : step aes config s a = some s') : Inv s' := by
  unfold step at h
  rw [if_neg (by simp [hs.intact])] at h
  cases a with
  | encrypt id data iv ivsize e =>
      cases h
      exact inv_request hs hsound
  | decrypt id data iv ivsize e =>
      cases h
      exact inv_request hs hsound
  | getResult recv => exact inv_getResult hs h
  | receive => exact inv_receive hs h
  | crypto e => exact inv_commandCrypto hs hsound h
  | publish ret => exact inv_publish hs hsound h

/-- A call leaves the worker and the events alone. -/
theorem request_worker (aes : Cbc.BlockCipher Key 16) (config : Config) (forbidden : KeyId) (s : State)
    (input : CryptoInput) (e : CallEnv) :
    (request aes config forbidden s input e).worker = s.worker ∧
      (request aes config forbidden s input e).events = s.events := by
  unfold request
  split
  · exact ⟨rfl, rfl⟩
  · split
    · split
      · exact ⟨rfl, rfl⟩
      · split <;> exact ⟨rfl, rfl⟩
    · unfold runHere
      split <;> exact ⟨rfl, rfl⟩

/-- An event that is about to be published belongs to an operation that has just run, or was waiting
before; nothing has been published since. -/
theorem unpublished_of_step {a : Act} (h : step aes config s a = some s')
    (hunpublished : s'.worker.unpublished ≠ []) :
    s'.events = s.events ∧ ((∃ e, a = .crypto e) ∨ s.worker.unpublished ≠ []) := by
  unfold step at h
  split at h
  · cases h
  · cases a with
    | encrypt id data iv ivsize e =>
        cases h
        have hsame := request_worker aes config .privateKey s ⟨.encrypt, id, data, iv, ivsize⟩ e
        exact ⟨hsame.2, .inr (hsame.1 ▸ hunpublished)⟩
    | decrypt id data iv ivsize e =>
        cases h
        have hsame := request_worker aes config .publicKey s ⟨.decrypt, id, data, iv, ivsize⟩ e
        exact ⟨hsame.2, .inr (hsame.1 ▸ hunpublished)⟩
    | getResult recv =>
        simp only [getResult] at h
        split at h
        · cases h
          exact ⟨rfl, .inr hunpublished⟩
        · split at h
          · cases h
            exact ⟨rfl, .inr hunpublished⟩
          · split at h
            · cases h
            · cases h
              exact ⟨rfl, .inr hunpublished⟩
    | receive =>
        simp only [receive] at h
        split at h
        · cases h
          exact absurd rfl hunpublished
        · cases h
    | crypto e =>
        simp only [commandCrypto] at h
        split at h
        · split at h <;> cases h <;> exact ⟨rfl, .inl ⟨e, rfl⟩⟩
        · cases h
    | publish ret =>
        simp only [publish] at h
        split at h
        · split at h <;> cases h <;> exact absurd rfl hunpublished
        · cases h

end Steps

/-! ## Blocking writes -/

/-- How many pointers the pipes of the commands, of the outputs and of the events take before a write
waits. -/
structure Pipes where
  command : Nat
  output : Nat
  event : Nat
  output_pos : 0 < output

namespace Blocking

structure State where
  operations : Operations.State
  /-- How many of the events `FetchEventData` has read. -/
  fetched : Nat

inductive Act
  | operations (a : Operations.Act)
  | fetchEvent

namespace State

/-- The events that are still in their pipe. -/
def unfetched (s : State) : Nat := s.operations.events.length - s.fetched

def start (activated async : Bool) : State := ⟨.start activated async, 0⟩

end State

/-- No pipe has more than it holds. -/
structure Fits (pipes : Pipes) (s : State) : Prop where
  command : s.operations.command.length ≤ pipes.command
  output : s.operations.output.length ≤ pipes.output
  event : s.unfetched ≤ pipes.event

instance (pipes : Pipes) (s : State) : Decidable (Fits pipes s) :=
  decidable_of_iff (s.operations.command.length ≤ pipes.command ∧
      s.operations.output.length ≤ pipes.output ∧ s.unfetched ≤ pipes.event)
    ⟨fun h => ⟨h.1, h.2.1, h.2.2⟩, fun h => ⟨h.command, h.output, h.event⟩⟩

section System

variable (aes : Cbc.BlockCipher Key 16) (config : Config) (pipes : Pipes)

/-- The steps, as if there were always room. -/
def move (s : State) : Act → Option State
  | .operations a =>
      (Operations.step aes config s.operations a).map fun operations =>
        { s with operations := operations }
  | .fetchEvent => if 0 < s.unfetched then some { s with fetched := s.fetched + 1 } else none

/-- A write waits as long as there is no room for what it writes. -/
def step : State → Act → Option State := Run.within (move aes config) (Fits pipes)

/-! ## The property -/

/-- What is asked of every state. -/
structure Matched (s : State) : Prop where
  intact : s.operations.overrun = false
  /-- A call without an event loop returns 0 if and only if it has queued an output. -/
  returned : s.operations.async = false → ∀ call ∈ s.operations.calls,
    call.result.ret = 0 ↔ ∃ output, call.result.sent = some (some output)
  /-- Each operation of the worker has one event, which tells whether there is an output. -/
  events : s.operations.async = true →
    s.operations.outcomes.map (fun p => (p.1, Event.of p.2)) =
      s.operations.events ++ s.operations.worker.unpublished
  /-- The operations whose calls returned 0 run in order, and one record is queued for each. -/
  run : s.operations.accepted =
    s.operations.outcomes.map Prod.fst ++ (s.operations.worker.waiting ++ s.operations.command)
  queued : s.operations.queued = s.operations.outcomes.map Prod.snd
  /-- The `k`-th `GetResult` returns the outcome of the `k`-th of these operations. -/
  taken : ∀ (k : Nat) (a : Answer), s.operations.taken[k]? = some a → ∃ input output,
    s.operations.accepted[k]? = some input ∧ s.operations.outcomes[k]? = some (input, output) ∧
      a = answer output
  /-- A record is there as long as fewer were taken than operations accepted, or the worker is at
  work, does not wait and will come to an end. -/
  served : s.operations.taken.length < s.operations.accepted.length → s.operations.output ≠ [] ∨
    (s.operations.worker.waiting ++ s.operations.command ≠ [] ∧
      ∃ a : Operations.Act, a.byWorker = true ∧ (step aes config pipes s (.operations a)).isSome = true)
  progress : ∀ (a : Operations.Act) s', a.byWorker = true →
    step aes config pipes s (.operations a) = some s' →
      s'.operations.overrun = true ∨ s'.operations.remaining < s.operations.remaining

/-- As in `Operations.Sound`; and when the worker runs an operation, there is room for its event. -/
def Sound (s : State) : Act → Prop
  | .operations a => Operations.Sound aes config s.operations a ∧
      ∀ e, a = .crypto e → s.unfetched < pipes.event
  | .fetchEvent => True

end System

/-! ## The invariant -/

structure Inv (pipes : Pipes) (s : State) : Prop where
  operations : Operations.Inv s.operations
  fits : Fits pipes s
  /-- The event that the worker is about to publish finds room. -/
  room : s.operations.worker.unpublished ≠ [] → s.unfetched < pipes.event

theorem inv_start (pipes : Pipes) (activated async : Bool) :
    Inv pipes (State.start activated async) where
  operations := Operations.inv_start activated async
  fits := ⟨Nat.zero_le _, Nat.zero_le _, Nat.zero_le _⟩
  room := fun h => absurd rfl h

section Steps

variable {aes : Cbc.BlockCipher Key 16} {config : Config} {pipes : Pipes} {s s' : State}

theorem step_operations {a : Operations.Act}
    (h : step aes config pipes s (.operations a) = some s') :
    Operations.step aes config s.operations a = some s'.operations ∧ s'.fetched = s.fetched ∧
      Fits pipes s' := by
  rcases Run.within_eq_some.1 h with ⟨hmove, hfits⟩
  rcases Option.map_eq_some_iff.1 hmove with ⟨operations, hstep, rfl⟩
  exact ⟨hstep, rfl, hfits⟩

theorem step_isSome {a : Operations.Act} {operations : Operations.State}
    (h : Operations.step aes config s.operations a = some operations)
    (hfits : Fits pipes { s with operations := operations }) :
    (step aes config pipes s (.operations a)).isSome = true :=
  Run.within_isSome (congrArg (Option.map _) h) hfits

theorem inv_step {a : Act} (hs : Inv pipes s) (hsound : Sound aes config pipes s a)
    (h : step aes config pipes s a = some s') : Inv pipes s' := by
  cases a with
  | operations a =>
      rcases step_operations h with ⟨hstep, hfetched, hfits⟩
      refine ⟨Operations.inv_step hs.operations hsound.1 hstep, hfits, fun hunpublished => ?_⟩
      rcases unpublished_of_step hstep hunpublished with ⟨hevents, hroom⟩
      rw [State.unfetched, hevents, hfetched]
      exact hroom.elim (fun ⟨e, he⟩ => hsound.2 e he) hs.room
  | fetchEvent =>
      rcases Run.within_eq_some.1 h with ⟨hmove, hfits⟩
      simp only [move] at hmove
      split at hmove
      · cases hmove
        have hle : s.operations.events.length - (s.fetched + 1) ≤ s.unfetched :=
          Nat.sub_le_sub_left (Nat.le_succ _) _
        exact ⟨hs.operations, hfits,
          fun hunpublished => lt_of_le_of_lt hle (hs.room hunpublished)⟩
      · cases hmove

/-! ## Progress -/

/-- As long as the application has nothing to take, the worker needs nothing but room. -/
theorem worker_enabled (hs : Inv pipes s) (e : OperationEnv) (hempty : s.operations.output = [])
    (h : s.operations.worker.waiting ++ s.operations.command ≠ []) :
    ∃ a : Operations.Act, a.byWorker = true ∧
      (step aes config pipes s (.operations a)).isSome = true := by
  have hne : ¬ s.operations.overrun = true := by simp [hs.operations.intact]
  rcases hs.fits with ⟨hcommand, houtput, hevent⟩
  cases hw : s.operations.worker with
  | idle =>
      cases hc : s.operations.command with
      | nil => simp [hw, hc, Worker.waiting] at h
      | cons input rest =>
          have hrest : rest.length ≤ pipes.command := by
            rw [hc] at hcommand
            exact (Nat.le_succ _).trans hcommand
          have hstep : Operations.step aes config s.operations .receive =
              some { s.operations with command := rest, worker := .running input } := by
            simp only [Operations.step, if_neg hne, receive, hw, hc]
          exact ⟨.receive, rfl, step_isSome hstep ⟨hrest, houtput, hevent⟩⟩
  | running input =>
      cases hcrypto : crypto aes config e input with
      | none =>
          have hstep : Operations.step aes config s.operations (.crypto e) =
              some { s.operations with overrun := true } := by
            simp only [Operations.step, if_neg hne, commandCrypto, hw, hcrypto]
          exact ⟨.crypto e, rfl, step_isSome hstep ⟨hcommand, houtput, hevent⟩⟩
      | some result =>
          have hone : (s.operations.output ++ result.sent.toList).length ≤ pipes.output := by
            have hle : result.sent.toList.length ≤ 1 := by
              cases result.sent <;> simp
            rw [hempty, List.nil_append]
            exact hle.trans pipes.output_pos
          have hstep : Operations.step aes config s.operations (.crypto e) =
              some { s.operations with
                output := s.operations.output ++ result.sent.toList
                queued := s.operations.queued ++ result.sent.toList
                outcomes := s.operations.outcomes ++ [(input, outcome aes config e input)]
                worker := .publishing input
                  (if result.ret = 0 then .cryptoDone else .cryptoError) } := by
            simp only [Operations.step, if_neg hne, commandCrypto, hw, hcrypto]
          exact ⟨.crypto e, rfl, step_isSome hstep ⟨hcommand, hone, hevent⟩⟩
  | publishing input event =>
      have hroom := hs.room (by rw [hw]; nofun)
      have hmore : (s.operations.events ++ [(input, event)]).length - s.fetched ≤ pipes.event := by
        have hunfetched : s.operations.events.length - s.fetched < pipes.event := hroom
        rw [List.length_append, List.length_singleton]
        omega
      have hstep : Operations.step aes config s.operations (.publish 0) =
          some { s.operations with
            worker := .idle
            events := s.operations.events ++ [(input, event)] } := by
        simp [Operations.step, hne, publish, hw]
      exact ⟨.publish 0, rfl, step_isSome hstep ⟨hcommand, houtput, hmore⟩⟩

theorem Inv.matched (hs : Inv pipes s) : Matched aes config pipes s := by
  have hinv := hs.operations
  refine ⟨hinv.intact, hinv.returned, hinv.events, hinv.run, hinv.queued, ?_, fun hlt => ?_,
    fun a s' ha h => remaining_lt ha (step_operations h).1⟩
  · intro k a hk
    have hanswer : (s.operations.queued.map answer)[k]? = some a := by
      rw [hinv.answered, List.getElem?_append_left (List.getElem?_eq_some_iff.1 hk).1, hk]
    rw [hinv.queued, List.getElem?_map, List.getElem?_map] at hanswer
    cases hoperation : s.operations.outcomes[k]? with
    | none => simp [hoperation] at hanswer
    | some operation =>
        rcases operation with ⟨input, output⟩
        refine ⟨input, output, ?_, rfl, ?_⟩
        · have hlt := (List.getElem?_eq_some_iff.1 hoperation).1
          rw [hinv.run, List.getElem?_append_left (by simpa using hlt)]
          simp [hoperation]
        · simpa [hoperation] using hanswer.symm
  · by_cases hempty : s.operations.output = []
    · right
      have hwaiting : s.operations.worker.waiting ++ s.operations.command ≠ [] := by
        -- Otherwise every accepted operation has run, and every record was taken.
        intro hnone
        have hrun : s.operations.accepted.length = s.operations.outcomes.length := by
          rw [hinv.run, hnone, List.append_nil, List.length_map]
        have hcount := congrArg List.length hinv.answered
        rw [hempty, hinv.queued] at hcount
        simp only [List.length_map, List.map_nil, List.append_nil] at hcount
        omega
      exact ⟨hwaiting, worker_enabled hs .working hempty hwaiting⟩
    · exact .inl hempty

end Steps

/-! ## Fixed runs -/

end Blocking

end Operations
end Authenticator
end Beyond
