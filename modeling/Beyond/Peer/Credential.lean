import Beyond.Base.Bytes
import Beyond.Base.Platform

/-!
# The credential record

`Peer::Credential` is what the client encrypts for `ExchangeKey`: the nonce, the length of the
secret key, the uuid of the server and the secret key itself.  The client builds it in
`Peer::GrpcClient::ExchangeKey`; the server takes the decrypted bytes apart in
`Peer::GrpcServer::ExchangeKey`.  Both ends use the layout of the struct on a 64-bit little-endian
machine.
-/

namespace Beyond
namespace Peer

open Errno

/-- What stops the C++ code other than by a return. -/
inductive Fault
  | outOfBounds
  | lengthError
  | nullGst
  | nullInfo
  | nullDims
  | assertion
  deriving DecidableEq, Repr

/-- `BEYOND_UUID_LEN`. -/
def uuidLen : Nat := 37

/-- The text in a `uuid` field that a peer filled for itself; it always leaves room for the
terminating zero byte. -/
structure Uuid where
  text : Bytes
  length_lt : text.length < uuidLen
  zero_notMem : 0 ∉ text
  deriving DecidableEq, Repr

/-- A field that was never filled. -/
def Uuid.empty : Uuid := ⟨[], by decide, by decide⟩

def Uuid.twoBytes : Uuid := ⟨Bytes.ascii "ab", by decide, by decide⟩

/-- The whole field: `calloc` left zero bytes behind the text. -/
def Uuid.field (u : Uuid) : Bytes := u.text ++ List.replicate (uuidLen - u.text.length) 0

@[simp] theorem Uuid.length_field (u : Uuid) : u.field.length = uuidLen := by
  have h := u.length_lt
  simp [Uuid.field]
  omega

namespace Credential

def nonceOffset : Nat := 0
def sessionKeyLengthOffset : Nat := 8
def uuidOffset : Nat := 12
def payloadOffset : Nat := 49

/-- `sizeof(Peer::Credential)`, with the padding behind `payload[1]`. -/
def size : Nat := 56

/-! ## The client's record -/

/-- The record in the buffer of `sizeof(Credential) + secretKeySize` bytes: `rest` is what `malloc`
left behind the key. -/
def encode (u : Uuid) (secret : Bytes) (nonce : UInt64) (rest : Vector UInt8 7) : Bytes :=
  Bytes.leBytes 8 nonce.toNat ++
    (Bytes.leBytes 4 secret.length ++ (u.field ++ (secret ++ rest.toList)))

/-- The part of `GrpcClient::ExchangeKey` before `Encrypt`: the record, or the negative code that
the function returns.  `getKey` is what the authenticator's `GetKey` brings back, `memory` says that
`malloc` succeeds. -/
def build (info : Option Uuid) (getKey : Int × Option Bytes) (memory : Bool) (nonce : UInt64)
    (rest : Vector UInt8 7) : Except Int Bytes :=
  match info with
  | none => .error (-EINVAL)
  | some u =>
      if u.text = [] then .error (-EINVAL)
      else if getKey.1 < 0 then .error getKey.1
      else
        match getKey.2 with
        | none => .error (-EINVAL)
        | some secret =>
            if secret = [] then .error (-EINVAL)
            -- `credSize` is an `int`; a sum beyond it is an allocation that fails.
            else if memory = false ∨ 2 ^ 31 ≤ size + secret.length then .error (-ENOMEM)
            else .ok (encode u secret nonce rest)

/-! ## The server's reads -/

/-- What the two `DbgPrint` calls read; without `logs` (`NDEBUG`) they are not compiled in. -/
def dbgPrint (logs : Bool) (key : Bytes) : Except Fault Unit :=
  if logs then
    if (Bytes.strlen (key.drop uuidOffset)).isSome ∧
        (Bytes.slice key sessionKeyLengthOffset 4).isSome then .ok ()
    else .error .outOfBounds
  else .ok ()

/-- `strncmp(peer->info->uuid, cred->uuid, strlen(peer->info->uuid)) == 0`. -/
def uuidMatches (u : Uuid) (key : Bytes) : Except Fault Bool :=
  match Bytes.strncmpEq (u.text ++ [0]) (key.drop uuidOffset) u.text.length with
  | some b => .ok b
  | none => .error .outOfBounds

def sessionKeyLength (key : Bytes) : Option Int :=
  (Bytes.slice key sessionKeyLengthOffset 4).map fun b => Bytes.toInt32 (Bytes.leNat b)

/-- The secret `std::string(cred->payload, cred->sessionKeyLength)` and the nonce.  A negative
length is a huge `size_t`, for which the constructor throws `std::length_error`. -/
def session (key : Bytes) : Except Fault (Bytes × UInt64) :=
  match sessionKeyLength key with
  | none => .error .outOfBounds
  | some n =>
      if n < 0 then .error .lengthError
      -- Nothing compares the length with that of the record.
      else
        match Bytes.slice key payloadOffset n.toNat, Bytes.slice key nonceOffset 8 with
        | some secret, some nonce => .ok (secret, UInt64.ofNat (Bytes.leNat nonce))
        | _, _ => .error .outOfBounds

/-! ## What a well-formed record is -/

/-- The record has a whole header, its length field fits the bytes that follow, and its uuid field
holds the given uuid. -/
structure Whole (u : Uuid) (key : Bytes) : Prop where
  header : payloadOffset ≤ key.length
  keyLength : ∃ n : Nat, sessionKeyLength key = some (n : Int) ∧ n ≤ key.length - payloadOffset
  uuid : Bytes.cstring ((key.drop uuidOffset).take uuidLen) = u.text

/-- The text of the server's uuid stands at the place of the uuid, but what is around it is not a
whole record: the length field is not there, or it promises more than there is, or the uuid field
goes on. -/
def Overrun (u : Uuid) (key : Bytes) : Prop :=
  u.text <+: key.drop uuidOffset ∧
    (key.length < uuidOffset ∨
      ∃ n : Nat, sessionKeyLength key = some (n : Int) ∧
        (key.length < payloadOffset + n ∨
          (key.drop (uuidOffset + u.text.length)).head? ≠ some 0))

/-- The record ends inside the characters that are compared. -/
def Truncated (u : Uuid) (key : Bytes) : Prop :=
  key.drop uuidOffset <+: u.text ∧ (key.drop uuidOffset).length < u.text.length

/-! ## Facts about the reads -/

theorem dbgPrint_ok {logs : Bool} {key : Bytes} :
    dbgPrint logs key = .ok () ↔ (logs = true → 0 ∈ key.drop uuidOffset) := by
  cases logs with
  | false => simp [dbgPrint]
  | true =>
      have hlength : 0 ∈ key.drop uuidOffset → sessionKeyLengthOffset + 4 ≤ key.length := by
        intro h
        have hpos := List.length_pos_of_mem h
        simp [uuidOffset, sessionKeyLengthOffset] at hpos ⊢
        omega
      -- A zero byte behind the uuid's offset is also behind the length field.
      by_cases hz : 0 ∈ key.drop uuidOffset
      · have hs : (Bytes.slice key sessionKeyLengthOffset 4).isSome :=
          Bytes.slice_isSome.2 (Or.inr (hlength hz))
        simp [dbgPrint, Bytes.strlen_isSome.2 hz, hs, hz]
      · have hn : ¬ (Bytes.strlen (key.drop uuidOffset)).isSome = true := by
          rw [Bytes.strlen_isSome]
          exact hz
        simp [dbgPrint, hn, hz]

theorem dbgPrint_error {logs : Bool} {key : Bytes} {f : Fault} :
    dbgPrint logs key = .error f → f = .outOfBounds := by
  intro h
  unfold dbgPrint at h
  split at h
  · split at h
    · cases h
    · cases h
      rfl
  · cases h

theorem uuidMatches_true {u : Uuid} {key : Bytes} :
    uuidMatches u key = .ok true ↔ u.text <+: key.drop uuidOffset := by
  rw [← Bytes.strncmpEq_true_iff [0] u.zero_notMem]
  unfold uuidMatches
  cases Bytes.strncmpEq (u.text ++ [0]) (key.drop uuidOffset) u.text.length <;> simp

theorem uuidMatches_error {u : Uuid} {key : Bytes} {f : Fault} :
    uuidMatches u key = .error f ↔ f = .outOfBounds ∧ Truncated u key := by
  unfold Truncated
  rw [← Bytes.strncmpEq_none_iff [0] u.zero_notMem]
  unfold uuidMatches
  cases Bytes.strncmpEq (u.text ++ [0]) (key.drop uuidOffset) u.text.length <;>
    simp [eq_comm]

theorem sessionKeyLength_eq_none {key : Bytes} :
    sessionKeyLength key = none ↔ key.length < uuidOffset := by
  simp [sessionKeyLength, Bytes.slice_eq_none, sessionKeyLengthOffset, uuidOffset]

/-- The reads of the session stay inside a record that is long enough for its length field. -/
theorem session_of_length {key : Bytes} {n : Nat} (hn : sessionKeyLength key = some (n : Int))
    (hlen : payloadOffset + n ≤ key.length) :
    session key =
      .ok ((key.drop payloadOffset).take n,
        UInt64.ofNat (Bytes.leNat ((key.drop nonceOffset).take 8))) := by
  have h8 : nonceOffset + 8 ≤ key.length := by
    simp [nonceOffset, payloadOffset] at hlen ⊢
    omega
  have hneg : ¬ (n : Int) < 0 := by omega
  simp [session, hn, hneg, Bytes.slice, hlen, h8]

end Credential
end Peer
end Beyond
