import Beyond.Peer.Auth

/-!
# Key exchange with one client

What `GrpcServer::ExchangeKey` makes of a decrypted credential record: when it stays inside the
record, when a session comes out of it, and that a record of the client gives exactly the session
that the client asked for.
-/

namespace Beyond
namespace Peer

/-! ## Records -/

namespace Credential

/-- With the uuid in front of a zero byte and a length field that fits, the record is whole. -/
theorem whole_iff {u : Uuid} {key : Bytes} {n : Nat} (hpre : u.text <+: key.drop uuidOffset)
    (hn : sessionKeyLength key = some (n : Int)) :
    Whole u key ↔ payloadOffset + n ≤ key.length ∧
      (key.drop (uuidOffset + u.text.length)).head? = some 0 := by
  -- `t` is the record behind the text of the uuid; its first byte decides about the field.
  rcases hpre with ⟨t, ht⟩
  have hdrop : key.drop (uuidOffset + u.text.length) = t := by
    rw [← List.drop_drop, ← ht, List.drop_left]
  have hlen : key.length - uuidOffset = u.text.length + t.length := by
    have h := congrArg List.length ht
    simp only [List.length_append, List.length_drop] at h
    omega
  have htake : (key.drop uuidOffset).take uuidLen =
      u.text ++ t.take (uuidLen - u.text.length) := by
    rw [← ht, List.take_append, List.take_of_length_le (Nat.le_of_lt u.length_lt)]
  have hroom := u.length_lt
  rw [hdrop]
  constructor
  · rintro ⟨hheader, ⟨m, hm, hle⟩, huuid⟩
    have hmn : (m : Int) = n := Option.some.inj (hm.symm.trans hn)
    refine ⟨by simp only [payloadOffset] at *; omega, ?_⟩
    rw [htake] at huuid
    cases t with
    | nil =>
        simp only [payloadOffset, uuidOffset, uuidLen, List.length_nil] at *
        omega
    | cons b t =>
        by_cases hb : b = 0
        · simp [hb]
        · -- Without a zero byte the text in the field is longer than the uuid.
          exfalso
          have hpos : 0 < uuidLen - u.text.length := by omega
          have hlength := congrArg List.length huuid
          rw [Bytes.cstring, List.takeWhile_append_of_pos (by
            intro x hx
            simpa using fun h : x = 0 => u.zero_notMem (h ▸ hx))] at hlength
          rw [show uuidLen - u.text.length = (uuidLen - u.text.length - 1) + 1 by omega] at hlength
          simp [hb] at hlength
  · rintro ⟨hlength, hhead⟩
    refine ⟨by omega, ⟨n, hn, by omega⟩, ?_⟩
    cases t with
    | nil => cases hhead
    | cons b t =>
        have hb : b = 0 := by simpa using hhead
        rw [htake, show uuidLen - u.text.length = (uuidLen - u.text.length - 1) + 1 by omega,
          List.take_succ_cons, hb]
        exact Bytes.cstring_append_zero u.zero_notMem

/-- Under a matching uuid the record is whole, it has a negative length field, or it overruns. -/
theorem overrun_or {u : Uuid} {key : Bytes} (hpre : u.text <+: key.drop uuidOffset)
    (h : ¬ Overrun u key) :
    (∃ m, sessionKeyLength key = some m ∧ m < 0) ∨
      ∃ n : Nat, sessionKeyLength key = some (n : Int) ∧ payloadOffset + n ≤ key.length ∧
        Whole u key := by
  -- What an overrun would be, negated piece by piece.
  have hall : uuidOffset ≤ key.length ∧ ∀ n : Nat, sessionKeyLength key = some (n : Int) →
      payloadOffset + n ≤ key.length ∧
        (key.drop (uuidOffset + u.text.length)).head? = some 0 := by
    by_contra hnot
    apply h
    refine ⟨hpre, ?_⟩
    by_cases hlen : key.length < uuidOffset
    · exact Or.inl hlen
    · right
      by_contra hnone
      apply hnot
      refine ⟨Nat.not_lt.1 hlen, fun n hn => ?_⟩
      by_contra hbad
      refine hnone ⟨n, hn, ?_⟩
      by_contra hneither
      rw [not_or, not_lt, not_not] at hneither
      exact hbad hneither
  cases hn : sessionKeyLength key with
  | none => exact absurd (sessionKeyLength_eq_none.1 hn) (Nat.not_lt.2 hall.1)
  | some m =>
      by_cases hneg : m < 0
      · exact Or.inl ⟨m, rfl, hneg⟩
      · right
        have hm : m = (m.toNat : Int) := by omega
        rw [hm] at hn ⊢
        exact ⟨m.toNat, rfl, (hall.2 _ hn).1, (whole_iff hpre hn).2 (hall.2 _ hn)⟩

/-- The reads for the session of an overrun record leave it, or find no whole record. -/
theorem session_of_overrun {u : Uuid} {key : Bytes} (h : Overrun u key) :
    session key = .error .outOfBounds ∨ ((∃ r, session key = .ok r) ∧ ¬ Whole u key) := by
  rcases h with ⟨hpre, hlen | ⟨n, hn, hbad⟩⟩
  · left
    simp [session, sessionKeyLength_eq_none.2 hlen]
  · have hnot : ¬ Whole u key := by
      rw [whole_iff hpre hn, not_and_or, Nat.not_le]
      exact hbad
    have hneg : ¬ (n : Int) < 0 := by omega
    -- The bytes may all be there, if it is only the uuid field that goes on.
    simp only [session, hn, if_neg hneg]
    split
    · exact Or.inr ⟨⟨_, rfl⟩, hnot⟩
    · exact Or.inl rfl

theorem session_of_negative {key : Bytes} {m : Int} (hm : sessionKeyLength key = some m)
    (hneg : m < 0) : session key = .error .lengthError := by
  simp [session, hm, hneg]

/-! ## The client's record -/

section Encode

variable (u : Uuid) (secret : Bytes) (nonce : UInt64) (rest : Vector UInt8 7)

theorem drop_uuidOffset_encode :
    (encode u secret nonce rest).drop uuidOffset = u.field ++ (secret ++ rest.toList) := by
  have h : uuidOffset = (Bytes.leBytes 8 nonce.toNat ++ Bytes.leBytes 4 secret.length).length := by
    simp [uuidOffset]
  rw [encode, ← List.append_assoc, h, List.drop_left]

theorem sessionKeyLength_encode (hsize : size + secret.length < 2 ^ 31) :
    sessionKeyLength (encode u secret nonce rest) = some (secret.length : Int) := by
  have hslice : Bytes.slice (encode u secret nonce rest) sessionKeyLengthOffset 4 =
      some (Bytes.leBytes 4 secret.length) :=
    Bytes.slice_append (by simp [sessionKeyLengthOffset]) (by simp)
  have hlt : secret.length < 2 ^ 31 := by omega
  rw [sessionKeyLength, hslice, Option.map_some, Bytes.leNat_leBytes,
    Nat.mod_eq_of_lt (by omega), Bytes.toInt32_of_lt hlt]

theorem session_encode (hsize : size + secret.length < 2 ^ 31) :
    session (encode u secret nonce rest) = .ok (secret, nonce) := by
  have hlen : payloadOffset + secret.length ≤ (encode u secret nonce rest).length := by
    simp [encode, payloadOffset, uuidLen]
    omega
  -- The payload begins behind the uuid field, whatever the text in it is.
  have hpayload : (encode u secret nonce rest).drop payloadOffset = secret ++ rest.toList := by
    rw [show payloadOffset = uuidOffset + uuidLen by rfl, ← List.drop_drop,
      drop_uuidOffset_encode, ← u.length_field, List.drop_left]
  have hnonce : ((encode u secret nonce rest).drop nonceOffset).take 8 =
      Bytes.leBytes 8 nonce.toNat := by
    rw [nonceOffset, List.drop_zero, encode,
      List.take_append_of_le_length (by simp), List.take_of_length_le (by simp)]
  have hwidth : nonce.toNat < 256 ^ 8 := nonce.toNat_lt
  rw [session_of_length (sessionKeyLength_encode u secret nonce rest hsize) hlen, hpayload, hnonce,
    List.take_left, Bytes.leNat_leBytes, Nat.mod_eq_of_lt hwidth, UInt64.ofNat_toNat]

theorem prefix_encode : u.text <+: (encode u secret nonce rest).drop uuidOffset := by
  rw [drop_uuidOffset_encode, Uuid.field, List.append_assoc]
  exact List.prefix_append _ _

theorem zero_mem_encode : 0 ∈ (encode u secret nonce rest).drop uuidOffset := by
  have hroom := u.length_lt
  rw [drop_uuidOffset_encode, Uuid.field]
  simp
  omega

end Encode

/-- A record that `build` gives is the encoding of the key that `GetKey` returned. -/
theorem build_ok {u : Uuid} {getKey : Int × Option Bytes} {memory : Bool} {nonce : UInt64}
    {rest : Vector UInt8 7} {key : Bytes} (h : build (some u) getKey memory nonce rest = .ok key) :
    ∃ secret, getKey.2 = some secret ∧ size + secret.length < 2 ^ 31 ∧
      key = encode u secret nonce rest := by
  unfold build at h
  dsimp only at h
  split at h
  · cases h
  · split at h
    · cases h
    · split at h
      · cases h
      · rename_i secret hsecret
        split at h
        · cases h
        · split at h
          · cases h
          · rename_i hsize
            cases h
            exact ⟨secret, hsecret, by omega, rfl⟩

end Credential

/-! ## The server -/

namespace GrpcServer

open Credential Errno

/-- The authenticator decrypts the request to the given payload. -/
def Env.decrypting (env : Env) (payload : Bytes) : Env :=
  { env with
    authenticator := true
    decrypt := fun _ => 0
    getResult := fun _ => (0, some payload) }

/-- The server of a peer with the given info. -/
def Server.ofInfo (srv : Server) (info : PeerInfo) : Server := { srv with info := some info }

/-- The session object that `ExchangeKey` stores. -/
def newSession (srv : Server) (env : Env) (secret : Bytes) (nonce : UInt64) : Gst :=
  (({ peerId := Bytes.decimal srv.nextPeerId.toNat, nonce := env.rawNonce } : Gst).setSecret
    secret).setNonce nonce

/-- What is asked of `ExchangeKey` for a request that decrypts to `payload`. -/
structure CredentialSafe (srv : Server) (env : Env) (info : PeerInfo) (request payload : Bytes) :
    Prop where
  /-- No byte outside the payload is read. -/
  bounds : exchangeKey (srv.ofInfo info) (env.decrypting payload) request ≠ .error .outOfBounds
  /-- A session comes only out of a whole record with the uuid of the server. -/
  whole : ∀ srv' id,
    exchangeKey (srv.ofInfo info) (env.decrypting payload) request =
      .ok (srv', ⟨.OK, .exchangeKey 0 id⟩) → Whole info.uuid payload
  /-- A record of the client gives the session that it asks for. -/
  built : ∀ getKey memory nonce rest secret, env.gstCreate = true → getKey.2 = some secret →
    build (some info.uuid) getKey memory nonce rest = .ok payload →
      ∃ gst, gst.secretKey = secret ∧ gst.nonce = nonce ∧
        exchangeKey (srv.ofInfo info) (env.decrypting payload) request =
          .ok ((srv.ofInfo info).addSession (Bytes.decimal srv.nextPeerId.toNat) gst,
            ⟨.OK, .exchangeKey 0 (Bytes.decimal srv.nextPeerId.toNat)⟩)

/-- The payloads that lead the reads astray: without a zero byte to end the debug print, ending
inside the compared uuid, or overrun by the length field or the uuid. -/
def Astray (env : Env) (u : Uuid) (payload : Bytes) : Prop :=
  payload ≠ [] ∧
    ((env.debug = true ∧ 0 ∉ payload.drop uuidOffset) ∨ Truncated u payload ∨
      (env.gstCreate = true ∧ Overrun u payload))

theorem exchangeKey_decrypting (srv : Server) (env : Env) (info : PeerInfo) (request : Bytes)
    {payload : Bytes} (h : payload ≠ []) :
    exchangeKey (srv.ofInfo info) (env.decrypting payload) request =
      openCredential (srv.ofInfo info) (env.decrypting payload) payload := by
  cases payload with
  | nil => exact absurd rfl h
  | cons b bs => simp [exchangeKey, Env.decrypting]

section Open

variable (srv : Server) (env : Env) {info : PeerInfo} {payload : Bytes}

theorem openCredential_dbgPrint (hlogs : env.debug = true ∧ 0 ∉ payload.drop uuidOffset) :
    openCredential (srv.ofInfo info) env payload = .error .outOfBounds := by
  cases hd : dbgPrint env.debug payload with
  | error e => simp [openCredential, hd, dbgPrint_error hd]
  | ok _ => exact absurd (dbgPrint_ok.1 hd hlogs.1) hlogs.2

theorem openCredential_truncated (h : Truncated info.uuid payload) :
    openCredential (srv.ofInfo info) env payload = .error .outOfBounds := by
  have huuid : uuidMatches info.uuid payload = .error .outOfBounds :=
    uuidMatches_error.2 ⟨rfl, h⟩
  cases hd : dbgPrint env.debug payload with
  | error e => simp [openCredential, hd, dbgPrint_error hd]
  | ok _ => simp [openCredential, hd, Server.ofInfo, huuid]

theorem openCredential_mismatch (hlogs : env.debug = true → 0 ∈ payload.drop uuidOffset)
    (huuid : uuidMatches info.uuid payload = .ok false) :
    openCredential (srv.ofInfo info) env payload = exchangeKeyFailed (srv.ofInfo info) (-EINVAL) := by
  simp [openCredential, dbgPrint_ok.2 hlogs, Server.ofInfo, huuid]

theorem openCredential_noGst (hlogs : env.debug = true → 0 ∈ payload.drop uuidOffset)
    (huuid : uuidMatches info.uuid payload = .ok true) (hgst : env.gstCreate = false) :
    openCredential (srv.ofInfo info) env payload = exchangeKeyFailed (srv.ofInfo info) (-EFAULT) := by
  simp [openCredential, dbgPrint_ok.2 hlogs, Server.ofInfo, huuid, hgst]

theorem openCredential_session (hlogs : env.debug = true → 0 ∈ payload.drop uuidOffset)
    (huuid : uuidMatches info.uuid payload = .ok true) (hgst : env.gstCreate = true) :
    openCredential (srv.ofInfo info) env payload =
      match session payload with
      | .error e => .error e
      | .ok (secret, nonce) =>
          exchangeKeyDone (srv.ofInfo info) (newSession srv env secret nonce) := by
  simp only [openCredential, dbgPrint_ok.2 hlogs, Server.ofInfo, huuid, hgst]
  rfl

end Open

/-- What was found in a payload out of which a session came. -/
theorem exchangeKey_done {srv srv' : Server} {env : Env} {request payload id : Bytes}
    (h : exchangeKey srv (env.decrypting payload) request =
      .ok (srv', ⟨.OK, .exchangeKey 0 id⟩)) :
    payload ≠ [] ∧ dbgPrint env.debug payload = .ok () ∧ id = Bytes.decimal srv.nextPeerId.toNat ∧
      ∃ info secret nonce, srv.info = some info ∧ uuidMatches info.uuid payload = .ok true ∧
        session payload = .ok (secret, nonce) ∧
          srv' = srv.addSession id (newSession srv env secret nonce) := by
  cases payload with
  | nil => cases h
  | cons b bs =>
      have hopen : openCredential srv (env.decrypting (b :: bs)) (b :: bs) =
          .ok (srv', ⟨.OK, .exchangeKey 0 id⟩) := by
        simpa [exchangeKey, Env.decrypting] using h
      refine ⟨by simp, ?_⟩
      unfold openCredential at hopen
      split at hopen
      · cases hopen
      · rename_i hdbg
        refine ⟨hdbg, ?_⟩
        split at hopen
        · cases hopen
        · rename_i info hinfo
          split at hopen
          · cases hopen
          · cases hopen
          · rename_i huuid
            split at hopen
            · cases hopen
            · split at hopen
              · cases hopen
              · rename_i secret nonce hsession
                cases hopen
                exact ⟨rfl, info, secret, nonce, hinfo, huuid, hsession, rfl⟩

theorem not_credentialSafe_of_astray {srv : Server} {env : Env} {info : PeerInfo}
    {request payload : Bytes} (h : Astray env info.uuid payload) :
    ¬ CredentialSafe srv env info request payload := by
  rcases h with ⟨hne, hastray⟩
  intro hsafe
  have hbounds := hsafe.bounds
  have hwhole := hsafe.whole
  rw [exchangeKey_decrypting srv env info request hne] at hbounds hwhole
  -- The debug print is the first read, so it decides before the other two kinds.
  by_cases hlogs : env.debug = true ∧ 0 ∉ payload.drop uuidOffset
  · exact hbounds (openCredential_dbgPrint _ _ hlogs)
  · have hzero : env.debug = true → 0 ∈ payload.drop uuidOffset := by
      intro hdebug
      by_contra hnot
      exact hlogs ⟨hdebug, hnot⟩
    rcases hastray with hdbg | htruncated | ⟨hgst, hoverrun⟩
    · exact hlogs hdbg
    · exact hbounds (openCredential_truncated _ _ htruncated)
    · have hopen := openCredential_session srv (env.decrypting payload) hzero
        (uuidMatches_true.2 hoverrun.1) hgst
      rcases session_of_overrun hoverrun with hsession | ⟨⟨⟨secret, nonce⟩, hsession⟩, hnot⟩
      · rw [hopen, hsession] at hbounds
        exact hbounds rfl
      · -- A session comes out of a record that is not whole.
        rw [hopen, hsession] at hwhole
        exact hnot (hwhole _ _ rfl)

/-- What comes out of a payload that does not lead the reads astray. -/
theorem openCredential_of_not_astray (srv : Server) {env : Env} {info : PeerInfo} {payload : Bytes}
    (hne : payload ≠ []) (h : ¬ Astray env info.uuid payload) :
    (∃ ret, ret < 0 ∧ openCredential (srv.ofInfo info) (env.decrypting payload) payload =
        exchangeKeyFailed (srv.ofInfo info) ret) ∨
      openCredential (srv.ofInfo info) (env.decrypting payload) payload = .error .lengthError ∨
      (Whole info.uuid payload ∧
        ∃ r, openCredential (srv.ofInfo info) (env.decrypting payload) payload = .ok r) := by
  have hzero : env.debug = true → 0 ∈ payload.drop uuidOffset := by
    intro hdebug
    by_contra hnot
    exact h ⟨hne, Or.inl ⟨hdebug, hnot⟩⟩
  cases huuid : uuidMatches info.uuid payload with
  | error e => exact absurd ⟨hne, Or.inr (Or.inl (uuidMatches_error.1 huuid).2)⟩ h
  | ok b =>
      cases b with
      | false =>
          -- Another uuid: refused before the length field is read.
          exact Or.inl ⟨_, by decide, openCredential_mismatch _ _ hzero huuid⟩
      | true =>
          cases hgst : env.gstCreate with
          | false => exact Or.inl ⟨_, by decide, openCredential_noGst _ _ hzero huuid hgst⟩
          | true =>
              right
              have hfits : ¬ Overrun info.uuid payload := fun hoverrun =>
                h ⟨hne, Or.inr (Or.inr ⟨hgst, hoverrun⟩)⟩
              have hopen := openCredential_session srv (env.decrypting payload) hzero
                huuid hgst
              rcases overrun_or (uuidMatches_true.1 huuid) hfits with ⟨m, hm, hneg⟩ | hwhole
              · left
                rw [hopen, session_of_negative hm hneg]
              · right
                rcases hwhole with ⟨n, hn, hlen, hwhole⟩
                rw [session_of_length hn hlen] at hopen
                exact ⟨hwhole, _, hopen⟩

/-- The record of the client gives its session, whatever the payload is asked for otherwise. -/
theorem exchangeKey_encode (srv : Server) (env : Env) (info : PeerInfo) (request secret : Bytes)
    (nonce : UInt64) (rest : Vector UInt8 7) (hgst : env.gstCreate = true)
    (hsize : Credential.size + secret.length < 2 ^ 31) :
    exchangeKey (srv.ofInfo info)
        (env.decrypting (encode info.uuid secret nonce rest)) request =
      exchangeKeyDone (srv.ofInfo info) (newSession srv env secret nonce) := by
  have hne : encode info.uuid secret nonce rest ≠ [] := by
    intro h
    have hmem := zero_mem_encode info.uuid secret nonce rest
    simp [h] at hmem
  rw [exchangeKey_decrypting srv env info request hne,
    openCredential_session srv (env.decrypting (encode info.uuid secret nonce rest))
      (fun _ => zero_mem_encode info.uuid secret nonce rest)
      (uuidMatches_true.2 (prefix_encode info.uuid secret nonce rest)) hgst,
    session_encode info.uuid secret nonce rest hsize]
  rfl

theorem credentialSafe_of_not_astray {srv : Server} {env : Env} {info : PeerInfo}
    {request payload : Bytes} (h : ¬ Astray env info.uuid payload) :
    CredentialSafe srv env info request payload := by
  have hbuilt : ∀ getKey memory nonce rest secret, env.gstCreate = true →
      getKey.2 = some secret → build (some info.uuid) getKey memory nonce rest = .ok payload →
      ∃ gst, gst.secretKey = secret ∧ gst.nonce = nonce ∧
        exchangeKey (srv.ofInfo info) (env.decrypting payload) request =
          .ok ((srv.ofInfo info).addSession (Bytes.decimal srv.nextPeerId.toNat) gst,
            ⟨.OK, .exchangeKey 0 (Bytes.decimal srv.nextPeerId.toNat)⟩) := by
    intro getKey memory nonce rest secret hgst hsecret hbuild
    rcases build_ok hbuild with ⟨secret', hsecret', hsize, rfl⟩
    cases Option.some.inj (hsecret.symm.trans hsecret')
    exact ⟨_, rfl, rfl, exchangeKey_encode srv env info request secret nonce rest hgst hsize⟩
  by_cases hne : payload = []
  · -- `GetResult` brought back a record without bytes.
    have hfailed : exchangeKey (srv.ofInfo info) (env.decrypting payload) request =
        exchangeKeyFailed (srv.ofInfo info) (-EFAULT) := by
      rw [hne]
      rfl
    refine ⟨?_, ?_, hbuilt⟩
    · rw [hfailed]
      exact fun h => by cases h
    · intro srv' id hok
      rw [hfailed] at hok
      cases hok
  · have hopen := exchangeKey_decrypting srv env info request hne
    rcases openCredential_of_not_astray srv hne h with ⟨ret, hret, heq⟩ | heq | ⟨hwhole, r, heq⟩
    · refine ⟨?_, ?_, hbuilt⟩
      · rw [hopen, heq]
        exact fun h => by cases h
      · intro srv' id hok
        rw [hopen, heq] at hok
        cases hok
        exact absurd hret (by decide)
    · -- `std::length_error` leaves the handler without an answer.
      refine ⟨?_, ?_, hbuilt⟩
      · rw [hopen, heq]
        exact fun h => by cases h
      · intro srv' id hok
        rw [hopen, heq] at hok
        cases hok
    · refine ⟨?_, fun _ _ _ => hwhole, hbuilt⟩
      rw [hopen, heq]
      exact fun h => by cases h

/-- `ExchangeKey` is safe for a payload exactly when the payload does not lead its reads astray. -/
theorem credentialSafe_iff (srv : Server) (env : Env) (info : PeerInfo) (request payload : Bytes) :
    CredentialSafe srv env info request payload ↔ ¬ Astray env info.uuid payload :=
  ⟨fun hsafe h => not_credentialSafe_of_astray h hsafe, credentialSafe_of_not_astray⟩

/-- A record that ends behind the uuid and promises a key of 100 bytes. -/
theorem overrun_payload :
    ¬ CredentialSafe World.empty.srv Env.plain
      ⟨⟨Bytes.ascii "ab", by decide, by decide⟩, [], 0, 0⟩ []
      (Bytes.leBytes 8 0 ++ Bytes.leBytes 4 100 ++ Bytes.ascii "ab") :=
  fun h => h.bounds rfl

/-- Any uuid that begins with the uuid of the server opens a session. -/
example :
    (exchangeKey
        (World.empty.srv.ofInfo ⟨⟨Bytes.ascii "ab", by decide, by decide⟩, [], 0, 0⟩)
        (Env.plain.decrypting (Bytes.leBytes 8 0 ++ Bytes.leBytes 4 0 ++ Bytes.ascii "abc" ++
          List.replicate 35 0)) []).map (fun r => r.2.response) =
      .ok (.exchangeKey 0 (Bytes.ascii "0")) := by
  decide

end GrpcServer
end Peer
end Beyond
