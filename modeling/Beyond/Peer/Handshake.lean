import Beyond.Peer.Activate
import Beyond.Peer.ExchangeKey
import Beyond.Peer.Isolation

/-!
# The key exchange of both ends

`GrpcClient::ExchangeKey` and `GrpcServer::ExchangeKey` put together: the request that the client
makes of its secret and its nonce goes to the server's handler, and the id that the handler answers
goes back.  Behind it both ends should have the session of one `Exchange`.  Whether they do depends on
which of them has an authenticator; where they do, the client's calls are accepted from then on.
-/

namespace Beyond
namespace Peer
namespace Handshake

open Activation Errno

/-! ## The exchange -/

/-- `ExchangeKey` as it arrives: with its method name in the metadata and nothing else. -/
def call (key : Bytes) (senv : GrpcServer.Env) : GrpcServer.Call :=
  ⟨.exchangeKey key, (GrpcClient.getMetadata [] 0 (Bytes.ascii "ExchangeKey")).1, senv⟩

/-- The reply that reaches the client.  A server that crashes sends none. -/
def reply (auth : Bool) (w : GrpcServer.World) (c : GrpcServer.Call) : Option KeyResponse :=
  match GrpcServer.handle (GrpcServer.admission auth w.srv c.metadata).1 c.env c.metadata c.rpc with
  | .ok (_, ⟨_, .exchangeKey status id⟩) => some ⟨status, id⟩
  | _ => none

/-- The outside of a client whose requests go to the server `w`. -/
def outside (auth : Bool) (w : GrpcServer.World) (senv : GrpcServer.Env) (env : Environment) :
    Environment :=
  { env with exchangeKey := fun key => reply auth w (call key senv) }

/-- The server's authenticator brings back a record that the client's authenticator has encrypted.
(The client encrypts with the public key of the pair whose private key the server has.) -/
def Opens (auth : Authenticator) (senv : GrpcServer.Env) : Prop :=
  ∀ u secret nonce rest key, 0 ≤ auth.encrypt (Credential.encode u secret nonce rest) →
    (auth.getResult (Credential.encode u secret nonce rest)).key = some key →
      senv.decrypt key = 0 ∧
        senv.getResult key = (0, some (Credential.encode u secret nonce rest))

/-- The server's authenticator has no result for the key: `Decrypt` or `GetResult` fails, or there is
nothing in what was queued. -/
def Unopened (senv : GrpcServer.Env) (key : Bytes) : Prop :=
  senv.decrypt key < 0 ∨ (senv.getResult key).1 < 0 ∨ (senv.getResult key).2.getD [] = []

/-- Both ends have the session of the exchange, under the id that the client was given. -/
def Agreed (e : Exchange) (grpc : Grpc) (srv : GrpcServer.Server) : Prop :=
  grpc.peerId = e.peerId ∧ grpc.gst = some e.link.client ∧
    GrpcServer.session srv e.peerId = some e.link.server

/-! ## The server's part -/

section Server

variable {srv srv' : GrpcServer.Server} {senv : GrpcServer.Env} {a : GrpcServer.Answer} {id : Bytes}

/-- A call by the name `ExchangeKey` passes `Process` as it is. -/
theorem admission_call (auth : Bool) (srv : GrpcServer.Server) (key : Bytes)
    (senv : GrpcServer.Env) :
    GrpcServer.admission auth srv (call key senv).metadata = (srv, .accepted) := by
  cases auth with
  | false => rfl
  | true =>
      have hexempted : GrpcServer.exempted (call key senv).metadata = true := rfl
      exact GrpcServer.process_of_exempted srv hexempted

/-- What the client's record opens, if anything. -/
theorem openCredential_encode {u : Uuid} {secret : Bytes} {nonce : UInt64} {rest : Vector UInt8 7}
    (hsize : Credential.size + secret.length < 2 ^ 31)
    (h : GrpcServer.openCredential srv senv (Credential.encode u secret nonce rest) =
      .ok (srv', ⟨.OK, .exchangeKey 0 id⟩)) :
    id = Bytes.decimal srv.nextPeerId.toNat ∧
      srv' = srv.addSession id (GrpcServer.newSession srv senv secret nonce) := by
  unfold GrpcServer.openCredential at h
  split at h
  · cases h
  · split at h
    · cases h
    · split at h
      · cases h
      · cases h
      · split at h
        · cases h
        · rw [Credential.session_encode u secret nonce rest hsize] at h
          cases h
          exact ⟨rfl, rfl⟩

/-- With an authenticator the session is that of the decrypted record. -/
theorem exchangeKey_secure {key : Bytes} {u : Uuid} {secret : Bytes} {nonce : UInt64}
    {rest : Vector UInt8 7} (hauth : senv.authenticator = true) (hdecrypt : senv.decrypt key = 0)
    (hresult : senv.getResult key = (0, some (Credential.encode u secret nonce rest)))
    (hsize : Credential.size + secret.length < 2 ^ 31)
    (h : GrpcServer.exchangeKey srv senv key = .ok (srv', ⟨.OK, .exchangeKey 0 id⟩)) :
    id = Bytes.decimal srv.nextPeerId.toNat ∧
      srv' = srv.addSession id (GrpcServer.newSession srv senv secret nonce) := by
  have hne : Credential.encode u secret nonce rest ≠ [] := by
    intro hnil
    have hmem := Credential.zero_mem_encode u secret nonce rest
    simp [hnil] at hmem
  unfold GrpcServer.exchangeKey at h
  rw [if_pos hauth, if_neg (by rw [hdecrypt]; decide), hresult, if_neg (by simp)] at h
  -- The record is not empty, so the handler goes on to read it.
  cases hcred : Credential.encode u secret nonce rest with
  | nil => exact absurd hcred hne
  | cons b bs =>
      rw [hcred] at h
      dsimp only at h
      rw [← hcred] at h
      exact openCredential_encode hsize h

/-- A key without a result is refused. -/
theorem exchangeKey_unopened (srv : GrpcServer.Server) {key : Bytes} (hauth : senv.authenticator = true)
    (hkey : Unopened senv key) :
    ∃ ret < 0, GrpcServer.exchangeKey srv senv key = GrpcServer.exchangeKeyFailed srv ret := by
  unfold GrpcServer.exchangeKey
  rw [if_pos hauth]
  split
  · exact ⟨_, by assumption, rfl⟩
  · rename_i hdecrypt
    split
    · exact ⟨_, by assumption, rfl⟩
    · rename_i hresult
      have hnil : (senv.getResult key).2.getD [] = [] :=
        (hkey.resolve_left hdecrypt).resolve_left hresult
      cases hrecord : (senv.getResult key).2 with
      | none => exact ⟨-EFAULT, by decide, rfl⟩
      | some record =>
          rw [hrecord, Option.getD_some] at hnil
          rw [hnil]
          exact ⟨-EFAULT, by decide, rfl⟩

/-- Without one the session has no secret, and the nonce that its memory happened to hold. -/
theorem exchangeKey_insecure {key : Bytes} (hauth : senv.authenticator = false)
    (h : GrpcServer.exchangeKey srv senv key = .ok (srv', ⟨.OK, .exchangeKey 0 id⟩)) :
    id = Bytes.decimal srv.nextPeerId.toNat ∧
      srv' = srv.addSession id (GrpcServer.newSession srv senv [] senv.rawNonce) := by
  unfold GrpcServer.exchangeKey at h
  rw [if_neg (by simp [hauth])] at h
  split at h
  · cases h
  · cases h
    exact ⟨rfl, rfl⟩

theorem session_addSession (srv : GrpcServer.Server) (id : Bytes) (gst : GrpcServer.Gst) :
    GrpcServer.session (srv.addSession id gst) id = some gst := by
  simp [GrpcServer.session, GrpcServer.Server.addSession]

end Server

/-! ## Both parts -/

section Both

variable {auth : Bool} {s : State} {env : Environment} {w w' : GrpcServer.World}
  {senv : GrpcServer.Env} {grpc : Grpc} {key secret : Bytes}

theorem keyRequest_outside :
    s.keyRequest (outside auth w senv env) = s.keyRequest env := rfl

/-- Behind an exchange that returned 0 the server has added a session, and the client has a `Gst`
under its id. -/
theorem exchanged (hkey : s.keyRequest env = .ok (key, secret))
    (hstep : GrpcServer.step auth w (call key senv) = some w')
    (hret : (s.exchangeKey (outside auth w senv env) grpc).2 = 0) :
    ∃ id, GrpcServer.exchangeKey w.srv senv key = .ok (w'.srv, ⟨.OK, .exchangeKey 0 id⟩) ∧
      w'.fault = none ∧ GrpcServer.Issued w' id ∧
      (s.exchangeKey (outside auth w senv env) grpc).1 =
        { grpc with
          peerId := id
          gst := some { peerId := id, nonce := env.nonce, secretKey := secret } } := by
  have hadm := admission_call auth w.srv key senv
  have hreply : (outside auth w senv env).exchangeKey key = reply auth w (call key senv) := rfl
  unfold State.exchangeKey at hret ⊢
  simp only [keyRequest_outside, hkey, hreply] at hret ⊢
  have hhandle : GrpcServer.handle (GrpcServer.admission auth w.srv (call key senv).metadata).1
      (call key senv).env (call key senv).metadata (call key senv).rpc =
      GrpcServer.exchangeKey w.srv senv key := by
    rw [hadm]
    rfl
  unfold reply at hret ⊢
  rw [hhandle] at hret ⊢
  unfold GrpcServer.step at hstep
  split at hstep
  · cases hstep
  · rename_i hfault
    rw [if_neg (by rw [hadm]; simp [GrpcServer.Status.accepted]), hhandle] at hstep
    cases hserver : GrpcServer.exchangeKey w.srv senv key with
    | error e =>
        rw [hserver] at hret
        have hcode : -EFAULT = 0 := hret
        exact absurd hcode (by decide)
    | ok r =>
        rcases r with ⟨srv, a⟩
        rw [hserver] at hret hstep
        have hexchanged := GrpcServer.exchangeKey_exchanged hserver
        cases hstep
        -- The client goes on for the status 0 only, and so there is a session.
        cases hexchanged with
        | failed hneg =>
            dsimp only at hret
            rw [if_neg (by omega)] at hret
            dsimp only at hret
            omega
        | done gst =>
            dsimp only at hret ⊢
            rw [if_pos rfl] at hret ⊢
            split at hret
            · have hcode : -EFAULT = 0 := hret
              exact absurd hcode (by decide)
            · rename_i hgst
              rw [if_neg hgst]
              refine ⟨_, rfl, not_not.1 hfault, ⟨w.srv.count, ?_⟩, rfl⟩
              have hissued := @GrpcServer.issuedBy_done w.srv key
                (Bytes.decimal w.srv.nextPeerId.toNat) gst
              simp [call, hissued]

/-- The key that an authenticator gives to the request is the encrypted record of the secret. -/
theorem keyRequest_secure {a : Authenticator} (ha : s.caAuthenticator.or s.authenticator = some a)
    (hkey : s.keyRequest env = .ok (key, secret)) :
    ∃ u, 0 ≤ a.encrypt (Credential.encode u secret env.nonce env.rest) ∧
      (a.getResult (Credential.encode u secret env.nonce env.rest)).key = some key ∧
      Credential.size + secret.length < 2 ^ 31 ∧ secret ≠ [] := by
  unfold State.keyRequest at hkey
  rw [ha] at hkey
  dsimp only at hkey
  split at hkey
  · cases hkey
  · rename_i credential hbuild
    cases hinfo : s.info with
    | none =>
        rw [hinfo] at hbuild
        cases hbuild
    | some info =>
        rw [hinfo, Option.map_some] at hbuild
        have hne : ∀ secret', (a.secretKey.ret, a.secretKey.key).2 = some secret' → secret' ≠ [] := by
          rintro secret' hsecret rfl
          unfold Credential.build at hbuild
          dsimp only at hsecret hbuild
          rw [hsecret] at hbuild
          split at hbuild
          · cases hbuild
          · split at hbuild
            · cases hbuild
            · simp at hbuild
        rcases Credential.build_ok hbuild with ⟨secret', hsecret, hsize, rfl⟩
        have hsecret' : a.secretKey.key = some secret' := hsecret
        split at hkey
        · cases hkey
        · rename_i hencrypt
          split at hkey
          · cases hkey
          · split at hkey
            · cases hkey
            · rename_i key' hresult
              rw [hsecret'] at hkey
              cases hkey
              exact ⟨info.uuid, not_lt.1 hencrypt, hresult, hsize, hne _ hsecret⟩

theorem keyRequest_insecure (hnone : s.caAuthenticator.or s.authenticator = none)
    (hkey : s.keyRequest env = .ok (key, secret)) : secret = [] := by
  unfold State.keyRequest at hkey
  rw [hnone] at hkey
  cases hkey
  rfl

/-- With authenticators on both ends, the session is the same on both. -/
theorem agreed_of_secure {a : Authenticator} (ha : s.caAuthenticator.or s.authenticator = some a)
    (hserver : senv.authenticator = true) (hopens : Opens a senv)
    (hkey : s.keyRequest env = .ok (key, secret))
    (hstep : GrpcServer.step auth w (call key senv) = some w')
    (hret : (s.exchangeKey (outside auth w senv env) grpc).2 = 0) :
    Agreed ⟨(s.exchangeKey (outside auth w senv env) grpc).1.peerId, env.nonce, secret⟩
      (s.exchangeKey (outside auth w senv env) grpc).1 w'.srv := by
  rcases exchanged hkey hstep hret with ⟨id, hhandle, -, -, hgrpc⟩
  rcases keyRequest_secure ha hkey with ⟨u, hencrypt, hresult, hsize, -⟩
  rcases hopens _ _ _ _ _ hencrypt hresult with ⟨hdecrypt, hgetResult⟩
  rcases exchangeKey_secure hserver hdecrypt hgetResult hsize hhandle with ⟨hid, hsrv⟩
  rw [hgrpc]
  refine ⟨rfl, rfl, ?_⟩
  rw [hsrv, session_addSession, hid]
  rfl

/-- Both ends agree on a session exactly when both have an authenticator, or neither has one and the
server's memory happened to hold the client's nonce. -/
theorem agreed_iff (hkey : s.keyRequest env = .ok (key, secret))
    (hstep : GrpcServer.step auth w (call key senv) = some w')
    (hret : (s.exchangeKey (outside auth w senv env) grpc).2 = 0)
    (hopens : ∀ a, s.caAuthenticator.or s.authenticator = some a → senv.authenticator = true →
      Opens a senv)
    (hplain : senv.authenticator = true → Unopened senv (Bytes.ascii "insecure")) :
    (∃ e, Agreed e (s.exchangeKey (outside auth w senv env) grpc).1 w'.srv) ↔
      (s.caAuthenticator.or s.authenticator).isSome = senv.authenticator ∧
        (senv.authenticator = false → senv.rawNonce = env.nonce) := by
  rcases exchanged hkey hstep hret with ⟨id, hhandle, -, -, hgrpc⟩
  cases ha : s.caAuthenticator.or s.authenticator with
  | some a =>
      cases hserver : senv.authenticator with
      | true =>
          have hagreed := agreed_of_secure ha hserver (hopens a ha hserver) hkey hstep hret
          exact ⟨fun _ => ⟨rfl, fun h => by cases h⟩, fun _ => ⟨_, hagreed⟩⟩
      | false =>
          -- The client has a secret, and the session of the server has none.
          rcases keyRequest_secure ha hkey with ⟨-, -, -, -, hsecret⟩
          rcases exchangeKey_insecure hserver hhandle with ⟨-, hsrv⟩
          refine ⟨?_, fun h => by cases h.1⟩
          rintro ⟨e, hid, hclient, hsession⟩
          rw [hgrpc] at hid hclient
          cases hid
          rw [hsrv, session_addSession] at hsession
          have hsecretc := congrArg GrpcClient.Gst.secretKey (Option.some.inj hclient)
          have hsecrets := congrArg GrpcServer.Gst.secretKey (Option.some.inj hsession)
          exact absurd (hsecretc.trans hsecrets.symm) hsecret
  | none =>
      cases hserver : senv.authenticator with
      | true =>
          have hinsecure : key = Bytes.ascii "insecure" := by
            unfold State.keyRequest at hkey
            rw [ha] at hkey
            cases hkey
            rfl
          rcases exchangeKey_unopened w.srv hserver (hplain hserver) with ⟨ret, hneg, hfailed⟩
          rw [hinsecure, hfailed] at hhandle
          simp only [GrpcServer.exchangeKeyFailed, Except.ok.injEq, Prod.mk.injEq,
            GrpcServer.Answer.mk.injEq, GrpcServer.Response.exchangeKey.injEq] at hhandle
          omega
      | false =>
          rcases exchangeKey_insecure hserver hhandle with ⟨hid, hsrv⟩
          have hsecret := keyRequest_insecure ha hkey
          constructor
          · rintro ⟨e, hpeer, hclient, hsession⟩
            rw [hgrpc] at hpeer hclient
            cases hpeer
            rw [hsrv, session_addSession] at hsession
            have hnoncec := congrArg GrpcClient.Gst.nonce (Option.some.inj hclient)
            have hnonces := congrArg GrpcServer.Gst.nonce (Option.some.inj hsession)
            exact ⟨rfl, fun _ => hnonces.trans hnoncec.symm⟩
          · rintro ⟨-, hnonce⟩
            refine ⟨⟨id, env.nonce, secret⟩, ?_⟩
            rw [hgrpc]
            refine ⟨rfl, rfl, ?_⟩
            rw [hsrv, session_addSession, hsecret, hid, hnonce rfl]
            rfl

end Both

/-! ## Two authenticators that scramble -/

def scramble (data : Bytes) : Bytes := data.map (· ^^^ 0x5a)

theorem scramble_scramble (data : Bytes) : scramble (scramble data) = data := by
  have hid : ((fun b : UInt8 => b ^^^ 0x5a) ∘ fun b => b ^^^ 0x5a) = id := by
    funext b
    rw [Function.comp_apply, UInt8.xor_assoc, UInt8.xor_self, UInt8.xor_zero, id]
  simp [scramble, hid]

/-- The client's authenticator, with a secret key of two bytes. -/
def scrambling : Authenticator where
  privateKey := ⟨-EINVAL, none, 0⟩
  certificate := ⟨-EINVAL, none, 0⟩
  secretKey := ⟨0, some ⟨0, Bytes.ascii "ke"⟩, 2⟩
  encrypt := fun _ => 0
  getResult := fun data => ⟨0, some ⟨1, scramble data⟩, data.length⟩

/-- The server's outside; what is too short for a record is accepted and has no result. -/
def unscrambling : GrpcServer.Env :=
  { GrpcServer.Env.plain with
    authenticator := true
    decrypt := fun _ => 0
    getResult := fun key =>
      (0, if key.length < Credential.payloadOffset then none else some (scramble key)) }

theorem opens_scrambling : Opens scrambling unscrambling := by
  intro u secret nonce rest key _ hkey
  have hlen : Credential.payloadOffset ≤ (Credential.encode u secret nonce rest).length := by
    simp [Credential.encode, Credential.payloadOffset, uuidLen]
    omega
  have hpos : ¬ ((Credential.encode u secret nonce rest).length : Int) ≤ 0 := by
    simp only [Credential.payloadOffset] at hlen
    omega
  have hscrambled : scramble (Credential.encode u secret nonce rest) = key := by
    unfold KeyReply.key scrambling at hkey
    rw [if_neg hpos] at hkey
    simpa [scramble, List.take_of_length_le] using hkey
  rw [← hscrambled]
  have hlong : ¬ (scramble (Credential.encode u secret nonce rest)).length <
      Credential.payloadOffset := by
    simpa [scramble] using hlen
  refine ⟨rfl, ?_⟩
  change (0, if _ < _ then none else some (scramble (scramble _))) = _
  rw [if_neg hlong, scramble_scramble]

def client : State :=
  { info := some ⟨Bytes.ascii "host", 3000, .twoBytes⟩, authenticator := some scrambling }

def clientEnv : Environment :=
  { nonce := 5, exchangeKey := fun _ => none, configure := fun _ _ => none }

/-- The request that the client makes. -/
def clientKey : Bytes :=
  scramble (Credential.encode .twoBytes (Bytes.ascii "ke") 5 (Vector.replicate 7 0))

def server : GrpcServer.World :=
  GrpcServer.World.start (some ⟨.twoBytes, [], 0, 0⟩) [] fun _ => { peerId := [], nonce := 0 }

theorem client_agreed :
    ∃ w', GrpcServer.step true server (call clientKey unscrambling) = some w' ∧
      ∃ e, Agreed e
        (client.exchangeKey (outside true server unscrambling clientEnv) ⟨[], none, [], none, none⟩).1
        w'.srv := by
  refine ⟨_, rfl, ?_⟩
  exact (agreed_iff rfl rfl rfl (fun a ha _ => by cases ha; exact opens_scrambling)
    (fun _ => .inr (.inr (by decide)))).2 ⟨rfl, fun h => by cases h⟩

/-! ## Behind the exchange -/

/-- A client that has exchanged its key over two authenticators, and then makes its calls in order,
is never refused, whatever the others send. -/
theorem client_accepted (info : Option GrpcServer.PeerInfo) (storagePath : Bytes)
    (heap : GrpcServer.GstRef → GrpcServer.Gst) (before calls : List GrpcServer.Call)
    (w w₁ w' : GrpcServer.World) (s : State) (env : Environment) (senv : GrpcServer.Env)
    (grpc : Grpc) (a : Authenticator) (key secret : Bytes)
    (requests : List (GrpcServer.Rpc × GrpcServer.Env))
    (hbefore : Run.exec (GrpcServer.step true) (GrpcServer.World.start info storagePath heap) before =
      some w)
    (ha : s.caAuthenticator.or s.authenticator = some a) (hserver : senv.authenticator = true)
    (hopens : Opens a senv) (hkey : s.keyRequest env = .ok (key, secret))
    (hstep : GrpcServer.step true w (call key senv) = some w₁)
    (hret : (s.exchangeKey (outside true w senv env) grpc).2 = 0)
    (hcalls : Run.exec (GrpcServer.step true) w₁ calls = some w')
    (hmine : calls.filter (GrpcServer.ofSession
        (s.exchangeKey (outside true w senv env) grpc).1.peerId) =
      (GrpcServer.clientCalls (s.exchangeKey (outside true w senv env) grpc).1.peerId env.nonce
        requests).1)
    (hrpc : ∀ r ∈ requests, r.1.isExchangeKey = false)
    (hcount : (before ++ call key senv :: calls).countP (·.rpc.isExchangeKey) ≤ 2 ^ 64) :
    ∀ o ∈ Run.observed (GrpcServer.step true) (GrpcServer.outcome true)
        (GrpcServer.ofSession (s.exchangeKey (outside true w senv env) grpc).1.peerId) w₁ calls,
      o.isRefused = false := by
  rcases agreed_of_secure ha hserver hopens hkey hstep hret with ⟨-, -, hsession⟩
  rcases exchanged hkey hstep hret with ⟨id, -, -, hissued, hgrpc⟩
  have hid : (s.exchangeKey (outside true w senv env) grpc).1.peerId = id := by rw [hgrpc]
  rw [hid] at hsession hmine ⊢
  -- To the server the exchange is one more call before those of the session.
  have hrun : Run.exec (GrpcServer.step true) (GrpcServer.World.start info storagePath heap)
      (before ++ [call key senv]) = some w₁ := by
    rw [Run.exec_append, hbefore, Option.bind_some]
    exact Run.exec_cons_some.2 ⟨w₁, hstep, rfl⟩
  exact (GrpcServer.in_order_accepted info storagePath heap _ calls w₁ w' id _ requests hrun hissued
    hsession hcalls hmine hrpc (by simpa using hcount)).1

/-- A call of the client between calls with an id that nobody has. -/
def clientCall : List GrpcServer.Call :=
  [⟨.stop, (GrpcClient.getMetadata (Bytes.ascii "9") 0 (Bytes.ascii "Stop")).1, .plain⟩,
    ⟨.stop, (GrpcClient.getMetadata (Bytes.ascii "0") 5 (Bytes.ascii "Stop")).1, .plain⟩,
    ⟨.stop, (GrpcClient.getMetadata (Bytes.ascii "9") 1 (Bytes.ascii "Stop")).1, .plain⟩]

theorem clientCall_accepted :
    ∃ w₁, GrpcServer.step true server (call clientKey unscrambling) = some w₁ ∧
      ∀ o ∈ Run.observed (GrpcServer.step true) (GrpcServer.outcome true)
        (GrpcServer.ofSession (Bytes.ascii "0")) w₁ clientCall, o.isRefused = false := by
  refine ⟨_, rfl, ?_⟩
  exact client_accepted (some ⟨.twoBytes, [], 0, 0⟩) [] (fun _ => { peerId := [], nonce := 0 }) []
    clientCall server _ _ client clientEnv unscrambling ⟨[], none, [], none, none⟩ scrambling
    clientKey (Bytes.ascii "ke") [(.stop, .plain)] rfl rfl rfl opens_scrambling rfl rfl rfl rfl rfl
    (by decide) (by decide)

end Handshake
end Peer
end Beyond
