import Beyond.Peer.Config
import Beyond.Peer.Credential

/-!
# One activation of a client peer

`Peer::Activate` with all that it meets: the keys of two authenticators, the channel, the reply to
`ExchangeKey` and the reply to the request for the reserved configuration.  The buffers of the
authenticators are kept in three pointers of the function, and released behind its last branch.
-/

namespace Beyond
namespace Peer
namespace Activation

open Errno

/-! ## Authenticators -/

/-- What an authenticator allocates for its caller. -/
structure Buffer where
  address : Nat
  data : Bytes
  deriving DecidableEq, Repr

/-- What `GetKey` and `GetResult` give back: a code, a pointer and a size. -/
structure KeyReply where
  ret : Int
  buffer : Option Buffer
  size : Int
  deriving DecidableEq, Repr

/-- The code with which `Activate` goes on. -/
def KeyReply.code (k : KeyReply) : Int :=
  if k.ret < 0 then k.ret else if k.buffer = none ∨ k.size ≤ 0 then -EINVAL else k.ret

/-- The key itself, if there is one. -/
def KeyReply.key (k : KeyReply) : Option Bytes :=
  if k.size ≤ 0 then none else k.buffer.map fun b => b.data.take k.size.toNat

/-- The answers of an `AuthenticatorInterface` during one activation; `encrypt` and `getResult` are
asked about a credential. -/
structure Authenticator where
  privateKey : KeyReply
  certificate : KeyReply
  secretKey : KeyReply
  encrypt : Bytes → Int
  getResult : Bytes → KeyReply

/-! ## The peer -/

/-- `beyond_peer_info`, as far as `Activate` uses it. -/
structure Info where
  host : Bytes
  port : Nat
  uuid : Uuid

/-- `Peer::GrpcClient`.  `accepted` is a ghost: the description that the server accepted last. -/
structure Grpc where
  address : Bytes
  rootCA : Option Bytes
  peerId : Bytes := []
  gst : Option GrpcClient.Gst := none
  accepted : Option ServerDescription := none

/-- A client `Peer`. -/
structure State where
  info : Option Info
  authenticator : Option Authenticator := none
  caAuthenticator : Option Authenticator := none
  reservedConfiguration : Option PluginConfig := none
  grpc : Option Grpc := none

/-- The reply to `ExchangeKey`. -/
structure KeyResponse where
  status : Int
  id : Bytes
  deriving DecidableEq, Repr

/-- What an activation meets besides the authenticators.  A request that fails has no reply. -/
structure Environment where
  /-- `GrpcClient::Create` succeeds. -/
  channel : Bool := true
  nonce : UInt64 := 0
  /-- `malloc` succeeds for the credential, and leaves `rest` behind the key. -/
  memory : Bool := true
  rest : Vector UInt8 7 := Vector.replicate 7 0
  exchangeKey : Bytes → Option KeyResponse
  /-- `Gst::Create` succeeds. -/
  gst : Bool := true
  configure : Bytes → GrpcServer.Configuration → Option Int

/-- `privateKey`, `certificate` and `rootCert` of `Activate`.  `obtained` is a ghost: the buffers
that the authenticators handed out. -/
structure Pointers where
  privateKey : Option Buffer := none
  certificate : Option Buffer := none
  rootCert : Option Buffer := none
  obtained : List Buffer := []

/-- The arguments of the three calls of `free`; a null pointer is not a buffer. -/
def Pointers.released (p : Pointers) : List Buffer :=
  p.privateKey.toList ++ p.certificate.toList ++ p.rootCert.toList

/-- What a call of `Activate` comes to. -/
structure Outcome where
  state : State
  ret : Int
  obtained : List Buffer
  freed : List Buffer

namespace State

/-! ## The keys -/

/-- The keys of the peer's own authenticator. -/
def getCertificate (s : State) : Pointers × Int :=
  match s.authenticator with
  | none => ({}, 0)
  | some auth =>
      let p : Pointers :=
        { privateKey := auth.privateKey.buffer, obtained := auth.privateKey.buffer.toList }
      if auth.privateKey.code < 0 then (p, auth.privateKey.code)
      else
        ({ p with
            certificate := auth.certificate.buffer
            obtained := p.obtained ++ auth.certificate.buffer.toList },
          auth.certificate.code)

/-- The certificate of the CA's authenticator; the code of its failure is not kept. -/
def getRootCert (s : State) (p : Pointers) : Pointers × Int :=
  match s.caAuthenticator with
  | none => (p, 0)
  | some ca =>
      ({ p with
          rootCert := ca.certificate.buffer
          obtained := p.obtained ++ ca.certificate.buffer.toList },
        if ca.certificate.code < 0 then -EINVAL else ca.certificate.code)

/-- Both; a negative code ends the activation. -/
def getKeys (s : State) : Pointers × Int :=
  match s.getCertificate with
  | (p, ret) => if ret < 0 then (p, ret) else s.getRootCert p

/-! ## `GrpcClient` -/

/-- The first part of `GrpcClient::ExchangeKey`: the key of the request, and the secret. -/
def keyRequest (s : State) (env : Environment) : Except Int (Bytes × Bytes) :=
  match s.caAuthenticator.or s.authenticator with
  | none => .ok (Bytes.ascii "insecure", [])
  | some auth =>
      match Credential.build (s.info.map Info.uuid) (auth.secretKey.ret, auth.secretKey.key)
          env.memory env.nonce env.rest with
      | .error ret => .error ret
      | .ok credential =>
          if auth.encrypt credential < 0 then .error (auth.encrypt credential)
          else if (auth.getResult credential).ret < 0 then .error (auth.getResult credential).ret
          else
            match (auth.getResult credential).key with
            | none => .error (-EFAULT)
            | some key => .ok (key, auth.secretKey.key.getD [])

/-- `GrpcClient::ExchangeKey`.  There is a `Gst` for the status 0 only. -/
def exchangeKey (s : State) (env : Environment) (grpc : Grpc) : Grpc × Int :=
  match s.keyRequest env with
  | .error ret => (grpc, ret)
  | .ok (key, secret) =>
      match env.exchangeKey key with
      | none => (grpc, -EFAULT)
      | some response =>
          if response.status = 0 then
            if env.gst = false then ({ grpc with peerId := response.id }, -EFAULT)
            else
              ({ grpc with
                  peerId := response.id
                  gst := some { peerId := response.id, nonce := env.nonce, secretKey := secret } },
                response.status)
          else (grpc, response.status)

end State

/-- `GrpcClient::Configure`. -/
def Grpc.configure (grpc : Grpc) (env : Environment) (server : ServerDescription) : Grpc × Int :=
  match env.configure grpc.peerId (GrpcClient.configureRequest server) with
  | none => (grpc, -EFAULT)
  | some status =>
      ({ grpc with accepted := if status < 0 then grpc.accepted else some server }, status)

namespace State

/-! ## `Activate` -/

/-- The certificate for the channel: without an authenticator of the CA it is the peer's own. -/
def cert (s : State) (p : Pointers) : Option Bytes :=
  match s.caAuthenticator with
  | none => p.certificate.map fun b => Bytes.cstring b.data
  | some _ => p.rootCert.map fun b => Bytes.cstring b.data

/-- The part behind a successful `ExchangeKey`, which left `grpc` and the code `ret`. -/
def configureReserved (s : State) (env : Environment) (grpc : Grpc) (ret : Int) :
    Except Fault (State × Int) :=
  match s.reservedConfiguration with
  | none => .ok ({ s with grpc := some grpc }, ret)
  | some config =>
      match grpc.configure env config.server with
      | (grpc, ret) =>
          if ret < 0 then .ok ({ s with grpc := none }, ret)
          else
            match grpc.gst with
            | none => .error .nullGst
            | some gst =>
                .ok ({ s with
                        grpc := some { grpc with gst := some (gst.configure config.client) }
                        reservedConfiguration := none }, 0)

/-- The branch for a client. -/
def connect (s : State) (env : Environment) (info : Info) (p : Pointers) :
    Except Fault (State × Int) :=
  if s.grpc.isSome then .ok (s, -EALREADY)
  else if env.channel = false then .ok ({ s with grpc := none }, -EFAULT)
  else if (s.authenticator.isSome ∨ s.caAuthenticator.isSome) ∧ info.uuid.text = [] then
    .ok ({ s with grpc := none }, -EINVAL)
  else
    let address := info.host ++ Bytes.ascii ":" ++ Bytes.decimal info.port
    match s.exchangeKey env { address := address, rootCA := s.cert p } with
    | (grpc, ret) =>
        if ret < 0 then .ok ({ s with grpc := none }, ret)
        else s.configureReserved env grpc ret

/-- `Peer::Activate`. -/
def activate (s : State) (env : Environment) : Except Fault Outcome :=
  match s.info with
  | none => .ok ⟨s, -EINVAL, [], []⟩
  | some info =>
      match s.getKeys with
      | (p, ret) =>
          if ret < 0 then .ok ⟨s, ret, p.obtained, p.released⟩
          else
            match s.connect env info p with
            | .error e => .error e
            | .ok (s, ret) => .ok ⟨s, ret, p.obtained, p.released⟩

/-! ## All or nothing -/

/-- The reply to `ExchangeKey`. -/
def reply (s : State) (env : Environment) : Option KeyResponse :=
  match s.keyRequest env with
  | .error _ => none
  | .ok (key, _) => env.exchangeKey key

/-- The activation comes as far as `ExchangeKey`. -/
def Reaches (s : State) (env : Environment) : Prop :=
  ∃ info, s.info = some info ∧ 0 ≤ s.getKeys.2 ∧ s.grpc = none ∧ env.channel = true ∧
    (s.authenticator.isSome ∨ s.caAuthenticator.isSome → info.uuid.text ≠ [])

/-- There is a reserved configuration, and its request fails or is answered with an error.  A client
that was given no id sends none. -/
def ReservationRefused (s : State) (env : Environment) : Prop :=
  ∃ config, s.reservedConfiguration = some config ∧
    ∀ status, env.configure [] (GrpcClient.configureRequest config.server) = some status → status < 0

end State

/-- A fresh `Gst` to which a configuration was given, if there is one. -/
def configured (e : Exchange) : Option PluginConfig → GrpcClient.Gst
  | none => e.link.client
  | some config => e.link.client.configure config.client

/-- Behind a call that gives back `ret` the peer is active, with a `Gst` and with the reserved
configuration accepted on both ends, or else nothing has changed. -/
structure Settled (before after : State) (ret : Int) : Prop where
  active : 0 ≤ ret → ∃ grpc e, after.grpc = some grpc ∧
    grpc.gst = some (configured e before.reservedConfiguration) ∧
    ∀ config, before.reservedConfiguration = some config → grpc.accepted = some config.server
  undone : ret < 0 →
    after.grpc = before.grpc ∧ after.reservedConfiguration = before.reservedConfiguration

/-- Each buffer is also released as often as it was obtained. -/
structure Outcome.Atomic (s : State) (o : Outcome) : Prop extends Settled s o.state o.ret where
  freed : o.freed.Perm o.obtained

/-- A call that fails and leaves a client peer without a connection. -/
theorem Settled.failed {s s' : State} {ret : Int} (hret : ret < 0) (hgrpc : s'.grpc = s.grpc)
    (hreserved : s'.reservedConfiguration = s.reservedConfiguration) : Settled s s' ret :=
  ⟨fun h => absurd hret (not_lt.2 h), fun _ => ⟨hgrpc, hreserved⟩⟩

namespace State

variable {s : State} {env : Environment}

/-! ## Buffers -/

theorem released_getCertificate : s.getCertificate.1.released = s.getCertificate.1.obtained ∧
    s.getCertificate.1.rootCert = none := by
  unfold getCertificate
  cases s.authenticator with
  | none => exact ⟨rfl, rfl⟩
  | some auth =>
      dsimp only
      split <;> simp [Pointers.released]

/-- The pointers hold just what the authenticators handed out. -/
theorem released_getKeys : s.getKeys.1.released = s.getKeys.1.obtained := by
  rcases released_getCertificate (s := s) with ⟨hreleased, hroot⟩
  unfold getKeys getRootCert
  dsimp only
  split
  · exact hreleased
  · cases s.caAuthenticator with
    | none => exact hreleased
    | some ca =>
        rw [← hreleased]
        simp [Pointers.released, hroot]

/-! ## The key exchange -/

theorem build_neg {info : Option Uuid} {getKey : Int × Option Bytes} {memory : Bool}
    {nonce : UInt64} {rest : Vector UInt8 7} {ret : Int}
    (h : Credential.build info getKey memory nonce rest = .error ret) : ret < 0 := by
  unfold Credential.build at h
  repeat' split at h
  all_goals first
    | cases h; first | decide | assumption
    | cases h

theorem keyRequest_neg {ret : Int} (h : s.keyRequest env = .error ret) : ret < 0 := by
  unfold keyRequest at h
  split at h
  · cases h
  · split at h
    · rename_i hbuild
      cases h
      exact build_neg hbuild
    · split at h
      · rename_i hencrypt
        cases h
        exact hencrypt
      · split at h
        · rename_i hresult
          cases h
          exact hresult
        · split at h <;> cases h
          decide

/-- What `ExchangeKey` can leave: an error, a `Gst`, or a client as it was with the positive status
that the server answered. -/
theorem exchangeKey_cases (s : State) (env : Environment) (grpc : Grpc) :
    (∀ response, s.reply env = some response → response.status ≤ 0) ∧
        ((s.exchangeKey env grpc).2 < 0 ∨
          (s.exchangeKey env grpc).2 = 0 ∧
            ∃ e : Exchange, (s.exchangeKey env grpc).1.gst = some e.link.client) ∨
      (∃ response, s.reply env = some response ∧ 0 < response.status) ∧
        0 < (s.exchangeKey env grpc).2 ∧ (s.exchangeKey env grpc).1 = grpc := by
  unfold exchangeKey reply
  cases hkey : s.keyRequest env with
  | error ret => exact .inl ⟨by simp, .inl (keyRequest_neg hkey)⟩
  | ok request =>
      dsimp only
      cases env.exchangeKey request.1 with
      | none => exact .inl ⟨by simp, .inl (by decide : -EFAULT < 0)⟩
      | some response =>
          dsimp only
          rcases lt_trichotomy response.status 0 with hneg | hzero | hpos
          · rw [if_neg hneg.ne]
            exact .inl ⟨by simpa using hneg.le, .inl hneg⟩
          · rw [if_pos hzero]
            refine .inl ⟨by simp [hzero], ?_⟩
            split
            · exact .inl (by decide : -EFAULT < 0)
            · exact .inr ⟨hzero, ⟨response.id, env.nonce, request.2⟩, rfl⟩
          · rw [if_neg hpos.ne']
            exact .inr ⟨⟨response, rfl, hpos⟩, hpos, rfl⟩

/-! ## The reserved configuration -/

theorem configure_cases (env : Environment) (grpc : Grpc) (server : ServerDescription) :
    (grpc.configure env server).1.gst = grpc.gst ∧
      ((∀ status, env.configure grpc.peerId (GrpcClient.configureRequest server) = some status →
          status < 0) ∧ (grpc.configure env server).2 < 0 ∨
        (∃ status, env.configure grpc.peerId (GrpcClient.configureRequest server) = some status ∧
          0 ≤ status) ∧ 0 ≤ (grpc.configure env server).2 ∧
          (grpc.configure env server).1.accepted = some server) := by
  unfold Grpc.configure
  cases env.configure grpc.peerId (GrpcClient.configureRequest server) with
  | none => exact ⟨rfl, .inl ⟨by simp, (by decide : -EFAULT < 0)⟩⟩
  | some status =>
      refine ⟨rfl, ?_⟩
      rcases lt_or_ge status 0 with hneg | hnonneg
      · exact .inl ⟨by simpa using hneg, hneg⟩
      · exact .inr ⟨⟨status, rfl, hnonneg⟩, hnonneg, by simp [not_lt.2 hnonneg]⟩

/-- A client with a `Gst` is configured on both ends, or given up. -/
theorem configureReserved_settled (hgrpc : s.grpc = none) {grpc : Grpc} {e : Exchange}
    (hgst : grpc.gst = some e.link.client) :
    ∃ x, s.configureReserved env grpc 0 = .ok x ∧ Settled s x.1 x.2 := by
  unfold configureReserved
  cases hreserved : s.reservedConfiguration with
  | none =>
      refine ⟨_, rfl, ⟨fun _ => ⟨grpc, e, rfl, ?_, by simp [hreserved]⟩, ?_⟩⟩
      · rw [hgst, hreserved]
        rfl
      · exact fun h => absurd h (lt_irrefl 0)
  | some config =>
      rcases configure_cases env grpc config.server with
        ⟨hsame, ⟨-, hneg⟩ | ⟨-, hnonneg, haccepted⟩⟩
      · dsimp only
        rw [if_pos hneg]
        exact ⟨_, rfl, .failed hneg hgrpc.symm hreserved.symm⟩
      · dsimp only
        rw [if_neg (not_lt.2 hnonneg), hsame, hgst]
        refine ⟨_, rfl, ⟨fun _ => ⟨_, e, rfl, ?_, ?_⟩, fun h => absurd h (lt_irrefl 0)⟩⟩
        · rw [hreserved]
          rfl
        · intro config' h
          cases hreserved.symm.trans h
          exact haccepted

/-- A client that has no `Gst` is given up only with the reserved configuration. -/
theorem configureReserved_settled_iff (hgrpc : s.grpc = none) {grpc : Grpc} {ret : Int}
    (hgst : grpc.gst = none) (hpeerId : grpc.peerId = []) (hret : 0 < ret) :
    (∃ x, s.configureReserved env grpc ret = .ok x ∧ Settled s x.1 x.2) ↔
      s.ReservationRefused env := by
  unfold configureReserved ReservationRefused
  cases hreserved : s.reservedConfiguration with
  | none =>
      dsimp only
      constructor
      · rintro ⟨x, h, hsettled⟩
        cases h
        rcases hsettled.active hret.le with ⟨g, e, hg, hsome, -⟩
        cases hg
        rw [hgst] at hsome
        cases hsome
      · rintro ⟨config, h, -⟩
        cases h
  | some config =>
      rcases configure_cases env grpc config.server with
        ⟨hsame, ⟨hrefused, hneg⟩ | ⟨⟨status, hstatus, hle⟩, hnonneg, -⟩⟩
      · dsimp only
        rw [if_pos hneg]
        refine ⟨fun _ => ⟨config, rfl, ?_⟩, fun _ => ⟨_, rfl, ?_⟩⟩
        · rw [← hpeerId]
          exact hrefused
        · exact .failed hneg hgrpc.symm hreserved.symm
      · dsimp only
        rw [if_neg (not_lt.2 hnonneg), hsame, hgst]
        constructor
        · rintro ⟨x, h, -⟩
          cases h
        · rintro ⟨config', h, hrefused⟩
          cases h
          rw [hpeerId] at hstatus
          exact absurd (hrefused status hstatus) (not_lt.2 hle)

/-! ## Main result -/

/-- From `ExchangeKey` on. -/
theorem exchanged_settled_iff (hgrpc : s.grpc = none) {grpc : Grpc} (hgst : grpc.gst = none)
    (hpeerId : grpc.peerId = []) :
    (∃ x, (if (s.exchangeKey env grpc).2 < 0 then
          .ok ({ s with grpc := none }, (s.exchangeKey env grpc).2)
        else s.configureReserved env (s.exchangeKey env grpc).1 (s.exchangeKey env grpc).2) =
          Except.ok x ∧ Settled s x.1 x.2) ↔
      ∀ response, s.reply env = some response → 0 < response.status → s.ReservationRefused env := by
  rcases exchangeKey_cases s env grpc with
    ⟨hle, hneg | ⟨hzero, e, hsome⟩⟩ | ⟨⟨response, hresponse, hpos⟩, hret, hsame⟩
  · rw [if_pos hneg]
    refine ⟨fun _ response h hpos => absurd hpos (not_lt.2 (hle response h)), fun _ => ?_⟩
    exact ⟨_, rfl, .failed hneg hgrpc.symm rfl⟩
  · rw [hzero, if_neg (lt_irrefl 0)]
    refine ⟨fun _ response h hpos => absurd hpos (not_lt.2 (hle response h)), fun _ => ?_⟩
    exact configureReserved_settled hgrpc hsome
  · rw [if_neg (not_lt.2 hret.le), hsame, configureReserved_settled_iff hgrpc hgst hpeerId hret]
    exact ⟨fun h _ _ _ => h, fun h => h response hresponse hpos⟩

theorem connect_settled_iff {info : Info} (hinfo : s.info = some info) (hkeys : 0 ≤ s.getKeys.2)
    (p : Pointers) :
    (∃ x, s.connect env info p = .ok x ∧ Settled s x.1 x.2) ↔
      (s.Reaches env → ∀ response, s.reply env = some response → 0 < response.status →
        s.ReservationRefused env) := by
  -- Before `ExchangeKey` every branch gives up.
  have hearly : ∀ (t : State) (ret : Int), ret < 0 → t.grpc = s.grpc →
      t.reservedConfiguration = s.reservedConfiguration → ¬ s.Reaches env →
      ((∃ x, Except.ok (ε := Fault) (t, ret) = .ok x ∧ Settled s x.1 x.2) ↔
        (s.Reaches env → ∀ response, s.reply env = some response → 0 < response.status →
          s.ReservationRefused env)) := by
    intro t ret hret hgrpc hreserved hreaches
    exact ⟨fun _ h => absurd h hreaches, fun _ => ⟨_, rfl, .failed hret hgrpc hreserved⟩⟩
  unfold connect
  split
  · rename_i hlive
    refine hearly s _ (by decide) rfl rfl ?_
    rintro ⟨-, -, -, hnone, -⟩
    simp [hnone] at hlive
  · rename_i hlive
    have hgrpc : s.grpc = none := by simpa using hlive
    split
    · rename_i hchannel
      refine hearly _ _ (by decide) hgrpc.symm rfl ?_
      rintro ⟨-, -, -, -, htrue, -⟩
      exact Bool.false_ne_true (hchannel.symm.trans htrue)
    · rename_i hchannel
      split
      · rename_i huuid
        refine hearly _ _ (by decide) hgrpc.symm rfl ?_
        rintro ⟨info', hinfo', -, -, -, hne⟩
        cases hinfo.symm.trans hinfo'
        exact hne huuid.1 huuid.2
      · rename_i huuid
        have hreaches : s.Reaches env := by
          refine ⟨info, hinfo, hkeys, hgrpc, by simpa using hchannel, fun h hnil => ?_⟩
          exact huuid ⟨h, hnil⟩
        refine (exchanged_settled_iff hgrpc rfl rfl).trans ?_
        exact ⟨fun h _ => h, fun h => h hreaches⟩

/-- An activation is atomic if and only if the server does not answer `ExchangeKey` with a positive
status, unless it refuses the reserved configuration behind that. -/
theorem activate_atomic_iff (s : State) (env : Environment) :
    (∃ o, s.activate env = .ok o ∧ o.Atomic s) ↔
      (s.Reaches env → ∀ response, s.reply env = some response → 0 < response.status →
        s.ReservationRefused env) := by
  unfold activate
  cases hinfo : s.info with
  | none =>
      refine ⟨fun _ ⟨info, h, _⟩ => by simp [hinfo] at h, fun _ => ⟨_, rfl, ?_⟩⟩
      exact ⟨.failed (by decide : -EINVAL < 0) rfl rfl, List.Perm.refl _⟩
  | some info =>
      have hfreed : s.getKeys.1.released.Perm s.getKeys.1.obtained := by rw [released_getKeys]
      dsimp only
      split
      · rename_i hneg
        constructor
        · rintro - ⟨-, -, hkeys, -⟩
          exact absurd hneg (not_lt.2 hkeys)
        · intro _
          exact ⟨_, rfl, .failed hneg rfl rfl, hfreed⟩
      · rename_i hkeys
        refine Iff.trans ?_ (connect_settled_iff hinfo (not_lt.1 hkeys) s.getKeys.1)
        cases s.connect env info s.getKeys.1 with
        | error e => simp
        | ok x =>
            constructor
            · rintro ⟨o, h, hatomic⟩
              cases h
              exact ⟨x, rfl, hatomic.toSettled⟩
            · rintro ⟨x', h, hsettled⟩
              cases h
              exact ⟨_, rfl, hsettled, hfreed⟩

/-! ## The peer of the configuration calls -/

/-- Only a peer that was not active gets so far, and then nothing stays reserved. -/
theorem connect_succeeds {info : Info} {p : Pointers} {x : State × Int}
    (h : s.connect env info p = .ok x) (hret : 0 ≤ x.2) :
    s.grpc = none ∧ x.1.reservedConfiguration = none := by
  have hfailed : ∀ (t : State) (ret : Int), Except.ok (ε := Fault) (t, ret) = .ok x →
      ret < 0 → False := by
    intro t ret heq hneg
    cases heq
    exact absurd hneg (not_lt.2 hret)
  unfold connect at h
  split at h
  · exact absurd (by decide) (hfailed _ _ h)
  · rename_i hlive
    refine ⟨by simpa using hlive, ?_⟩
    split at h
    · exact absurd (by decide) (hfailed _ _ h)
    · split at h
      · exact absurd (by decide) (hfailed _ _ h)
      · dsimp only at h
        split at h
        · rename_i hneg
          exact absurd hneg (hfailed _ _ h)
        · unfold configureReserved at h
          cases hreserved : s.reservedConfiguration with
          | none =>
              rw [hreserved] at h
              cases h
              rfl
          | some config =>
              rw [hreserved] at h
              dsimp only at h
              split at h
              · rename_i hneg
                exact absurd hneg (hfailed _ _ h)
              · split at h <;> cases h
                rfl

theorem activate_succeeds {o : Outcome} (h : s.activate env = .ok o) (hret : 0 ≤ o.ret) :
    s.grpc = none ∧ o.state.reservedConfiguration = none := by
  unfold activate at h
  split at h
  · cases h
    exact absurd hret (by decide : ¬ (0 : Int) ≤ -EINVAL)
  · dsimp only at h
    split at h
    · rename_i hneg
      cases h
      exact absurd hneg (not_lt.2 hret)
    · split at h
      · cases h
      · rename_i hconnect
        cases h
        exact connect_succeeds hconnect hret

/-- `p` is the peer as `Configure` sees it. -/
structure Matches (p : ClientPeer) (s : State) : Prop where
  reserved : p.reservedConfiguration = s.reservedConfiguration
  live : p.grpc = none ↔ s.grpc = none
  client : p.grpc.map Link.client = s.grpc.bind Grpc.gst

/-- An atomic activation is one of `ClientPeer.activate`, for some outcome of its two requests. -/
theorem activate_matches {p : ClientPeer} (hmatches : Matches p s) {o : Outcome}
    (h : s.activate env = .ok o) (hatomic : o.Atomic s) :
    ∃ exchanged rpc, Matches (p.activate exchanged rpc).1 o.state := by
  rcases lt_or_ge o.ret 0 with hneg | hret
  · -- A key exchange that fails leaves the peer as it is.
    have hsame : (p.activate (.error o.ret) .lost).1 = p := by
      unfold ClientPeer.activate
      cases p.grpc <;> rfl
    rcases hatomic.undone hneg with ⟨hgrpc, hreserved⟩
    refine ⟨.error o.ret, .lost, ?_⟩
    rw [hsame]
    exact ⟨hmatches.reserved.trans hreserved.symm, by rw [hgrpc]; exact hmatches.live,
      by rw [hgrpc]; exact hmatches.client⟩
  · rcases activate_succeeds h hret with ⟨hinactive, hnone⟩
    rcases hatomic.active hret with ⟨grpc, e, hgrpc, hgst, -⟩
    have hp := ClientPeer.activate_inactive (hmatches.live.2 hinactive) e
    refine ⟨.ok e, .answered, ?_⟩
    rw [hp]
    refine ⟨hnone.symm, by simp [hgrpc], ?_⟩
    rw [hgrpc, ← hmatches.reserved] at *
    rw [Option.map_some, Option.bind_some, hgst]
    cases p.reservedConfiguration <;> rfl

/-! ## A positive status -/

/-- A server that answers `ExchangeKey` with the status 1. -/
def answeredOne : Environment where
  exchangeKey := fun _ => some ⟨1, []⟩
  configure := fun _ _ => some 0

/-- A peer without authenticators that is not active. -/
def fresh : State := { info := some ⟨Bytes.ascii "host", 80, Uuid.empty⟩ }

/-- It is active then, but has no `Gst`. -/
theorem positive_status_not_atomic :
    ¬ ∃ o, fresh.activate answeredOne = .ok o ∧ o.Atomic fresh := by
  rintro ⟨o, h, hatomic⟩
  cases h
  rcases hatomic.active (by decide : (0 : Int) ≤ 1) with ⟨grpc, e, hgrpc, hgst, -⟩
  cases hgrpc
  cases hgst

end State
end Activation
end Peer
end Beyond
