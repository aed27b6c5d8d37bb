import Mathlib.Data.List.AList
import Mathlib.Logic.Function.Basic
import Beyond.Peer.Credential
import Beyond.Peer.ServerGst

/-!
# The RPC handlers of the peer server

`Peer::GrpcServer` keeps its sessions in `clientMap`, a map from the id that `ExchangeKey` gave out
to a pointer to the session.  The pointer is modelled as one: `none` is the null pointer and `some`
is the place of the object in the heap `gst`.  Indexing the map with `operator[]` inserts a null
pointer under a key that is not there.

`handle` is one call of a handler.  What files, memory, the authenticator and the pipeline thread
answer during the call is its `Env`.
-/

namespace Beyond
namespace Peer
namespace GrpcServer

open Errno

/-! ## Messages -/

/-- Client metadata, in the order of the multimap; a lookup finds the first entry of a key. -/
abbrev Metadata := List (Bytes × Bytes)

def keyMethodName : Bytes := Bytes.ascii "method_name"
def keyId : Bytes := Bytes.ascii "id"
def keyNonce : Bytes := Bytes.ascii "nonce"

inductive StatusCode
  | ok
  | invalidArgument
  | notFound
  | failedPrecondition
  | internal
  | unauthenticated
  deriving DecidableEq, Repr

/-- `grpc::Status`. -/
structure Status where
  code : StatusCode
  message : String
  deriving DecidableEq, Repr

def Status.OK : Status := ⟨.ok, "OK"⟩

structure WireTensorInfo where
  type : Int
  size : Int
  name : Bytes
  dims : List Int
  deriving DecidableEq, Repr

structure RuntimeInfo where
  name : Bytes
  devices : List Bytes
  deriving DecidableEq, Repr

/-- `peer_nn::Configuration`. -/
structure Configuration where
  inputType : Int
  preprocessing : Bytes
  postprocessing : Bytes
  framework : Bytes
  accel : Bytes
  deriving DecidableEq, Repr

/-- An RPC with its request message. -/
inductive Rpc
  | configure (request : Configuration)
  | exchangeKey (key : Bytes)
  | loadModel (filename : Bytes)
  | uploadModel (chunks : List Bytes)
  | getInputTensorInfo
  | setInputTensorInfo (request : List WireTensorInfo)
  | getOutputTensorInfo
  | setOutputTensorInfo (request : List WireTensorInfo)
  | prepare
  | stop
  | getInfo
  deriving DecidableEq, Repr

namespace Rpc

def isExchangeKey : Rpc → Bool
  | exchangeKey _ => true
  | _ => false

/-- The handlers that begin with `GetGst`. -/
def usesGst : Rpc → Bool
  | exchangeKey _ => false
  | getInfo => false
  | _ => true

end Rpc

/-- The response messages. -/
inductive Response
  | plain (status : Int)
  | exchangeKey (status : Int) (id : Bytes)
  | tensorInfos (status : Int) (info : List WireTensorInfo)
  | prepared (status requestPort responsePort : Int)
  | info (freeMemory freeStorage : UInt64) (runtimes : List RuntimeInfo)
  deriving DecidableEq, Repr

structure Answer where
  status : Status
  response : Response
  deriving DecidableEq, Repr

/-! ## State -/

/-- What the handlers use of `beyond_peer_info`. -/
structure PeerInfo where
  uuid : Uuid
  runtimes : List RuntimeInfo
  freeMemory : UInt64
  freeStorage : UInt64
  deriving DecidableEq, Repr

/-- The place of a session object. -/
abbrev GstRef := Nat

structure Server where
  info : Option PeerInfo
  storagePath : Bytes
  nextPeerId : UInt64
  clientMap : AList fun _ : Bytes => Option GstRef
  gst : GstRef → Gst
  count : Nat

/-- What the outside answers while one request is served. -/
structure Env where
  /-- Built without `NDEBUG`: assertions and debug prints are compiled in. -/
  debug : Bool
  /-- The peer has an authenticator. -/
  authenticator : Bool
  decrypt : Bytes → Int
  getResult : Bytes → Int × Option Bytes
  gstCreate : Bool
  /-- What the nonce member of a new object happens to hold. -/
  rawNonce : UInt64
  strdupErrno : Option Int
  readable : Bytes → Bool
  fopenErrno : Option Int
  /-- For each chunk, what `fwrite` returns and what `ferror` says after it. -/
  fwrite : Nat → Int × Int
  allocErrno : Option Int
  memory : Bool
  prepared : Gst.Prepared
  stop : Int
  freeMemory : UInt64
  freeStorage : UInt64

/-- An outside where everything succeeds and the peer has no authenticator. -/
def Env.plain : Env :=
  { debug := false
    authenticator := false
    decrypt := fun _ => 0
    getResult := fun _ => (0, none)
    gstCreate := true
    rawNonce := 0
    strdupErrno := none
    readable := fun _ => true
    fopenErrno := none
    fwrite := fun _ => (0, 0)
    allocErrno := none
    memory := true
    prepared := ⟨0, 0, 0, 0, 0, none, none⟩
    stop := 0
    freeMemory := 0
    freeStorage := 0 }

namespace Server

def setGst (srv : Server) (ref : GstRef) (gst : Gst) : Server :=
  { srv with gst := Function.update srv.gst ref gst }

/-- `clientMap[id]`. -/
def client (srv : Server) (id : Bytes) : Server × Option GstRef :=
  match srv.clientMap.lookup id with
  | some p => (srv, p)
  | none => ({ srv with clientMap := srv.clientMap.insert id none }, none)

/-- A new object with the given contents, stored as `clientMap[id]`, and the next id. -/
def addSession (srv : Server) (id : Bytes) (gst : Gst) : Server :=
  { srv with
    gst := Function.update srv.gst srv.count gst
    count := srv.count + 1
    clientMap := srv.clientMap.insert id (some srv.count)
    nextPeerId := srv.nextPeerId + 1 }

@[simp] theorem clientMap_setGst (srv : Server) (ref : GstRef) (gst : Gst) :
    (srv.setGst ref gst).clientMap = srv.clientMap := rfl

@[simp] theorem count_setGst (srv : Server) (ref : GstRef) (gst : Gst) :
    (srv.setGst ref gst).count = srv.count := rfl

@[simp] theorem nextPeerId_setGst (srv : Server) (ref : GstRef) (gst : Gst) :
    (srv.setGst ref gst).nextPeerId = srv.nextPeerId := rfl

@[simp] theorem gst_setGst_same (srv : Server) (ref : GstRef) (gst : Gst) :
    (srv.setGst ref gst).gst ref = gst := by
  simp [setGst]

theorem gst_setGst_ne (srv : Server) {ref ref' : GstRef} (gst : Gst) (h : ref' ≠ ref) :
    (srv.setGst ref gst).gst ref' = srv.gst ref' := by
  simp [setGst, h]

@[simp] theorem gst_client (srv : Server) (id : Bytes) : (srv.client id).1.gst = srv.gst := by
  unfold client
  split <;> rfl

@[simp] theorem count_client (srv : Server) (id : Bytes) :
    (srv.client id).1.count = srv.count := by
  unfold client
  split <;> rfl

@[simp] theorem nextPeerId_client (srv : Server) (id : Bytes) :
    (srv.client id).1.nextPeerId = srv.nextPeerId := by
  unfold client
  split <;> rfl

theorem client_of_lookup {srv : Server} {id : Bytes} {p : Option GstRef}
    (h : srv.clientMap.lookup id = some p) : srv.client id = (srv, p) := by
  simp [client, h]

theorem client_of_lookup_none {srv : Server} {id : Bytes} (h : srv.clientMap.lookup id = none) :
    srv.client id = ({ srv with clientMap := srv.clientMap.insert id none }, none) := by
  simp [client, h]

end Server

/-! ## Handlers -/

/-- `GrpcServer::GetGst`: the code, or the pointer that the caller gets with the code 0. -/
def getGst (srv : Server) (metadata : Metadata) : Server × Except Int (Option GstRef) :=
  match metadata.lookup keyId with
  | none => (srv, .error (-EINVAL))
  | some peerId =>
      if peerId = [] then (srv, .error (-ENOENT))
      -- An id that was never given out is inserted, and its null pointer returned with the code 0.
      else ((srv.client peerId).1, .ok (srv.client peerId).2)

/-- The common head of the session handlers. -/
def withGst (srv : Server) (metadata : Metadata) (failed : Response)
    (body : Server → Option GstRef → Except Fault (Server × Answer)) :
    Except Fault (Server × Answer) :=
  match getGst srv metadata with
  | (srv, .error _) => .ok (srv, ⟨⟨.notFound, "Not Found"⟩, failed⟩)
  | (srv, .ok p) => body srv p

/-- A member call on the session: `f` is what it does to the object and what is answered. -/
def onGst (srv : Server) (p : Option GstRef) (f : Gst → Except Fault (Gst × Answer)) :
    Except Fault (Server × Answer) :=
  match p with
  | none => .error .nullGst
  | some ref =>
      match f (srv.gst ref) with
      | .error e => .error e
      | .ok (gst, answer) => .ok (srv.setGst ref gst, answer)

def configure (srv : Server) (metadata : Metadata) (request : Configuration) :
    Except Fault (Server × Answer) :=
  withGst srv metadata (.plain (-ENOENT)) fun srv p =>
    onGst srv p fun gst =>
      .ok (gst.configure
        { inputType := request.inputType
          preprocessing := some (Bytes.cstring request.preprocessing)
          postprocessing := some (Bytes.cstring request.postprocessing)
          framework := some (Bytes.cstring request.framework)
          accel := some (Bytes.cstring request.accel) }, ⟨.OK, .plain 0⟩)

/-- The bytes `/` and `\`. -/
def isSeparator (b : UInt8) : Bool := b == 0x2f || b == 0x5c

/-- `filename.substr(filename.find_last_of("/\\") + 1)`. -/
def baseName (filename : Bytes) : Bytes :=
  (filename.reverse.takeWhile fun b => !isSeparator b).reverse

/-- The path under which `LoadModel` looks for the model. -/
def modelFile (storagePath filename : Bytes) : Bytes :=
  if storagePath = [] then baseName filename
  else if storagePath.getLast? = some 0x2f then storagePath ++ baseName filename
  else storagePath ++ [0x2f] ++ baseName filename

def loadModel (srv : Server) (env : Env) (metadata : Metadata) (filename : Bytes) :
    Except Fault (Server × Answer) :=
  withGst srv metadata (.plain (-ENOENT)) fun srv p =>
    onGst srv p fun gst =>
      let file := Bytes.cstring (modelFile srv.storagePath filename)
      match env.strdupErrno with
      | some errno =>
          -- The old path was freed before.
          .ok ({ gst with model := { gst.model with modelPath := none } }, ⟨.OK, .plain (-errno)⟩)
      | none =>
          .ok ({ gst with model := { gst.model with modelPath := some file } },
            ⟨.OK, .plain (if env.readable file then 0 else -ENOENT)⟩)

/-- The status of the chunk loop of `UploadModel`; `i` counts the chunks read so far. -/
def uploadStatus (fwrite : Nat → Int × Int) : Nat → List Bytes → Int
  | _, [] => 0
  | i, chunk :: chunks =>
      -- A short write without an error answers with 0.
      if (fwrite i).1 ≤ 0 ∨ (fwrite i).1 ≠ chunk.length then -(fwrite i).2
      else uploadStatus fwrite (i + 1) chunks

def uploadModel (srv : Server) (env : Env) (metadata : Metadata) (chunks : List Bytes) :
    Except Fault (Server × Answer) :=
  withGst srv metadata (.plain (-ENOENT)) fun srv p =>
    onGst srv p fun gst =>
      match gst.model.modelPath with
      | none => .ok (gst, ⟨⟨.failedPrecondition, "Failed precondition"⟩, .plain 0⟩)
      | some _ =>
          match env.fopenErrno with
          | some errno => .ok (gst, ⟨.OK, .plain (-errno)⟩)
          | none => .ok (gst, ⟨.OK, .plain (uploadStatus env.fwrite 0 chunks)⟩)

/-- `GrpcServer::InfoToResponse`.  (`add_info` and `mutable_dims` never return null.) -/
def infoToResponse : List TensorInfo → Except Fault (List WireTensorInfo)
  | [] => .ok []
  | info :: rest =>
      match info.dims, infoToResponse rest with
      | none, _ => .error .nullDims
      | some _, .error e => .error e
      | some dims, .ok wire => .ok (⟨info.type, info.size, info.name.getD [], dims⟩ :: wire)

/-- `GrpcServer::RequestToInfo`. -/
def requestToInfo (env : Env) (request : List WireTensorInfo) : Except Int (List TensorInfo) :=
  match env.allocErrno with
  | some errno => .error (-errno)
  | none => .ok (request.map fun i => ⟨i.type, i.size, some (Bytes.cstring i.name), some i.dims⟩)

/-- `GetInputTensorInfo` and `GetOutputTensorInfo`, by the array that they read. -/
def getTensorInfo (field : Model → Option (List TensorInfo)) (srv : Server) (env : Env)
    (metadata : Metadata) : Except Fault (Server × Answer) :=
  withGst srv metadata (.tensorInfos (-ENOENT) []) fun srv p =>
    onGst srv p fun gst =>
      -- In a release build a model without tensor info answers with none.
      if env.debug ∧ hasTensorInfo (field gst.model) = false then .error .assertion
      else
        match infoToResponse ((field gst.model).getD []) with
        | .error e => .error e
        | .ok wire => .ok (gst, ⟨.OK, .tensorInfos 0 wire⟩)

/-- `SetInputTensorInfo` and `SetOutputTensorInfo`, by the array that they replace. -/
def setTensorInfo (store : Model → Option (List TensorInfo) → Model) (srv : Server) (env : Env)
    (metadata : Metadata) (request : List WireTensorInfo) : Except Fault (Server × Answer) :=
  withGst srv metadata (.plain (-ENOENT)) fun srv p =>
    match requestToInfo env request with
    | .error ret => .ok (srv, ⟨⟨.internal, "Internal Error"⟩, .plain ret⟩)
    | .ok info =>
        onGst srv p fun gst =>
          .ok ({ gst with model := store gst.model (some info) }, ⟨.OK, .plain 0⟩)

def getInputTensorInfo := getTensorInfo Model.inputTensorInfo
def getOutputTensorInfo := getTensorInfo Model.outputTensorInfo

def setInputTensorInfo := setTensorInfo fun m info => { m with inputTensorInfo := info }
def setOutputTensorInfo := setTensorInfo fun m info => { m with outputTensorInfo := info }

def prepare (srv : Server) (env : Env) (metadata : Metadata) : Except Fault (Server × Answer) :=
  withGst srv metadata (.prepared (-ENOENT) 0 0) fun srv p =>
    onGst srv p fun gst =>
      match gst.prepare env.memory env.prepared with
      | (gst, ret, requestPort, responsePort) =>
          .ok (gst, ⟨.OK, .prepared ret requestPort responsePort⟩)

def stop (srv : Server) (env : Env) (metadata : Metadata) : Except Fault (Server × Answer) :=
  withGst srv metadata (.plain (-ENOENT)) fun srv p =>
    onGst srv p fun gst => .ok (gst, ⟨.OK, .plain env.stop⟩)

def getInfo (srv : Server) (env : Env) : Except Fault (Server × Answer) :=
  match srv.info with
  | none => .ok (srv, ⟨⟨.notFound, "Not Found"⟩, .info 0 0 []⟩)
  | some info =>
      .ok ({ srv with
              info := some { info with freeMemory := env.freeMemory, freeStorage := env.freeStorage } },
        ⟨.OK, .info env.freeMemory env.freeStorage info.runtimes⟩)

/-- The answer of `ExchangeKey` when no session was made. -/
def exchangeKeyFailed (srv : Server) (ret : Int) : Except Fault (Server × Answer) :=
  .ok (srv, ⟨.OK, .exchangeKey ret []⟩)

/-- `Gst::Create`, the setters and the bookkeeping of `ExchangeKey`. -/
def exchangeKeyDone (srv : Server) (gst : Gst) : Except Fault (Server × Answer) :=
  .ok (srv.addSession (Bytes.decimal srv.nextPeerId.toNat) gst,
    ⟨.OK, .exchangeKey 0 (Bytes.decimal srv.nextPeerId.toNat)⟩)

/-- `ExchangeKey` from the decrypted record on. -/
def openCredential (srv : Server) (env : Env) (cred : Bytes) : Except Fault (Server × Answer) :=
  match Credential.dbgPrint env.debug cred with
  | .error e => .error e
  | .ok () =>
      match srv.info with
      | none => .error .nullInfo
      | some info =>
          match Credential.uuidMatches info.uuid cred with
          | .error e => .error e
          | .ok false => exchangeKeyFailed srv (-EINVAL)
          | .ok true =>
              -- The record is opened only behind `Gst::Create`.
              if env.gstCreate = false then exchangeKeyFailed srv (-EFAULT)
              else
                match Credential.session cred with
                | .error e => .error e
                | .ok (secret, nonce) =>
                    exchangeKeyDone srv
                      ((({ peerId := Bytes.decimal srv.nextPeerId.toNat
                           nonce := env.rawNonce } : Gst).setSecret secret).setNonce nonce)

def exchangeKey (srv : Server) (env : Env) (key : Bytes) : Except Fault (Server × Answer) :=
  if env.authenticator then
    if env.decrypt key < 0 then exchangeKeyFailed srv (env.decrypt key)
    else if (env.getResult key).1 < 0 then exchangeKeyFailed srv (env.getResult key).1
    else
      match (env.getResult key).2 with
      | none => exchangeKeyFailed srv (-EFAULT)
      | some [] => exchangeKeyFailed srv (-EFAULT)
      | some (b :: bs) => openCredential srv env (b :: bs)
  -- Without an authenticator the key of the request is not looked at.
  else if env.gstCreate = false then exchangeKeyFailed srv (-EFAULT)
  else
    exchangeKeyDone srv
      (({ peerId := Bytes.decimal srv.nextPeerId.toNat, nonce := env.rawNonce } : Gst).setSecret [])

/-- One call of a handler. -/
def handle (srv : Server) (env : Env) (metadata : Metadata) : Rpc → Except Fault (Server × Answer)
  | .configure request => configure srv metadata request
  | .exchangeKey key => exchangeKey srv env key
  -- `LoadModel` only looks for the file; the model is loaded by `Prepare`.
  | .loadModel filename => loadModel srv env metadata filename
  | .uploadModel chunks => uploadModel srv env metadata chunks
  | .getInputTensorInfo => getInputTensorInfo srv env metadata
  | .setInputTensorInfo request => setInputTensorInfo srv env metadata request
  | .getOutputTensorInfo => getOutputTensorInfo srv env metadata
  | .setOutputTensorInfo request => setOutputTensorInfo srv env metadata request
  | .prepare => prepare srv env metadata
  | .stop => stop srv env metadata
  | .getInfo => getInfo srv env

/-- The loop of `GrpcServer::Destroy` over `clientMap`: the sessions that it destroys. -/
def destroyLoop : List (Sigma fun _ : Bytes => Option GstRef) → Except Fault (List GstRef)
  | [] => .ok []
  -- An entry that a lookup left behind is dereferenced like a session.
  | ⟨_, none⟩ :: _ => .error .nullGst
  | ⟨_, some ref⟩ :: rest =>
      match destroyLoop rest with
      | .error e => .error e
      | .ok refs => .ok (ref :: refs)

def destroy (srv : Server) : Except Fault (List GstRef) := destroyLoop srv.clientMap.entries

/-! ## What a handler leaves as it was -/

/-- The session table, the id counter and every nonce are the same. -/
structure Frame (srv srv' : Server) : Prop where
  clientMap : srv'.clientMap = srv.clientMap
  count : srv'.count = srv.count
  nextPeerId : srv'.nextPeerId = srv.nextPeerId
  nonce : ∀ ref, (srv'.gst ref).nonce = (srv.gst ref).nonce

theorem Frame.refl (srv : Server) : Frame srv srv := ⟨rfl, rfl, rfl, fun _ => rfl⟩

theorem Frame.setGst {srv : Server} {ref : GstRef} {gst : Gst}
    (h : gst.nonce = (srv.gst ref).nonce) : Frame srv (srv.setGst ref gst) := by
  refine ⟨rfl, rfl, rfl, ?_⟩
  intro ref'
  by_cases href : ref' = ref
  · subst href
    simpa using h
  · rw [Server.gst_setGst_ne srv gst href]

/-- The rest of a session handler behind `GetGst`: it keeps the frame, and a null pointer is the
only reason for it to dereference one. -/
structure SessionBody (body : Server → Option GstRef → Except Fault (Server × Answer)) : Prop where
  frame : ∀ {srv p srv' a}, body srv p = .ok (srv', a) → Frame srv srv'
  null : ∀ {srv p}, body srv p = .error .nullGst → p = none

theorem sessionBody_onGst (f : Server → Gst → Except Fault (Gst × Answer))
    (hnonce : ∀ {srv gst gst' a}, f srv gst = .ok (gst', a) → gst'.nonce = gst.nonce)
    (hnull : ∀ {srv gst}, f srv gst ≠ .error .nullGst) :
    SessionBody fun srv p => onGst srv p (f srv) := by
  constructor
  · intro srv p srv' a h
    cases p with
    | none => cases h
    | some ref =>
        -- Only the object behind the pointer is written.
        cases hf : f srv (srv.gst ref) with
        | error e => simp [onGst, hf] at h
        | ok r =>
            rcases r with ⟨gst', a'⟩
            have heq : srv.setGst ref gst' = srv' ∧ a' = a := by simpa [onGst, hf] using h
            rw [← heq.1]
            exact Frame.setGst (hnonce hf)
  · intro srv p h
    cases p with
    | none => rfl
    | some ref =>
        cases hf : f srv (srv.gst ref) with
        | error e =>
            have he : e = .nullGst := by simpa [onGst, hf] using h
            exact absurd (he ▸ hf) hnull
        | ok r => simp [onGst, hf] at h

theorem infoToResponse_error {infos : List TensorInfo} {e : Fault} :
    infoToResponse infos = .error e → e = .nullDims := by
  induction infos with
  | nil => simp [infoToResponse]
  | cons info rest ih =>
      cases hd : info.dims with
      | none => simp [infoToResponse, hd, eq_comm]
      | some dims =>
          cases hr : infoToResponse rest with
          | error e' =>
              intro h
              have he : e' = e := by simpa [infoToResponse, hd, hr] using h
              exact ih (he ▸ hr)
          | ok wire => simp [infoToResponse, hd, hr]

theorem sessionBody_getTensorInfo (field : Model → Option (List TensorInfo)) (env : Env) :
    SessionBody fun srv p => onGst srv p fun gst =>
      if env.debug ∧ hasTensorInfo (field gst.model) = false then .error .assertion
      else
        match infoToResponse ((field gst.model).getD []) with
        | .error e => .error e
        | .ok wire => .ok (gst, ⟨.OK, .tensorInfos 0 wire⟩) := by
  refine sessionBody_onGst (fun _ gst => _) ?_ ?_
  · intro srv gst gst' a h
    split at h
    · cases h
    · split at h
      · cases h
      · cases h
        rfl
  · intro srv gst h
    split at h
    · cases h
    · split at h
      · rename_i e he
        have hnull : e = .nullGst := by simpa using h
        exact absurd (infoToResponse_error he) (by simp [hnull])
      · cases h

theorem sessionBody_setTensorInfo (store : Model → Option (List TensorInfo) → Model) (env : Env)
    (request : List WireTensorInfo) :
    SessionBody fun srv p =>
      match requestToInfo env request with
      | .error ret => .ok (srv, ⟨⟨.internal, "Internal Error"⟩, .plain ret⟩)
      | .ok info =>
          onGst srv p fun gst =>
            .ok ({ gst with model := store gst.model (some info) }, ⟨.OK, .plain 0⟩) := by
  cases requestToInfo env request with
  | error ret =>
      constructor
      · intro srv p srv' a h
        cases h
        exact Frame.refl srv
      · intro srv p h
        cases h
  | ok info =>
      refine sessionBody_onGst (fun _ gst => _) ?_ ?_
      · intro srv gst gst' a h
        cases h
        rfl
      · intro srv gst h
        cases h

/-- Every handler that begins with `GetGst` is `withGst` around a body that keeps the frame. -/
theorem handle_eq_withGst (srv : Server) (env : Env) (metadata : Metadata) {rpc : Rpc}
    (h : rpc.usesGst = true) :
    ∃ failed body, SessionBody body ∧
      handle srv env metadata rpc = withGst srv metadata failed body := by
  -- No member function of a session touches the nonce; the setters of `ExchangeKey` are not here.
  cases rpc with
  | exchangeKey key => cases h
  | getInfo => cases h
  | configure request =>
      refine ⟨_, _, sessionBody_onGst (fun _ gst => _) ?_ ?_, rfl⟩
      · intro srv gst gst' a h
        cases h
        rfl
      · intro srv gst h
        cases h
  | loadModel filename =>
      refine ⟨_, _, sessionBody_onGst (fun srv gst => _) ?_ ?_, rfl⟩
      · intro srv gst gst' a h
        dsimp only at h
        split at h <;> cases h <;> rfl
      · intro srv gst h
        dsimp only at h
        split at h <;> cases h
  | uploadModel chunks =>
      refine ⟨_, _, sessionBody_onGst (fun _ gst => _) ?_ ?_, rfl⟩
      · intro srv gst gst' a h
        split at h
        · cases h
          rfl
        · split at h <;> cases h <;> rfl
      · intro srv gst h
        split at h
        · cases h
        · split at h <;> cases h
  | getInputTensorInfo => exact ⟨_, _, sessionBody_getTensorInfo _ env, rfl⟩
  | getOutputTensorInfo => exact ⟨_, _, sessionBody_getTensorInfo _ env, rfl⟩
  | setInputTensorInfo request =>
      exact ⟨_, _, sessionBody_setTensorInfo (fun m info => { m with inputTensorInfo := info })
        env request, rfl⟩
  | setOutputTensorInfo request =>
      exact ⟨_, _, sessionBody_setTensorInfo (fun m info => { m with outputTensorInfo := info })
        env request, rfl⟩
  | prepare =>
      refine ⟨_, _, sessionBody_onGst (fun _ gst => _) ?_ ?_, rfl⟩
      · intro srv gst gst' a h
        cases h
        exact Gst.nonce_prepare gst _ _
      · intro srv gst h
        cases h
  | stop =>
      refine ⟨_, _, sessionBody_onGst (fun _ gst => _) ?_ ?_, rfl⟩
      · intro srv gst gst' a h
        cases h
        rfl
      · intro srv gst h
        cases h

theorem withGst_frame {srv srv' : Server} {metadata : Metadata} {failed : Response} {a : Answer}
    {body : Server → Option GstRef → Except Fault (Server × Answer)} (hbody : SessionBody body)
    (h : withGst srv metadata failed body = .ok (srv', a)) :
    Frame (getGst srv metadata).1 srv' := by
  rcases hg : getGst srv metadata with ⟨srv₁, r⟩
  cases r with
  | error ret =>
      have heq : srv₁ = srv' := by
        have h' := h
        simp only [withGst, hg, Except.ok.injEq, Prod.mk.injEq] at h'
        exact h'.1
      rw [heq]
      exact Frame.refl srv'
  | ok p =>
      simp only [withGst, hg] at h
      exact hbody.frame h

theorem handle_frame {srv srv' : Server} {env : Env} {metadata : Metadata} {rpc : Rpc} {a : Answer}
    (huses : rpc.usesGst = true) (h : handle srv env metadata rpc = .ok (srv', a)) :
    Frame (getGst srv metadata).1 srv' := by
  rcases handle_eq_withGst srv env metadata huses with ⟨failed, body, hbody, heq⟩
  exact withGst_frame hbody (heq ▸ h)

theorem getInfo_frame {srv srv' : Server} {env : Env} {a : Answer}
    (h : getInfo srv env = .ok (srv', a)) : Frame srv srv' := by
  unfold getInfo at h
  split at h <;> cases h <;> exact ⟨rfl, rfl, rfl, fun _ => rfl⟩

theorem getInfo_ne_nullGst (srv : Server) (env : Env) : getInfo srv env ≠ .error .nullGst := by
  unfold getInfo
  split <;> simp

/-! ## What `ExchangeKey` does -/

/-- Either nothing happened and the status is negative, or one session was added and its id was
answered. -/
inductive Exchanged (srv : Server) : Server → Answer → Prop
  | failed {ret : Int} (h : ret < 0) : Exchanged srv srv ⟨.OK, .exchangeKey ret []⟩
  | done (gst : Gst) :
      Exchanged srv (srv.addSession (Bytes.decimal srv.nextPeerId.toNat) gst)
        ⟨.OK, .exchangeKey 0 (Bytes.decimal srv.nextPeerId.toNat)⟩

theorem openCredential_exchanged {srv srv' : Server} {env : Env} {cred : Bytes} {a : Answer}
    (h : openCredential srv env cred = .ok (srv', a)) : Exchanged srv srv' a := by
  unfold openCredential at h
  split at h
  · cases h
  · split at h
    · cases h
    · split at h
      · cases h
      · cases h
        exact .failed (by decide)
      · split at h
        · cases h
          exact .failed (by decide)
        · split at h
          · cases h
          · cases h
            exact .done _

theorem exchangeKey_exchanged {srv srv' : Server} {env : Env} {key : Bytes} {a : Answer}
    (h : exchangeKey srv env key = .ok (srv', a)) : Exchanged srv srv' a := by
  unfold exchangeKey at h
  split at h
  · split at h
    · rename_i hret
      cases h
      exact .failed hret
    · split at h
      · rename_i hret
        cases h
        exact .failed hret
      · split at h
        · cases h
          exact .failed (by decide)
        · cases h
          exact .failed (by decide)
        · exact openCredential_exchanged h
  · split at h
    · cases h
      exact .failed (by decide)
    · cases h
      exact .done _

theorem openCredential_ne_nullGst (srv : Server) (env : Env) (cred : Bytes) :
    openCredential srv env cred ≠ .error .nullGst := by
  intro h
  unfold openCredential at h
  split at h
  · -- None of the faults of the record's fields is the null session.
    rename_i e he
    have hnull : e = .nullGst := by simpa using h
    exact absurd (Credential.dbgPrint_error he) (by simp [hnull])
  · split at h
    · cases h
    · split at h
      · rename_i e he
        have hnull : e = .nullGst := by simpa using h
        exact absurd (Credential.uuidMatches_error.1 he).1 (by simp [hnull])
      · cases h
      · split at h
        · cases h
        · split at h
          · rename_i e he
            have hnull : e = .nullGst := by simpa using h
            subst hnull
            unfold Credential.session at he
            split at he
            · cases he
            · split at he
              · cases he
              · split at he <;> cases he
          · cases h

theorem exchangeKey_ne_nullGst (srv : Server) (env : Env) (key : Bytes) :
    exchangeKey srv env key ≠ .error .nullGst := by
  unfold exchangeKey
  split
  · split
    · simp [exchangeKeyFailed]
    · split
      · simp [exchangeKeyFailed]
      · split
        · simp [exchangeKeyFailed]
        · simp [exchangeKeyFailed]
        · exact openCredential_ne_nullGst srv env _
  · split <;> simp [exchangeKeyFailed, exchangeKeyDone]

/-- The server behind the lookup that the handler makes, if it makes one. -/
def looked (srv : Server) (metadata : Metadata) (rpc : Rpc) : Server :=
  if rpc.usesGst then (getGst srv metadata).1 else srv

/-- What a handler can do: only `ExchangeKey` changes more than its lookup did. -/
theorem handle_ok {srv srv' : Server} {env : Env} {metadata : Metadata} {rpc : Rpc} {a : Answer}
    (h : handle srv env metadata rpc = .ok (srv', a)) :
    (rpc.isExchangeKey = false ∧ Frame (looked srv metadata rpc) srv') ∨
      (rpc.isExchangeKey = true ∧ Exchanged srv srv' a) := by
  by_cases huses : rpc.usesGst = true
  · -- What `GetGst` did to the table is part of `looked`.
    left
    refine ⟨?_, by simpa [looked, huses] using handle_frame huses h⟩
    cases rpc with
    | exchangeKey key => cases huses
    | _ => rfl
  · cases rpc with
    | exchangeKey key => exact Or.inr ⟨rfl, exchangeKey_exchanged h⟩
    | getInfo => exact Or.inl ⟨rfl, getInfo_frame h⟩
    | _ => exact absurd rfl huses

/-- A handler dereferences a null session only if `GetGst` handed it one. -/
theorem handle_nullGst {srv : Server} {env : Env} {metadata : Metadata} {rpc : Rpc}
    (h : handle srv env metadata rpc = .error .nullGst) :
    rpc.usesGst = true ∧ (getGst srv metadata).2 = .ok none := by
  by_cases huses : rpc.usesGst = true
  · refine ⟨huses, ?_⟩
    rcases handle_eq_withGst srv env metadata huses with ⟨failed, body, hbody, heq⟩
    rw [heq] at h
    rcases hg : getGst srv metadata with ⟨srv₁, r⟩
    cases r with
    | error ret => simp [withGst, hg] at h
    | ok p =>
        simp only [withGst, hg] at h
        rw [hbody.null h]
  · exfalso
    cases rpc with
    | exchangeKey key => exact exchangeKey_ne_nullGst srv env key h
    | getInfo => exact getInfo_ne_nullGst srv env h
    | _ => exact huses rfl

/-- Without a session to look up the answer is `NOT_FOUND`. -/
theorem handle_notFound {srv : Server} {env : Env} {metadata : Metadata} {rpc : Rpc} {ret : Int}
    (huses : rpc.usesGst = true) (h : (getGst srv metadata).2 = .error ret) :
    ∃ failed, handle srv env metadata rpc =
      .ok ((getGst srv metadata).1, ⟨⟨.notFound, "Not Found"⟩, failed⟩) := by
  rcases handle_eq_withGst srv env metadata huses with ⟨failed, body, hbody, heq⟩
  refine ⟨failed, ?_⟩
  rw [heq]
  rcases hg : getGst srv metadata with ⟨srv₁, r⟩
  have hr : r = .error ret := by rw [hg] at h; exact h
  subst hr
  simp [withGst, hg]

end GrpcServer
end Peer
end Beyond
