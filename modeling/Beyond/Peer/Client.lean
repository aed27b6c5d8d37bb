import Beyond.Peer.Session
import Beyond.Peer.SetInfo

/-!
# The calls of a client peer

The calls that an application makes of a client `Peer`, and what each does on the client, on the
client's GStreamer thread and in the session on the server.  A pointer that a call dereferences
without a check is an `Option` here, and a call that dereferences a null pointer or fails an
assertion ends in a `Crash` instead of a result code.

Commands to the GStreamer thread are handled one after the other, and the thread is the only one
that writes `gstSource` and `gstSink`, so a command is modelled as handled when it is sent.
-/

namespace Beyond
namespace Peer
namespace Client

open Errno GrpcServer

/-! ## State -/

/-- What ends a call without a result code. -/
inductive Crash
  | nullInfo
  | nullGst
  | nullSource
  | nullSink
  | nullDims
  /-- The format of an image or video configuration. -/
  | nullFormat
  | assertion
  /-- In `SetInfo`, which copies its argument. -/
  | setInfo (fault : SetInfo.Fault)
  /-- In a handler of the server. -/
  | server (fault : Fault)
  deriving DecidableEq, Repr

/-- What the calls use of the `beyond_peer_info` that `SetInfo` copies. -/
structure Info where
  host : Bytes
  port : UInt16
  uuid : Bytes
  deriving DecidableEq, Repr

/-- `Peer::GrpcClient::Gst` with the pipelines of its thread: whether the pointers `gstSource` and
`gstSink` are set, and whether a sink was ever set playing. -/
structure ClientGst extends GrpcClient.Gst where
  model : Model := {}
  gstSource : Bool := false
  gstSink : Bool := false
  playing : Bool := false
  deriving DecidableEq, Repr

/-- `Peer::GrpcClient`, and the session that it was given.  `recorded` and `cached` are ghosts: the
model path that the session had when the arrays of the session, and those that the client caches,
were recorded. -/
structure Grpc where
  gst : Option ClientGst
  session : GrpcServer.Gst
  recorded : Side → Option Bytes := fun _ => none
  cached : Side → Option Bytes := fun _ => none

/-- A client `Peer`. -/
structure State where
  info : Option Info := none
  framework : Bytes := []
  accel : Bytes := []
  authenticator : Bool := false
  caAuthenticator : Bool := false
  reservedConfiguration : Option PluginConfig := none
  grpc : Option Grpc := none

/-- The array that the client caches. -/
def Grpc.cachedInfo (g : Grpc) (side : Side) : Option (List TensorInfo) :=
  g.gst.bind fun gst => gst.model.info side

/-- Both ends of the session, once the client has its `Gst`. -/
def Grpc.link (g : Grpc) : Option Link := g.gst.map fun gst => ⟨gst.toGst, g.session⟩

/-- The peer as its configuration calls see it. -/
def State.peer (s : State) : ClientPeer :=
  { framework := s.framework
    accel := s.accel
    reservedConfiguration := s.reservedConfiguration
    grpc := s.grpc.bind Grpc.link }

/-- `Peer::Create` for a client. -/
def State.create (framework accel : Option Bytes) : State :=
  let peer := ClientPeer.create framework accel
  { framework := peer.framework
    accel := peer.accel
    reservedConfiguration := peer.reservedConfiguration }

/-- What a call gives back: its code, and the tensor infos if it was asked for them. -/
structure Result where
  ret : Int
  infos : Option (List TensorInfo) := none
  deriving DecidableEq, Repr

/-! ## Requests -/

/-- Nothing is extracted in a plain outside. -/
theorem extracted_plain :
    DimsPresent Env.plain.prepared.input ∧ DimsPresent Env.plain.prepared.output := by decide

/-- What happens to a request, and what the server meets while it serves it.  A request that the
server's authentication turns away is lost. -/
structure Transit where
  outcome : RpcOutcome := .answered
  env : Env := .plain
  /-- `ExtractTensorInfo` allocates the dims of every info that it hands out. -/
  extracted : DimsPresent env.prepared.input ∧ DimsPresent env.prepared.output := by
    first | exact extracted_plain | decide

/-- Whether a request that the session serves writes this array of it: a setter writes its own, and
`Prepare` those that were missing. -/
def writes (env : Env) (before after : GrpcServer.Gst) (r : Request) (side : Side) : Bool :=
  match r with
  | .setTensorInfo side' request =>
      decide (side' = side) && (requestToInfo env request).toBool
  | .prepare =>
      !hasTensorInfo (before.model.info side) && hasTensorInfo (after.model.info side)
  | _ => false

namespace Grpc

/-- One request: the response, if the client gets one with an OK status. -/
def request (storagePath : Bytes) (t : Transit) (g : Grpc) (r : Request) :
    Except Crash (Grpc × Option Response) :=
  if t.outcome = .lost then .ok (g, none)
  else
    match g.session.serve storagePath t.env r with
    | .error e => .error (.server e)
    | .ok (session, answer) =>
        .ok ({ g with
                session := session
                recorded := fun side =>
                  if writes t.env g.session session r side then session.model.modelPath
                  else g.recorded side },
          if t.outcome = .answered ∧ answer.status.code = .ok then some answer.response else none)

/-! ## `GrpcClient` -/

/-- `GrpcClient::Configure` and then `GrpcClient::Gst::Configure`. -/
def configure (rpc : RpcOutcome) (g : Grpc) (config : PluginConfig) : Except Crash (Grpc × Int) :=
  -- The handler asks nothing of the outside.
  match g.request [] { outcome := rpc } (.configure config.server) with
  | .error e => .error e
  | .ok (g, none) => .ok (g, -EFAULT)
  | .ok (g, some response) =>
      if response.status < 0 then .ok (g, response.status)
      else
        match g.gst with
        | none => .error .nullGst
        | some gst =>
            .ok ({ g with gst := some { gst with toGst := gst.toGst.configure config.client } }, 0)

/-- `GrpcClient::LoadModel`: once it is answered, the cached tensor infos are dropped. -/
def loadModel (storagePath : Bytes) (t : Transit) (g : Grpc) (filename : Bytes) :
    Except Crash (Grpc × Int) :=
  match g.request storagePath t (.loadModel filename) with
  | .error e => .error e
  | .ok (g, none) => .ok (g, -EFAULT)
  | .ok (g, some response) =>
      match g.gst with
      | none => .error .nullGst
      | some gst =>
          .ok ({ g with
                  gst := some
                    { gst with model := (gst.model.store .input none).store .output none } },
            response.status)

/-- `GrpcClient::UploadModel`; the file is its chunks, or the code with which it cannot be read. -/
def uploadModel (storagePath : Bytes) (t : Transit) (g : Grpc) (file : Except Int (List Bytes)) :
    Except Crash (Grpc × Int) :=
  match file with
  | .error ret => .ok (g, ret)
  | .ok chunks =>
      match g.request storagePath t (.uploadModel chunks) with
      | .error e => .error e
      | .ok (g, none) => .ok (g, -EFAULT)
      | .ok (g, some _) => .ok (g, 0)

end Grpc

/-- `GrpcClient::SetRequest`. -/
def setRequest : List TensorInfo → Except Crash (Except Int (List WireTensorInfo))
  | [] => .ok (.ok [])
  | info :: infos =>
      match info.dims with
      | none => .error .nullDims
      | some [] => .ok (.error (-EINVAL))
      | some (d :: ds) =>
          match setRequest infos with
          | .error e => .error e
          | .ok (.error ret) => .ok (.error ret)
          | .ok (.ok wire) =>
              .ok (.ok (⟨info.type, info.size, info.name.getD [], d :: ds⟩ :: wire))

/-- `GrpcClient::GetTensorInfoFromResponse`; `memory` is the `errno` of an allocation that fails. -/
def getTensorInfoFromResponse (debug : Bool) (memory : Option Int) (wire : List WireTensorInfo) :
    Except Crash (Except Int (List TensorInfo)) :=
  -- Without the assertion no info makes an array of none.
  if debug ∧ wire = [] then .error .assertion
  else
    match memory with
    | some errno => .ok (.error (-errno))
    | none => .ok (.ok (wire.map fun i => ⟨i.type, i.size, some (Bytes.cstring i.name), some i.dims⟩))

/-- What `GetInputTensorInfo` and `GetOutputTensorInfo` of the client meet when they have to ask the
server. -/
structure Fetch where
  rpc : Transit := {}
  /-- The client is built without `NDEBUG`. -/
  debug : Bool := false
  memory : Option Int := none

namespace Grpc

/-- `GrpcClient::SetInputTensorInfo` and `SetOutputTensorInfo`; `memory` is the `errno` with which
`DupTensorInfo` fails. -/
def setTensorInfo (storagePath : Bytes) (t : Transit) (memory : Option Int) (g : Grpc) (side : Side)
    (infos : List TensorInfo) : Except Crash (Grpc × Int) :=
  match setRequest infos with
  | .error e => .error e
  | .ok (.error ret) => .ok (g, ret)
  | .ok (.ok wire) =>
      match g.request storagePath t (.setTensorInfo side wire) with
      | .error e => .error e
      | .ok (g, none) => .ok (g, -EFAULT)
      | .ok (g, some response) =>
          match memory with
          | some errno => .ok (g, -errno)
          | none =>
              match g.gst with
              | none => .error .nullGst
              | some gst =>
                  .ok ({ g with
                          gst := some { gst with model := gst.model.store side (some infos) }
                          cached := Function.update g.cached side g.session.model.modelPath },
                    response.status)

/-- `GrpcClient::GetInputTensorInfo` and `GetOutputTensorInfo`: the cached infos, else those of the
server, whatever its status says, which are then cached. -/
def getTensorInfo (storagePath : Bytes) (f : Fetch) (g : Grpc) (side : Side) :
    Except Crash (Grpc × Except Int (List TensorInfo)) :=
  match g.gst with
  | none => .error .nullGst
  | some gst =>
      if hasTensorInfo (gst.model.info side) then .ok (g, .ok ((gst.model.info side).getD []))
      else
        match g.request storagePath f.rpc (.getTensorInfo side) with
        | .error e => .error e
        | .ok (g, none) => .ok (g, .error (-EFAULT))
        | .ok (g, some response) =>
            match getTensorInfoFromResponse f.debug f.memory response.infos with
            | .error e => .error e
            | .ok (.error ret) => .ok (g, .error ret)
            | .ok (.ok infos) =>
                .ok ({ g with
                        gst := some { gst with model := gst.model.store side (some infos) }
                        cached := Function.update g.cached side (g.recorded side) },
                  .ok infos)

end Grpc

/-! ## The pipeline thread -/

/-- What `Peer::Prepare` meets. -/
structure PrepareCall where
  rpc : Transit := {}
  fetch : Fetch := {}
  /-- The code with which the texts of the pipelines cannot be built, or 0. -/
  description : Int := 0
  send : Int := 0
  recv : Int := 0
  /-- The pipelines can be built. -/
  source : Bool := true
  sink : Bool := true

/-- `CommandHandlerPrepare` of the client.  A pipeline that is there already is not destroyed. -/
def ClientGst.commandHandlerPrepare (gst : ClientGst) (source sink : Bool) : ClientGst × Int :=
  if source = false then ({ gst with gstSource := false }, -EFAULT)
  else if sink = false then ({ gst with gstSource := false, gstSink := false }, -EFAULT)
  else ({ gst with gstSource := true, gstSink := true, playing := true }, 0)

@[simp] theorem ClientGst.model_commandHandlerPrepare (gst : ClientGst) (source sink : Bool) :
    (gst.commandHandlerPrepare source sink).1.model = gst.model := by
  unfold commandHandlerPrepare
  split
  · rfl
  · split <;> rfl

/-- `beyond_tensor`. -/
structure Tensor where
  type : Int
  size : Int
  data : Option Bytes
  deriving DecidableEq, Repr

/-- What `Peer::Invoke` is called with and meets. -/
structure InvokeCall where
  input : Option (List Tensor)
  memory : Bool := true
  send : Int := 0
  recv : Int := 0
  /-- What `Source::Invoke` answers. -/
  pushed : Int := 0

/-- What `Peer::Stop` meets. -/
structure StopCall where
  send : Int := 0
  rpc : Transit := {}

namespace Grpc

/-- `GrpcClient::Gst::Prepare` from the `PrepareData` on. -/
def startPipelines (p : PrepareCall) (g : Grpc) : Except Crash (Grpc × Int) :=
  if p.description < 0 then .ok (g, p.description)
  else if p.send < 0 then .ok (g, p.send)
  else
    match g.gst with
    | none => .error .nullGst
    | some gst =>
        match gst.commandHandlerPrepare p.source p.sink with
        | (gst, ret) => .ok ({ g with gst := some gst }, if p.recv < 0 then p.recv else ret)

/-- `GrpcClient::Gst::Prepare`: without a configured input the pipeline begins with the input's
tensor infos. -/
def gstPrepare (storagePath : Bytes) (p : PrepareCall) (g : Grpc) : Except Crash (Grpc × Int) :=
  match g.gst with
  | none => .error .nullGst
  | some gst =>
      if gst.preprocessing = [] then
        match g.getTensorInfo storagePath p.fetch .input with
        | .error e => .error e
        | .ok (g, .error ret) => .ok (g, ret)
        | .ok (g, .ok infos) =>
            -- `TensorInfoToDesc` reads the dims of every info.
            if DimsPresent (some infos) then g.startPipelines p else .error .nullDims
      else g.startPipelines p

/-- `Peer::Prepare` behind its checks; `info->host` is part of both pipelines. -/
def prepare (storagePath : Bytes) (p : PrepareCall) (info : Option Info) (g : Grpc) :
    Except Crash (Grpc × Int) :=
  match g.request storagePath p.rpc .prepare with
  | .error e => .error e
  | .ok (g, none) => .ok (g, -EFAULT)
  | .ok (g, some response) =>
      if response.status < 0 then .ok (g, response.status)
      else if info = none then .error .nullInfo
      else g.gstPrepare storagePath p

/-- The check of `Peer::Invoke`, and `GrpcClient::Gst::Invoke` with `CommandHandlerInvoke`. -/
def invoke (i : InvokeCall) (g : Grpc) : Except Crash (Grpc × Int) :=
  match g.gst with
  | none => .ok (g, -EILSEQ)
  | some gst =>
      match i.input with
      | none => .ok (g, -EINVAL)
      | some tensors =>
          if tensors = [] ∨ ∃ t ∈ tensors, t.size ≤ 0 ∨ t.data = none then .ok (g, -EINVAL)
          else if i.memory = false then .ok (g, -ENOMEM)
          else if i.send < 0 then .ok (g, i.send)
          else if gst.gstSource = false then .error .nullSource
          else .ok (g, if i.recv < 0 then i.recv else i.pushed)

/-- `Peer::Stop` behind its checks, with `CommandHandlerStop`. -/
def stop (storagePath : Bytes) (c : StopCall) (g : Grpc) : Except Crash (Grpc × Int) :=
  match g.gst with
  | none => .error .nullGst
  | some gst =>
      if c.send < 0 then .ok (g, c.send)
      else if gst.gstSource = false then .error .nullSource
      else if gst.gstSink = false then .error .nullSink
      else
        match g.request storagePath c.rpc .stop with
        | .error e => .error e
        | .ok (g, none) => .ok (g, -EFAULT)
        | .ok (g, some response) => .ok (g, response.status)

end Grpc

/-! ## `Peer` -/

/-- The argument of `Configure`, by its type. -/
inductive Configuration
  /-- A null pointer, or one to options without an object. -/
  | missing
  | authenticator
  | caAuthenticator
  /-- The options, and what the rest of the call meets, as in `ConfigureCall`. -/
  | input (options : Options) (formats : Bool) (duplicate : Bool) (rpc : RpcOutcome)
  deriving DecidableEq, Repr

/-- What `ExchangeKey` comes to on the client: a code below 0, or a session, for which the client may
fail to make its `Gst`. -/
inductive KeyExchange
  | failed (ret : Int) (h : ret < 0)
  | done (e : Exchange) (created : Bool)

/-- What `Peer::Activate` meets. -/
structure ActivateCall where
  exchanged : KeyExchange
  /-- The code with which the keys of the authenticators cannot be got, or 0. -/
  keys : Int := 0
  /-- `GrpcClient::Create` succeeds. -/
  channel : Bool := true
  /-- What happens to the request for the reserved configuration. -/
  rpc : RpcOutcome := .answered

/-- What `Peer::LoadModel` is called with and meets. -/
structure LoadModelCall where
  model : Option Bytes
  load : Transit := {}
  file : Except Int (List Bytes) := .ok []
  upload : Transit := {}

/-- The calls that are made of the peer.  `newData` is not one of them: it is `Sink::NewDataHandler`,
which runs for the output of a pipeline that is playing. -/
inductive Call
  /-- `fails` says which of its allocations fail. -/
  | setInfo (info : Option SetInfo.Info) (fails : Nat → Bool) (published : Int)
  | configure (options : Configuration)
  | activate (call : ActivateCall)
  | loadModel (call : LoadModelCall)
  | setTensorInfo (side : Side) (infos : Option (List TensorInfo)) (rpc : Transit)
      (memory : Option Int)
  | getTensorInfo (side : Side) (fetch : Fetch)
  | prepare (call : PrepareCall)
  | invoke (call : InvokeCall)
  | stop (call : StopCall)
  | deactivate
  | newData (fetch : Fetch)

/-- The check of `Peer::SetInputTensorInfo` and `SetOutputTensorInfo`; only the first info is looked
at. -/
def invalidInfo : List TensorInfo → Bool
  | [] => true
  | info :: _ => decide (info.size = 0) || info.dims.isNone

/-- A fresh `GrpcClient` behind its `ExchangeKey`. -/
def KeyExchange.grpc : KeyExchange → Except Int Grpc
  | .failed ret _ => .error ret
  | .done e created =>
      if created = false then .error (-EFAULT)
      else .ok { gst := some { toGst := e.link.client }, session := e.link.server }

namespace State

def setInfo (s : State) (info : Option SetInfo.Info) (fails : Nat → Bool) (published : Int) :
    Except Crash (State × Int) :=
  match info with
  | none => .ok (s, -EINVAL)
  | some info =>
      match info.host with
      | none => .ok (s, -EINVAL)
      | some host =>
          if info.port0 = 0 then .ok (s, -EINVAL)
          else
            match SetInfo.build fails (.start .empty) host info with
            | .error fault => .error (.setInfo fault)
            | .ok (_, none) => .ok (s, -ENOMEM)
            | .ok (_, some new) =>
                .ok
                  ({ s with
                      info := some
                        { host := Bytes.cstring host
                          port := new.port0
                          uuid := new.uuid } },
                    if published < 0 then published else 0)

/-- `Configure` with options whose texts can be read. -/
def configureReadable (s : State) (call : ConfigureCall) : Except Crash (State × Int) :=
  match s.peer.options call with
  | .error ret => .ok (s, ret)
  | .ok config =>
      match s.grpc with
      | none =>
          if call.duplicate = false then .ok (s, 0)
          else
            .ok ({ s with
                    reservedConfiguration := some (ClientPeer.duplicateConfig config) }, 0)
      | some g =>
          match g.configure call.rpc config with
          | .error e => .error e
          | .ok (g, ret) => .ok ({ s with grpc := some g }, ret)

def configure (s : State) : Configuration → Except Crash (State × Int)
  | .missing => .ok (s, -EINVAL)
  | .authenticator => .ok ({ s with authenticator := true }, 0)
  | .caAuthenticator => .ok ({ s with caAuthenticator := true }, 0)
  | .input options formats duplicate rpc =>
      if h : options.readable = true then s.configureReadable ⟨options, h, formats, duplicate, rpc⟩
      else .error .nullFormat

def activate (s : State) (c : ActivateCall) : Except Crash (State × Int) :=
  match s.info with
  | none => .ok (s, -EINVAL)
  | some info =>
      if (s.authenticator || s.caAuthenticator) ∧ c.keys < 0 then .ok (s, c.keys)
      else if s.grpc.isSome then .ok (s, -EALREADY)
      else if c.channel = false then .ok (s, -EFAULT)
      else if (s.authenticator || s.caAuthenticator) ∧ info.uuid = [] then .ok (s, -EINVAL)
      else
        match c.exchanged.grpc with
        | .error ret => .ok (s, ret)
        | .ok g =>
            match s.reservedConfiguration with
            | none => .ok ({ s with grpc := some g }, 0)
            | some config =>
                match g.configure c.rpc config with
                | .error e => .error e
                | .ok (g, ret) =>
                    -- The new client is destroyed when its configuration did not get through.
                    if ret < 0 then .ok (s, ret)
                    else .ok ({ s with grpc := some g, reservedConfiguration := none }, ret)

/-- The head of the calls that need an active peer. -/
def onGrpc (s : State) (f : Grpc → Except Crash (Grpc × Result)) : Except Crash (State × Result) :=
  match s.grpc with
  | none => .ok (s, { ret := -EILSEQ })
  | some g =>
      match f g with
      | .error e => .error e
      | .ok (g, r) => .ok ({ s with grpc := some g }, r)

end State

/-- A call that gives back a code only. -/
def code {σ : Type*} (x : Except Crash (σ × Int)) : Except Crash (σ × Result) :=
  match x with
  | .error e => .error e
  | .ok (s, ret) => .ok (s, { ret := ret })

namespace Grpc

/-- `Peer::LoadModel` behind its checks: a model that the server does not have is uploaded. -/
def loadOrUpload (storagePath : Bytes) (c : LoadModelCall) (filename : Bytes) (g : Grpc) :
    Except Crash (Grpc × Int) :=
  match g.loadModel storagePath c.load filename with
  | .error e => .error e
  | .ok (g, ret) => if ret = -ENOENT then g.uploadModel storagePath c.upload c.file else .ok (g, ret)

/-- `Peer::GetInputTensorInfo` and `GetOutputTensorInfo` behind their checks. -/
def getResult (storagePath : Bytes) (f : Fetch) (side : Side) (g : Grpc) :
    Except Crash (Grpc × Result) :=
  match g.getTensorInfo storagePath f side with
  | .error e => .error e
  | .ok (g, .error ret) => .ok (g, { ret := ret })
  | .ok (g, .ok infos) => .ok (g, { ret := 0, infos := some infos })

/-- `Sink::NewDataHandler`, as far as `GetOutputTensorInfo`; there is none before a sink plays. -/
def newData (storagePath : Bytes) (f : Fetch) (g : Grpc) : Except Crash (Grpc × Result) :=
  match g.gst with
  | none => .ok (g, { ret := 0 })
  | some gst =>
      if gst.playing = false then .ok (g, { ret := 0 })
      else g.getResult storagePath f .output

end Grpc

/-- One call. -/
def call (storagePath : Bytes) (s : State) : Call → Except Crash (State × Result)
  | .setInfo info fails published => code (s.setInfo info fails published)
  | .configure options => code (s.configure options)
  | .activate c => code (s.activate c)
  | .loadModel c =>
      match c.model with
      | none => .ok (s, { ret := -EINVAL })
      | some filename => s.onGrpc fun g => code (g.loadOrUpload storagePath c filename)
  | .setTensorInfo side infos rpc memory =>
      if invalidInfo (infos.getD []) then .ok (s, { ret := -EINVAL })
      else s.onGrpc fun g => code (g.setTensorInfo storagePath rpc memory side (infos.getD []))
  | .getTensorInfo side fetch => s.onGrpc (Grpc.getResult storagePath fetch side)
  | .prepare c => s.onGrpc fun g => code (g.prepare storagePath c s.info)
  | .invoke c => s.onGrpc fun g => code (g.invoke c)
  | .stop c => s.onGrpc fun g => code (g.stop storagePath c)
  | .deactivate =>
      match s.grpc with
      | none => .ok (s, { ret := -EILSEQ })
      | some _ => .ok ({ s with grpc := none }, { ret := 0 })
  | .newData fetch => s.onGrpc (Grpc.newData storagePath fetch)

/-- What `SetInfo` is told of a server of which only the place is known. -/
def hostInfo : SetInfo.Info where
  name := none
  host := some (Bytes.ascii "host")
  port0 := 80
  port1 := 0
  freeMemory := 0
  freeStorage := 0
  uuid := Vector.replicate uuidLen 0
  runtimes := []

/-- The state behind a call that returns. -/
def step (storagePath : Bytes) (s : State) (c : Call) : Option State :=
  match call storagePath s c with
  | .error _ => none
  | .ok (s, _) => some s

theorem step_eq_some {storagePath : Bytes} {s s' : State} {c : Call} :
    step storagePath s c = some s' ↔ ∃ r, call storagePath s c = .ok (s', r) := by
  unfold step
  cases call storagePath s c with
  | error e => simp
  | ok x =>
      rcases x with ⟨t, r⟩
      simp

/-! ## Configuration -/

theorem configure_link {g : Grpc} {gst : ClientGst} (hgst : g.gst = some gst) (rpc : RpcOutcome)
    (config : PluginConfig) :
    ∃ g' ret, g.configure rpc config = .ok (g', ret) ∧
      match rpc with
      | .lost => g'.link = g.link ∧ ret = -EFAULT
      | .unanswered =>
          g'.link = some ⟨gst.toGst, g.session.receive config.server⟩ ∧ ret = -EFAULT
      | .answered =>
          g'.link = some
            ⟨gst.toGst.configure config.client, g.session.receive config.server⟩ ∧ ret = 0 := by
  cases rpc <;>
    simp [Grpc.configure, Grpc.request, GrpcServer.Gst.serve, Grpc.link, hgst, Status.OK,
      Response.status]

theorem configure_readable (s : State) (call : ConfigureCall) :
    s.configure (.input call.options call.formats call.duplicate call.rpc) =
      s.configureReadable call := by
  simp only [State.configure, dif_pos call.readable]

/-- A call of `Configure` that returns changes the peer as `configureInput` says. -/
theorem configure_peer (s : State) (call : ConfigureCall) (hgst : ∀ g ∈ s.grpc, g.gst ≠ none) :
    ∃ s' ret, s.configure (.input call.options call.formats call.duplicate call.rpc) =
        .ok (s', ret) ∧
      s.peer.configureInput call = (s'.peer, ret) := by
  rw [configure_readable]
  unfold State.configureReadable ClientPeer.configureInput
  cases s.peer.options call with
  | error ret => exact ⟨s, ret, rfl, rfl⟩
  | ok config =>
      cases hgrpc : s.grpc with
      | none =>
          have hpeer : s.peer.grpc = none := by simp [State.peer, hgrpc]
          dsimp only
          rw [hpeer]
          cases call.duplicate with
          | false => exact ⟨s, 0, rfl, rfl⟩
          | true => exact ⟨_, 0, rfl, by simp [State.peer, hgrpc]⟩
      | some g =>
          rcases Option.ne_none_iff_exists'.1 (hgst g hgrpc) with ⟨gst, hsome⟩
          have hg : g.link = some ⟨gst.toGst, g.session⟩ := by simp [Grpc.link, hsome]
          have hpeer : s.peer.grpc = some ⟨gst.toGst, g.session⟩ := by
            simp [State.peer, hgrpc, hg]
          rcases configure_link hsome call.rpc config with ⟨g', ret, hconfigure, hlink⟩
          dsimp only
          rw [hconfigure, hpeer]
          refine ⟨{ s with grpc := some g' }, ret, rfl, ?_⟩
          cases hrpc : call.rpc with
          | answered =>
              rw [hrpc] at hlink
              simp [State.peer, hlink]
          | lost =>
              rw [hrpc] at hlink
              simp [State.peer, hgrpc, hlink, hg]
          | unanswered =>
              rw [hrpc] at hlink
              simp [State.peer, hlink]

theorem peer_create (framework accel : Option Bytes) :
    (State.create framework accel).peer = ClientPeer.create framework accel := by
  cases framework <;> rfl

/-- What `Activate` has behind `ExchangeKey`. -/
def KeyExchange.exchanged : KeyExchange → Except Int Exchange
  | .failed ret _ => .error ret
  | .done e created => if created = false then .error (-EFAULT) else .ok e

/-- The checks of `Activate` in front of `ExchangeKey`. -/
structure Activates (s : State) (c : ActivateCall) : Prop where
  info : ∀ info ∈ s.info, (s.authenticator || s.caAuthenticator) = true → info.uuid ≠ []
  known : s.info ≠ none
  keys : (s.authenticator || s.caAuthenticator) = true → 0 ≤ c.keys
  inactive : s.grpc = none
  channel : c.channel = true

/-- Behind its checks `Activate` changes the peer as `ClientPeer.activate` says. -/
theorem activate_peer {s : State} {c : ActivateCall} (h : Activates s c) :
    ∃ s' ret, s.activate c = .ok (s', ret) ∧
      s.peer.activate c.exchanged.exchanged c.rpc = (s'.peer, ret) := by
  rcases Option.ne_none_iff_exists'.1 h.known with ⟨info, hinfo⟩
  have hkeys : ¬((s.authenticator || s.caAuthenticator) = true ∧ c.keys < 0) :=
    fun hk => absurd hk.2 (not_lt.2 (h.keys hk.1))
  have huuid : ¬((s.authenticator || s.caAuthenticator) = true ∧ info.uuid = []) :=
    fun hu => h.info info hinfo hu.1 hu.2
  have hpeer : s.peer.grpc = none := by simp [State.peer, h.inactive]
  unfold State.activate ClientPeer.activate
  rw [hinfo, hpeer]
  dsimp only
  rw [if_neg hkeys, if_neg (by simp [h.inactive]), if_neg (by simp [h.channel]), if_neg huuid]
  cases c.exchanged with
  | failed ret hret => exact ⟨s, ret, rfl, rfl⟩
  | done e created =>
      cases created with
      | false => exact ⟨s, -EFAULT, rfl, rfl⟩
      | true =>
          have hreserved : s.peer.reservedConfiguration = s.reservedConfiguration := rfl
          dsimp only [KeyExchange.grpc, KeyExchange.exchanged]
          rw [hreserved]
          cases s.reservedConfiguration with
          | none => exact ⟨_, 0, rfl, rfl⟩
          | some config =>
              have hfresh : ({ gst := some { toGst := e.link.client }, session := e.link.server } :
                  Grpc).gst = some { toGst := e.link.client } := rfl
              rcases configure_link hfresh c.rpc config with ⟨g', ret, hconfigure, hlink⟩
              simp only [Bool.true_eq_false, if_false, hconfigure]
              cases hrpc : c.rpc with
              | answered =>
                  rw [hrpc] at hlink
                  simp [State.peer, hlink]
              | lost =>
                  rw [hrpc] at hlink
                  exact ⟨s, -EFAULT, by rw [hlink.2, if_pos (by decide)], rfl⟩
              | unanswered =>
                  rw [hrpc] at hlink
                  exact ⟨s, -EFAULT, by rw [hlink.2, if_pos (by decide)], rfl⟩

end Client
end Peer
end Beyond
