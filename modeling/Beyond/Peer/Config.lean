import Mathlib.Data.List.Infix
import Beyond.Base.Latest
import Beyond.Peer.GrpcServer

/-!
# Configuration of a client peer

`Peer::ConfigureInput` takes an input configuration, from which it builds the descriptions of both
pipelines, or a plugin configuration, which holds them.  Before `Activate` the descriptions are
reserved; afterwards the server's go to its session in a message, and the client's to the client's
`Gst` directly.
-/

namespace Beyond
namespace Peer

open Errno

/-! ## Configurations -/

/-- `beyond_plugin_peer_nn_config::client_description`; the texts are pointers. -/
structure ClientDescription where
  inputType : Int
  preprocessing : Option Bytes
  postprocessing : Option Bytes
  deriving DecidableEq, Repr

/-- `beyond_plugin_peer_nn_config`. -/
structure PluginConfig where
  client : ClientDescription
  server : ServerDescription
  deriving DecidableEq, Repr

/-- `beyond_input_image_config`; the texts are pointers. -/
structure ImageConfig where
  format : Option Bytes
  width : Int
  height : Int
  convertFormat : Option Bytes
  convertWidth : Int
  convertHeight : Int
  transformMode : Option Bytes
  transformOption : Option Bytes
  deriving DecidableEq, Repr

/-- `beyond_input_config`: its `input_type` tells which member of the union is meant. -/
inductive InputConfig
  | image (image : ImageConfig)
  | video (frame : ImageConfig) (fps : Int)
  | unsupported
  deriving DecidableEq, Repr

/-- What `Configure` is called with. -/
inductive Options
  | input (config : InputConfig)
  | plugin (config : PluginConfig)
  deriving DecidableEq, Repr

/-- An input configuration for images or video has a format.  `strstr` reads it, and a call with a
null pointer does not return. -/
def Options.readable : Options → Bool
  | .input (.image c) => c.format.isSome
  | .input (.video c _) => c.format.isSome
  | _ => true

/-! ## Descriptions built from an input configuration -/

/-- What an `ostringstream` holds behind these insertions.  A null pointer sets its `badbit`, and from
there on it takes nothing. -/
def streamed : List (Option Bytes) → Bytes
  | [] => []
  | none :: _ => []
  | some text :: rest => text ++ streamed rest

/-- The client's part, for the given frame rate and encoder. -/
def clientFormat (format : Bytes) (c : ImageConfig) (framerate encoder : Bytes) : Bytes :=
  Bytes.ascii "video/x-raw,format=" ++ format ++ Bytes.ascii ",width=" ++ Bytes.integer c.width ++
    Bytes.ascii ",height=" ++ Bytes.integer c.height ++ Bytes.ascii ",framerate=" ++ framerate ++
    if Bytes.ascii "I420" <:+: format then Bytes.ascii " ! " ++ encoder
    else Bytes.ascii " ! videoconvert ! video/x-raw,format=I420 ! " ++ encoder

/-- The server's part, behind the given decoder, as it is inserted. -/
def serverFormat (c : ImageConfig) (decoder : Bytes) : List (Option Bytes) :=
  [some (decoder ++ Bytes.ascii " ! videoconvert" ++
      (if c.width ≠ c.convertWidth ∨ c.height ≠ c.convertHeight then Bytes.ascii " ! videoscale "
        else []) ++
      Bytes.ascii " ! video/x-raw,format="),
    c.convertFormat,
    some (Bytes.ascii ",width=" ++ Bytes.integer c.convertWidth ++
      Bytes.ascii ",height=" ++ Bytes.integer c.convertHeight ++
      Bytes.ascii " ! tensor_converter" ++
      match c.transformMode, c.transformOption with
      | some mode, some option =>
          Bytes.ascii " ! tensor_transform mode=" ++ mode ++ Bytes.ascii " option=" ++ option
      | _, _ => [])]

def configureImageInput (c : ImageConfig) (h : c.format.isSome = true) :
    Bytes × List (Option Bytes) :=
  (clientFormat (c.format.get h) c (Bytes.ascii "0/1") (Bytes.ascii "jpegenc"),
    serverFormat c (Bytes.ascii "jpegdec"))

def configureVideoInput (c : ImageConfig) (fps : Int) (h : c.format.isSome = true) :
    Bytes × List (Option Bytes) :=
  (clientFormat (c.format.get h) c (Bytes.integer fps ++ Bytes.ascii "/1") (Bytes.ascii "vp8enc"),
    serverFormat c (Bytes.ascii "vp8dec"))

/-! ## The two ends of a session -/

namespace GrpcClient

structure RtpConfig where
  payloader : Bytes
  encodingName : Bytes
  payload : Int
  deriving DecidableEq, Repr

/-- `Peer::GrpcClient::Gst`, without its pipeline thread.  `rtpConfig` is `none` until an input type
that needs it is set. -/
structure Gst where
  peerId : Bytes
  nonce : UInt64
  secretKey : Bytes := []
  rtpConfig : Option RtpConfig := none
  preprocessing : Bytes := []
  postprocessing : Bytes := []
  deriving DecidableEq, Repr

/-- `Gst::Configure`. -/
def Gst.configure (gst : Gst) (client : ClientDescription) : Gst :=
  { gst with
    rtpConfig :=
      if client.inputType = GrpcServer.inputTypeImage then
        some ⟨Bytes.ascii "rtpjpegpay", Bytes.ascii "JPEG", 26⟩
      else if client.inputType = GrpcServer.inputTypeVideo then
        some ⟨Bytes.ascii "rtpvp8pay", Bytes.ascii "VP8", 96⟩
      else gst.rtpConfig
    preprocessing := client.preprocessing.getD gst.preprocessing
    postprocessing := client.postprocessing.getD gst.postprocessing }

/-- The message of `GrpcClient::Configure`.  A field that is not set is an empty text. -/
def configureRequest (server : ServerDescription) : GrpcServer.Configuration :=
  { inputType := server.inputType
    preprocessing := server.preprocessing.getD []
    postprocessing := server.postprocessing.getD []
    framework := server.framework.getD []
    accel := server.accel.getD [] }

end GrpcClient

/-- What the handler of `Configure` hands to its session for a message. -/
def receivedConfig (request : GrpcServer.Configuration) : ServerDescription :=
  { inputType := request.inputType
    preprocessing := some (Bytes.cstring request.preprocessing)
    postprocessing := some (Bytes.cstring request.postprocessing)
    framework := some (Bytes.cstring request.framework)
    accel := some (Bytes.cstring request.accel) }

/-- What a server description does to the session it is sent to. -/
def GrpcServer.Gst.receive (gst : GrpcServer.Gst) (server : ServerDescription) : GrpcServer.Gst :=
  gst.configure (receivedConfig (GrpcClient.configureRequest server))

/-- The handler of the message does just that to the session of its id. -/
theorem handle_configureRequest {srv : GrpcServer.Server} {env : GrpcServer.Env} {id : Bytes}
    {ref : GrpcServer.GstRef} (server : ServerDescription) (hid : id ≠ [])
    (href : srv.clientMap.lookup id = some (some ref)) :
    GrpcServer.handle srv env [(GrpcServer.keyId, id)]
        (.configure (GrpcClient.configureRequest server)) =
      .ok (srv.setGst ref ((srv.gst ref).receive server), ⟨.OK, .plain 0⟩) := by
  have hclient := GrpcServer.Server.client_of_lookup href
  simp [GrpcServer.handle, GrpcServer.configure, GrpcServer.withGst, GrpcServer.getGst,
    GrpcServer.keyId, hid, hclient, GrpcServer.onGst, GrpcServer.Gst.receive, receivedConfig]

/-- A client's `Gst` and the session on the server that it belongs to. -/
structure Link where
  client : GrpcClient.Gst
  server : GrpcServer.Gst
  deriving DecidableEq, Repr

/-- What `ExchangeKey` agreed on. -/
structure Exchange where
  peerId : Bytes
  nonce : UInt64
  secret : Bytes
  deriving DecidableEq, Repr

/-- Both ends as `ExchangeKey` leaves them. -/
def Exchange.link (e : Exchange) : Link :=
  { client := { peerId := e.peerId, nonce := e.nonce, secretKey := e.secret }
    server := { peerId := e.peerId, nonce := e.nonce, secretKey := e.secret } }

/-! ## The peer -/

/-- What the configuration calls use of a client `Peer`; `grpc` is set while it is active. -/
structure ClientPeer where
  framework : Bytes := []
  accel : Bytes := []
  reservedConfiguration : Option PluginConfig := none
  grpc : Option Link := none
  deriving DecidableEq, Repr

/-- What happens to a request: it is answered, it does not arrive, or its answer does not. -/
inductive RpcOutcome
  | answered
  | lost
  | unanswered
  deriving DecidableEq, Repr

/-- One call of `Configure` that returns: its argument, whether the descriptions of an input
configuration and the copy of a configuration could be allocated, and what happens to the request. -/
structure ConfigureCall where
  options : Options
  readable : options.readable = true := by rfl
  formats : Bool := true
  duplicate : Bool := true
  rpc : RpcOutcome := .answered
  deriving DecidableEq, Repr

namespace ClientPeer

/-- `Peer::Create` for a client. -/
def create (framework accel : Option Bytes) : ClientPeer :=
  match framework with
  | none => {}
  | some framework =>
      { framework := framework
        accel := accel.getD []
        reservedConfiguration := some ⟨⟨0, none, none⟩, ⟨0, none, none, some framework, accel⟩⟩ }

/-- The descriptions of an input configuration; the framework and the accelerator are those that the
peer was created with. -/
def inputOptions (p : ClientPeer) (inputType : Int) (formats : Bytes × List (Option Bytes)) :
    PluginConfig :=
  { client := ⟨inputType, some formats.1, none⟩
    server :=
      { inputType := inputType
        preprocessing := some (streamed (formats.2 ++ [some (Bytes.ascii " !")]))
        postprocessing := none
        framework := some (if p.framework = [] then Bytes.ascii "tensorflow-lite" else p.framework)
        accel := some p.accel } }

/-- `_options` of `ConfigureInput`. -/
def options (p : ClientPeer) (call : ConfigureCall) : Except Int PluginConfig :=
  match call.options, call.readable with
  | .input .unsupported, _ => .error (-ENOTSUP)
  | .input (.image c), h =>
      if call.formats = false then .error (-ENOMEM)
      else .ok (p.inputOptions GrpcServer.inputTypeImage (configureImageInput c h))
  | .input (.video c fps), h =>
      if call.formats = false then .error (-ENOMEM)
      else .ok (p.inputOptions GrpcServer.inputTypeVideo (configureVideoInput c fps h))
  | .plugin config, _ => .ok config

/-- `DuplicateConfig`: the copy has the client's input type on both sides. -/
def duplicateConfig (config : PluginConfig) : PluginConfig :=
  { config with server := { config.server with inputType := config.client.inputType } }

@[simp] theorem client_duplicateConfig (config : PluginConfig) :
    (duplicateConfig config).client = config.client := rfl

def configureInput (p : ClientPeer) (call : ConfigureCall) : ClientPeer × Int :=
  match p.options call with
  | .error ret => (p, ret)
  | .ok config =>
      match p.grpc with
      | none =>
          -- A copy that could not be made is not reported.
          if call.duplicate = false then (p, 0)
          else ({ p with reservedConfiguration := some (duplicateConfig config) }, 0)
      | some link =>
          match call.rpc with
          | .lost => (p, -EFAULT)
          | .unanswered =>
              ({ p with grpc := some { link with server := link.server.receive config.server } },
                -EFAULT)
          | .answered =>
              let link : Link :=
                ⟨link.client.configure config.client, link.server.receive config.server⟩
              ({ p with grpc := some link }, 0)

/-- `Peer::Activate` on a client, from `ExchangeKey` on: its result, and what happens to the request
for the reserved configuration. -/
def activate (p : ClientPeer) (exchanged : Except Int Exchange) (rpc : RpcOutcome) :
    ClientPeer × Int :=
  match p.grpc, exchanged with
  | some _, _ => (p, -EALREADY)
  | none, .error ret => (p, ret)
  | none, .ok e =>
      match p.reservedConfiguration with
      | none => ({ p with grpc := some e.link }, 0)
      | some config =>
          match rpc with
          | .answered =>
              let link : Link :=
                ⟨e.link.client.configure config.client, e.link.server.receive config.server⟩
              ({ p with grpc := some link, reservedConfiguration := none }, 0)
          -- The session that the server may have is given up.
          | _ => (p, -EFAULT)

def configureAll (p : ClientPeer) (calls : List ConfigureCall) : ClientPeer :=
  calls.foldl (fun p call => (p.configureInput call).1) p

end ClientPeer

/-! ## What one description changes -/

/-- The input types for which the pipelines have an RTP payload. -/
inductive Media
  | image
  | video
  deriving DecidableEq, Repr

def mediaOf (inputType : Int) : Option Media :=
  if inputType = GrpcServer.inputTypeImage then some .image
  else if inputType = GrpcServer.inputTypeVideo then some .video
  else none

def Media.clientRtp : Media → GrpcClient.RtpConfig
  | image => ⟨Bytes.ascii "rtpjpegpay", Bytes.ascii "JPEG", 26⟩
  | video => ⟨Bytes.ascii "rtpvp8pay", Bytes.ascii "VP8", 96⟩

def Media.serverRtp : Media → GrpcServer.RtpConfig
  | image => ⟨Bytes.ascii "rtpjpegdepay", Bytes.ascii "JPEG", 26⟩
  | video => ⟨Bytes.ascii "rtpvp8depay", Bytes.ascii "VP8", 96⟩

theorem Media.clientRtp_injective : Function.Injective Media.clientRtp := by
  intro a b h
  cases a <;> cases b <;> first | rfl | exact absurd h (by decide)

theorem Media.serverRtp_injective : Function.Injective Media.serverRtp := by
  intro a b h
  cases a <;> cases b <;> first | rfl | exact absurd h (by decide)

namespace GrpcClient.Gst

variable (gst : Gst) (c : ClientDescription)

theorem rtpConfig_configure :
    (gst.configure c).rtpConfig = ((mediaOf c.inputType).map Media.clientRtp).or gst.rtpConfig := by
  unfold configure mediaOf
  dsimp only
  split
  · rfl
  · split <;> rfl

@[simp] theorem preprocessing_configure :
    (gst.configure c).preprocessing = c.preprocessing.getD gst.preprocessing := rfl

@[simp] theorem postprocessing_configure :
    (gst.configure c).postprocessing = c.postprocessing.getD gst.postprocessing := rfl

@[simp] theorem secretKey_configure : (gst.configure c).secretKey = gst.secretKey := rfl

@[simp] theorem peerId_configure : (gst.configure c).peerId = gst.peerId := rfl

end GrpcClient.Gst

namespace GrpcServer.Gst

variable (gst : Gst) (s : ServerDescription)

theorem rtpConfig_receive :
    (gst.receive s).rtpConfig = ((mediaOf s.inputType).map Media.serverRtp).or gst.rtpConfig := by
  change (if s.inputType = inputTypeImage then _ else if s.inputType = inputTypeVideo then _ else _) = _
  unfold mediaOf
  split
  · rfl
  · split <;> rfl

@[simp] theorem preprocessing_receive :
    (gst.receive s).preprocessing = Bytes.cstring (s.preprocessing.getD []) := rfl

@[simp] theorem postprocessing_receive :
    (gst.receive s).postprocessing = Bytes.cstring (s.postprocessing.getD []) := rfl

@[simp] theorem secretKey_receive : (gst.receive s).secretKey = gst.secretKey := rfl

@[simp] theorem peerId_receive : (gst.receive s).peerId = gst.peerId := rfl

end GrpcServer.Gst

/-! ## What all calls change -/

namespace ClientPeer

/-- The copy that a call reserves, while the peer is not active. -/
def reserves (p : ClientPeer) (call : ConfigureCall) : Option PluginConfig :=
  match p.options call with
  | .error _ => none
  | .ok config => if call.duplicate = false then none else some (duplicateConfig config)

/-- What a call gives to the client's `Gst`, while the peer is active. -/
def givesClient (p : ClientPeer) (call : ConfigureCall) : Option ClientDescription :=
  match p.options call with
  | .error _ => none
  | .ok config => if call.rpc = .answered then some config.client else none

/-- What a call gives to the session on the server. -/
def givesServer (p : ClientPeer) (call : ConfigureCall) : Option ServerDescription :=
  match p.options call with
  | .error _ => none
  | .ok config => if call.rpc = .lost then none else some config.server

variable {p q : ClientPeer}

theorem options_congr (hf : q.framework = p.framework) (ha : q.accel = p.accel)
    (call : ConfigureCall) : q.options call = p.options call := by
  unfold options inputOptions
  rw [hf, ha]

theorem reserves_congr (hf : q.framework = p.framework) (ha : q.accel = p.accel) :
    q.reserves = p.reserves := by
  funext call
  unfold reserves
  rw [options_congr hf ha]

theorem givesClient_congr (hf : q.framework = p.framework) (ha : q.accel = p.accel) :
    q.givesClient = p.givesClient := by
  funext call
  unfold givesClient
  rw [options_congr hf ha]

theorem givesServer_congr (hf : q.framework = p.framework) (ha : q.accel = p.accel) :
    q.givesServer = p.givesServer := by
  funext call
  unfold givesServer
  rw [options_congr hf ha]

theorem configureInput_inactive (h : p.grpc = none) (call : ConfigureCall) :
    (p.configureInput call).1 =
      { p with reservedConfiguration := (p.reserves call).or p.reservedConfiguration } := by
  rcases p with ⟨framework, accel, reserved, grpc⟩
  cases h
  unfold configureInput reserves
  cases options _ call with
  | error ret => rfl
  | ok config => cases call.duplicate <;> simp

theorem configureInput_active {link : Link} (h : p.grpc = some link) (call : ConfigureCall) :
    (p.configureInput call).1 =
      { p with
        grpc := some
          ⟨(p.givesClient call).toList.foldl GrpcClient.Gst.configure link.client,
            (p.givesServer call).toList.foldl GrpcServer.Gst.receive link.server⟩ } := by
  rcases p with ⟨framework, accel, reserved, grpc⟩
  cases h
  unfold configureInput givesClient givesServer
  cases options _ call with
  | error ret => rfl
  | ok config => cases call.rpc <;> simp

theorem configureAll_cons (p : ClientPeer) (call : ConfigureCall) (calls : List ConfigureCall) :
    p.configureAll (call :: calls) = (p.configureInput call).1.configureAll calls := rfl

theorem configureAll_inactive (h : p.grpc = none) (calls : List ConfigureCall) :
    p.configureAll calls =
      { p with
        reservedConfiguration := (latest (calls.map p.reserves)).or p.reservedConfiguration } := by
  induction calls generalizing p with
  | nil => rfl
  | cons call calls ih =>
      have hstep := configureInput_inactive h call
      -- The call leaves everything that `reserves` looks at.
      have hreserves : (p.configureInput call).1.reserves = p.reserves :=
        reserves_congr (by rw [hstep]) (by rw [hstep])
      rw [configureAll_cons, ih (by rw [hstep]; exact h), hreserves, hstep]
      simp [Option.or_assoc]

theorem configureAll_active {link : Link} (h : p.grpc = some link) (calls : List ConfigureCall) :
    p.configureAll calls =
      { p with
        grpc := some
          ⟨(calls.filterMap p.givesClient).foldl GrpcClient.Gst.configure link.client,
            (calls.filterMap p.givesServer).foldl GrpcServer.Gst.receive link.server⟩ } := by
  induction calls generalizing p link with
  | nil =>
      rcases p with ⟨framework, accel, reserved, grpc⟩
      cases h
      rfl
  | cons call calls ih =>
      have hstep := configureInput_active h call
      have hclient : (p.configureInput call).1.givesClient = p.givesClient :=
        givesClient_congr (by rw [hstep]) (by rw [hstep])
      have hserver : (p.configureInput call).1.givesServer = p.givesServer :=
        givesServer_congr (by rw [hstep]) (by rw [hstep])
      rw [configureAll_cons, ih (by rw [hstep]), hclient, hserver, hstep]
      cases hc : p.givesClient call <;> cases hs : p.givesServer call <;> simp [hc, hs]

theorem activate_inactive (h : p.grpc = none) (e : Exchange) :
    (p.activate (.ok e) .answered).1 =
      { p with
        reservedConfiguration := none
        grpc := some
          ⟨(p.reservedConfiguration.toList.map PluginConfig.client).foldl
              GrpcClient.Gst.configure e.link.client,
            (p.reservedConfiguration.toList.map PluginConfig.server).foldl
              GrpcServer.Gst.receive e.link.server⟩ } := by
  rcases p with ⟨framework, accel, reserved, grpc⟩
  cases h
  cases reserved <;> rfl

/-! ## A whole session -/

/-- Calls of `Configure`, an activation that succeeds, and more calls of `Configure`. -/
def session (p : ClientPeer) (before : List ConfigureCall) (e : Exchange)
    (after : List ConfigureCall) : ClientPeer :=
  ((p.configureAll before).activate (.ok e) .answered).1.configureAll after

/-- What is reserved when the peer is activated. -/
def reservedBy (p : ClientPeer) (before : List ConfigureCall) : Option PluginConfig :=
  (latest (before.map p.reserves)).or p.reservedConfiguration

/-- The descriptions that the client's `Gst` gets in a session. -/
def clientDescriptions (p : ClientPeer) (before after : List ConfigureCall) :
    List ClientDescription :=
  (p.reservedBy before).toList.map PluginConfig.client ++ after.filterMap p.givesClient

/-- The descriptions that the session on the server gets. -/
def serverDescriptions (p : ClientPeer) (before after : List ConfigureCall) :
    List ServerDescription :=
  (p.reservedBy before).toList.map PluginConfig.server ++ after.filterMap p.givesServer

theorem grpc_session (h : p.grpc = none) (before : List ConfigureCall) (e : Exchange)
    (after : List ConfigureCall) :
    (p.session before e after).grpc = some
      ⟨(p.clientDescriptions before after).foldl GrpcClient.Gst.configure e.link.client,
        (p.serverDescriptions before after).foldl GrpcServer.Gst.receive e.link.server⟩ := by
  have hbefore := configureAll_inactive h before
  have hgrpc : (p.configureAll before).grpc = none := by rw [hbefore]; exact h
  have hactive := activate_inactive hgrpc e
  have hclient : ((p.configureAll before).activate (.ok e) .answered).1.givesClient =
      p.givesClient := givesClient_congr (by rw [hactive, hbefore]) (by rw [hactive, hbefore])
  have hserver : ((p.configureAll before).activate (.ok e) .answered).1.givesServer =
      p.givesServer := givesServer_congr (by rw [hactive, hbefore]) (by rw [hactive, hbefore])
  have hafter := configureAll_active (congrArg ClientPeer.grpc hactive) after
  rw [session, hafter, hclient, hserver, hbefore]
  simp [clientDescriptions, serverDescriptions, reservedBy, List.foldl_append]

theorem grpc_create (framework accel : Option Bytes) : (create framework accel).grpc = none := by
  cases framework <;> rfl

end ClientPeer

end Peer
end Beyond
