import Beyond.Base.Bytes
import Beyond.Base.Platform

/-!
# Sessions of the peer server

A session is a `Peer::GrpcServer::Gst` object: the secret and the nonce that `ExchangeKey` stored,
the configuration, and the `Peer::Model` with the model path and the tensor shapes.  The GStreamer
thread that a session owns is represented by what a `Prepare` command brings back from it.
-/

namespace Beyond
namespace Peer

open Errno

/-- `beyond_tensor_info`; `dims` is a pointer. -/
structure TensorInfo where
  type : Int
  size : Int
  name : Option Bytes
  dims : Option (List Int)
  deriving DecidableEq, Repr

/-- `Peer::Model`.  A tensor info array is a pointer together with its element count. -/
structure Model where
  modelPath : Option Bytes := none
  inputTensorInfo : Option (List TensorInfo) := none
  outputTensorInfo : Option (List TensorInfo) := none
  deriving DecidableEq, Repr

/-- `info != nullptr && size > 0`. -/
def hasTensorInfo (info : Option (List TensorInfo)) : Bool :=
  match info with
  | some (_ :: _) => true
  | _ => false

/-- `beyond_plugin_peer_nn_config::server_description`; the texts are pointers. -/
structure ServerDescription where
  inputType : Int
  preprocessing : Option Bytes
  postprocessing : Option Bytes
  framework : Option Bytes
  accel : Option Bytes
  deriving DecidableEq, Repr

namespace GrpcServer

structure RtpConfig where
  depayloader : Bytes
  encodingName : Bytes
  payload : Int
  deriving DecidableEq, Repr

def inputTypeVideo : Int := 0x01
def inputTypeImage : Int := 0x02

/-- `Peer::GrpcServer::Gst`.  `rtpConfig` is `none` until an input type that needs it is set. -/
structure Gst where
  peerId : Bytes
  nonce : UInt64
  secretKey : Bytes := []
  framework : Bytes := Bytes.ascii "tensorflow-lite"
  accel : Bytes := []
  rtpConfig : Option RtpConfig := none
  preprocessing : Bytes := []
  postprocessing : Bytes := []
  model : Model := {}
  deriving DecidableEq, Repr

namespace Gst

def getNonce (gst : Gst) : UInt64 := gst.nonce

def setNonce (gst : Gst) (nonce : UInt64) : Gst := { gst with nonce := nonce }

def setSecret (gst : Gst) (secret : Bytes) : Gst := { gst with secretKey := secret }

/-- `Gst::Configure`. -/
def configure (gst : Gst) (server : ServerDescription) : Gst :=
  { gst with
    rtpConfig :=
      if server.inputType = inputTypeImage then
        some ⟨Bytes.ascii "rtpjpegdepay", Bytes.ascii "JPEG", 26⟩
      else if server.inputType = inputTypeVideo then
        some ⟨Bytes.ascii "rtpvp8depay", Bytes.ascii "VP8", 96⟩
      else gst.rtpConfig
    preprocessing := server.preprocessing.getD gst.preprocessing
    postprocessing := server.postprocessing.getD gst.postprocessing
    framework :=
      match server.framework with
      | some (c :: cs) => c :: cs
      | _ => Bytes.ascii "tensorflow-lite"
    accel :=
      match server.accel with
      | some (c :: cs) => Bytes.ascii "accelerator=true:" ++ (c :: cs)
      | _ => Bytes.ascii "accelerator=true:gpu" }

/-- What comes back for one `Prepare` command: the result of `Send` and `Recv`, the status and the
ports that the pipeline thread filled in, and the tensor infos that it could extract. -/
structure Prepared where
  send : Int
  recv : Int
  status : Int
  requestPort : Int
  responsePort : Int
  input : Option (List TensorInfo)
  output : Option (List TensorInfo)
  deriving DecidableEq, Repr

/-- The part of `CommandHandlerPrepare` that writes the session: infos that are still missing are
taken from the tensor filter, once the pipeline is playing. -/
def commandHandlerPrepare (gst : Gst) (p : Prepared) : Gst :=
  if p.status = 0 then
    { gst with
      model :=
        { gst.model with
          inputTensorInfo :=
            if hasTensorInfo gst.model.inputTensorInfo then gst.model.inputTensorInfo
            else p.input.or gst.model.inputTensorInfo
          outputTensorInfo :=
            if hasTensorInfo gst.model.outputTensorInfo then gst.model.outputTensorInfo
            else p.output.or gst.model.outputTensorInfo } }
  else gst

/-- `Gst::Prepare`: return code, request port and response port.  `memory` says that `new` and
`g_strdup_printf` succeed. -/
def prepare (gst : Gst) (memory : Bool) (p : Prepared) : Gst × (Int × Int × Int) :=
  match gst.model.modelPath with
  | none => (gst, -EILSEQ, 0, 0)
  | some _ =>
      if memory = false then (gst, -ENOMEM, 0, 0)
      else if p.send < 0 then (gst, p.send, 0, 0)
      else
        let gst := gst.commandHandlerPrepare p
        if p.recv < 0 then (gst, p.recv, 0, 0)
        else (gst, p.status, p.requestPort, p.responsePort)

/-! Only `setNonce` writes the nonce. -/

@[simp] theorem nonce_setNonce (gst : Gst) (n : UInt64) : (gst.setNonce n).nonce = n := rfl

@[simp] theorem nonce_setSecret (gst : Gst) (s : Bytes) : (gst.setSecret s).nonce = gst.nonce := rfl

@[simp] theorem secretKey_setNonce (gst : Gst) (n : UInt64) :
    (gst.setNonce n).secretKey = gst.secretKey := rfl

@[simp] theorem secretKey_setSecret (gst : Gst) (s : Bytes) :
    (gst.setSecret s).secretKey = s := rfl

@[simp] theorem nonce_configure (gst : Gst) (d : ServerDescription) :
    (gst.configure d).nonce = gst.nonce := rfl

/-! An absent text and an empty one are both replaced by the default. -/

theorem framework_configure (gst : Gst) (d : ServerDescription) :
    (gst.configure d).framework =
      if d.framework.getD [] = [] then Bytes.ascii "tensorflow-lite" else d.framework.getD [] := by
  unfold configure
  rcases d.framework with _ | _ | ⟨c, cs⟩ <;> simp

theorem accel_configure (gst : Gst) (d : ServerDescription) :
    (gst.configure d).accel =
      if d.accel.getD [] = [] then Bytes.ascii "accelerator=true:gpu"
      else Bytes.ascii "accelerator=true:" ++ d.accel.getD [] := by
  unfold configure
  rcases d.accel with _ | _ | ⟨c, cs⟩ <;> simp

@[simp] theorem nonce_commandHandlerPrepare (gst : Gst) (p : Prepared) :
    (gst.commandHandlerPrepare p).nonce = gst.nonce := by
  unfold commandHandlerPrepare
  split <;> rfl

@[simp] theorem nonce_prepare (gst : Gst) (memory : Bool) (p : Prepared) :
    (gst.prepare memory p).1.nonce = gst.nonce := by
  unfold prepare
  split
  · rfl
  · split
    · rfl
    · split
      · rfl
      · dsimp only
        split <;> simp

end Gst

end GrpcServer
end Peer
end Beyond
