import Beyond.Peer.Config

/-!
# One session

A client talks to one session of the server, the one whose id `ExchangeKey` answered.  `serve` is
what the handlers do to that session and what they answer; `handle_serve` says that a handler that is
called with the id does just that.  `Prepare` also reads the tensor infos that it writes into the
pipeline description, which the handler's model leaves out.
-/

namespace Beyond
namespace Peer

open Errno

/-! ## Tensor infos -/

/-- The two tensor info arrays of a model. -/
inductive Side
  | input
  | output
  deriving DecidableEq, Repr

namespace Model

def info (m : Model) : Side → Option (List TensorInfo)
  | .input => m.inputTensorInfo
  | .output => m.outputTensorInfo

/-- `SetInputTensorInfo` and `SetOutputTensorInfo`. -/
def store (m : Model) (side : Side) (infos : Option (List TensorInfo)) : Model :=
  match side with
  | .input => { m with inputTensorInfo := infos }
  | .output => { m with outputTensorInfo := infos }

@[simp] theorem info_store_same (m : Model) (side : Side) (infos : Option (List TensorInfo)) :
    (m.store side infos).info side = infos := by
  cases side <;> rfl

theorem info_store_ne (m : Model) {side side' : Side} (infos : Option (List TensorInfo))
    (h : side' ≠ side) : (m.store side infos).info side' = m.info side' := by
  cases side <;> cases side' <;> first | rfl | exact absurd rfl h

@[simp] theorem modelPath_store (m : Model) (side : Side) (infos : Option (List TensorInfo)) :
    (m.store side infos).modelPath = m.modelPath := by
  cases side <;> rfl

end Model

@[simp] theorem hasTensorInfo_none : hasTensorInfo none = false := rfl

theorem hasTensorInfo_eq_false_iff {infos : Option (List TensorInfo)} :
    hasTensorInfo infos = false ↔ infos.getD [] = [] := by
  rcases infos with _ | _ | ⟨info, infos⟩ <;> simp [hasTensorInfo]

/-- No tensor info of the array has a null pointer for its dims. -/
def DimsPresent (infos : Option (List TensorInfo)) : Prop :=
  ∀ info ∈ infos.getD [], info.dims ≠ none

instance (infos : Option (List TensorInfo)) : Decidable (DimsPresent infos) :=
  inferInstanceAs (Decidable (∀ info ∈ infos.getD [], info.dims ≠ none))

theorem dimsPresent_none : DimsPresent none := nofun

theorem dimsPresent_map {α : Type*} (f : α → TensorInfo) (xs : List α)
    (h : ∀ x, (f x).dims ≠ none) : DimsPresent (some (xs.map f)) := by
  intro info hinfo
  rcases List.mem_map.1 hinfo with ⟨x, -, rfl⟩
  exact h x

/-! ## Requests -/

/-- The requests that a client makes once it has a session. -/
inductive Request
  | configure (server : ServerDescription)
  | loadModel (filename : Bytes)
  | uploadModel (chunks : List Bytes)
  | getTensorInfo (side : Side)
  | setTensorInfo (side : Side) (request : List GrpcServer.WireTensorInfo)
  | prepare
  | stop
  deriving DecidableEq, Repr

/-- The message that carries a request. -/
def Request.rpc : Request → GrpcServer.Rpc
  | configure server => .configure (GrpcClient.configureRequest server)
  | loadModel filename => .loadModel filename
  | uploadModel chunks => .uploadModel chunks
  | getTensorInfo .input => .getInputTensorInfo
  | getTensorInfo .output => .getOutputTensorInfo
  | setTensorInfo .input request => .setInputTensorInfo request
  | setTensorInfo .output request => .setOutputTensorInfo request
  | prepare => .prepare
  | stop => .stop

namespace GrpcServer

/-- `response.status()`. -/
def Response.status : Response → Int
  | plain status => status
  | exchangeKey status _ => status
  | tensorInfos status _ => status
  | prepared status _ _ => status
  | info _ _ _ => 0

/-- The tensor infos of a response. -/
def Response.infos : Response → List WireTensorInfo
  | tensorInfos _ infos => infos
  | _ => []

namespace Gst

/-- The tensor infos that `Prepare` writes into the pipeline description, if it gets that far. -/
def written (gst : Gst) (side : Side) : Option (List TensorInfo) :=
  if gst.model.modelPath ≠ none ∧ hasTensorInfo (gst.model.info side) then gst.model.info side
  else none

/-- What a request does to the session. -/
def serve (storagePath : Bytes) (env : Env) (gst : Gst) : Request → Except Fault (Gst × Answer)
  | .configure server => .ok (gst.receive server, ⟨.OK, .plain 0⟩)
  | .loadModel filename =>
      let file := Bytes.cstring (modelFile storagePath filename)
      match env.strdupErrno with
      | some errno =>
          .ok ({ gst with model := { gst.model with modelPath := none } }, ⟨.OK, .plain (-errno)⟩)
      | none =>
          .ok ({ gst with model := { gst.model with modelPath := some file } },
            ⟨.OK, .plain (if env.readable file then 0 else -ENOENT)⟩)
  | .uploadModel chunks =>
      match gst.model.modelPath with
      | none => .ok (gst, ⟨⟨.failedPrecondition, "Failed precondition"⟩, .plain 0⟩)
      | some _ =>
          match env.fopenErrno with
          | some errno => .ok (gst, ⟨.OK, .plain (-errno)⟩)
          | none => .ok (gst, ⟨.OK, .plain (uploadStatus env.fwrite 0 chunks)⟩)
  | .getTensorInfo side =>
      if env.debug ∧ hasTensorInfo (gst.model.info side) = false then .error .assertion
      else
        match infoToResponse ((gst.model.info side).getD []) with
        | .error e => .error e
        | .ok wire => .ok (gst, ⟨.OK, .tensorInfos 0 wire⟩)
  | .setTensorInfo side request =>
      match requestToInfo env request with
      | .error ret => .ok (gst, ⟨⟨.internal, "Internal Error"⟩, .plain ret⟩)
      | .ok infos =>
          .ok ({ gst with model := gst.model.store side (some infos) }, ⟨.OK, .plain 0⟩)
  | .prepare =>
      -- `TensorInfoToProperties` reads the dims of every info.
      if DimsPresent (gst.written .input) ∧ DimsPresent (gst.written .output) then
        match gst.prepare env.memory env.prepared with
        | (gst, ret, requestPort, responsePort) =>
            .ok (gst, ⟨.OK, .prepared ret requestPort responsePort⟩)
      else .error .nullDims
  | .stop => .ok (gst, ⟨.OK, .plain env.stop⟩)

end Gst

/-- What is left of the server when one of its sessions has changed. -/
def Server.after (srv : Server) (ref : GstRef) :
    Except Fault (Gst × Answer) → Except Fault (Server × Answer)
  | .error e => .error e
  | .ok (gst, answer) => .ok (srv.setGst ref gst, answer)

theorem Server.setGst_self (srv : Server) (ref : GstRef) : srv.setGst ref (srv.gst ref) = srv := by
  simp [Server.setGst]

theorem onGst_some (srv : Server) (ref : GstRef) (f : Gst → Except Fault (Gst × Answer)) :
    onGst srv (some ref) f = srv.after ref (f (srv.gst ref)) := by
  cases h : f (srv.gst ref) <;> simp [onGst, Server.after, h]

/-- A handler that is called with the id of a session serves that session. -/
theorem handle_serve {srv : Server} {env : Env} {id : Bytes} {ref : GstRef} (r : Request)
    (hid : id ≠ []) (href : srv.clientMap.lookup id = some (some ref))
    (hdims : r = .prepare →
      DimsPresent ((srv.gst ref).written .input) ∧ DimsPresent ((srv.gst ref).written .output)) :
    handle srv env [(keyId, id)] r.rpc =
      srv.after ref ((srv.gst ref).serve srv.storagePath env r) := by
  have hclient := Server.client_of_lookup href
  have hgst : getGst srv [(keyId, id)] = (srv, .ok (some ref)) := by simp [getGst, hid, hclient]
  cases r with
  | configure server => exact handle_configureRequest server hid href
  | loadModel filename =>
      simp only [Request.rpc, handle, loadModel, withGst, hgst]
      exact onGst_some srv ref _
  | uploadModel chunks =>
      simp only [Request.rpc, handle, uploadModel, withGst, hgst]
      exact onGst_some srv ref _
  | getTensorInfo side =>
      cases side <;>
      · simp only [Request.rpc, handle, getInputTensorInfo, getOutputTensorInfo, getTensorInfo,
          withGst, hgst]
        exact onGst_some srv ref _
  | setTensorInfo side request =>
      cases side <;>
      · simp only [Request.rpc, handle, setInputTensorInfo, setOutputTensorInfo, setTensorInfo,
          withGst, hgst, onGst_some, Gst.serve, Model.store]
        -- An array that could not be made leaves the server as it was.
        cases requestToInfo env request with
        | error ret => simp [Server.after, Server.setGst_self]
        | ok infos => rfl
  | prepare =>
      simp only [Request.rpc, handle, prepare, withGst, hgst, onGst_some, Gst.serve, hdims rfl,
        and_self, if_true]
  | stop => simp only [Request.rpc, handle, stop, withGst, hgst, onGst_some, Gst.serve]

end GrpcServer
end Peer
end Beyond
