import Beyond.Peer.TensorArray

/-!
# What the calls can do to an active client

The requests of a session change its model in few ways, and the client changes its own model only
when it stores or drops tensor infos.  A property of the client together with its session that
survives these is kept by every call of the peer.
-/

namespace Beyond
namespace Peer
namespace Client

open Errno GrpcServer

variable {sp : Bytes}

/-! ## Requests -/

theorem cachedInfo_congr {g g' : Grpc} (h : g'.gst = g.gst) : g'.cachedInfo = g.cachedInfo := by
  funext side
  rw [Grpc.cachedInfo, Grpc.cachedInfo, h]

theorem cachedInfo_of_gst {g : Grpc} {gst : ClientGst} (h : g.gst = some gst) (side : Side) :
    g.cachedInfo side = gst.model.info side := by
  simp [Grpc.cachedInfo, h]

/-- The model path that a session has when it has served `LoadModel`. -/
def pathLoaded (sp : Bytes) (env : Env) (filename : Bytes) : Option Bytes :=
  match env.strdupErrno with
  | some _ => none
  | none => some (Bytes.cstring (modelFile sp filename))

/-- The client once the session has served a request: only the ghost beside the session changes. -/
def Grpc.served (g : Grpc) (env : Env) (r : Request) (session : GrpcServer.Gst) : Grpc :=
  { g with
      session := session
      recorded := fun side =>
        if writes env g.session session r side then session.model.modelPath else g.recorded side }

@[simp] theorem Grpc.session_served (g : Grpc) (env : Env) (r : Request)
    (session : GrpcServer.Gst) : (g.served env r session).session = session := rfl

/-- A request that is not served changes nothing. -/
theorem request_cases {t : Transit} {g g' : Grpc} {r : Request} {response : Option Response}
    (h : g.request sp t r = .ok (g', response)) :
    (t.outcome = .lost ∧ g' = g ∧ response = none) ∨
      ∃ session answer, t.outcome ≠ .lost ∧ g.session.serve sp t.env r = .ok (session, answer) ∧
        g' = g.served t.env r session ∧
        ∀ a, response = some a → a = answer.response ∧ answer.status.code = .ok := by
  unfold Grpc.request at h
  split at h
  · rename_i hlost
    cases h
    exact Or.inl ⟨hlost, rfl, rfl⟩
  · rename_i hlost
    split at h
    · cases h
    · rename_i session answer hserve
      cases h
      refine Or.inr ⟨session, answer, hlost, hserve, rfl, ?_⟩
      intro a ha
      split at ha
      · rename_i hanswered
        exact ⟨(Option.some.inj ha).symm, hanswered.2⟩
      · cases ha

theorem request_gst {t : Transit} {g g' : Grpc} {r : Request} {response : Option Response}
    (h : g.request sp t r = .ok (g', response)) : g'.gst = g.gst := by
  rcases request_cases h with ⟨-, rfl, -⟩ | ⟨_, _, -, -, rfl, -⟩ <;> rfl

theorem prepare_model (gst : GrpcServer.Gst) (memory : Bool) (p : Gst.Prepared) :
    (gst.prepare memory p).1.model.modelPath = gst.model.modelPath ∧
      ∀ side, hasTensorInfo (gst.model.info side) = true →
        (gst.prepare memory p).1.model.info side = gst.model.info side := by
  have hhandler : (gst.commandHandlerPrepare p).model.modelPath = gst.model.modelPath ∧
      ∀ side, hasTensorInfo (gst.model.info side) = true →
        (gst.commandHandlerPrepare p).model.info side = gst.model.info side := by
    unfold Gst.commandHandlerPrepare
    split
    · refine ⟨rfl, fun side h => ?_⟩
      cases side <;> simp_all [Model.info]
    · exact ⟨rfl, fun _ _ => rfl⟩
  unfold Gst.prepare
  split
  · exact ⟨rfl, fun _ _ => rfl⟩
  · split
    · exact ⟨rfl, fun _ _ => rfl⟩
    · split
      · exact ⟨rfl, fun _ _ => rfl⟩
      · dsimp only
        split <;> exact hhandler

theorem serve_loadModel {env : Env} {gst session : GrpcServer.Gst} {filename : Bytes}
    {answer : Answer} (h : gst.serve sp env (.loadModel filename) = .ok (session, answer)) :
    session.model = { gst.model with modelPath := pathLoaded sp env filename } := by
  unfold GrpcServer.Gst.serve at h
  unfold pathLoaded
  cases henv : env.strdupErrno with
  | some errno =>
      rw [henv] at h
      cases h
      rfl
  | none =>
      rw [henv] at h
      cases h
      rfl

/-- The requests that leave the model of the session alone. -/
def keepsModel : Request → Bool
  | .loadModel _ | .setTensorInfo _ _ | .prepare => false
  | .configure _ | .uploadModel _ | .getTensorInfo _ | .stop => true

theorem serve_keepsModel {env : Env} {gst session : GrpcServer.Gst} {r : Request} {answer : Answer}
    (hr : keepsModel r = true) (h : gst.serve sp env r = .ok (session, answer)) :
    session.model = gst.model ∧ ∀ side, writes env gst session r side = false := by
  refine ⟨?_, fun side => by cases r <;> first | rfl | cases hr⟩
  unfold GrpcServer.Gst.serve at h
  cases r with
  | configure server =>
      cases h
      rfl
  | uploadModel chunks =>
      dsimp only at h
      split at h
      · cases h
        rfl
      · split at h <;> cases h <;> rfl
  | getTensorInfo side =>
      dsimp only at h
      split at h
      · cases h
      · split at h <;> cases h
        rfl
  | stop =>
      cases h
      rfl
  | loadModel filename => cases hr
  | setTensorInfo side request => cases hr
  | prepare => cases hr

theorem serve_prepare {env : Env} {gst session : GrpcServer.Gst} {answer : Answer}
    (h : gst.serve sp env .prepare = .ok (session, answer)) :
    session = (gst.prepare env.memory env.prepared).1 := by
  unfold GrpcServer.Gst.serve at h
  dsimp only at h
  split at h
  · cases h
    rfl
  · cases h

/-- Either the array could not be made, or the session stores it. -/
theorem serve_setTensorInfo {env : Env} {gst session : GrpcServer.Gst} {side : Side}
    {wire : List WireTensorInfo} {answer : Answer}
    (h : gst.serve sp env (.setTensorInfo side wire) = .ok (session, answer)) :
    ((session = gst ∧ answer.status.code ≠ .ok) ∧
        ∀ side', writes env gst session (.setTensorInfo side wire) side' = false) ∨
      (∃ infos, requestToInfo env wire = .ok infos ∧
          session.model = gst.model.store side (some infos)) ∧
        ∀ side',
          writes env gst session (.setTensorInfo side wire) side' = decide (side = side') := by
  unfold GrpcServer.Gst.serve at h
  dsimp only at h
  cases hinfo : requestToInfo env wire with
  | error ret =>
      rw [hinfo] at h
      cases h
      exact Or.inl ⟨⟨rfl, nofun⟩, fun side' => by simp [writes, hinfo, Except.toBool]⟩
  | ok infos =>
      rw [hinfo] at h
      cases h
      exact Or.inr ⟨⟨infos, rfl, rfl⟩, fun side' => by simp [writes, hinfo, Except.toBool]⟩

theorem onGrpc_ok {s s' : State} {f : Grpc → Except Crash (Grpc × Result)} {r : Result}
    (h : s.onGrpc f = .ok (s', r)) :
    (s.grpc = none ∧ s' = s ∧ r.infos = none) ∨
      ∃ g g', s.grpc = some g ∧ f g = .ok (g', r) ∧ s' = { s with grpc := some g' } := by
  unfold State.onGrpc at h
  cases hgrpc : s.grpc with
  | none =>
      rw [hgrpc] at h
      cases h
      exact Or.inl ⟨rfl, rfl, rfl⟩
  | some g =>
      rw [hgrpc] at h
      dsimp only at h
      cases hf : f g with
      | error e =>
          rw [hf] at h
          cases h
      | ok x =>
          rw [hf] at h
          cases h
          exact Or.inr ⟨g, x.1, rfl, hf, rfl⟩

theorem code_ok {σ : Type*} {x : Except Crash (σ × Int)} {s : σ} {r : Result}
    (h : code x = .ok (s, r)) : ∃ ret, x = .ok (s, ret) ∧ r = { ret := ret } := by
  unfold code at h
  split at h
  · cases h
  · cases h
    exact ⟨_, rfl, rfl⟩

/-- A message is as long as the array it is made of. -/
theorem setRequest_ne_nil {infos : List TensorInfo} {wire : List WireTensorInfo}
    (hinfos : infos ≠ []) (h : setRequest infos = .ok (.ok wire)) : wire ≠ [] := by
  cases infos with
  | nil => exact absurd rfl hinfos
  | cons info infos =>
      unfold setRequest at h
      split at h
      · cases h
      · cases h
      · split at h
        · cases h
        · cases h
        · cases h
          simp

theorem invoke_eq {i : InvokeCall} {g g' : Grpc} {ret : Int} (h : g.invoke i = .ok (g', ret)) :
    g' = g := by
  unfold Grpc.invoke at h
  split at h
  · cases h
    rfl
  · split at h
    · cases h
      rfl
    · repeat' split at h
      all_goals first | (cases h; rfl) | cases h

/-! ## The rules -/

/-- The client without the tensor infos that it cached. -/
def ClientGst.cleared (gst : ClientGst) : ClientGst :=
  { gst with model := (gst.model.store .input none).store .output none }

/-- What a property of a client and its session has to survive.  `load` and `setter` are what may be
asked of a request to load a model, and of a setter. -/
structure Grpc.Rules (sp : Bytes) (load : Grpc → Transit → Bytes → Prop)
    (setter : Transit → Option Int → Prop) (I : Grpc → Prop) : Prop where
  fresh : ∀ e : Exchange, I { gst := some { toGst := e.link.client }, session := e.link.server }
  request : ∀ {t g g' r response}, I g → (∀ filename, r = .loadModel filename → load g t filename) →
    (∀ side wire, r ≠ .setTensorInfo side wire) → g.request sp t r = .ok (g', response) → I g'
  thread : ∀ {g : Grpc} {gst gst' : ClientGst}, I g → g.gst = some gst → gst'.model = gst.model →
    I { g with gst := some gst' }
  cleared : ∀ {g : Grpc} {gst : ClientGst}, I g → g.gst = some gst →
    I { g with gst := some gst.cleared }
  setTensorInfo : ∀ {t memory side infos g g' ret}, I g → setter t memory → infos ≠ [] →
    g.setTensorInfo sp t memory side infos = .ok (g', ret) → I g'
  getTensorInfo : ∀ {f side g g' r}, I g → g.getTensorInfo sp f side = .ok (g', r) → I g'

/-- What the rules ask of a call. -/
def Guarded (load : Grpc → Transit → Bytes → Prop) (setter : Transit → Option Int → Prop)
    (s : State) : Call → Prop
  | .loadModel c => ∀ filename ∈ c.model, ∀ g ∈ s.grpc, load g c.load filename
  | .setTensorInfo _ _ rpc memory => setter rpc memory
  | _ => True

namespace Grpc.Rules

variable {load : Grpc → Transit → Bytes → Prop} {setter : Transit → Option Int → Prop}
  {I : Grpc → Prop} {g g' : Grpc} {ret : Int}

theorem configure (hI : Rules sp load setter I) {rpc : RpcOutcome} {config : PluginConfig}
    (hg : I g) (h : g.configure rpc config = .ok (g', ret)) : I g' := by
  have hrequest : ∀ {g₁ : Grpc} {response : Option Response},
      g.request [] { outcome := rpc } (.configure config.server) = .ok (g₁, response) → I g₁ := by
    intro g₁ response hr
    -- The handler does not look at the storage path.
    have hr' : g.request sp { outcome := rpc } (.configure config.server) = .ok (g₁, response) := hr
    exact hI.request hg (fun filename h => by cases h) (fun side wire h => by cases h) hr'
  unfold Grpc.configure at h
  split at h
  · cases h
  · rename_i hr
    cases h
    exact hrequest hr
  · rename_i hr
    have hg₁ := hrequest hr
    split at h
    · cases h
      exact hg₁
    · split at h
      · cases h
      · rename_i gst hgst
        cases h
        exact hI.thread hg₁ hgst rfl

theorem loadModel (hI : Rules sp load setter I) {t : Transit} {filename : Bytes} (hg : I g)
    (hload : load g t filename) (h : g.loadModel sp t filename = .ok (g', ret)) : I g' := by
  have hrequest : ∀ {g₁ : Grpc} {response : Option Response},
      g.request sp t (.loadModel filename) = .ok (g₁, response) → I g₁ := by
    intro g₁ response hr
    refine hI.request hg (fun filename' h => ?_) (fun side wire h => by cases h) hr
    cases h
    exact hload
  unfold Grpc.loadModel at h
  split at h
  · cases h
  · rename_i hr
    cases h
    exact hrequest hr
  · rename_i hr
    split at h
    · cases h
    · rename_i gst hgst
      cases h
      exact hI.cleared (hrequest hr) hgst

/-- The requests that nothing is asked of. -/
theorem plainRequest (hI : Rules sp load setter I) {t : Transit} {r : Request}
    {response : Option Response} (hload : ∀ filename, r ≠ .loadModel filename)
    (hset : ∀ side wire, r ≠ .setTensorInfo side wire) (hg : I g)
    (h : g.request sp t r = .ok (g', response)) : I g' :=
  hI.request hg (fun filename heq => absurd heq (hload filename)) hset h

theorem uploadModel (hI : Rules sp load setter I) {t : Transit} {file : Except Int (List Bytes)}
    (hg : I g) (h : g.uploadModel sp t file = .ok (g', ret)) : I g' := by
  unfold Grpc.uploadModel at h
  split at h
  · cases h
    exact hg
  · split at h
    · cases h
    · rename_i hrequest
      cases h
      exact hI.plainRequest (by simp) (by simp) hg hrequest
    · rename_i hrequest
      cases h
      exact hI.plainRequest (by simp) (by simp) hg hrequest

theorem loadOrUpload (hI : Rules sp load setter I) {c : LoadModelCall} {filename : Bytes}
    (hg : I g) (hc : load g c.load filename)
    (h : g.loadOrUpload sp c filename = .ok (g', ret)) : I g' := by
  unfold Grpc.loadOrUpload at h
  split at h
  · cases h
  · rename_i hload
    have hg₁ := hI.loadModel hg hc hload
    split at h
    · exact hI.uploadModel hg₁ h
    · cases h
      exact hg₁

theorem startPipelines (hI : Rules sp load setter I) {p : PrepareCall} (hg : I g)
    (h : g.startPipelines p = .ok (g', ret)) : I g' := by
  unfold Grpc.startPipelines at h
  split at h
  · cases h
    exact hg
  · split at h
    · cases h
      exact hg
    · split at h
      · cases h
      · rename_i gst hgst
        cases h
        exact hI.thread hg hgst (gst.model_commandHandlerPrepare p.source p.sink)

theorem gstPrepare (hI : Rules sp load setter I) {p : PrepareCall} (hg : I g)
    (h : g.gstPrepare sp p = .ok (g', ret)) : I g' := by
  unfold Grpc.gstPrepare at h
  split at h
  · cases h
  · split at h
    · split at h
      · cases h
      · rename_i hget
        cases h
        exact hI.getTensorInfo hg hget
      · rename_i hget
        split at h
        · exact hI.startPipelines (hI.getTensorInfo hg hget) h
        · cases h
    · exact hI.startPipelines hg h

theorem prepare (hI : Rules sp load setter I) {p : PrepareCall} {info : Option Info} (hg : I g)
    (h : g.prepare sp p info = .ok (g', ret)) : I g' := by
  unfold Grpc.prepare at h
  split at h
  · cases h
  · rename_i hrequest
    cases h
    exact hI.plainRequest (by simp) (by simp) hg hrequest
  · rename_i hrequest
    have hg₁ := hI.plainRequest (by simp) (by simp) hg hrequest
    split at h
    · cases h
      exact hg₁
    · split at h
      · cases h
      · exact hI.gstPrepare hg₁ h

theorem stop (hI : Rules sp load setter I) {c : StopCall} (hg : I g)
    (h : g.stop sp c = .ok (g', ret)) : I g' := by
  unfold Grpc.stop at h
  split at h
  · cases h
  · split at h
    · cases h
      exact hg
    · split at h
      · cases h
      · split at h
        · cases h
        · split at h
          · cases h
          · rename_i hrequest
            cases h
            exact hI.plainRequest (by simp) (by simp) hg hrequest
          · rename_i hrequest
            cases h
            exact hI.plainRequest (by simp) (by simp) hg hrequest

theorem getResult (hI : Rules sp load setter I) {f : Fetch} {side : Side} {r : Result} (hg : I g)
    (h : g.getResult sp f side = .ok (g', r)) : I g' := by
  unfold Grpc.getResult at h
  split at h
  · cases h
  · rename_i hget
    cases h
    exact hI.getTensorInfo hg hget
  · rename_i hget
    cases h
    exact hI.getTensorInfo hg hget

theorem newData (hI : Rules sp load setter I) {f : Fetch} {r : Result} (hg : I g)
    (h : g.newData sp f = .ok (g', r)) : I g' := by
  unfold Grpc.newData at h
  split at h
  · cases h
    exact hg
  · split at h
    · cases h
      exact hg
    · exact hI.getResult hg h

/-! ## Calls of the peer -/

variable {s s' : State}

theorem onGrpc {f : Grpc → Except Crash (Grpc × Result)} {r : Result} (hs : ∀ g ∈ s.grpc, I g)
    (hf : ∀ g ∈ s.grpc, ∀ g' r, f g = .ok (g', r) → I g') (h : s.onGrpc f = .ok (s', r)) :
    ∀ g ∈ s'.grpc, I g := by
  rcases onGrpc_ok h with ⟨-, rfl, -⟩ | ⟨g, g', hgrpc, hg, rfl⟩
  · exact hs
  · intro g'' hg''
    cases hg''
    exact hf g hgrpc g' r hg

theorem keyExchange (hI : Rules sp load setter I) {k : KeyExchange} (h : k.grpc = .ok g) : I g := by
  unfold KeyExchange.grpc at h
  split at h
  · cases h
  · split at h
    · cases h
    · cases h
      exact hI.fresh _

theorem setInfo (hs : ∀ g ∈ s.grpc, I g) {info : Option SetInfo.Info} {fails : Nat → Bool}
    {published : Int} (h : s.setInfo info fails published = .ok (s', ret)) :
    ∀ g ∈ s'.grpc, I g := by
  unfold State.setInfo at h
  repeat' split at h
  all_goals cases h
  all_goals exact hs

theorem configureCall (hI : Rules sp load setter I) {options : Configuration}
    (hs : ∀ g ∈ s.grpc, I g) (h : s.configure options = .ok (s', ret)) : ∀ g ∈ s'.grpc, I g := by
  unfold State.configure at h
  split at h
  · cases h
    exact hs
  · cases h
    exact hs
  · cases h
    exact hs
  · split at h
    · unfold State.configureReadable at h
      split at h
      · cases h
        exact hs
      · split at h
        · split at h <;> cases h <;> exact hs
        · rename_i g hgrpc
          split at h
          · cases h
          · rename_i hconfigure
            cases h
            intro g' hg'
            cases hg'
            exact hI.configure (hs g hgrpc) hconfigure
    · cases h

theorem activate (hI : Rules sp load setter I) {c : ActivateCall} (hs : ∀ g ∈ s.grpc, I g)
    (h : s.activate c = .ok (s', ret)) : ∀ g ∈ s'.grpc, I g := by
  unfold State.activate at h
  split at h
  · cases h
    exact hs
  · split at h
    · cases h
      exact hs
    · split at h
      · cases h
        exact hs
      · split at h
        · cases h
          exact hs
        · split at h
          · cases h
            exact hs
          · split at h
            · cases h
              exact hs
            · rename_i hexchanged
              have hg := hI.keyExchange hexchanged
              split at h
              · cases h
                intro g' hg'
                cases hg'
                exact hg
              · split at h
                · cases h
                · rename_i hconfigure
                  split at h
                  · cases h
                    exact hs
                  · cases h
                    intro g' hg'
                    cases hg'
                    exact hI.configure hg hconfigure

/-- A property that survives what the rules name is kept by every call. -/
theorem call (hI : Rules sp load setter I) {c : Call} {r : Result} (hs : ∀ g ∈ s.grpc, I g)
    (hc : Guarded load setter s c) (h : call sp s c = .ok (s', r)) : ∀ g ∈ s'.grpc, I g := by
  cases c with
  | setInfo info fails published =>
      rcases code_ok h with ⟨ret, hcall, -⟩
      exact setInfo hs hcall
  | configure options =>
      rcases code_ok h with ⟨ret, hcall, -⟩
      exact hI.configureCall hs hcall
  | activate c =>
      rcases code_ok h with ⟨ret, hcall, -⟩
      exact hI.activate hs hcall
  | loadModel c =>
      dsimp only [Client.call] at h
      cases hmodel : c.model with
      | none =>
          rw [hmodel] at h
          cases h
          exact hs
      | some filename =>
          rw [hmodel] at h
          refine onGrpc hs ?_ h
          intro g hgrpc g' r hcall
          rcases code_ok hcall with ⟨ret, hload, -⟩
          exact hI.loadOrUpload (hs g hgrpc) (hc filename hmodel g hgrpc) hload
  | setTensorInfo side infos rpc memory =>
      dsimp only [Client.call] at h
      split at h
      · cases h
        exact hs
      · rename_i hvalid
        refine onGrpc hs ?_ h
        intro g hgrpc g' r hcall
        rcases code_ok hcall with ⟨ret, hset, -⟩
        have hne : infos.getD [] ≠ [] := by
          intro hnil
          rw [hnil] at hvalid
          exact hvalid rfl
        exact hI.setTensorInfo (hs g hgrpc) hc hne hset
  | getTensorInfo side fetch =>
      exact onGrpc hs (fun g hgrpc g' r hget => hI.getResult (hs g hgrpc) hget) h
  | prepare c =>
      refine onGrpc hs ?_ h
      intro g hgrpc g' r hcall
      rcases code_ok hcall with ⟨ret, hprepare, -⟩
      exact hI.prepare (hs g hgrpc) hprepare
  | invoke i =>
      refine onGrpc hs ?_ h
      intro g hgrpc g' r hcall
      rcases code_ok hcall with ⟨ret, hinvoke, -⟩
      rw [invoke_eq hinvoke]
      exact hs g hgrpc
  | stop c =>
      refine onGrpc hs ?_ h
      intro g hgrpc g' r hcall
      rcases code_ok hcall with ⟨ret, hstop, -⟩
      exact hI.stop (hs g hgrpc) hstop
  | deactivate =>
      dsimp only [Client.call] at h
      split at h
      · cases h
        exact hs
      · cases h
        intro g hg
        simp at hg
  | newData fetch =>
      exact onGrpc hs (fun g hgrpc g' r hdata => hI.newData (hs g hgrpc) hdata) h

end Grpc.Rules
end Client
end Peer
end Beyond
