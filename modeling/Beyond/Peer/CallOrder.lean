import Beyond.Base.Run
import Beyond.Peer.TensorArray

/-!
# The order of the calls

Which calls of a client peer return.  Between two calls a peer that is active has its information
and its `Gst`, and no tensor info that is stored on either side lacks its dims: that is
`State.Sound`, and every call keeps it.  What the calls rely on beyond that is `Ordered`.
-/

namespace Beyond
namespace Peer
namespace Client

open Errno GrpcServer

/-! ## Calls that may crash -/

/-- The computation returns if and only if `ok` holds, and what it returns is `good`. -/
def Yields {α : Type*} (ok : Prop) (good : α → Prop) : Except Crash α → Prop
  | .error _ => ¬ok
  | .ok x => ok ∧ good x

section Yields

variable {α : Type*} {ok ok' : Prop} {good : α → Prop} {x : Except Crash α}

theorem Yields.returns_iff (h : Yields ok good x) : (∃ y, x = .ok y) ↔ ok := by
  cases x with
  | error e => simpa [Yields] using h
  | ok y => simpa [Yields] using h.1

theorem Yields.good_of_ok {y : α} (h : Yields ok good x) (hx : x = .ok y) : good y := by
  subst hx
  exact h.2

theorem Yields.congr (h : Yields ok good x) (hok : ok ↔ ok') : Yields ok' good x := by
  rw [← propext hok]
  exact h

theorem yields_code {σ : Type*} {good : σ → Prop} {x : Except Crash (σ × Int)}
    (h : Yields ok (fun y => good y.1) x) : Yields ok (fun y => good y.1) (code x) := by
  cases x with
  | error e => exact h
  | ok y => exact h

end Yields

/-! ## The invariant -/

/-- No tensor info of the model lacks its dims. -/
def ModelSound (m : Model) : Prop := ∀ side, DimsPresent (m.info side)

theorem modelSound_store {m : Model} (hm : ModelSound m) (side : Side)
    {infos : Option (List TensorInfo)} (hinfos : DimsPresent infos) :
    ModelSound (m.store side infos) := by
  intro side'
  by_cases h : side' = side
  · subst h
    simpa using hinfos
  · rw [Model.info_store_ne m infos h]
    exact hm side'

theorem modelSound_modelPath {m : Model} (hm : ModelSound m) (path : Option Bytes) :
    ModelSound { m with modelPath := path } := by
  intro side
  cases side with
  | input => exact hm .input
  | output => exact hm .output

/-- What holds of an active client between two calls. -/
structure Grpc.Sound (g : Grpc) : Prop where
  gst : ∃ gst, g.gst = some gst ∧ ModelSound gst.model
  session : ModelSound g.session.model

def State.Sound (s : State) : Prop := ∀ g ∈ s.grpc, g.Sound ∧ s.info ≠ none

theorem sound_create (framework accel : Option Bytes) :
    (State.create framework accel).Sound := by
  intro g hg
  simp [State.create] at hg

/-! ## The session -/

/-- What a handler relies on: a debug build asserts that there are tensor infos to send. -/
def Servable (env : Env) (gst : GrpcServer.Gst) : Request → Prop
  | .getTensorInfo side => env.debug = true → hasTensorInfo (gst.model.info side) = true
  | _ => True

theorem dimsPresent_written {gst : GrpcServer.Gst} (hs : ModelSound gst.model) (side : Side) :
    DimsPresent (gst.written side) := by
  unfold Gst.written
  split
  · exact hs side
  · exact dimsPresent_none

theorem dimsPresent_or {a b : Option (List TensorInfo)} (ha : DimsPresent a) (hb : DimsPresent b) :
    DimsPresent (a.or b) := by
  cases a with
  | none => exact hb
  | some infos => exact ha

theorem modelSound_commandHandlerPrepare {gst : GrpcServer.Gst} {p : Gst.Prepared}
    (hs : ModelSound gst.model) (hinput : DimsPresent p.input) (houtput : DimsPresent p.output) :
    ModelSound (gst.commandHandlerPrepare p).model := by
  unfold Gst.commandHandlerPrepare
  split
  · intro side
    cases side with
    | input =>
        dsimp only [Model.info]
        split
        · exact hs .input
        · exact dimsPresent_or hinput (hs .input)
    | output =>
        dsimp only [Model.info]
        split
        · exact hs .output
        · exact dimsPresent_or houtput (hs .output)
  · exact hs

theorem modelSound_prepare {gst : GrpcServer.Gst} {p : Gst.Prepared} (memory : Bool)
    (hs : ModelSound gst.model) (hinput : DimsPresent p.input) (houtput : DimsPresent p.output) :
    ModelSound (gst.prepare memory p).1.model := by
  unfold Gst.prepare
  split
  · exact hs
  · split
    · exact hs
    · split
      · exact hs
      · dsimp only
        split <;> exact modelSound_commandHandlerPrepare hs hinput houtput

theorem modelSound_requestToInfo {env : Env} {request : List WireTensorInfo}
    {infos : List TensorInfo} (h : requestToInfo env request = .ok infos) :
    DimsPresent (some infos) := by
  unfold requestToInfo at h
  cases henv : env.allocErrno with
  | some errno => simp [henv] at h
  | none =>
      rw [henv] at h
      rw [← Except.ok.inj h]
      exact dimsPresent_map _ _ fun _ => nofun

theorem serve_yields (sp : Bytes) (t : Transit) {gst : GrpcServer.Gst}
    (hs : ModelSound gst.model) (r : Request) :
    match gst.serve sp t.env r with
    | .error _ => ¬Servable t.env gst r
    | .ok (gst', _) => Servable t.env gst r ∧ ModelSound gst'.model := by
  cases r with
  | configure server => exact ⟨trivial, hs⟩
  | loadModel filename =>
      simp only [Gst.serve]
      cases t.env.strdupErrno <;> exact ⟨trivial, modelSound_modelPath hs _⟩
  | uploadModel chunks =>
      simp only [Gst.serve]
      cases gst.model.modelPath with
      | none => exact ⟨trivial, hs⟩
      | some path => cases t.env.fopenErrno <;> exact ⟨trivial, hs⟩
  | getTensorInfo side =>
      simp only [Gst.serve, Servable]
      by_cases hdebug : t.env.debug = true ∧ hasTensorInfo (gst.model.info side) = false
      · simp [hdebug]
      · rcases infoToResponse_ok (hs side) with ⟨wire, hwire, -⟩
        rw [if_neg hdebug, hwire]
        refine ⟨fun h => ?_, hs⟩
        simpa [h] using hdebug
  | setTensorInfo side request =>
      simp only [Gst.serve]
      cases hinfo : requestToInfo t.env request with
      | error ret => exact ⟨trivial, hs⟩
      | ok infos => exact ⟨trivial, modelSound_store hs side (modelSound_requestToInfo hinfo)⟩
  | prepare =>
      simp only [Gst.serve, dimsPresent_written hs, and_self, if_true]
      exact ⟨trivial, modelSound_prepare _ hs t.extracted.1 t.extracted.2⟩
  | stop => exact ⟨trivial, hs⟩

/-! ## Requests -/

variable {sp : Bytes}

theorem request_yields (sp : Bytes) {g : Grpc} (hg : g.Sound) (t : Transit) (r : Request) :
    Yields (t.outcome ≠ .lost → Servable t.env g.session r)
      (fun x => x.1.Sound ∧ x.1.gst = g.gst) (g.request sp t r) := by
  unfold Grpc.request
  by_cases hlost : t.outcome = .lost
  · rw [if_pos hlost]
    exact ⟨fun h => absurd hlost h, hg, rfl⟩
  · rw [if_neg hlost]
    have hserve := serve_yields sp t hg.session r
    cases h : g.session.serve sp t.env r with
    | error e =>
        rw [h] at hserve
        exact fun hok => hserve (hok hlost)
    | ok x =>
        rw [h] at hserve
        exact ⟨fun _ => hserve.1, ⟨hg.gst, hserve.2⟩, rfl⟩

/-- A request that no handler refuses. -/
theorem request_ok (sp : Bytes) {g : Grpc} (hg : g.Sound) (t : Transit) {r : Request}
    (hr : Servable t.env g.session r) :
    ∃ g' response, g.request sp t r = .ok (g', response) ∧ g'.Sound ∧ g'.gst = g.gst := by
  have hyields := request_yields sp hg t r
  rcases hyields.returns_iff.2 fun _ => hr with ⟨⟨g', response⟩, h⟩
  exact ⟨g', response, h, hyields.good_of_ok h⟩

theorem configure_yields {g : Grpc} (hg : g.Sound) (rpc : RpcOutcome) (config : PluginConfig) :
    Yields True (fun x => x.1.Sound) (g.configure rpc config) := by
  unfold Grpc.configure
  rcases request_ok [] hg { outcome := rpc } (r := .configure config.server) trivial with
    ⟨g', response, h, hg', hgst⟩
  rw [h]
  cases response with
  | none => exact ⟨trivial, hg'⟩
  | some response =>
      dsimp only
      split
      · exact ⟨trivial, hg'⟩
      · rcases hg'.gst with ⟨gst, hsome, hmodel⟩
        rw [hsome]
        exact ⟨trivial, ⟨_, rfl, hmodel⟩, hg'.session⟩

theorem loadModel_yields (sp : Bytes) {g : Grpc} (hg : g.Sound) (t : Transit) (filename : Bytes) :
    Yields True (fun x => x.1.Sound) (g.loadModel sp t filename) := by
  unfold Grpc.loadModel
  rcases request_ok sp hg t (r := .loadModel filename) trivial with
    ⟨g', response, h, hg', hgst⟩
  rw [h]
  cases response with
  | none => exact ⟨trivial, hg'⟩
  | some response =>
      rcases hg'.gst with ⟨gst, hsome, hmodel⟩
      dsimp only
      rw [hsome]
      have hinput := modelSound_store hmodel .input dimsPresent_none
      have hreset := modelSound_store hinput .output dimsPresent_none
      exact ⟨trivial, ⟨_, rfl, hreset⟩, hg'.session⟩

theorem uploadModel_yields {g : Grpc} (hg : g.Sound) (t : Transit)
    (file : Except Int (List Bytes)) :
    Yields True (fun x => x.1.Sound) (g.uploadModel sp t file) := by
  unfold Grpc.uploadModel
  cases file with
  | error ret => exact ⟨trivial, hg⟩
  | ok chunks =>
      rcases request_ok sp hg t (r := .uploadModel chunks) trivial with
        ⟨g', response, h, hg', hgst⟩
      dsimp only
      rw [h]
      cases response <;> exact ⟨trivial, hg'⟩

theorem loadOrUpload_yields {g : Grpc} (hg : g.Sound) (c : LoadModelCall) (filename : Bytes) :
    Yields True (fun x => x.1.Sound) (g.loadOrUpload sp c filename) := by
  unfold Grpc.loadOrUpload
  have hload := loadModel_yields sp hg c.load filename
  rcases hload.returns_iff.2 trivial with ⟨⟨g', ret⟩, h⟩
  have hg' := hload.good_of_ok h
  rw [h]
  dsimp only
  split
  · exact uploadModel_yields hg' c.upload c.file
  · exact ⟨trivial, hg'⟩

/-! ## Tensor infos -/

/-- Each info up to the first that has no dimension has dims. -/
def DimsReadable : List TensorInfo → Prop
  | [] => True
  | info :: infos => info.dims ≠ none ∧ (info.dims ≠ some [] → DimsReadable infos)

theorem setRequest_yields (infos : List TensorInfo) :
    Yields (DimsReadable infos) (fun x => ∀ wire, x = .ok wire → DimsPresent (some infos))
      (setRequest infos) := by
  induction infos with
  | nil => exact ⟨trivial, fun _ _ => by simp [DimsPresent]⟩
  | cons info infos ih =>
      unfold setRequest
      cases hdims : info.dims with
      | none => exact fun h => h.1 hdims
      | some dims =>
          cases dims with
          | nil => exact ⟨⟨by simp [hdims], fun h => absurd hdims h⟩, by simp⟩
          | cons d ds =>
              have hhead : info.dims ≠ none := by simp [hdims]
              have hmore : info.dims ≠ some [] := by simp [hdims]
              dsimp only
              cases hrest : setRequest infos with
              | error e =>
                  rw [hrest] at ih
                  exact fun h => ih (h.2 hmore)
              | ok x =>
                  rw [hrest] at ih
                  have hreadable : DimsReadable (info :: infos) := ⟨hhead, fun _ => ih.1⟩
                  cases x with
                  | error ret => exact ⟨hreadable, by simp⟩
                  | ok wire =>
                      refine ⟨hreadable, fun _ _ => ?_⟩
                      intro i hi
                      rcases List.mem_cons.1 hi with rfl | hi
                      · exact hhead
                      · exact ih.2 wire rfl i hi

theorem setTensorInfo_yields (sp : Bytes) {g : Grpc} (hg : g.Sound) (t : Transit)
    (memory : Option Int) (side : Side) (infos : List TensorInfo) :
    Yields (DimsReadable infos) (fun x => x.1.Sound) (g.setTensorInfo sp t memory side infos) := by
  have hset := setRequest_yields infos
  unfold Grpc.setTensorInfo
  cases hwire : setRequest infos with
  | error e =>
      rw [hwire] at hset
      exact hset
  | ok x =>
      rw [hwire] at hset
      cases x with
      | error ret => exact ⟨hset.1, hg⟩
      | ok wire =>
          rcases request_ok sp hg t (r := .setTensorInfo side wire) trivial with
            ⟨g', response, h, hg', hgst⟩
          dsimp only
          rw [h]
          cases response with
          | none => exact ⟨hset.1, hg'⟩
          | some response =>
              cases memory with
              | some errno => exact ⟨hset.1, hg'⟩
              | none =>
                  rcases hg'.gst with ⟨gst, hsome, hmodel⟩
                  dsimp only
                  rw [hsome]
                  have hstore := modelSound_store hmodel side (hset.2 wire rfl)
                  exact ⟨hset.1, ⟨_, rfl, hstore⟩, hg'.session⟩

/-- Tensor infos are there to be got; or the server is not reached; or no side asserts that there
are any. -/
def Grpc.Fetchable (g : Grpc) (f : Fetch) (side : Side) : Prop :=
  hasTensorInfo (g.cachedInfo side) = true ∨ hasTensorInfo (g.session.model.info side) = true ∨
    f.rpc.outcome = .lost ∨
    (f.rpc.env.debug = false ∧ (f.rpc.outcome = .answered → f.debug = false))

theorem request_getTensorInfo (sp : Bytes) {g : Grpc} (hg : g.Sound) (t : Transit) (side : Side)
    (hlost : t.outcome ≠ .lost) (hr : Servable t.env g.session (.getTensorInfo side)) :
    ∃ wire, g.request sp t (.getTensorInfo side) =
        .ok (g, if t.outcome = .answered then some (.tensorInfos 0 wire) else none) ∧
      (wire = [] ↔ hasTensorInfo (g.session.model.info side) = false) := by
  rcases infoToResponse_ok (hg.session side) with ⟨wire, hwire, hnil⟩
  refine ⟨wire, ?_, hnil.trans hasTensorInfo_eq_false_iff.symm⟩
  have hdebug : ¬(t.env.debug = true ∧ hasTensorInfo (g.session.model.info side) = false) := by
    rintro ⟨hd, hnone⟩
    rw [hr hd] at hnone
    cases hnone
  simp [Grpc.request, hlost, GrpcServer.Gst.serve, hdebug, hwire, writes, Status.OK]

theorem getTensorInfoFromResponse_yields (debug : Bool) (memory : Option Int)
    (wire : List WireTensorInfo) :
    Yields (debug = true → wire ≠ [])
      (fun x => ∀ infos, x = .ok infos → DimsPresent (some infos))
      (getTensorInfoFromResponse debug memory wire) := by
  unfold getTensorInfoFromResponse
  split
  · rename_i hassert
    exact fun hok => hok hassert.1 hassert.2
  · rename_i hassert
    have hok : debug = true → wire ≠ [] := fun hdebug hwire => hassert ⟨hdebug, hwire⟩
    cases memory with
    | some errno => exact ⟨hok, nofun⟩
    | none =>
        refine ⟨hok, ?_⟩
        intro infos h
        cases h
        exact dimsPresent_map _ _ fun _ => nofun

/-- What is left of `Fetchable` when nothing is cached and the request gets to the server. -/
theorem fetchable_iff {g : Grpc} {f : Fetch} {side : Side}
    (hcached : hasTensorInfo (g.cachedInfo side) = false) (hlost : f.rpc.outcome ≠ .lost) :
    g.Fetchable f side ↔
      Servable f.rpc.env g.session (.getTensorInfo side) ∧
        (f.rpc.outcome = .answered → f.debug = true →
          hasTensorInfo (g.session.model.info side) = true) := by
  dsimp only [Grpc.Fetchable, Servable]
  cases hasTensorInfo (g.session.model.info side) <;> simp [hcached, hlost]

theorem getTensorInfo_yields (sp : Bytes) {g : Grpc} (hg : g.Sound) (f : Fetch) (side : Side) :
    Yields (g.Fetchable f side)
      (fun x => x.1.Sound ∧ ∀ infos, x.2 = .ok infos → DimsPresent (some infos))
      (g.getTensorInfo sp f side) := by
  rcases hg.gst with ⟨gst, hsome, hmodel⟩
  have hcached : g.cachedInfo side = gst.model.info side := by simp [Grpc.cachedInfo, hsome]
  unfold Grpc.getTensorInfo
  rw [hsome]
  dsimp only
  by_cases hhas : hasTensorInfo (gst.model.info side) = true
  · rw [if_pos hhas]
    refine ⟨Or.inl (hcached ▸ hhas), hg, ?_⟩
    intro infos h
    cases h
    exact hmodel side
  · rw [if_neg hhas]
    by_cases hlost : f.rpc.outcome = .lost
    · have hrequest : g.request sp f.rpc (.getTensorInfo side) = .ok (g, none) := by
        simp [Grpc.request, hlost]
      rw [hrequest]
      exact ⟨Or.inr (Or.inr (Or.inl hlost)), hg, by simp⟩
    · have hnone : hasTensorInfo (g.cachedInfo side) = false := by simpa [hcached] using hhas
      refine Yields.congr ?_ (fetchable_iff hnone hlost).symm
      by_cases hr : Servable f.rpc.env g.session (.getTensorInfo side)
      · rcases request_getTensorInfo sp hg f.rpc side hlost hr with ⟨wire, h, hnil⟩
        rw [h]
        by_cases hanswered : f.rpc.outcome = .answered
        · rw [if_pos hanswered]
          have hwire : wire ≠ [] ↔ hasTensorInfo (g.session.model.info side) = true := by
            simp [hnil]
          have hok : (f.debug = true → wire ≠ []) ↔
              Servable f.rpc.env g.session (.getTensorInfo side) ∧
                (f.rpc.outcome = .answered → f.debug = true →
                  hasTensorInfo (g.session.model.info side) = true) := by
            simp [hr, hanswered, hwire]
          have hread := (getTensorInfoFromResponse_yields f.debug f.memory wire).congr hok
          dsimp only [Response.infos]
          cases hinfos : getTensorInfoFromResponse f.debug f.memory wire with
          | error e =>
              rw [hinfos] at hread
              exact hread
          | ok x =>
              rw [hinfos] at hread
              cases x with
              | error ret => exact ⟨hread.1, hg, by simp⟩
              | ok infos =>
                  have hdims := hread.2 infos rfl
                  refine ⟨hread.1, ⟨⟨_, rfl, modelSound_store hmodel side hdims⟩, hg.session⟩, ?_⟩
                  intro infos' h
                  cases h
                  exact hdims
        · rw [if_neg hanswered]
          exact ⟨⟨hr, fun h => absurd h hanswered⟩, hg, by simp⟩
      · -- The server asserts that there is something to send.
        have hyields := request_yields sp hg f.rpc (.getTensorInfo side)
        cases h : g.request sp f.rpc (.getTensorInfo side) with
        | error e => exact fun hok => hr hok.1
        | ok x =>
            rw [h] at hyields
            exact absurd (hyields.1 hlost) hr

/-! ## The pipelines -/

/-- The server's `Prepare` succeeds: there is a model, and the pipeline thread answers with a
pipeline that plays. -/
def Prepares (env : Env) (gst : GrpcServer.Gst) : Prop :=
  gst.model.modelPath ≠ none ∧ env.memory = true ∧ 0 ≤ env.prepared.send ∧
    0 ≤ env.prepared.recv ∧ 0 ≤ env.prepared.status

theorem prepare_of_prepares {env : Env} {gst : GrpcServer.Gst} (h : Prepares env gst) :
    gst.prepare env.memory env.prepared =
      (gst.commandHandlerPrepare env.prepared, env.prepared.status, env.prepared.requestPort,
        env.prepared.responsePort) := by
  rcases h with ⟨hpath, hmemory, hsend, hrecv, -⟩
  unfold Gst.prepare
  cases hp : gst.model.modelPath with
  | none => exact absurd hp hpath
  | some path => simp [hmemory, not_lt.2 hsend, not_lt.2 hrecv]

theorem prepare_neg {env : Env} {gst : GrpcServer.Gst} (h : ¬Prepares env gst) :
    (gst.prepare env.memory env.prepared).2.1 < 0 := by
  unfold Gst.prepare
  cases hp : gst.model.modelPath with
  | none => exact (by decide : -EILSEQ < 0)
  | some path =>
      dsimp only
      split
      · exact (by decide : -ENOMEM < 0)
      · rename_i hmemory
        split
        · assumption
        · rename_i hsend
          split
          · assumption
          · rename_i hrecv
            by_contra hstatus
            exact h ⟨by simp [hp], by simpa using hmemory, not_lt.1 hsend, not_lt.1 hrecv,
              not_lt.1 hstatus⟩

/-- The input's tensor infos are there once the pipeline plays. -/
def InputKnown (env : Env) (gst : GrpcServer.Gst) : Prop :=
  hasTensorInfo gst.model.inputTensorInfo = true ∨
    (env.prepared.status = 0 ∧ hasTensorInfo env.prepared.input = true)

theorem hasTensorInfo_commandHandlerPrepare {env : Env} {gst : GrpcServer.Gst} :
    hasTensorInfo ((gst.commandHandlerPrepare env.prepared).model.info .input) = true ↔
      InputKnown env gst := by
  unfold Gst.commandHandlerPrepare InputKnown
  by_cases hstatus : env.prepared.status = 0
  · by_cases hhas : hasTensorInfo gst.model.inputTensorInfo = true
    · simp [hstatus, hhas, Model.info]
    · -- An array that was missing may still be an empty one.
      cases hinput : env.prepared.input with
      | none => simp [hstatus, hhas, Model.info, hasTensorInfo_none]
      | some infos => simp [hstatus, hhas, Model.info]
  · simp [hstatus, Model.info]

theorem startPipelines_yields {g : Grpc} (hg : g.Sound) (p : PrepareCall) :
    Yields True (fun x => x.1.Sound) (g.startPipelines p) := by
  rcases hg.gst with ⟨gst, hsome, hmodel⟩
  unfold Grpc.startPipelines
  split
  · exact ⟨trivial, hg⟩
  · split
    · exact ⟨trivial, hg⟩
    · rw [hsome]
      have hstarted : ModelSound (gst.commandHandlerPrepare p.source p.sink).1.model := by
        rw [ClientGst.model_commandHandlerPrepare]
        exact hmodel
      exact ⟨trivial, ⟨_, rfl, hstarted⟩, hg.session⟩

/-- Without a configured input `GrpcClient::Gst::Prepare` asks for the input's tensor infos. -/
def Grpc.AsksInput (g : Grpc) : Prop := ∀ gst ∈ g.gst, gst.preprocessing = []

theorem gstPrepare_yields {g : Grpc} (hg : g.Sound) (p : PrepareCall) :
    Yields (g.AsksInput → g.Fetchable p.fetch .input) (fun x => x.1.Sound) (g.gstPrepare sp p) := by
  rcases hg.gst with ⟨gst, hsome, hmodel⟩
  have hasks : g.AsksInput ↔ gst.preprocessing = [] := by simp [Grpc.AsksInput, hsome]
  unfold Grpc.gstPrepare
  rw [hsome]
  dsimp only
  by_cases hpre : gst.preprocessing = []
  · rw [if_pos hpre]
    have hget := getTensorInfo_yields sp hg p.fetch .input
    have hok : g.Fetchable p.fetch .input ↔ (g.AsksInput → g.Fetchable p.fetch .input) :=
      ⟨fun h _ => h, fun h => h (hasks.2 hpre)⟩
    refine Yields.congr ?_ hok
    cases h : g.getTensorInfo sp p.fetch .input with
    | error e =>
        rw [h] at hget
        exact hget
    | ok x =>
        rw [h] at hget
        rcases x with ⟨g', r⟩
        cases r with
        | error ret => exact ⟨hget.1, hget.2.1⟩
        | ok infos =>
            dsimp only
            rw [if_pos (hget.2.2 infos rfl)]
            have hstart := startPipelines_yields hget.2.1 p
            exact hstart.congr ⟨fun _ => hget.1, fun _ => trivial⟩
  · rw [if_neg hpre]
    have hstart := startPipelines_yields hg p
    exact hstart.congr ⟨fun _ h => absurd (hasks.1 h) hpre, fun _ => trivial⟩

/-- What `Peer::Prepare` relies on: the input's tensor infos, where it asks for them, can be got
behind the server's `Prepare`, which extracts them if it can. -/
def Grpc.Preparable (g : Grpc) (c : PrepareCall) : Prop :=
  c.rpc.outcome = .answered → Prepares c.rpc.env g.session → g.AsksInput →
    g.Fetchable c.fetch .input ∨ InputKnown c.rpc.env g.session

theorem request_prepare (sp : Bytes) {g : Grpc} (hg : g.Sound) (t : Transit)
    (hlost : t.outcome ≠ .lost) :
    ∃ g' response, g'.Sound ∧ g'.gst = g.gst ∧
      g'.session = (g.session.prepare t.env.memory t.env.prepared).1 ∧
      response.status = (g.session.prepare t.env.memory t.env.prepared).2.1 ∧
      g.request sp t .prepare = .ok (g', if t.outcome = .answered then some response else none) := by
  rcases request_ok sp hg t (r := .prepare) trivial with ⟨g', response, h, hg', hgst⟩
  have heq := h
  simp only [Grpc.request, if_neg hlost, GrpcServer.Gst.serve, dimsPresent_written hg.session,
    and_self, if_true, Except.ok.injEq, Prod.mk.injEq] at heq
  let ret := (g.session.prepare t.env.memory t.env.prepared).2
  refine ⟨g', .prepared ret.1 ret.2.1 ret.2.2, hg', hgst, by rw [← heq.1], rfl, ?_⟩
  rw [h, ← heq.2]
  simp [Status.OK, ret]

theorem fetchable_prepared {g g' : Grpc} {env : Env} (hgst : g'.gst = g.gst)
    (hsession : g'.session = g.session.commandHandlerPrepare env.prepared) (f : Fetch) :
    g'.Fetchable f .input ↔ g.Fetchable f .input ∨ InputKnown env g.session := by
  have hcached : g'.cachedInfo .input = g.cachedInfo .input := by
    simp [Grpc.cachedInfo, hgst]
  have hstored : hasTensorInfo (g.session.model.info .input) = true → InputKnown env g.session :=
    Or.inl
  unfold Grpc.Fetchable
  rw [hcached, hsession, hasTensorInfo_commandHandlerPrepare]
  tauto

theorem prepare_yields {g : Grpc} (hg : g.Sound) (c : PrepareCall) {info : Option Info}
    (hinfo : info ≠ none) :
    Yields (g.Preparable c) (fun x => x.1.Sound) (g.prepare sp c info) := by
  unfold Grpc.prepare
  by_cases hlost : c.rpc.outcome = .lost
  · have h : g.request sp c.rpc .prepare = .ok (g, none) := by simp [Grpc.request, hlost]
    rw [h]
    exact ⟨fun hanswered => by simp [hlost] at hanswered, hg⟩
  · rcases request_prepare sp hg c.rpc hlost with
      ⟨g', response, hg', hgst, hsession, hresponse, h⟩
    rw [h]
    by_cases hanswered : c.rpc.outcome = .answered
    · rw [if_pos hanswered]
      dsimp only
      rw [hresponse]
      by_cases hprepares : Prepares c.rpc.env g.session
      · -- The status is the one that the pipeline thread filled in.
        have hprepared := prepare_of_prepares hprepares
        rw [hprepared] at hsession ⊢
        rw [if_neg (not_lt.2 hprepares.2.2.2.2), if_neg hinfo]
        refine (gstPrepare_yields hg' c).congr ?_
        have hasks : g'.AsksInput ↔ g.AsksInput := by simp [Grpc.AsksInput, hgst]
        rw [hasks, fetchable_prepared hgst hsession c.fetch]
        exact ⟨fun h _ _ => h, fun h => h hanswered hprepares⟩
      · rw [if_pos (prepare_neg hprepares)]
        exact ⟨fun _ h => absurd h hprepares, hg'⟩
    · rw [if_neg hanswered]
      exact ⟨fun h => absurd h hanswered, hg'⟩

/-- The check of `Peer::Invoke`. -/
def InvokeCall.Valid (i : InvokeCall) : Prop :=
  ∃ tensors, i.input = some tensors ∧ tensors ≠ [] ∧ ∀ t ∈ tensors, 0 < t.size ∧ t.data ≠ none

/-- What `CommandHandlerInvoke` relies on, where an invocation gets that far. -/
def Grpc.Invocable (g : Grpc) (i : InvokeCall) : Prop :=
  i.Valid → i.memory = true → 0 ≤ i.send → ∀ gst ∈ g.gst, gst.gstSource = true

theorem valid_iff {i : InvokeCall} {tensors : List Tensor} (h : i.input = some tensors) :
    i.Valid ↔ ¬(tensors = [] ∨ ∃ t ∈ tensors, t.size ≤ 0 ∨ t.data = none) := by
  unfold InvokeCall.Valid
  push Not
  simp [h]

theorem invoke_yields {g : Grpc} (hg : g.Sound) (i : InvokeCall) :
    Yields (g.Invocable i) (fun x => x.1.Sound) (g.invoke i) := by
  rcases hg.gst with ⟨gst, hsome, -⟩
  unfold Grpc.invoke Grpc.Invocable
  rw [hsome]
  cases hinput : i.input with
  | none => exact ⟨fun ⟨_, h, _⟩ => absurd h (by simp [hinput]), hg⟩
  | some tensors =>
      rw [valid_iff hinput]
      dsimp only
      split
      · rename_i hinvalid
        exact ⟨fun h => absurd hinvalid h, hg⟩
      · split
        · rename_i hmemory
          exact ⟨fun _ h => by simp [hmemory] at h, hg⟩
        · split
          · rename_i hsend
            exact ⟨fun _ _ h => absurd hsend (not_lt.2 h), hg⟩
          · rename_i hvalid hmemory hsend
            split
            · rename_i hsource
              intro h
              have hset := h hvalid (by simpa using hmemory) (not_lt.1 hsend) gst rfl
              simp [hsource] at hset
            · rename_i hsource
              refine ⟨fun _ _ _ gst' h => ?_, hg⟩
              cases h
              simpa using hsource

/-- What `CommandHandlerStop` relies on. -/
def Grpc.Stoppable (g : Grpc) (c : StopCall) : Prop :=
  0 ≤ c.send → ∀ gst ∈ g.gst, gst.gstSource = true ∧ gst.gstSink = true

theorem stop_yields {g : Grpc} (hg : g.Sound) (c : StopCall) :
    Yields (g.Stoppable c) (fun x => x.1.Sound) (g.stop sp c) := by
  rcases hg.gst with ⟨gst, hsome, -⟩
  have hstoppable : g.Stoppable c ↔ (0 ≤ c.send → gst.gstSource = true ∧ gst.gstSink = true) := by
    simp [Grpc.Stoppable, hsome]
  refine Yields.congr ?_ hstoppable.symm
  unfold Grpc.stop
  rw [hsome]
  dsimp only
  split
  · rename_i hsend
    exact ⟨fun h => absurd hsend (not_lt.2 h), hg⟩
  · rename_i hsend
    split
    · rename_i hsource
      simp [Yields, hsource, not_lt.1 hsend]
    · rename_i hsource
      split
      · rename_i hsink
        simp [Yields, hsink, not_lt.1 hsend]
      · rename_i hsink
        rcases request_ok sp hg c.rpc (r := .stop) trivial with
          ⟨g', response, h, hg', -⟩
        rw [h]
        have hset : gst.gstSource = true ∧ gst.gstSink = true :=
          ⟨by simpa using hsource, by simpa using hsink⟩
        cases response <;> exact ⟨fun _ => hset, hg'⟩

/-! ## Calls -/

/-- What `NewDataHandler` relies on. -/
def Grpc.Feedable (g : Grpc) (f : Fetch) : Prop :=
  (∃ gst ∈ g.gst, gst.playing = true) → g.Fetchable f .output

/-- What `SetInfo` relies on behind its checks: up to the first allocation that fails, every name that
it copies is there, and the uuid ends. -/
def Copyable (fails : Nat → Bool) (info : SetInfo.Info) : Prop :=
  info.host ≠ none → info.port0 ≠ 0 → info.ending fails ≠ .unreadable

/-- What a call relies on beyond the checks that it makes. -/
def Ordered (s : State) : Call → Prop
  | .setInfo info fails _ => ∀ i ∈ info, Copyable fails i
  | .configure (.input options _ _ _) => options.readable = true
  | .setTensorInfo _ infos _ _ =>
      invalidInfo (infos.getD []) = false → s.grpc ≠ none → DimsReadable (infos.getD [])
  | .getTensorInfo side fetch => ∀ g ∈ s.grpc, g.Fetchable fetch side
  | .prepare c => ∀ g ∈ s.grpc, g.Preparable c
  | .invoke i => ∀ g ∈ s.grpc, g.Invocable i
  | .stop c => ∀ g ∈ s.grpc, g.Stoppable c
  | .newData fetch => ∀ g ∈ s.grpc, g.Feedable fetch
  | _ => True

theorem getResult_yields {g : Grpc} (hg : g.Sound) (f : Fetch) (side : Side) :
    Yields (g.Fetchable f side) (fun x => x.1.Sound) (g.getResult sp f side) := by
  have hget := getTensorInfo_yields sp hg f side
  unfold Grpc.getResult
  cases h : g.getTensorInfo sp f side with
  | error e =>
      rw [h] at hget
      exact hget
  | ok x =>
      rw [h] at hget
      rcases x with ⟨g', r⟩
      cases r <;> exact ⟨hget.1, hget.2.1⟩

theorem newData_yields {g : Grpc} (hg : g.Sound) (f : Fetch) :
    Yields (g.Feedable f) (fun x => x.1.Sound) (g.newData sp f) := by
  rcases hg.gst with ⟨gst, hsome, -⟩
  have hfeedable : g.Feedable f ↔ (gst.playing = true → g.Fetchable f .output) := by
    simp [Grpc.Feedable, hsome]
  refine Yields.congr ?_ hfeedable.symm
  unfold Grpc.newData
  rw [hsome]
  dsimp only
  split
  · rename_i hplaying
    exact ⟨fun h => by simp [hplaying] at h, hg⟩
  · rename_i hplaying
    have hset : gst.playing = true := by simpa using hplaying
    exact (getResult_yields hg f .output).congr ⟨fun h _ => h, fun h => h hset⟩

theorem onGrpc_yields {s : State} (hs : s.Sound) {f : Grpc → Except Crash (Grpc × Result)}
    {ok : Grpc → Prop} (hf : ∀ g ∈ s.grpc, Yields (ok g) (fun x => x.1.Sound) (f g)) :
    Yields (∀ g ∈ s.grpc, ok g) (fun x => x.1.Sound) (s.onGrpc f) := by
  unfold State.onGrpc
  cases hgrpc : s.grpc with
  | none => exact ⟨by simp, hs⟩
  | some g =>
      have hyields := hf g hgrpc
      have hok : ok g ↔ ∀ g' ∈ some g, ok g' := by simp
      refine Yields.congr ?_ hok
      dsimp only
      cases h : f g with
      | error e =>
          rw [h] at hyields
          exact hyields
      | ok x =>
          rw [h] at hyields
          refine ⟨hyields.1, ?_⟩
          intro g' hg'
          cases hg'
          exact ⟨hyields.2, (hs g hgrpc).2⟩

/-- The calls that need an active peer and always return. -/
theorem onGrpc_total {s : State} (hs : s.Sound) {f : Grpc → Except Crash (Grpc × Result)}
    (hf : ∀ g ∈ s.grpc, Yields True (fun x => x.1.Sound) (f g)) :
    Yields True (fun x => x.1.Sound) (s.onGrpc f) :=
  (onGrpc_yields hs hf).congr ⟨fun _ => trivial, fun _ _ _ => trivial⟩

theorem setInfo_yields {s : State} (hs : s.Sound) (info : Option SetInfo.Info) (fails : Nat → Bool)
    (published : Int) :
    Yields (∀ i ∈ info, Copyable fails i) (fun x => x.1.Sound)
      (s.setInfo info fails published) := by
  unfold State.setInfo
  cases info with
  | none => exact ⟨by simp, hs⟩
  | some i =>
      have hcopyable : (∀ i' ∈ some i, Copyable fails i') ↔ Copyable fails i := by simp
      refine Yields.congr ?_ hcopyable.symm
      dsimp only
      cases hhost : i.host with
      | none => exact ⟨fun h => absurd hhost h, hs⟩
      | some host =>
          have hhost' : i.host ≠ none := by simp [hhost]
          have hbuilt := SetInfo.build_spec fails .empty hhost
          dsimp only
          split
          · rename_i hport
            exact ⟨fun _ h => absurd hport h, hs⟩
          · rename_i hport
            generalize SetInfo.build fails (.start .empty) host i = result at hbuilt ⊢
            generalize hend : i.ending fails = e at hbuilt
            cases hbuilt with
            | unreadable fault => exact fun h => h hhost' hport hend
            | refused hbalanced => exact ⟨fun _ _ => by simp [hend], hs⟩
            | whole hgrown hshaped hcontents =>
                exact ⟨fun _ _ => by simp [hend], fun g hg => ⟨(hs g hg).1, by simp⟩⟩

theorem configureReadable_yields {s : State} (hs : s.Sound) (call : ConfigureCall) :
    Yields True (fun x => x.1.Sound) (s.configureReadable call) := by
  unfold State.configureReadable
  cases s.peer.options call with
  | error ret => exact ⟨trivial, hs⟩
  | ok config =>
      dsimp only
      cases hgrpc : s.grpc with
      | none =>
          dsimp only
          split
          · exact ⟨trivial, hs⟩
          · exact ⟨trivial, fun g hg => by simp at hg⟩
      | some g =>
          have hg := hs g hgrpc
          have hconfigure := configure_yields hg.1 call.rpc config
          rcases hconfigure.returns_iff.2 trivial with ⟨⟨g', ret⟩, h⟩
          dsimp only
          rw [h]
          refine ⟨trivial, ?_⟩
          intro g'' hg''
          cases hg''
          exact ⟨hconfigure.good_of_ok h, hg.2⟩

theorem configureCall_yields {s : State} (hs : s.Sound) (options : Configuration) :
    Yields (Ordered s (.configure options)) (fun x => x.1.Sound) (s.configure options) := by
  unfold State.configure
  cases options with
  | missing => exact ⟨trivial, hs⟩
  | authenticator => exact ⟨trivial, hs⟩
  | caAuthenticator => exact ⟨trivial, hs⟩
  | input options formats duplicate rpc =>
      by_cases hreadable : options.readable = true
      · simp only [dif_pos hreadable]
        exact (configureReadable_yields hs _).congr ⟨fun _ => hreadable, fun _ => trivial⟩
      · simp only [dif_neg hreadable]
        exact hreadable

theorem sound_keyExchange {k : KeyExchange} {g : Grpc} (h : k.grpc = .ok g) : g.Sound := by
  unfold KeyExchange.grpc at h
  split at h
  · cases h
  · split at h
    · cases h
    · cases h
      have hfresh : ModelSound {} := fun side => by cases side <;> exact dimsPresent_none
      exact ⟨⟨_, rfl, hfresh⟩, hfresh⟩

theorem activate_yields {s : State} (hs : s.Sound) (c : ActivateCall) :
    Yields True (fun x => x.1.Sound) (s.activate c) := by
  unfold State.activate
  cases hinfo : s.info with
  | none => exact ⟨trivial, hs⟩
  | some info =>
      dsimp only
      split
      · exact ⟨trivial, hs⟩
      · split
        · exact ⟨trivial, hs⟩
        · split
          · exact ⟨trivial, hs⟩
          · split
            · exact ⟨trivial, hs⟩
            · cases hexchanged : c.exchanged.grpc with
              | error ret => exact ⟨trivial, hs⟩
              | ok g =>
                  have hg := sound_keyExchange hexchanged
                  dsimp only
                  cases s.reservedConfiguration with
                  | none =>
                      refine ⟨trivial, ?_⟩
                      intro g' hg'
                      cases hg'
                      exact ⟨hg, by simp⟩
                  | some config =>
                      have hconfigure := configure_yields hg c.rpc config
                      rcases hconfigure.returns_iff.2 trivial with ⟨⟨g', ret⟩, h⟩
                      dsimp only
                      rw [h]
                      dsimp only
                      split
                      · exact ⟨trivial, hs⟩
                      · refine ⟨trivial, ?_⟩
                        intro g'' hg''
                        cases hg''
                        exact ⟨hconfigure.good_of_ok h, by simp⟩

/-- A call returns if and only if what it relies on holds, and it keeps the invariant. -/
theorem call_yields {s : State} (hs : s.Sound) (c : Call) :
    Yields (Ordered s c) (fun x => x.1.Sound) (call sp s c) := by
  cases c with
  | setInfo info fails published => exact yields_code (setInfo_yields hs info fails published)
  | configure options => exact yields_code (configureCall_yields hs options)
  | activate c => exact yields_code (activate_yields hs c)
  | loadModel c =>
      dsimp only [call]
      cases c.model with
      | none => exact ⟨trivial, hs⟩
      | some filename =>
          exact onGrpc_total hs fun g hg => yields_code (loadOrUpload_yields (hs g hg).1 c filename)
  | setTensorInfo side infos rpc memory =>
      dsimp only [call, Ordered]
      split
      · rename_i hinvalid
        exact ⟨fun h => by simp [hinvalid] at h, hs⟩
      · rename_i hvalid
        have hyields := onGrpc_yields hs fun g hg => yields_code
          (setTensorInfo_yields sp (hs g hg).1 rpc memory side (infos.getD []))
        refine hyields.congr ?_
        have hvalid' : invalidInfo (infos.getD []) = false := by simpa using hvalid
        cases s.grpc <;> simp [hvalid']
  | getTensorInfo side fetch =>
      exact onGrpc_yields hs fun g hg => getResult_yields (hs g hg).1 fetch side
  | prepare c =>
      exact onGrpc_yields hs fun g hg => yields_code (prepare_yields (hs g hg).1 c (hs g hg).2)
  | invoke i => exact onGrpc_yields hs fun g hg => yields_code (invoke_yields (hs g hg).1 i)
  | stop c => exact onGrpc_yields hs fun g hg => yields_code (stop_yields (hs g hg).1 c)
  | deactivate =>
      dsimp only [call]
      cases hgrpc : s.grpc with
      | none => exact ⟨trivial, hs⟩
      | some g => exact ⟨trivial, fun g hg => by simp at hg⟩
  | newData fetch => exact onGrpc_yields hs fun g hg => newData_yields (hs g hg).1 fetch

/-! ## Sequences of calls -/

/-- The call gives back a result code. -/
def Returns (sp : Bytes) (s : State) (c : Call) : Prop := ∃ x, call sp s c = .ok x

theorem sound_step {s s' : State} {c : Call} (hs : s.Sound) (h : step sp s c = some s') :
    s'.Sound := by
  rcases step_eq_some.1 h with ⟨r, hr⟩
  exact (call_yields hs c).good_of_ok hr

/-- A peer that is told where the server is and then activated. -/
def activated : List Call :=
  [.setInfo (some hostInfo) (fun _ => false) 0,
    .activate { exchanged := .done ⟨Bytes.decimal 0, 0, []⟩ true }]

end Client
end Peer
end Beyond
