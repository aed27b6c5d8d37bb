import Beyond.Base.Run
import Beyond.Peer.CallOrder
import Beyond.Peer.CallRules

/-!
# Tensor infos and their model

A session stores the tensor infos that were set or extracted, the client caches them, and both keep
them until they are replaced.  `LoadModel` gives the session another model path; of the two models it
resets only the client's.  This module follows under which path each array was recorded.
-/

namespace Beyond
namespace Peer
namespace Client

open Errno GrpcServer

instance Side.decidableForall {p : Side → Prop} [DecidablePred p] : Decidable (∀ side, p side) :=
  decidable_of_iff (p .input ∧ p .output)
    ⟨fun h side => by cases side <;> [exact h.1; exact h.2], fun h => ⟨h .input, h .output⟩⟩

variable {sp : Bytes}

/-! ## The property -/

/-- What a getter gives to the application, and what the server's `Prepare` writes into the pipeline,
was recorded under the model path that the session has. -/
def Current (sp : Bytes) (s : State) (c : Call) : Prop :=
  match c with
  | .getTensorInfo side _ =>
      ∀ s' ret infos, call sp s c = .ok (s', ⟨ret, some infos⟩) → infos ≠ [] →
        ∀ g ∈ s'.grpc, g.cached side = g.session.model.modelPath
  | .prepare p =>
      p.rpc.outcome ≠ .lost → ∀ g ∈ s.grpc, ∀ side,
        g.session.written side ≠ none → g.recorded side = g.session.model.modelPath
  | _ => True

/-- The tensor infos that the session stores were recorded under the given path. -/
def Grpc.RecordedUnder (g : Grpc) (path : Option Bytes) : Prop :=
  ∀ side, hasTensorInfo (g.session.model.info side) = true → g.recorded side = path

instance (g : Grpc) (path : Option Bytes) : Decidable (g.RecordedUnder path) :=
  inferInstanceAs (Decidable (∀ _, _ → _))

/-- A `LoadModel` that gets to the session finds no tensor info there that was recorded under another
path. -/
def Fresh (sp : Bytes) (s : State) : Call → Prop
  | .loadModel c =>
      c.load.outcome ≠ .lost → ∀ filename ∈ c.model, ∀ g ∈ s.grpc,
        g.RecordedUnder (pathLoaded sp c.load.env filename)
  | _ => True

instance (sp : Bytes) (s : State) : (c : Call) → Decidable (Fresh sp s c)
  | .loadModel c =>
      inferInstanceAs (Decidable (c.load.outcome ≠ .lost → ∀ filename ∈ c.model, ∀ g ∈ s.grpc,
        g.RecordedUnder (pathLoaded sp c.load.env filename)))
  | .setInfo .. | .configure _ | .activate _ | .setTensorInfo .. | .getTensorInfo .. | .prepare _
  | .invoke _ | .stop _ | .deactivate | .newData _ => isTrue trivial

/-! ## The invariant -/

/-- All arrays were recorded under the path that the session has, and what the client caches the
session stores as well. -/
structure Grpc.Tagged (g : Grpc) : Prop where
  recorded : g.RecordedUnder g.session.model.modelPath
  cached : ∀ side, hasTensorInfo (g.cachedInfo side) = true →
    g.cached side = g.session.model.modelPath ∧
      hasTensorInfo (g.session.model.info side) = true

def State.Tagged (s : State) : Prop := ∀ g ∈ s.grpc, g.Tagged

theorem Grpc.Tagged.congr {g g' : Grpc} (hg : g.Tagged)
    (hmodel : g'.session.model = g.session.model) (hrecorded : g'.recorded = g.recorded)
    (hcached : g'.cached = g.cached) (hinfo : g'.cachedInfo = g.cachedInfo) : g'.Tagged := by
  constructor
  · unfold Grpc.RecordedUnder
    rw [hmodel, hrecorded]
    exact hg.recorded
  · rw [hmodel, hcached, hinfo]
    exact hg.cached

/-! ## Requests -/

/-- What a request of a session has to meet. -/
def RequestFresh (sp : Bytes) (t : Transit) (g : Grpc) : Request → Prop
  | .loadModel filename =>
      t.outcome ≠ .lost → g.RecordedUnder (pathLoaded sp t.env filename)
  | .setTensorInfo _ wire => wire ≠ []
  | _ => True

theorem hasTensorInfo_requestToInfo {env : Env} {wire : List WireTensorInfo}
    {infos : List TensorInfo} (hwire : wire ≠ []) (h : requestToInfo env wire = .ok infos) :
    hasTensorInfo (some infos) = true := by
  rw [requestToInfo_ok h]
  rcases List.exists_cons_of_ne_nil hwire with ⟨i, rest, rfl⟩
  rfl

section Served

variable {g : Grpc} {env : Env} {session : GrpcServer.Gst} {answer : Answer}

theorem served_keepsModel {r : Request} (hg : g.Tagged) (hr : keepsModel r = true)
    (h : g.session.serve sp env r = .ok (session, answer)) :
    (g.served env r session).Tagged := by
  have hsession := serve_keepsModel hr h
  exact hg.congr hsession.1 (by simp [Grpc.served, hsession.2]) rfl (cachedInfo_congr rfl)

/-- A served `LoadModel` changes the path only.  The infos that stay are those of the new path, and
if there are any, then it is the old one. -/
theorem served_loadModel {filename : Bytes} (hg : g.Tagged)
    (hpath : g.RecordedUnder (pathLoaded sp env filename))
    (h : g.session.serve sp env (.loadModel filename) = .ok (session, answer)) :
    (g.served env (.loadModel filename) session).Tagged := by
  have hmodel := serve_loadModel h
  have hinfo : ∀ side, session.model.info side = g.session.model.info side := by
    intro side
    rw [hmodel]
    cases side <;> rfl
  constructor
  · intro side hhas
    calc g.recorded side = pathLoaded sp env filename := hpath side (by rw [← hinfo]; exact hhas)
      _ = session.model.modelPath := by rw [hmodel]
  · intro side hhas
    have hcached := hg.cached side hhas
    refine ⟨?_, (congrArg hasTensorInfo (hinfo side)).trans hcached.2⟩
    calc g.cached side = g.session.model.modelPath := hcached.1
      _ = g.recorded side := (hg.recorded side hcached.2).symm
      _ = pathLoaded sp env filename := hpath side hcached.2
      _ = session.model.modelPath := by rw [hmodel]

/-- A served request that keeps the path: what the session stores now it stored before, or the
request wrote it. -/
theorem served_writes {r : Request} (hg : g.Tagged)
    (hpath : session.model.modelPath = g.session.model.modelPath)
    (hstored : ∀ side, hasTensorInfo (session.model.info side) = true →
      writes env g.session session r side = true ∨
        hasTensorInfo (g.session.model.info side) = true)
    (hkept : ∀ side, hasTensorInfo (g.session.model.info side) = true →
      hasTensorInfo (session.model.info side) = true) :
    (g.served env r session).Tagged := by
  constructor
  · intro side hhas
    by_cases hwrites : writes env g.session session r side = true
    · exact if_pos hwrites
    · have hbefore := (hstored side hhas).resolve_left hwrites
      calc (g.served env r session).recorded side = g.recorded side := if_neg hwrites
        _ = g.session.model.modelPath := hg.recorded side hbefore
        _ = session.model.modelPath := hpath.symm
  · intro side hhas
    have hcached := hg.cached side hhas
    exact ⟨hcached.1.trans hpath.symm, hkept side hcached.2⟩

theorem served_setTensorInfo {side : Side} {wire : List WireTensorInfo} (hg : g.Tagged)
    (hwire : wire ≠ [])
    (h : g.session.serve sp env (.setTensorInfo side wire) = .ok (session, answer)) :
    (g.served env (.setTensorInfo side wire) session).Tagged := by
  rcases serve_setTensorInfo h with ⟨⟨rfl, -⟩, hwrites⟩ | ⟨⟨infos, hinfos, hmodel⟩, hwrites⟩
  · exact hg.congr rfl (by simp [Grpc.served, hwrites]) rfl (cachedInfo_congr rfl)
  · apply served_writes hg
    case hpath => rw [hmodel, Model.modelPath_store]
    case hstored =>
      intro side' hstored
      by_cases hside : side = side'
      · subst hside
        exact Or.inl (by simp [hwrites])
      · rw [hmodel, Model.info_store_ne _ _ (Ne.symm hside)] at hstored
        exact Or.inr hstored
    case hkept =>
      intro side' hbefore
      rw [hmodel]
      by_cases hside : side' = side
      · subst hside
        rw [Model.info_store_same]
        exact hasTensorInfo_requestToInfo hwire hinfos
      · rw [Model.info_store_ne _ _ hside]
        exact hbefore

theorem served_prepare (hg : g.Tagged)
    (h : g.session.serve sp env .prepare = .ok (session, answer)) :
    (g.served env .prepare session).Tagged := by
  have hmodel := prepare_model g.session env.memory env.prepared
  rw [← serve_prepare h] at hmodel
  apply served_writes hg
  case hpath => exact hmodel.1
  case hstored =>
    intro side hafter
    by_cases hbefore : hasTensorInfo (g.session.model.info side) = true
    · exact Or.inr hbefore
    · exact Or.inl (by simp [writes, hbefore, hafter])
  case hkept =>
    intro side hbefore
    rw [hmodel.2 side hbefore]
    exact hbefore

end Served

theorem request_tagged {t : Transit} {g g' : Grpc} {r : Request} {response : Option Response}
    (hg : g.Tagged) (h : g.request sp t r = .ok (g', response)) (hr : RequestFresh sp t g r) :
    g'.Tagged := by
  rcases request_cases h with ⟨-, rfl, -⟩ | ⟨session, answer, hlost, hserve, rfl, -⟩
  · exact hg
  · cases r with
    | loadModel filename => exact served_loadModel hg (hr hlost) hserve
    | setTensorInfo side wire => exact served_setTensorInfo hg hr hserve
    | prepare => exact served_prepare hg hserve
    | _ => exact served_keepsModel hg rfl hserve

/-! ## Calls -/

/-- A change of the client's `Gst` that leaves its model alone. -/
theorem tagged_setGst {g : Grpc} (hg : g.Tagged) {gst gst' : ClientGst} (h : g.gst = some gst)
    (hmodel : gst'.model = gst.model) : ({ g with gst := some gst' } : Grpc).Tagged := by
  refine hg.congr rfl rfl rfl ?_
  funext side
  rw [cachedInfo_of_gst h, cachedInfo_of_gst (g := { g with gst := some gst' }) rfl, hmodel]

/-- An answer says that the session stores what it was sent. -/
theorem request_setTensorInfo {t : Transit} {g g' : Grpc} {side : Side} {wire : List WireTensorInfo}
    {response : Response} (hwire : wire ≠ [])
    (h : g.request sp t (.setTensorInfo side wire) = .ok (g', some response)) :
    hasTensorInfo (g'.session.model.info side) = true := by
  rcases request_cases h with ⟨-, -, hnone⟩ | ⟨session, answer, -, hserve, rfl, hresponse⟩
  · cases hnone
  · rcases serve_setTensorInfo hserve with ⟨⟨-, hstatus⟩, -⟩ | ⟨⟨infos, hinfos, hmodel⟩, -⟩
    · exact absurd (hresponse response rfl).2 hstatus
    · rw [Grpc.session_served, hmodel, Model.info_store_same]
      exact hasTensorInfo_requestToInfo hwire hinfos

/-- The client caches an array that the session stores, under the tag that it has there. -/
theorem tagged_store {g : Grpc} (hg : g.Tagged) {gst : ClientGst} (hgst : g.gst = some gst)
    {side : Side} {infos : List TensorInfo} {tag : Option Bytes}
    (htag : hasTensorInfo (some infos) = true →
      tag = g.session.model.modelPath ∧ hasTensorInfo (g.session.model.info side) = true) :
    ({ g with
        gst := some { gst with model := gst.model.store side (some infos) }
        cached := Function.update g.cached side tag } : Grpc).Tagged := by
  refine ⟨hg.recorded, ?_⟩
  intro side' h
  rw [cachedInfo_of_gst rfl] at h
  by_cases hside : side' = side
  · subst hside
    rw [Model.info_store_same] at h
    simpa using htag h
  · rw [Model.info_store_ne _ _ hside, ← cachedInfo_of_gst hgst] at h
    simpa [hside] using hg.cached side' h

theorem setTensorInfo_tagged {t : Transit} {memory : Option Int} {g g' : Grpc} {side : Side}
    {infos : List TensorInfo} {ret : Int} (hg : g.Tagged) (hinfos : infos ≠ [])
    (h : g.setTensorInfo sp t memory side infos = .ok (g', ret)) : g'.Tagged := by
  unfold Grpc.setTensorInfo at h
  split at h
  · cases h
  · cases h
    exact hg
  · rename_i wire hwire
    have hne := setRequest_ne_nil hinfos hwire
    split at h
    · cases h
    · rename_i hrequest
      cases h
      exact request_tagged hg hrequest hne
    · rename_i g₁ response hrequest
      have hg₁ := request_tagged hg hrequest hne
      split at h
      · cases h
        exact hg₁
      · split at h
        · cases h
        · rename_i gst hgst
          cases h
          exact tagged_store hg₁ hgst fun _ => ⟨rfl, request_setTensorInfo hne hrequest⟩

theorem infoToResponse_nil_iff {infos : List TensorInfo} {wire : List WireTensorInfo}
    (h : infoToResponse infos = .ok wire) : wire = [] ↔ infos = [] := by
  cases infos with
  | nil =>
      cases h
      simp
  | cons info infos =>
      unfold infoToResponse at h
      split at h
      · cases h
      · cases h
      · cases h
        simp

/-- A message with tensor infos says that the session stores some. -/
theorem request_getTensorInfo_some {t : Transit} {g g' : Grpc} {side : Side} {response : Response}
    (h : g.request sp t (.getTensorInfo side) = .ok (g', some response))
    (hinfos : response.infos ≠ []) : hasTensorInfo (g'.session.model.info side) = true := by
  rcases request_cases h with ⟨-, -, hnone⟩ | ⟨session, answer, -, hserve, rfl, hresponse⟩
  · cases hnone
  · rw [(hresponse response rfl).1] at hinfos
    unfold GrpcServer.Gst.serve at hserve
    dsimp only at hserve
    split at hserve
    · cases hserve
    · split at hserve
      · cases hserve
      · rename_i wire hwire
        cases hserve
        by_contra hhas
        have hnil : (g.session.model.info side).getD [] = [] :=
          hasTensorInfo_eq_false_iff.1 (by simpa using hhas)
        exact hinfos ((infoToResponse_nil_iff hwire).2 hnil)

theorem getTensorInfoFromResponse_ne_nil {debug : Bool} {memory : Option Int}
    {wire : List WireTensorInfo} {infos : List TensorInfo}
    (h : getTensorInfoFromResponse debug memory wire = .ok (.ok infos))
    (hinfos : hasTensorInfo (some infos) = true) : wire ≠ [] := by
  rintro rfl
  unfold getTensorInfoFromResponse at h
  split at h
  · cases h
  · split at h
    · cases h
    · cases h
      cases hinfos

/-- What is got is what is cached then. -/
theorem getTensorInfo_tagged {f : Fetch} {g g' : Grpc} {side : Side}
    {r : Except Int (List TensorInfo)} (hg : g.Tagged)
    (h : g.getTensorInfo sp f side = .ok (g', r)) :
    g'.Tagged ∧ ∀ infos, r = .ok infos → hasTensorInfo (some infos) = true →
      hasTensorInfo (g'.cachedInfo side) = true := by
  unfold Grpc.getTensorInfo at h
  split at h
  · cases h
  · rename_i gst hgst
    split at h
    · rename_i hhas
      cases h
      exact ⟨hg, fun _ _ _ => by rw [cachedInfo_of_gst hgst]; exact hhas⟩
    · split at h
      · cases h
      · rename_i hrequest
        cases h
        exact ⟨request_tagged hg hrequest trivial, nofun⟩
      · rename_i g₁ response hrequest
        have hg₁ := request_tagged hg hrequest trivial
        split at h
        · cases h
        · cases h
          exact ⟨hg₁, nofun⟩
        · rename_i infos hinfos
          cases h
          have hgst₁ : g₁.gst = some gst := (request_gst hrequest).trans hgst
          have hstored : hasTensorInfo (some infos) = true →
              hasTensorInfo (g₁.session.model.info side) = true := fun hhas =>
            request_getTensorInfo_some hrequest (getTensorInfoFromResponse_ne_nil hinfos hhas)
          constructor
          · apply tagged_store hg₁ hgst₁
            intro hhas
            exact ⟨hg₁.recorded side (hstored hhas), hstored hhas⟩
          · intro infos' heq hhas
            cases heq
            rw [cachedInfo_of_gst rfl, Model.info_store_same]
            exact hhas

/-- What the rules of the calls ask of a `LoadModel`. -/
def LoadFresh (sp : Bytes) (g : Grpc) (t : Transit) (filename : Bytes) : Prop :=
  t.outcome ≠ .lost → g.RecordedUnder (pathLoaded sp t.env filename)

theorem rules_tagged : Grpc.Rules sp (LoadFresh sp) (fun _ _ => True) Grpc.Tagged where
  fresh e := by
    constructor
    · intro side hhas
      cases side <;> cases hhas
    · intro side hhas
      cases side <;> cases hhas
  request := by
    intro t g g' r response hg hload hset h
    refine request_tagged hg h ?_
    cases r with
    | loadModel filename => exact hload filename rfl
    | setTensorInfo side wire => exact absurd rfl (hset side wire)
    | _ => trivial
  thread hg hgst hmodel := tagged_setGst hg hgst hmodel
  cleared hg _ := by
    refine ⟨hg.recorded, ?_⟩
    -- Nothing is cached any more.
    intro side hcached
    cases side <;> simp [Grpc.cachedInfo, ClientGst.cleared, Model.store, Model.info] at hcached
  setTensorInfo hg _ hinfos h := setTensorInfo_tagged hg hinfos h
  getTensorInfo hg h := (getTensorInfo_tagged hg h).1

/-- What an application gets was recorded under the path of the session. -/
theorem getResult_tagged {f : Fetch} {side : Side} {g g' : Grpc} {r : Result} (hg : g.Tagged)
    (h : g.getResult sp f side = .ok (g', r)) :
    g'.Tagged ∧ ∀ infos, r.infos = some infos → infos ≠ [] →
      g'.cached side = g'.session.model.modelPath := by
  unfold Grpc.getResult at h
  split at h
  · cases h
  · rename_i hget
    cases h
    exact ⟨(getTensorInfo_tagged hg hget).1, nofun⟩
  · rename_i infos hget
    cases h
    have htagged := getTensorInfo_tagged hg hget
    refine ⟨htagged.1, ?_⟩
    intro infos' heq hne
    cases heq
    rcases List.exists_cons_of_ne_nil hne with ⟨info, rest, rfl⟩
    exact (htagged.1.cached side (htagged.2 _ rfl rfl)).1

theorem call_tagged {s s' : State} {c : Call} {r : Result} (hs : s.Tagged) (hfresh : Fresh sp s c)
    (h : call sp s c = .ok (s', r)) : s'.Tagged := by
  refine rules_tagged.call hs ?_ h
  cases c with
  | loadModel c => exact fun filename hmodel g hgrpc hlost => hfresh hlost filename hmodel g hgrpc
  | _ => trivial

theorem current_of_tagged {s : State} (hs : s.Tagged) (c : Call) : Current sp s c := by
  cases c with
  | getTensorInfo side fetch =>
      intro s' ret infos h hne g' hg'
      rcases onGrpc_ok h with ⟨-, -, hnone⟩ | ⟨g, g₁, hgrpc, hget, rfl⟩
      · cases hnone
      · cases hg'
        exact (getResult_tagged (hs g hgrpc) hget).2 infos rfl hne
  | prepare c =>
      intro _ g hgrpc side hwritten
      apply (hs g hgrpc).recorded
      unfold GrpcServer.Gst.written at hwritten
      split at hwritten
      · rename_i hhas
        exact hhas.2
      · exact absurd rfl hwritten
  | _ => trivial

/-! ## Sequences of calls -/

theorem tagged_create (framework accel : Option Bytes) :
    (State.create framework accel).Tagged := by
  intro g hg
  simp [State.create] at hg

/-- A getter that can get infos gives them back, and caches them with their tag. -/
theorem getTensorInfo_returned (sp : Bytes) {g : Grpc} (hg : g.Sound) {side : Side}
    (hhas : hasTensorInfo (g.session.model.info side) = true) :
    ∃ g' infos, g.getTensorInfo sp {} side = .ok (g', .ok infos) ∧ infos ≠ [] ∧
      g'.session = g.session ∧
      g'.cached side =
        if hasTensorInfo (g.cachedInfo side) = true then g.cached side else g.recorded side := by
  rcases hg.gst with ⟨gst, hgst, -⟩
  have hinfo := cachedInfo_of_gst hgst side
  unfold Grpc.getTensorInfo
  rw [hgst, hinfo]
  dsimp only
  by_cases hcached : hasTensorInfo (gst.model.info side) = true
  · refine ⟨g, (gst.model.info side).getD [], by simp [hcached], ?_, rfl, by simp [hcached]⟩
    intro hnil
    rw [hasTensorInfo_eq_false_iff.2 hnil] at hcached
    cases hcached
  · have hservable : Servable Env.plain g.session (.getTensorInfo side) := fun _ => hhas
    rcases request_getTensorInfo sp hg {} side (by decide) hservable with
      ⟨wire, hrequest, hnil⟩
    have hwire : wire ≠ [] := by
      intro h
      rw [hnil.1 h] at hhas
      cases hhas
    rw [if_neg hcached, if_neg hcached, hrequest]
    simp [getTensorInfoFromResponse, Response.infos, hwire]

theorem uploadModel_session {t : Transit} {g g' : Grpc} {file : Except Int (List Bytes)} {ret : Int}
    (h : g.uploadModel sp t file = .ok (g', ret)) :
    g'.session.model = g.session.model ∧ g'.recorded = g.recorded ∧ g'.cached = g.cached ∧
      g'.cachedInfo = g.cachedInfo := by
  have hrequest : ∀ {chunks : List Bytes} {g₁ : Grpc} {response : Option Response},
      g.request sp t (.uploadModel chunks) = .ok (g₁, response) →
        g₁.session.model = g.session.model ∧ g₁.recorded = g.recorded ∧ g₁.cached = g.cached ∧
          g₁.cachedInfo = g.cachedInfo := by
    intro chunks g₁ response hr
    rcases request_cases hr with ⟨-, rfl, -⟩ | ⟨session, answer, -, hserve, rfl, -⟩
    · exact ⟨rfl, rfl, rfl, rfl⟩
    · have hsession := serve_keepsModel rfl hserve
      exact ⟨hsession.1, by simp [Grpc.served, hsession.2], rfl, cachedInfo_congr rfl⟩
  unfold Grpc.uploadModel at h
  split at h
  · cases h
    exact ⟨rfl, rfl, rfl, rfl⟩
  · split at h
    · cases h
    · rename_i hr
      cases h
      exact hrequest hr
    · rename_i hr
      cases h
      exact hrequest hr

/-- What a `LoadModel` that gets to the session leaves: the new path, the old infos with their tags,
and on the client nothing or what was cached before. -/
structure Reloaded (path : Option Bytes) (g g' : Grpc) : Prop where
  model : g'.session.model = { g.session.model with modelPath := path }
  recorded : g'.recorded = g.recorded
  cached : g'.cached = g.cached
  cachedInfo : ∀ side, hasTensorInfo (g'.cachedInfo side) = true →
    hasTensorInfo (g.cachedInfo side) = true

theorem loadModel_reloaded {t : Transit} {g g' : Grpc} {filename : Bytes} {ret : Int}
    (hlost : t.outcome ≠ .lost) (h : g.loadModel sp t filename = .ok (g', ret)) :
    Reloaded (pathLoaded sp t.env filename) g g' := by
  have hrequest : ∀ {g₁ : Grpc} {response : Option Response},
      g.request sp t (.loadModel filename) = .ok (g₁, response) →
        Reloaded (pathLoaded sp t.env filename) g g₁ := by
    intro g₁ response hr
    rcases request_cases hr with ⟨hl, -, -⟩ | ⟨session, answer, -, hserve, rfl, -⟩
    · exact absurd hl hlost
    · exact ⟨serve_loadModel hserve, by simp [Grpc.served, writes], rfl, fun side hside => hside⟩
  unfold Grpc.loadModel at h
  split at h
  · cases h
  · rename_i hr
    cases h
    exact hrequest hr
  · rename_i hr
    have hreloaded := hrequest hr
    split at h
    · cases h
    · cases h
      refine ⟨hreloaded.model, hreloaded.recorded, hreloaded.cached, ?_⟩
      intro side hside
      cases side <;> simp [Grpc.cachedInfo, Model.store, Model.info] at hside

theorem loadOrUpload_reloaded {c : LoadModelCall} {g g' : Grpc} {filename : Bytes} {ret : Int}
    (hlost : c.load.outcome ≠ .lost) (h : g.loadOrUpload sp c filename = .ok (g', ret)) :
    Reloaded (pathLoaded sp c.load.env filename) g g' := by
  unfold Grpc.loadOrUpload at h
  split at h
  · cases h
  · rename_i hload
    have hreloaded := loadModel_reloaded hlost hload
    split at h
    · rcases uploadModel_session h with ⟨hmodel, hrecorded, hcached, hinfo⟩
      refine ⟨hmodel.trans hreloaded.model, hrecorded.trans hreloaded.recorded,
        hcached.trans hreloaded.cached, ?_⟩
      rw [hinfo]
      exact hreloaded.cachedInfo
    · cases h
      exact hreloaded

/-- Whatever the next call is, it gets and writes current infos only. -/
def ShapesCurrent (sp : Bytes) (s : State) : Prop := ∀ c, Current sp s c

/-- An array that the session stores under another tag than its path can be got. -/
theorem not_shapesCurrent {s : State} {g : Grpc} (hgrpc : s.grpc = some g) (hg : g.Sound)
    (side : Side) (hhas : hasTensorInfo (g.session.model.info side) = true)
    (hcached : hasTensorInfo (g.cachedInfo side) = true →
      g.cached side ≠ g.session.model.modelPath)
    (hrecorded : g.recorded side ≠ g.session.model.modelPath) : ¬ShapesCurrent sp s := by
  intro h
  rcases getTensorInfo_returned sp hg hhas with ⟨g', infos, hget, hne, hsession, htag⟩
  have hcall : call sp s (.getTensorInfo side {}) =
      .ok ({ s with grpc := some g' }, ⟨0, some infos⟩) := by
    simp [call, State.onGrpc, hgrpc, Grpc.getResult, hget]
  have hcurrent := h (.getTensorInfo side {}) _ _ infos hcall hne g' rfl
  rw [htag, hsession] at hcurrent
  split at hcurrent
  · rename_i hc
    exact hcached hc hcurrent
  · exact hrecorded hcurrent

/-- A `LoadModel` that is not fresh leaves an array behind that is not of the new model. -/
theorem fresh_of_shapesCurrent {s : State} (hs : s.Sound) (htagged : s.Tagged) {c : Call}
    (h : ∀ s', step sp s c = some s' → ShapesCurrent sp s') : Fresh sp s c := by
  cases c with
  | loadModel c =>
      intro hlost filename hmodel g hgrpc side hhas
      by_contra hstale
      -- The call returns, and the session has the new path then.
      have hyields : Yields _ _ (call sp s (.loadModel c)) := call_yields hs (.loadModel c)
      rcases hyields.returns_iff.2 trivial with ⟨⟨s', r⟩, hcall⟩
      have hsound' := hyields.good_of_ok hcall
      have hcurrent := h s' (step_eq_some.2 ⟨r, hcall⟩)
      have hload : s.onGrpc (fun g => code (g.loadOrUpload sp c filename)) = .ok (s', r) := by
        simpa [call, Option.mem_def.1 hmodel] using hcall
      rcases onGrpc_ok hload with ⟨hnone, -, -⟩ | ⟨g₀, g', hgrpc₀, hg', rfl⟩
      · rw [Option.mem_def.1 hgrpc] at hnone
        cases hnone
      · cases (Option.mem_def.1 hgrpc).symm.trans hgrpc₀
        rcases code_ok hg' with ⟨ret, hret, -⟩
        have hreloaded := loadOrUpload_reloaded hlost hret
        have htag := (htagged g hgrpc).recorded side hhas
        have hpath : g'.session.model.modelPath = pathLoaded sp c.load.env filename := by
          rw [hreloaded.model]
        refine not_shapesCurrent rfl (hsound' g' rfl).1 side ?_ ?_ ?_ hcurrent
        · rw [hreloaded.model]
          cases side <;> exact hhas
        · intro hcached
          rw [hpath, hreloaded.cached]
          have hold := ((htagged g hgrpc).cached side (hreloaded.cachedInfo side hcached)).1
          rw [hold, ← htag]
          exact hstale
        · rw [hpath, hreloaded.recorded]
          exact hstale
  | _ => trivial

/-- Along a sequence of calls no tensor info ever outlives its model if and only if every `LoadModel`
is fresh. -/
theorem shapes_current_iff (sp : Bytes) (framework accel : Option Bytes) (calls : List Call) :
    Run.Along (step sp) (fun s c => ∀ s', step sp s c = some s' → ShapesCurrent sp s')
        (State.create framework accel) calls ↔
      Run.Along (step sp) (Fresh sp) (State.create framework accel) calls := by
  apply Run.along_congr (I := fun s => s.Sound ∧ s.Tagged)
  · intro s c s' hs hfresh hstep
    rcases step_eq_some.1 hstep with ⟨r, hcall⟩
    exact ⟨sound_step hs.1 hstep, call_tagged hs.2 hfresh hcall⟩
  · intro s c hs
    refine ⟨fresh_of_shapesCurrent hs.1 hs.2, ?_⟩
    intro hfresh s' hstep
    rcases step_eq_some.1 hstep with ⟨r, hcall⟩
    exact current_of_tagged (call_tagged hs.2 hfresh hcall)
  · exact ⟨sound_create framework accel, tagged_create framework accel⟩

/-- The codes of the calls, up to the first that does not return. -/
def codes (sp : Bytes) : State → List Call → List Int
  | _, [] => []
  | s, c :: calls =>
      match call sp s c with
      | .error _ => []
      | .ok (s, r) => r.ret :: codes sp s calls

/-- An outside in which the pipeline thread extracts the shape of a model's input. -/
def extracting : Transit :=
  { env :=
      { Env.plain with prepared := ⟨0, 0, 0, 5000, 5001, some [⟨0, 4, none, some [1, 4]⟩], none⟩ } }

/-- A model is loaded and prepared, and then another one is loaded. -/
def twoModels : List Call :=
  activated ++
    [.loadModel { model := some (Bytes.ascii "a") }, .prepare { rpc := extracting },
      .loadModel { model := some (Bytes.ascii "b") }]

/-- All calls succeed, and then the client gets the input shape of the first model. -/
theorem twoModels_stale :
    codes [] (State.create none none) twoModels = [0, 0, 0, 0, 0] ∧
      ¬Run.Along (step []) (fun s c => ∀ s', step [] s c = some s' → ShapesCurrent [] s')
        (State.create none none) twoModels := by
  refine ⟨by decide, ?_⟩
  intro h
  have hlast := ((((h.2 _ rfl).2 _ rfl).2 _ rfl).2 _ rfl).1 _ rfl
  have hget := hlast (.getTensorInfo .input {}) _ _ _ rfl (List.cons_ne_nil _ _) _ rfl
  exact absurd hget (by decide)

end Client
end Peer
end Beyond
