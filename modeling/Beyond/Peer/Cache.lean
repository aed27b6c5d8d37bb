import Beyond.Base.Run
import Beyond.Peer.CallRules

/-!
# The client's cache of tensor infos

The client keeps the tensor infos that it has set or got in its own `Model`, and asks the server only
when it has none.  The session's `Model` is written by the setters and by `Prepare`, which extracts
what is missing.
-/

namespace Beyond
namespace Peer

namespace Client

open Errno GrpcServer

variable {sp : Bytes}

/-! ## The property -/

/-- The array that the client caches for a side is empty, or that of the session. -/
def Grpc.Coherent (g : Grpc) : Prop :=
  ∀ side, values (g.cachedInfo side) = [] ∨
    values (g.cachedInfo side) = values (g.session.model.info side)

def State.Coherent (s : State) : Prop := ∀ g ∈ s.grpc, g.Coherent

/-- The request of a setter is answered, if it is delivered, and the client can copy what it has
set. -/
def SetterAnswered : Call → Prop
  | .setTensorInfo _ _ rpc memory => rpc.outcome ≠ .unanswered ∧ memory = none
  | _ => True

/-! ## Requests -/

/-- A request other than a setter's leaves every array of the session that is there. -/
theorem serve_keepsInfos {env : Env} {gst session : GrpcServer.Gst} {r : Request} {answer : Answer}
    (hset : ∀ side wire, r ≠ .setTensorInfo side wire)
    (h : gst.serve sp env r = .ok (session, answer)) (side : Side)
    (hhas : hasTensorInfo (gst.model.info side) = true) :
    session.model.info side = gst.model.info side := by
  cases r with
  | setTensorInfo side' wire => exact absurd rfl (hset side' wire)
  | loadModel filename =>
      rw [serve_loadModel h]
      cases side <;> rfl
  | prepare =>
      rw [serve_prepare h]
      exact (prepare_model gst env.memory env.prepared).2 side hhas
  | _ => rw [(serve_keepsModel rfl h).1]

theorem Grpc.Coherent.congr {g g' : Grpc} (hg : g.Coherent) (hinfo : g'.cachedInfo = g.cachedInfo)
    (hsession : ∀ side, hasTensorInfo (g.session.model.info side) = true →
      g'.session.model.info side = g.session.model.info side) : g'.Coherent := by
  intro side
  rw [hinfo]
  refine or_iff_not_imp_left.2 fun hne => ?_
  have hsame := (hg side).resolve_left hne
  -- What the client caches the session has, so it is left alone.
  have hhas : hasTensorInfo (g.session.model.info side) = true := by
    rw [hasTensorInfo_iff_values, ← hsame]
    exact hne
  rw [hsession side hhas]
  exact hsame

theorem request_coherent {t : Transit} {g g' : Grpc} {r : Request} {response : Option Response}
    (hg : g.Coherent) (hset : ∀ side wire, r ≠ .setTensorInfo side wire)
    (h : g.request sp t r = .ok (g', response)) : g'.Coherent := by
  have hgst := request_gst h
  rcases request_cases h with ⟨-, rfl, -⟩ | ⟨session, answer, -, hserve, rfl, -⟩
  · exact hg
  · exact hg.congr (cachedInfo_congr hgst) (serve_keepsInfos hset hserve)

/-- A setter's request that is lost or answered: there is a response if and only if the session
stores the array. -/
theorem request_setTensorInfo_cases {t : Transit} {g g' : Grpc} {side : Side}
    {wire : List WireTensorInfo} {response : Option Response} (hanswered : t.outcome ≠ .unanswered)
    (h : g.request sp t (.setTensorInfo side wire) = .ok (g', response)) :
    response = none ∧ g'.session = g.session ∨
      response ≠ none ∧ g'.session.model =
        g.session.model.store side (some (wire.map WireTensorInfo.info)) := by
  unfold Grpc.request at h
  split at h
  · cases h
    exact .inl ⟨rfl, rfl⟩
  · rename_i hlost
    have houtcome : t.outcome = .answered := by
      cases hout : t.outcome with
      | answered => rfl
      | lost => exact absurd hout hlost
      | unanswered => exact absurd hout hanswered
    unfold GrpcServer.Gst.serve at h
    dsimp only at h
    cases hinfo : requestToInfo t.env wire with
    | error ret =>
        rw [hinfo] at h
        cases h
        exact .inl ⟨by simp, rfl⟩
    | ok infos =>
        rw [hinfo] at h
        cases h
        refine .inr ⟨by simp [houtcome, Status.OK], ?_⟩
        rw [requestToInfo_ok hinfo]

/-! ## Calls -/

/-- The client caches what the session has. -/
theorem coherent_store {g : Grpc} {gst : ClientGst} (hgst : g.gst = some gst) {side : Side}
    {infos : List TensorInfo} {cached : Side → Option Bytes}
    (hside : values (some infos) = values (g.session.model.info side))
    (hother : ∀ side', side' ≠ side → values (g.cachedInfo side') = [] ∨
      values (g.cachedInfo side') = values (g.session.model.info side')) :
    ({ g with
        gst := some { gst with model := gst.model.store side (some infos) }
        cached := cached } : Grpc).Coherent := by
  intro side'
  rw [cachedInfo_of_gst rfl]
  by_cases h : side' = side
  · subst h
    rw [Model.info_store_same]
    exact .inr hside
  · rw [Model.info_store_ne _ _ h, ← cachedInfo_of_gst hgst]
    exact hother side' h

theorem setTensorInfo_coherent {t : Transit} {g g' : Grpc} {side : Side} {infos : List TensorInfo}
    {ret : Int} (hg : g.Coherent) (hanswered : t.outcome ≠ .unanswered)
    (h : g.setTensorInfo sp t none side infos = .ok (g', ret)) : g'.Coherent := by
  unfold Grpc.setTensorInfo at h
  split at h
  · cases h
  · cases h
    exact hg
  · rename_i wire hwire
    split at h
    · cases h
    · rename_i hrequest
      cases h
      have hgst := request_gst hrequest
      rcases request_setTensorInfo_cases hanswered hrequest with ⟨-, hsession⟩ | ⟨hsome, -⟩
      · exact hg.congr (cachedInfo_congr hgst) fun side _ => by rw [hsession]
      · exact absurd rfl hsome
    · rename_i g₁ response hrequest
      have hinfo := cachedInfo_congr (request_gst hrequest)
      rcases request_setTensorInfo_cases hanswered hrequest with ⟨hnone, -⟩ | ⟨-, hmodel⟩
      · cases hnone
      · dsimp only at h
        split at h
        · cases h
        · rename_i gst hgst
          cases h
          apply coherent_store hgst
          · rw [hmodel, Model.info_store_same]
            exact (values_setRequest hwire).symm
          · intro side' hne
            rw [hinfo, hmodel, Model.info_store_ne _ _ hne]
            exact hg side'

/-- An answer to a getter carries the array of the session. -/
theorem request_getTensorInfo_values {t : Transit} {g g' : Grpc} {side : Side} {response : Response}
    (h : g.request sp t (.getTensorInfo side) = .ok (g', some response)) :
    values (some (response.infos.map WireTensorInfo.info)) =
      values (g'.session.model.info side) := by
  rcases request_cases h with ⟨-, -, hnone⟩ | ⟨session, answer, -, hserve, rfl, hresponse⟩
  · cases hnone
  · rw [(hresponse response rfl).1]
    unfold GrpcServer.Gst.serve at hserve
    dsimp only at hserve
    split at hserve
    · cases hserve
    · split at hserve
      · cases hserve
      · rename_i wire hwire
        cases hserve
        exact values_infoToResponse hwire

theorem getTensorInfo_coherent {f : Fetch} {g g' : Grpc} {side : Side}
    {r : Except Int (List TensorInfo)} (hg : g.Coherent)
    (h : g.getTensorInfo sp f side = .ok (g', r)) : g'.Coherent := by
  unfold Grpc.getTensorInfo at h
  split at h
  · cases h
  · rename_i gst hgst
    split at h
    · cases h
      exact hg
    · split at h
      · cases h
      · rename_i hrequest
        cases h
        exact request_coherent hg (by simp) hrequest
      · rename_i g₁ response hrequest
        have hg₁ := request_coherent hg (by simp) hrequest
        split at h
        · cases h
        · cases h
          exact hg₁
        · rename_i infos hinfos
          cases h
          apply coherent_store ((request_gst hrequest).trans hgst)
          · rw [getTensorInfoFromResponse_ok hinfos]
            exact request_getTensorInfo_values hrequest
          · exact fun side' _ => hg₁ side'

theorem rules_coherent :
    Grpc.Rules sp (fun _ _ _ => True) (fun t memory => t.outcome ≠ .unanswered ∧ memory = none)
      Grpc.Coherent where
  fresh e := fun side => by cases side <;> exact .inl rfl
  request hg _ hset h := request_coherent hg hset h
  thread hg hgst hmodel := by
    refine hg.congr ?_ fun _ _ => rfl
    funext side
    rw [cachedInfo_of_gst rfl, cachedInfo_of_gst hgst, hmodel]
  cleared _ _ := fun side => by cases side <;> exact .inl rfl
  setTensorInfo hg hset _ h := by
    cases hset.2
    exact setTensorInfo_coherent hg hset.1 h
  getTensorInfo hg h := getTensorInfo_coherent hg h

/-! ## Main result -/

theorem coherent_create (framework accel : Option Bytes) :
    (State.create framework accel).Coherent := by
  intro g hg
  simp [State.create] at hg

theorem call_coherent {s s' : State} {c : Call} {r : Result} (hs : s.Coherent)
    (hc : SetterAnswered c) (h : call sp s c = .ok (s', r)) : s'.Coherent := by
  refine rules_coherent.call hs ?_ h
  cases c with
  | setTensorInfo side infos rpc memory => exact hc
  | loadModel c => exact fun _ _ _ _ => trivial
  | _ => trivial

/-- After any calls in any order, of which the setters were answered, what the client caches is what
the session stores. -/
theorem cache_coherent (sp : Bytes) (framework accel : Option Bytes) (calls : List Call)
    {s : State} (hset : ∀ c ∈ calls, SetterAnswered c)
    (hexec : Run.exec (step sp) (State.create framework accel) calls = some s) : s.Coherent := by
  apply Run.exec_invariant (G := fun _ c => SetterAnswered c) (I := State.Coherent)
  · intro s c s' hs hc hstep
    rcases step_eq_some.1 hstep with ⟨r, hcall⟩
    exact call_coherent hs hc hcall
  · exact coherent_create framework accel
  · exact (Run.along_iff_forall hexec).2 hset
  · exact hexec

/-- A peer that is activated, sets the shape of the input and asks for that of the output. -/
def setThenGot : List Call :=
  [.setInfo (some hostInfo) (fun _ => false) 0,
    .activate { exchanged := .done ⟨Bytes.decimal 0, 0, []⟩ true },
    .setTensorInfo .input (some [⟨0, 4, none, some [1, 4]⟩]) {} none,
    .getTensorInfo .output {}]

theorem setThenGot_coherent :
    ∃ s, Run.exec (step []) (State.create none none) setThenGot = some s ∧ s.Coherent := by
  refine ⟨_, rfl, cache_coherent [] none none setThenGot ?_ rfl⟩
  simp [setThenGot, SetterAnswered]

end Client
end Peer
end Beyond
