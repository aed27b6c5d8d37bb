import Beyond.Peer.CallOrder
import Beyond.Peer.Isolation

/-!
# A server of one's own

The model of a client keeps the session beside it and serves the client's requests from there.  The
server has many sessions, an authentication in front of them, and other clients that call in between.
For a client that sends its requests in order this makes no difference: it gets the answers that a
session of its own gives where files, measurements and memory answer the same, and that session is
what the server has under its id.
-/

namespace Beyond
namespace Peer
namespace GrpcServer

open Client

/-! ## The abstract server -/

/-- The answers of one session to a list of requests, up to the first at which the server stops
working, and the session behind them. -/
def serveAll (storagePath : Bytes) : Gst → List (Request × Transit) → List Outcome × Option Gst
  | gst, [] => ([], some gst)
  | gst, (r, t) :: rest =>
      match gst.serve storagePath t.env r with
      | .error e => ([.lost e], none)
      | .ok (gst, a) =>
          (.answered a :: (serveAll storagePath gst rest).1, (serveAll storagePath gst rest).2)

/-- The messages of the requests, with what the server meets while it serves them. -/
def messages (requests : List (Request × Transit)) : List (Rpc × Env) :=
  requests.map fun r => (r.1.rpc, r.2.env)

/-! ## One request -/

theorem isExchangeKey_rpc (r : Request) : r.rpc.isExchangeKey = false := by
  cases r with
  | getTensorInfo side => cases side <;> rfl
  | setTensorInfo side request => cases side <;> rfl
  | _ => rfl

theorem model_setNonce (gst : Gst) (nonce : UInt64) : (gst.setNonce nonce).model = gst.model := rfl

/-- No request reads or writes the nonce. -/
theorem serve_setNonce (storagePath : Bytes) (env : Env) (gst : Gst) (nonce : UInt64) (r : Request) :
    (gst.setNonce nonce).serve storagePath env r =
      (gst.serve storagePath env r).map fun x => (x.1.setNonce nonce, x.2) := by
  cases r with
  | configure server => rfl
  | loadModel filename =>
      simp only [Gst.serve]
      cases env.strdupErrno <;> rfl
  | uploadModel chunks =>
      simp only [Gst.serve, model_setNonce]
      cases gst.model.modelPath with
      | none => rfl
      | some path => cases env.fopenErrno <;> rfl
  | getTensorInfo side =>
      by_cases hdebug : env.debug = true ∧ hasTensorInfo (gst.model.info side) = false
      · simp [Gst.serve, model_setNonce, hdebug, Except.map]
      · cases hinfo : infoToResponse ((gst.model.info side).getD []) <;>
          simp [Gst.serve, model_setNonce, hdebug, hinfo, Except.map]
  | setTensorInfo side request =>
      simp only [Gst.serve, model_setNonce]
      cases requestToInfo env request <;> rfl
  | prepare =>
      have hprepare : (gst.setNonce nonce).prepare env.memory env.prepared =
          (((gst.prepare env.memory env.prepared).1.setNonce nonce),
            (gst.prepare env.memory env.prepared).2) := by
        unfold Gst.prepare Gst.commandHandlerPrepare Gst.setNonce
        dsimp only
        cases gst.model.modelPath with
        | none => rfl
        | some path => repeat' split <;> try rfl
      have hwritten : ∀ side, (gst.setNonce nonce).written side = gst.written side := fun _ => rfl
      by_cases hdims : DimsPresent (gst.written .input) ∧ DimsPresent (gst.written .output) <;>
        simp [Gst.serve, hprepare, hwritten, hdims, Except.map]
  | stop => rfl

/-- None of the answers gives out an id. -/
theorem serve_withoutId {storagePath : Bytes} {env : Env} {gst gst' : Gst} {r : Request} {a : Answer}
    (h : gst.serve storagePath env r = .ok (gst', a)) : a.withoutId = a := by
  cases r with
  | configure server =>
      cases h
      rfl
  | loadModel filename =>
      simp only [Gst.serve] at h
      split at h <;> cases h <;> rfl
  | uploadModel chunks =>
      simp only [Gst.serve] at h
      split at h
      · cases h
        rfl
      · split at h <;> cases h <;> rfl
  | getTensorInfo side =>
      simp only [Gst.serve] at h
      split at h
      · cases h
      · split at h <;> cases h
        rfl
  | setTensorInfo side request =>
      simp only [Gst.serve] at h
      split at h <;> cases h <;> rfl
  | prepare =>
      simp only [Gst.serve] at h
      split at h <;> cases h
      rfl
  | stop =>
      cases h
      rfl

/-- A handler looks at nothing but the id of the metadata. -/
theorem handle_congr (srv : Server) (env : Env) {metadata metadata' : Metadata} (rpc : Rpc)
    (h : metadata.lookup keyId = metadata'.lookup keyId) :
    handle srv env metadata rpc = handle srv env metadata' rpc := by
  have hget : getGst srv metadata = getGst srv metadata' := by simp [getGst, h]
  cases rpc <;>
    simp only [handle, configure, loadModel, uploadModel, getInputTensorInfo, getOutputTensorInfo,
      getTensorInfo, setInputTensorInfo, setOutputTensorInfo, setTensorInfo, prepare, stop, withGst,
      hget]

theorem storagePath_handle {srv srv' : Server} {env : Env} {metadata : Metadata} {rpc : Rpc}
    {a : Answer} (h : handle srv env metadata rpc = .ok (srv', a)) :
    srv'.storagePath = srv.storagePath := by
  by_cases huses : rpc.usesGst = true
  · rcases handle_touches huses h with heq | ⟨id, ref, gst, -, -, heq⟩
    · rw [heq]
      exact (keeps_getGst [] srv metadata).storagePath
    · rw [heq]
      rfl
  · cases rpc with
    | exchangeKey key =>
        cases exchangeKey_exchanged h with
        | failed _ => rfl
        | done gst => rfl
    | getInfo => exact (keeps_getInfo [] h).storagePath
    | _ => exact absurd rfl huses

theorem storagePath_step {auth : Bool} {w w' : World} {c : Call} (h : step auth w c = some w') :
    w'.srv.storagePath = w.srv.storagePath := by
  have hadm : (admission auth w.srv c.metadata).1.storagePath = w.srv.storagePath := by
    unfold admission
    split
    · have hp := processed w.srv c.metadata
      revert hp
      generalize process w.srv c.metadata = r
      intro hp
      cases hp with
      | exempted _ => rfl
      | accepted _ _ _ _ _ => rfl
      | refused _ _ _ => rfl
      | unknown _ _ _ _ => exact (keeps_client [] _ w.srv).storagePath
    · rfl
  cases (stepped h).2 with
  | refused _ => exact hadm
  | crashed _ _ => exact hadm
  | answered _ hhandle => exact (storagePath_handle hhandle).trans hadm

/-- The session in the server is the client's own, but for the nonce. -/
structure Holds (w : World) (id : Bytes) (ref : GstRef) (gst : Gst) (nonce : UInt64) : Prop where
  lookup : w.srv.clientMap.lookup id = some (some ref)
  same : w.srv.gst ref = gst.setNonce nonce
  sound : ModelSound gst.model

/-- The server serves the next request of a client like the client's own session. -/
theorem holds_step {w w' : World} {id : Bytes} {ref : GstRef} {gst : Gst} {nonce : UInt64}
    {r : Request} {t : Transit} (h : Holds w id ref gst nonce) (hid : id ≠ [])
    (hstep : step true w ⟨r.rpc, (GrpcClient.getMetadata id nonce r.rpc.methodName).1, t.env⟩ =
      some w') :
    match gst.serve w.srv.storagePath t.env r with
    | .error e =>
        outcome true w ⟨r.rpc, (GrpcClient.getMetadata id nonce r.rpc.methodName).1, t.env⟩ =
          .lost e ∧ w'.fault = some e
    | .ok (gst', a) =>
        outcome true w ⟨r.rpc, (GrpcClient.getMetadata id nonce r.rpc.methodName).1, t.env⟩ =
          .answered a ∧ w'.fault = none ∧
          Holds w' id ref gst' (GrpcClient.getMetadata id nonce r.rpc.methodName).2 := by
  have hexempt : exempt r.rpc.methodName = false := by
    rw [exempt_methodName, isExchangeKey_rpc]
  have hnonce : (w.srv.gst ref).nonce = nonce := by rw [h.same, Gst.nonce_setNonce]
  have hprocess := @GrpcClient.process_getMetadata _ _ _ _ nonce h.lookup hid
    (methodName_ne_nil r.rpc) hexempt
  rw [if_pos hnonce.symm] at hprocess
  -- Behind `Process` the session has the client's next nonce.
  have hmoved : (w.srv.gst ref).setNonce (GrpcClient.getMetadata id nonce r.rpc.methodName).2 =
      gst.setNonce (GrpcClient.getMetadata id nonce r.rpc.methodName).2 := by
    rw [h.same]
    rfl
  rw [hmoved] at hprocess
  generalize hnext : (GrpcClient.getMetadata id nonce r.rpc.methodName).2 = next at hprocess ⊢
  have hadm : admission true w.srv (GrpcClient.getMetadata id nonce r.rpc.methodName).1 =
      (w.srv.setGst ref (gst.setNonce next), .accepted) := hprocess
  have hlookup : (GrpcClient.getMetadata id nonce r.rpc.methodName).1.lookup keyId =
      [(keyId, id)].lookup keyId := by
    rw [(GrpcClient.lookup_getMetadata id nonce hexempt).2.2]
    rfl
  have hdims : DimsPresent ((gst.setNonce next).written .input) ∧
      DimsPresent ((gst.setNonce next).written .output) := by
    exact ⟨@dimsPresent_written gst h.sound .input, @dimsPresent_written gst h.sound .output⟩
  have hserve : handle (w.srv.setGst ref (gst.setNonce next)) t.env
      (GrpcClient.getMetadata id nonce r.rpc.methodName).1 r.rpc =
      (w.srv.setGst ref (gst.setNonce next)).after ref
        ((gst.setNonce next).serve w.srv.storagePath t.env r) := by
    rw [handle_congr _ _ _ hlookup]
    have hhandle := @handle_serve (w.srv.setGst ref (gst.setNonce next)) t.env id ref r hid h.lookup
    rw [Server.gst_setGst_same] at hhandle
    exact hhandle fun _ => hdims
  have hfault := (stepped hstep).1
  have hyields := serve_yields w.srv.storagePath t h.sound r
  unfold outcome
  unfold step at hstep
  rw [if_neg (by simp [hfault]), if_neg (by rw [hadm]; simp [Status.accepted])] at hstep
  rw [if_neg (by rw [hadm]; simp [Status.accepted])]
  simp only [hadm, hserve, serve_setNonce] at hstep ⊢
  cases hs : gst.serve w.srv.storagePath t.env r with
  | error e =>
      rw [hs] at hstep
      cases hstep
      exact ⟨rfl, rfl⟩
  | ok x =>
      rcases x with ⟨gst', a⟩
      rw [hs] at hstep hyields
      cases hstep
      refine ⟨?_, hfault, ⟨h.lookup, ?_, hyields.2⟩⟩
      · simp [Except.map, Server.after, serve_withoutId hs]
      · simp

/-! ## A whole run -/

/-- Alone on the server, a client that sends its requests in order gets the answers of a session of
its own. -/
theorem holds_run {w w' : World} {id : Bytes} {ref : GstRef} {gst : Gst} {nonce : UInt64}
    {requests : List (Request × Transit)} (h : Holds w id ref gst nonce) (hid : id ≠ [])
    (hrun : Run.exec (step true) w (clientCalls id nonce (messages requests)).1 = some w') :
    Run.observed (step true) (outcome true) (ofSession id) w
        (clientCalls id nonce (messages requests)).1 = (serveAll w.srv.storagePath gst requests).1 ∧
      match (serveAll w.srv.storagePath gst requests).2 with
      | none => w'.fault ≠ none
      | some gst' => Holds w' id ref gst' (clientCalls id nonce (messages requests)).2 := by
  induction requests generalizing w gst nonce with
  | nil =>
      cases hrun
      exact ⟨rfl, h⟩
  | cons x rest ih =>
      rcases x with ⟨r, t⟩
      rcases Run.exec_cons_some.1 hrun with ⟨u, hu, hrest⟩
      have hexempt : exempt r.rpc.methodName = false := by
        rw [exempt_methodName, isExchangeKey_rpc]
      have hmine : ofSession id ⟨r.rpc, (GrpcClient.getMetadata id nonce r.rpc.methodName).1,
          t.env⟩ = true := by
        simp [ofSession, (GrpcClient.lookup_getMetadata id nonce hexempt).2.2]
      have hpath := storagePath_step hu
      have hstep := holds_step h hid hu
      have hobs := @Run.observed_mine _ _ _ (step true) (outcome true) (ofSession id) w u _
        (clientCalls id (GrpcClient.getMetadata id nonce r.rpc.methodName).2 (messages rest)).1
        hmine hu
      simp only [messages, List.map_cons, clientCalls] at hobs ⊢
      rw [serveAll]
      cases hs : gst.serve w.srv.storagePath t.env r with
      | error e =>
          rw [hs] at hstep
          rw [hobs, hstep.1]
          -- Behind a fault there is no step any more, so this was the last request.
          cases rest with
          | nil =>
              cases hrest
              exact ⟨rfl, by simp [hstep.2]⟩
          | cons y rest =>
              rcases Run.exec_cons_some.1 hrest with ⟨v, hv, -⟩
              have hnone := (stepped hv).1
              rw [hstep.2] at hnone
              cases hnone
      | ok y =>
          rcases y with ⟨gst', a⟩
          rw [hs] at hstep
          rcases hstep with ⟨hout, -, hholds⟩
          rcases ih hholds hrest with ⟨hobs', hend⟩
          rw [hobs, hout, hpath.symm] at *
          exact ⟨congrArg _ hobs', hend⟩

/-- Whatever other clients call in between, a client that sends the requests of its session in order
gets the answers that a session of its own gives if it meets what these requests met, and finds that
session in the server. -/
theorem own_server (info : Option PeerInfo) (storagePath : Bytes) (heap : GstRef → Gst)
    (before calls : List Call) (w w' : World) (id : Bytes) (gst : Gst)
    (requests : List (Request × Transit))
    (hbefore : Run.exec (step true) (World.start info storagePath heap) before = some w)
    (hid : Issued w id) (hgst : session w.srv id = some gst) (hsound : ModelSound gst.model)
    (hcalls : Run.exec (step true) w calls = some w')
    (hmine : calls.filter (ofSession id) = (clientCalls id gst.nonce (messages requests)).1)
    (hcount : (before ++ calls).countP (·.rpc.isExchangeKey) ≤ 2 ^ 64) :
    Run.observed (step true) (outcome true) (ofSession id) w calls =
        (serveAll storagePath gst requests).1 ∧
      (w'.fault = none → ∃ gst', (serveAll storagePath gst requests).2 = some gst' ∧
        session w'.srv id =
          some (gst'.setNonce (clientCalls id gst.nonce (messages requests)).2)) := by
  rcases others_invisible true info storagePath heap before calls w w' id hbefore hid hcalls hcount
    with ⟨t, ht, hobs, hend⟩
  have hw : Tabled w ∧ Orderly w := tabled_orderly_run
    ⟨tabled_start info storagePath heap, separate_start info storagePath heap,
      numbered_start info storagePath heap⟩ hbefore
  rcases hw.1.kept id hid with ⟨ref, href⟩
  have hne : id ≠ [] := by
    rcases hw.2.numbered.ids id hid with ⟨j, -, rfl⟩
    exact Bytes.decimal_ne_nil _
  have hpath : w.srv.storagePath = storagePath :=
    Run.exec_preserved (I := fun w => w.srv.storagePath = storagePath)
      (fun _ _ _ hw h => (storagePath_step h).trans hw) rfl hbefore
  cases (session_of_lookup href).symm.trans hgst
  rw [hmine] at ht hobs
  rcases holds_run ⟨href, rfl, hsound⟩ hne ht with ⟨hall, hstate⟩
  rw [hpath] at hall hstate
  refine ⟨hobs.trans hall, fun hfault => ?_⟩
  rcases hend hfault with ⟨hrunning, gst', hw', ht'⟩
  cases hs : (serveAll storagePath (w.srv.gst ref) requests).2 with
  | none =>
      rw [hs] at hstate
      exact absurd hrunning hstate
  | some own =>
      rw [hs] at hstate
      refine ⟨own, rfl, ?_⟩
      rw [hw', ← hstate.same, ← session_of_lookup hstate.lookup, ht']

/-- Two clients of one server, of which the first is configured and then stopped. -/
theorem mingled_own_server :
    ∃ w, Run.exec (step true) World.empty arrivals = some w ∧
      Run.observed (step true) (outcome true) (ofSession (Bytes.ascii "0")) w mingled =
        [.answered ⟨.OK, .plain 0⟩, .answered ⟨.OK, .plain 0⟩] := by
  refine ⟨_, rfl, ?_⟩
  exact (own_server none [] (fun _ => { peerId := [], nonce := 0 }) arrivals mingled _ _
    (Bytes.ascii "0") _ [(.configure ⟨1, none, none, none, none⟩, {}), (.stop, {})] rfl
    ⟨0, by decide⟩ rfl (fun side => by cases side <;> decide) rfl rfl (by decide)).1

end GrpcServer
end Peer
end Beyond
