import Beyond.Peer.Config

/-!
# Configuring before or after activation

The same calls of `Configure`, with all requests and allocations succeeding, made before `Activate`
or behind it.  Before, each call replaces the whole reserved configuration, and `Activate` applies the
last one; behind it, each call updates the two ends field by field.
-/

namespace Beyond
namespace Peer

/-- Calls whose requests and allocations all succeed; there are none if one of them does not return. -/
def plainCalls : List Options → Option (List ConfigureCall)
  | [] => some []
  | o :: os =>
      if h : o.readable = true then
        (plainCalls os).map fun calls => { options := o, readable := h } :: calls
      else none

/-- The stored fields of two links are the same. -/
structure SameFields (a b : Link) : Prop where
  clientRtp : a.client.rtpConfig = b.client.rtpConfig
  clientPreprocessing : a.client.preprocessing = b.client.preprocessing
  clientPostprocessing : a.client.postprocessing = b.client.postprocessing
  serverRtp : a.server.rtpConfig = b.server.rtpConfig
  serverPreprocessing : a.server.preprocessing = b.server.preprocessing
  serverPostprocessing : a.server.postprocessing = b.server.postprocessing
  framework : a.server.framework = b.server.framework
  accel : a.server.accel = b.server.accel

/-- In both orders all calls return, and both end with an active peer and the same stored fields. -/
def OrderIrrelevant (p : ClientPeer) (e : Exchange) (options : List Options) : Prop :=
  ∃ calls a b, plainCalls options = some calls ∧ (p.session calls e []).grpc = some a ∧
    (p.session [] e calls).grpc = some b ∧ SameFields a b

/-- The configurations that a list of calls stands for; unsupported ones are refused. -/
def ClientPeer.configs (p : ClientPeer) (calls : List ConfigureCall) : List PluginConfig :=
  calls.filterMap fun call => (p.options call).toOption

/-- The last configuration leaves nothing to the earlier ones: where it gives no text or no media
type they gave none either, and its client's type is what the server was told last. -/
structure Decides (earlier : List PluginConfig) (last : PluginConfig) : Prop where
  preprocessing : last.client.preprocessing = none →
    (latest (earlier.map fun c => c.client.preprocessing)).getD [] = []
  postprocessing : last.client.postprocessing = none →
    (latest (earlier.map fun c => c.client.postprocessing)).getD [] = []
  clientMedia : mediaOf last.client.inputType = none →
    latest (earlier.map fun c => mediaOf c.client.inputType) = none
  serverMedia :
    (mediaOf last.server.inputType).or (latest (earlier.map fun c => mediaOf c.server.inputType)) =
      mediaOf last.client.inputType

/-! ## The calls -/

theorem plainCalls_eq_none_iff {options : List Options} :
    plainCalls options = none ↔ ∃ o ∈ options, o.readable = false := by
  induction options with
  | nil => simp [plainCalls]
  | cons o os ih =>
      unfold plainCalls
      split
      · rename_i h
        simp [ih, h]
      · rename_i h
        simp [h]

/-- Nothing of a plain call fails. -/
theorem plain_of_mem {options : List Options} {calls : List ConfigureCall}
    (h : plainCalls options = some calls) :
    ∀ call ∈ calls, call.duplicate = true ∧ call.rpc = .answered := by
  induction options generalizing calls with
  | nil =>
      cases h
      simp
  | cons o os ih =>
      unfold plainCalls at h
      split at h
      · rcases Option.map_eq_some_iff.1 h with ⟨rest, hrest, rfl⟩
        intro call hcall
        rcases List.mem_cons.1 hcall with rfl | hmem
        · exact ⟨rfl, rfl⟩
        · exact ih hrest call hmem
      · cases h

/-! ## The descriptions of the two orders -/

namespace ClientPeer

variable (p : ClientPeer) {calls : List ConfigureCall}
  (hplain : ∀ call ∈ calls, call.duplicate = true ∧ call.rpc = .answered)

include hplain

theorem reservedBy_plain :
    p.reservedBy calls =
      ((p.configs calls).getLast?.map duplicateConfig).or p.reservedConfiguration := by
  have hreserves : ∀ call ∈ calls,
      p.reserves call = (p.options call).toOption.map duplicateConfig := by
    intro call hcall
    unfold reserves
    rw [(hplain call hcall).1]
    cases p.options call <;> rfl
  have hlatest : latest (calls.map fun call => (p.options call).toOption) =
      (p.configs calls).getLast? := latest_map_eq_getLast? _ _
  rw [reservedBy, List.map_congr_left hreserves, ← hlatest, ← latest_map, List.map_map]
  rfl

theorem givesClient_plain :
    calls.filterMap p.givesClient = (p.configs calls).map PluginConfig.client := by
  rw [configs, List.map_filterMap]
  refine List.filterMap_congr fun call hcall => ?_
  unfold givesClient
  rw [(hplain call hcall).2]
  cases p.options call <;> rfl

theorem givesServer_plain :
    calls.filterMap p.givesServer = (p.configs calls).map PluginConfig.server := by
  rw [configs, List.map_filterMap]
  refine List.filterMap_congr fun call hcall => ?_
  unfold givesServer
  rw [(hplain call hcall).2]
  cases p.options call <;> rfl

end ClientPeer

/-! ## Field by field -/

section Fields

variable {client : GrpcClient.Gst} {server server' : GrpcServer.Gst}
  {earlier : List PluginConfig} {last : PluginConfig}

theorem getD_or_eq_iff {α : Type*} {u v : Option α} {d : α} :
    u.getD d = (u.or v).getD d ↔ (u = none → v.getD d = d) := by
  cases u <;> simp [eq_comm]

theorem or_eq_iff {α : Type*} {u v : Option α} : u = u.or v ↔ (u = none → v = none) := by
  cases u <;> simp [eq_comm]

theorem clientPreprocessing_iff (hclient : client.preprocessing = []) :
    (client.configure last.client).preprocessing =
        (((earlier ++ [last]).map PluginConfig.client).foldl GrpcClient.Gst.configure
          client).preprocessing ↔
      (last.client.preprocessing = none →
        (latest (earlier.map fun c => c.client.preprocessing)).getD [] = []) := by
  have hfold := foldl_getD (fun gst c => GrpcClient.Gst.preprocessing_configure gst c) client
    ((earlier ++ [last]).map PluginConfig.client)
  rw [hfold]
  simp only [List.map_map, List.map_append, List.map_singleton, latest_concat, hclient,
    GrpcClient.Gst.preprocessing_configure, Function.comp_def, getD_or_eq_iff]

theorem clientPostprocessing_iff (hclient : client.postprocessing = []) :
    (client.configure last.client).postprocessing =
        (((earlier ++ [last]).map PluginConfig.client).foldl GrpcClient.Gst.configure
          client).postprocessing ↔
      (last.client.postprocessing = none →
        (latest (earlier.map fun c => c.client.postprocessing)).getD [] = []) := by
  have hfold := foldl_getD (fun gst c => GrpcClient.Gst.postprocessing_configure gst c) client
    ((earlier ++ [last]).map PluginConfig.client)
  rw [hfold]
  simp only [List.map_map, List.map_append, List.map_singleton, latest_concat, hclient,
    GrpcClient.Gst.postprocessing_configure, Function.comp_def, getD_or_eq_iff]

theorem clientRtp_iff (hclient : client.rtpConfig = none) :
    (client.configure last.client).rtpConfig =
        (((earlier ++ [last]).map PluginConfig.client).foldl GrpcClient.Gst.configure
          client).rtpConfig ↔
      (mediaOf last.client.inputType = none →
        latest (earlier.map fun c => mediaOf c.client.inputType) = none) := by
  have hfold := foldl_or (fun gst c => GrpcClient.Gst.rtpConfig_configure gst c) client
    ((earlier ++ [last]).map PluginConfig.client)
  rw [hfold, GrpcClient.Gst.rtpConfig_configure, hclient, Option.or_none, Option.or_none]
  have hmap : (((earlier ++ [last]).map PluginConfig.client).map fun c =>
      (mediaOf c.inputType).map Media.clientRtp) =
        ((earlier ++ [last]).map fun c => mediaOf c.client.inputType).map
          (Option.map Media.clientRtp) := by
    simp
  rw [hmap, latest_map, (Option.map_injective Media.clientRtp_injective).eq_iff, List.map_append,
    List.map_singleton, latest_concat, or_eq_iff]

theorem serverRtp_iff (hserver : server.rtpConfig = none) (hserver' : server'.rtpConfig = none) :
    (server.receive (ClientPeer.duplicateConfig last).server).rtpConfig =
        (((earlier ++ [last]).map PluginConfig.server).foldl GrpcServer.Gst.receive
          server').rtpConfig ↔
      (mediaOf last.server.inputType).or
          (latest (earlier.map fun c => mediaOf c.server.inputType)) =
        mediaOf last.client.inputType := by
  have hfold := foldl_or (fun gst s => GrpcServer.Gst.rtpConfig_receive gst s) server'
    ((earlier ++ [last]).map PluginConfig.server)
  rw [hfold, GrpcServer.Gst.rtpConfig_receive, hserver, hserver', Option.or_none, Option.or_none]
  have hmap : (((earlier ++ [last]).map PluginConfig.server).map fun s =>
      (mediaOf s.inputType).map Media.serverRtp) =
        ((earlier ++ [last]).map fun c => mediaOf c.server.inputType).map
          (Option.map Media.serverRtp) := by
    simp
  rw [hmap, latest_map, (Option.map_injective Media.serverRtp_injective).eq_iff, List.map_append,
    List.map_singleton, latest_concat]
  exact eq_comm

/-- One application of the last configuration's copy against all configurations one after the other;
what a description sets in any case cannot differ. -/
theorem sameFields_iff (hrtp : client.rtpConfig = none) (hpre : client.preprocessing = [])
    (hpost : client.postprocessing = []) (hserver : server.rtpConfig = none)
    (hserver' : server'.rtpConfig = none) :
    SameFields
        ⟨client.configure last.client, server.receive (ClientPeer.duplicateConfig last).server⟩
        ⟨((earlier ++ [last]).map PluginConfig.client).foldl GrpcClient.Gst.configure client,
          ((earlier ++ [last]).map PluginConfig.server).foldl GrpcServer.Gst.receive server'⟩ ↔
      Decides earlier last := by
  have hlast : ((earlier ++ [last]).map PluginConfig.server).foldl GrpcServer.Gst.receive server' =
      ((earlier.map PluginConfig.server).foldl GrpcServer.Gst.receive server').receive
        last.server := by
    simp
  constructor
  · intro h
    exact ⟨(clientPreprocessing_iff hpre).1 h.clientPreprocessing,
      (clientPostprocessing_iff hpost).1 h.clientPostprocessing, (clientRtp_iff hrtp).1 h.clientRtp,
      (serverRtp_iff hserver hserver').1 h.serverRtp⟩
  · intro h
    refine ⟨(clientRtp_iff hrtp).2 h.clientMedia, (clientPreprocessing_iff hpre).2 h.preprocessing,
      (clientPostprocessing_iff hpost).2 h.postprocessing,
      (serverRtp_iff hserver hserver').2 h.serverMedia, ?_, ?_, ?_, ?_⟩
    all_goals rw [hlast]; rfl

end Fields

/-! ## Main result -/

theorem SameFields.refl (a : Link) : SameFields a a := ⟨rfl, rfl, rfl, rfl, rfl, rfl, rfl, rfl⟩

/-- The configuration that `Create` reserves changes nothing on the client. -/
theorem foldl_created (framework accel : Option Bytes) (gst : GrpcClient.Gst) :
    ((ClientPeer.create framework accel).reservedConfiguration.toList.map PluginConfig.client).foldl
      GrpcClient.Gst.configure gst = gst := by
  cases framework <;> rfl

theorem rtpConfig_created (framework accel : Option Bytes) (gst : GrpcServer.Gst) :
    (((ClientPeer.create framework accel).reservedConfiguration.toList.map
      PluginConfig.server).foldl GrpcServer.Gst.receive gst).rtpConfig = gst.rtpConfig := by
  cases framework <;> rfl

theorem orderIrrelevant_of_calls {p : ClientPeer} {e : Exchange} {options : List Options}
    {calls : List ConfigureCall} {a b : Link} (hcalls : plainCalls options = some calls)
    (ha : (p.session calls e []).grpc = some a) (hb : (p.session [] e calls).grpc = some b) :
    OrderIrrelevant p e options ↔ SameFields a b := by
  constructor
  · rintro ⟨calls', a', b', hcalls', ha', hb', h⟩
    rw [hcalls] at hcalls'
    cases hcalls'
    rw [ha] at ha'
    rw [hb] at hb'
    cases ha'
    cases hb'
    exact h
  · exact fun h => ⟨calls, a, b, hcalls, ha, hb, h⟩

/-- When all calls return, the order makes no difference exactly when the last configuration, if
there is one, decides. -/
theorem orderIrrelevant_calls_iff (framework accel : Option Bytes) (e : Exchange)
    {options : List Options} {calls : List ConfigureCall} (hcalls : plainCalls options = some calls) :
    OrderIrrelevant (ClientPeer.create framework accel) e options ↔
      ∀ earlier last, (ClientPeer.create framework accel).configs calls = earlier ++ [last] →
        Decides earlier last := by
  have hplain := plain_of_mem hcalls
  have hgrpc := ClientPeer.grpc_create framework accel
  have hclient := foldl_created framework accel
  have hserver := rtpConfig_created framework accel
  generalize ClientPeer.create framework accel = p at hgrpc hclient hserver ⊢
  have hbefore := ClientPeer.grpc_session hgrpc calls e []
  have hafter := ClientPeer.grpc_session hgrpc [] e calls
  have hreserved : p.reservedBy [] = p.reservedConfiguration := rfl
  simp only [ClientPeer.clientDescriptions, ClientPeer.serverDescriptions,
    p.reservedBy_plain hplain, p.givesClient_plain hplain, p.givesServer_plain hplain, hreserved,
    List.foldl_append, hclient, List.filterMap_nil, List.foldl_nil] at hbefore hafter
  rw [orderIrrelevant_of_calls hcalls hbefore hafter]
  rcases List.eq_nil_or_concat (p.configs calls) with hnil | ⟨earlier, last, hconfigs⟩
  · -- Nothing is applied but what `Create` reserved.
    simp only [hnil, List.getLast?_nil, Option.map_none, Option.none_or, List.map_nil,
      List.foldl_nil, hclient]
    refine ⟨fun _ earlier last h => ?_, fun _ => SameFields.refl _⟩
    simp at h
  · have hlast : (p.configs calls).getLast? = some last := by simp [hconfigs]
    simp only [hlast, Option.map_some, Option.some_or, Option.toList_some, List.map_singleton,
      List.foldl_cons, List.foldl_nil, ClientPeer.client_duplicateConfig]
    rw [hconfigs, List.concat_eq_append]
    have hrtp : e.link.server.rtpConfig = none := rfl
    refine Iff.trans (sameFields_iff rfl rfl rfl hrtp ((hserver e.link.server).trans hrtp)) ?_
    refine ⟨fun h earlier' last' heq => ?_, fun h => h earlier last rfl⟩
    rcases List.append_singleton_inj.1 heq with ⟨rfl, rfl⟩
    exact h

/-- The order makes no difference exactly when no call has an image or video configuration without a
format and the last configuration, if there is one, decides. -/
theorem orderIrrelevant_iff (framework accel : Option Bytes) (e : Exchange)
    (options : List Options) :
    OrderIrrelevant (ClientPeer.create framework accel) e options ↔
      (∀ o ∈ options, o.readable = true) ∧
        ∀ calls, plainCalls options = some calls → ∀ earlier last,
          (ClientPeer.create framework accel).configs calls = earlier ++ [last] →
            Decides earlier last := by
  cases hcalls : plainCalls options with
  | none =>
      rcases plainCalls_eq_none_iff.1 hcalls with ⟨o, ho, hunreadable⟩
      constructor
      · rintro ⟨calls, a, b, h, -⟩
        rw [hcalls] at h
        cases h
      · rintro ⟨h, -⟩
        rw [h o ho] at hunreadable
        cases hunreadable
  | some calls =>
      have hreadable : ∀ o ∈ options, o.readable = true := by
        intro o ho
        by_contra hunreadable
        have hnone := plainCalls_eq_none_iff.2 ⟨o, ho, by simpa using hunreadable⟩
        rw [hcalls] at hnone
        cases hnone
      rw [orderIrrelevant_calls_iff framework accel e hcalls, and_iff_right hreadable]
      simp

/-- A configuration for images, and one behind it that leaves the client's preprocessing open. -/
def imageThenOpen : List Options :=
  [.plugin ⟨⟨0x02, some (Bytes.ascii "jpegenc"), none⟩,
      ⟨0x02, some (Bytes.ascii "jpegdec !"), none, none, none⟩⟩,
    .plugin ⟨⟨0x02, none, none⟩, ⟨0x02, none, none, none, none⟩⟩]

/-- The text of the first call is kept only by the peer that is active already. -/
theorem imageThenOpen_order_matters :
    ¬ OrderIrrelevant (ClientPeer.create none none) ⟨Bytes.ascii "0", 0, []⟩ imageThenOpen := by
  rintro ⟨calls, a, b, hcalls, ha, hb, h⟩
  cases hcalls
  cases ha
  cases hb
  exact absurd h.clientPreprocessing (by decide)

end Peer
end Beyond
