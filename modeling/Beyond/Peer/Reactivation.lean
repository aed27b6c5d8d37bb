import Beyond.Base.Run
import Beyond.Peer.Config

/-!
# Activating a peer more than once

Every activation exchanges a new key, and so starts with a session on the server and a `Gst` on the
client that know nothing.  What they are told is `reservedConfiguration`.  `Create` and the calls of
`Configure` on a peer that is not active fill it, and a successful `Activate` frees it.

Beside the peer we keep its latest configuration, which is what the two ends should be told.
-/

namespace Beyond
namespace Peer

open Errno

/-! ## Configurations that are stored the same way -/

/-- Both ends store the same for `c` and `d`. -/
structure PluginConfig.Agrees (c d : PluginConfig) : Prop where
  client : c.client = d.client
  media : mediaOf c.server.inputType = mediaOf d.server.inputType
  texts : { c.server with inputType := d.server.inputType } = d.server

/-- The ends of a session store what `config` says, and have nothing from elsewhere. -/
structure Link.Holds (link : Link) (config : PluginConfig) : Prop where
  clientRtp : link.client.rtpConfig = (mediaOf config.client.inputType).map Media.clientRtp
  clientPreprocessing : link.client.preprocessing = config.client.preprocessing.getD []
  clientPostprocessing : link.client.postprocessing = config.client.postprocessing.getD []
  serverRtp : link.server.rtpConfig = (mediaOf config.server.inputType).map Media.serverRtp
  serverPreprocessing :
    link.server.preprocessing = Bytes.cstring (config.server.preprocessing.getD [])
  serverPostprocessing :
    link.server.postprocessing = Bytes.cstring (config.server.postprocessing.getD [])
  framework : link.server.framework =
    if Bytes.cstring (config.server.framework.getD []) = [] then Bytes.ascii "tensorflow-lite"
    else Bytes.cstring (config.server.framework.getD [])
  accel : link.server.accel =
    if Bytes.cstring (config.server.accel.getD []) = [] then Bytes.ascii "accelerator=true:gpu"
    else Bytes.ascii "accelerator=true:" ++ Bytes.cstring (config.server.accel.getD [])

/-- The texts that `Prepare` writes into the pipeline behind `tensor_filter`. -/
def Link.FilterNamed (link : Link) : Prop :=
  link.server.framework ≠ [] ∧ link.server.accel ≠ []

namespace Link.Holds

variable {link : Link} {c d : PluginConfig}

theorem filterNamed (h : link.Holds c) : link.FilterNamed := by
  constructor
  · rw [h.framework]
    split
    · decide
    · assumption
  · rw [h.accel]
    split
    · decide
    · exact List.append_ne_nil_of_left_ne_nil (by decide) _

theorem of_agrees (h : link.Holds c) (hagrees : c.Agrees d) : link.Holds d := by
  rcases c with ⟨client, type, pre, post, framework, accel⟩
  rcases d with ⟨client', type', pre', post', framework', accel'⟩
  rcases hagrees with ⟨hclient, hmedia, htexts⟩
  cases hclient
  cases htexts
  exact { h with serverRtp := h.serverRtp.trans (congrArg (Option.map Media.serverRtp) hmedia) }

end Link.Holds

/-- Two ends that have just exchanged their key hold what they are told first. -/
theorem Exchange.holds (e : Exchange) (config : PluginConfig) :
    Link.Holds ⟨e.link.client.configure config.client, e.link.server.receive config.server⟩
      config := by
  refine ⟨?_, rfl, rfl, ?_, rfl, rfl, ?_, ?_⟩
  · rw [GrpcClient.Gst.rtpConfig_configure]
    exact Option.or_none
  · rw [GrpcServer.Gst.rtpConfig_receive]
    exact Option.or_none
  · exact GrpcServer.Gst.framework_configure _
      (receivedConfig (GrpcClient.configureRequest config.server))
  · exact GrpcServer.Gst.accel_configure _
      (receivedConfig (GrpcClient.configureRequest config.server))

theorem Exchange.not_filterNamed (e : Exchange) : ¬ e.link.FilterNamed := fun h => h.2 rfl

/-- A copy is stored as its original where that names one media type. -/
theorem agrees_duplicateConfig {config : PluginConfig}
    (h : mediaOf config.client.inputType = mediaOf config.server.inputType) :
    (ClientPeer.duplicateConfig config).Agrees config :=
  ⟨rfl, h, rfl⟩

/-! ## Calls -/

/-- `Peer::Deactivate` on a client. -/
def ClientPeer.deactivate (p : ClientPeer) : ClientPeer × Int :=
  match p.grpc with
  | none => (p, -EILSEQ)
  | some _ => ({ p with grpc := none }, 0)

namespace Reactivation

inductive Call
  | configure (call : ConfigureCall)
  | activate (exchanged : Except Int Exchange) (rpc : RpcOutcome)
  | deactivate

/-- A client peer, and the configuration that was accepted last. -/
structure State where
  peer : ClientPeer
  latest : PluginConfig

/-- What a peer is to be configured with if the application does not call `Configure`. -/
def created (framework accel : Option Bytes) : State :=
  { peer := ClientPeer.create framework accel
    latest := ⟨⟨0, none, none⟩, ⟨0, none, none, framework, accel⟩⟩ }

/-- The latest configuration behind a call of `Configure`: its own, unless the call fails. -/
def State.latestAfter (s : State) (call : ConfigureCall) : PluginConfig :=
  match s.peer.options call with
  | .error _ => s.latest
  | .ok config => if (s.peer.configureInput call).2 < 0 then s.latest else config

def step (s : State) : Call → Option State
  | .configure call => some ⟨(s.peer.configureInput call).1, s.latestAfter call⟩
  | .activate exchanged rpc => some { s with peer := (s.peer.activate exchanged rpc).1 }
  | .deactivate => some { s with peer := s.peer.deactivate.1 }

/-- If the call activates the peer, then both ends hold the latest configuration and the texts of
the tensor filter are not empty. -/
def Restored (s : State) : Call → Prop
  | .activate exchanged rpc =>
      s.peer.grpc = none → ∀ link, (s.peer.activate exchanged rpc).1.grpc = some link →
        link.Holds s.latest ∧ link.FilterNamed
  | _ => True

/-- If the call exchanges a key, then a configuration is reserved. -/
def Reserved (s : State) : Call → Prop
  | .activate exchanged _ =>
      s.peer.grpc = none → (∃ e, exchanged = .ok e) → s.peer.reservedConfiguration ≠ none
  | _ => True

/-- A configuration that is accepted before the activation can be copied, and names one media type
for both ends. -/
def Copied (s : State) : Call → Prop
  | .configure call =>
      s.peer.grpc = none → ∀ config, s.peer.options call = .ok config →
        call.duplicate = true ∧
          mediaOf config.client.inputType = mediaOf config.server.inputType
  | _ => True

/-! ## The reserved configuration -/

/-- What is reserved is the latest configuration, and nothing is while the peer is active. -/
structure State.Kept (s : State) : Prop where
  latest : ∀ c ∈ s.peer.reservedConfiguration, c.Agrees s.latest
  consumed : s.peer.grpc ≠ none → s.peer.reservedConfiguration = none

theorem kept_created (framework accel : Option Bytes) : (created framework accel).Kept := by
  refine ⟨?_, fun h => absurd (ClientPeer.grpc_create framework accel) h⟩
  cases framework with
  | none => simp [created, ClientPeer.create]
  | some framework =>
      intro c hc
      cases hc
      exact ⟨rfl, rfl, rfl⟩

variable {s s' : State} {c : Call}

theorem kept_configure {call : ConfigureCall} (hs : s.Kept) (hcopied : Copied s (.configure call)) :
    State.Kept ⟨(s.peer.configureInput call).1, s.latestAfter call⟩ := by
  rcases s with ⟨⟨framework, accel, reserved, grpc⟩, latest⟩
  cases hoptions : ClientPeer.options ⟨framework, accel, reserved, grpc⟩ call with
  | error ret =>
      simp only [State.latestAfter, ClientPeer.configureInput, hoptions]
      exact hs
  | ok config =>
      cases grpc with
      | none =>
          -- Only here is something reserved.
          have hcopy := hcopied rfl config hoptions
          simp only [State.latestAfter, ClientPeer.configureInput, hoptions, hcopy.1]
          refine ⟨fun c hc => ?_, fun h => absurd rfl h⟩
          cases hc
          exact agrees_duplicateConfig hcopy.2
      | some link =>
          -- Nothing is, so nothing can be older than the call.
          have hnone : reserved = none := hs.consumed (by simp)
          cases hnone
          cases hrpc : call.rpc <;>
            exact ⟨by simp [ClientPeer.configureInput, hoptions, hrpc],
              by simp [ClientPeer.configureInput, hoptions, hrpc]⟩

theorem kept_activate (hs : s.Kept) (exchanged : Except Int Exchange) (rpc : RpcOutcome) :
    State.Kept { s with peer := (s.peer.activate exchanged rpc).1 } := by
  rcases s with ⟨⟨framework, accel, reserved, grpc⟩, latest⟩
  cases grpc with
  | some link => exact hs
  | none =>
      cases exchanged with
      | error ret => exact hs
      | ok e =>
          cases reserved with
          | none => exact ⟨by simp [ClientPeer.activate], fun _ => rfl⟩
          | some config =>
              cases rpc with
              | answered => exact ⟨by simp [ClientPeer.activate], fun _ => rfl⟩
              | lost => exact hs
              | unanswered => exact hs

theorem kept_deactivate (hs : s.Kept) : State.Kept { s with peer := s.peer.deactivate.1 } := by
  rcases s with ⟨⟨framework, accel, reserved, grpc⟩, latest⟩
  cases grpc with
  | none => exact hs
  | some link => exact ⟨hs.latest, fun h => absurd rfl h⟩

theorem kept_step (hs : s.Kept) (hcopied : Copied s c) (h : step s c = some s') : s'.Kept := by
  cases c with
  | configure call =>
      cases h
      exact kept_configure hs hcopied
  | activate exchanged rpc =>
      cases h
      exact kept_activate hs exchanged rpc
  | deactivate =>
      cases h
      exact kept_deactivate hs

/-! ## Activations -/

/-- Without a reservation the ends stay as the key exchange left them. -/
theorem not_restored_of_unreserved {e : Exchange} {rpc : RpcOutcome} (hgrpc : s.peer.grpc = none)
    (hreserved : s.peer.reservedConfiguration = none) : ¬ Restored s (.activate (.ok e) rpc) := by
  intro h
  have hlink : (s.peer.activate (.ok e) rpc).1.grpc = some e.link := by
    simp [ClientPeer.activate, hgrpc, hreserved]
  exact e.not_filterNamed (h hgrpc e.link hlink).2

theorem restored_of_reserved {e : Exchange} {rpc : RpcOutcome} {config : PluginConfig}
    (hs : s.Kept) (hreserved : s.peer.reservedConfiguration = some config) :
    Restored s (.activate (.ok e) rpc) := by
  intro hgrpc link hlink
  have hagrees := hs.latest config hreserved
  cases rpc with
  | answered =>
      simp only [ClientPeer.activate, hgrpc, hreserved] at hlink
      cases hlink
      have hholds := e.holds config
      exact ⟨hholds.of_agrees hagrees, hholds.filterNamed⟩
  | lost => simp [ClientPeer.activate, hgrpc, hreserved] at hlink
  | unanswered => simp [ClientPeer.activate, hgrpc, hreserved] at hlink

theorem restored_iff (hs : s.Kept) (c : Call) : Restored s c ↔ Reserved s c := by
  cases c with
  | configure call => exact Iff.rfl
  | deactivate => exact Iff.rfl
  | activate exchanged rpc =>
      cases exchanged with
      | error ret =>
          refine ⟨fun _ _ ⟨e, he⟩ => by simp at he, fun _ hgrpc link hlink => ?_⟩
          simp [ClientPeer.activate, hgrpc] at hlink
      | ok e =>
          cases hreserved : s.peer.reservedConfiguration with
          | none =>
              constructor
              · intro h hgrpc
                exact absurd h (not_restored_of_unreserved hgrpc hreserved)
              · intro h hgrpc
                exact absurd hreserved (h hgrpc ⟨e, rfl⟩)
          | some config =>
              constructor
              · intro _ _ _
                simp [hreserved]
              · intro _
                exact restored_of_reserved hs hreserved

/-! ## Main result -/

/-- In a run whose reservations are all copied, each activation finds its configuration restored if
and only if each of them finds one reserved. -/
theorem configuration_survives_iff (framework accel : Option Bytes) (calls : List Call)
    (hcopied : Run.Along step Copied (created framework accel) calls) :
    Run.Along step Restored (created framework accel) calls ↔
      Run.Along step Reserved (created framework accel) calls := by
  have hboth : Run.Along step (fun s c => Copied s c ∧ Restored s c) (created framework accel) calls ↔
      Run.Along step (fun s c => Copied s c ∧ Reserved s c) (created framework accel) calls := by
    apply Run.along_congr (I := State.Kept)
    · intro s c s' hs hG h
      exact kept_step hs hG.1 h
    · intro s c hs
      exact and_congr_right fun _ => restored_iff hs c
    · exact kept_created framework accel
  rw [Run.along_and, Run.along_and] at hboth
  exact and_congr_right_iff.1 hboth hcopied

/-- An activation that succeeds. -/
def activated : Call := .activate (.ok ⟨Bytes.decimal 0, 0, []⟩) .answered

/-- A peer that is configured once more between two activations. -/
def configuredTwice : List Call :=
  [activated, .deactivate,
    .configure { options := .plugin ⟨⟨0x02, none, none⟩,
      ⟨0x02, none, none, some (Bytes.ascii "tensorflow-lite"), some (Bytes.ascii "cpu")⟩⟩ },
    activated]

theorem configuredTwice_restored :
    Run.Along step Restored (created (some (Bytes.ascii "tensorflow-lite")) none)
      configuredTwice := by
  apply (configuration_survives_iff _ none configuredTwice ?_).2
  · refine Run.along_of_step (fun _ _ => by simp [created, ClientPeer.create]) rfl ?_
    refine Run.along_of_step trivial rfl ?_
    refine Run.along_of_step trivial rfl ?_
    exact Run.along_of_step (fun _ _ h => Option.some_ne_none _ h) rfl trivial
  · refine Run.along_of_step trivial rfl ?_
    refine Run.along_of_step trivial rfl ?_
    refine Run.along_of_step (fun _ config h => ?_) rfl ?_
    · cases h
      decide
    · exact Run.along_of_step trivial rfl trivial

/-- A peer that is activated again has no accelerator left, though `Create` prepared one. -/
theorem reactivated_unconfigured :
    ¬ Run.Along step Restored (created (some (Bytes.ascii "tensorflow-lite")) none)
      [activated, .deactivate, activated] := by
  rintro ⟨-, h⟩
  rcases h _ rfl with ⟨-, h⟩
  rcases h _ rfl with ⟨h, -⟩
  exact (h rfl _ rfl).2.2 rfl

end Reactivation

end Peer
end Beyond
