import Beyond.Peer.Config
import Beyond.Peer.Srtp

/-!
# Transports of the two pipelines

The client's pipeline ends and the server's begins with elements that each end chooses from its own
preprocessing, RTP configuration and secret.  A `Transport` is such a choice; the texts of the two
pipelines are written from it.
-/

namespace Beyond
namespace Peer

/-! ## The pipelines -/

structure Srtp where
  key : Bytes
  ssrc : Bytes
  deriving DecidableEq, Repr

inductive Transport
  | tcpGdp
  | rtp (encodingName : Bytes) (payload : Int) (srtp : Option Srtp)
  deriving DecidableEq, Repr

def Transport.srtp : Transport → Option Srtp
  | tcpGdp => none
  | rtp _ _ srtp => srtp

/-- `postPipeline` in the client's `Prepare`. -/
def Transport.tail (payloader host : Bytes) (port : Int) : Transport → Bytes
  | tcpGdp =>
      Bytes.ascii "gdppay ! tcpclientsink host=" ++ host ++ Bytes.ascii " port=" ++
        Bytes.integer port
  | rtp encodingName payload (some srtp) =>
      payloader ++ Bytes.ascii " ! application/x-rtp,encoding-name=" ++ encodingName ++
        Bytes.ascii ",payload=" ++ Bytes.integer payload ++ Bytes.ascii ",ssrc=(uint)" ++
        srtp.ssrc ++ Bytes.ascii " ! srtpenc key=" ++ srtp.key ++ Bytes.ascii " ! udpsink host=" ++
        host ++ Bytes.ascii " port=" ++ Bytes.integer port
  | rtp encodingName payload none =>
      payloader ++ Bytes.ascii " ! application/x-rtp,encoding-name=" ++ encodingName ++
        Bytes.ascii ",payload=" ++ Bytes.integer payload ++ Bytes.ascii " ! udpsink host=" ++ host ++
        Bytes.ascii " port=" ++ Bytes.integer port

/-- `prePipeline` in the server's `Prepare`. -/
def Transport.head (depayloader : Bytes) : Transport → Bytes
  | tcpGdp => Bytes.ascii "tcpserversrc name=serverSource host=0.0.0.0 port=0 ! gdpdepay"
  | rtp encodingName payload (some srtp) =>
      Bytes.ascii "udpsrc name=serverSource address=0.0.0.0 port=0 caps=\"application/x-srtp, " ++
        Bytes.ascii "encoding-name=" ++ encodingName ++ Bytes.ascii ", payload=" ++
        Bytes.integer payload ++ Bytes.ascii ", ssrc=(uint)" ++ srtp.ssrc ++
        Bytes.ascii ", roc=(uint)0, srtp-key=(buffer)" ++ srtp.key ++
        Bytes.ascii ", srtp-cipher=(string)aes-128-icm, srtp-auth=(string)hmac-sha1-80, " ++
        Bytes.ascii "srtcp-cipher=(string)aes-128-icm, srtcp-auth=(string)hmac-sha1-80\" ! " ++
        Bytes.ascii "srtpdec ! " ++ depayloader
  | rtp encodingName payload none =>
      Bytes.ascii "udpsrc name=serverSource address=0.0.0.0 port=0 caps=\"application/x-rtp, " ++
        Bytes.ascii "encoding-name=" ++ encodingName ++ Bytes.ascii ", payload=" ++
        Bytes.integer payload ++ Bytes.ascii "\" ! " ++ depayloader

/-- What the two programs run on: the signedness of `char`, and what the payload number holds as long
as no input type has set it. -/
structure Machine where
  charSigned : Bool
  rawPayload : Int
  deriving DecidableEq, Repr

namespace GrpcClient.Gst

def rtp (gst : Gst) (machine : Machine) : RtpConfig := gst.rtpConfig.getD ⟨[], [], machine.rawPayload⟩

/-- The choice that `Prepare` makes for the end of the pipeline. -/
def transport (gst : Gst) (machine : Machine) : Transport :=
  if gst.preprocessing = [] then .tcpGdp
  else if gst.secretKey ≠ [] then
    .rtp (gst.rtp machine).encodingName (gst.rtp machine).payload
      (some ⟨srtpKey machine.charSigned gst.secretKey, gst.peerId⟩)
  else .rtp (gst.rtp machine).encodingName (gst.rtp machine).payload none

def postPipeline (gst : Gst) (machine : Machine) (host : Bytes) (port : Int) : Bytes :=
  (gst.transport machine).tail (gst.rtp machine).payloader host port

end GrpcClient.Gst

namespace GrpcServer.Gst

def rtp (gst : Gst) (machine : Machine) : RtpConfig := gst.rtpConfig.getD ⟨[], [], machine.rawPayload⟩

/-- The choice that `Prepare` makes for the beginning of the pipeline. -/
def transport (gst : Gst) (machine : Machine) : Transport :=
  if gst.preprocessing = [] then .tcpGdp
  else if gst.secretKey ≠ [] then
    .rtp (gst.rtp machine).encodingName (gst.rtp machine).payload
      (some ⟨srtpKey machine.charSigned gst.secretKey, gst.peerId⟩)
  else .rtp (gst.rtp machine).encodingName (gst.rtp machine).payload none

def prePipeline (gst : Gst) (machine : Machine) : Bytes :=
  (gst.transport machine).head (gst.rtp machine).depayloader

end GrpcServer.Gst

/-! ## Agreement -/

/-- The two ends of a session choose the same transport, whatever the unset payload numbers hold, and
an SRTP stream carries the id of the session. -/
def TransportsAgree (link : Link) (clientSigned serverSigned : Bool) : Prop :=
  ∀ rawClient rawServer : Int, ∃ t : Transport,
    link.client.transport ⟨clientSigned, rawClient⟩ = t ∧
    link.server.transport ⟨serverSigned, rawServer⟩ = t ∧
    ∀ srtp ∈ t.srtp, srtp.ssrc = link.server.peerId

/-- What the session on the server was given as preprocessing last. -/
def givenPreprocessing (server : List ServerDescription) : Bytes :=
  Bytes.cstring ((server.getLast?.bind ServerDescription.preprocessing).getD [])

/-- What the client's `Gst` was given as preprocessing last; a null pointer gives nothing. -/
def keptPreprocessing (client : List ClientDescription) : Bytes :=
  (latest (client.map ClientDescription.preprocessing)).getD []

/-- The part of the secret that is printed is printed alike on both machines. -/
def PrintedAlike (clientSigned serverSigned : Bool) (secret : Bytes) : Prop :=
  clientSigned = serverSigned ∨
    ∀ c ∈ Bytes.cstring (secret.take masterKeySize), c < 0x80 ∨ c = 0xff

/-- The descriptions leave no preprocessing behind on one side only, and those with a preprocessing
have told both sides one media type. -/
structure Consistent (client : List ClientDescription) (server : List ServerDescription)
    (clientSigned serverSigned : Bool) (secret : Bytes) : Prop where
  preprocessing : keptPreprocessing client = [] ↔ givenPreprocessing server = []
  media : givenPreprocessing server ≠ [] →
    ∃ m, latest (client.map fun c => mediaOf c.inputType) = some m ∧
      latest (server.map fun s => mediaOf s.inputType) = some m
  key : givenPreprocessing server ≠ [] → secret ≠ [] →
    PrintedAlike clientSigned serverSigned secret

theorem printed_true_eq_printed_false_iff {c : UInt8} :
    printed true c = printed false c ↔ c < 0x80 ∨ c = 0xff := by
  have hfalse : printed false c = c := by simp [printed]
  rw [hfalse, printed_eq_self_iff]
  simp

theorem srtpKey_eq_iff (clientSigned serverSigned : Bool) (secret : Bytes) :
    GrpcClient.Gst.srtpKey clientSigned secret = GrpcServer.Gst.srtpKey serverSigned secret ↔
      PrintedAlike clientSigned serverSigned secret := by
  have hclient := keyLoop_eq clientSigned masterKeySize secret
  have hserver := keyLoop_eq serverSigned masterKeySize secret
  rw [GrpcClient.Gst.srtpKey, GrpcServer.Gst.srtpKey, hclient, hserver,
    Hex.encode_injective.eq_iff, List.map_inj_left]
  cases clientSigned <;> cases serverSigned <;>
    simp only [PrintedAlike, true_or, reduceCtorEq, false_or, implies_true,
      printed_true_eq_printed_false_iff]
  exact forall₂_congr fun c _ => eq_comm.trans printed_true_eq_printed_false_iff

section Link

variable (e : Exchange) (client : List ClientDescription) (server : List ServerDescription)

theorem preprocessing_foldl_configure :
    (client.foldl GrpcClient.Gst.configure e.link.client).preprocessing =
      keptPreprocessing client :=
  foldl_getD (fun gst c => GrpcClient.Gst.preprocessing_configure gst c) e.link.client client

theorem rtpConfig_foldl_configure :
    (client.foldl GrpcClient.Gst.configure e.link.client).rtpConfig =
      (latest (client.map fun c => mediaOf c.inputType)).map Media.clientRtp := by
  have hfold := foldl_or (fun gst c => GrpcClient.Gst.rtpConfig_configure gst c) e.link.client
    client
  rw [hfold, ← latest_map, List.map_map]
  exact Option.or_none

theorem preprocessing_foldl_receive :
    (server.foldl GrpcServer.Gst.receive e.link.server).preprocessing =
      givenPreprocessing server := by
  have hfold := foldl_last (fun gst s => GrpcServer.Gst.preprocessing_receive gst s) e.link.server
    server
  rw [hfold, givenPreprocessing]
  cases server.getLast? <;> rfl

theorem rtpConfig_foldl_receive :
    (server.foldl GrpcServer.Gst.receive e.link.server).rtpConfig =
      (latest (server.map fun s => mediaOf s.inputType)).map Media.serverRtp := by
  have hfold := foldl_or (fun gst s => GrpcServer.Gst.rtpConfig_receive gst s) e.link.server
    server
  rw [hfold, ← latest_map, List.map_map]
  exact Option.or_none

theorem secretKey_foldl_configure (gst : GrpcClient.Gst) :
    (client.foldl GrpcClient.Gst.configure gst).secretKey = gst.secretKey ∧
      (client.foldl GrpcClient.Gst.configure gst).peerId = gst.peerId := by
  induction client generalizing gst with
  | nil => exact ⟨rfl, rfl⟩
  | cons c client ih => simpa using ih (gst.configure c)

theorem secretKey_foldl_receive (gst : GrpcServer.Gst) :
    (server.foldl GrpcServer.Gst.receive gst).secretKey = gst.secretKey ∧
      (server.foldl GrpcServer.Gst.receive gst).peerId = gst.peerId := by
  induction server generalizing gst with
  | nil => exact ⟨rfl, rfl⟩
  | cons s server ih => simpa using ih (gst.receive s)

end Link

/-! ## One link -/

/-- The encoding name and the payload number that both ends write, as far as they agree on them. -/
theorem rtp_agree_iff {client : GrpcClient.Gst} {server : GrpcServer.Gst} {mc ms : Option Media}
    (hclient : client.rtpConfig = mc.map Media.clientRtp)
    (hserver : server.rtpConfig = ms.map Media.serverRtp) (cs ss : Bool) :
    (∀ rawClient rawServer : Int,
      (client.rtp ⟨cs, rawClient⟩).encodingName = (server.rtp ⟨ss, rawServer⟩).encodingName ∧
        (client.rtp ⟨cs, rawClient⟩).payload = (server.rtp ⟨ss, rawServer⟩).payload) ↔
      ∃ m, mc = some m ∧ ms = some m := by
  simp only [GrpcClient.Gst.rtp, GrpcServer.Gst.rtp, hclient, hserver]
  constructor
  · intro h
    -- Two unset payload numbers need not be equal.
    have hnumbers := h 0 1
    cases mc with
    | none =>
        cases ms with
        | none => exact absurd hnumbers (by decide)
        | some m => cases m <;> exact absurd hnumbers (by decide)
    | some m =>
        cases ms with
        | none => cases m <;> exact absurd hnumbers (by decide)
        | some m' =>
            cases m <;> cases m' <;> first
              | exact ⟨_, rfl, rfl⟩
              | exact absurd hnumbers (by decide)
  · rintro ⟨m, rfl, rfl⟩ rawClient rawServer
    cases m <;> exact ⟨rfl, rfl⟩

section Agree

variable {link : Link} {cs ss : Bool}

theorem transportsAgree_of_tcp (hc : link.client.preprocessing = [])
    (hs : link.server.preprocessing = []) : TransportsAgree link cs ss := by
  intro rawClient rawServer
  exact ⟨.tcpGdp, by simp [GrpcClient.Gst.transport, hc], by simp [GrpcServer.Gst.transport, hs],
    by simp [Transport.srtp]⟩

theorem TransportsAgree.preprocessing (h : TransportsAgree link cs ss) :
    link.client.preprocessing = [] ↔ link.server.preprocessing = [] := by
  rcases h 0 0 with ⟨t, hclient, hserver, -⟩
  unfold GrpcClient.Gst.transport at hclient
  unfold GrpcServer.Gst.transport at hserver
  have heq := hclient.trans hserver.symm
  by_cases hc : link.client.preprocessing = [] <;> by_cases hs : link.server.preprocessing = [] <;>
    by_cases hkc : link.client.secretKey = [] <;> by_cases hks : link.server.secretKey = [] <;>
      simp [hc, hs, hkc, hks] at heq ⊢

/-- Both pipelines with RTP: they agree when the encoding, the payload number and the key text do. -/
theorem transportsAgree_rtp_iff (hc : link.client.preprocessing ≠ [])
    (hs : link.server.preprocessing ≠ []) (hkey : link.client.secretKey = link.server.secretKey)
    (hid : link.client.peerId = link.server.peerId) :
    TransportsAgree link cs ss ↔
      (∀ rawClient rawServer : Int,
        (link.client.rtp ⟨cs, rawClient⟩).encodingName =
            (link.server.rtp ⟨ss, rawServer⟩).encodingName ∧
          (link.client.rtp ⟨cs, rawClient⟩).payload =
            (link.server.rtp ⟨ss, rawServer⟩).payload) ∧
        (link.server.secretKey ≠ [] → PrintedAlike cs ss link.server.secretKey) := by
  have hagree : TransportsAgree link cs ss ↔ ∀ rawClient rawServer : Int,
      link.client.transport ⟨cs, rawClient⟩ = link.server.transport ⟨ss, rawServer⟩ := by
    constructor
    · intro h rawClient rawServer
      rcases h rawClient rawServer with ⟨t, hclient, hserver, -⟩
      exact hclient.trans hserver.symm
    · intro h rawClient rawServer
      refine ⟨_, h rawClient rawServer, rfl, ?_⟩
      unfold GrpcServer.Gst.transport
      by_cases hk : link.server.secretKey = [] <;> simp [hs, hk, Transport.srtp]
  rw [hagree]
  unfold GrpcClient.Gst.transport GrpcServer.Gst.transport
  by_cases hk : link.server.secretKey = []
  · simp [hc, hs, hkey, hk]
  · simp [hc, hs, hkey, hk, hid, ← and_assoc, forall_and, srtpKey_eq_iff]

end Agree

/-! ## Main result -/

/-- Two ends that got these descriptions behind `ExchangeKey`. -/
theorem transportsAgree_foldl_iff (e : Exchange) (client : List ClientDescription)
    (server : List ServerDescription) (cs ss : Bool) :
    TransportsAgree ⟨client.foldl GrpcClient.Gst.configure e.link.client,
        server.foldl GrpcServer.Gst.receive e.link.server⟩ cs ss ↔
      Consistent client server cs ss e.secret := by
  have hkeptC := preprocessing_foldl_configure e client
  have hkeptS := preprocessing_foldl_receive e server
  have hrtpC := rtpConfig_foldl_configure e client
  have hrtpS := rtpConfig_foldl_receive e server
  have hsameC := secretKey_foldl_configure client e.link.client
  have hsameS := secretKey_foldl_receive server e.link.server
  by_cases hs : givenPreprocessing server = []
  · constructor
    · intro h
      have hpre := h.preprocessing
      rw [hkeptC, hkeptS] at hpre
      exact ⟨hpre, fun hne => absurd hs hne, fun hne => absurd hs hne⟩
    · intro h
      exact transportsAgree_of_tcp (hkeptC.trans (h.preprocessing.2 hs)) (hkeptS.trans hs)
  · by_cases hc : keptPreprocessing client = []
    · -- The client falls back to TCP and the server does not.
      constructor
      · intro h
        have hpre := h.preprocessing
        rw [hkeptC, hkeptS] at hpre
        exact absurd (hpre.1 hc) hs
      · intro h
        exact absurd (h.preprocessing.1 hc) hs
    · rw [transportsAgree_rtp_iff (by rwa [hkeptC]) (by rwa [hkeptS])
        (hsameC.1.trans hsameS.1.symm) (hsameC.2.trans hsameS.2.symm),
        rtp_agree_iff hrtpC hrtpS]
      dsimp only
      rw [hsameS.1]
      constructor
      · rintro ⟨hmedia, hkey⟩
        exact ⟨iff_of_false hc hs, fun _ => hmedia, fun _ => hkey⟩
      · intro h
        exact ⟨h.media hs, h.key hs⟩

/-- Whatever was configured before and behind the activation, and whatever happened to the requests:
the transports agree exactly when the descriptions that arrived are consistent. -/
theorem session_transportsAgree_iff (framework accel : Option Bytes)
    (before after : List ConfigureCall) (e : Exchange) (cs ss : Bool) :
    (∃ link, ((ClientPeer.create framework accel).session before e after).grpc = some link ∧
      TransportsAgree link cs ss) ↔
      Consistent ((ClientPeer.create framework accel).clientDescriptions before after)
        ((ClientPeer.create framework accel).serverDescriptions before after) cs ss e.secret := by
  have hgrpc := ClientPeer.grpc_session (ClientPeer.grpc_create framework accel) before e after
  rw [← transportsAgree_foldl_iff, hgrpc]
  simp

/-- A configuration that names one input type and gives a preprocessing to both sides or to none. -/
structure PluginConfig.Paired (config : PluginConfig) : Prop where
  inputType : config.client.inputType = config.server.inputType
  preprocessing : config.client.preprocessing.getD [] = [] ↔
    Bytes.cstring (config.server.preprocessing.getD []) = []

/-- When paired configurations all arrive, three things can still go wrong: a preprocessing of the
client outlives the last configuration, no media type was ever named, and the secret is printed
differently. -/
theorem consistent_paired_iff {configs : List PluginConfig} (hpaired : ∀ c ∈ configs, c.Paired)
    (cs ss : Bool) (secret : Bytes) :
    Consistent (configs.map PluginConfig.client) (configs.map PluginConfig.server) cs ss secret ↔
      (givenPreprocessing (configs.map PluginConfig.server) = [] →
        keptPreprocessing (configs.map PluginConfig.client) = []) ∧
      (givenPreprocessing (configs.map PluginConfig.server) ≠ [] →
        (∃ c ∈ configs, mediaOf c.client.inputType ≠ none) ∧
        (secret ≠ [] → PrintedAlike cs ss secret)) := by
  have hgiven : givenPreprocessing (configs.map PluginConfig.server) ≠ [] →
      keptPreprocessing (configs.map PluginConfig.client) ≠ [] := by
    intro hne
    rcases List.eq_nil_or_concat configs with rfl | ⟨earlier, last, rfl⟩
    · exact absurd rfl hne
    · have hlast := (hpaired last (by simp)).preprocessing
      rw [List.concat_eq_append] at hne ⊢
      -- The last configuration gave the server a text, so it gave the client one.
      have hserver : Bytes.cstring (last.server.preprocessing.getD []) ≠ [] := by
        simpa [givenPreprocessing] using hne
      have hclient : last.client.preprocessing.getD [] ≠ [] := fun h => hserver (hlast.1 h)
      cases htext : last.client.preprocessing with
      | none => simp [htext] at hclient
      | some text =>
          rw [htext] at hclient
          simpa [keptPreprocessing, latest_concat, htext] using hclient
  have hmedia : (configs.map PluginConfig.server).map (fun s => mediaOf s.inputType) =
      (configs.map PluginConfig.client).map fun c => mediaOf c.inputType := by
    rw [List.map_map, List.map_map]
    exact List.map_congr_left fun c hc => congrArg mediaOf (hpaired c hc).inputType.symm
  have hsome : (∃ c ∈ configs, mediaOf c.client.inputType ≠ none) ↔
      latest ((configs.map PluginConfig.client).map fun c => mediaOf c.inputType) ≠ none := by
    rw [Ne, latest_eq_none_iff]
    simp
  constructor
  · intro h
    refine ⟨h.preprocessing.2, fun hne => ⟨?_, h.key hne⟩⟩
    rcases h.media hne with ⟨m, hm, -⟩
    exact hsome.2 (by rw [hm]; simp)
  · rintro ⟨hcleared, hrest⟩
    refine ⟨⟨fun h => ?_, hcleared⟩, fun hne => ?_, fun hne => (hrest hne).2⟩
    · by_contra hne
      exact hgiven hne h
    · rcases Option.ne_none_iff_exists'.1 (hsome.1 (hrest hne).1) with ⟨m, hm⟩
      exact ⟨m, hm, by rw [hmedia, hm]⟩

/-- Video with a preprocessing, and then video without one. -/
def videoThenPlain : List PluginConfig :=
  [⟨⟨0x01, some (Bytes.ascii "vp8enc"), none⟩,
      ⟨0x01, some (Bytes.ascii "vp8dec !"), none, none, none⟩⟩,
    ⟨⟨0x01, none, none⟩, ⟨0x01, none, none, none, none⟩⟩]

/-- Each call is paired and answered, but behind the second one the server reads raw TCP while the
client still sends RTP. -/
theorem videoThenPlain_disagree :
    (∀ config ∈ videoThenPlain, config.Paired) ∧
      ¬ ∃ link, ((ClientPeer.create none none).session [] ⟨Bytes.ascii "0", 0, []⟩
        (videoThenPlain.map fun config => { options := .plugin config })).grpc = some link ∧
          TransportsAgree link true true := by
  constructor
  · intro config hconfig
    simp only [videoThenPlain, List.mem_cons, List.not_mem_nil, or_false] at hconfig
    rcases hconfig with rfl | rfl
    · exact ⟨rfl, by decide⟩
    · exact ⟨rfl, by decide⟩
  · rintro ⟨link, hlink, h⟩
    cases hlink
    exact absurd h.preprocessing (by decide)

end Peer
end Beyond
