import Beyond.Base.Counter
import Beyond.Base.Run
import Beyond.Peer.GrpcServer

/-!
# Authentication of the calls

`Peer::GrpcServer::Auth::Process` sees the metadata of every call before its handler runs, when the
server was created with a certificate.  This module models it, puts it in front of the handlers as
the step of a server that takes one call after another, and says when the sessions' nonces protect
the calls.
-/

namespace Beyond
namespace Peer
namespace GrpcServer

/-! ## `Auth::Process` -/

/-- `grpc::Status::OK`. -/
def Status.accepted : Status := ⟨.ok, ""⟩

/-- `strncmp(methodName.data(), "ExchangeKey", methodName.length()) == 0`. -/
def exempt (methodName : Bytes) : Bool :=
  Bytes.strncmpEq methodName (Bytes.ascii "ExchangeKey" ++ [0]) methodName.length == some true

def process (srv : Server) (metadata : Metadata) : Server × Status :=
  match metadata.lookup keyMethodName with
  | none => (srv, ⟨.unauthenticated, "Invalid method_name"⟩)
  | some methodName =>
      if methodName = [] then (srv, ⟨.unauthenticated, "Invalid method_name"⟩)
      -- The name is what the caller wrote, not the RPC that it calls.
      else if exempt methodName then (srv, .accepted)
      else
        match metadata.lookup keyId with
        | none => (srv, ⟨.invalidArgument, "Invalid argument"⟩)
        | some peerId =>
            if peerId = [] then (srv, ⟨.invalidArgument, "Invalid argument"⟩)
            else
              -- An id that was never given out stays in the table with a null pointer.
              match srv.client peerId with
              | (srv, none) => (srv, ⟨.notFound, "Not Found"⟩)
              | (srv, some ref) =>
                  match metadata.lookup keyNonce with
                  | none => (srv, ⟨.unauthenticated, "Unauthenticated"⟩)
                  | some text =>
                      if text = [] then (srv, ⟨.unauthenticated, "Unauthenticated"⟩)
                      else if Bytes.decimal (srv.gst ref).getNonce.toNat ≠ text then
                        (srv, ⟨.unauthenticated, "Unauthenticated"⟩)
                      else
                        (srv.setGst ref ((srv.gst ref).setNonce ((srv.gst ref).getNonce + 1)),
                          .accepted)

/-- The metadata gives a method name that `Process` lets through. -/
def exempted (metadata : Metadata) : Bool :=
  match metadata.lookup keyMethodName with
  | none => false
  | some methodName => !methodName.isEmpty && exempt methodName

/-- The metadata gives a method name for which `Process` goes on to the session. -/
def checksSession (metadata : Metadata) : Bool :=
  match metadata.lookup keyMethodName with
  | none => false
  | some methodName => !methodName.isEmpty && !exempt methodName

/-- What `Process` can do. -/
inductive Processed (srv : Server) (metadata : Metadata) : Server × Status → Prop
  | exempted (h : exempted metadata = true) : Processed srv metadata (srv, .accepted)
  | accepted {id : Bytes} {ref : GstRef} (hexempted : GrpcServer.exempted metadata = false)
      (hid : metadata.lookup keyId = some id) (hne : id ≠ [])
      (href : srv.clientMap.lookup id = some (some ref))
      (hnonce : metadata.lookup keyNonce = some (Bytes.decimal (srv.gst ref).nonce.toNat)) :
      Processed srv metadata
        (srv.setGst ref ((srv.gst ref).setNonce ((srv.gst ref).nonce + 1)), .accepted)
  | refused {status : Status} (hexempted : GrpcServer.exempted metadata = false)
      (hcode : status.code ≠ .ok)
      (hknown : ∀ id, checksSession metadata = true → metadata.lookup keyId = some id → id ≠ [] →
        ∃ ref, srv.clientMap.lookup id = some (some ref)) :
      Processed srv metadata (srv, status)
  | unknown {id : Bytes} (hchecks : checksSession metadata = true)
      (hid : metadata.lookup keyId = some id) (hne : id ≠ []) (hnull : (srv.client id).2 = none) :
      Processed srv metadata ((srv.client id).1, ⟨.notFound, "Not Found"⟩)

theorem Server.client_some {srv : Server} {id : Bytes} {ref : GstRef}
    (h : (srv.client id).2 = some ref) :
    srv.clientMap.lookup id = some (some ref) ∧ (srv.client id).1 = srv := by
  unfold client at h ⊢
  split at h
  · rename_i p hp
    dsimp only at h
    exact ⟨by rw [hp, h], rfl⟩
  · cases h

theorem processed (srv : Server) (metadata : Metadata) :
    Processed srv metadata (process srv metadata) := by
  unfold process
  cases hm : metadata.lookup keyMethodName with
  | none => exact .refused (by simp [exempted, hm]) (by decide) (by simp [checksSession, hm])
  | some methodName =>
      dsimp only
      by_cases hempty : methodName = []
      · rw [if_pos hempty]
        exact .refused (by simp [exempted, hm, hempty]) (by decide)
          (by simp [checksSession, hm, hempty])
      · rw [if_neg hempty]
        by_cases hname : exempt methodName = true
        · rw [if_pos hname]
          exact .exempted (by simp [exempted, hm, hempty, hname])
        · -- From here on it is the id that decides, and then the nonce.
          have hexempted : exempted metadata = false := by simp [exempted, hm, hname]
          have hchecks : checksSession metadata = true := by
            simp [checksSession, hm, hempty, hname]
          rw [if_neg hname]
          cases hid : metadata.lookup keyId with
          | none => exact .refused hexempted (by decide) (by simp [hid])
          | some id =>
              dsimp only
              by_cases hne : id = []
              · rw [if_pos hne]
                exact .refused hexempted (by decide) (by simp [hid, hne])
              · rw [if_neg hne]
                rcases hc : srv.client id with ⟨srv₁, _ | ref⟩
                · have h : Processed srv metadata ((srv.client id).1, ⟨.notFound, "Not Found"⟩) :=
                    .unknown hchecks hid hne (by rw [hc])
                  rwa [hc] at h
                · -- A session was found, so the lookup has inserted nothing.
                  have hsome := Server.client_some (show (srv.client id).2 = some ref by rw [hc])
                  rw [hc] at hsome
                  rcases hsome with ⟨href, rfl⟩
                  have hknown : ∀ id', checksSession metadata = true →
                      metadata.lookup keyId = some id' → id' ≠ [] →
                        ∃ ref, srv₁.clientMap.lookup id' = some (some ref) := by
                    intro id' _ hid' _
                    cases Option.some.inj (hid.symm.trans hid')
                    exact ⟨ref, href⟩
                  cases hn : metadata.lookup keyNonce with
                  | none => exact .refused hexempted (by decide) hknown
                  | some text =>
                      dsimp only
                      split
                      · exact .refused hexempted (by decide) hknown
                      · by_cases htext : Bytes.decimal (srv₁.gst ref).getNonce.toNat = text
                        · rw [if_neg (not_not.2 htext)]
                          exact .accepted hexempted hid hne href (hn.trans (congrArg some htext.symm))
                        · rw [if_pos htext]
                          exact .refused hexempted (by decide) hknown

theorem not_exempted_of_checksSession {metadata : Metadata} (h : checksSession metadata = true) :
    exempted metadata = false := by
  unfold checksSession at h
  unfold exempted
  split at h
  · cases h
  · simp_all

/-- An exempted call passes without a look at the session. -/
theorem process_of_exempted (srv : Server) {metadata : Metadata} (h : exempted metadata = true) :
    process srv metadata = (srv, .accepted) := by
  have hp := processed srv metadata
  -- The other three outcomes are those of a call that is not exempted.
  revert hp
  generalize process srv metadata = r
  intro hp
  cases hp with
  | exempted _ => rfl
  | accepted hexempted _ _ _ _ => simp [h] at hexempted
  | refused hexempted _ _ => simp [h] at hexempted
  | unknown hchecks _ _ _ => simp [not_exempted_of_checksSession hchecks] at h

/-! ## The server taking calls -/

/-- One call with what the outside answers during it. -/
structure Call where
  rpc : Rpc
  metadata : Metadata
  env : Env

/-- A nonce that was let through: the session that the id named, and the text. -/
structure Acceptance where
  session : Option GstRef
  nonce : Option Bytes
  deriving DecidableEq, Repr

/-- The server with a record of its run: the ids that `ExchangeKey` answered with their sessions,
and the nonces that were accepted, both in order.  After a `fault` there is no server any more. -/
structure World where
  srv : Server
  fault : Option Fault
  issued : List (Bytes × GstRef)
  accepted : List Acceptance

/-- The session that the id of the metadata names. -/
def namedSession (srv : Server) (metadata : Metadata) : Option GstRef :=
  (metadata.lookup keyId).bind fun id => (srv.clientMap.lookup id).join

/-- A call that is let through uses up the nonce that it carries, unless it is an `ExchangeKey` that
is let through as such. -/
def acceptance (srv : Server) (c : Call) : List Acceptance :=
  if c.rpc.isExchangeKey ∧ exempted c.metadata then []
  else [⟨namedSession srv c.metadata, c.metadata.lookup keyNonce⟩]

/-- The id that a successful `ExchangeKey` answered, with its session. -/
def issuedBy (srv : Server) (rpc : Rpc) (a : Answer) : List (Bytes × GstRef) :=
  match rpc, a.response with
  | .exchangeKey _, .exchangeKey 0 id =>
      match srv.clientMap.lookup id with
      | some (some ref) => [(id, ref)]
      | _ => []
  | _, _ => []

/-- `auth` says that the server has an `Auth` object; without it every call is let through. -/
def admission (auth : Bool) (srv : Server) (metadata : Metadata) : Server × Status :=
  if auth then process srv metadata else (srv, .accepted)

def step (auth : Bool) (w : World) (c : Call) : Option World :=
  if w.fault ≠ none then none
  -- A refused call does not reach its handler, but its lookup has been made.
  else if (admission auth w.srv c.metadata).2.code ≠ .ok then
    some { w with srv := (admission auth w.srv c.metadata).1 }
  else
    match handle (admission auth w.srv c.metadata).1 c.env c.metadata c.rpc with
    | .error e =>
        some { w with
          srv := (admission auth w.srv c.metadata).1
          fault := some e
          accepted := w.accepted ++ acceptance w.srv c }
    | .ok (srv, a) =>
        some { w with
          srv := srv
          issued := w.issued ++ issuedBy srv c.rpc a
          accepted := w.accepted ++ acceptance w.srv c }

/-- A server as the constructor leaves it; `heap` is what the places for sessions hold. -/
def World.start (info : Option PeerInfo) (storagePath : Bytes) (heap : GstRef → Gst) : World :=
  { srv :=
      { info := info
        storagePath := storagePath
        nextPeerId := 0
        clientMap := ∅
        gst := heap
        count := 0 }
    fault := none
    issued := []
    accepted := [] }

/-- A server without any session yet. -/
def World.empty : World := World.start none [] fun _ => { peerId := [], nonce := 0 }

/-- What a step can do. -/
inductive Stepped (auth : Bool) (w : World) (c : Call) : World → Prop
  | refused (hcode : (admission auth w.srv c.metadata).2.code ≠ .ok) :
      Stepped auth w c { w with srv := (admission auth w.srv c.metadata).1 }
  | crashed {e : Fault} (hcode : (admission auth w.srv c.metadata).2.code = .ok)
      (h : handle (admission auth w.srv c.metadata).1 c.env c.metadata c.rpc = .error e) :
      Stepped auth w c
        { w with
          srv := (admission auth w.srv c.metadata).1
          fault := some e
          accepted := w.accepted ++ acceptance w.srv c }
  | answered {srv : Server} {a : Answer} (hcode : (admission auth w.srv c.metadata).2.code = .ok)
      (h : handle (admission auth w.srv c.metadata).1 c.env c.metadata c.rpc = .ok (srv, a)) :
      Stepped auth w c
        { w with
          srv := srv
          issued := w.issued ++ issuedBy srv c.rpc a
          accepted := w.accepted ++ acceptance w.srv c }

theorem stepped {auth : Bool} {w w' : World} {c : Call} (h : step auth w c = some w') :
    w.fault = none ∧ Stepped auth w c w' := by
  unfold step at h
  split at h
  · cases h
  · rename_i hfault
    refine ⟨not_not.1 hfault, ?_⟩
    split at h
    · rename_i hcode
      cases h
      exact .refused hcode
    · rename_i hcode
      rw [not_not] at hcode
      split at h
      · rename_i e he
        cases h
        exact .crashed hcode he
      · rename_i srv a ha
        cases h
        exact .answered hcode ha

end GrpcServer
end Peer
end Beyond
