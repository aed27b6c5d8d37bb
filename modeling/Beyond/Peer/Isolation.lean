import Beyond.Base.Purge
import Beyond.Peer.NonceSync
import Beyond.Peer.Replay
import Beyond.Peer.Session
import Beyond.Peer.SessionTable

/-!
# Isolation of the sessions

All clients call one server, and the calls of different clients come in any order.  A client knows
the server by the answers to the calls that carry its id.  The run without the calls of everybody
else gives it the same answers and leaves its session in the same state, whatever the others send,
up to the call at which the server stops working.  So a client that sends its calls in order is never
refused.

The files and the measurements that a call meets are part of the call here, though the sessions share
the storage directory and the collector: what others have written there is not the session's doing.
-/

namespace Beyond
namespace Peer
namespace GrpcServer

/-! ## What a caller sees -/

/-- What a call comes to for the one who makes it. -/
inductive Outcome
  | refused (status : Status)
  | answered (answer : Answer)
  | lost (fault : Fault)
  deriving DecidableEq, Repr

/-- An answer without the id that `ExchangeKey` gives out: how many ids are taken already is the
others' doing. -/
def Answer.withoutId (a : Answer) : Answer :=
  match a.response with
  | .exchangeKey status _ => { a with response := .exchangeKey status [] }
  | _ => a

def outcome (auth : Bool) (w : World) (c : Call) : Outcome :=
  if (admission auth w.srv c.metadata).2.code ≠ .ok then
    .refused (admission auth w.srv c.metadata).2
  else
    match handle (admission auth w.srv c.metadata).1 c.env c.metadata c.rpc with
    | .error e => .lost e
    | .ok (_, a) => .answered a.withoutId

/-- The call carries the id. -/
def ofSession (id : Bytes) (c : Call) : Bool := c.metadata.lookup keyId == some id

/-- What `GetInfo` leaves as it is of the peer's info. -/
def PeerInfo.fixed (info : PeerInfo) : Uuid × List RuntimeInfo := (info.uuid, info.runtimes)

/-- The session object under an id. -/
def session (srv : Server) (id : Bytes) : Option Gst :=
  (srv.clientMap.lookup id).join.map srv.gst

theorem session_of_lookup {srv : Server} {id : Bytes} {ref : GstRef}
    (h : srv.clientMap.lookup id = some (some ref)) : session srv id = some (srv.gst ref) := by
  simp [session, h]

/-! ## A handler and its session -/

/-- A session handler is a function of the session and the storage path. -/
theorem handle_local (env : Env) {rpc : Rpc} (huses : rpc.usesGst = true) :
    ∃ serves : Bytes → Gst → Except Fault (Gst × Answer), ∀ {srv : Server} {metadata : Metadata}
      {ref : GstRef}, getGst srv metadata = (srv, .ok (some ref)) →
      handle srv env metadata rpc = srv.after ref (serves srv.storagePath (srv.gst ref)) := by
  cases rpc with
  | exchangeKey key => cases huses
  | getInfo => cases huses
  | configure request =>
      refine ⟨fun _ gst => .ok (gst.configure
        { inputType := request.inputType
          preprocessing := some (Bytes.cstring request.preprocessing)
          postprocessing := some (Bytes.cstring request.postprocessing)
          framework := some (Bytes.cstring request.framework)
          accel := some (Bytes.cstring request.accel) }, ⟨.OK, .plain 0⟩), ?_⟩
      intro srv metadata ref hget
      simp only [handle, configure, withGst, hget, onGst_some]
  | loadModel filename =>
      refine ⟨fun storagePath gst => gst.serve storagePath env (.loadModel filename), ?_⟩
      intro srv metadata ref hget
      simp only [handle, loadModel, withGst, hget]
      exact onGst_some srv ref _
  | uploadModel chunks =>
      refine ⟨fun storagePath gst => gst.serve storagePath env (.uploadModel chunks), ?_⟩
      intro srv metadata ref hget
      simp only [handle, uploadModel, withGst, hget]
      exact onGst_some srv ref _
  | getInputTensorInfo =>
      refine ⟨fun storagePath gst => gst.serve storagePath env (.getTensorInfo .input), ?_⟩
      intro srv metadata ref hget
      simp only [handle, getInputTensorInfo, getTensorInfo, withGst, hget]
      exact onGst_some srv ref _
  | getOutputTensorInfo =>
      refine ⟨fun storagePath gst => gst.serve storagePath env (.getTensorInfo .output), ?_⟩
      intro srv metadata ref hget
      simp only [handle, getOutputTensorInfo, getTensorInfo, withGst, hget]
      exact onGst_some srv ref _
  | setInputTensorInfo request =>
      refine ⟨fun storagePath gst => gst.serve storagePath env (.setTensorInfo .input request), ?_⟩
      intro srv metadata ref hget
      simp only [handle, setInputTensorInfo, setTensorInfo, withGst, hget, onGst_some, Gst.serve,
        Model.store]
      -- An array that could not be made leaves the session as it was.
      cases requestToInfo env request with
      | error ret => simp [Server.after, Server.setGst_self]
      | ok infos => rfl
  | setOutputTensorInfo request =>
      refine ⟨fun storagePath gst => gst.serve storagePath env (.setTensorInfo .output request), ?_⟩
      intro srv metadata ref hget
      simp only [handle, setOutputTensorInfo, setTensorInfo, withGst, hget, onGst_some, Gst.serve,
        Model.store]
      cases requestToInfo env request with
      | error ret => simp [Server.after, Server.setGst_self]
      | ok infos => rfl
  | prepare =>
      refine ⟨fun _ gst =>
        let r := gst.prepare env.memory env.prepared
        .ok (r.1, ⟨.OK, .prepared r.2.1 r.2.2.1 r.2.2.2⟩), ?_⟩
      intro srv metadata ref hget
      simp only [handle, prepare, withGst, hget]
      exact onGst_some srv ref _
  | stop =>
      refine ⟨fun storagePath gst => gst.serve storagePath env .stop, ?_⟩
      intro srv metadata ref hget
      simp only [handle, stop, withGst, hget]
      exact onGst_some srv ref _

/-- A handler that got a null pointer either dereferences it or has done nothing. -/
theorem handle_of_null {srv srv₁ srv' : Server} {env : Env} {metadata : Metadata} {rpc : Rpc}
    {a : Answer} (huses : rpc.usesGst = true) (hget : getGst srv metadata = (srv₁, .ok none))
    (h : handle srv env metadata rpc = .ok (srv', a)) : srv' = srv₁ := by
  cases rpc with
  | exchangeKey key => cases huses
  | getInfo => cases huses
  | setInputTensorInfo request =>
      simp only [handle, setInputTensorInfo, setTensorInfo, withGst, hget] at h
      split at h
      · cases h
        rfl
      · cases h
  | setOutputTensorInfo request =>
      simp only [handle, setOutputTensorInfo, setTensorInfo, withGst, hget] at h
      split at h
      · cases h
        rfl
      · cases h
  | configure request => simp [handle, configure, withGst, hget, onGst] at h
  | loadModel filename => simp [handle, loadModel, withGst, hget, onGst] at h
  | uploadModel chunks => simp [handle, uploadModel, withGst, hget, onGst] at h
  | getInputTensorInfo =>
      simp [handle, getInputTensorInfo, getTensorInfo, withGst, hget, onGst] at h
  | getOutputTensorInfo =>
      simp [handle, getOutputTensorInfo, getTensorInfo, withGst, hget, onGst] at h
  | prepare => simp [handle, prepare, withGst, hget, onGst] at h
  | stop => simp [handle, stop, withGst, hget, onGst] at h

/-- The code 0 of `GetGst` with a pointer means that the id is in the table. -/
theorem getGst_some {srv srv₁ : Server} {metadata : Metadata} {ref : GstRef}
    (h : getGst srv metadata = (srv₁, .ok (some ref))) :
    ∃ id, metadata.lookup keyId = some id ∧ id ≠ [] ∧
      srv.clientMap.lookup id = some (some ref) ∧ srv₁ = srv := by
  unfold getGst at h
  split at h
  · cases h
  · rename_i id hid
    split at h
    · cases h
    · rename_i hne
      simp only [Prod.mk.injEq, Except.ok.injEq] at h
      rcases Server.client_some h.2 with ⟨href, hsrv⟩
      exact ⟨id, hid, hne, href, h.1.symm.trans hsrv⟩

/-- What a session handler can do to the server: look an id up, or write the session that the id
names. -/
theorem handle_touches {srv srv' : Server} {env : Env} {metadata : Metadata} {rpc : Rpc} {a : Answer}
    (huses : rpc.usesGst = true) (h : handle srv env metadata rpc = .ok (srv', a)) :
    srv' = (getGst srv metadata).1 ∨
      ∃ id ref gst, metadata.lookup keyId = some id ∧
        srv.clientMap.lookup id = some (some ref) ∧ srv' = srv.setGst ref gst := by
  rcases hget : getGst srv metadata with ⟨srv₁, ret | _ | ref⟩
  · left
    rcases @handle_notFound srv env metadata rpc ret huses (by rw [hget]) with ⟨failed, hfailed⟩
    have heq := Except.ok.inj (h.symm.trans hfailed)
    simp only [Prod.mk.injEq] at heq
    exact heq.1.trans (by rw [hget])
  · left
    rw [handle_of_null huses hget h]
  · right
    rcases getGst_some hget with ⟨id, hid, -, href, rfl⟩
    rcases handle_local env huses with ⟨serves, hserves⟩
    rw [hserves hget] at h
    cases hs : serves srv₁.storagePath (srv₁.gst ref) with
    | error e => simp [hs, Server.after] at h
    | ok r =>
        simp only [hs, Server.after, Except.ok.injEq, Prod.mk.injEq] at h
        exact ⟨id, ref, r.1, hid, href, h.1.symm⟩

/-! ## Sessions have one id each -/

/-- No two ids lead to one session, and the place of the next session is free. -/
structure Separate (srv : Server) : Prop where
  distinct : ∀ {id id' ref}, srv.clientMap.lookup id = some (some ref) →
    srv.clientMap.lookup id' = some (some ref) → id = id'
  allocated : ∀ {id ref}, srv.clientMap.lookup id = some (some ref) → ref < srv.count

theorem separate_start (info : Option PeerInfo) (storagePath : Bytes) (heap : GstRef → Gst) :
    Separate (World.start info storagePath heap).srv := by
  constructor
  · intro id id' ref h
    cases h
  · intro id ref h
    cases h

theorem Separate.sameSessions {srv srv' : Server} (h : Separate srv) (hsame : SameSessions srv srv') :
    Separate srv' := by
  constructor
  · intro id id' ref hid hid'
    exact h.distinct ((hsame.lookup id ref).1 hid) ((hsame.lookup id' ref).1 hid')
  · intro id ref hid
    rw [hsame.count]
    exact h.allocated ((hsame.lookup id ref).1 hid)

theorem Separate.addSession {srv : Server} (h : Separate srv) (id : Bytes) (gst : Gst) :
    Separate (srv.addSession id gst) := by
  have hlookup : ∀ id', (srv.addSession id gst).clientMap.lookup id' =
      if id' = id then some (some srv.count) else srv.clientMap.lookup id' := by
    intro id'
    by_cases heq : id' = id
    · subst heq
      simp [Server.addSession, AList.lookup_insert]
    · simp [Server.addSession, AList.lookup_insert_ne heq, heq]
  constructor
  · intro id₁ id₂ ref h₁ h₂
    rw [hlookup] at h₁ h₂
    -- The new session is behind all others, so no other id leads to it.
    split at h₁ <;> split at h₂
    · rename_i heq₁ heq₂
      exact heq₁.trans heq₂.symm
    · cases h₁
      exact absurd (h.allocated h₂) (Nat.lt_irrefl _)
    · cases h₂
      exact absurd (h.allocated h₁) (Nat.lt_irrefl _)
    · exact h.distinct h₁ h₂
  · intro id' ref h'
    rw [hlookup] at h'
    split at h'
    · cases h'
      exact Nat.lt_succ_self _
    · exact Nat.lt_succ_of_lt (h.allocated h')

/-! ## What a call of somebody else leaves as it was -/

/-- The session under the id is the same object with the same contents. -/
structure Keeps (id : Bytes) (srv srv' : Server) : Prop where
  session : ∀ {ref}, srv.clientMap.lookup id = some (some ref) →
    srv'.clientMap.lookup id = some (some ref) ∧ srv'.gst ref = srv.gst ref
  storagePath : srv'.storagePath = srv.storagePath
  info : srv'.info.map PeerInfo.fixed = srv.info.map PeerInfo.fixed

theorem Keeps.refl (id : Bytes) (srv : Server) : Keeps id srv srv :=
  ⟨fun h => ⟨h, rfl⟩, rfl, rfl⟩

theorem Keeps.trans {id : Bytes} {srv srv' srv'' : Server} (h : Keeps id srv srv')
    (h' : Keeps id srv' srv'') : Keeps id srv srv'' := by
  refine ⟨fun href => ?_, h'.storagePath.trans h.storagePath, h'.info.trans h.info⟩
  rcases h.session href with ⟨href', hgst⟩
  rcases h'.session href' with ⟨href'', hgst'⟩
  exact ⟨href'', hgst'.trans hgst⟩

theorem keeps_client (id id' : Bytes) (srv : Server) : Keeps id srv (srv.client id').1 := by
  refine ⟨fun {ref} href => ?_, ?_, ?_⟩
  · exact ⟨((sameSessions_client srv id').lookup id ref).2 href, by simp⟩
  · unfold Server.client
    split <;> rfl
  · unfold Server.client
    split <;> rfl

theorem keeps_getGst (id : Bytes) (srv : Server) (metadata : Metadata) :
    Keeps id srv (getGst srv metadata).1 := by
  unfold getGst
  split
  · exact Keeps.refl id srv
  · split
    · exact Keeps.refl id srv
    · exact keeps_client id _ srv

theorem keeps_setGst {id id' : Bytes} {srv : Server} {ref' : GstRef} (gst : Gst)
    (hsep : Separate srv) (href' : srv.clientMap.lookup id' = some (some ref')) (hne : id' ≠ id) :
    Keeps id srv (srv.setGst ref' gst) := by
  refine ⟨fun {ref} href => ⟨href, ?_⟩, rfl, rfl⟩
  have hdiff : ref ≠ ref' := by
    intro heq
    exact hne (hsep.distinct href' (heq ▸ href))
  exact Server.gst_setGst_ne srv gst hdiff

theorem keeps_addSession {id id' : Bytes} {srv : Server} (gst : Gst) (hsep : Separate srv)
    (hne : id' ≠ id) : Keeps id srv (srv.addSession id' gst) := by
  refine ⟨fun {ref} href => ⟨?_, ?_⟩, rfl, rfl⟩
  · simpa [Server.addSession, AList.lookup_insert_ne hne.symm] using href
  · have hlt := hsep.allocated href
    simp [Server.addSession, Nat.ne_of_lt hlt]

theorem keeps_getInfo {srv srv' : Server} {env : Env} {a : Answer} (id : Bytes)
    (h : getInfo srv env = .ok (srv', a)) : Keeps id srv srv' := by
  unfold getInfo at h
  split at h
  · cases h
    exact Keeps.refl id srv
  · rename_i info hinfo
    cases h
    exact ⟨fun href => ⟨href, rfl⟩, rfl, by simp [hinfo, PeerInfo.fixed]⟩

/-- `Process` writes the session that the id names, and no other. -/
theorem keeps_process {id : Bytes} {srv : Server} {metadata : Metadata} (hsep : Separate srv)
    (hother : metadata.lookup keyId ≠ some id) : Keeps id srv (process srv metadata).1 := by
  have hp := processed srv metadata
  revert hp
  generalize process srv metadata = r
  intro hp
  cases hp with
  | exempted _ => exact Keeps.refl id srv
  | accepted _ hid _ href _ =>
      exact keeps_setGst _ hsep href fun heq => hother (heq ▸ hid)
  | refused _ _ _ => exact Keeps.refl id srv
  | unknown _ _ _ _ => exact keeps_client id _ srv

theorem keeps_admission (auth : Bool) {id : Bytes} {srv : Server} {metadata : Metadata}
    (hsep : Separate srv) (hother : metadata.lookup keyId ≠ some id) :
    Keeps id srv (admission auth srv metadata).1 := by
  unfold admission
  split
  · exact keeps_process hsep hother
  · exact Keeps.refl id srv

/-- A handler touches the session only if it is a session handler that is called with the id. -/
theorem keeps_handle {id : Bytes} {srv srv' : Server} {env : Env} {metadata : Metadata} {rpc : Rpc}
    {a : Answer} (hsep : Separate srv)
    (hother : rpc.usesGst = true → metadata.lookup keyId ≠ some id)
    (hfresh : rpc.isExchangeKey = true → Bytes.decimal srv.nextPeerId.toNat ≠ id)
    (h : handle srv env metadata rpc = .ok (srv', a)) : Keeps id srv srv' := by
  by_cases huses : rpc.usesGst = true
  · rcases handle_touches huses h with heq | ⟨id', ref, gst, hid, href, heq⟩
    · rw [heq]
      exact keeps_getGst id srv metadata
    · rw [heq]
      exact keeps_setGst gst hsep href fun h' => hother huses (h' ▸ hid)
  · cases rpc with
    | exchangeKey key =>
        cases exchangeKey_exchanged h with
        | failed _ => exact Keeps.refl id srv
        | done gst => exact keeps_addSession gst hsep (hfresh rfl)
    | getInfo => exact keeps_getInfo id h
    | _ => exact absurd rfl huses

/-! ## Ids -/

/-- A call issues no id, or the one that the counter stands at. -/
theorem issued_step {auth : Bool} {w w' : World} {c : Call} (h : step auth w c = some w') :
    (w'.issued = w.issued ∧ w'.srv.nextPeerId = w.srv.nextPeerId) ∨
      (c.rpc.isExchangeKey = true ∧ w'.srv.nextPeerId = w.srv.nextPeerId + 1 ∧
        w'.issued = w.issued ++ [(Bytes.decimal w.srv.nextPeerId.toNat, w.srv.count)]) := by
  have hadm := sameSessions_admission auth w.srv c.metadata
  cases (stepped h).2 with
  | refused _ => exact Or.inl ⟨rfl, hadm.nextPeerId⟩
  | crashed _ _ => exact Or.inl ⟨rfl, hadm.nextPeerId⟩
  | answered _ hhandle =>
      rcases handle_ok hhandle with ⟨hrpc, hframe⟩ | ⟨hrpc, hexchanged⟩
      · left
        refine ⟨by simp [issuedBy_of_not_exchangeKey hrpc], ?_⟩
        calc
          _ = (looked (admission auth w.srv c.metadata).1 c.metadata c.rpc).nextPeerId :=
              hframe.nextPeerId
          _ = (admission auth w.srv c.metadata).1.nextPeerId := (sameSessions_looked _ _ _).nextPeerId
          _ = w.srv.nextPeerId := hadm.nextPeerId
      · cases hexchanged with
        | failed hret => exact Or.inl ⟨by simp [issuedBy_failed hret], hadm.nextPeerId⟩
        | done gst =>
            right
            refine ⟨hrpc, ?_, ?_⟩
            · simp [Server.addSession, hadm.nextPeerId]
            · rcases c with ⟨rpc, metadata, env⟩
              cases rpc with
              | exchangeKey key => simp only [issuedBy_done, hadm.count, hadm.nextPeerId]
              | _ => cases hrpc

/-- The ids that were given out are the texts of the first numbers. -/
structure Numbered (w : World) : Prop where
  next : w.srv.nextPeerId = Counter.after 0 w.issued.length
  ids : ∀ id, Issued w id →
    ∃ j < w.issued.length, id = Bytes.decimal (Counter.after 0 j).toNat

theorem numbered_start (info : Option PeerInfo) (storagePath : Bytes) (heap : GstRef → Gst) :
    Numbered (World.start info storagePath heap) := by
  refine ⟨(Counter.after_zero 0).symm, ?_⟩
  rintro id ⟨ref, h⟩
  cases h

theorem numbered_step {auth : Bool} {w w' : World} {c : Call} (hw : Numbered w)
    (h : step auth w c = some w') : Numbered w' := by
  rcases issued_step h with ⟨hissued, hnext⟩ | ⟨-, hnext, hissued⟩
  · refine ⟨by rw [hnext, hissued, hw.next], ?_⟩
    rintro id ⟨ref, hmem⟩
    rw [hissued] at hmem ⊢
    exact hw.ids id ⟨ref, hmem⟩
  · refine ⟨by rw [hnext, hissued, hw.next, List.length_append, List.length_singleton,
      Counter.after_succ], ?_⟩
    rintro id ⟨ref, hmem⟩
    rw [hissued] at hmem ⊢
    rw [List.length_append, List.length_singleton]
    rcases List.mem_append.1 hmem with hold | hnew
    · rcases hw.ids id ⟨ref, hold⟩ with ⟨j, hj, hid⟩
      exact ⟨j, Nat.lt_succ_of_lt hj, hid⟩
    · simp only [List.mem_singleton, Prod.mk.injEq] at hnew
      exact ⟨w.issued.length, Nat.lt_succ_self _, by rw [hnew.1, hw.next]⟩

theorem length_issued_step {auth : Bool} {w w' : World} {c : Call} (h : step auth w c = some w') :
    w.issued.length ≤ w'.issued.length ∧
      w'.issued.length ≤ w.issued.length + if c.rpc.isExchangeKey then 1 else 0 := by
  rcases issued_step h with ⟨hissued, -⟩ | ⟨hrpc, -, hissued⟩
  · rw [hissued]
    exact ⟨Nat.le_refl _, Nat.le_add_right _ _⟩
  · rw [hissued, List.length_append, List.length_singleton, if_pos hrpc]
    exact ⟨Nat.le_succ _, Nat.le_refl _⟩

theorem length_issued_run {auth : Bool} {w w' : World} {cs : List Call}
    (h : Run.exec (step auth) w cs = some w') :
    w'.issued.length ≤ w.issued.length + cs.countP (·.rpc.isExchangeKey) := by
  induction cs generalizing w with
  | nil =>
      cases h
      simp
  | cons c cs ih =>
      rcases Run.exec_cons_some.1 h with ⟨u, hu, hrest⟩
      have hstep := (length_issued_step hu).2
      have hrun := ih hrest
      rw [List.countP_cons]
      omega

/-- The counter has not come round when the call asks for an id. -/
def IdsLeft (w : World) (c : Call) : Prop :=
  c.rpc.isExchangeKey = true → w.issued.length < 2 ^ 64

theorem idsLeft_run {auth : Bool} {w : World} {cs : List Call}
    (h : w.issued.length + cs.countP (·.rpc.isExchangeKey) ≤ 2 ^ 64) :
    Run.Along (step auth) IdsLeft w cs := by
  induction cs generalizing w with
  | nil => trivial
  | cons c cs ih =>
      rw [List.countP_cons] at h
      refine ⟨fun hrpc => ?_, fun u hu => ih ?_⟩
      · rw [if_pos hrpc] at h
        omega
      · have hstep := (length_issued_step hu).2
        omega

/-- A new id is not one of those that were given out before. -/
theorem Numbered.next_ne {w : World} (hw : Numbered w) (hleft : w.issued.length < 2 ^ 64) {j : Nat}
    (hj : j < w.issued.length) :
    Bytes.decimal w.srv.nextPeerId.toNat ≠ Bytes.decimal (Counter.after 0 j).toNat := by
  intro heq
  have hnat := Bytes.decimal_injective heq
  rw [hw.next] at hnat
  exact Counter.after_ne hj (by omega) (UInt64.toNat_inj.1 hnat).symm

theorem separate_step {auth : Bool} {w w' : World} {c : Call} (hw : Separate w.srv)
    (h : step auth w c = some w') : Separate w'.srv := by
  have hadm := hw.sameSessions (sameSessions_admission auth w.srv c.metadata)
  cases (stepped h).2 with
  | refused _ => exact hadm
  | crashed _ _ => exact hadm
  | answered _ hhandle =>
      rcases handle_ok hhandle with ⟨-, hframe⟩ | ⟨-, hexchanged⟩
      · exact hadm.sameSessions ((sameSessions_looked _ _ _).trans hframe.sameSessions)
      · cases hexchanged with
        | failed _ => exact hadm
        | done gst => exact hadm.addSession _ gst

theorem keeps_step {auth : Bool} {id : Bytes} {w w' : World} {c : Call} (hsep : Separate w.srv)
    (hother : c.metadata.lookup keyId ≠ some id)
    (hfresh : c.rpc.isExchangeKey = true → Bytes.decimal w.srv.nextPeerId.toNat ≠ id)
    (h : step auth w c = some w') : Keeps id w.srv w'.srv := by
  have hadm := keeps_admission auth hsep hother
  have hsame := sameSessions_admission auth w.srv c.metadata
  cases (stepped h).2 with
  | refused _ => exact hadm
  | crashed _ _ => exact hadm
  | answered _ hhandle =>
      refine hadm.trans (keeps_handle (hsep.sameSessions hsame) (fun _ => hother) ?_ hhandle)
      rw [hsame.nextPeerId]
      exact hfresh

/-! ## The session's own calls on two servers -/

/-- Both servers have the same session under the id, in the same place. -/
structure Agree (id : Bytes) (srv srv' : Server) : Prop where
  session : ∃ ref, srv.clientMap.lookup id = some (some ref) ∧
    srv'.clientMap.lookup id = some (some ref) ∧ srv'.gst ref = srv.gst ref
  storagePath : srv'.storagePath = srv.storagePath
  info : srv'.info.map PeerInfo.fixed = srv.info.map PeerInfo.fixed

theorem Agree.keeps {id : Bytes} {srv srv' s s' : Server} (h : Agree id srv srv')
    (hs : Keeps id srv s) (hs' : Keeps id srv' s') : Agree id s s' := by
  rcases h.session with ⟨ref, href, href', hgst⟩
  rcases hs.session href with ⟨hsref, hsgst⟩
  rcases hs'.session href' with ⟨hsref', hsgst'⟩
  refine ⟨⟨ref, hsref, hsref', ?_⟩, ?_, ?_⟩
  · rw [hsgst', hsgst, hgst]
  · rw [hs'.storagePath, hs.storagePath, h.storagePath]
  · rw [hs'.info, hs.info, h.info]

theorem Agree.setGst {id : Bytes} {srv srv' : Server} (h : Agree id srv srv') {ref : GstRef}
    (href : srv.clientMap.lookup id = some (some ref))
    (href' : srv'.clientMap.lookup id = some (some ref)) (gst : Gst) :
    Agree id (srv.setGst ref gst) (srv'.setGst ref gst) :=
  ⟨⟨ref, href, href', by simp⟩, h.storagePath, h.info⟩

theorem Agree.getGst {id : Bytes} {srv srv' : Server} (h : Agree id srv srv') {metadata : Metadata}
    (hid : metadata.lookup keyId = some id) (hne : id ≠ []) :
    ∃ ref, srv.clientMap.lookup id = some (some ref) ∧ srv'.clientMap.lookup id = some (some ref) ∧
      srv'.gst ref = srv.gst ref ∧ GrpcServer.getGst srv metadata = (srv, .ok (some ref)) ∧
      GrpcServer.getGst srv' metadata = (srv', .ok (some ref)) := by
  rcases h.session with ⟨ref, href, href', hgst⟩
  refine ⟨ref, href, href', hgst, ?_, ?_⟩
  · rw [getGst_of_id hid hne, Server.client_of_lookup href]
  · rw [getGst_of_id hid hne, Server.client_of_lookup href']

/-- `Process` decides alike on both servers. -/
theorem Agree.process {id : Bytes} {srv srv' : Server} (h : Agree id srv srv') {metadata : Metadata}
    (hid : metadata.lookup keyId = some id) :
    (GrpcServer.process srv' metadata).2 = (GrpcServer.process srv metadata).2 ∧
      Agree id (GrpcServer.process srv metadata).1 (GrpcServer.process srv' metadata).1 := by
  rcases h.session with ⟨ref, href, href', hgst⟩
  unfold GrpcServer.process
  simp only [hid, Server.client_of_lookup href, Server.client_of_lookup href', hgst]
  -- The two servers take the same branch, and only the last one writes.
  split
  · exact ⟨rfl, h⟩
  · split
    · exact ⟨rfl, h⟩
    · split
      · exact ⟨rfl, h⟩
      · split
        · exact ⟨rfl, h⟩
        · split
          · exact ⟨rfl, h⟩
          · split
            · exact ⟨rfl, h⟩
            · split
              · exact ⟨rfl, h⟩
              · exact ⟨rfl, h.setGst href href' _⟩

theorem Agree.admission {id : Bytes} {srv srv' : Server} (h : Agree id srv srv') (auth : Bool)
    {metadata : Metadata} (hid : metadata.lookup keyId = some id) :
    (GrpcServer.admission auth srv' metadata).2 = (GrpcServer.admission auth srv metadata).2 ∧
      Agree id (GrpcServer.admission auth srv metadata).1
        (GrpcServer.admission auth srv' metadata).1 := by
  unfold GrpcServer.admission
  split
  · exact h.process hid
  · exact ⟨rfl, h⟩

/-- The two results are the same but for a new id, and leave the two servers in agreement. -/
inductive Alike (id : Bytes) (rpc : Rpc) :
    Except Fault (Server × Answer) → Except Fault (Server × Answer) → Prop
  | error (e : Fault) : Alike id rpc (.error e) (.error e)
  | ok {srv srv' : Server} {a a' : Answer} (hanswer : a'.withoutId = a.withoutId)
      (hagree : Agree id srv srv')
      (hissued : (issuedBy srv' rpc a').length = (issuedBy srv rpc a).length) :
      Alike id rpc (.ok (srv, a)) (.ok (srv', a'))

theorem Agree.failed {id : Bytes} {srv srv' : Server} (h : Agree id srv srv') (key : Bytes)
    {ret : Int} (hret : ret < 0) :
    Alike id (.exchangeKey key) (exchangeKeyFailed srv ret) (exchangeKeyFailed srv' ret) :=
  .ok rfl h (by rw [issuedBy_failed hret, issuedBy_failed hret])

theorem Agree.done {id : Bytes} {srv srv' : Server} (h : Agree id srv srv') (key : Bytes)
    (hsep : Separate srv) (hsep' : Separate srv')
    (hfresh : Bytes.decimal srv.nextPeerId.toNat ≠ id)
    (hfresh' : Bytes.decimal srv'.nextPeerId.toNat ≠ id) (gst gst' : Gst) :
    Alike id (.exchangeKey key) (exchangeKeyDone srv gst) (exchangeKeyDone srv' gst') :=
  .ok rfl (h.keeps (keeps_addSession gst hsep hfresh) (keeps_addSession gst' hsep' hfresh'))
    (by rw [issuedBy_done, issuedBy_done]; rfl)

theorem Agree.exchangeKey {id : Bytes} {srv srv' : Server} (h : Agree id srv srv') (env : Env)
    (key : Bytes) (hsep : Separate srv) (hsep' : Separate srv')
    (hfresh : Bytes.decimal srv.nextPeerId.toNat ≠ id)
    (hfresh' : Bytes.decimal srv'.nextPeerId.toNat ≠ id) :
    Alike id (.exchangeKey key) (GrpcServer.exchangeKey srv env key)
      (GrpcServer.exchangeKey srv' env key) := by
  have hopen : ∀ cred, Alike id (.exchangeKey key) (openCredential srv env cred)
      (openCredential srv' env cred) := by
    intro cred
    unfold openCredential
    cases Credential.dbgPrint env.debug cred with
    | error e => exact .error e
    | ok u =>
        -- Of the peer's info only the uuid is read, and both servers have the same.
        have hinfo := h.info
        cases hs : srv.info with
        | none =>
            have hs' : srv'.info = none := by simpa [hs] using hinfo
            simp only [hs']
            exact .error .nullInfo
        | some info =>
            rcases hs' : srv'.info with _ | info'
            · simp [hs, hs'] at hinfo
            · have huuid : info'.uuid = info.uuid := by
                simp only [hs, hs', Option.map_some, Option.some.injEq, PeerInfo.fixed,
                  Prod.mk.injEq] at hinfo
                exact hinfo.1
              simp only [huuid]
              cases Credential.uuidMatches info.uuid cred with
              | error e => exact .error e
              | ok same =>
                  cases same with
                  | false => exact h.failed key (by decide)
                  | true =>
                      dsimp only
                      split
                      · exact h.failed key (by decide)
                      · cases Credential.session cred with
                        | error e => exact .error e
                        | ok r => exact h.done key hsep hsep' hfresh hfresh' _ _
  unfold GrpcServer.exchangeKey
  split
  · split
    · rename_i hret
      exact h.failed key hret
    · split
      · rename_i hret
        exact h.failed key hret
      · split
        · exact h.failed key (by decide)
        · exact h.failed key (by decide)
        · exact hopen _
  · split
    · exact h.failed key (by decide)
    · exact h.done key hsep hsep' hfresh hfresh' _ _

theorem Agree.getInfo {id : Bytes} {srv srv' : Server} (h : Agree id srv srv') (env : Env) :
    Alike id .getInfo (GrpcServer.getInfo srv env) (GrpcServer.getInfo srv' env) := by
  have hinfo := h.info
  unfold GrpcServer.getInfo
  cases hs : srv.info with
  | none =>
      have hs' : srv'.info = none := by simpa [hs] using hinfo
      simp only [hs']
      exact .ok rfl h rfl
  | some info =>
      rcases hs' : srv'.info with _ | info'
      · simp [hs, hs'] at hinfo
      · simp only [hs, hs', Option.map_some, Option.some.injEq, PeerInfo.fixed,
          Prod.mk.injEq] at hinfo
        refine .ok (by simp [hinfo.2]) ?_ rfl
        exact ⟨h.session, h.storagePath, by simp [PeerInfo.fixed, hinfo]⟩

/-- A handler that is called with the id does and answers the same on both servers. -/
theorem Agree.handle {id : Bytes} {srv srv' : Server} (h : Agree id srv srv') (env : Env)
    {metadata : Metadata} (rpc : Rpc) (hid : metadata.lookup keyId = some id) (hne : id ≠ [])
    (hsep : Separate srv) (hsep' : Separate srv')
    (hfresh : rpc.isExchangeKey = true → Bytes.decimal srv.nextPeerId.toNat ≠ id)
    (hfresh' : rpc.isExchangeKey = true → Bytes.decimal srv'.nextPeerId.toNat ≠ id) :
    Alike id rpc (GrpcServer.handle srv env metadata rpc)
      (GrpcServer.handle srv' env metadata rpc) := by
  by_cases huses : rpc.usesGst = true
  · have hrpc : rpc.isExchangeKey = false := by
      cases rpc with
      | exchangeKey key => cases huses
      | _ => rfl
    rcases h.getGst hid hne with ⟨ref, href, href', hgst, hget, hget'⟩
    rcases handle_local env huses with ⟨serves, hserves⟩
    rw [hserves hget, hserves hget', hgst, h.storagePath]
    cases serves srv.storagePath (srv.gst ref) with
    | error e => exact .error e
    | ok r =>
        refine .ok rfl (h.setGst href href' r.1) ?_
        rw [issuedBy_of_not_exchangeKey hrpc, issuedBy_of_not_exchangeKey hrpc]
  · cases rpc with
    | exchangeKey key => exact h.exchangeKey env key hsep hsep' (hfresh rfl) (hfresh' rfl)
    | getInfo => exact h.getInfo env
    | _ => exact absurd rfl huses

/-! ## Isolation -/

/-- What both servers are known to be. -/
structure Orderly (w : World) : Prop where
  separate : Separate w.srv
  numbered : Numbered w

theorem orderly_step {auth : Bool} {w w' : World} {c : Call} (hw : Orderly w)
    (h : step auth w c = some w') : Orderly w' :=
  ⟨separate_step hw.separate h, numbered_step hw.numbered h⟩

/-- The server with all calls and the one with the calls of the `j`-th session only. -/
structure Related (j : Nat) (w t : World) : Prop where
  agree : Agree (Bytes.decimal (Counter.after 0 j).toNat) w.srv t.srv
  running : t.fault = none
  full : Orderly w
  purged : Orderly t
  issued : j < t.issued.length
  fewer : t.issued.length ≤ w.issued.length

theorem related_other {auth : Bool} {j : Nat} {w t w' : World} {c : Call} (h : Related j w t)
    (hleft : IdsLeft w c)
    (hother : ofSession (Bytes.decimal (Counter.after 0 j).toNat) c = false)
    (hstep : step auth w c = some w') : Related j w' t := by
  have hne : c.metadata.lookup keyId ≠ some (Bytes.decimal (Counter.after 0 j).toNat) := by
    simpa [ofSession] using hother
  have hkeeps := keeps_step h.full.separate hne
    (fun hrpc => h.full.numbered.next_ne (hleft hrpc) (Nat.lt_of_lt_of_le h.issued h.fewer)) hstep
  exact
    { agree := h.agree.keeps hkeeps (Keeps.refl _ _)
      running := h.running
      full := orderly_step h.full hstep
      purged := h.purged
      issued := h.issued
      fewer := Nat.le_trans h.fewer (length_issued_step hstep).1 }

/-- A call of the session: the smaller server goes on like the other, answers the same, and stops
working where the other does. -/
theorem related_mine {auth : Bool} {j : Nat} {w t w' : World} {c : Call} (h : Related j w t)
    (hleft : IdsLeft w c)
    (hmine : ofSession (Bytes.decimal (Counter.after 0 j).toNat) c = true)
    (hstep : step auth w c = some w') :
    ∃ t', step auth t c = some t' ∧ (w'.fault = none → Related j w' t') ∧
      outcome auth w c = outcome auth t c := by
  have hid : c.metadata.lookup keyId = some (Bytes.decimal (Counter.after 0 j).toNat) := by
    simpa [ofSession] using hmine
  have hfault := (stepped hstep).1
  rcases h.agree.admission auth hid with ⟨hstatus, hagree⟩
  have hsame := sameSessions_admission auth w.srv c.metadata
  have hsame' := sameSessions_admission auth t.srv c.metadata
  have hlen := h.fewer
  -- Once the steps are known, what is left is that both servers agree behind them.
  have hrelated : ∀ t', step auth t c = some t' → t'.fault = none →
      Agree (Bytes.decimal (Counter.after 0 j).toNat) w'.srv t'.srv →
      t'.issued.length ≤ w'.issued.length → Related j w' t' := by
    intro t' ht' hrunning hagree' hfewer
    exact ⟨hagree', hrunning, orderly_step h.full hstep, orderly_step h.purged ht',
      Nat.lt_of_lt_of_le h.issued (length_issued_step ht').1, hfewer⟩
  by_cases hcode : (admission auth w.srv c.metadata).2.code = .ok
  · have hleft' : c.rpc.isExchangeKey = true → t.issued.length < 2 ^ 64 := fun hrpc =>
      Nat.lt_of_le_of_lt hlen (hleft hrpc)
    have halike := hagree.handle c.env c.rpc hid (Bytes.decimal_ne_nil _)
      (h.full.separate.sameSessions hsame) (h.purged.separate.sameSessions hsame')
      (fun hrpc => by
        rw [hsame.nextPeerId]
        exact h.full.numbered.next_ne (hleft hrpc) (Nat.lt_of_lt_of_le h.issued hlen))
      (fun hrpc => by
        rw [hsame'.nextPeerId]
        exact h.purged.numbered.next_ne (hleft' hrpc) h.issued)
    unfold outcome
    unfold step at hstep hrelated ⊢
    rw [if_neg (by simp [hfault]), if_neg (by simp [hcode])] at hstep
    rw [if_neg (by simp [h.running]), if_neg (by simp [hstatus, hcode])] at hrelated ⊢
    rw [if_neg (by simp [hcode]), if_neg (by simp [hstatus, hcode])]
    revert hstep hrelated halike
    generalize handle (admission auth w.srv c.metadata).1 c.env c.metadata c.rpc = r
    generalize handle (admission auth t.srv c.metadata).1 c.env c.metadata c.rpc = r'
    intro hstep hrelated halike
    cases halike with
    | error e =>
        cases hstep
        refine ⟨_, rfl, ?_, rfl⟩
        intro hnone
        cases hnone
    | ok hanswer hagree' hissued =>
        cases hstep
        refine ⟨_, rfl, fun _ => hrelated _ rfl h.running hagree' ?_, by simp [hanswer]⟩
        simp only [List.length_append, hissued]
        omega
  · unfold outcome
    unfold step at hstep hrelated ⊢
    rw [if_neg (by simp [hfault]), if_pos hcode] at hstep
    rw [if_neg (by simp [h.running]), if_pos (by rw [hstatus]; exact hcode)] at hrelated ⊢
    rw [if_pos hcode, if_pos (by rw [hstatus]; exact hcode), hstatus]
    cases hstep
    exact ⟨_, rfl, fun _ => hrelated _ rfl h.running hagree hlen, rfl⟩

theorem unwinds (auth : Bool) (j : Nat) :
    Run.Unwinds (step auth) (step auth) (outcome auth) (outcome auth)
      (ofSession (Bytes.decimal (Counter.after 0 j).toNat)) IdsLeft
      (fun w t => w.fault = none → Related j w t) := by
  constructor
  · intro w t c w' hR hleft hother hstep hfault
    exact related_other (hR (stepped hstep).1) hleft hother hstep
  · intro w t c w' hR hleft hmine hstep
    exact related_mine (hR (stepped hstep).1) hleft hmine hstep

theorem tabled_orderly_run {auth : Bool} {w w' : World} {cs : List Call} (hw : Tabled w ∧ Orderly w)
    (h : Run.exec (step auth) w cs = some w') : Tabled w' ∧ Orderly w' :=
  Run.exec_preserved (I := fun w => Tabled w ∧ Orderly w)
    (fun _ _ _ hw h => ⟨tabled_step hw.1 h, orderly_step hw.2 h⟩) hw h

/-- The calls of everybody else make no difference to a session: without them its calls, meeting what
they met, get the same answers and leave the same session behind, as long as at most `2^64` ids are
asked for. -/
theorem others_invisible (auth : Bool) (info : Option PeerInfo) (storagePath : Bytes)
    (heap : GstRef → Gst) (before calls : List Call) (w w' : World) (id : Bytes)
    (hbefore : Run.exec (step auth) (World.start info storagePath heap) before = some w)
    (hid : Issued w id) (hcalls : Run.exec (step auth) w calls = some w')
    (hcount : (before ++ calls).countP (·.rpc.isExchangeKey) ≤ 2 ^ 64) :
    ∃ t, Run.exec (step auth) w (calls.filter (ofSession id)) = some t ∧
      Run.observed (step auth) (outcome auth) (ofSession id) w calls =
        Run.observed (step auth) (outcome auth) (ofSession id) w (calls.filter (ofSession id)) ∧
      (w'.fault = none → t.fault = none ∧ ∃ gst, session w'.srv id = some gst ∧
        session t.srv id = some gst) := by
  have hw : Tabled w ∧ Orderly w := tabled_orderly_run
    ⟨tabled_start info storagePath heap, separate_start info storagePath heap,
      numbered_start info storagePath heap⟩ hbefore
  rcases hw.2.numbered.ids id hid with ⟨j, hj, rfl⟩
  have hlen : w.issued.length ≤ before.countP (·.rpc.isExchangeKey) := by
    simpa [World.start] using length_issued_run hbefore
  have hleft : Run.Along (step auth) IdsLeft w calls := by
    refine idsLeft_run ?_
    rw [List.countP_append] at hcount
    omega
  -- At first the two servers are the same one.
  have hstart : w.fault = none → Related j w w := by
    intro hfault
    rcases hw.1.kept _ hid with ⟨ref, href⟩
    exact ⟨⟨⟨ref, href, href, rfl⟩, rfl, rfl⟩, hfault, hw.2, hw.2, hj, Nat.le_refl _⟩
  rcases (unwinds auth j).purge hstart hleft hcalls with ⟨t, ht, hR, hobs⟩
  refine ⟨t, ht, hobs, fun hfault => ?_⟩
  have hrelated := hR hfault
  rcases hrelated.agree.session with ⟨ref, href, href', hgst⟩
  refine ⟨hrelated.running, w'.srv.gst ref, session_of_lookup href, ?_⟩
  rw [session_of_lookup href', hgst]

/-! ## Calls in order -/

/-- The name under which `GetMetadata` and `Process` know an RPC. -/
def Rpc.methodName : Rpc → Bytes
  | configure _ => Bytes.ascii "Configure"
  | exchangeKey _ => Bytes.ascii "ExchangeKey"
  | loadModel _ => Bytes.ascii "LoadModel"
  | uploadModel _ => Bytes.ascii "UploadModel"
  | getInputTensorInfo => Bytes.ascii "GetInputTensorInfo"
  | setInputTensorInfo _ => Bytes.ascii "SetInputTensorInfo"
  | getOutputTensorInfo => Bytes.ascii "GetOutputTensorInfo"
  | setOutputTensorInfo _ => Bytes.ascii "SetOutputTensorInfo"
  | prepare => Bytes.ascii "Prepare"
  | stop => Bytes.ascii "Stop"
  | getInfo => Bytes.ascii "GetInfo"

/-- The calls that a client makes one after the other, with the metadata that `GetMetadata` writes
for them, and the nonce that the client has behind them. -/
def clientCalls (id : Bytes) : UInt64 → List (Rpc × Env) → List Call × UInt64
  | nonce, [] => ([], nonce)
  | nonce, (rpc, env) :: rest =>
      let sent := GrpcClient.getMetadata id nonce rpc.methodName
      (⟨rpc, sent.1, env⟩ :: (clientCalls id sent.2 rest).1, (clientCalls id sent.2 rest).2)

def Outcome.isRefused : Outcome → Bool
  | refused _ => true
  | _ => false

/-- Only `ExchangeKey` has a name that `Process` lets through. -/
theorem exempt_methodName (rpc : Rpc) : exempt rpc.methodName = rpc.isExchangeKey := by
  cases rpc <;> rfl

theorem methodName_ne_nil (rpc : Rpc) : rpc.methodName ≠ [] := by
  cases rpc <;> exact List.cons_ne_nil _ _

/-- The server lets a call with the session's nonce through, and both have the next nonce then. -/
theorem step_clientCall {w w' : World} {id : Bytes} {ref : GstRef} {rpc : Rpc} {env : Env}
    (href : w.srv.clientMap.lookup id = some (some ref)) (hne : id ≠ [])
    (hlt : ref < w.srv.count) (hrpc : rpc.isExchangeKey = false)
    (h : step true w ⟨rpc, (GrpcClient.getMetadata id (w.srv.gst ref).nonce rpc.methodName).1, env⟩ =
      some w') :
    (outcome true w
        ⟨rpc, (GrpcClient.getMetadata id (w.srv.gst ref).nonce rpc.methodName).1, env⟩).isRefused =
      false ∧
      w'.srv.clientMap.lookup id = some (some ref) ∧ ref < w'.srv.count ∧
      (w'.srv.gst ref).nonce =
        (GrpcClient.getMetadata id (w.srv.gst ref).nonce rpc.methodName).2 := by
  have hexempt : exempt rpc.methodName = false := by rw [exempt_methodName, hrpc]
  have hprocess := @GrpcClient.process_getMetadata _ _ _ _ (w.srv.gst ref).nonce href hne
    (methodName_ne_nil rpc) hexempt
  rw [if_pos rfl] at hprocess
  have hadm : ∀ metadata, admission true w.srv metadata = process w.srv metadata := fun _ => rfl
  constructor
  · simp only [outcome, hadm, hprocess, Status.accepted]
    rw [if_neg (by simp)]
    split <;> rfl
  · cases (stepped h).2 with
    | refused hcode => simp [hadm, hprocess, Status.accepted] at hcode
    | crashed _ _ => simpa [hadm, hprocess] using ⟨href, hlt⟩
    | answered _ hhandle =>
        simp only [hadm, hprocess] at hhandle
        have hnonce := @nonce_handle _ _ _ _ _ _ hhandle ref (Or.inl hrpc)
        rcases handle_ok hhandle with ⟨-, hframe⟩ | ⟨hrpc', -⟩
        · have hsame := (sameSessions_looked _ _ rpc).trans hframe.sameSessions
          refine ⟨(hsame.lookup id ref).2 href, ?_, ?_⟩
          · rw [hsame.count]
            exact hlt
          · simpa using hnonce
        · rw [hrpc] at hrpc'
          cases hrpc'

/-- Alone on the server, a client that sends its calls in order has each of them let through. -/
theorem clientCalls_run {w w' : World} {id : Bytes} {ref : GstRef} {requests : List (Rpc × Env)}
    (href : w.srv.clientMap.lookup id = some (some ref)) (hne : id ≠ [])
    (hlt : ref < w.srv.count) (hrpc : ∀ r ∈ requests, r.1.isExchangeKey = false)
    (h : Run.exec (step true) w (clientCalls id (w.srv.gst ref).nonce requests).1 = some w') :
    (∀ o ∈ Run.observed (step true) (outcome true) (ofSession id) w
        (clientCalls id (w.srv.gst ref).nonce requests).1, o.isRefused = false) ∧
      w'.srv.clientMap.lookup id = some (some ref) ∧
      (w'.srv.gst ref).nonce = (clientCalls id (w.srv.gst ref).nonce requests).2 := by
  induction requests generalizing w with
  | nil =>
      cases h
      exact ⟨by simp [clientCalls], href, rfl⟩
  | cons r rest ih =>
      rcases r with ⟨rpc, env⟩
      have hrpc' : rpc.isExchangeKey = false := hrpc _ (List.mem_cons_self ..)
      have hexempt : exempt rpc.methodName = false := by rw [exempt_methodName, hrpc']
      rcases Run.exec_cons_some.1 h with ⟨u, hu, hrest⟩
      rcases step_clientCall href hne hlt hrpc' hu with ⟨hout, hulookup, hult, hunonce⟩
      rw [← hunonce] at hrest
      rcases ih hulookup hult (fun r hr => hrpc r (List.mem_cons_of_mem _ hr)) hrest with
        ⟨hobs, hlookup, hnonce⟩
      have hmine : ofSession id ⟨rpc,
          (GrpcClient.getMetadata id (w.srv.gst ref).nonce rpc.methodName).1, env⟩ = true := by
        simp [ofSession, (GrpcClient.lookup_getMetadata id _ hexempt).2.2]
      refine ⟨?_, hlookup, ?_⟩
      · intro o ho
        simp only [clientCalls, ← hunonce] at ho
        rw [hunonce, Run.observed_mine hmine hu, ← hunonce] at ho
        rcases List.mem_cons.1 ho with rfl | ho
        · exact hout
        · exact hobs o ho
      · simp only [clientCalls, ← hunonce]
        exact hnonce

/-- A client that sends the calls of its session in order is never refused, whatever the others send
in between, and it has the nonce of its session afterwards. -/
theorem in_order_accepted (info : Option PeerInfo) (storagePath : Bytes) (heap : GstRef → Gst)
    (before calls : List Call) (w w' : World) (id : Bytes) (gst : Gst)
    (requests : List (Rpc × Env))
    (hbefore : Run.exec (step true) (World.start info storagePath heap) before = some w)
    (hid : Issued w id) (hgst : session w.srv id = some gst)
    (hcalls : Run.exec (step true) w calls = some w')
    (hmine : calls.filter (ofSession id) = (clientCalls id gst.nonce requests).1)
    (hrpc : ∀ r ∈ requests, r.1.isExchangeKey = false)
    (hcount : (before ++ calls).countP (·.rpc.isExchangeKey) ≤ 2 ^ 64) :
    (∀ o ∈ Run.observed (step true) (outcome true) (ofSession id) w calls, o.isRefused = false) ∧
      (w'.fault = none → ∃ gst', session w'.srv id = some gst' ∧
        gst'.nonce = (clientCalls id gst.nonce requests).2) := by
  rcases others_invisible true info storagePath heap before calls w w' id hbefore hid hcalls hcount
    with ⟨t, ht, hobs, hend⟩
  have hw : Tabled w ∧ Orderly w := tabled_orderly_run
    ⟨tabled_start info storagePath heap, separate_start info storagePath heap,
      numbered_start info storagePath heap⟩ hbefore
  rcases hw.1.kept id hid with ⟨ref, href⟩
  have hne : id ≠ [] := by
    rcases hw.2.numbered.ids id hid with ⟨j, -, rfl⟩
    exact Bytes.decimal_ne_nil _
  cases (session_of_lookup href).symm.trans hgst
  rw [hmine] at ht hobs
  rcases clientCalls_run href hne (hw.2.separate.allocated href) hrpc ht with
    ⟨hall, hlookup, hnonce⟩
  refine ⟨?_, fun hfault => ?_⟩
  · rw [hobs]
    exact hall
  · rcases (hend hfault).2 with ⟨gst', hw', ht'⟩
    cases (session_of_lookup hlookup).symm.trans ht'
    exact ⟨_, hw', hnonce⟩

/-- Two clients get their ids. -/
def arrivals : List Call :=
  [⟨.exchangeKey [], [(keyMethodName, Bytes.ascii "ExchangeKey")], Env.plain⟩,
    ⟨.exchangeKey [], [(keyMethodName, Bytes.ascii "ExchangeKey")], Env.plain⟩]

/-- Calls of both, and one with a nonce that is not the session's. -/
def mingled : List Call :=
  [⟨.configure ⟨1, [], [], [], []⟩,
      (GrpcClient.getMetadata (Bytes.ascii "0") 0 (Bytes.ascii "Configure")).1, Env.plain⟩,
    ⟨.stop, (GrpcClient.getMetadata (Bytes.ascii "1") 7 (Bytes.ascii "Stop")).1, Env.plain⟩,
    ⟨.prepare, (GrpcClient.getMetadata (Bytes.ascii "1") 0 (Bytes.ascii "Prepare")).1, Env.plain⟩,
    ⟨.stop, (GrpcClient.getMetadata (Bytes.ascii "0") 1 (Bytes.ascii "Stop")).1, Env.plain⟩]

theorem mingled_accepted :
    ∃ w, Run.exec (step true) World.empty arrivals = some w ∧
      ∀ o ∈ Run.observed (step true) (outcome true) (ofSession (Bytes.ascii "0")) w mingled,
        o.isRefused = false := by
  refine ⟨_, rfl, ?_⟩
  exact (in_order_accepted none [] (fun _ => { peerId := [], nonce := 0 }) arrivals mingled _ _
    (Bytes.ascii "0") _ [(.configure ⟨1, [], [], [], []⟩, Env.plain), (.stop, Env.plain)] rfl
    ⟨0, by decide⟩ rfl rfl rfl (by decide) (by decide)).1

end GrpcServer
end Peer
end Beyond
