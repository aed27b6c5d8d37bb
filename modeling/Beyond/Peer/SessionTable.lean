import Beyond.Peer.Auth

/-!
# The session table

`clientMap` as the calls see it.  A lookup with `operator[]` inserts a null pointer under an id that
is not there, so a single stray id is enough to leave one behind; without stray ids the table holds
exactly the sessions that `ExchangeKey` issued.
-/

namespace Beyond
namespace Peer
namespace GrpcServer

/-! ## What a lookup changes -/

/-- The same sessions under the same ids, whatever null pointers were inserted. -/
structure SameSessions (srv srv' : Server) : Prop where
  lookup : ∀ id ref, srv'.clientMap.lookup id = some (some ref) ↔
    srv.clientMap.lookup id = some (some ref)
  count : srv'.count = srv.count
  nextPeerId : srv'.nextPeerId = srv.nextPeerId

theorem SameSessions.refl (srv : Server) : SameSessions srv srv :=
  ⟨fun _ _ => Iff.rfl, rfl, rfl⟩

theorem SameSessions.trans {srv srv' srv'' : Server} (h : SameSessions srv srv')
    (h' : SameSessions srv' srv'') : SameSessions srv srv'' :=
  ⟨fun id ref => (h'.lookup id ref).trans (h.lookup id ref), h'.count.trans h.count,
    h'.nextPeerId.trans h.nextPeerId⟩

theorem Frame.sameSessions {srv srv' : Server} (h : Frame srv srv') : SameSessions srv srv' :=
  ⟨fun id ref => by rw [h.clientMap], h.count, h.nextPeerId⟩

theorem sameSessions_client (srv : Server) (id : Bytes) : SameSessions srv (srv.client id).1 := by
  refine ⟨?_, by simp, by simp⟩
  intro id' ref
  cases hid : srv.clientMap.lookup id with
  | some p => rw [Server.client_of_lookup hid]
  | none =>
      -- What `operator[]` inserts is no session.
      rw [Server.client_of_lookup_none hid]
      by_cases heq : id' = id
      · subst heq
        simp [AList.lookup_insert, hid]
      · simp [AList.lookup_insert_ne heq]

theorem sameSessions_getGst (srv : Server) (metadata : Metadata) :
    SameSessions srv (getGst srv metadata).1 := by
  unfold getGst
  split
  · exact SameSessions.refl srv
  · split
    · exact SameSessions.refl srv
    · exact sameSessions_client srv _

theorem sameSessions_looked (srv : Server) (metadata : Metadata) (rpc : Rpc) :
    SameSessions srv (looked srv metadata rpc) := by
  unfold looked
  split
  · exact sameSessions_getGst srv metadata
  · exact SameSessions.refl srv

theorem Processed.sameSessions {srv : Server} {metadata : Metadata} {r : Server × Status}
    (h : Processed srv metadata r) : SameSessions srv r.1 := by
  cases h with
  | exempted _ => exact SameSessions.refl srv
  | accepted _ _ _ _ _ => exact ⟨fun _ _ => Iff.rfl, rfl, rfl⟩
  | refused _ _ _ => exact SameSessions.refl srv
  | unknown _ _ _ _ => exact sameSessions_client srv _

theorem sameSessions_admission (auth : Bool) (srv : Server) (metadata : Metadata) :
    SameSessions srv (admission auth srv metadata).1 := by
  unfold admission
  split
  · exact (processed srv metadata).sameSessions
  · exact SameSessions.refl srv

/-- A lookup leaves the table as it was exactly when the id is there. -/
theorem clientMap_client {srv : Server} {id : Bytes} :
    (srv.client id).1.clientMap = srv.clientMap ↔ srv.clientMap.lookup id ≠ none := by
  cases hid : srv.clientMap.lookup id with
  | some p => simp [Server.client_of_lookup hid]
  | none =>
      simp only [Server.client_of_lookup_none hid, ne_eq, not_true_eq_false, iff_false]
      intro h
      have hlookup := congrArg (AList.lookup id) h
      simp [AList.lookup_insert, hid] at hlookup

/-! ## The table and the issued ids -/

def Issued (w : World) (id : Bytes) : Prop := ∃ ref, (id, ref) ∈ w.issued

/-- The sessions in the table are the ones that `ExchangeKey` issued last under their ids. -/
structure Tabled (w : World) : Prop where
  issued : ∀ id ref, w.srv.clientMap.lookup id = some (some ref) → (id, ref) ∈ w.issued
  kept : ∀ id, Issued w id → ∃ ref, w.srv.clientMap.lookup id = some (some ref)
  allocated : ∀ id ref, (id, ref) ∈ w.issued → ref < w.srv.count

theorem tabled_start (info : Option PeerInfo) (storagePath : Bytes) (heap : GstRef → Gst) :
    Tabled (World.start info storagePath heap) := by
  constructor
  · intro id ref h
    cases h
  · rintro id ⟨ref, h⟩
    cases h
  · intro id ref h
    cases h

theorem Tabled.sameSessions {w w' : World} (hw : Tabled w) (hsrv : SameSessions w.srv w'.srv)
    (hissued : w'.issued = w.issued) : Tabled w' := by
  constructor
  · intro id ref h
    rw [hissued]
    exact hw.issued id ref ((hsrv.lookup id ref).1 h)
  · rintro id ⟨ref, h⟩
    rcases hw.kept id ⟨ref, hissued ▸ h⟩ with ⟨ref', h'⟩
    exact ⟨ref', (hsrv.lookup id ref').2 h'⟩
  · intro id ref h
    rw [hsrv.count]
    exact hw.allocated id ref (hissued ▸ h)

theorem issuedBy_of_not_exchangeKey {srv : Server} {rpc : Rpc} {a : Answer}
    (h : rpc.isExchangeKey = false) : issuedBy srv rpc a = [] := by
  cases rpc with
  | exchangeKey key => cases h
  | _ => rfl

theorem issuedBy_failed {srv : Server} {rpc : Rpc} {ret : Int} (h : ret < 0) :
    issuedBy srv rpc ⟨.OK, .exchangeKey ret []⟩ = [] := by
  cases rpc with
  | exchangeKey key =>
      unfold issuedBy
      split
      · rename_i hres
        cases hres
        omega
      · rfl
  | _ => rfl

theorem issuedBy_done {srv : Server} {key id : Bytes} {gst : Gst} :
    issuedBy (srv.addSession id gst) (.exchangeKey key) ⟨.OK, .exchangeKey 0 id⟩ =
      [(id, srv.count)] := by
  simp [issuedBy, Server.addSession, AList.lookup_insert]

theorem Tabled.addSession {w w' : World} {id : Bytes} {gst : Gst} (hw : Tabled w)
    (hsrv : w'.srv = w.srv.addSession id gst) (hissued : w'.issued = w.issued ++ [(id, w.srv.count)]) :
    Tabled w' := by
  -- An id that comes back after `2^64` sessions names the new session from now on.
  have hlookup : ∀ id', w'.srv.clientMap.lookup id' =
      if id' = id then some (some w.srv.count) else w.srv.clientMap.lookup id' := by
    intro id'
    rw [hsrv]
    by_cases h : id' = id
    · subst h
      simp [Server.addSession, AList.lookup_insert]
    · simp [Server.addSession, AList.lookup_insert_ne h, h]
  constructor
  · intro id' ref h
    rw [hlookup] at h
    rw [hissued, List.mem_append]
    split at h
    · rename_i heq
      cases h
      simp [heq]
    · exact Or.inl (hw.issued id' ref h)
  · rintro id' ⟨ref, h⟩
    rw [hlookup]
    split
    · exact ⟨_, rfl⟩
    · rename_i hne
      rw [hissued, List.mem_append] at h
      rcases h with h | h
      · exact hw.kept id' ⟨ref, h⟩
      · simp [hne] at h
  · intro id' ref h
    have hcount : w'.srv.count = w.srv.count + 1 := by rw [hsrv]; rfl
    rw [hissued, List.mem_append] at h
    rw [hcount]
    rcases h with h | h
    · exact Nat.lt_succ_of_lt (hw.allocated id' ref h)
    · simp only [List.mem_singleton, Prod.mk.injEq] at h
      rw [h.2]
      exact Nat.lt_succ_self _

theorem tabled_step {auth : Bool} {w w' : World} {c : Call} (hw : Tabled w)
    (h : step auth w c = some w') : Tabled w' := by
  have hadm := sameSessions_admission auth w.srv c.metadata
  cases (stepped h).2 with
  | refused _ => exact hw.sameSessions hadm rfl
  | crashed _ _ => exact hw.sameSessions hadm rfl
  | answered _ hhandle =>
      -- First what `Process` did to the server, then what the handler did.
      have hadmission : Tabled { w with srv := (admission auth w.srv c.metadata).1 } :=
        hw.sameSessions hadm rfl
      rcases handle_ok hhandle with ⟨hrpc, hframe⟩ | ⟨hrpc, hexchanged⟩
      · refine hadmission.sameSessions ((sameSessions_looked _ _ _).trans hframe.sameSessions) ?_
        simp [issuedBy_of_not_exchangeKey hrpc]
      · cases hexchanged with
        | failed hret =>
            refine hadmission.sameSessions (SameSessions.refl _) ?_
            simp [issuedBy_failed hret]
        | done gst =>
            refine hadmission.addSession rfl ?_
            rcases c with ⟨rpc, metadata, env⟩
            cases rpc with
            | exchangeKey key => rw [issuedBy_done]
            | _ => cases hrpc

theorem tabled_run {auth : Bool} {w w' : World} {cs : List Call} (hw : Tabled w)
    (h : Run.exec (step auth) w cs = some w') : Tabled w' := by
  have hkeep : Run.Preserved (step auth) (fun _ _ => True) Tabled :=
    fun _ _ _ hw _ h => tabled_step hw h
  exact Run.exec_invariant hkeep hw (Run.Along.of_forall fun _ _ _ => trivial) h

/-! ## Safety of the lookups -/

/-- What is asked of one call. -/
structure LookupSafe (auth : Bool) (w : World) (c : Call) : Prop where
  /-- The lookup of `Auth::Process` leaves the table as it was. -/
  process : auth = true → (process w.srv c.metadata).1.clientMap = w.srv.clientMap
  /-- So does the lookup of the handler, if the call comes so far. -/
  getGst : (admission auth w.srv c.metadata).2.code = .ok → c.rpc.usesGst = true →
    (getGst (admission auth w.srv c.metadata).1 c.metadata).1.clientMap =
      (admission auth w.srv c.metadata).1.clientMap
  /-- The handler gets only sessions that `ExchangeKey` issued under the id. -/
  gets : (admission auth w.srv c.metadata).2.code = .ok → c.rpc.usesGst = true → ∀ p,
    (GrpcServer.getGst (admission auth w.srv c.metadata).1 c.metadata).2 = .ok p →
      ∃ id ref, c.metadata.lookup keyId = some id ∧ (id, ref) ∈ w.issued ∧ p = some ref
  /-- For every other id the handler answers `NOT_FOUND`. -/
  notFound : (admission auth w.srv c.metadata).2.code = .ok → c.rpc.usesGst = true →
    (∀ id, c.metadata.lookup keyId = some id → id = [] ∨ ¬ Issued w id) →
      ∃ srv a, handle (admission auth w.srv c.metadata).1 c.env c.metadata c.rpc = .ok (srv, a) ∧
        a.status = ⟨.notFound, "Not Found"⟩
  /-- No null pointer is in the table after the call. -/
  nonNull : ∀ w', step auth w c = some w' → ∀ id, w'.srv.clientMap.lookup id ≠ some none
  /-- The handler dereferences no null session. -/
  handler : (admission auth w.srv c.metadata).2.code = .ok →
    handle (admission auth w.srv c.metadata).1 c.env c.metadata c.rpc ≠ .error .nullGst
  /-- Nor would `Destroy` after the call. -/
  destroy : ∀ w', step auth w c = some w' → destroy w'.srv ≠ .error .nullGst

/-- The call comes to a lookup of its id, in `Auth::Process` or in its handler. -/
def LooksUp (auth : Bool) (c : Call) : Prop :=
  (auth = true ∧ checksSession c.metadata = true) ∨
    ((auth = true → exempted c.metadata = true) ∧ c.rpc.usesGst = true)

/-- The call has an id looked up that no `ExchangeKey` has issued. -/
def Stray (auth : Bool) (w : World) (c : Call) : Prop :=
  LooksUp auth c ∧ ∃ id, c.metadata.lookup keyId = some id ∧ id ≠ [] ∧ ¬ Issued w id

def NonNull (srv : Server) : Prop := ∀ id, srv.clientMap.lookup id ≠ some none

theorem destroyLoop_of_nonNull {entries : List (Sigma fun _ : Bytes => Option GstRef)}
    (h : ∀ e ∈ entries, e.2 ≠ none) : destroyLoop entries ≠ .error .nullGst := by
  induction entries with
  | nil => simp [destroyLoop]
  | cons e rest ih =>
      rcases e with ⟨id, _ | ref⟩
      · exact absurd rfl (h ⟨id, none⟩ (by simp))
      · have hrest := ih fun e he => h e (List.mem_cons_of_mem _ he)
        cases hr : destroyLoop rest with
        | error e' =>
            rw [hr] at hrest
            simpa [destroyLoop, hr] using hrest
        | ok refs => simp [destroyLoop, hr]

theorem destroy_of_nonNull {srv : Server} (h : NonNull srv) : destroy srv ≠ .error .nullGst := by
  refine destroyLoop_of_nonNull ?_
  rintro ⟨id, p⟩ hmem hnull
  have hlookup : p ∈ srv.clientMap.lookup id := AList.mem_lookup_iff.2 hmem
  rw [Option.mem_def] at hlookup
  exact h id (by rw [hlookup]; exact congrArg some hnull)

/-- A stray id is not in a table without null pointers. -/
theorem lookup_of_not_issued {w : World} (hw : Tabled w) (hnull : NonNull w.srv) {id : Bytes}
    (h : ¬ Issued w id) : w.srv.clientMap.lookup id = none := by
  cases hid : w.srv.clientMap.lookup id with
  | none => rfl
  | some p =>
      cases p with
      | none => exact absurd hid (hnull id)
      | some ref => exact absurd ⟨ref, hw.issued id ref hid⟩ h

/-- `Process` inserts an id that it looks up and does not find. -/
theorem process_of_lookup_none {srv : Server} {metadata : Metadata} {id : Bytes}
    (hchecks : checksSession metadata = true) (hid : metadata.lookup keyId = some id) (hne : id ≠ [])
    (hnone : srv.clientMap.lookup id = none) :
    (process srv metadata).1.clientMap ≠ srv.clientMap := by
  have hexempted := not_exempted_of_checksSession hchecks
  have hp := processed srv metadata
  revert hp
  generalize process srv metadata = r
  intro hp
  -- An id that is not in the table is neither accepted nor refused for its nonce.
  cases hp with
  | exempted h => simp [hexempted] at h
  | accepted _ hid' _ href _ =>
      cases Option.some.inj (hid.symm.trans hid')
      simp [hnone] at href
  | refused _ _ hknown =>
      rcases hknown id hchecks hid hne with ⟨ref, href⟩
      simp [hnone] at href
  | unknown _ hid' _ _ =>
      cases Option.some.inj (hid.symm.trans hid')
      exact fun h => clientMap_client.1 h hnone

theorem getGst_of_id {srv : Server} {metadata : Metadata} {id : Bytes}
    (hid : metadata.lookup keyId = some id) (hne : id ≠ []) :
    getGst srv metadata = ((srv.client id).1, .ok (srv.client id).2) := by
  simp [getGst, hid, hne]

/-- The first call with a stray id changes the table. -/
theorem not_lookupSafe_of_stray {auth : Bool} {w : World} {c : Call} (hw : Tabled w)
    (hnull : NonNull w.srv) (hstray : Stray auth w c) : ¬ LookupSafe auth w c := by
  rcases hstray with ⟨hlooks, id, hid, hne, hissued⟩
  have hnone := lookup_of_not_issued hw hnull hissued
  intro hsafe
  rcases hlooks with ⟨hauth, hchecks⟩ | ⟨hexempted, huses⟩
  · exact process_of_lookup_none hchecks hid hne hnone (hsafe.process hauth)
  · -- `Process` has not looked the id up, so it is `GetGst` that inserts it.
    have hadm : admission auth w.srv c.metadata = (w.srv, .accepted) := by
      cases auth with
      | false => rfl
      | true => exact process_of_exempted w.srv (hexempted rfl)
    have h := hsafe.getGst (by rw [hadm]; rfl) huses
    rw [hadm, getGst_of_id hid hne] at h
    exact clientMap_client.1 h hnone

/-! ## Calls without stray ids -/

/-- Without a stray id `Process` leaves the table as it was, and a call that it lets through to a
session handler carries an issued id or none. -/
theorem admission_of_not_stray {auth : Bool} {w : World} {c : Call} (hw : Tabled w)
    (hstray : ¬ Stray auth w c) :
    (admission auth w.srv c.metadata).1.clientMap = w.srv.clientMap ∧
      ((admission auth w.srv c.metadata).2.code = .ok → c.rpc.usesGst = true → ∀ id,
        c.metadata.lookup keyId = some id → id ≠ [] → Issued w id) := by
  have hissued : LooksUp auth c → ∀ id, c.metadata.lookup keyId = some id → id ≠ [] →
      Issued w id := by
    intro hlooks id hid hne
    by_contra hnot
    exact hstray ⟨hlooks, id, hid, hne, hnot⟩
  cases auth with
  | false =>
      refine ⟨rfl, fun _ huses id hid hne => hissued (Or.inr ⟨by simp, huses⟩) id hid hne⟩
  | true =>
      have hp := processed w.srv c.metadata
      unfold admission
      rw [if_pos rfl]
      revert hp
      generalize process w.srv c.metadata = r
      intro hp
      cases hp with
      | exempted h =>
          exact ⟨rfl, fun _ huses id hid hne => hissued (Or.inr ⟨fun _ => h, huses⟩) id hid hne⟩
      | accepted _ hid' _ href _ =>
          refine ⟨rfl, fun _ _ id hid _ => ?_⟩
          cases Option.some.inj (hid'.symm.trans hid)
          exact ⟨_, hw.issued _ _ href⟩
      | refused _ hcode _ => exact ⟨rfl, fun h => absurd h hcode⟩
      | @unknown id' hchecks hid' hne' hnone =>
          -- An id that was issued has its session.
          exfalso
          rcases hw.kept _ (hissued (Or.inl ⟨rfl, hchecks⟩) id' hid' hne') with ⟨ref, href⟩
          simp [Server.client_of_lookup href] at hnone

/-- What `GetGst` does for a call that carries an issued id or none. -/
theorem getGst_of_issued {w : World} {srv : Server} {metadata : Metadata} (hw : Tabled w)
    (hsrv : srv.clientMap = w.srv.clientMap)
    (hissued : ∀ id, metadata.lookup keyId = some id → id ≠ [] → Issued w id) :
    (getGst srv metadata).1 = srv ∧
      ((∃ ret, (getGst srv metadata).2 = .error ret) ∨
        ∃ id ref, metadata.lookup keyId = some id ∧ id ≠ [] ∧ (id, ref) ∈ w.issued ∧
          (getGst srv metadata).2 = .ok (some ref)) := by
  cases hid : metadata.lookup keyId with
  | none => exact ⟨by simp [getGst, hid], Or.inl ⟨_, by simp [getGst, hid]; rfl⟩⟩
  | some id =>
      by_cases hne : id = []
      · exact ⟨by simp [getGst, hid, hne], Or.inl ⟨_, by simp [getGst, hid, hne]; rfl⟩⟩
      · rcases hw.kept id (hissued id hid hne) with ⟨ref, href⟩
        have hclient : srv.client id = (srv, some ref) :=
          Server.client_of_lookup (hsrv ▸ href)
        rw [getGst_of_id hid hne, hclient]
        exact ⟨rfl, Or.inr ⟨id, ref, rfl, hne, hw.issued id ref href, rfl⟩⟩

theorem looked_of_issued {w : World} {srv : Server} {metadata : Metadata} {rpc : Rpc}
    (hw : Tabled w) (hsrv : srv.clientMap = w.srv.clientMap)
    (hissued : rpc.usesGst = true → ∀ id, metadata.lookup keyId = some id → id ≠ [] →
      Issued w id) : looked srv metadata rpc = srv := by
  unfold looked
  split
  · rename_i huses
    exact (getGst_of_issued hw hsrv (hissued huses)).1
  · rfl

theorem nonNull_addSession {srv : Server} {id : Bytes} {gst : Gst} (h : NonNull srv) :
    NonNull (srv.addSession id gst) := by
  intro id'
  by_cases heq : id' = id
  · subst heq
    simp [Server.addSession, AList.lookup_insert]
  · simpa [Server.addSession, AList.lookup_insert_ne heq] using h id'

theorem nonNull_of_clientMap {srv srv' : Server} (h : NonNull srv)
    (heq : srv'.clientMap = srv.clientMap) : NonNull srv' := by
  intro id
  rw [heq]
  exact h id

/-- A call without a stray id leaves no null pointer in the table. -/
theorem nonNull_step {auth : Bool} {w w' : World} {c : Call} (hw : Tabled w)
    (hnull : NonNull w.srv) (hstray : ¬ Stray auth w c) (h : step auth w c = some w') :
    NonNull w'.srv := by
  rcases admission_of_not_stray hw hstray with ⟨hadm, hissued⟩
  cases (stepped h).2 with
  | refused _ => exact nonNull_of_clientMap hnull hadm
  | crashed _ _ => exact nonNull_of_clientMap hnull hadm
  | answered hcode hhandle =>
      rcases handle_ok hhandle with ⟨_, hframe⟩ | ⟨_, hexchanged⟩
      · rw [looked_of_issued hw hadm (hissued hcode)] at hframe
        exact nonNull_of_clientMap hnull (hframe.clientMap.trans hadm)
      · cases hexchanged with
        | failed _ => exact nonNull_of_clientMap hnull hadm
        | done gst => exact nonNull_addSession (nonNull_of_clientMap hnull hadm)

theorem lookupSafe_of_not_stray {auth : Bool} {w : World} {c : Call} (hw : Tabled w)
    (hnull : NonNull w.srv) (hstray : ¬ Stray auth w c) : LookupSafe auth w c := by
  rcases admission_of_not_stray hw hstray with ⟨hadm, hissued⟩
  constructor
  · intro hauth
    subst hauth
    exact hadm
  · intro hcode huses
    rw [(getGst_of_issued hw hadm (hissued hcode huses)).1]
  · intro hcode huses p hp
    rcases (getGst_of_issued hw hadm (hissued hcode huses)).2 with ⟨ret, hret⟩ | ⟨id, ref, h⟩
    · rw [hret] at hp
      cases hp
    · rcases h with ⟨hid, _, hmem, hget⟩
      rw [hget] at hp
      cases hp
      exact ⟨id, ref, hid, hmem, rfl⟩
  · intro hcode huses hother
    -- Any other id is missing or empty, and `GetGst` refuses both.
    rcases (getGst_of_issued hw hadm (hissued hcode huses)).2 with ⟨ret, hret⟩ | ⟨id, ref, h⟩
    · rcases handle_notFound huses hret with ⟨failed, hhandle⟩
      exact ⟨_, _, hhandle, rfl⟩
    · rcases h with ⟨hid, hne, hmem, _⟩
      exact absurd (hother id hid) (by simp [hne, Issued]; exact ⟨ref, hmem⟩)
  · intro w' hstep
    exact nonNull_step hw hnull hstray hstep
  · intro hcode hfault
    rcases handle_nullGst hfault with ⟨huses, hget⟩
    rcases (getGst_of_issued hw hadm (hissued hcode huses)).2 with ⟨ret, hret⟩ | ⟨id, ref, h⟩
    · rw [hret] at hget
      cases hget
    · rw [h.2.2.2] at hget
      cases hget
  · intro w' hstep
    exact destroy_of_nonNull (nonNull_step hw hnull hstray hstep)

theorem nonNull_start (info : Option PeerInfo) (storagePath : Bytes) (heap : GstRef → Gst) :
    NonNull (World.start info storagePath heap).srv := by
  intro id h
  cases h

/-- From the start of the server on, every call is safe as long as no call has a stray id looked
up, and the first stray id ends it. -/
theorem lookups_safe_iff (auth : Bool) (info : Option PeerInfo) (storagePath : Bytes)
    (heap : GstRef → Gst) (calls : List Call) (w : World)
    (hexec : Run.exec (step auth) (World.start info storagePath heap) calls = some w) :
    Run.Along (step auth) (LookupSafe auth) (World.start info storagePath heap) calls ↔
      Run.Along (step auth) (fun w c => ¬ Stray auth w c) (World.start info storagePath heap)
        calls := by
  have hkeep : Run.Preserved (step auth) (fun w c => ¬ Stray auth w c)
      (fun w => Tabled w ∧ NonNull w.srv) := by
    intro w c w' hw hstray hstep
    exact ⟨tabled_step hw.1 hstep, nonNull_step hw.1 hw.2 hstray hstep⟩
  refine Run.along_iff_of_invariant hkeep ?_
    ⟨tabled_start info storagePath heap, nonNull_start info storagePath heap⟩ hexec
  intro w c w' hw _
  exact ⟨fun hsafe hstray => not_lookupSafe_of_stray hw.1 hw.2 hstray hsafe,
    lookupSafe_of_not_stray hw.1 hw.2⟩

/-- One call with an id that nobody was given dereferences a null session. -/
theorem stray_configure :
    handle World.empty.srv Env.plain [(keyId, Bytes.ascii "7")]
        (.configure ⟨1, [], [], [], []⟩) = .error .nullGst ∧
      ¬ Run.Along (step false) (LookupSafe false) World.empty
        [⟨.configure ⟨1, [], [], [], []⟩, [(keyId, Bytes.ascii "7")], Env.plain⟩] :=
  ⟨rfl, fun h => h.1.handler rfl rfl⟩

/-- A client that uses the id that it was given. -/
theorem lookups_safe_session :
    ∃ calls w, calls.length = 2 ∧ Run.exec (step false) World.empty calls = some w ∧
      Run.Along (step false) (LookupSafe false) World.empty calls := by
  refine ⟨[⟨.exchangeKey [], [], Env.plain⟩,
    ⟨.configure ⟨1, [], [], [], []⟩, [(keyId, Bytes.ascii "0")], Env.plain⟩], _, rfl, rfl, ?_⟩
  refine (lookups_safe_iff false none [] _ _ _ rfl).2 ?_
  refine Run.along_cons.2 ⟨?_, fun w hw => Run.along_cons.2 ⟨?_, fun _ _ => Run.along_nil _ _⟩⟩
  · rintro ⟨_, id, hid, _⟩
    cases hid
  · rintro ⟨_, id, hid, _, hissued⟩
    cases hw
    cases hid
    exact hissued ⟨0, by decide⟩

end GrpcServer
end Peer
end Beyond
