import Beyond.Peer.ExchangeKey

/-!
# Key exchange with many clients at once

The thread pool of the server runs the `ExchangeKey` handlers of several clients at the same time.
A handler uses the authenticator's output pipe and the counter `nextPeerId` in two separate steps
each: `Decrypt` puts a record into the pipe and `GetResult` takes one out, the counter is read for
the id and incremented after the session is stored.  This module interleaves the handlers step by
step.
-/

namespace Beyond
namespace Peer
namespace GrpcServer
namespace KeyExchange

open Errno

/-! ## Handlers, step by step -/

/-- Where a handler is, with its local variables. -/
inductive Pc
  | idle
  /-- Behind `Decrypt`. -/
  | decrypted
  /-- Behind `GetResult`, with the record that it took. -/
  | opened (cred : Bytes)
  /-- The id is read from `nextPeerId`. -/
  | named (cred : Bytes) (peerId : UInt64)
  /-- The session has its secret and its nonce. -/
  | created (peerId : UInt64) (ref : GstRef)
  /-- The session is in `clientMap`. -/
  | stored (peerId : UInt64) (ref : GstRef)
  | done (ret : Int)
  deriving DecidableEq, Repr

/-- A successful reply. -/
structure Reply (ι : Type*) where
  client : ι
  id : Bytes

/-- The server, the output pipe of the authenticator (a null record stands for a decryption that
failed), the handlers, and a record of the successful replies. -/
structure State (ι : Type*) where
  srv : Server
  output : List (Option Bytes)
  pc : ι → Pc
  replies : List (Reply ι)

/-- The next step of a handler, with what the outside answers. -/
inductive Act
  | decrypt (ret : Int)
  | getResult (received : Bool)
  | readNextPeerId
  | create (success : Bool) (rawNonce : UInt64)
  | store
  | increment

variable {ι : Type*}

def State.goto [DecidableEq ι] (s : State ι) (i : ι) (pc : Pc) : State ι :=
  { s with pc := Function.update s.pc i pc }

/-- One step of handler `i`; `payload i` is what the key that client `i` sent decrypts to.  A
handler that faults has no next step. -/
def step [DecidableEq ι] (debug : Bool) (payload : ι → Option Bytes) (s : State ι) :
    ι × Act → Option (State ι)
  | (i, act) =>
      match s.pc i, act with
      | .idle, .decrypt ret =>
          if ret < 0 then some (s.goto i (.done ret))
          else some ({ s with output := s.output ++ [payload i] }.goto i .decrypted)
      | .decrypted, .getResult received =>
          if received = false then some (s.goto i (.done (-EFAULT)))
          else
            -- The oldest record, whoever has sent the request for it.
            match s.output with
            | [] => none
            | none :: rest => some ({ s with output := rest }.goto i (.done (-EINVAL)))
            | some [] :: rest => some ({ s with output := rest }.goto i (.done (-EFAULT)))
            | some cred :: rest => some ({ s with output := rest }.goto i (.opened cred))
      | .opened cred, .readNextPeerId =>
          -- The id is made here, from a counter that is incremented at the very end.
          match s.srv.info, Credential.dbgPrint debug cred with
          | some info, .ok () =>
              match Credential.uuidMatches info.uuid cred with
              | .error _ => none
              | .ok false => some (s.goto i (.done (-EINVAL)))
              | .ok true => some (s.goto i (.named cred s.srv.nextPeerId))
          | _, _ => none
      | .named cred peerId, .create success rawNonce =>
          if success = false then some (s.goto i (.done (-EFAULT)))
          else
            match Credential.session cred with
            | .error _ => none
            | .ok (secret, nonce) =>
                some ({ s with
                  srv := { s.srv with
                    gst := Function.update s.srv.gst s.srv.count
                      ((({ peerId := Bytes.decimal peerId.toNat, nonce := rawNonce } : Gst).setSecret
                        secret).setNonce nonce)
                    count := s.srv.count + 1 } }.goto i (.created peerId s.srv.count))
      | .created peerId ref, .store =>
          some ({ s with
            srv := { s.srv with
              clientMap := s.srv.clientMap.insert (Bytes.decimal peerId.toNat) (some ref) } }.goto i
                (.stored peerId ref))
      | .stored peerId _, .increment =>
          some ({ s with
            srv := { s.srv with nextPeerId := s.srv.nextPeerId + 1 }
            replies := s.replies ++ [Reply.mk i (Bytes.decimal peerId.toNat)] }.goto i (.done 0))
      | _, _ => none

/-- The server before its first request. -/
def State.start (info : Option PeerInfo) (storagePath : Bytes) (heap : GstRef → Gst) : State ι :=
  { srv := (World.start info storagePath heap).srv
    output := []
    pc := fun _ => .idle
    replies := [] }

/-- A handler that runs alone does what `exchangeKey` does. -/
theorem exec_alone [DecidableEq ι] {debug : Bool} {payload : ι → Option Bytes} {s : State ι} {i : ι}
    {env : Env} {cred key : Bytes} {srv' : Server} {id : Bytes} (hpc : s.pc i = .idle)
    (hout : s.output = [])
    (hpayload : payload i = some cred) (hdebug : env.debug = debug)
    (h : exchangeKey s.srv (env.decrypting cred) key = .ok (srv', ⟨.OK, .exchangeKey 0 id⟩)) :
    ∃ s', Run.exec (step debug payload) s
        [(i, .decrypt 0), (i, .getResult true), (i, .readNextPeerId), (i, .create true env.rawNonce),
          (i, .store), (i, .increment)] = some s' ∧
      s'.srv = srv' ∧ s'.replies = s.replies ++ [⟨i, id⟩] := by
  rcases exchangeKey_done h with ⟨hne, hdbg, hid, info, secret, nonce, hinfo, huuid, hsession, hsrv⟩
  cases cred with
  | nil => exact absurd rfl hne
  | cons b bs =>
      subst hid hsrv hdebug
      simp [Run.exec, step, State.goto, hpc, hout, hpayload, hinfo, hdbg, huuid, hsession,
        Server.addSession, newSession]

/-! ## The property -/

/-- The session at `ref` holds what client `i` put into its request. -/
def OwnSession (payload : ι → Option Bytes) (srv : Server) (i : ι) (ref : GstRef) : Prop :=
  ∃ cred, payload i = some cred ∧
    Credential.session cred = .ok ((srv.gst ref).secretKey, (srv.gst ref).nonce)

/-- What is asked of every state. -/
structure KeysKept (payload : ι → Option Bytes) (s : State ι) : Prop where
  /-- No two clients were given the same id. -/
  distinct : (s.replies.map Reply.id).Nodup
  /-- Under the id of a client is the session with its own secret and nonce. -/
  own : ∀ r ∈ s.replies, ∃ ref, s.srv.clientMap.lookup r.id = some (some ref) ∧
    OwnSession payload s.srv r.client ref

/-- The id and the session of a handler between `Gst::Create` and the increment. -/
def Pc.slot : Pc → Option (UInt64 × GstRef)
  | .created peerId ref => some (peerId, ref)
  | .stored peerId ref => some (peerId, ref)
  | _ => none

/-- When `Gst::Create` succeeds, the handler has its own record, the counter still stands at the id
that it read, no other handler is between its `Gst::Create` and its increment, and the counter has
not wrapped around. -/
def Uncrossed (payload : ι → Option Bytes) (s : State ι) : ι × Act → Prop
  | (i, .create true _) => ∀ cred peerId, s.pc i = .named cred peerId →
      payload i = some cred ∧ peerId = s.srv.nextPeerId ∧ (∀ j, (s.pc j).slot = none) ∧
        s.replies.length < 2 ^ 64
  | _ => True

/-! ## What a step can do -/

/-- The steps, as far as the sessions are concerned. -/
inductive Stepped [DecidableEq ι] (s : State ι) (i : ι) : Act → State ι → Prop
  | quiet {act : Act} {output : List (Option Bytes)} {pc : Pc} (hold : (s.pc i).slot = none)
      (hnew : pc.slot = none) :
      Stepped s i act { s with output := output, pc := Function.update s.pc i pc }
  | created {rawNonce nonce peerId : UInt64} {cred secret : Bytes} {gst : Gst}
      (hpc : s.pc i = .named cred peerId) (hsession : Credential.session cred = .ok (secret, nonce))
      (hsecret : gst.secretKey = secret) (hnonce : gst.nonce = nonce) :
      Stepped s i (.create true rawNonce)
        { s with
          srv := { s.srv with
            gst := Function.update s.srv.gst s.srv.count gst
            count := s.srv.count + 1 }
          pc := Function.update s.pc i (.created peerId s.srv.count) }
  | stored {peerId : UInt64} {ref : GstRef} (hpc : s.pc i = .created peerId ref) :
      Stepped s i .store
        { s with
          srv := { s.srv with
            clientMap := s.srv.clientMap.insert (Bytes.decimal peerId.toNat) (some ref) }
          pc := Function.update s.pc i (.stored peerId ref) }
  | incremented {peerId : UInt64} {ref : GstRef} (hpc : s.pc i = .stored peerId ref) :
      Stepped s i .increment
        { s with
          srv := { s.srv with nextPeerId := s.srv.nextPeerId + 1 }
          replies := s.replies ++ [Reply.mk i (Bytes.decimal peerId.toNat)]
          pc := Function.update s.pc i (.done 0) }

theorem stepped [DecidableEq ι] {debug : Bool} {payload : ι → Option Bytes} {s s' : State ι}
    {i : ι} {act : Act} (h : step debug payload s (i, act) = some s') : Stepped s i act s' := by
  unfold step at h
  dsimp only at h
  split at h
  · -- Up to the id, a handler does nothing to the server.
    rename_i ret hpc
    split at h <;> cases h <;> exact .quiet (by rw [hpc]; rfl) rfl
  · rename_i received hpc
    split at h
    · cases h
      exact .quiet (by rw [hpc]; rfl) rfl
    · split at h
      · cases h
      · cases h
        exact .quiet (by rw [hpc]; rfl) rfl
      · cases h
        exact .quiet (by rw [hpc]; rfl) rfl
      · cases h
        exact .quiet (by rw [hpc]; rfl) rfl
  · rename_i cred hpc
    -- A fault has no next step, and a refused credential ends the handler.
    split at h
    · split at h
      · cases h
      · cases h
        exact .quiet (by rw [hpc]; rfl) rfl
      · cases h
        exact .quiet (by rw [hpc]; rfl) rfl
    · cases h
  · rename_i cred peerId success rawNonce hpc
    split at h
    · cases h
      exact .quiet (by rw [hpc]; rfl) rfl
    · rename_i hsuccess
      split at h
      · cases h
      · -- The session object gets its secret and its nonce, whatever it held before.
        rename_i secret nonce hsession
        cases h
        rw [Bool.not_eq_false] at hsuccess
        subst hsuccess
        exact .created hpc hsession rfl rfl
  · rename_i peerId ref hpc
    cases h
    exact .stored hpc
  · rename_i peerId ref hpc
    cases h
    exact .incremented hpc
  · cases h

/-! ## The invariant -/

/-- The id that stands for the value `n` of the counter. -/
def idOf (n : UInt64) : Bytes := Bytes.decimal n.toNat

theorem idOf_injective : Function.Injective idOf := fun _ _ h =>
  UInt64.toNat_inj.1 (Bytes.decimal_injective h)

structure Inv (payload : ι → Option Bytes) (s : State ι) : Prop where
  /-- The ids that were given are the values of the counter so far. -/
  ids : s.replies.map Reply.id = (Counter.values 0 s.replies.length).map idOf
  counter : s.srv.nextPeerId = Counter.after 0 s.replies.length
  bounded : s.replies.length ≤ 2 ^ 64
  own : ∀ r ∈ s.replies, ∃ ref, s.srv.clientMap.lookup r.id = some (some ref) ∧
    ref < s.srv.count ∧ OwnSession payload s.srv r.client ref
  /-- One handler at most is between `Gst::Create` and the increment, and it works on the next id. -/
  single : ∀ i j, (s.pc i).slot ≠ none → (s.pc j).slot ≠ none → i = j
  slot : ∀ i peerId ref, (s.pc i).slot = some (peerId, ref) →
    peerId = s.srv.nextPeerId ∧ s.replies.length < 2 ^ 64 ∧ ref < s.srv.count ∧
      OwnSession payload s.srv i ref
  stored : ∀ i peerId ref, s.pc i = .stored peerId ref →
    s.srv.clientMap.lookup (idOf peerId) = some (some ref)

theorem inv_start (payload : ι → Option Bytes) (info : Option PeerInfo) (storagePath : Bytes)
    (heap : GstRef → Gst) : Inv payload (State.start info storagePath heap) := by
  refine ⟨rfl, rfl, Nat.zero_le _, ?_, ?_, ?_, ?_⟩
  · intro r hr
    cases hr
  · intro i j hi
    exact absurd rfl hi
  · intro i peerId ref h
    cases h
  · intro i peerId ref h
    cases h

theorem Inv.keysKept {payload : ι → Option Bytes} {s : State ι} (h : Inv payload s) :
    KeysKept payload s := by
  constructor
  · rw [h.ids]
    exact (Counter.nodup_values 0 h.bounded).map idOf_injective
  · intro r hr
    rcases h.own r hr with ⟨ref, hlookup, _, hown⟩
    exact ⟨ref, hlookup, hown⟩

/-- An id that was given is not the next one. -/
theorem Inv.id_ne {payload : ι → Option Bytes} {s : State ι} (h : Inv payload s)
    (hlt : s.replies.length < 2 ^ 64) {r : Reply ι} (hr : r ∈ s.replies) :
    r.id ≠ idOf s.srv.nextPeerId := by
  have hmem : r.id ∈ (Counter.values 0 s.replies.length).map idOf := by
    rw [← h.ids]
    exact List.mem_map_of_mem hr
  rw [h.counter]
  intro heq
  rw [heq, List.mem_map] at hmem
  rcases hmem with ⟨n, hn, hid⟩
  rw [Counter.values, List.mem_map] at hn
  rcases hn with ⟨k, hk, rfl⟩
  rw [List.mem_range] at hk
  exact Counter.after_ne hk (by omega) (idOf_injective hid)

theorem OwnSession.congr {payload : ι → Option Bytes} {srv srv' : Server} {i : ι} {ref : GstRef}
    (h : OwnSession payload srv i ref) (hgst : srv'.gst ref = srv.gst ref) :
    OwnSession payload srv' i ref := by
  rcases h with ⟨cred, hcred, hsession⟩
  exact ⟨cred, hcred, by rw [hgst, hsession]⟩

/-! ## Steps -/

variable [DecidableEq ι]

theorem slot_update_of_eq {f : ι → Pc} {i : ι} {pc : Pc} (hpc : pc.slot = (f i).slot) (j : ι) :
    (Function.update f i pc j).slot = (f j).slot := by
  by_cases hj : j = i
  · subst hj
    simpa using hpc
  · rw [Function.update_of_ne hj]

section Steps

variable {payload : ι → Option Bytes} {s : State ι} {i : ι}

theorem inv_quiet (hs : Inv payload s) {output : List (Option Bytes)} {pc : Pc}
    (hold : (s.pc i).slot = none) (hnew : pc.slot = none) :
    Inv payload { s with output := output, pc := Function.update s.pc i pc } := by
  have hslot : ∀ j, (Function.update s.pc i pc j).slot = (s.pc j).slot :=
    slot_update_of_eq (hnew.trans hold.symm)
  refine ⟨hs.ids, hs.counter, hs.bounded, hs.own, ?_, ?_, ?_⟩
  · intro j k hj hk
    exact hs.single j k (hslot j ▸ hj) (hslot k ▸ hk)
  · intro j peerId ref h
    exact hs.slot j peerId ref (hslot j ▸ h)
  · intro j peerId ref h
    dsimp only at h
    by_cases hj : j = i
    · subst hj
      rw [Function.update_self] at h
      rw [h] at hnew
      cases hnew
    · exact hs.stored j peerId ref (by rwa [Function.update_of_ne hj] at h)

theorem inv_created (hs : Inv payload s) {peerId : UInt64} {cred : Bytes} {gst : Gst}
    (hcred : payload i = some cred)
    (hsession : Credential.session cred = .ok (gst.secretKey, gst.nonce))
    (hpeerId : peerId = s.srv.nextPeerId) (hfree : ∀ j, (s.pc j).slot = none)
    (hlt : s.replies.length < 2 ^ 64) :
    Inv payload { s with
      srv := { s.srv with
        gst := Function.update s.srv.gst s.srv.count gst
        count := s.srv.count + 1 }
      pc := Function.update s.pc i (.created peerId s.srv.count) } := by
  have hold : ∀ ref, ref < s.srv.count →
      Function.update s.srv.gst s.srv.count gst ref = s.srv.gst ref := fun ref href =>
    Function.update_of_ne (Nat.ne_of_lt href) _ _
  have honly : ∀ j, j ≠ i → (Function.update s.pc i (.created peerId s.srv.count) j).slot = none := by
    intro j hj
    rw [Function.update_of_ne hj]
    exact hfree j
  -- The new object is at a place that no session has.
  refine ⟨hs.ids, hs.counter, hs.bounded, ?_, ?_, ?_, ?_⟩
  · intro r hr
    rcases hs.own r hr with ⟨ref, hlookup, href, hown⟩
    exact ⟨ref, hlookup, Nat.lt_succ_of_lt href, hown.congr (hold ref href)⟩
  · intro j k hj hk
    have hji : j = i := by
      by_contra hne
      exact hj (honly j hne)
    have hki : k = i := by
      by_contra hne
      exact hk (honly k hne)
    rw [hji, hki]
  · intro j peerId' ref h
    dsimp only at h
    by_cases hj : j = i
    · subst hj
      rw [Function.update_self] at h
      cases h
      exact ⟨hpeerId, hlt, Nat.lt_succ_self _, cred, hcred, by simpa using hsession⟩
    · rw [honly j hj] at h
      cases h
  · intro j peerId' ref h
    dsimp only at h
    by_cases hj : j = i
    · subst hj
      rw [Function.update_self] at h
      cases h
    · have hnone := honly j hj
      rw [h] at hnone
      cases hnone

theorem inv_stored (hs : Inv payload s) {peerId : UInt64} {ref : GstRef}
    (hpc : s.pc i = .created peerId ref) :
    Inv payload { s with
      srv := { s.srv with
        clientMap := s.srv.clientMap.insert (Bytes.decimal peerId.toNat) (some ref) }
      pc := Function.update s.pc i (.stored peerId ref) } := by
  rcases hs.slot i peerId ref (by rw [hpc]; rfl) with ⟨hpeerId, hlt, _, _⟩
  have hslot : ∀ j, (Function.update s.pc i (.stored peerId ref) j).slot = (s.pc j).slot :=
    slot_update_of_eq (by rw [hpc]; rfl)
  refine ⟨hs.ids, hs.counter, hs.bounded, ?_, ?_, ?_, ?_⟩
  · intro r hr
    rcases hs.own r hr with ⟨ref', hlookup, href, hown⟩
    -- The entries of the ids that were given before stay as they are.
    have hne : r.id ≠ Bytes.decimal peerId.toNat := hpeerId ▸ hs.id_ne hlt hr
    exact ⟨ref', (AList.lookup_insert_ne hne).trans hlookup, href, hown⟩
  · intro j k hj hk
    exact hs.single j k (hslot j ▸ hj) (hslot k ▸ hk)
  · intro j peerId' ref' h
    exact hs.slot j peerId' ref' (hslot j ▸ h)
  · intro j peerId' ref' h
    dsimp only at h
    by_cases hj : j = i
    · subst hj
      rw [Function.update_self] at h
      cases h
      exact AList.lookup_insert _
    · rw [Function.update_of_ne hj] at h
      refine absurd (hs.single j i ?_ ?_) hj
      · rw [h]
        exact Option.some_ne_none _
      · rw [hpc]
        exact Option.some_ne_none _

theorem inv_incremented (hs : Inv payload s) {peerId : UInt64} {ref : GstRef}
    (hpc : s.pc i = .stored peerId ref) :
    Inv payload { s with
      srv := { s.srv with nextPeerId := s.srv.nextPeerId + 1 }
      replies := s.replies ++ [Reply.mk i (Bytes.decimal peerId.toNat)]
      pc := Function.update s.pc i (.done 0) } := by
  rcases hs.slot i peerId ref (by rw [hpc]; rfl) with ⟨hpeerId, hlt, href, hown⟩
  have hlookup := hs.stored i peerId ref hpc
  have hfree : ∀ j, (Function.update s.pc i (.done 0) j).slot = none := by
    intro j
    by_cases hj : j = i
    · subst hj
      rw [Function.update_self]
      rfl
    · rw [Function.update_of_ne hj]
      by_contra hsome
      -- No other handler is between `Gst::Create` and the increment.
      refine hj (hs.single j i hsome ?_)
      rw [hpc]
      exact Option.some_ne_none _
  -- The reply has the id that the counter stood at, and the counter goes on by one.
  refine ⟨?_, ?_, ?_, ?_, ?_, ?_, ?_⟩
  · have hnext : Bytes.decimal peerId.toNat = idOf (Counter.after 0 s.replies.length) := by
      rw [hpeerId, hs.counter]
      rfl
    simp only [List.map_append, List.length_append, List.length_singleton, Counter.values_succ,
      List.map_singleton, hs.ids, hnext]
  · simp only [List.length_append, List.length_singleton, Counter.after_succ, hs.counter]
  · rw [List.length_append, List.length_singleton]
    exact hlt
  · intro r hr
    rw [List.mem_append] at hr
    rcases hr with hr | hr
    · exact hs.own r hr
    · rw [List.mem_singleton] at hr
      subst hr
      exact ⟨ref, hlookup, href, hown⟩
  · intro j _ hj
    exact absurd (hfree j) hj
  · intro j peerId' ref' h
    rw [hfree j] at h
    cases h
  · intro j peerId' ref' h
    dsimp only at h
    have hnone := hfree j
    rw [h] at hnone
    cases hnone

end Steps

theorem inv_step {debug : Bool} {payload : ι → Option Bytes} {s s' : State ι} {a : ι × Act}
    (hs : Inv payload s) (hcross : Uncrossed payload s a) (h : step debug payload s a = some s') :
    Inv payload s' := by
  rcases a with ⟨i, act⟩
  cases stepped h with
  | quiet hold hnew => exact inv_quiet hs hold hnew
  | created hpc hsession hsecret hnonce =>
      rcases hcross _ _ hpc with ⟨hcred, hpeerId, hfree, hlt⟩
      refine inv_created hs hcred ?_ hpeerId hfree hlt
      rw [hsession, hsecret, hnonce]
  | stored hpc => exact inv_stored hs hpc
  | incremented hpc => exact inv_incremented hs hpc

/-- As long as the handlers do not cross, every client gets its own id and its own session, in every
state of every run. -/
theorem keys_kept (debug : Bool) (payload : ι → Option Bytes) (info : Option PeerInfo)
    (storagePath : Bytes) (heap : GstRef → Gst) (as : List (ι × Act)) (s : State ι)
    (hcross : Run.Along (step debug payload) (Uncrossed payload) (State.start info storagePath heap)
      as)
    (hexec : Run.exec (step debug payload) (State.start info storagePath heap) as = some s) :
    KeysKept payload s :=
  (Run.exec_invariant (fun _ _ _ hs hG h => inv_step hs hG h)
    (inv_start payload info storagePath heap) hcross hexec).keysKept

/-! ## Two clients that cross -/

def twoClientsInfo : PeerInfo := ⟨.twoBytes, [], 0, 0⟩

def twoClientsPayload (b : Bool) : Option Bytes :=
  some (Credential.encode twoClientsInfo.uuid (Bytes.ascii (if b then "first" else "second")) 7
    (Vector.replicate 7 0))

def twoClients : State Bool :=
  State.start (some twoClientsInfo) [] fun _ => { peerId := [], nonce := 0 }

/-- The second client's handler takes the record of the first out of the pipe. -/
theorem crossed_records :
    ∃ s, Run.exec (step false twoClientsPayload) twoClients
        [(true, .decrypt 0), (false, .decrypt 0), (false, .getResult true), (false, .readNextPeerId),
          (false, .create true 0), (false, .store), (false, .increment)] = some s ∧
      ¬ KeysKept twoClientsPayload s := by
  refine ⟨_, rfl, fun h => ?_⟩
  rcases h.own ⟨false, Bytes.ascii "0"⟩ (List.mem_singleton.2 rfl) with
    ⟨ref, hlookup, cred, hcred, hsession⟩
  cases hcred
  have href : some (some 0) = some (some ref) := hlookup
  cases href
  revert hsession
  decide

/-- Both requests are decrypted, and the first client takes its own record. -/
def inTurn : List (Bool × Act) :=
  [(true, .decrypt 0), (false, .decrypt 0), (true, .getResult true), (true, .readNextPeerId)] ++
    [(true, .create true 0), (true, .store), (true, .increment)]

theorem keys_kept_inTurn :
    ∃ s, Run.exec (step false twoClientsPayload) twoClients inTurn = some s ∧
      s.replies.length = 1 ∧ KeysKept twoClientsPayload s := by
  refine ⟨_, rfl, rfl,
    keys_kept false twoClientsPayload (some twoClientsInfo) [] _ inTurn _ ?_ rfl⟩
  refine Run.along_append.2 ⟨Run.Along.of_forall (by simp [Uncrossed]), fun s hs => ?_⟩
  refine Run.along_cons.2 ⟨?_, fun _ _ => Run.Along.of_forall (by simp [Uncrossed])⟩
  intro cred peerId hpc
  cases hs
  cases hpc
  exact ⟨rfl, rfl, by decide, by decide⟩

end KeyExchange
end GrpcServer
end Peer
end Beyond
