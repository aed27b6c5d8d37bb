import Beyond.Peer.Auth

/-!
# The nonce on both sides

The client keeps its own copy of the session's nonce.  `Peer::GrpcClient::Auth::GetMetadata` puts it
into the metadata of every call and increments it; `Peer::GrpcServer::Auth::Process` compares the
text with the nonce of the session and increments that.  Neither side holds a lock: reading and
writing back are two steps on both sides, and the client calls from more than one thread.
-/

namespace Beyond
namespace Peer

/-! ## `GetMetadata` -/

namespace GrpcClient

/-- What `GetMetadata` inserts into the metadata, and the nonce that it leaves behind. -/
def getMetadata (peerId : Bytes) (nonce : UInt64) (methodName : Bytes) :
    GrpcServer.Metadata × UInt64 :=
  if GrpcServer.exempt methodName then ([(GrpcServer.keyMethodName, methodName)], nonce)
  else
    ([(GrpcServer.keyMethodName, methodName),
        (GrpcServer.keyNonce, Bytes.decimal nonce.toNat), (GrpcServer.keyId, peerId)], nonce + 1)

theorem lookup_getMetadata (peerId : Bytes) (nonce : UInt64) {methodName : Bytes}
    (hexempt : GrpcServer.exempt methodName = false) :
    (getMetadata peerId nonce methodName).1.lookup GrpcServer.keyMethodName = some methodName ∧
      (getMetadata peerId nonce methodName).1.lookup GrpcServer.keyNonce =
        some (Bytes.decimal nonce.toNat) ∧
      (getMetadata peerId nonce methodName).1.lookup GrpcServer.keyId = some peerId := by
  rw [getMetadata, hexempt]
  exact ⟨rfl, rfl, rfl⟩

/-- The server lets a call of the client through exactly when both nonces are equal, and both sides
have the same next nonce then. -/
theorem process_getMetadata {srv : GrpcServer.Server} {peerId methodName : Bytes}
    {ref : GrpcServer.GstRef} {nonce : UInt64} (href : srv.clientMap.lookup peerId = some (some ref))
    (hid : peerId ≠ []) (hname : methodName ≠ []) (hexempt : GrpcServer.exempt methodName = false) :
    GrpcServer.process srv (getMetadata peerId nonce methodName).1 =
      if nonce = (srv.gst ref).nonce then
        (srv.setGst ref ((srv.gst ref).setNonce (getMetadata peerId nonce methodName).2), .accepted)
      else (srv, ⟨.unauthenticated, "Unauthenticated"⟩) := by
  rcases lookup_getMetadata peerId nonce hexempt with ⟨hm, hn, hi⟩
  have hnext : (getMetadata peerId nonce methodName).2 = nonce + 1 := by
    simp [getMetadata, hexempt]
  by_cases heq : nonce = (srv.gst ref).nonce
  · subst heq
    simp [GrpcServer.process, hm, hn, hi, hexempt, hname, hid, hnext,
      GrpcServer.Server.client_of_lookup href, Bytes.decimal_ne_nil, GrpcServer.Gst.getNonce]
  · have htext : Bytes.decimal (srv.gst ref).nonce.toNat ≠ Bytes.decimal nonce.toNat := by
      intro h
      exact heq (UInt64.toNat_inj.1 (Bytes.decimal_injective h.symm))
    simp [GrpcServer.process, hm, hn, hi, hexempt, hname, hid, heq,
      GrpcServer.Server.client_of_lookup href, Bytes.decimal_ne_nil, GrpcServer.Gst.getNonce, htext]

/-! ## Calls of one session, step by step -/

namespace NonceSync

/-- Where the call of a thread is. -/
inductive Pc
  | idle
  /-- `GetMetadata` has read the nonce. -/
  | read (nonce : UInt64)
  /-- The metadata is complete, and the call is on its way with this text. -/
  | inFlight (text : Bytes)
  /-- `Process` has found the text equal to the nonce that it read. -/
  | accepted (nonce : UInt64)
  deriving DecidableEq, Repr

/-- Both nonces and the threads.  `order` has the calls that have taken their nonce and are not done
yet, first taken first; `refused` has the threads whose calls the server refused. -/
structure State (ι : Type*) where
  client : UInt64
  server : UInt64
  pc : ι → Pc
  order : List ι
  refused : List ι

inductive Act
  /-- `GetNonce` in `GetMetadata`. -/
  | readNonce
  /-- `SetNonce(++nonce)` in `GetMetadata`. -/
  | setNonce
  /-- The call is lost before it reaches the server. -/
  | lose
  /-- `Process` reads the nonce of the session and compares it. -/
  | arrive
  /-- `SetNonce(++nonce)` in `Process`. -/
  | advance
  deriving DecidableEq, Repr

variable {ι : Type*}

def State.goto [DecidableEq ι] (s : State ι) (i : ι) (pc : Pc) : State ι :=
  { s with pc := Function.update s.pc i pc }

/-- The call of thread `i` is over. -/
def State.finish [DecidableEq ι] (s : State ι) (i : ι) : State ι :=
  { s with pc := Function.update s.pc i .idle, order := s.order.erase i }

def step [DecidableEq ι] (s : State ι) : ι × Act → Option (State ι)
  | (i, act) =>
      match s.pc i, act with
      | .idle, .readNonce => some (s.goto i (.read s.client))
      | .read nonce, .setNonce =>
          -- The client's nonce may have moved on since it was read.
          some ({ s with client := nonce + 1, order := s.order ++ [i] }.goto i
            (.inFlight (Bytes.decimal nonce.toNat)))
      | .inFlight _, .lose => some (s.finish i)
      | .inFlight text, .arrive =>
          -- A refused call leaves the server's nonce as it was, and the client's one ahead.
          if Bytes.decimal s.server.toNat = text then some (s.goto i (.accepted s.server))
          else some ({ s with refused := s.refused ++ [i] }.finish i)
      | .accepted nonce, .advance => some ({ s with server := nonce + 1 }.finish i)
      | _, _ => none

/-- The session behind `ExchangeKey`, which gave both sides the same nonce. -/
def State.start (nonce : UInt64) : State ι :=
  { client := nonce
    server := nonce
    pc := fun _ => .idle
    order := []
    refused := [] }

/-- A call that runs alone does on both sides what `getMetadata` and `process` do. -/
theorem exec_alone [DecidableEq ι] {s : State ι} {i : ι} {srv : GrpcServer.Server}
    {peerId methodName : Bytes} {ref : GrpcServer.GstRef}
    (href : srv.clientMap.lookup peerId = some (some ref)) (hid : peerId ≠ [])
    (hname : methodName ≠ []) (hexempt : GrpcServer.exempt methodName = false)
    (hserver : (srv.gst ref).nonce = s.server) (hclient : s.client = s.server)
    (hpc : s.pc i = .idle) :
    ∃ s', Run.exec step s [(i, .readNonce), (i, .setNonce), (i, .arrive), (i, .advance)] = some s' ∧
      s'.client = (getMetadata peerId s.client methodName).2 ∧
      s'.server =
        ((GrpcServer.process srv (getMetadata peerId s.client methodName).1).1.gst ref).nonce := by
  have hprocess := @process_getMetadata _ _ _ _ s.client href hid hname hexempt
  rw [if_pos (hclient.trans hserver.symm)] at hprocess
  have hnext : (getMetadata peerId s.client methodName).2 = s.client + 1 := by
    simp [getMetadata, hexempt]
  rw [hprocess, hnext]
  simp [Run.exec, step, State.goto, State.finish, hpc, hclient]

/-- The thread has taken a nonce for a call that is not done yet. -/
def Pc.busy : Pc → Bool
  | .inFlight _ => true
  | .accepted _ => true
  | _ => false

/-- What is asked of every state. -/
structure InSync (s : State ι) : Prop where
  /-- No call that reached the server was refused. -/
  allAccepted : s.refused = []
  /-- While no call is in flight, both nonces are equal. -/
  equal : (∀ i, (s.pc i).busy = false) → s.client = s.server

/-- The client writes back over the nonce that it read, no call is lost, and the server works on the
call whose nonce was taken first. -/
def InTurn (s : State ι) : ι × Act → Prop
  | (i, .setNonce) => s.pc i = .read s.client
  | (_, .lose) => False
  | (i, .arrive) => s.order.head? = some i
  | _ => True

instance [DecidableEq ι] (s : State ι) : (a : ι × Act) → Decidable (InTurn s a)
  | (i, .setNonce) => inferInstanceAs (Decidable (s.pc i = .read s.client))
  | (_, .lose) => inferInstanceAs (Decidable False)
  | (i, .arrive) => inferInstanceAs (Decidable (s.order.head? = some i))
  | (_, .readNonce) => inferInstanceAs (Decidable True)
  | (_, .advance) => inferInstanceAs (Decidable True)

/-! ## The invariant -/

/-- The calls in flight carry consecutive nonces, beginning with the nonce of the server. -/
structure Inv (s : State ι) : Prop where
  refused : s.refused = []
  nodup : s.order.Nodup
  client : s.client = Counter.after s.server s.order.length
  outside : ∀ i, i ∉ s.order → (s.pc i).busy = false
  flight : ∀ k i, s.order[k]? = some i →
    s.pc i = .inFlight (Bytes.decimal (Counter.after s.server k).toNat) ∨
      k = 0 ∧ s.pc i = .accepted s.server

theorem inv_start (nonce : UInt64) : Inv (State.start nonce : State ι) := by
  refine ⟨rfl, List.nodup_nil, (Counter.after_zero nonce).symm, fun _ _ => rfl, ?_⟩
  intro k i h
  cases h

theorem Inv.busy {s : State ι} (h : Inv s) {i : ι} (hi : i ∈ s.order) : (s.pc i).busy = true := by
  rcases List.mem_iff_getElem?.1 hi with ⟨k, hk⟩
  rcases h.flight k i hk with hpc | ⟨_, hpc⟩
  · rw [hpc]
    rfl
  · rw [hpc]
    rfl

theorem Inv.not_mem {s : State ι} (h : Inv s) {i : ι} (hi : (s.pc i).busy = false) :
    i ∉ s.order := by
  intro hmem
  rw [h.busy hmem] at hi
  cases hi

theorem Inv.inSync {s : State ι} (h : Inv s) : InSync s := by
  refine ⟨h.refused, fun hidle => ?_⟩
  have hnil : s.order = [] := List.eq_nil_iff_forall_not_mem.2 fun i => h.not_mem (hidle i)
  rw [h.client, hnil]
  exact Counter.after_zero s.server

theorem Inv.head {s : State ι} (hs : Inv s) {i : ι} (hi : s.order.head? = some i) :
    s.pc i = .inFlight (Bytes.decimal s.server.toNat) ∨ s.pc i = .accepted s.server := by
  have hzero : s.order[0]? = some i := by rw [← List.head?_eq_getElem?, hi]
  rcases hs.flight 0 i hzero with hpc | ⟨_, hpc⟩
  · left
    rw [hpc, Counter.after_zero]
  · exact Or.inr hpc

/-! ## Steps -/

variable [DecidableEq ι]

/-- A thread that has no call in flight moves on without one. -/
theorem inv_goto {s : State ι} (hs : Inv s) {i : ι} {pc : Pc} (hold : (s.pc i).busy = false)
    (hnew : pc.busy = false) : Inv (s.goto i pc) := by
  have hi := hs.not_mem hold
  refine ⟨hs.refused, hs.nodup, hs.client, ?_, ?_⟩
  · intro j hj
    by_cases hji : j = i
    · subst hji
      simpa [State.goto] using hnew
    · simpa [State.goto, Function.update_of_ne hji] using hs.outside j hj
  · intro k j hk
    have hji : j ≠ i := fun h => hi (h ▸ List.mem_of_getElem? hk)
    simpa [State.goto, Function.update_of_ne hji] using hs.flight k j hk

/-- A call that takes the nonce of the client goes to the end of the order. -/
theorem inv_setNonce {s : State ι} (hs : Inv s) {i : ι} (hpc : s.pc i = .read s.client) :
    Inv ({ s with client := s.client + 1, order := s.order ++ [i] }.goto i
      (.inFlight (Bytes.decimal s.client.toNat))) := by
  have hi : i ∉ s.order := hs.not_mem (by rw [hpc]; rfl)
  refine ⟨hs.refused, ?_, ?_, ?_, ?_⟩
  · exact List.nodup_append.2 ⟨hs.nodup, List.nodup_singleton i, by
      intro a ha b hb hab
      rw [List.mem_singleton] at hb
      exact hi (hb ▸ hab ▸ ha)⟩
  · simp only [State.goto, List.length_append, List.length_singleton, Counter.after_succ, hs.client]
  · intro j hj
    simp only [State.goto, List.mem_append, List.mem_singleton, not_or] at hj
    simpa [State.goto, Function.update_of_ne hj.2] using hs.outside j hj.1
  · intro k j hk
    simp only [State.goto] at hk ⊢
    by_cases hlt : k < s.order.length
    · rw [List.getElem?_append_left hlt] at hk
      have hji : j ≠ i := fun h => hi (h ▸ List.mem_of_getElem? hk)
      simpa [Function.update_of_ne hji] using hs.flight k j hk
    · -- The new call is the last one, and its nonce is the client's.
      have hlast : k = s.order.length ∧ i = j := by
        rw [List.getElem?_append_right (Nat.not_lt.1 hlt), List.getElem?_singleton] at hk
        split at hk
        · rename_i hzero
          exact ⟨by omega, Option.some.inj hk⟩
        · cases hk
      rcases hlast with ⟨rfl, rfl⟩
      left
      rw [Function.update_self, hs.client]

/-- The first call in order is found to carry the server's nonce. -/
theorem inv_accepted {s : State ι} (hs : Inv s) {i : ι} (hi : s.order.head? = some i) :
    Inv (s.goto i (.accepted s.server)) := by
  have hmem : i ∈ s.order := List.mem_of_head? hi
  refine ⟨hs.refused, hs.nodup, hs.client, ?_, ?_⟩
  · intro j hj
    have hji : j ≠ i := fun h => hj (h ▸ hmem)
    simpa [State.goto, Function.update_of_ne hji] using hs.outside j hj
  · intro k j hk
    by_cases hji : j = i
    · subst hji
      -- No thread is in the order twice, so this is the first place.
      have hzero : s.order[0]? = some j := by rw [← List.head?_eq_getElem?, hi]
      have hlt : k < s.order.length := (List.getElem?_eq_some_iff.1 hk).1
      have hk0 : k = 0 := (List.getElem?_inj hlt hs.nodup).1 (hk.trans hzero.symm)
      right
      exact ⟨hk0, by simp [State.goto]⟩
    · simpa [State.goto, Function.update_of_ne hji] using hs.flight k j hk

/-- The call that the server works on is the first in order; behind it the next one is due. -/
theorem inv_advance {s : State ι} (hs : Inv s) {i : ι} {nonce : UInt64}
    (hpc : s.pc i = .accepted nonce) : Inv ({ s with server := nonce + 1 }.finish i) := by
  have hmem : i ∈ s.order := by
    by_contra hnot
    have hbusy := hs.outside i hnot
    rw [hpc] at hbusy
    cases hbusy
  rcases List.mem_iff_getElem?.1 hmem with ⟨k, hk⟩
  -- Only the first in order can be behind the comparison.
  have hfirst : k = 0 ∧ nonce = s.server := by
    rcases hs.flight k i hk with h | ⟨hk0, h⟩
    · rw [hpc] at h
      cases h
    · rw [hpc] at h
      cases h
      exact ⟨hk0, rfl⟩
  rcases hfirst with ⟨rfl, rfl⟩
  cases horder : s.order with
  | nil => simp [horder] at hmem
  | cons i' rest =>
      have hii : i' = i := by simpa [horder] using hk
      subst hii
      have hnodup := hs.nodup
      have hclient := hs.client
      rw [horder] at hnodup hclient
      have hnot : i' ∉ rest := (List.nodup_cons.1 hnodup).1
      have herase : (i' :: rest).erase i' = rest := List.erase_cons_head i' rest
      refine ⟨hs.refused, ?_, ?_, ?_, ?_⟩
      · simpa [State.finish, horder] using (List.nodup_cons.1 hnodup).2
      · simpa [State.finish, horder, Counter.after_succ_left] using hclient
      · intro j hj
        by_cases hji : j = i'
        · subst hji
          simp [State.finish, Pc.busy]
        · have hout : j ∉ s.order := by
            simpa [State.finish, horder, hji] using hj
          simpa [State.finish, Function.update_of_ne hji] using hs.outside j hout
      · -- The others move up by one place, and the server's nonce by one value.
        intro k j hk'
        have hrest : rest[k]? = some j := by simpa [State.finish, horder] using hk'
        have hji : j ≠ i' := fun h => hnot (h ▸ List.mem_of_getElem? hrest)
        have hflight := hs.flight (k + 1) j (by rw [horder, List.getElem?_cons_succ, hrest])
        left
        simpa [State.finish, Function.update_of_ne hji, Counter.after_succ_left] using hflight

theorem inv_step {s s' : State ι} {a : ι × Act} (hs : Inv s) (hturn : InTurn s a)
    (h : step s a = some s') : Inv s' := by
  rcases a with ⟨i, act⟩
  unfold step at h
  dsimp only at h
  split at h
  · rename_i hpc
    cases h
    exact inv_goto hs (by rw [hpc]; rfl) rfl
  · rename_i nonce hpc
    -- Nobody has written the client's nonce since this thread has read it.
    have hread : Pc.read nonce = .read s.client := hpc.symm.trans hturn
    cases hread
    cases h
    exact inv_setNonce hs hpc
  · exact absurd hturn id
  · rename_i text hpc
    -- The first call in order carries the nonce of the server, so it is not refused.
    have htext : Bytes.decimal s.server.toNat = text := by
      rcases hs.head hturn with hhead | hhead
      · rw [hpc] at hhead
        cases hhead
        rfl
      · rw [hpc] at hhead
        cases hhead
    rw [if_pos htext] at h
    cases h
    exact inv_accepted hs hturn
  · rename_i nonce hpc
    cases h
    exact inv_advance hs hpc
  · cases h

/-- As long as the calls are taken and checked in turn and none is lost, the two sides stay in step,
in every state of every run. -/
theorem nonces_in_sync (nonce : UInt64) (as : List (ι × Act)) (s : State ι)
    (hturn : Run.Along step InTurn (State.start nonce) as)
    (hexec : Run.exec step (State.start nonce) as = some s) : InSync s :=
  (Run.exec_invariant (fun _ _ _ hs hG h => inv_step hs hG h) (inv_start nonce) hturn hexec).inSync

/-! ## The two threads of a client -/

inductive Thread
  | application
  | sink
  deriving DecidableEq, Repr

/-- Both threads read the nonce before either writes it back; the second call to arrive is
refused. -/
theorem racing_threads :
    ∃ s, Run.exec step (State.start 7)
        [(.application, .readNonce), (.sink, .readNonce), (.application, .setNonce),
          (.sink, .setNonce), (.application, .arrive), (.application, .advance),
          (Thread.sink, .arrive)] = some s ∧ ¬ InSync s :=
  ⟨_, rfl, fun h => by cases h.allAccepted⟩

/-- Two calls that overlap, with their nonces taken and checked in turn. -/
def overlapping : List (Thread × Act) :=
  [(.application, .readNonce), (.application, .setNonce), (.sink, .readNonce), (.sink, .setNonce),
    (.application, .arrive), (.application, .advance), (.sink, .arrive), (.sink, .advance)]

theorem overlapping_in_sync :
    ∃ s, Run.exec step (State.start 7) overlapping = some s ∧ InSync s :=
  ⟨_, rfl, nonces_in_sync 7 overlapping _ (by decide) rfl⟩

end NonceSync
end GrpcClient
end Peer
end Beyond
