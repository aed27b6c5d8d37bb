import Beyond.Peer.SessionTable

/-!
# Nonces and replay

Behind `Auth::Process` the nonce of a session is a counter: the texts that were accepted for the
session are the decimal texts of its consecutive values, so none of them comes back before the
64-bit counter wraps around.  This holds as long as `Process` does not take another call for an
`ExchangeKey` by its method name.
-/

namespace Beyond
namespace Peer
namespace GrpcServer

/-! ## The property -/

/-- The call invokes another RPC than `ExchangeKey` under a method name that `Process` lets
through. -/
def Exempted (c : Call) : Prop := c.rpc.isExchangeKey = false ∧ exempted c.metadata = true

/-- What is asked of one call. -/
structure Authenticated (w : World) (c : Call) : Prop where
  /-- A call that is let through, other than `ExchangeKey`, names an issued session by its id, and
  carries that session's nonce, which the call advances; every other nonce stays. -/
  accepted : (process w.srv c.metadata).2.code = .ok → c.rpc.isExchangeKey = false →
    ∃ id ref, c.metadata.lookup keyId = some id ∧ (id, ref) ∈ w.issued ∧
      w.srv.clientMap.lookup id = some (some ref) ∧
      c.metadata.lookup keyNonce = some (Bytes.decimal (w.srv.gst ref).nonce.toNat) ∧
      ∀ w', step true w c = some w' → ∀ ref',
        (w'.srv.gst ref').nonce = (w.srv.gst ref').nonce + if ref' = ref then 1 else 0
  /-- A refused call changes no nonce. -/
  refused : (process w.srv c.metadata).2.code ≠ .ok →
    ∀ w', step true w c = some w' → ∀ ref, (w'.srv.gst ref).nonce = (w.srv.gst ref).nonce

/-- The nonces that were accepted for a session, in order. -/
def noncesOf (ref : GstRef) (l : List Acceptance) : List (Option Bytes) :=
  l.filterMap fun a => if a.session = some ref then some a.nonce else none

/-- Two acceptances of one session within `2^64` have different nonces. -/
def NoReplay (w : World) : Prop :=
  ∀ ref i j, i < j → j < i + 2 ^ 64 → j < (noncesOf ref w.accepted).length →
    (noncesOf ref w.accepted)[i]? ≠ (noncesOf ref w.accepted)[j]?

/-! ## The invariant -/

/-- What a client has to send while the counter stands at `n`. -/
def nonceText (n : UInt64) : Option Bytes := some (Bytes.decimal n.toNat)

theorem nonceText_injective : Function.Injective nonceText := by
  intro m n h
  exact UInt64.toNat_inj.1 (Bytes.decimal_injective (Option.some.inj h))

/-- The accepted nonces are consecutive values of a counter, and `nonce` is the next one. -/
def Counted (nonces : List (Option Bytes)) (nonce : UInt64) : Prop :=
  ∃ n, nonces = (Counter.values n nonces.length).map nonceText ∧
    nonce = Counter.after n nonces.length

theorem counted_nil (nonce : UInt64) : Counted [] nonce := ⟨nonce, by simp [Counter.values], by simp⟩

theorem Counted.append {nonces : List (Option Bytes)} {nonce : UInt64} (h : Counted nonces nonce) :
    Counted (nonces ++ [nonceText nonce]) (nonce + 1) := by
  rcases h with ⟨n, hvalues, hnonce⟩
  refine ⟨n, ?_, ?_⟩
  · rw [List.length_append, List.length_singleton, Counter.values_succ, List.map_append,
      List.map_singleton, ← hvalues, ← hnonce]
  · rw [List.length_append, List.length_singleton, Counter.after_succ, ← hnonce]

theorem Counted.getElem? {nonces : List (Option Bytes)} {nonce : UInt64} (h : Counted nonces nonce) :
    ∃ n, ∀ i, i < nonces.length → nonces[i]? = some (nonceText (Counter.after n i)) := by
  rcases h with ⟨n, hvalues, _⟩
  refine ⟨n, fun i hi => ?_⟩
  rw [hvalues, List.getElem?_map, Counter.getElem?_values hi]
  rfl

/-- The state of the server while only authenticated calls are let through. -/
structure Guarded (w : World) : Prop where
  tabled : Tabled w
  counted : ∀ ref, Counted (noncesOf ref w.accepted) (w.srv.gst ref).nonce
  fresh : ∀ ref, w.srv.count ≤ ref → noncesOf ref w.accepted = []

theorem guarded_start (info : Option PeerInfo) (storagePath : Bytes) (heap : GstRef → Gst) :
    Guarded (World.start info storagePath heap) :=
  ⟨tabled_start info storagePath heap, fun _ => counted_nil _, fun _ _ => rfl⟩

theorem Guarded.noReplay {w : World} (hw : Guarded w) : NoReplay w := by
  intro ref i j hlt hgap hj heq
  rcases (hw.counted ref).getElem? with ⟨n, hget⟩
  -- Equal texts are equal counter values, which are less than `2^64` increments apart.
  rw [hget i (by omega), hget j hj] at heq
  exact Counter.after_ne hlt hgap (nonceText_injective (Option.some.inj heq))

/-! ## Steps of the counters -/

theorem noncesOf_append (ref : GstRef) (l : List Acceptance) (a : Acceptance) :
    noncesOf ref (l ++ [a]) = noncesOf ref l ++ if a.session = some ref then [a.nonce] else [] := by
  unfold noncesOf
  rw [List.filterMap_append]
  split <;> simp_all

@[simp] theorem gst_getGst (srv : Server) (metadata : Metadata) :
    (getGst srv metadata).1.gst = srv.gst := by
  unfold getGst
  split
  · rfl
  · split
    · rfl
    · simp

@[simp] theorem gst_looked (srv : Server) (metadata : Metadata) (rpc : Rpc) :
    (looked srv metadata rpc).gst = srv.gst := by
  unfold looked
  split <;> simp

/-- A handler changes no nonce of a session that is there before. -/
theorem nonce_handle {srv srv' : Server} {env : Env} {metadata : Metadata} {rpc : Rpc} {a : Answer}
    (h : handle srv env metadata rpc = .ok (srv', a)) {ref : GstRef}
    (href : rpc.isExchangeKey = false ∨ ref < srv.count) :
    (srv'.gst ref).nonce = (srv.gst ref).nonce := by
  rcases handle_ok h with ⟨_, hframe⟩ | ⟨hrpc, hexchanged⟩
  · rw [hframe.nonce, gst_looked]
  · cases hexchanged with
    | failed _ => rfl
    | done gst =>
        rcases href with hother | hlt
        · rw [hother] at hrpc
          cases hrpc
        · have hne : ref ≠ srv.count := fun heq => Nat.lt_irrefl _ (heq ▸ hlt)
          simp [Server.addSession, hne]

/-- What `Process` does to the counters, with the record of what it lets through. -/
theorem process_counted {w : World} {c : Call} (hw : Guarded w) (hexempted : ¬ Exempted c)
    (hcode : (process w.srv c.metadata).2.code = .ok) (ref : GstRef) :
    Counted (noncesOf ref (w.accepted ++ acceptance w.srv c))
        ((process w.srv c.metadata).1.gst ref).nonce ∧
      (w.srv.count ≤ ref → noncesOf ref (w.accepted ++ acceptance w.srv c) = []) := by
  have hp := processed w.srv c.metadata
  revert hp hcode
  generalize process w.srv c.metadata = r
  intro hcode hp
  cases hp with
  | refused _ hcode' _ => exact absurd hcode hcode'
  | unknown _ _ _ _ => cases hcode
  | exempted h =>
      have hrpc : c.rpc.isExchangeKey = true := by
        by_contra hrpc
        exact hexempted ⟨by simpa using hrpc, h⟩
      have hnone : acceptance w.srv c = [] := by simp [acceptance, hrpc, h]
      rw [hnone, List.append_nil]
      exact ⟨hw.counted ref, hw.fresh ref⟩
  | @accepted id ref' hnot hid hne href hnonce =>
      have hlt : ref' < w.srv.count := hw.tabled.allocated id ref' (hw.tabled.issued id ref' href)
      have hone : acceptance w.srv c = [⟨some ref', nonceText (w.srv.gst ref').nonce⟩] := by
        simp [acceptance, hnot, namedSession, hid, href, hnonce, nonceText]
      rw [hone, noncesOf_append]
      -- The accepted text is the value that was due, so the list and the counter both go on.
      by_cases heq : ref' = ref
      · subst heq
        refine ⟨?_, fun hle => absurd hlt (Nat.not_lt.2 hle)⟩
        simpa using (hw.counted ref').append
      · have hne' : ref ≠ ref' := fun h => heq h.symm
        simpa [heq, Server.gst_setGst_ne _ _ hne'] using ⟨hw.counted ref, hw.fresh ref⟩

theorem count_handle {srv srv' : Server} {env : Env} {metadata : Metadata} {rpc : Rpc} {a : Answer}
    (h : handle srv env metadata rpc = .ok (srv', a)) : srv.count ≤ srv'.count := by
  rcases handle_ok h with ⟨_, hframe⟩ | ⟨_, hexchanged⟩
  · rw [hframe.count, (sameSessions_looked _ _ _).count]
  · cases hexchanged with
    | failed _ => exact Nat.le_refl _
    | done gst => exact Nat.le_succ _

/-- A refused call changes no nonce. -/
theorem nonce_refused {srv : Server} {metadata : Metadata}
    (hcode : (process srv metadata).2.code ≠ .ok) (ref : GstRef) :
    ((process srv metadata).1.gst ref).nonce = (srv.gst ref).nonce := by
  have hp := processed srv metadata
  revert hp hcode
  generalize process srv metadata = r
  intro hcode hp
  cases hp with
  | exempted _ => exact absurd rfl hcode
  | accepted _ _ _ _ _ => exact absurd rfl hcode
  | refused _ _ _ => rfl
  | unknown _ _ _ _ => simp

theorem guarded_step {w w' : World} {c : Call} (hw : Guarded w) (hexempted : ¬ Exempted c)
    (h : step true w c = some w') : Guarded w' := by
  have htabled := tabled_step hw.tabled h
  have hcount : (process w.srv c.metadata).1.count = w.srv.count :=
    (processed w.srv c.metadata).sameSessions.count
  cases (stepped h).2 with
  | refused hcode =>
      refine ⟨htabled, fun ref => ?_, fun ref hle => hw.fresh ref (hcount ▸ hle)⟩
      have hcounted := hw.counted ref
      rwa [← nonce_refused hcode ref] at hcounted
  | crashed hcode _ =>
      exact ⟨htabled, fun ref => (process_counted hw hexempted hcode ref).1,
        fun ref hle => (process_counted hw hexempted hcode ref).2 (hcount ▸ hle)⟩
  | @answered srv a hcode hhandle =>
      refine ⟨htabled, fun ref => ?_, fun ref hle => ?_⟩
      · rcases process_counted hw hexempted hcode ref with ⟨hcounted, hfresh⟩
        by_cases hlt : ref < (process w.srv c.metadata).1.count
        · have hnonce := nonce_handle hhandle (Or.inr hlt)
          exact hnonce ▸ hcounted
        · -- A new session: nothing has been accepted for it yet.
          have hnone := hfresh (hcount ▸ Nat.not_lt.1 hlt)
          dsimp only
          rw [hnone]
          exact counted_nil _
      · exact (process_counted hw hexempted hcode ref).2
          (hcount ▸ Nat.le_trans (count_handle hhandle) hle)

/-! ## Authentication -/

/-- An exempted call is let through without a nonce being used up. -/
theorem not_authenticated_of_exempted {w w' : World} {c : Call} (h : step true w c = some w')
    (hexempted : Exempted c) : ¬ Authenticated w c := by
  intro hauth
  -- The call would have to advance the nonce of some session, but it leaves all of them.
  have hprocess := process_of_exempted w.srv hexempted.2
  rcases hauth.accepted (by rw [hprocess]; rfl) hexempted.1 with ⟨id, ref, _, _, _, _, hnonce⟩
  have hadvanced := hnonce w' h ref
  have hsame : (w'.srv.gst ref).nonce = (w.srv.gst ref).nonce := by
    have hadm : admission true w.srv c.metadata = (w.srv, .accepted) := hprocess
    cases (stepped h).2 with
    | refused hcode => exact absurd (by rw [hadm]; rfl) hcode
    | crashed _ _ => rw [hadm]
    | answered _ hhandle =>
        rw [hadm] at hhandle
        exact nonce_handle hhandle (Or.inl hexempted.1)
  rw [hsame] at hadvanced
  simp at hadvanced

theorem authenticated_of_not_exempted {w : World} {c : Call} (hw : Tabled w)
    (hexempted : ¬ Exempted c) : Authenticated w c := by
  constructor
  · intro hcode hrpc
    -- The handler behind `Process` leaves the nonces to it.
    have hstep : ∀ w', step true w c = some w' → ∀ ref,
        (w'.srv.gst ref).nonce = ((process w.srv c.metadata).1.gst ref).nonce := by
      intro w' h ref
      cases (stepped h).2 with
      | refused hcode' => exact absurd hcode hcode'
      | crashed _ _ => rfl
      | answered _ hhandle => exact nonce_handle hhandle (Or.inl hrpc)
    have hp := processed w.srv c.metadata
    revert hp hcode hstep
    generalize process w.srv c.metadata = r
    intro hcode hstep hp
    cases hp with
    | exempted h => exact absurd ⟨hrpc, h⟩ hexempted
    | refused _ hcode' _ => exact absurd hcode hcode'
    | unknown _ _ _ _ => cases hcode
    | @accepted id ref _ hid _ href hnonce =>
        refine ⟨id, ref, hid, hw.issued id ref href, href, hnonce, fun w' h ref' => ?_⟩
        rw [hstep w' h ref']
        by_cases heq : ref' = ref
        · subst heq
          simp
        · simp [heq, Server.gst_setGst_ne _ _ heq]
  · intro hcode w' h ref
    cases (stepped h).2 with
    | refused _ => exact nonce_refused hcode ref
    | crashed hcode' _ => exact absurd hcode' hcode
    | answered hcode' _ => exact absurd hcode' hcode

/-- On a server with `Auth`, the calls of a run are authenticated and no nonce is replayed exactly
when no call of it is exempted by its method name. -/
theorem authenticated_iff (info : Option PeerInfo) (storagePath : Bytes) (heap : GstRef → Gst)
    (calls : List Call) (w : World)
    (hexec : Run.exec (step true) (World.start info storagePath heap) calls = some w) :
    (Run.Along (step true) Authenticated (World.start info storagePath heap) calls ∧ NoReplay w) ↔
      ∀ c ∈ calls, ¬ Exempted c := by
  have hstart := guarded_start info storagePath heap
  have hkeep : Run.Preserved (step true) (fun _ c => ¬ Exempted c) Guarded :=
    fun _ _ _ hw hexempted h => guarded_step hw hexempted h
  have hiff : Run.Along (step true) Authenticated (World.start info storagePath heap) calls ↔
      Run.Along (step true) (fun _ c => ¬ Exempted c) (World.start info storagePath heap) calls := by
    refine Run.along_iff_of_invariant hkeep (fun w c w' hw h => ⟨?_, ?_⟩) hstart hexec
    · exact fun hauth hexempted => not_authenticated_of_exempted h hexempted hauth
    · exact authenticated_of_not_exempted hw.tabled
  rw [← Run.along_iff_forall hexec, ← hiff]
  refine ⟨fun h => h.1, fun h => ⟨h, ?_⟩⟩
  exact (Run.exec_invariant hkeep hstart (hiff.1 h) hexec).noReplay

/-- With the method name `E` anybody configures the session of another client. -/
theorem exempted_configure :
    ¬ Run.Along (step true) Authenticated World.empty
      [⟨.exchangeKey [], [(keyMethodName, Bytes.ascii "ExchangeKey")], Env.plain⟩,
        ⟨.configure ⟨1, [], [], [], []⟩,
          [(keyMethodName, Bytes.ascii "E"), (keyId, Bytes.ascii "0")], Env.plain⟩] := by
  rintro ⟨_, hrest⟩
  exact not_authenticated_of_exempted rfl ⟨rfl, by decide⟩ (hrest _ rfl).1

/-- Two calls of one client with consecutive nonces. -/
theorem authenticated_session :
    ∃ calls w, calls.length = 3 ∧ Run.exec (step true) World.empty calls = some w ∧
      Run.Along (step true) Authenticated World.empty calls ∧ NoReplay w := by
  refine ⟨[⟨.exchangeKey [], [(keyMethodName, Bytes.ascii "ExchangeKey")], Env.plain⟩,
    ⟨.configure ⟨1, [], [], [], []⟩, [(keyMethodName, Bytes.ascii "Configure"),
      (keyNonce, Bytes.ascii "0"), (keyId, Bytes.ascii "0")], Env.plain⟩,
    ⟨.stop, [(keyMethodName, Bytes.ascii "Stop"),
      (keyNonce, Bytes.ascii "1"), (keyId, Bytes.ascii "0")], Env.plain⟩], _, rfl, rfl, ?_⟩
  refine (authenticated_iff none [] _ _ _ rfl).2 ?_
  simp only [List.mem_cons, List.not_mem_nil, or_false, forall_eq_or_imp, forall_eq]
  refine ⟨?_, ?_, ?_⟩ <;> rintro ⟨hrpc, hexempted⟩
  · cases hrpc
  · exact absurd hexempted (by decide)
  · exact absurd hexempted (by decide)

end GrpcServer
end Peer
end Beyond
