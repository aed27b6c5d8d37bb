import Mathlib.Data.List.Perm.Basic
import Beyond.Discovery.NsdManager

/-!
# What a client is told of

For each service that is announced `NsdManager` looks up its port and its address, several at a time,
and calls its user when it has both, when it has failed, or when a service is gone.  `Told` says what
one step does to the services that are looked up and to what the user is told.  From it follows that
each announcement is told of once, or is still looked up.
-/

namespace Beyond
namespace Discovery
namespace NsdManager

open Errno

variable {α : Type*}

/-! ## What is looked up -/

namespace State

variable (s : State α)

/-- The info of a service that is looked up, by its record. -/
def lookup (d : Nat) : Option (DiscoveryInfo α) :=
  match s.record d with
  | some (.resolve info _) => some info
  | _ => none

/-- The record for whose address a ref asks. -/
def asking (r : Nat) : Option Nat :=
  if r < s.refs ∧ (s.ref r).reply = .addrinfo then some (s.ref r).context else none

/-- The names of the services that are looked up. -/
def pending : List String :=
  (List.range s.created).filterMap fun d => (s.lookup d).map DiscoveryInfo.name

end State

/-- The name of a service whose lookup has ended, with or without success. -/
def Published.reported : Published α → Option String
  | .info .discovered service => some service.name
  | .info .error service => some service.name
  | _ => none

def Published.removed : Published α → Option String
  | .info .removed service => some service.name
  | _ => none

namespace State

variable (s : State α)

def reported : List String := s.published.filterMap Published.reported

def removed : List String := s.published.filterMap Published.removed

end State

/-- The name of a service that the daemon announces. -/
def Act.added : Act α → Option String
  | .discover_reply _ true serviceName _ _ => some serviceName
  | _ => none

def Act.removed : Act α → Option String
  | .discover_reply _ false serviceName _ _ => some serviceName
  | _ => none

/-- `DiscoveryClient` discovers services with a callback. -/
def Act.Bound : Act α → Prop
  | .discoverServices cb _ _ => cb = true
  | _ => True

/-- What a step does to the services that are looked up, and to what the user is told. -/
inductive Told (s t : State α) : Act α → Prop
  | quiet {a : Act α} (hadded : a.added = none) (hremoved : a.removed = none)
      (lookup : t.lookup = s.lookup) (asking : t.asking = s.asking)
      (published : t.published = s.published) : Told s t a
  | started {r : Nat} {name : String} {resolve errno : Option Int}
      (lookup : t.lookup =
        Function.update s.lookup s.created (some { DiscoveryInfo.new α with name := name }))
      (asking : t.asking = s.asking) (published : t.published = s.published)
      (data : t.callbackData = s.callbackData) :
      Told s t (.discover_reply r true name resolve errno)
  | failed {r : Nat} {name : String} {resolve errno : Option Int} (lookup : t.lookup = s.lookup)
      (asking : t.asking = s.asking) (published : t.published = s.published ++
        [.info .error { DiscoveryInfo.new α with name := name, port := 0 }]) :
      Told s t (.discover_reply r true name resolve errno)
  | removed {r : Nat} {name : String} {resolve errno : Option Int} (lookup : t.lookup = s.lookup)
      (asking : t.asking = s.asking) (published : t.published = s.published ++
        [.info .removed { DiscoveryInfo.new α with name := name }]) :
      Told s t (.discover_reply r false name resolve errno)
  | resolved {r opaqueport : Nat} {uuid : Option String} {getAddrInfo errno : Option Int}
      (info : DiscoveryInfo α) (found : s.lookup (s.ref r).context = some info)
      (lookup : t.lookup = Function.update s.lookup (s.ref r).context
        (some { info with uuid := uuid.getD info.uuid, port := ntohs opaqueport }))
      (asking : t.asking = Function.update s.asking s.refs (some (s.ref r).context))
      (published : t.published = s.published) :
      Told s t (.resolve_reply r uuid opaqueport getAddrInfo errno)
  | unresolved {r opaqueport : Nat} {uuid : Option String} {getAddrInfo errno : Option Int}
      (info : DiscoveryInfo α) (found : s.lookup (s.ref r).context = some info)
      (lookup : t.lookup = Function.update s.lookup (s.ref r).context none)
      (asking : t.asking = s.asking ∨
        t.asking = Function.update s.asking s.refs (some (s.ref r).context))
      (published : t.published = s.published ++
        [.info .error { info with uuid := uuid.getD info.uuid, port := ntohs opaqueport }]) :
      Told s t (.resolve_reply r uuid opaqueport getAddrInfo errno)
  | discovered {r : Nat} {address : Option α} (info : DiscoveryInfo α)
      (asked : s.asking r = some (s.ref r).context)
      (found : s.lookup (s.ref r).context = some info)
      (lookup : t.lookup = Function.update s.lookup (s.ref r).context none)
      (asking : t.asking = s.asking)
      (published : t.published = s.published ++ [.info .discovered { info with address := address }]) :
      Told s t (.addrinfo_reply r address)
  | registered {r : Nat} {name : String} (lookup : t.lookup = s.lookup) (asking : t.asking = s.asking)
      (published : t.published = s.published ++ [.registered name]) :
      Told s t (.register_reply r name)

/-- Nobody discovers services without a callback. -/
def Listening (record : Nat → Option (Record α)) : Prop := ∀ d, record d ≠ some (.discover false)

/-! ## Records, refs and calls -/

section Frames

variable {s t : State α}

/-- The infos of a record. -/
def Record.lookup : Record α → Option (DiscoveryInfo α)
  | .resolve info _ => some info
  | _ => none

theorem lookup_newRecord (x : Record α) :
    (s.newRecord x).lookup = Function.update s.lookup s.created x.lookup := by
  funext d
  by_cases hd : d = s.created
  · subst hd
    cases x <;> simp [State.lookup, State.newRecord, Record.lookup]
  · simp [State.lookup, State.newRecord, Function.update_of_ne hd]

theorem lookup_setRecord (d : Nat) (x : Record α) :
    (s.setRecord d x).lookup = Function.update s.lookup d x.lookup := by
  funext e
  by_cases he : e = d
  · subst he
    cases x <;> simp [State.lookup, State.setRecord, Record.lookup]
  · simp [State.lookup, State.setRecord, Function.update_of_ne he]

theorem lookup_delete (d : Nat) : (s.delete d).lookup = Function.update s.lookup d none := by
  funext e
  unfold State.delete
  split
  · rename_i hd
    by_cases he : e = d
    · subst he
      simp [State.lookup, State.fail, hd]
    · simp [State.lookup, State.fail, Function.update_of_ne he]
  · by_cases he : e = d
    · subst he
      simp [State.lookup]
    · simp [State.lookup, Function.update_of_ne he]

theorem asking_newRef (r : Ref) : (s.newRef r).asking =
    if r.reply = .addrinfo then Function.update s.asking s.refs (some r.context) else s.asking := by
  funext q
  by_cases hq : q = s.refs
  · subst hq
    by_cases hr : r.reply = .addrinfo <;> simp [State.asking, State.newRef, hr]
  · have hlt : q < s.refs + 1 ↔ q < s.refs := by omega
    by_cases hr : r.reply = .addrinfo <;>
      simp [State.asking, State.newRef, hr, Function.update_of_ne hq, hlt]

theorem delete_frame (d : Nat) : (s.delete d).asking = s.asking ∧
    (s.delete d).published = s.published ∧ (s.delete d).created = s.created := by
  unfold State.delete
  split
  · exact ⟨rfl, rfl, rfl⟩
  · exact ⟨rfl, rfl, rfl⟩

theorem deallocate_frame (r : Nat) : (s.deallocate r).record = s.record ∧
    (s.deallocate r).lookup = s.lookup ∧ (s.deallocate r).asking = s.asking ∧
    (s.deallocate r).published = s.published := by
  unfold State.deallocate
  split
  · exact ⟨rfl, rfl, rfl, rfl⟩
  · exact ⟨rfl, rfl, rfl, rfl⟩

theorem record_delete (d : Nat) : (s.delete d).record = Function.update s.record d none := by
  unfold State.delete
  split
  · rename_i hd
    rw [← hd, Function.update_eq_self]
    rfl
  · rfl

theorem Listening.update {d : Nat} {x : Option (Record α)} (h : Listening s.record)
    (hx : x ≠ some (.discover false)) : Listening (Function.update s.record d x) := by
  intro e
  by_cases he : e = d
  · subst he
    simpa using hx
  · simpa [Function.update_of_ne he] using h e

theorem Listening.delete (h : Listening s.record) (ht : t.record = s.record) (d : Nat) :
    Listening (t.delete d).record := by
  rw [record_delete, ht]
  exact h.update nofun

/-- Nothing is said to the user, and nothing is looked up. -/
structure Quiet (s t : State α) : Prop where
  lookup : t.lookup = s.lookup
  asking : t.asking = s.asking
  published : t.published = s.published
  listening : Listening s.record → Listening t.record

namespace Quiet

theorem refl (s : State α) : Quiet s s := ⟨rfl, rfl, rfl, id⟩

theorem setMap (h : Quiet s t) (fd : Int) (r : Option Nat) : Quiet s (t.setMap fd r) :=
  ⟨h.lookup, h.asking, h.published, h.listening⟩

theorem setRunning (h : Quiet s t) (b : Bool) : Quiet s (t.setRunning b) :=
  ⟨h.lookup, h.asking, h.published, h.listening⟩

theorem setSvc (h : Quiet s t) (o : Option Nat) : Quiet s (t.setSvc o) :=
  ⟨h.lookup, h.asking, h.published, h.listening⟩

theorem setData (h : Quiet s t) (o : Option Nat) : Quiet s (t.setData o) :=
  ⟨h.lookup, h.asking, h.published, h.listening⟩

theorem deallocate (h : Quiet s t) (r : Nat) : Quiet s (t.deallocate r) := by
  rcases deallocate_frame (s := t) r with ⟨hrecord, hlookup, hasking, hpublished⟩
  exact ⟨hlookup.trans h.lookup, hasking.trans h.asking, hpublished.trans h.published,
    fun hs => hrecord ▸ h.listening hs⟩

theorem delete (h : Quiet s t) {d : Nat} (hd : s.lookup d = none) : Quiet s (t.delete d) := by
  rcases delete_frame (s := t) d with ⟨hasking, hpublished, -⟩
  refine ⟨?_, hasking.trans h.asking, hpublished.trans h.published,
    fun hs => (h.listening hs).delete rfl d⟩
  rw [lookup_delete, h.lookup, ← hd, Function.update_eq_self]

theorem newRecord (h : Quiet s t) {x : Record α} (hx : x.lookup = none)
    (hheard : x ≠ .discover false) (hfresh : s.lookup t.created = none) :
    Quiet s (t.newRecord x) := by
  refine ⟨?_, h.asking, h.published,
    fun hs => (h.listening hs).update fun hx => hheard (Option.some.inj hx)⟩
  rw [lookup_newRecord, hx, h.lookup, ← hfresh, Function.update_eq_self]

theorem newRef (h : Quiet s t) {r : Ref} (hr : r.reply ≠ .addrinfo) : Quiet s (t.newRef r) := by
  refine ⟨h.lookup, ?_, h.published, h.listening⟩
  rw [asking_newRef, if_neg hr, h.asking]

end Quiet

theorem quiet_startLoop (h : Quiet s t) (r : Nat) (c : LoopResults) :
    Quiet s (startLoop t r c).1 := by
  rcases startLoop_cases t r c with ⟨heq, -⟩ | ⟨heq, -⟩ | ⟨heq, -⟩
  · rw [heq]
    exact h
  · rw [heq]
    exact h.setMap _ _
  · rw [heq]
    exact (h.setMap _ _).setRunning true

theorem quiet_stopService (h : Quiet s t) : Quiet s (stopService t).1 := by
  unfold stopService
  split
  · exact h
  · split
    · rename_i u hu
      rw [delWatch_ok hu]
      exact (((h.setRunning false).setMap _ _).deallocate _).setSvc none
    · exact ((h.setRunning false).deallocate _).setSvc none

theorem quiet_deleteData (h : Quiet s t) (hdata : ∀ d, t.callbackData = some d → s.lookup d = none) :
    Quiet s t.deleteData := by
  unfold State.deleteData
  split
  · exact h
  · rename_i d hd
    exact h.delete (hdata d hd)

theorem startLoop_data (s : State α) (r : Nat) (c : LoopResults) :
    (startLoop s r c).1.callbackData = s.callbackData := by
  rcases startLoop_frame s r c with ⟨m, b, heq⟩
  rw [heq]

theorem stopService_data : (stopService t).1.callbackData = t.callbackData := by
  unfold stopService
  split
  · rfl
  · have hdeallocate : ∀ (u : State α) (r : Nat), (u.deallocate r).callbackData = u.callbackData := by
      intro u r
      unfold State.deallocate
      split <;> rfl
    split
    · rename_i u hu
      rw [delWatch_ok hu]
      exact hdeallocate _ _
    · exact hdeallocate _ _

theorem quiet_stopServiceDiscovery (h : Quiet s t)
    (hdata : ∀ d, t.callbackData = some d → s.lookup d = none) :
    Quiet s (stopServiceDiscovery t).1 := by
  refine (quiet_deleteData (quiet_stopService h) fun d hd => hdata d ?_).setData none
  rwa [stopService_data] at hd

end Frames

structure Looking (s : State α) : Prop where
  shape : Shape s
  data : ∀ d, s.callbackData = some d → s.lookup d = none
  listening : Listening s.record

section Calls

variable {s t : State α}

theorem looking_start : Looking (State.start : State α) :=
  ⟨shape_start, nofun, nofun⟩

theorem Looking.fresh (hs : Looking s) {d : Nat} (hd : s.created ≤ d) : s.lookup d = none := by
  simp [State.lookup, hs.shape.fresh d hd]

/-- The record and the ref of a call. -/
theorem Looking.quiet_opened (hs : Looking s) {x : Record α} (hx : x.lookup = none)
    (hheard : x ≠ .discover false) {reply : Reply} (hreply : reply ≠ .addrinfo) (fd : Int) :
    Quiet s (s.opened x reply fd) :=
  (((Quiet.refl s).newRecord hx hheard (hs.fresh le_rfl)).newRef hreply).setSvc _

theorem Looking.quiet_discoverServices (hs : Looking s) (browse : Option Int) (c : LoopResults) :
    Quiet s (discoverServices s true browse c).1 := by
  unfold discoverServices
  split
  · exact .refl s
  · simp only
    cases browse with
    | none =>
        have hrecord : Quiet s (s.newRecord (.discover true)) :=
          (Quiet.refl s).newRecord rfl (by simp) (hs.fresh le_rfl)
        exact hrecord.delete (hs.fresh le_rfl)
    | some fd =>
        have hopened : Quiet s (s.opened (.discover true) .discover fd) :=
          hs.quiet_opened rfl (by simp) (by simp) fd
        have hdata := (quiet_deleteData hopened hs.data).setData (some s.created)
        have hloop := quiet_startLoop hdata s.refs c
        have hlost : ∀ d, ((s.opened (.discover true) .discover fd).deleteData.setData
            (some s.created)).callbackData = some d → s.lookup d = none := by
          rintro d hd
          cases hd
          exact hs.fresh le_rfl
        simp only
        split
        · rename_i u hu
          rw [hu] at hloop
          exact hloop
        · rename_i u e hu
          rw [hu] at hloop
          have hsame := startLoop_data ((s.opened (.discover true) .discover fd).deleteData.setData
            (some s.created)) s.refs c
          rw [hu] at hsame
          exact quiet_stopServiceDiscovery hloop fun d hd => hlost d (hsame ▸ hd)

theorem Looking.quiet_registerService (hs : Looking s) (cb : Bool) (txtRecord : List Bool)
    (register : Option Int) (c : LoopResults) :
    Quiet s (registerService s cb txtRecord register c).1 := by
  have hrecord : Quiet s (s.newRecord (.register cb)) :=
    (Quiet.refl s).newRecord rfl (by simp) (hs.fresh le_rfl)
  unfold registerService
  split
  · exact .refl s
  · simp only
    split
    · exact hrecord
    · cases register with
      | none => exact hrecord
      | some fd =>
          have hopened : Quiet s (s.opened (.register cb) .register fd) :=
            hs.quiet_opened rfl (by simp) (by simp) fd
          have hloop := quiet_startLoop hopened s.refs c
          simp only
          split
          · rename_i u hu
            rw [hu] at hloop
            exact hloop
          · rename_i u e hu
            rw [hu] at hloop
            exact quiet_stopService hloop

theorem quiet_destroy : Quiet s (destroy s) := by
  unfold destroy
  simp only
  split
  · exact ⟨rfl, rfl, rfl, id⟩
  · rename_i r _
    have hdeallocate := (Quiet.refl s).deallocate r
    exact ⟨hdeallocate.lookup, hdeallocate.asking, hdeallocate.published, hdeallocate.listening⟩

end Calls

/-! ## Replies -/

section Replies

variable {s : State α}

theorem fail_faults (f : Fault) : (s.fail f).faults ≠ [] := by simp [State.fail]

/-- Either the service is looked up from now on, or its record is deleted again. -/
theorem resolveService_cases (hs : Looking s) (name : String) (resolve errno : Option Int) :
    ∃ t ret, resolveService s name true resolve errno = (t, ret) ∧
      (ret = -EFAULT ∧ Quiet s t ∨ ret = 0 ∧ t.lookup = Function.update s.lookup s.created
          (some { DiscoveryInfo.new α with name := name }) ∧
        t.asking = s.asking ∧ t.published = s.published ∧ t.callbackData = s.callbackData ∧
        Listening t.record) := by
  have hlookup := lookup_newRecord (s := s)
    (.resolve { DiscoveryInfo.new α with name := name } true)
  have hheard : Listening (s.newRecord
      (.resolve { DiscoveryInfo.new α with name := name } true)).record :=
    hs.listening.update (by simp)
  have hundone : ∀ u : State α, u.lookup = (s.newRecord
      (.resolve { DiscoveryInfo.new α with name := name } true)).lookup →
      (u.delete s.created).lookup = s.lookup := by
    intro u hu
    rw [lookup_delete, hu, hlookup, Function.update_idem, ← hs.fresh le_rfl,
      Function.update_eq_self]
  unfold resolveService
  cases resolve with
  | none =>
      refine ⟨_, _, rfl, .inl ⟨rfl, hundone _ rfl, ?_, ?_, fun _ => hheard.delete (by rfl) _⟩⟩
      · exact (delete_frame _).1
      · exact (delete_frame _).2.1
  | some fd =>
      simp only
      split
      · refine ⟨_, _, rfl, .inl ⟨rfl, hundone _ rfl, ?_, ?_, ?_⟩⟩
        · rw [(delete_frame _).1, asking_newRef, if_neg (by simp)]
          rfl
        · exact (delete_frame _).2.1
        · exact fun _ => hheard.delete (by rfl) _
      · rename_i v hv
        rw [(addWatch_ok hv).2.2]
        refine ⟨_, _, rfl, .inr ⟨rfl, hlookup, ?_, rfl, rfl, hheard⟩⟩
        show (State.newRef _ _).asking = _
        rw [asking_newRef, if_neg (by simp)]
        rfl

theorem told_discover_reply (hs : Looking s) {r : Nat} {add : Bool} {name : String}
    {resolve errno : Option Int} (hfaults : (discover_reply s r add name resolve errno).faults = []) :
    Told s (discover_reply s r add name resolve errno) (.discover_reply r add name resolve errno) ∧
      Listening (discover_reply s r add name resolve errno).record := by
  unfold discover_reply at hfaults ⊢
  simp only at hfaults ⊢
  split at hfaults
  · rename_i discovered hrecord
    have hdiscovered : discovered = true := by
      cases discovered with
      | true => rfl
      | false => exact absurd hrecord (hs.listening _)
    subst hdiscovered
    cases add with
    | true =>
        rcases resolveService_cases hs name resolve errno with ⟨t, ret, heq, hret⟩
        simp only [if_true, heq]
        rcases hret with ⟨rfl, hquiet⟩ | ⟨rfl, hlookup, hasking, hpublished, hdata, hheard⟩
        · rw [if_pos ⟨by decide, trivial⟩]
          refine ⟨.failed hquiet.lookup hquiet.asking ?_, hquiet.listening hs.listening⟩
          exact congrArg (· ++ _) hquiet.published
        · rw [if_neg (by simp)]
          exact ⟨.started hlookup hasking hpublished hdata, hheard⟩
    | false => exact ⟨.removed rfl rfl rfl, hs.listening⟩
  · exact absurd hfaults (fail_faults _)

theorem told_resolve_reply (hs : Looking s) {r opaqueport : Nat} {uuid : Option String}
    {getAddrInfo errno : Option Int}
    (hfaults : (resolve_reply s r uuid opaqueport getAddrInfo errno).faults = []) :
    Told s ((resolve_reply s r uuid opaqueport getAddrInfo errno).answer r)
        (.resolve_reply r uuid opaqueport getAddrInfo errno) ∧
      Listening (resolve_reply s r uuid opaqueport getAddrInfo errno).record := by
  unfold resolve_reply at hfaults ⊢
  simp only at hfaults ⊢
  split at hfaults
  · rename_i info resolved hrecord
    have hfound : s.lookup (s.ref r).context = some info := by simp [State.lookup, hrecord]
    split
    · exact ⟨.quiet rfl rfl rfl rfl rfl, hs.listening⟩
    · have hset := lookup_setRecord (s := s) (s.ref r).context (.resolve
        { info with uuid := uuid.getD info.uuid, port := ntohs opaqueport } resolved)
      have hheard : Listening (s.setRecord (s.ref r).context (.resolve
          { info with uuid := uuid.getD info.uuid, port := ntohs opaqueport } resolved)).record :=
        hs.listening.update (by simp)
      -- On an error the user is told, and the record is deleted.
      have hdeleted : ∀ u : State α, u.lookup = (s.setRecord (s.ref r).context (.resolve
          { info with uuid := uuid.getD info.uuid, port := ntohs opaqueport } resolved)).lookup →
          (u.delete (s.ref r).context).lookup =
            Function.update s.lookup (s.ref r).context none := by
        intro u hu
        rw [lookup_delete, hu, hset, Function.update_idem]
      cases getAddrInfo with
      | none =>
          exact ⟨.unresolved info hfound (hdeleted _ rfl) (.inl (delete_frame _).1)
            (delete_frame _).2.1, hheard.delete (by rfl) _⟩
      | some fd =>
          simp only
          split
          · have hasking := (asking_newRef (s := s) ⟨.addrinfo, (s.ref r).context, fd⟩).trans
              (if_pos rfl)
            exact ⟨.unresolved info hfound (hdeleted _ rfl)
              (.inr ((delete_frame _).1.trans hasking)) (delete_frame _).2.1,
              hheard.delete (by rfl) _⟩
          · rename_i v hv
            rw [(addWatch_ok hv).2.2]
            refine ⟨.resolved info hfound hset ?_ rfl, hheard⟩
            show (State.newRef _ _).asking = _
            rw [asking_newRef, if_pos rfl]
            rfl
  · exact absurd hfaults (fail_faults _)

theorem told_addrinfo_reply (hs : Looking s) {r : Nat} {address : Option α}
    (hr : CallsBack s r .addrinfo) (hfaults : (addrinfo_reply s r address).faults = []) :
    Told s (addrinfo_reply s r address) (.addrinfo_reply r address) ∧
      Listening (addrinfo_reply s r address).record := by
  unfold addrinfo_reply at hfaults ⊢
  simp only at hfaults ⊢
  split at hfaults
  · rename_i info resolved hrecord
    have hfound : s.lookup (s.ref r).context = some info := by simp [State.lookup, hrecord]
    have hasked : s.asking r = some (s.ref r).context := if_pos ⟨hr.2.1, hr.2.2.2.2⟩
    split at hfaults
    · rw [if_pos ‹_›]
      exact ⟨.quiet rfl rfl rfl rfl rfl, hs.listening⟩
    · rw [if_neg ‹_›]
      split at hfaults
      · exact absurd hfaults (fail_faults _)
      · rename_i t ht
        rw [delWatch_ok ht]
        rcases deallocate_frame (s := s.setMap (s.ref r).fd none) r with
          ⟨hrecords, hlookup, hasking, hpublished⟩
        refine ⟨.discovered info hasked hfound ?_ ?_ ?_, ?_⟩
        · rw [lookup_delete]
          exact congrArg (fun lookup : Nat → Option (DiscoveryInfo α) =>
            Function.update lookup (s.ref r).context none) hlookup
        · exact (delete_frame _).1.trans hasking
        · exact (delete_frame _).2.1.trans (congrArg (· ++ _) hpublished)
        · exact hs.listening.delete (by exact hrecords) _
  · exact absurd hfaults (fail_faults _)

theorem told_register_reply (hs : Looking s) {r : Nat} {name : String}
    (hfaults : (register_reply s r name).faults = []) :
    Told s ((register_reply s r name).answer r) (.register_reply r name) ∧
      Listening (register_reply s r name).record := by
  unfold register_reply at hfaults ⊢
  simp only at hfaults ⊢
  split at hfaults
  · rename_i registered hrecord
    have hnone : s.lookup (s.ref r).context = none := by simp [State.lookup, hrecord]
    have hsame : Function.update s.lookup (s.ref r).context none = s.lookup := by
      rw [← hnone, Function.update_eq_self]
    cases registered with
    | true =>
        refine ⟨.registered ?_ (delete_frame _).1 (delete_frame _).2.1,
          hs.listening.delete (by rfl) _⟩
        exact (lookup_delete _).trans hsame
    | false =>
        refine ⟨.quiet rfl rfl ?_ (delete_frame _).1 (delete_frame _).2.1,
          hs.listening.delete (by rfl) _⟩
        exact (lookup_delete _).trans hsame
  · exact absurd hfaults (fail_faults _)

end Replies

/-! ## Steps -/

section Steps

variable {s t : State α}

/-- What the manager keeps is the context of a browse. -/
theorem Told.data {a : Act α} (h : Told s t a) (hs : Looking s)
    (hdata : ∀ d, t.callbackData = some d → s.lookup d = none) (d : Nat)
    (hd : t.callbackData = some d) : t.lookup d = none := by
  cases h with
  | quiet _ _ hlookup => rw [hlookup, hdata d hd]
  | started hlookup _ _ hsame =>
      have hlt := hs.shape.data d (hsame ▸ hd)
      rw [hlookup, Function.update_of_ne hlt.ne, hdata d hd]
  | failed hlookup => rw [hlookup, hdata d hd]
  | removed hlookup => rw [hlookup, hdata d hd]
  | resolved info hfound hlookup =>
      rename_i r _ _ _ _ _ _
      have hne : d ≠ (s.ref r).context := by
        rintro rfl
        rw [hdata _ hd] at hfound
        cases hfound
      rw [hlookup, Function.update_of_ne hne, hdata d hd]
  | unresolved info _ hlookup => rw [hlookup, Function.update_apply, hdata d hd, ite_self]
  | discovered info _ _ hlookup => rw [hlookup, Function.update_apply, hdata d hd, ite_self]
  | registered hlookup => rw [hlookup, hdata d hd]

theorem Told.published {a : Act α} (h : Told s t a) :
    t.published = s.published ∨ ∃ p, t.published = s.published ++ [p] := by
  cases h with
  | quiet _ _ _ _ h => exact .inl h
  | started _ _ h => exact .inl h
  | failed _ _ h => exact .inr ⟨_, h⟩
  | removed _ _ h => exact .inr ⟨_, h⟩
  | resolved _ _ _ _ h => exact .inl h
  | unresolved _ _ _ _ h => exact .inr ⟨_, h⟩
  | discovered _ _ _ _ _ h => exact .inr ⟨_, h⟩
  | registered _ _ h => exact .inr ⟨_, h⟩

theorem told_step {a : Act α} (hs : Looking s) (hbound : a.Bound) (h : step s a = some t)
    (hfaults : t.faults = []) : Told s t a ∧ Looking t := by
  have heffect := effect_step hs.shape h
  have hdata : ∀ d, t.callbackData = some d → s.lookup d = none := by
    intro d hd
    rcases heffect.data d hd with hold | hnew
    · exact hs.data d hold
    · exact hs.fresh hnew
  suffices htold : Told s t a ∧ Listening t.record from
    ⟨htold.1, heffect.shape, htold.1.data hs hdata, htold.2⟩
  have hquiet : ∀ u : State α, a.added = none → a.removed = none → Quiet s u →
      Told s u a ∧ Listening u.record := fun u hadded hremoved hu =>
    ⟨.quiet hadded hremoved hu.lookup hu.asking hu.published, hu.listening hs.listening⟩
  unfold step at h
  split at h
  · cases h
  · cases a with
    | discoverServices cb browse c =>
        simp only at h
        split at h
        · cases h
          cases (hbound : cb = true)
          exact hquiet _ rfl rfl (hs.quiet_discoverServices browse c)
        · cases h
    | stopServiceDiscovery =>
        cases h
        exact hquiet _ rfl rfl (quiet_stopServiceDiscovery (.refl s) hs.data)
    | registerService cb txtRecord register c =>
        simp only at h
        split at h
        · cases h
          exact hquiet _ rfl rfl (hs.quiet_registerService cb txtRecord register c)
        · cases h
    | unregisterService =>
        cases h
        exact hquiet _ rfl rfl (quiet_stopService (.refl s))
    | discover_reply r add serviceName resolve errno =>
        simp only at h
        split at h
        · cases h
          exact told_discover_reply hs hfaults
        · cases h
    | resolve_reply r uuid opaqueport getAddrInfo errno =>
        simp only at h
        split at h
        · cases h
          exact told_resolve_reply hs hfaults
        · cases h
    | addrinfo_reply r address =>
        simp only at h
        split at h
        · rename_i hr
          cases h
          exact told_addrinfo_reply hs hr hfaults
        · cases h
    | register_reply r name =>
        simp only at h
        split at h
        · cases h
          exact told_register_reply hs hfaults
        · cases h
    | destroy =>
        cases h
        exact hquiet _ rfl rfl quiet_destroy

/-! ## Names -/

/-- An unset entry of a numbered list appears, or a set one goes. -/
theorem filterMap_range_update {β : Type*} {f : Nat → Option β} {n d : Nat} {b : β} (hd : d < n)
    (hb : f d = some b) :
    ((List.range n).filterMap f).Perm (b :: (List.range n).filterMap (Function.update f d none)) := by
  induction n with
  | zero => omega
  | succ n ih =>
      rw [List.range_succ, List.filterMap_append, List.filterMap_append]
      rcases Nat.lt_succ_iff_lt_or_eq.1 hd with hlt | rfl
      · have hsame : [n].filterMap (Function.update f d none) = [n].filterMap f := by
          simp [List.filterMap_cons, Function.update_of_ne hlt.ne']
        rw [hsame]
        exact (ih hlt).append_right _
      · have hsame : (List.range d).filterMap (Function.update f d none) =
            (List.range d).filterMap f :=
          List.filterMap_congr fun e he => by
            rw [Function.update_of_ne (List.mem_range.1 he).ne]
        rw [hsame]
        simp [hb]

/-- Nothing is looked up behind the last record. -/
theorem filterMap_range_eq {β : Type*} {f : Nat → Option β} {m n : Nat} (hle : m ≤ n)
    (hf : ∀ d, m ≤ d → f d = none) : (List.range n).filterMap f = (List.range m).filterMap f := by
  induction n, hle using Nat.le_induction with
  | base => rfl
  | succ n hle ih =>
      rw [List.range_succ, List.filterMap_append, ih]
      simp [hf n hle]

theorem pending_eq {n : Nat} (hle : n ≤ t.created) (ht : ∀ d, n ≤ d → t.lookup d = none) :
    t.pending = (List.range n).filterMap fun d => (t.lookup d).map DiscoveryInfo.name :=
  filterMap_range_eq hle fun d hd => by rw [ht d hd]; rfl

theorem pending_kept (hs : Looking s) (hle : s.created ≤ t.created) (hlookup : t.lookup = s.lookup) :
    t.pending = s.pending := by
  rw [pending_eq hle fun d hd => by rw [hlookup, hs.fresh hd], hlookup]
  rfl

theorem pending_started (hs : Looking s) (ht : Looking t) {info : DiscoveryInfo α}
    (hlookup : t.lookup = Function.update s.lookup s.created (some info)) :
    t.pending = s.pending ++ [info.name] := by
  have hle : s.created + 1 ≤ t.created := by
    by_contra hgt
    have hnone := ht.fresh (Nat.le_of_not_lt hgt)
    rw [hlookup, Function.update_self] at hnone
    cases hnone
  have hold : (List.range s.created).filterMap (fun d => (t.lookup d).map DiscoveryInfo.name) =
      s.pending :=
    List.filterMap_congr fun d hd => by
      rw [hlookup, Function.update_of_ne (List.mem_range.1 hd).ne]
  rw [pending_eq hle, List.range_succ, List.filterMap_append, hold]
  · simp [hlookup]
  · intro d hd
    rw [hlookup, Function.update_of_ne (by omega), hs.fresh (by omega)]

theorem lt_of_lookup (hs : Looking s) {d : Nat} {info : DiscoveryInfo α}
    (hfound : s.lookup d = some info) : d < s.created := by
  by_contra hge
  rw [hs.fresh (Nat.le_of_not_lt hge)] at hfound
  cases hfound

theorem pending_resolved (hs : Looking s) (hle : s.created ≤ t.created) {d : Nat}
    {info info' : DiscoveryInfo α} (hfound : s.lookup d = some info) (hname : info'.name = info.name)
    (hlookup : t.lookup = Function.update s.lookup d (some info')) : t.pending = s.pending := by
  have hlt := lt_of_lookup hs hfound
  rw [pending_eq hle fun e he => by
    rw [hlookup, Function.update_of_ne (by omega), hs.fresh he]]
  refine List.filterMap_congr fun e _ => ?_
  by_cases he : e = d
  · subst he
    rw [hlookup, Function.update_self, hfound]
    exact congrArg some hname
  · rw [hlookup, Function.update_of_ne he]

theorem pending_ended (hs : Looking s) (hle : s.created ≤ t.created) {d : Nat}
    {info : DiscoveryInfo α} (hfound : s.lookup d = some info)
    (hlookup : t.lookup = Function.update s.lookup d none) :
    s.pending.Perm (info.name :: t.pending) := by
  have hperm := filterMap_range_update (f := fun e => (s.lookup e).map DiscoveryInfo.name)
    (lt_of_lookup hs hfound) (b := info.name) (by simp [hfound])
  refine hperm.trans (.of_eq ?_)
  rw [pending_eq hle fun e he => by
    rw [hlookup, Function.update_apply, hs.fresh he, ite_self]]
  congr 1
  refine List.filterMap_congr fun e _ => ?_
  by_cases he : e = d
  · subst he
    simp [hlookup]
  · simp [hlookup, Function.update_of_ne he]

theorem reported_append {p : Published α} (h : t.published = s.published ++ [p]) :
    t.reported = s.reported ++ p.reported.toList := by
  rw [State.reported, h, List.filterMap_append]
  cases hp : p.reported <;> simp [hp, State.reported]

theorem removed_append {p : Published α} (h : t.published = s.published ++ [p]) :
    t.removed = s.removed ++ p.removed.toList := by
  rw [State.removed, h, List.filterMap_append]
  cases hp : p.removed <;> simp [hp, State.removed]

/-- The end of a lookup takes its name from those that are pending to those that are reported. -/
theorem perm_ended (hs : Looking s) (hle : s.created ≤ t.created) {d : Nat}
    {info : DiscoveryInfo α} {p : Published α} (hfound : s.lookup d = some info)
    (hlookup : t.lookup = Function.update s.lookup d none) (hp : p.reported = some info.name)
    (hpublished : t.published = s.published ++ [p]) :
    (t.reported ++ t.pending).Perm (s.reported ++ s.pending) := by
  have hended := pending_ended hs hle hfound hlookup
  rw [reported_append hpublished, hp, List.append_assoc]
  exact hended.symm.append_left s.reported

theorem told_names {a : Act α} (hs : Looking s) (ht : Looking t) (hle : s.created ≤ t.created)
    (h : Told s t a) :
    (t.reported ++ t.pending).Perm (s.reported ++ s.pending ++ a.added.toList) ∧
      t.removed = s.removed ++ a.removed.toList := by
  cases h with
  | quiet hadded hremoved hlookup _ hpublished =>
      have hpending := pending_kept hs hle hlookup
      simp [State.reported, State.removed, hpublished, hpending, hadded, hremoved]
  | started hlookup _ hpublished =>
      have hpending := pending_started hs ht hlookup
      simp [State.reported, State.removed, hpublished, hpending, Act.added, Act.removed]
  | failed hlookup _ hpublished =>
      rw [reported_append hpublished, removed_append hpublished, pending_kept hs hle hlookup]
      refine ⟨?_, rfl⟩
      rw [List.append_assoc, List.append_assoc]
      exact List.perm_append_comm.append_left _
  | removed hlookup _ hpublished =>
      rw [reported_append hpublished, removed_append hpublished, pending_kept hs hle hlookup]
      refine ⟨.of_eq ?_, rfl⟩
      simp [Published.reported, Act.added]
  | resolved info hfound hlookup _ hpublished =>
      have hpending := pending_resolved hs hle hfound (by exact rfl) hlookup
      simp [State.reported, State.removed, hpublished, hpending, Act.added, Act.removed]
  | unresolved info hfound hlookup _ hpublished =>
      rw [removed_append hpublished]
      refine ⟨?_, rfl⟩
      simpa [Act.added] using perm_ended hs hle hfound hlookup rfl hpublished
  | discovered info _ hfound hlookup _ hpublished =>
      rw [removed_append hpublished]
      refine ⟨?_, rfl⟩
      simpa [Act.added] using perm_ended hs hle hfound hlookup rfl hpublished
  | registered hlookup _ hpublished =>
      rw [reported_append hpublished, removed_append hpublished, pending_kept hs hle hlookup]
      refine ⟨.of_eq ?_, rfl⟩
      simp [Published.reported, Act.added]

/-- Faults stay. -/
theorem faults_run {as : List (Act α)} (hs : Shape s) (h : Run.exec step s as = some t) :
    s.faults <+: t.faults := by
  have hkept : ∀ (u : State α) a u', Shape u ∧ s.faults <+: u.faults → step u a = some u' →
      Shape u' ∧ s.faults <+: u'.faults := by
    rintro u a u' ⟨hu, hprefix⟩ hstep
    have heffect := effect_step hu hstep
    exact ⟨heffect.shape, hprefix.trans heffect.faults⟩
  exact (Run.exec_preserved hkept ⟨hs, List.prefix_rfl⟩ h).2

theorem told_run {as : List (Act α)} (hs : Looking s) (hbound : ∀ a ∈ as, a.Bound)
    (h : Run.exec step s as = some t) (hfaults : t.faults = []) :
    (t.reported ++ t.pending).Perm (s.reported ++ s.pending ++ as.filterMap Act.added) ∧
      t.removed = s.removed ++ as.filterMap Act.removed := by
  induction as generalizing s with
  | nil =>
      cases h
      exact ⟨by simp, by simp⟩
  | cons a as ih =>
      rcases Run.exec_cons_some.1 h with ⟨u, hu, hrest⟩
      rcases List.forall_mem_cons.1 hbound with ⟨ha, has⟩
      have heffect := effect_step hs.shape hu
      have hfaultless : u.faults = [] :=
        List.prefix_nil.1 (hfaults ▸ faults_run heffect.shape hrest)
      rcases told_step hs ha hu hfaultless with ⟨htold, hlooking⟩
      rcases told_names hs hlooking heffect.created htold with ⟨hperm, hremoved⟩
      rcases ih hlooking has hrest with ⟨hperm', hremoved'⟩
      constructor
      · refine hperm'.trans ((hperm.append_right _).trans (.of_eq ?_))
        cases hadded : a.added <;> simp [hadded]
      · rw [hremoved', hremoved]
        cases hr : a.removed <;> simp [hr]

end Steps

/-- In every run without a fault, each service that the daemon announces is told of once, as found or
as lost, or is still looked up, and each one that goes is told of in turn. -/
theorem announcements_told (as : List (Act α)) (s : State α) (hbound : ∀ a ∈ as, a.Bound)
    (h : Run.exec step State.start as = some s) (hfaults : s.faults = []) :
    (s.reported ++ s.pending).Perm (as.filterMap Act.added) ∧
      s.removed = as.filterMap Act.removed := by
  have htold := told_run looking_start hbound h hfaults
  simpa [State.reported, State.pending, State.removed, State.start] using htold

/-- Two services are announced; the address of the second one is found first, and the first one
goes. -/
def twoServices : List (Act Unit) :=
  [.discoverServices true (some 3) started, .discover_reply 0 true "lamp" (some 4) none,
    .discover_reply 0 true "door" (some 5) none, .resolve_reply 2 none 3000 (some 6) none,
    .addrinfo_reply 3 (some ()), .discover_reply 0 false "lamp" none none]

theorem twoServices_told :
    ∃ s, Run.exec step State.start twoServices = some s ∧ s.reported = ["door"] ∧
      s.pending = ["lamp"] ∧ (s.reported ++ s.pending).Perm ["lamp", "door"] ∧
      s.removed = ["lamp"] := by
  refine ⟨_, rfl, rfl, rfl, announcements_told twoServices _ ?_ rfl rfl⟩
  simp [twoServices, Act.Bound]

end NsdManager
end Discovery
end Beyond
