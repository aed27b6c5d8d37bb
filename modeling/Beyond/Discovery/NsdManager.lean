import Mathlib.Order.Nat
import Beyond.Base.Platform
import Beyond.Base.Run

/-!
# DNS-SD operations

`NsdManager` browses for services or registers one.  For each service that is announced it resolves
the name and then asks for the address, all by `DNSServiceRef`s whose replies the thread of an
`NsdEventLoop` calls; a record on the heap goes with each operation as the context of its replies.

A stop joins the thread, so that no reply runs at the same time as a call, and the destructor is
taken as one step.  A ref calls back only as long as it is watched and not deallocated.  The
callbacks of the user throw nothing and call nothing of `NsdManager`.
-/

namespace Beyond
namespace Discovery
namespace NsdManager

open Errno

/-! ## Records and refs -/

structure DiscoveryInfo (α : Type*) where
  name : String
  port : Nat
  uuid : String
  address : Option α
  deriving DecidableEq, Repr

/-- `DiscoveryInfo::DiscoveryInfo`. -/
def DiscoveryInfo.new (α : Type*) : DiscoveryInfo α := ⟨"BeyonD", 3000, "", none⟩

/-- `NsdDiscoverData`, `NsdResolveData` and `NsdRegisterData`; `false` is an empty callback. -/
inductive Record (α : Type*)
  | discover (discovered : Bool)
  | resolve (info : DiscoveryInfo α) (resolved : Bool)
  | register (registered : Bool)
  deriving DecidableEq, Repr

/-- The function that a ref calls back. -/
inductive Reply
  | discover
  | resolve
  | addrinfo
  | register
  deriving DecidableEq, Repr

/-- A `DNSServiceRef`; `fd` is its `DNSServiceRefSockFD`. -/
structure Ref where
  reply : Reply
  context : Nat
  fd : Int
  deriving DecidableEq, Repr

/-- The `BEYOND_EVENT_TYPE_DISCOVERY_*` that are published. -/
inductive DiscoveryEvent
  | discovered
  | removed
  | error
  deriving DecidableEq, Repr

/-- A call of a callback of the user. -/
inductive Published (α : Type*)
  | info (event : DiscoveryEvent) (info : DiscoveryInfo α)
  | registered (name : String)
  deriving DecidableEq, Repr

inductive Fault
  /-- A record was used behind its deletion. -/
  | used (record : Nat)
  | deletedTwice (record : Nat)
  | deallocatedTwice (ref : Nat)
  /-- `std::bad_function_call` leaves a reply. -/
  | badFunctionCall
  /-- An `NsdLoopException` leaves a reply. -/
  | loopException
  deriving DecidableEq, Repr

/-- Records and refs are numbered as they are made; `record` is `none` behind the deletion.
`answered` are the refs of resolve and register operations that have been replied to. -/
structure State (α : Type*) where
  created : Nat
  record : Nat → Option (Record α)
  refs : Nat
  ref : Nat → Ref
  deallocated : Nat → Bool
  callbackMap : Int → Option Nat
  /-- There is a thread, and `looprun_fd` is set. -/
  running : Bool
  svc : Option Nat
  callbackData : Option Nat
  destroyed : Bool
  answered : List Nat
  published : List (Published α)
  faults : List Fault

variable {α : Type*}

namespace State

def fail (s : State α) (f : Fault) : State α := { s with faults := s.faults ++ [f] }

def publish (s : State α) (p : Published α) : State α := { s with published := s.published ++ [p] }

def setSvc (s : State α) (svc : Option Nat) : State α := { s with svc := svc }

def setData (s : State α) (callbackData : Option Nat) : State α :=
  { s with callbackData := callbackData }

def setMap (s : State α) (fd : Int) (r : Option Nat) : State α :=
  { s with callbackMap := Function.update s.callbackMap fd r }

def setRecord (s : State α) (d : Nat) (r : Record α) : State α :=
  { s with record := Function.update s.record d (some r) }

def setRunning (s : State α) (running : Bool) : State α := { s with running := running }

def answer (s : State α) (r : Nat) : State α := { s with answered := r :: s.answered }

/-- `new`; the record has the number `s.created`. -/
def newRecord (s : State α) (d : Record α) : State α :=
  { s with created := s.created + 1, record := Function.update s.record s.created (some d) }

/-- `delete`. -/
def delete (s : State α) (d : Nat) : State α :=
  match s.record d with
  | none => s.fail (.deletedTwice d)
  | some _ => { s with record := Function.update s.record d none }

/-- `delete callbackData`. -/
def deleteData (s : State α) : State α :=
  match s.callbackData with
  | none => s
  | some d => s.delete d

/-- A call of the library that makes a ref, with the number `s.refs`. -/
def newRef (s : State α) (r : Ref) : State α :=
  { s with
    refs := s.refs + 1
    ref := Function.update s.ref s.refs r
    deallocated := Function.update s.deallocated s.refs false }

/-- A new record and the call of the library that makes `svc` with it. -/
def opened (s : State α) (d : Record α) (reply : Reply) (fd : Int) : State α :=
  ((s.newRecord d).newRef ⟨reply, s.created, fd⟩).setSvc (some s.refs)

/-- `DNSServiceRefDeallocate`. -/
def deallocate (s : State α) (r : Nat) : State α :=
  if s.deallocated r then s.fail (.deallocatedTwice r)
  else { s with deallocated := Function.update s.deallocated r true }

/-- `NsdManager::NsdManager`. -/
def start : State α :=
  { created := 0
    record := fun _ => none
    refs := 0
    ref := fun _ => ⟨.discover, 0, 0⟩
    deallocated := fun _ => false
    callbackMap := fun _ => none
    running := false
    svc := none
    callbackData := none
    destroyed := false
    answered := []
    published := []
    faults := [] }

end State

/-! ## `NsdEventLoop` -/

/-- `errno` of `epoll_ctl` in `addWatch`, whether `run` gets an `eventfd`, and `errno` of `epoll_ctl`
in `run`. -/
structure LoopResults where
  watch : Option Int
  eventfd : Bool
  run : Option Int

/-- The callback for a descriptor processes the results of the ref. -/
def addWatch (s : State α) (fd : Int) (r : Nat) (errno : Option Int) : Except Int (State α) :=
  if s.callbackMap fd ≠ none then .error (-EEXIST)
  else
    match errno with
    | some e => .error (-e)
    | none => .ok (s.setMap fd (some r))

def delWatch (s : State α) (fd : Int) : Except Int (State α) :=
  match s.callbackMap fd with
  | none => .error (-ENOENT)
  | some _ => .ok (s.setMap fd none)

def run (s : State α) (c : LoopResults) : Except Int (State α) :=
  if c.eventfd = false then .error (-EFAULT)
  else
    match c.run with
    | some e => .error (-e)
    | none => .ok (s.setRunning true)

/-- The write to the new `eventfd` does not fail. -/
def quit (s : State α) : State α := s.setRunning false

/-! ## Calls -/

def stopService (s : State α) : State α × Int :=
  match s.svc with
  | none => (s, -EALREADY)
  | some r =>
      match delWatch (quit s) (s.ref r).fd with
      | .ok t => ((t.deallocate r).setSvc none, 0)
      | .error e => (((quit s).deallocate r).setSvc none, e)

def stopServiceDiscovery (s : State α) : State α × Int :=
  let (t, ret) := stopService s
  (t.deleteData.setData none, ret)

def unregisterService (s : State α) : State α × Int := stopService s

/-- The `try` block of `discoverServices` and `registerService`; `some` is the exception that it
throws. -/
def startLoop (s : State α) (r : Nat) (c : LoopResults) : State α × Option Int :=
  match addWatch s (s.ref r).fd r c.watch with
  | .error e => (s, some e)
  | .ok t =>
      match run t c with
      | .error e => (t, some e)
      | .ok u => (u, none)

/-- `browse` is the descriptor of the ref that `DNSServiceBrowse` makes, unless it fails. -/
def discoverServices (s : State α) (cb : Bool) (browse : Option Int) (c : LoopResults) :
    State α × Int :=
  if s.svc.isSome then (s, -EALREADY)
  else
    let cbData := s.created
    let svc := s.refs
    match browse with
    | none => ((s.newRecord (.discover cb)).delete cbData, -EFAULT)
    | some fd =>
        let t := (s.opened (.discover cb) .discover fd).deleteData.setData (some cbData)
        match startLoop t svc c with
        | (u, none) => (u, 0)
        | (u, some e) => ((stopServiceDiscovery u).1, e)

/-- `txtRecord` has the result of `TXTRecordSetValue` for each value of the service. -/
def registerService (s : State α) (cb : Bool) (txtRecord : List Bool) (register : Option Int)
    (c : LoopResults) : State α × Int :=
  if s.svc.isSome then (s, -EALREADY)
  else
    let svc := s.refs
    if txtRecord.all id = false then (s.newRecord (.register cb), -1)
    else
      match register with
      | none => (s.newRecord (.register cb), -1)
      | some fd =>
          match startLoop (s.opened (.register cb) .register fd) svc c with
          | (t, none) => (t, 0)
          | (t, some e) => ((unregisterService t).1, e)

/-! ## Replies -/

def resolveService (s : State α) (serviceName : String) (cb : Bool) (resolve errno : Option Int) :
    State α × Int :=
  let cbData := s.created
  let extraSvc := s.refs
  let t := s.newRecord (.resolve { DiscoveryInfo.new α with name := serviceName } cb)
  match resolve with
  | none => (t.delete cbData, -EFAULT)
  | some fd =>
      let u := t.newRef ⟨.resolve, cbData, fd⟩
      match addWatch u fd extraSvc errno with
      -- The ref is not deallocated.
      | .error _ => (u.delete cbData, -EFAULT)
      | .ok v => (v, 0)

/-- `add` is `kDNSServiceFlagsAdd`. -/
def discover_reply (s : State α) (sdRef : Nat) (add : Bool) (serviceName : String)
    (resolve errno : Option Int) : State α :=
  let cbData := (s.ref sdRef).context
  match s.record cbData with
  | some (.discover discovered) =>
      if add then
        let (t, ret) := resolveService s serviceName discovered resolve errno
        if ret < 0 ∧ discovered then
          t.publish (.info .error { DiscoveryInfo.new α with name := serviceName, port := 0 })
        else t
      else if discovered then
        s.publish (.info .removed { DiscoveryInfo.new α with name := serviceName })
      else s.fail .badFunctionCall
  | _ => s.fail (.used cbData)

def ntohs (port : Nat) : Nat := port % 256 * 256 + port / 256 % 256

/-- No reply looks at its `errorCode`, and this one does not deallocate its ref. -/
def resolve_reply (s : State α) (sdref : Nat) (uuid : Option String) (opaqueport : Nat)
    (getAddrInfo errno : Option Int) : State α :=
  let cbData := (s.ref sdref).context
  match s.record cbData with
  | some (.resolve info resolved) =>
      if resolved = false then s
      else
        let info := { info with uuid := uuid.getD info.uuid, port := ntohs opaqueport }
        let extraSvc := s.refs
        let t := s.setRecord cbData (.resolve info resolved)
        match getAddrInfo with
        | none => (t.publish (.info .error info)).delete cbData
        | some fd =>
            let u := t.newRef ⟨.addrinfo, cbData, fd⟩
            match addWatch u fd extraSvc errno with
            | .error _ => (u.publish (.info .error info)).delete cbData
            | .ok v => v
  | _ => s.fail (.used cbData)

def addrinfo_reply (s : State α) (sdref : Nat) (address : Option α) : State α :=
  let cbData := (s.ref sdref).context
  match s.record cbData with
  | some (.resolve info resolved) =>
      if resolved = false then s
      else
        match delWatch s (s.ref sdref).fd with
        | .error _ => s.fail .loopException
        | .ok t =>
            ((t.deallocate sdref).publish
              (.info .discovered { info with address := address })).delete cbData
  | _ => s.fail (.used cbData)

def register_reply (s : State α) (sdref : Nat) (name : String) : State α :=
  let cbData := (s.ref sdref).context
  match s.record cbData with
  | some (.register registered) =>
      (if registered then s.publish (.registered name) else s).delete cbData
  | _ => s.fail (.used cbData)

/-- `NsdManager::~NsdManager`, with the destructor of its event loop. -/
def destroy (s : State α) : State α :=
  let t := match s.svc with
    | none => s
    | some r => s.deallocate r
  { t.setRunning false with destroyed := true }

/-! ## Steps -/

inductive Act (α : Type*)
  | discoverServices (cb : Bool) (browse : Option Int) (c : LoopResults)
  | stopServiceDiscovery
  | registerService (cb : Bool) (txtRecord : List Bool) (register : Option Int) (c : LoopResults)
  | unregisterService
  | discover_reply (sdRef : Nat) (add : Bool) (serviceName : String) (resolve errno : Option Int)
  | resolve_reply (sdref : Nat) (uuid : Option String) (opaqueport : Nat)
      (getAddrInfo errno : Option Int)
  | addrinfo_reply (sdref : Nat) (address : Option α)
  | register_reply (sdref : Nat) (name : String)
  | destroy

/-- The descriptor of a new ref belongs to no ref that has not been deallocated. -/
def Unused (s : State α) (fd : Option Int) : Prop :=
  ∀ r < s.refs, s.deallocated r = false → fd ≠ some (s.ref r).fd

/-- The thread of the event loop processes the results of a ref, which calls `reply`. -/
def CallsBack (s : State α) (r : Nat) (reply : Reply) : Prop :=
  s.running = true ∧ r < s.refs ∧ s.deallocated r = false ∧
    s.callbackMap (s.ref r).fd = some r ∧ (s.ref r).reply = reply

instance (s : State α) (fd : Option Int) : Decidable (Unused s fd) :=
  inferInstanceAs (Decidable (∀ r < s.refs, _))

instance (s : State α) (r : Nat) (reply : Reply) : Decidable (CallsBack s r reply) :=
  inferInstanceAs (Decidable (_ ∧ _))

def step (s : State α) (a : Act α) : Option (State α) :=
  if s.destroyed then none
  else
    match a with
    | .discoverServices cb browse c =>
        if Unused s browse then some (discoverServices s cb browse c).1 else none
    | .stopServiceDiscovery => some (stopServiceDiscovery s).1
    | .registerService cb txtRecord register c =>
        if Unused s register then some (registerService s cb txtRecord register c).1 else none
    | .unregisterService => some (unregisterService s).1
    | .discover_reply r add serviceName resolve errno =>
        if CallsBack s r .discover ∧ Unused s resolve then
          some (discover_reply s r add serviceName resolve errno)
        else none
    | .resolve_reply r uuid opaqueport getAddrInfo errno =>
        if CallsBack s r .resolve ∧ Unused s getAddrInfo then
          some ((resolve_reply s r uuid opaqueport getAddrInfo errno).answer r)
        else none
    | .addrinfo_reply r address =>
        if CallsBack s r .addrinfo then some (addrinfo_reply s r address) else none
    | .register_reply r name =>
        if CallsBack s r .register then some ((register_reply s r name).answer r) else none
    | .destroy => some (destroy s)

/-! ## What is claimed -/

/-- Nothing is used or released behind its release, and no exception leaves a reply.  Behind the
destructor every record is deleted, and every ref is deallocated and not watched any more. -/
structure Sound (s : State α) : Prop where
  faults : s.faults = []
  records : s.destroyed = true → ∀ d < s.created, s.record d = none
  refs : s.destroyed = true → ∀ r < s.refs, s.deallocated r = true ∧
    ∀ fd, s.callbackMap fd ≠ some r

/-- A registration that has been replied to, whose record is therefore deleted. -/
def Answered (s : State α) : Prop :=
  ∀ r, s.svc = some r → (s.ref r).reply = .register → s.record (s.ref r).context = none

def Keeps (s : State α) : Act α → Prop
  | .discoverServices _ _ _ => True
  | .stopServiceDiscovery => Answered s
  | .unregisterService => Answered s
  | .registerService _ txtRecord register c => s.svc = none →
      txtRecord.all id = true ∧ register.isSome = true ∧ c.watch = none ∧ c.eventfd = true ∧
        c.run = none
  | .discover_reply r add _ resolve _ =>
      if add then resolve = none else s.record (s.ref r).context ≠ some (.discover false)
  | .resolve_reply _ _ _ _ _ => True
  | .addrinfo_reply _ _ => True
  | .register_reply r _ => s.record (s.ref r).context ≠ none
  | .destroy => s.svc = none ∧ s.callbackData = none

/-! ## What a step can do -/

variable {s t : State α}

structure Shape (s : State α) : Prop where
  fresh : ∀ d, s.created ≤ d → s.record d = none
  data : ∀ d, s.callbackData = some d → d < s.created
  context : ∀ r < s.refs, (s.ref r).context < s.created
  svc : ∀ r, s.svc = some r →
    r < s.refs ∧ ((s.ref r).reply = .discover ∨ (s.ref r).reply = .register)

theorem shape_start : Shape (State.start : State α) :=
  ⟨fun _ _ => rfl, nofun, nofun, nofun⟩

/-- The manager or an operation that goes on still has the record. -/
def Held (s : State α) (d : Nat) : Prop :=
  s.callbackData = some d ∨
    ∃ r < s.refs, s.deallocated r = false ∧ (s.ref r).context = d

/-- What the calls and the replies leave alone on their way from `s` to `t`. -/
structure Effect (s t : State α) : Prop where
  shape : Shape t
  faults : s.faults <+: t.faults
  refs : s.refs ≤ t.refs
  created : s.created ≤ t.created
  ref : ∀ r < s.refs, t.ref r = s.ref r
  resolving : ∀ r < s.refs, (s.ref r).reply = .resolve → s.deallocated r = false →
    t.deallocated r = false
  deallocated : ∀ r < s.refs, s.deallocated r = true → t.deallocated r = true
  record : ∀ d < s.created, ¬ Held s d → s.record d ≠ none → t.record d ≠ none
  data : ∀ d, t.callbackData = some d → s.callbackData = some d ∨ s.created ≤ d
  context : ∀ r, s.refs ≤ r → r < t.refs →
    s.created ≤ (t.ref r).context ∨ Held s (t.ref r).context

namespace Effect

theorem refl (hs : Shape s) : Effect s s :=
  ⟨hs, List.prefix_rfl, le_rfl, le_rfl, fun _ _ => rfl, fun _ _ _ h => h, fun _ _ h => h,
    fun _ _ _ h => h, fun _ h => .inl h, fun _ hle hlt => absurd hlt (not_lt.2 hle)⟩

theorem fail (h : Effect s t) (f : Fault) : Effect s (t.fail f) :=
  { h with
    shape := ⟨h.shape.fresh, h.shape.data, h.shape.context, h.shape.svc⟩
    faults := h.faults.trans (List.prefix_append _ _) }

theorem publish (h : Effect s t) (p : Published α) : Effect s (t.publish p) :=
  { h with shape := ⟨h.shape.fresh, h.shape.data, h.shape.context, h.shape.svc⟩ }

theorem setMap (h : Effect s t) (fd : Int) (r : Option Nat) : Effect s (t.setMap fd r) :=
  { h with shape := ⟨h.shape.fresh, h.shape.data, h.shape.context, h.shape.svc⟩ }

theorem setRunning (h : Effect s t) (b : Bool) : Effect s (t.setRunning b) :=
  { h with shape := ⟨h.shape.fresh, h.shape.data, h.shape.context, h.shape.svc⟩ }

theorem destroyed (h : Effect s t) (b : Bool) : Effect s { t with destroyed := b } :=
  { h with shape := ⟨h.shape.fresh, h.shape.data, h.shape.context, h.shape.svc⟩ }

theorem answer (h : Effect s t) (r : Nat) : Effect s (t.answer r) :=
  { h with shape := ⟨h.shape.fresh, h.shape.data, h.shape.context, h.shape.svc⟩ }

theorem newRecord (h : Effect s t) (d : Record α) : Effect s (t.newRecord d) :=
  { h with
    shape :=
      { fresh := fun e he => by
          have hne : e ≠ t.created := by
            simp only [State.newRecord] at he
            omega
          simpa [State.newRecord, Function.update_of_ne hne] using
            h.shape.fresh e (by simp only [State.newRecord] at he; omega)
        data := fun e he => Nat.lt_succ_of_lt (h.shape.data e he)
        context := fun r hr => Nat.lt_succ_of_lt (h.shape.context r hr)
        svc := h.shape.svc }
    created := Nat.le_succ_of_le h.created
    record := fun e he hheld hne => by
      have hlt : e ≠ t.created := (lt_of_lt_of_le he h.created).ne
      simpa [State.newRecord, Function.update_of_ne hlt] using h.record e he hheld hne }

theorem delete (h : Effect s t) {d : Nat} (hd : s.created ≤ d ∨ Held s d) :
    Effect s (t.delete d) := by
  unfold State.delete
  split
  · exact h.fail _
  · refine { h with
      shape := ⟨fun e he => ?_, h.shape.data, h.shape.context, h.shape.svc⟩
      record := fun e he hheld hne => ?_ }
    · by_cases hed : e = d
      · simp [hed]
      · simpa [Function.update_of_ne hed] using h.shape.fresh e he
    · have hed : e ≠ d := by
        rintro rfl
        rcases hd with hd | hd
        · omega
        · exact hheld hd
      simpa [Function.update_of_ne hed] using h.record e he hheld hne

theorem setRecord (h : Effect s t) {d : Nat} {r : Record α} (hd : d < t.created) :
    Effect s (t.setRecord d r) := by
  refine { h with
    shape := ⟨fun e he => ?_, h.shape.data, h.shape.context, h.shape.svc⟩
    record := fun e he hheld hne => ?_ }
  · have hed : e ≠ d := by
      rintro rfl
      exact absurd hd (not_lt.2 he)
    simpa [State.setRecord, Function.update_of_ne hed] using h.shape.fresh e he
  · by_cases hed : e = d
    · simp [State.setRecord, hed]
    · simpa [State.setRecord, Function.update_of_ne hed] using h.record e he hheld hne

theorem newRef (h : Effect s t) {r : Ref} (hlt : r.context < t.created)
    (hcontext : s.created ≤ r.context ∨ Held s r.context) : Effect s (t.newRef r) := by
  have hold : ∀ q, q < t.refs → q ≠ t.refs := fun q hq => hq.ne
  refine { h with
    shape := ⟨h.shape.fresh, h.shape.data, fun q hq => ?_, fun q hq => ?_⟩
    refs := Nat.le_succ_of_le h.refs
    ref := fun q hq => ?_
    resolving := fun q hq hreply hlive => ?_
    deallocated := fun q hq hdead => ?_
    context := fun q hle hq => ?_ }
  · by_cases hqr : q = t.refs
    · simpa [State.newRef, hqr] using hlt
    · have hq' : q < t.refs := by
        simp only [State.newRef] at hq
        omega
      simpa [State.newRef, Function.update_of_ne hqr] using h.shape.context q hq'
  · rcases h.shape.svc q hq with ⟨hq', hreply⟩
    exact ⟨Nat.lt_succ_of_lt hq', by
      simpa [State.newRef, Function.update_of_ne (hold q hq')] using hreply⟩
  · have hq' := hold q (lt_of_lt_of_le hq h.refs)
    simpa [State.newRef, Function.update_of_ne hq'] using h.ref q hq
  · have hq' := hold q (lt_of_lt_of_le hq h.refs)
    simpa [State.newRef, Function.update_of_ne hq'] using h.resolving q hq hreply hlive
  · have hq' := hold q (lt_of_lt_of_le hq h.refs)
    simpa [State.newRef, Function.update_of_ne hq'] using h.deallocated q hq hdead
  · by_cases hqr : q = t.refs
    · simpa [State.newRef, hqr] using hcontext
    · have hq' : q < t.refs := by
        simp only [State.newRef] at hq
        omega
      simpa [State.newRef, Function.update_of_ne hqr] using h.context q hle hq'

theorem deallocate (h : Effect s t) {r : Nat}
    (hr : r < s.refs → (s.ref r).reply ≠ .resolve) : Effect s (t.deallocate r) := by
  unfold State.deallocate
  split
  · exact h.fail _
  · refine { h with
      shape := ⟨h.shape.fresh, h.shape.data, h.shape.context, h.shape.svc⟩
      resolving := fun q hq hreply hlive => ?_
      deallocated := fun q hq hdead => ?_ }
    · have hqr : q ≠ r := by
        rintro rfl
        exact hr hq hreply
      simpa [Function.update_of_ne hqr] using h.resolving q hq hreply hlive
    · by_cases hqr : q = r
      · simp [hqr]
      · simpa [Function.update_of_ne hqr] using h.deallocated q hq hdead

theorem setSvc (h : Effect s t) {o : Option Nat} (ho : ∀ r, o = some r →
    r < t.refs ∧ ((t.ref r).reply = .discover ∨ (t.ref r).reply = .register)) :
    Effect s (t.setSvc o) :=
  { h with shape := ⟨h.shape.fresh, h.shape.data, h.shape.context, ho⟩ }

theorem setData (h : Effect s t) {o : Option Nat}
    (ho : ∀ d, o = some d → d < t.created ∧ s.created ≤ d) :
    Effect s (t.setData o) :=
  { h with
    shape := ⟨h.shape.fresh, fun d hd => (ho d hd).1, h.shape.context, h.shape.svc⟩
    data := fun d hd => .inr (ho d hd).2 }

theorem opened (hs : Shape s) (d : Record α) {reply : Reply} (fd : Int)
    (hreply : reply = .discover ∨ reply = .register) : Effect s (s.opened d reply fd) := by
  refine (((refl hs).newRecord d).newRef (Nat.lt_succ_self _) (.inl le_rfl)).setSvc ?_
  rintro r hr
  cases hr
  exact ⟨Nat.lt_succ_self _, by simpa [State.newRef, State.newRecord] using hreply⟩

end Effect

theorem addWatch_ok {fd : Int} {r : Nat} {errno : Option Int} (h : addWatch s fd r errno = .ok t) :
    s.callbackMap fd = none ∧ errno = none ∧
      t = s.setMap fd (some r) := by
  unfold addWatch at h
  split at h
  · cases h
  · rename_i hnone
    cases errno with
    | some e => cases h
    | none => exact ⟨not_not.1 hnone, rfl, (Except.ok.inj h).symm⟩

theorem delWatch_ok {fd : Int} (h : delWatch s fd = .ok t) :
    t = s.setMap fd none := by
  unfold delWatch at h
  split at h
  · cases h
  · exact (Except.ok.inj h).symm

theorem run_ok {c : LoopResults} (h : run s c = .ok t) : t = s.setRunning true := by
  unfold run at h
  split at h
  · cases h
  · split at h
    · cases h
    · exact (Except.ok.inj h).symm

theorem effect_startLoop {r : Nat} {c : LoopResults} (h : Effect s t) :
    Effect s (startLoop t r c).1 := by
  unfold startLoop
  split
  · exact h
  · rename_i u hu
    rcases addWatch_ok hu with ⟨-, -, rfl⟩
    split
    · exact h.setMap _ _
    · rename_i v hv
      rw [run_ok hv]
      exact (h.setMap _ _).setRunning true

theorem effect_stopService (h : Effect s t) : Effect s (stopService t).1 := by
  unfold stopService
  split
  · exact h
  · rename_i r hsvc
    have hreply : r < s.refs → (s.ref r).reply ≠ .resolve := by
      intro hlt hresolve
      rcases h.shape.svc r hsvc with ⟨-, hr⟩
      rw [h.ref r hlt, hresolve] at hr
      rcases hr with hr | hr <;> cases hr
    split
    · rename_i u hu
      rw [delWatch_ok hu]
      exact (((h.setRunning false).setMap _ _).deallocate hreply).setSvc nofun
    · exact ((h.setRunning false).deallocate hreply).setSvc nofun

theorem effect_deleteData (h : Effect s t) : Effect s t.deleteData := by
  unfold State.deleteData
  split
  · exact h
  · rename_i d hd
    rcases h.data d hd with hold | hnew
    · exact h.delete (.inr (.inl hold))
    · exact h.delete (.inl hnew)

theorem effect_stopServiceDiscovery (h : Effect s t) : Effect s (stopServiceDiscovery t).1 :=
  (effect_deleteData (effect_stopService h)).setData nofun

theorem deleteData_frame : s.deleteData.created = s.created ∧ s.deleteData.svc = s.svc ∧
    s.deleteData.ref = s.ref := by
  unfold State.deleteData
  split
  · exact ⟨rfl, rfl, rfl⟩
  · unfold State.delete
    split <;> exact ⟨rfl, rfl, rfl⟩

theorem effect_discoverServices (hs : Shape s) {cb : Bool} {browse : Option Int}
    {c : LoopResults} : Effect s (discoverServices s cb browse c).1 := by
  have hrecord := (Effect.refl hs).newRecord (.discover cb)
  unfold discoverServices
  split
  · exact .refl hs
  · cases browse with
    | none => exact hrecord.delete (.inl le_rfl)
    | some fd =>
        have hopened := Effect.opened hs (.discover cb) fd (.inl rfl)
        have hdata := (effect_deleteData hopened).setData (o := some s.created) (by
          rintro d hd
          cases hd
          refine ⟨?_, le_rfl⟩
          rw [deleteData_frame.1]
          exact Nat.lt_succ_self _)
        have hloop := effect_startLoop (r := s.refs) (c := c) hdata
        simp only
        split
        · rename_i u hu
          rw [hu] at hloop
          exact hloop
        · rename_i u e hu
          rw [hu] at hloop
          exact effect_stopServiceDiscovery hloop

theorem effect_registerService (hs : Shape s) {cb : Bool} {txtRecord : List Bool}
    {register : Option Int} {c : LoopResults} :
    Effect s (registerService s cb txtRecord register c).1 := by
  have hrecord := (Effect.refl hs).newRecord (.register cb)
  unfold registerService
  split
  · exact .refl hs
  · simp only
    split
    · exact hrecord
    · cases register with
      | none => exact hrecord
      | some fd =>
          have hopened := Effect.opened hs (.register cb) fd (.inr rfl)
          have hloop := effect_startLoop (r := s.refs) (c := c) hopened
          simp only
          split
          · rename_i u hu
            rw [hu] at hloop
            exact hloop
          · rename_i u e hu
            rw [hu] at hloop
            exact effect_stopService hloop

theorem effect_resolveService (hs : Shape s) {serviceName : String} {cb : Bool}
    {resolve errno : Option Int} :
    Effect s (resolveService s serviceName cb resolve errno).1 := by
  have hrecord := (Effect.refl hs).newRecord
    (.resolve { DiscoveryInfo.new α with name := serviceName } cb)
  unfold resolveService
  cases resolve with
  | none => exact hrecord.delete (.inl le_rfl)
  | some fd =>
      have href := hrecord.newRef (r := ⟨.resolve, s.created, fd⟩) (Nat.lt_succ_self _)
        (.inl le_rfl)
      simp only
      split
      · exact href.delete (.inl le_rfl)
      · rename_i u hu
        rw [(addWatch_ok hu).2.2]
        exact href.setMap _ _

theorem effect_discover_reply (hs : Shape s) {r : Nat} {add : Bool} {serviceName : String}
    {resolve errno : Option Int} : Effect s (discover_reply s r add serviceName resolve errno) := by
  unfold discover_reply
  simp only
  split
  · rename_i discovered hrecord
    cases add with
    | true =>
        have hresolve : Effect s (resolveService s serviceName discovered resolve errno).1 :=
          effect_resolveService hs
        simp only [if_true]
        split
        · exact hresolve.publish _
        · exact hresolve
    | false =>
        cases discovered with
        | true => exact (Effect.refl hs).publish _
        | false => exact (Effect.refl hs).fail _
  · exact (Effect.refl hs).fail _

theorem held_of_callsBack {r : Nat} {reply : Reply} (h : CallsBack s r reply) :
    Held s (s.ref r).context :=
  .inr ⟨r, h.2.1, h.2.2.1, rfl⟩

theorem effect_resolve_reply (hs : Shape s) {r : Nat} (hr : CallsBack s r .resolve)
    {uuid : Option String} {opaqueport : Nat} {getAddrInfo errno : Option Int} :
    Effect s (resolve_reply s r uuid opaqueport getAddrInfo errno) := by
  have hheld := held_of_callsBack hr
  have hlt := hs.context r hr.2.1
  unfold resolve_reply
  simp only
  split
  · rename_i info resolved hrecord
    split
    · exact .refl hs
    · have hset := (Effect.refl hs).setRecord hlt (r := .resolve
        { info with uuid := uuid.getD info.uuid, port := ntohs opaqueport } resolved)
      cases getAddrInfo with
      | none => exact (hset.publish _).delete (.inr hheld)
      | some fd =>
          have href := hset.newRef (r := ⟨.addrinfo, (s.ref r).context, fd⟩) hlt (.inr hheld)
          simp only
          split
          · exact (href.publish _).delete (.inr hheld)
          · rename_i u hu
            rw [(addWatch_ok hu).2.2]
            exact href.setMap _ _
  · exact (Effect.refl hs).fail _

theorem effect_addrinfo_reply (hs : Shape s) {r : Nat} (hr : CallsBack s r .addrinfo)
    {address : Option α} : Effect s (addrinfo_reply s r address) := by
  unfold addrinfo_reply
  simp only
  split
  · split
    · exact .refl hs
    · split
      · exact (Effect.refl hs).fail _
      · rename_i u hu
        rw [delWatch_ok hu]
        have hreply : r < s.refs → (s.ref r).reply ≠ .resolve := by
          intro _ hresolve
          rw [hr.2.2.2.2] at hresolve
          cases hresolve
        exact ((((Effect.refl hs).setMap _ _).deallocate hreply).publish _).delete
          (.inr (held_of_callsBack hr))
  · exact (Effect.refl hs).fail _

theorem effect_register_reply (hs : Shape s) {r : Nat} (hr : CallsBack s r .register)
    {name : String} : Effect s (register_reply s r name) := by
  have hheld := held_of_callsBack hr
  unfold register_reply
  simp only
  split
  · rename_i registered hrecord
    cases registered with
    | true => exact ((Effect.refl hs).publish _).delete (.inr hheld)
    | false => exact (Effect.refl hs).delete (.inr hheld)
  · exact (Effect.refl hs).fail _

theorem effect_destroy (hs : Shape s) : Effect s (destroy s) := by
  unfold destroy
  simp only
  split
  · exact ((Effect.refl hs).setRunning false).destroyed true
  · rename_i r hsvc
    have hreply : r < s.refs → (s.ref r).reply ≠ .resolve := by
      intro _ hresolve
      rcases (hs.svc r hsvc).2 with hr | hr <;> rw [hresolve] at hr <;> cases hr
    exact (((Effect.refl hs).deallocate hreply).setRunning false).destroyed true

theorem effect_step {a : Act α} (hs : Shape s) (h : step s a = some t) : Effect s t := by
  unfold step at h
  split at h
  · cases h
  · cases a with
    | discoverServices cb browse c =>
        simp only at h
        split at h
        · cases h
          exact effect_discoverServices hs
        · cases h
    | stopServiceDiscovery =>
        cases h
        exact effect_stopServiceDiscovery (.refl hs)
    | registerService cb txtRecord register c =>
        simp only at h
        split at h
        · cases h
          exact effect_registerService hs
        · cases h
    | unregisterService =>
        cases h
        exact effect_stopService (.refl hs)
    | discover_reply r add serviceName resolve errno =>
        simp only at h
        split at h
        · cases h
          exact effect_discover_reply hs
        · cases h
    | resolve_reply r uuid opaqueport getAddrInfo errno =>
        simp only at h
        split at h
        · rename_i hr
          cases h
          exact (effect_resolve_reply hs hr.1).answer r
        · cases h
    | addrinfo_reply r address =>
        simp only at h
        split at h
        · rename_i hr
          cases h
          exact effect_addrinfo_reply hs hr
        · cases h
    | register_reply r name =>
        simp only at h
        split at h
        · rename_i hr
          cases h
          exact (effect_register_reply hs hr).answer r
        · cases h
    | destroy =>
        cases h
        exact effect_destroy hs

/-! ## What is lost stays lost -/

/-- A record that nobody can delete any more. -/
def Lost (s : State α) (d : Nat) : Prop := d < s.created ∧ ¬ Held s d ∧ s.record d ≠ none

/-- Something has gone wrong that nothing can make good. -/
def Damaged (s : State α) : Prop :=
  s.faults ≠ [] ∨ (∃ d, Lost s d) ∨
    ∃ r < s.refs, (s.ref r).reply = .resolve ∧ s.deallocated r = false

theorem Effect.not_held (h : Effect s t) {d : Nat} (hd : d < s.created) (hheld : ¬ Held s d) :
    ¬ Held t d := by
  rintro (hdata | ⟨r, hr, hlive, rfl⟩)
  · rcases h.data d hdata with hold | hnew
    · exact hheld (.inl hold)
    · omega
  · rcases Nat.lt_or_ge r s.refs with hlt | hge
    · rw [h.ref r hlt] at hheld
      refine hheld (.inr ⟨r, hlt, ?_, rfl⟩)
      rw [Bool.eq_false_iff]
      intro hdead
      rw [h.deallocated r hlt hdead] at hlive
      cases hlive
    · rcases h.context r hge hr with hnew | hold
      · omega
      · exact hheld hold

theorem Effect.damaged (h : Effect s t) (hs : Damaged s) : Damaged t := by
  rcases hs with hfaults | ⟨d, hlt, hheld, hd⟩ | ⟨r, hlt, hreply, hlive⟩
  · refine .inl fun hnil => hfaults ?_
    exact List.prefix_nil.1 (hnil ▸ h.faults)
  · exact .inr (.inl ⟨d, lt_of_lt_of_le hlt h.created, h.not_held hlt hheld,
      h.record d hlt hheld hd⟩)
  · exact .inr (.inr ⟨r, lt_of_lt_of_le hlt h.refs, by rw [h.ref r hlt, hreply],
      h.resolving r hlt hreply hlive⟩)

theorem Damaged.not_sound (hs : Damaged s) (hdestroyed : s.destroyed = true) : ¬ Sound s := by
  intro hsound
  rcases hs with hfaults | ⟨d, hlt, -, hd⟩ | ⟨r, hlt, -, hlive⟩
  · exact hfaults hsound.faults
  · exact hd (hsound.records hdestroyed d hlt)
  · have hdead := (hsound.refs hdestroyed r hlt).1
    rw [hlive] at hdead
    cases hdead

/-! ## Runs that lose nothing -/

section Opened

variable {x : Record α} {reply : Reply} {fd : Int}

@[simp] theorem opened_created : (s.opened x reply fd).created = s.created + 1 := rfl

@[simp] theorem opened_refs : (s.opened x reply fd).refs = s.refs + 1 := rfl

@[simp] theorem opened_callbackData : (s.opened x reply fd).callbackData = s.callbackData := rfl

@[simp] theorem opened_record_self : (s.opened x reply fd).record s.created = some x := by
  simp [State.opened, State.setSvc, State.newRef, State.newRecord]

theorem opened_record_of_ne {d : Nat} (hd : d ≠ s.created) :
    (s.opened x reply fd).record d = s.record d := by
  simp [State.opened, State.setSvc, State.newRef, State.newRecord, Function.update_of_ne hd]

@[simp] theorem opened_ref_self : (s.opened x reply fd).ref s.refs = ⟨reply, s.created, fd⟩ := by
  simp [State.opened, State.setSvc, State.newRef, State.newRecord]

theorem opened_ref_of_ne {r : Nat} (hr : r ≠ s.refs) : (s.opened x reply fd).ref r = s.ref r := by
  simp [State.opened, State.setSvc, State.newRef, State.newRecord, Function.update_of_ne hr]

@[simp] theorem opened_deallocated_self : (s.opened x reply fd).deallocated s.refs = false := by
  simp [State.opened, State.setSvc, State.newRef, State.newRecord]

theorem opened_deallocated_of_ne {r : Nat} (hr : r ≠ s.refs) :
    (s.opened x reply fd).deallocated r = s.deallocated r := by
  simp [State.opened, State.setSvc, State.newRef, State.newRecord, Function.update_of_ne hr]

end Opened

/-- Every record and every ref that has not been released belongs to the operation of `svc`, or is
`callbackData`. -/
structure Open (s : State α) : Prop where
  going : s.destroyed = false
  faults : s.faults = []
  fresh : ∀ d, s.created ≤ d → s.record d = none
  held : ∀ d, s.record d ≠ none → s.callbackData = some d ∨
    ∃ r, s.svc = some r ∧ (s.ref r).reply = .register ∧ (s.ref r).context = d
  data : ∀ d, s.callbackData = some d → ∃ b, s.record d = some (.discover b)
  refs : ∀ r < s.refs, s.deallocated r = false → s.svc = some r
  watched : ∀ fd r, s.callbackMap fd = some r → s.svc = some r ∧ (s.ref r).fd = fd
  svc : ∀ r, s.svc = some r → r < s.refs ∧ s.deallocated r = false ∧
    ((s.ref r).reply = .discover ∧ s.callbackData = some (s.ref r).context ∨
      (s.ref r).reply = .register ∧ ∀ x, s.record (s.ref r).context = some x →
        ∃ b, x = .register b)

def Watched (s : State α) : Prop := ∀ r, s.svc = some r → s.callbackMap (s.ref r).fd = some r

theorem open_start : Open (State.start : State α) where
  going := rfl
  faults := rfl
  fresh _ _ := rfl
  held _ h := absurd rfl h
  data := nofun
  refs := nofun
  watched := nofun
  svc := nofun

theorem startLoop_cases (s : State α) (r : Nat) (c : LoopResults) :
    ((startLoop s r c).1 = s ∧ (startLoop s r c).2 ≠ none) ∨
    ((startLoop s r c).1 = s.setMap (s.ref r).fd (some r) ∧ (startLoop s r c).2 ≠ none) ∨
    ((startLoop s r c).1 = (s.setMap (s.ref r).fd (some r)).setRunning true ∧
      (startLoop s r c).2 = none) := by
  unfold startLoop
  split
  · exact .inl ⟨rfl, nofun⟩
  · rename_i u hu
    rcases addWatch_ok hu with ⟨-, -, rfl⟩
    split
    · exact .inr (.inl ⟨rfl, nofun⟩)
    · rename_i v hv
      rw [run_ok hv]
      exact .inr (.inr ⟨rfl, rfl⟩)

theorem Open.startLoop (hs : Open s) {r : Nat} (hr : s.svc = some r) (c : LoopResults) :
    Open (startLoop s r c).1 ∧ (startLoop s r c).1.svc = some r ∧
      ((NsdManager.startLoop s r c).2 = none → Watched (NsdManager.startLoop s r c).1) := by
  have hmap : Open (s.setMap (s.ref r).fd (some r)) := by
    refine { hs with watched := fun fd q hq => ?_ }
    by_cases hfd : fd = (s.ref r).fd
    · subst hfd
      have hqr : r = q := by simpa [State.setMap] using hq
      subst hqr
      exact ⟨hr, rfl⟩
    · exact hs.watched fd q (by simpa [State.setMap, Function.update_of_ne hfd] using hq)
  rcases startLoop_cases s r c with ⟨h, hsome⟩ | ⟨h, hsome⟩ | ⟨h, hnone⟩
  · rw [h]
    exact ⟨hs, hr, fun hnone => absurd hnone hsome⟩
  · rw [h]
    exact ⟨hmap, hr, fun hnone => absurd hnone hsome⟩
  · rw [h]
    refine ⟨{ hmap with }, hr, fun _ q hq => ?_⟩
    cases Option.some.inj (hr.symm.trans hq)
    simp [State.setRunning, State.setMap]

/-- `stopService` releases `svc`. -/
theorem stopService_eq {r : Nat} (hr : s.svc = some r) (hlive : s.deallocated r = false) :
    (stopService s).1 = { s with
      running := false
      callbackMap := Function.update s.callbackMap (s.ref r).fd none
      deallocated := Function.update s.deallocated r true
      svc := none } := by
  unfold stopService
  simp only [hr]
  cases hfd : s.callbackMap (s.ref r).fd with
  | none =>
      have hsame : Function.update s.callbackMap (s.ref r).fd none = s.callbackMap := by
        rw [← hfd, Function.update_eq_self]
      simp [delWatch, quit, State.setRunning, hfd, State.deallocate, hlive, State.setSvc, hsame]
  | some q =>
      simp [delWatch, quit, State.setRunning, hfd, State.deallocate, hlive, State.setSvc,
        State.setMap]

theorem Open.stopService (hs : Open s) (hanswered : Answered s) :
    Open (stopService s).1 ∧ (stopService s).1.svc = none := by
  cases hsvc : s.svc with
  | none =>
      have hsame : (NsdManager.stopService s).1 = s := by simp [NsdManager.stopService, hsvc]
      rw [hsame]
      exact ⟨hs, hsvc⟩
  | some r =>
      rcases hs.svc r hsvc with ⟨hlt, hlive, hkind⟩
      rw [stopService_eq hsvc hlive]
      refine ⟨{ hs with
        held := fun d hd => ?_
        refs := fun q hq hlive' => ?_
        watched := fun fd q hq => ?_
        svc := nofun }, rfl⟩
      · rcases hs.held d hd with hdata | ⟨q, hq, hreply, rfl⟩
        · exact .inl hdata
        · exact absurd (hanswered q hq hreply) hd
      · by_cases hqr : q = r
        · simp [hqr] at hlive'
        · have hq' := hs.refs q hq (by simpa [Function.update_of_ne hqr] using hlive')
          exact absurd (Option.some.inj (hq'.symm.trans hsvc)) hqr
      · by_cases hfd : fd = (s.ref r).fd
        · simp [hfd] at hq
        · rcases hs.watched fd q (by simpa [Function.update_of_ne hfd] using hq) with ⟨hq', hfd'⟩
          cases Option.some.inj (hsvc.symm.trans hq')
          exact absurd hfd'.symm hfd

theorem deleteData_eq (hdata : ∀ d, s.callbackData = some d → s.record d ≠ none) :
    s.deleteData = { s with
      record := fun d => if s.callbackData = some d then none else s.record d } := by
  unfold State.deleteData
  split
  · rename_i hnone
    have hsame : (fun d => if s.callbackData = some d then none else s.record d) = s.record := by
      funext d
      simp [hnone]
    rw [hsame]
  · rename_i d hd
    have hupdate : (fun e => if s.callbackData = some e then none else s.record e) =
        Function.update s.record d none := by
      funext e
      by_cases he : e = d
      · simp [he, hd]
      · simp [Function.update_of_ne he, hd, Ne.symm he]
    rw [hupdate]
    cases hrecord : s.record d with
    | none => exact absurd hrecord (hdata d hd)
    | some x => simp [State.delete, hrecord]

theorem Open.data_ne (hs : Open s) (d : Nat) (h : s.callbackData = some d) : s.record d ≠ none := by
  rcases hs.data d h with ⟨b, hb⟩
  simp [hb]

theorem Open.dropData (hs : Open s) (hsvc : s.svc = none) : Open (s.deleteData.setData none) := by
  rw [deleteData_eq hs.data_ne]
  refine { hs with
    fresh := fun d hd => ?_
    held := fun d hd => ?_
    data := nofun
    svc := fun r hr => absurd (hsvc.symm.trans hr) (by simp) }
  · have hnone := hs.fresh d hd
    simp [State.setData, hnone]
  · have hne : s.record d ≠ none := by
      intro hnone
      simp [State.setData, hnone] at hd
    rcases hs.held d hne with hdata | ⟨r, hr, -⟩
    · simp [State.setData, hdata] at hd
    · cases hsvc.symm.trans hr

theorem Open.stopServiceDiscovery (hs : Open s) (hanswered : Answered s) :
    Open (stopServiceDiscovery s).1 ∧ (stopServiceDiscovery s).1.svc = none := by
  rcases hs.stopService hanswered with ⟨hopen, hnone⟩
  refine ⟨hopen.dropData hnone, ?_⟩
  show (NsdManager.stopService s).1.deleteData.svc = none
  rw [deleteData_eq hopen.data_ne]
  exact hnone

/-- The state in which `discoverServices` starts the loop. -/
theorem Open.browsing (hs : Open s) (hsvc : s.svc = none) (cb : Bool) (fd : Int) :
    Open ((s.opened (.discover cb) .discover fd).deleteData.setData (some s.created)) := by
  have hfresh : s.record s.created = none := hs.fresh _ le_rfl
  have hdata : ∀ d, s.callbackData = some d → d ≠ s.created := by
    rintro d hd rfl
    exact hs.data_ne _ hd hfresh
  have hold : ∀ d, s.record d ≠ none → s.callbackData = some d := by
    intro d hd
    rcases hs.held d hd with hdata | ⟨r, hr, -⟩
    · exact hdata
    · cases hsvc.symm.trans hr
  rw [deleteData_eq fun d hd => by rw [opened_record_of_ne (hdata d hd)]; exact hs.data_ne d hd]
  refine ⟨hs.going, hs.faults, fun d hd => ?_, fun d hd => .inl ?_, fun d hd => ⟨cb, ?_⟩,
    fun q hq hlive => ?_, fun f q hq => ?_, fun q hq => ?_⟩
  · have hlt : s.created < d := hd
    have hnone := hs.fresh d hlt.le
    simp [State.setData, opened_record_of_ne hlt.ne', hnone]
  · by_contra hother
    have hdc : d ≠ s.created := fun heq => hother (by rw [heq]; rfl)
    by_cases hdata' : s.callbackData = some d
    · simp [State.setData, hdata'] at hd
    · refine hdata' (hold d fun hnone => ?_)
      simp [State.setData, opened_record_of_ne hdc, hnone] at hd
  · have hdc : s.created = d := by simpa [State.setData] using hd
    subst hdc
    have hne : s.callbackData ≠ some s.created := fun h => hdata _ h rfl
    simp [State.setData, hne]
  · by_cases hqr : q = s.refs
    · rw [hqr]
      rfl
    · have hlt : q < s.refs := by
        have hle : q < s.refs + 1 := hq
        omega
      have hlive' : s.deallocated q = false := by
        simpa [State.setData, opened_deallocated_of_ne hqr] using hlive
      cases hsvc.symm.trans (hs.refs q hlt hlive')
  · cases hsvc.symm.trans (hs.watched f q hq).1
  · cases Option.some.inj hq
    exact ⟨Nat.lt_succ_self _, by simp [State.setData], .inl (by simp [State.setData])⟩

theorem newRecord_delete (hfresh : s.record s.created = none) (x : Record α) :
    (s.newRecord x).delete s.created = { s with created := s.created + 1 } := by
  have hupdate : Function.update s.record s.created none = s.record := by
    rw [← hfresh, Function.update_eq_self]
  simp [State.newRecord, State.delete, hupdate]

/-- `startLoop` changes only the map and the thread. -/
theorem startLoop_frame (s : State α) (r : Nat) (c : LoopResults) :
    ∃ m b, (startLoop s r c).1 = { s with callbackMap := m, running := b } := by
  rcases startLoop_cases s r c with ⟨h, -⟩ | ⟨h, -⟩ | ⟨h, -⟩
  · exact ⟨s.callbackMap, s.running, h⟩
  · exact ⟨_, s.running, h⟩
  · exact ⟨_, true, h⟩

theorem Open.skipRecord (hs : Open s) : Open { s with created := s.created + 1 } :=
  { hs with fresh := fun d hd => hs.fresh d (Nat.le_of_succ_le hd) }

theorem Open.discoverServices (hs : Open s) (hw : Watched s) (cb : Bool) (browse : Option Int)
    (c : LoopResults) : Open (discoverServices s cb browse c).1 ∧
      Watched (NsdManager.discoverServices s cb browse c).1 := by
  unfold NsdManager.discoverServices
  split
  · exact ⟨hs, hw⟩
  · rename_i hsome
    have hsvc : s.svc = none := by simpa using hsome
    cases browse with
    | none =>
        simp only
        rw [newRecord_delete (hs.fresh _ le_rfl)]
        exact ⟨hs.skipRecord, hw⟩
    | some fd =>
        have hloop := (hs.browsing hsvc cb fd).startLoop (r := s.refs) (c := c) deleteData_frame.2.1
        rcases startLoop_frame
          ((s.opened (.discover cb) .discover fd).deleteData.setData (some s.created)) s.refs c with
          ⟨m, b, hframe⟩
        simp only
        split
        · rename_i u hu
          rw [hu] at hloop
          exact ⟨hloop.1, hloop.2.2 rfl⟩
        · rename_i u e hu
          rw [hu] at hloop hframe
          have hanswered : Answered u := by
            intro q hq hreply
            cases Option.some.inj (hloop.2.1.symm.trans hq)
            have hkind : u.ref = (s.opened (.discover cb) .discover fd).ref := by
              rw [show u = _ from hframe]
              exact deleteData_frame.2.2
            rw [hkind, opened_ref_self] at hreply
            cases hreply
          rcases hloop.1.stopServiceDiscovery hanswered with ⟨hstopped, hnone⟩
          exact ⟨hstopped, fun r hr => absurd (hnone.symm.trans hr) (by simp)⟩

/-- The state in which `registerService` starts the loop. -/
theorem Open.registering (hs : Open s) (hsvc : s.svc = none) (cb : Bool) (fd : Int) :
    Open (s.opened (.register cb) .register fd) := by
  have hfresh : s.record s.created = none := hs.fresh _ le_rfl
  refine ⟨hs.going, hs.faults, fun d hd => ?_, fun d hd => ?_, fun d hd => ?_, fun q hq hlive => ?_,
    fun f q hq => ?_, fun q hq => ?_⟩
  · have hlt : s.created < d := hd
    rw [opened_record_of_ne hlt.ne']
    exact hs.fresh d hlt.le
  · by_cases hdc : d = s.created
    · subst hdc
      exact .inr ⟨s.refs, rfl, by simp, by simp⟩
    · rw [opened_record_of_ne hdc] at hd
      rcases hs.held d hd with hdata | ⟨r, hr, -⟩
      · exact .inl hdata
      · cases hsvc.symm.trans hr
  · have hdc : d ≠ s.created := fun heq => hs.data_ne d hd (heq ▸ hfresh)
    rw [opened_record_of_ne hdc]
    exact hs.data d hd
  · by_cases hqr : q = s.refs
    · rw [hqr]
      rfl
    · have hlt : q < s.refs := by
        have hle : q < s.refs + 1 := hq
        omega
      rw [opened_deallocated_of_ne hqr] at hlive
      cases hsvc.symm.trans (hs.refs q hlt hlive)
  · cases hsvc.symm.trans (hs.watched f q hq).1
  · cases Option.some.inj hq
    exact ⟨Nat.lt_succ_self _, by simp, .inr (by simp)⟩

/-- The loop starts if and only if no call fails. -/
theorem startLoop_none_iff {r : Nat} {c : LoopResults} (hmap : s.callbackMap (s.ref r).fd = none) :
    (startLoop s r c).2 = none ↔ c.watch = none ∧ c.eventfd = true ∧ c.run = none := by
  unfold startLoop
  cases hwatch : c.watch with
  | some e => simp [addWatch, hmap]
  | none =>
      cases heventfd : c.eventfd with
      | false => simp [addWatch, hmap, NsdManager.run, heventfd]
      | true => cases hrun : c.run <;> simp [addWatch, hmap, NsdManager.run, heventfd, hrun]

theorem Open.map_none (hs : Open s) (hsvc : s.svc = none) (fd : Int) : s.callbackMap fd = none := by
  cases hfd : s.callbackMap fd with
  | none => rfl
  | some q => cases hsvc.symm.trans (hs.watched fd q hfd).1

theorem Open.registerService (hs : Open s) (hw : Watched s) (cb : Bool) {txtRecord : List Bool}
    {register : Option Int} {c : LoopResults} (hkeeps : s.svc = none →
      txtRecord.all id = true ∧ register.isSome = true ∧ c.watch = none ∧ c.eventfd = true ∧
        c.run = none) :
    Open (registerService s cb txtRecord register c).1 ∧
      Watched (NsdManager.registerService s cb txtRecord register c).1 := by
  unfold NsdManager.registerService
  split
  · exact ⟨hs, hw⟩
  · rename_i hsome
    have hsvc : s.svc = none := by simpa using hsome
    rcases hkeeps hsvc with ⟨htxt, hregister, hresults⟩
    rcases Option.isSome_iff_exists.1 hregister with ⟨fd, rfl⟩
    have hloop := (hs.registering hsvc cb fd).startLoop (r := s.refs) (c := c) rfl
    have hmap : (s.opened (.register cb) .register fd).callbackMap
        ((s.opened (.register cb) .register fd).ref s.refs).fd = none := hs.map_none hsvc _
    have hstarted := (startLoop_none_iff hmap).2 hresults
    simp only [htxt, Bool.true_eq_false, if_false]
    split
    · rename_i u hu
      rw [hu] at hloop
      exact ⟨hloop.1, hloop.2.2 rfl⟩
    · rename_i u e hu
      rw [hu] at hstarted
      cases hstarted

/-- A registration that does not begin loses its record. -/
theorem Open.lost_registerService (hs : Open s) (hshape : Shape s) (hsvc : s.svc = none) (cb : Bool)
    {txtRecord : List Bool} {register : Option Int} {c : LoopResults}
    (hfails : ¬ (txtRecord.all id = true ∧ register.isSome = true ∧ c.watch = none ∧
      c.eventfd = true ∧ c.run = none)) :
    Lost (NsdManager.registerService s cb txtRecord register c).1 s.created := by
  have hdata : s.callbackData ≠ some s.created := fun h => lt_irrefl _ (hshape.data _ h)
  have hcontext : ∀ r < s.refs, (s.ref r).context ≠ s.created := fun r hr =>
    (hshape.context r hr).ne
  have hrecord : Lost (s.newRecord (.register cb)) s.created := by
    refine ⟨Nat.lt_succ_self _, ?_, by simp [State.newRecord]⟩
    rintro (h | ⟨r, hr, -, h⟩)
    · exact hdata h
    · exact hcontext r hr h
  unfold NsdManager.registerService
  simp only [hsvc, Option.isSome_none, Bool.false_eq_true, if_false]
  split
  · exact hrecord
  · rename_i htxt
    cases register with
    | none => exact hrecord
    | some fd =>
        have hmap : (s.opened (.register cb) .register fd).callbackMap
            ((s.opened (.register cb) .register fd).ref s.refs).fd = none := hs.map_none hsvc _
        have hfailed : (NsdManager.startLoop (s.opened (.register cb) .register fd) s.refs c).2 ≠
            none := by
          rw [Ne, startLoop_none_iff hmap]
          exact fun hresults => hfails ⟨by simpa using htxt, rfl, hresults⟩
        have hloop := (hs.registering hsvc cb fd).startLoop (r := s.refs) (c := c) rfl
        rcases startLoop_frame (s.opened (.register cb) .register fd) s.refs c with
          ⟨m, b, hframe⟩
        simp only
        split
        · rename_i u hu
          rw [hu] at hfailed
          exact absurd rfl hfailed
        · rename_i u e hu
          rw [hu] at hloop hframe
          have hu' : u = _ := hframe
          have hlive : u.deallocated s.refs = false := by
            rw [hu']
            simp
          rw [unregisterService, stopService_eq hloop.2.1 hlive, hu']
          refine ⟨Nat.lt_succ_self _, ?_, by simp⟩
          rintro (h | ⟨r, hr, hlive', h⟩)
          · exact hdata h
          · by_cases hrr : r = s.refs
            · simp [hrr] at hlive'
            · have hlt : r < s.refs := by
                have hle : r < s.refs + 1 := hr
                omega
              simp only [opened_ref_of_ne hrr] at h
              exact hcontext r hlt h

/-- A registration that is stopped before it was replied to loses its record. -/
theorem Open.lost_stop (hs : Open s) (hshape : Shape s) (h : ¬ Answered s) :
    (∃ d, Lost (NsdManager.stopService s).1 d) ∧
      ∃ d, Lost (NsdManager.stopServiceDiscovery s).1 d := by
  unfold Answered at h
  push Not at h
  rcases h with ⟨r, hr, hreply, hrecord⟩
  rcases hs.svc r hr with ⟨hlt, hlive, hkind⟩
  have hregister : ∀ x, s.record (s.ref r).context = some x → ∃ b, x = .register b := by
    rcases hkind with ⟨hdiscover, -⟩ | ⟨-, hregister⟩
    · rw [hreply] at hdiscover
      cases hdiscover
    · exact hregister
  have hdata : s.callbackData ≠ some (s.ref r).context := by
    intro hdata
    rcases hs.data _ hdata with ⟨b, hb⟩
    rcases hregister _ hb with ⟨b', hb'⟩
    cases hb'
  have hother : ∀ q < s.refs, Function.update s.deallocated r true q = false →
      (s.ref q).context ≠ (s.ref r).context := by
    intro q hq hlive'
    by_cases hqr : q = r
    · simp [hqr] at hlive'
    · rw [Function.update_of_ne hqr] at hlive'
      exact absurd (Option.some.inj ((hs.refs q hq hlive').symm.trans hr)) hqr
  have hcontext := hshape.context r hlt
  constructor
  · refine ⟨(s.ref r).context, ?_⟩
    rw [stopService_eq hr hlive]
    refine ⟨hcontext, ?_, hrecord⟩
    rintro (h | ⟨q, hq, hlive', h⟩)
    · exact hdata h
    · exact hother q hq hlive' h
  · refine ⟨(s.ref r).context, ?_⟩
    show Lost ((NsdManager.stopService s).1.deleteData.setData none) (s.ref r).context
    rw [stopService_eq hr hlive, deleteData_eq (by exact fun d hd => hs.data_ne d hd)]
    refine ⟨hcontext, ?_, by simpa [State.setData, hdata] using hrecord⟩
    rintro (h | ⟨q, hq, hlive', h⟩)
    · cases h
    · exact hother q hq hlive' h

/-- Only the ref of `svc` calls back. -/
theorem Open.callsBack (hs : Open s) {r : Nat} {reply : Reply} (h : CallsBack s r reply) :
    s.svc = some r ∧
      (reply = .discover ∧ s.callbackData = some (s.ref r).context ∨
        reply = .register ∧ ∀ x, s.record (s.ref r).context = some x → ∃ b, x = .register b) := by
  rcases h with ⟨-, hlt, hlive, -, rfl⟩
  have hsvc := hs.refs r hlt hlive
  exact ⟨hsvc, (hs.svc r hsvc).2.2⟩

theorem Open.publish (hs : Open s) (x : Published α) : Open (s.publish x) := { hs with }

theorem Open.discover_reply (hs : Open s) (hw : Watched s) {r : Nat} (hr : CallsBack s r .discover)
    {add : Bool} {serviceName : String} {resolve errno : Option Int}
    (hkeeps : if add = true then resolve = none else
      s.record (s.ref r).context ≠ some (.discover false)) :
    Open (discover_reply s r add serviceName resolve errno) ∧
      Watched (NsdManager.discover_reply s r add serviceName resolve errno) := by
  rcases hs.callsBack hr with ⟨hsvc, ⟨-, hdata⟩ | ⟨hreply, -⟩⟩
  · rcases hs.data _ hdata with ⟨discovered, hrecord⟩
    simp only [NsdManager.discover_reply, hrecord]
    cases add with
    | true =>
        have hresolve : resolve = none := by simpa using hkeeps
        subst hresolve
        simp only [if_true, resolveService, newRecord_delete (hs.fresh _ le_rfl)]
        split
        · exact ⟨hs.skipRecord.publish _, hw⟩
        · exact ⟨hs.skipRecord, hw⟩
    | false =>
        have hcb : discovered = true := by simpa [hrecord] using hkeeps
        subst hcb
        exact ⟨hs.publish _, hw⟩
  · cases hreply

/-- The ref of a resolve operation stays. -/
theorem resolveService_ref (s : State α) (serviceName : String) (cb : Bool) (fd : Int)
    (errno : Option Int) :
    s.refs < (resolveService s serviceName cb (some fd) errno).1.refs ∧
      ((resolveService s serviceName cb (some fd) errno).1.ref s.refs).reply = .resolve ∧
      (resolveService s serviceName cb (some fd) errno).1.deallocated s.refs = false := by
  unfold resolveService
  simp only
  split
  · unfold State.delete
    split <;>
      exact ⟨Nat.lt_succ_self _, by simp [State.fail, State.newRef, State.newRecord],
        by simp [State.fail, State.newRef, State.newRecord]⟩
  · rename_i v hv
    rw [(addWatch_ok hv).2.2]
    exact ⟨Nat.lt_succ_self _, by simp [State.setMap, State.newRef, State.newRecord],
      by simp [State.setMap, State.newRef, State.newRecord]⟩

theorem Open.damaged_discover_reply (hs : Open s) {r : Nat} (hr : CallsBack s r .discover)
    {add : Bool} {serviceName : String} {resolve errno : Option Int}
    (hfails : ¬ if add = true then resolve = none else
      s.record (s.ref r).context ≠ some (.discover false)) :
    Damaged (NsdManager.discover_reply s r add serviceName resolve errno) := by
  rcases hs.callsBack hr with ⟨hsvc, ⟨-, hdata⟩ | ⟨hreply, -⟩⟩
  · rcases hs.data _ hdata with ⟨discovered, hrecord⟩
    simp only [NsdManager.discover_reply, hrecord]
    cases add with
    | true =>
        cases resolve with
        | none => exact absurd rfl hfails
        | some fd =>
            have href := resolveService_ref s serviceName discovered fd errno
            simp only [if_true]
            split
            · exact .inr (.inr ⟨s.refs, href⟩)
            · exact .inr (.inr ⟨s.refs, href⟩)
    | false =>
        have hcb : discovered = false := by simpa [hrecord] using hfails
        subst hcb
        exact .inl (by simp [State.fail])
  · cases hreply

theorem Open.register_reply (hs : Open s) (hw : Watched s) {r : Nat} (hr : CallsBack s r .register)
    {name : String} (hkeeps : s.record (s.ref r).context ≠ none) :
    Open (register_reply s r name) ∧ Watched (NsdManager.register_reply s r name) := by
  rcases hs.callsBack hr with ⟨hsvc, ⟨hreply, -⟩ | ⟨-, hregister⟩⟩
  · cases hreply
  · cases hrecord : s.record (s.ref r).context with
    | none => exact absurd hrecord hkeeps
    | some x =>
        rcases hregister x hrecord with ⟨registered, rfl⟩
        have hdeleted : Open { s with
            record := Function.update s.record (s.ref r).context none } := by
          refine { hs with
            fresh := fun d hd => ?_
            held := fun d hd => ?_
            data := fun d hd => ?_
            svc := fun q hq => ?_ }
          · by_cases hdc : d = (s.ref r).context
            · simp [hdc]
            · simpa [Function.update_of_ne hdc] using hs.fresh d hd
          · by_cases hdc : d = (s.ref r).context
            · simp [hdc] at hd
            · exact hs.held d (by simpa [Function.update_of_ne hdc] using hd)
          · have hdc : d ≠ (s.ref r).context := by
              rintro rfl
              rcases hs.data _ hd with ⟨b, hb⟩
              rw [hrecord] at hb
              cases hb
            simpa [Function.update_of_ne hdc] using hs.data d hd
          · rcases hs.svc q hq with ⟨hlt, hlive, hkind⟩
            cases Option.some.inj (hsvc.symm.trans hq)
            refine ⟨hlt, hlive, hkind.imp_right fun hkind => ⟨hkind.1, ?_⟩⟩
            simp
        cases registered with
        | true =>
            have heq : NsdManager.register_reply s r name = State.publish
                { s with record := Function.update s.record (s.ref r).context none }
                (.registered name) := by
              simp [NsdManager.register_reply, hrecord, State.delete, State.publish]
            rw [heq]
            exact ⟨hdeleted.publish _, hw⟩
        | false =>
            have heq : NsdManager.register_reply s r name =
                { s with record := Function.update s.record (s.ref r).context none } := by
              simp [NsdManager.register_reply, hrecord, State.delete]
            rw [heq]
            exact ⟨hdeleted, hw⟩

/-! ## Every run -/

/-- A run that has lost nothing so far. -/
def Clean (s : State α) : Prop :=
  (Shape s ∧ Open s ∧ Watched s) ∨ s.destroyed = true ∧ Sound s

/-- A run that cannot end well. -/
def Spoiled (s : State α) : Prop :=
  (Shape s ∧ Damaged s) ∨ s.destroyed = true ∧ ¬ Sound s

theorem clean_start : Clean (State.start : State α) :=
  .inl ⟨shape_start, open_start, nofun⟩

theorem clean_destroy (hs : Open s) (hsvc : s.svc = none) (hdata : s.callbackData = none) :
    Sound (destroy s) := by
  have hdestroy : destroy s = { s.setRunning false with destroyed := true } := by
    simp [destroy, hsvc]
  rw [hdestroy]
  refine ⟨hs.faults, fun _ d _ => ?_, fun _ r hr => ⟨?_, fun fd hfd => ?_⟩⟩
  · by_contra hrecord
    rcases hs.held d hrecord with h | ⟨r, hr, -⟩
    · cases hdata.symm.trans h
    · cases hsvc.symm.trans hr
  · by_contra hlive
    have hlive' : s.deallocated r = false := by simpa [State.setRunning] using hlive
    cases hsvc.symm.trans (hs.refs r hr hlive')
  · cases hsvc.symm.trans (hs.watched fd r hfd).1

theorem clean_step {a : Act α} (hs : Clean s) (hkeeps : Keeps s a) (h : step s a = some t) :
    Clean t := by
  rcases hs with ⟨hshape, hopen, hwatched⟩ | ⟨hdestroyed, -⟩
  · have hshape' := (effect_step hshape h).shape
    unfold step at h
    rw [if_neg (by simp [hopen.going])] at h
    cases a with
    | discoverServices cb browse c =>
        simp only at h
        split at h
        · cases h
          exact .inl ⟨hshape', hopen.discoverServices hwatched cb browse c⟩
        · cases h
    | stopServiceDiscovery =>
        cases h
        rcases hopen.stopServiceDiscovery hkeeps with ⟨hstopped, hnone⟩
        exact .inl ⟨hshape', hstopped, fun r hr => absurd (hnone.symm.trans hr) (by simp)⟩
    | registerService cb txtRecord register c =>
        simp only at h
        split at h
        · cases h
          exact .inl ⟨hshape', hopen.registerService hwatched cb hkeeps⟩
        · cases h
    | unregisterService =>
        cases h
        rcases hopen.stopService hkeeps with ⟨hstopped, hnone⟩
        exact .inl ⟨hshape', hstopped, fun r hr => absurd (hnone.symm.trans hr) (by simp)⟩
    | discover_reply r add serviceName resolve errno =>
        simp only at h
        split at h
        · rename_i hr
          cases h
          exact .inl ⟨hshape', hopen.discover_reply hwatched hr.1 hkeeps⟩
        · cases h
    | resolve_reply r uuid opaqueport getAddrInfo errno =>
        simp only at h
        split at h
        · rename_i hr
          rcases (hopen.callsBack hr.1).2 with ⟨hreply, -⟩ | ⟨hreply, -⟩ <;> cases hreply
        · cases h
    | addrinfo_reply r address =>
        simp only at h
        split at h
        · rename_i hr
          rcases (hopen.callsBack hr).2 with ⟨hreply, -⟩ | ⟨hreply, -⟩ <;> cases hreply
        · cases h
    | register_reply r name =>
        simp only at h
        split at h
        · rename_i hr
          cases h
          have hreply : Open (register_reply s r name) ∧ Watched (register_reply s r name) :=
            hopen.register_reply hwatched hr hkeeps
          exact .inl ⟨hshape', { hreply.1 with }, hreply.2⟩
        · cases h
    | destroy =>
        cases h
        exact .inr ⟨rfl, clean_destroy hopen hkeeps.1 hkeeps.2⟩
  · simp [step, hdestroyed] at h

/-- The destructor neither removes `svc` from the event loop nor deletes `callbackData`. -/
theorem not_sound_destroy (hs : Open s) (hw : Watched s)
    (h : ¬ (s.svc = none ∧ s.callbackData = none)) : ¬ Sound (destroy s) := by
  intro hsound
  cases hsvc : s.svc with
  | some r =>
      rcases hs.svc r hsvc with ⟨hlt, hlive, -⟩
      have hdestroy : destroy s = { (s.deallocate r).setRunning false with destroyed := true } := by
        simp [destroy, hsvc]
      have hwatched : (destroy s).callbackMap (s.ref r).fd = some r := by
        rw [hdestroy]
        simpa [State.setRunning, State.deallocate, hlive] using hw r hsvc
      have hrefs : r < (destroy s).refs := by
        rw [hdestroy]
        simpa [State.setRunning, State.deallocate, hlive] using hlt
      exact (hsound.refs rfl r hrefs).2 _ hwatched
  | none =>
      have hdestroy : destroy s = { s.setRunning false with destroyed := true } := by
        simp [destroy, hsvc]
      rw [hdestroy] at hsound
      cases hdata : s.callbackData with
      | none => exact h ⟨hsvc, hdata⟩
      | some d =>
          have hrecord := hs.data_ne d hdata
          have hlt : d < s.created := by
            by_contra hge
            exact hrecord (hs.fresh d (not_lt.1 hge))
          exact hrecord (hsound.records rfl d hlt)

theorem spoiled_of_step {a : Act α} (hs : Clean s) (hfails : ¬ Keeps s a)
    (h : step s a = some t) : Spoiled t := by
  rcases hs with ⟨hshape, hopen, hwatched⟩ | ⟨hdestroyed, -⟩
  · have hshape' := (effect_step hshape h).shape
    unfold step at h
    rw [if_neg (by simp [hopen.going])] at h
    cases a with
    | discoverServices cb browse c => exact absurd trivial hfails
    | stopServiceDiscovery =>
        cases h
        exact .inl ⟨hshape', .inr (.inl (hopen.lost_stop hshape hfails).2)⟩
    | registerService cb txtRecord register c =>
        simp only at h
        split at h
        · cases h
          simp only [Keeps, Classical.not_imp] at hfails
          exact .inl ⟨hshape',
            .inr (.inl ⟨_, hopen.lost_registerService hshape hfails.1 cb hfails.2⟩)⟩
        · cases h
    | unregisterService =>
        cases h
        exact .inl ⟨hshape', .inr (.inl (hopen.lost_stop hshape hfails).1)⟩
    | discover_reply r add serviceName resolve errno =>
        simp only at h
        split at h
        · rename_i hr
          cases h
          exact .inl ⟨hshape', hopen.damaged_discover_reply hr.1 hfails⟩
        · cases h
    | resolve_reply r uuid opaqueport getAddrInfo errno => exact absurd trivial hfails
    | addrinfo_reply r address => exact absurd trivial hfails
    | register_reply r name =>
        simp only at h
        split at h
        · cases h
          have hrecord : s.record (s.ref r).context = none := not_not.1 hfails
          refine .inl ⟨hshape', .inl ?_⟩
          simp [register_reply, hrecord, State.fail, State.answer]
        · cases h
    | destroy =>
        cases h
        exact .inr ⟨rfl, not_sound_destroy hopen hwatched hfails⟩
  · simp [step, hdestroyed] at h

theorem spoiled_step {a : Act α} (hs : Spoiled s) (h : step s a = some t) : Spoiled t := by
  rcases hs with ⟨hshape, hdamaged⟩ | ⟨hdestroyed, -⟩
  · have heffect := effect_step hshape h
    exact .inl ⟨heffect.shape, heffect.damaged hdamaged⟩
  · simp [step, hdestroyed] at h

theorem Clean.sound (hs : Clean s) : Sound s := by
  rcases hs with ⟨-, hopen, -⟩ | ⟨-, hsound⟩
  · exact ⟨hopen.faults, fun h => absurd (hopen.going.symm.trans h) (by simp),
      fun h => absurd (hopen.going.symm.trans h) (by simp)⟩
  · exact hsound

theorem Spoiled.not_sound (hs : Spoiled s) (hdestroyed : s.destroyed = true) : ¬ Sound s := by
  rcases hs with ⟨-, hdamaged⟩ | ⟨-, hnot⟩
  · exact hdamaged.not_sound hdestroyed
  · exact hnot

/-- A run whose steps all meet the condition releases everything as it should, and any other run
that comes to the destructor does not. -/
theorem operations_released (as : List (Act α)) (s : State α)
    (h : Run.exec step State.start as = some s) :
    (Run.Along step Keeps State.start as → Sound s) ∧
      (s.destroyed = true → Sound s → Run.Along step Keeps State.start as) := by
  have hclean : Run.Preserved step Keeps (Clean : State α → Prop) :=
    fun _ _ _ hs hkeeps hstep => clean_step hs hkeeps hstep
  constructor
  · intro hkeeps
    exact (Run.exec_invariant hclean clean_start hkeeps h).sound
  · intro hdestroyed hsound
    rcases Run.clean_or_damaged hclean (fun _ _ _ => spoiled_of_step)
      (fun _ _ _ hs hstep => spoiled_step hs hstep) clean_start h with ⟨hkeeps, -⟩ | hspoiled
    · exact hkeeps
    · exact absurd hsound (hspoiled.not_sound hdestroyed)

def started : LoopResults := ⟨none, true, none⟩

/-- A service is registered, replied to and unregistered. -/
def registerRun : List (Act Unit) :=
  [.registerService true [true] (some 3) started, .register_reply 0 "BeyonD", .unregisterService,
    .destroy]

theorem registration_released :
    ∃ s, Run.exec step State.start registerRun = some s ∧ s.destroyed = true ∧
      s.published = [.registered "BeyonD"] ∧ Sound s := by
  refine ⟨_, rfl, rfl, rfl, (operations_released registerRun _ rfl).1 ?_⟩
  refine Run.along_of_step ?_ rfl (Run.along_of_step ?_ rfl
    (Run.along_of_step ?_ rfl (Run.along_of_step ?_ rfl trivial)))
  · exact fun _ => ⟨rfl, rfl, rfl, rfl, rfl⟩
  · exact nofun
  · rintro r hr -
    cases hr
    rfl
  · exact ⟨rfl, rfl⟩

/-- One service is announced, resolved and found, and discovery is stopped. -/
def discoverRun : List (Act Unit) :=
  [.discoverServices true (some 3) started, .discover_reply 0 true "BeyonD" (some 4) none,
    .resolve_reply 1 none 3000 (some 5) none, .addrinfo_reply 2 (some ()), .stopServiceDiscovery,
    .destroy]

theorem resolve_ref_stays :
    ∃ s, Run.exec step State.start discoverRun = some s ∧ s.faults = [] ∧
      s.deallocated 1 = false ∧ s.callbackMap 4 = some 1 ∧ ¬ Sound s := by
  refine ⟨_, rfl, rfl, rfl, rfl, fun hsound => ?_⟩
  exact absurd (hsound.refs rfl 1 (by decide)).1 (by decide)

end NsdManager
end Discovery
end Beyond
