import Beyond.Base.Platform
import Beyond.EventLoop.Handlers

/-!
# Registrations of the kqueue event loop

On macOS `AddEventHandler` registers a handler object with one `kevent` call for each of its
filters, and `RemoveEventHandler` deletes what it registered in the same way.  An event that the
kernel reports carries the pointer of the last registration of its filter.

The calls are made one at a time, between two turns of `WaitEvent` or in a handler that it calls.
The filters that `ThreadMain` registers for signals are left out.
-/

namespace Beyond
namespace EventLoop
namespace Kqueue

open Errno

/-! ## Handler objects -/

/-- `EVFILT_READ`, `EVFILT_WRITE` and `EVFILT_TIMER`. -/
inductive Filter
  | read
  | write
  | timer
  deriving DecidableEq, Repr

def BEYOND_EVENT_TYPE_READ : BitVec 32 := 0x10#32
def BEYOND_EVENT_TYPE_WRITE : BitVec 32 := 0x20#32
def BEYOND_EVENT_TYPE_ERROR : BitVec 32 := 0x40#32

def EVENT_ID_TIMER : BitVec 32 := 0x80000000#32

/-- The value of macOS. -/
def EALREADY : Int := 37

structure EventObject where
  handle : BitVec 32
  /-- It is a `beyond::Timer`. -/
  timer : Bool
  deriving DecidableEq, Repr

structure HandlerObjectImpl where
  eventObject : EventObject
  type : BitVec 32
  state : HandlerState
  inUse : Bool
  deriving DecidableEq, Repr

/-- `type & flag`. -/
def has (type flag : BitVec 32) : Bool := type &&& flag != 0#32

namespace HandlerObjectImpl

def handle (o : HandlerObjectImpl) : BitVec 32 := o.eventObject.handle

/-- The filters of the type of a handler. -/
def filters (o : HandlerObjectImpl) : Filter → Bool
  | .read => o.handle != EVENT_ID_TIMER && has o.type BEYOND_EVENT_TYPE_READ
  | .write => o.handle != EVENT_ID_TIMER && has o.type BEYOND_EVENT_TYPE_WRITE
  | .timer => o.handle == EVENT_ID_TIMER

end HandlerObjectImpl

/-! ## The event loop -/

/-- The kernel knows a registration by its `ident` and its filter. -/
abbrev Key := BitVec 32 × Filter

/-- A `struct kevent` that the kernel reports; `error` is `EV_ERROR`. -/
structure Event where
  key : Key
  udata : Nat
  error : Bool
  deriving DecidableEq, Repr

/-- Where `WaitEvent` is; `rest` is what is left of the events. -/
inductive Stage
  | waiting
  | batch (rest : List Event)
  /-- In the event handler. -/
  | calling (item : Nat) (rest : List Event)
  deriving DecidableEq, Repr

/-- Handler objects are numbered as they are allocated.  `added` are those that `AddEventHandler`
has returned, and `fault` says that a deleted one was used. -/
structure State where
  created : Nat
  object : Nat → HandlerObjectImpl
  alive : Nat → Bool
  added : List Nat
  udata : Key → Option Nat
  stage : Stage
  fault : Bool

namespace State

def setObject (s : State) (h : Nat) (o : HandlerObjectImpl) : State :=
  { s with object := Function.update s.object h o }

/-- `new HandlerObjectImpl()`. -/
def alloc (s : State) (eventObject : EventObject) (type : BitVec 32) : State :=
  { s.setObject s.created ⟨eventObject, type, .init, false⟩ with
    created := s.created + 1
    alive := Function.update s.alive s.created true }

/-- `delete`. -/
def free (s : State) (h : Nat) : State := { s with alive := Function.update s.alive h false }

/-- `kevent` with `EV_ADD`: what was registered for the same key is replaced. -/
def register (s : State) (k : Key) (h : Nat) (ok : Bool) : State × Bool :=
  if ok then ({ s with udata := Function.update s.udata k (some h) }, true) else (s, false)

/-- `kevent` with `EV_DELETE`, whose result is only logged. -/
def unregister (s : State) (k : Key) (ok : Bool) : State :=
  if ok then { s with udata := Function.update s.udata k none } else s

/-- `EventLoop::impl::Create`, before it adds a handler of its own. -/
def start : State :=
  { created := 0
    object := fun _ => ⟨⟨0#32, false⟩, 0#32, .init, false⟩
    alive := fun _ => false
    added := []
    udata := fun _ => none
    stage := .waiting
    fault := false }

end State

/-! ## Adding and removing -/

/-- The `kevent` calls of `AddEventHandlerInternal`; `ok` has their results.  At the end `ev.filter`
is 0 for a type with neither `READ` nor `WRITE`. -/
def registerFilters (s : State) (h : Nat) (ok : Filter → Bool) : State × Bool :=
  let o := s.object h
  if o.handle = EVENT_ID_TIMER then
    if o.eventObject.timer then s.register (o.handle, .timer) h (ok .timer) else (s, false)
  else
    match if has o.type BEYOND_EVENT_TYPE_READ then s.register (o.handle, .read) h (ok .read)
      else (s, true) with
    | (s, false) => (s, false)
    | (s, true) =>
        match if has o.type BEYOND_EVENT_TYPE_WRITE then s.register (o.handle, .write) h (ok .write)
          else (s, true) with
        | (s, false) => (s, false)
        | (s, true) => (s, has o.type BEYOND_EVENT_TYPE_READ || has o.type BEYOND_EVENT_TYPE_WRITE)

/-- `eventHandler` is not null, and there was memory for the handler object if `allocated`. -/
def addEventHandlerInternal (s : State) (eventObject : Option EventObject) (type : BitVec 32)
    (eventHandler allocated : Bool) (ok : Filter → Bool) : State × Option Nat :=
  match eventObject with
  | none => (s, none)
  | some e =>
      if eventHandler = false then (s, none)
      else if e.handle.toInt < 0 then (s, none)
      else if allocated = false then (s, none)
      else
        let h := s.created
        match registerFilters (s.alloc e type) h ok with
        -- What was registered so far stays.
        | (t, false) => (t.free h, none)
        | (t, true) =>
            ({ t.setObject h { t.object h with state := .init } with added := h :: s.added },
              some h)

/-- The private `RemoveEventHandler`; `ok` has the results of the `kevent` calls for `READ` and for
`WRITE`. -/
def removeEventHandlerImpl (s : State) (h : Nat) (ok : Filter → Bool) : State × Int :=
  let o := s.object h
  if o.inUse then (s.setObject h { o with state := .delete }, 0)
  else
    -- Both calls are made with `EVFILT_WRITE`.
    let t := if has o.type BEYOND_EVENT_TYPE_READ then s.unregister (o.handle, .write) (ok .read)
      else s
    let u := if has o.type BEYOND_EVENT_TYPE_WRITE then t.unregister (o.handle, .write) (ok .write)
      else t
    ((u.setObject h { o with inUse := true, state := .deleted }).free h, 0)

/-- The public `RemoveEventHandler` of a handler object that has not been deleted. -/
def removeEventHandler (s : State) (handlerObject : Option Nat) (ok : Filter → Bool) :
    State × Int :=
  match handlerObject with
  | none => (s, -EINVAL)
  | some h =>
      if (s.object h).state ≠ .init then (s, -EALREADY)
      else removeEventHandlerImpl s h ok

/-! ## `WaitEvent` -/

/-- The type that the event handler is called with. -/
def Event.type (e : Event) (o : HandlerObjectImpl) : BitVec 32 :=
  (if e.key.2 = .read ∧ has o.type BEYOND_EVENT_TYPE_READ then BEYOND_EVENT_TYPE_READ else 0#32) |||
  (if e.key.2 = .write ∧ has o.type BEYOND_EVENT_TYPE_WRITE then BEYOND_EVENT_TYPE_WRITE
    else 0#32) |||
  (if e.error ∧ has o.type BEYOND_EVENT_TYPE_ERROR then BEYOND_EVENT_TYPE_ERROR else 0#32) |||
  (if e.key.2 = .timer then BEYOND_EVENT_TYPE_READ else 0#32)

/-- The loop looks at the next event, up to the call of its handler. -/
def next (s : State) : Option State :=
  match s.stage with
  | .batch [] => some { s with stage := .waiting }
  | .batch (e :: rest) =>
      let o := s.object e.udata
      if s.alive e.udata = false then some { s with fault := true }
      else if e.type o = 0#32 then some { s with stage := .batch rest }
      else if o.inUse then some { s with stage := .batch rest }
      else some { s.setObject e.udata { o with inUse := true } with stage := .calling e.udata rest }
  | _ => none

/-- The event handler returns. -/
def returns (s : State) (opt : HandlerReturn) (ok : Filter → Bool) : Option State :=
  match s.stage with
  | .calling item rest =>
      let o := s.object item
      let t := { s with stage := .batch rest }
      if s.alive item = false then some { t with fault := true }
      else if opt = .cancel ∨ o.state = .delete then
        some (removeEventHandlerImpl (t.setObject item { o with state := .delete, inUse := false })
          item ok).1
      else some (t.setObject item { o with inUse := false })
  | _ => none

inductive Act
  | add (eventObject : Option EventObject) (type : BitVec 32) (eventHandler allocated : Bool)
      (ok : Filter → Bool)
  | remove (handlerObject : Option Nat) (ok : Filter → Bool)
  /-- `kevent` reports events. -/
  | wait (events : List Event)
  | next
  | returns (opt : HandlerReturn) (ok : Filter → Bool)

/-- Nothing is said about the time behind the use of a deleted object. -/
def step (s : State) (a : Act) : Option State :=
  if s.fault then none
  else
    match a with
    | .add eventObject type eventHandler allocated ok =>
        some (addEventHandlerInternal s eventObject type eventHandler allocated ok).1
    | .remove handlerObject ok =>
        if handlerObject.any fun h => !s.alive h then some { s with fault := true }
        else some (removeEventHandler s handlerObject ok).1
    | .wait events =>
        if s.stage = .waiting ∧ ∀ e ∈ events, s.udata e.key = some e.udata then
          some { s with stage := .batch events }
        else none
    | .next => next s
    | .returns opt ok => returns s opt ok

/-! ## What is claimed -/

/-- The registrations match the handlers. -/
structure Matched (s : State) : Prop where
  /-- Every filter that is registered carries a handler object that has not been deleted. -/
  carries : ∀ k h, s.udata k = some h → s.alive h = true
  /-- A handler has registered exactly the filters of its type. -/
  present : ∀ h ∈ s.added, s.alive h = true → ∀ k, s.udata k = some h ↔
    k.1 = (s.object h).handle ∧ (s.object h).filters k.2 = true
  /-- None of the filters of a handler that was removed is registered. -/
  removed : ∀ h ∈ s.added, s.alive h = false → ∀ k, s.udata k ≠ some h

/-- The registration of a handler succeeds or leaves nothing behind, and replaces no other. -/
def Registers (s : State) (e : EventObject) (type : BitVec 32) (ok : Filter → Bool) : Prop :=
  if has type BEYOND_EVENT_TYPE_READ then
    ok .read = true → s.udata (e.handle, .read) = none ∧
      (has type BEYOND_EVENT_TYPE_WRITE = true →
        ok .write = true ∧ s.udata (e.handle, .write) = none)
  else
    has type BEYOND_EVENT_TYPE_WRITE = true → ok .write = true →
      s.udata (e.handle, .write) = none

/-- The removal of a handler deletes its filter. -/
def Unregisters (o : HandlerObjectImpl) (ok : Filter → Bool) : Prop :=
  has o.type BEYOND_EVENT_TYPE_READ = false ∧ ok .write = true

def Keeps (s : State) : Act → Prop
  | .add (some e) type true true ok => 0 ≤ e.handle.toInt → Registers s e type ok
  | .remove (some h) ok =>
      s.alive h = true → (s.object h).state = .init → (s.object h).inUse = false →
        Unregisters (s.object h) ok
  | .returns opt ok =>
      match s.stage with
      | .calling item _ =>
          (opt = .cancel ∨ (s.object item).state = .delete) → Unregisters (s.object item) ok
      | _ => True
  | _ => True

instance (s : State) (e : EventObject) (type : BitVec 32) (ok : Filter → Bool) :
    Decidable (Registers s e type ok) := by
  unfold Registers
  infer_instance

instance (o : HandlerObjectImpl) (ok : Filter → Bool) : Decidable (Unregisters o ok) :=
  inferInstanceAs (Decidable (_ ∧ _))

instance (s : State) (a : Act) : Decidable (Keeps s a) := by
  unfold Keeps
  split <;> try infer_instance
  split <;> infer_instance

/-! ## What holds in any case -/

variable {s s' : State}

structure Linked (s : State) : Prop where
  known : ∀ h, s.alive h = true → h ∈ s.added
  fresh : ∀ h ∈ s.added, h < s.created
  typed : ∀ h ∈ s.added, (s.object h).handle ≠ EVENT_ID_TIMER ∧
    (has (s.object h).type BEYOND_EVENT_TYPE_READ = true ∨
      has (s.object h).type BEYOND_EVENT_TYPE_WRITE = true)
  calling : ∀ item rest, s.stage = .calling item rest →
    s.alive item = true ∧ (s.object item).inUse = true

theorem linked_start : Linked State.start :=
  ⟨nofun, nofun, nofun, nofun⟩

theorem matched_start : Matched State.start :=
  ⟨nofun, nofun, nofun⟩

/-- What is registered once the calls for `h` have been made. -/
def registered (s : State) (h : Nat) (ok : Filter → Bool) (k : Key) : Option Nat :=
  let o := s.object h
  if k = (o.handle, .write) ∧ has o.type BEYOND_EVENT_TYPE_WRITE ∧ ok .write ∧
      (has o.type BEYOND_EVENT_TYPE_READ → ok .read) then some h
  else if k = (o.handle, .read) ∧ has o.type BEYOND_EVENT_TYPE_READ ∧ ok .read then some h
  else s.udata k

/-- Every call for a filter of the type succeeds, and there is one. -/
def succeeds (type : BitVec 32) (ok : Filter → Bool) : Bool :=
  (has type BEYOND_EVENT_TYPE_READ || has type BEYOND_EVENT_TYPE_WRITE) &&
    (!has type BEYOND_EVENT_TYPE_READ || ok .read) &&
    (!has type BEYOND_EVENT_TYPE_WRITE || ok .write)

theorem registerFilters_eq {h : Nat} {ok : Filter → Bool}
    (hne : (s.object h).handle ≠ EVENT_ID_TIMER) :
    registerFilters s h ok =
      ({ s with udata := registered s h ok }, succeeds (s.object h).type ok) := by
  have hudata : ∀ t : Key → Option Nat, (∀ k, t k = registered s h ok k) →
      ({ s with udata := t } : State) = { s with udata := registered s h ok } := by
    intro t ht
    rw [funext ht]
  cases hr : has (s.object h).type BEYOND_EVENT_TYPE_READ <;>
    cases hw : has (s.object h).type BEYOND_EVENT_TYPE_WRITE <;>
    cases hread : ok .read <;> cases hwrite : ok .write <;>
    simp [registerFilters, State.register, succeeds, hne, hr, hw, hread, hwrite,
      -State.mk.injEq] <;>
    exact hudata _ fun k => by simp [registered, Function.update_apply, hr, hw, hread, hwrite]

/-! ## Adding -/

variable {e : EventObject} {type : BitVec 32} {ok : Filter → Bool}

theorem ne_timer_of_nonneg {handle : BitVec 32} (h : ¬ handle.toInt < 0) :
    handle ≠ EVENT_ID_TIMER := by
  rintro rfl
  exact h (by decide)

/-- An `AddEventHandler` that comes to its `kevent` calls. -/
theorem add_eq (hpos : ¬ e.handle.toInt < 0) :
    (addEventHandlerInternal s (some e) type true true ok).1 =
      { s with
        created := s.created + 1
        object := Function.update s.object s.created ⟨e, type, .init, false⟩
        alive := Function.update s.alive s.created (succeeds type ok)
        added := if succeeds type ok then s.created :: s.added else s.added
        udata := registered (s.alloc e type) s.created ok } := by
  have hnew : (s.alloc e type).object s.created = ⟨e, type, .init, false⟩ := by
    simp [State.alloc, State.setObject]
  have hne : ((s.alloc e type).object s.created).handle ≠ EVENT_ID_TIMER := by
    rw [hnew]
    exact ne_timer_of_nonneg hpos
  have hcalls : registerFilters (s.alloc e type) s.created ok = _ := registerFilters_eq hne
  rw [hnew] at hcalls
  simp only [addEventHandlerInternal, hpos, hcalls, Bool.true_eq_false, if_false]
  cases hok : succeeds type ok with
  | false => simp [State.free, State.alloc, State.setObject]
  | true => simp [State.alloc, State.setObject]

/-- Any other `AddEventHandler` does nothing. -/
theorem add_rejected {eventObject : Option EventObject} {eventHandler allocated : Bool}
    (h : ∀ e, eventObject = some e → eventHandler = true → allocated = true →
      e.handle.toInt < 0) :
    (addEventHandlerInternal s eventObject type eventHandler allocated ok).1 = s := by
  cases eventObject with
  | none => rfl
  | some e =>
      cases eventHandler with
      | false => rfl
      | true =>
          by_cases hneg : e.handle.toInt < 0
          · simp [addEventHandlerInternal, hneg]
          · cases allocated with
            | false => simp [addEventHandlerInternal]
            | true => exact absurd (h e rfl rfl rfl) hneg

theorem registered_alloc {k : Key} :
    registered (s.alloc e type) s.created ok k =
      if k = (e.handle, .write) ∧ has type BEYOND_EVENT_TYPE_WRITE ∧ ok .write ∧
          (has type BEYOND_EVENT_TYPE_READ → ok .read) then some s.created
      else if k = (e.handle, .read) ∧ has type BEYOND_EVENT_TYPE_READ ∧ ok .read then
        some s.created
      else s.udata k := by
  simp [registered, State.alloc, State.setObject, HandlerObjectImpl.handle]

/-- A key that a handler holds stays its own as long as the registrations match. -/
theorem Matched.unregistered (hs : Matched s) (hl : Linked s) (hs' : Matched s') {k : Key}
    (hadded : ∀ g ∈ s.added, g ∈ s'.added)
    (hold : ∀ g < s.created, s'.alive g = s.alive g ∧ s'.object g = s.object g)
    (h : s'.udata k = some s.created) : s.udata k = none := by
  cases hk : s.udata k with
  | none => rfl
  | some g =>
      have halive : s.alive g = true := hs.carries k g hk
      have hmem : g ∈ s.added := hl.known g halive
      have hlt : g < s.created := hl.fresh g hmem
      rcases hold g hlt with ⟨halive', hobject⟩
      have hpresent := (hs.present g hmem halive k).1 hk
      have hk' : s'.udata k = some g :=
        (hs'.present g (hadded g hmem) (halive'.trans halive) k).2 (by rwa [hobject])
      rw [h, Option.some.injEq] at hk'
      omega

theorem mem_added {b : Bool} {h c : Nat} {added : List Nat} (hmem : h ∈ added) :
    h ∈ if b = true then c :: added else added := by
  cases b <;> simp [hmem]

theorem eq_or_mem_added {b : Bool} {h c : Nat} {added : List Nat}
    (hmem : h ∈ if b = true then c :: added else added) : h = c ∨ h ∈ added := by
  cases b with
  | false => exact .inr (by simpa using hmem)
  | true => simpa using hmem

theorem succeeds_of_added {b : Bool} (hl : Linked s)
    (hmem : s.created ∈ if b = true then s.created :: s.added else s.added) : b = true := by
  cases b with
  | false => exact absurd (hl.fresh _ (by simpa using hmem)) (lt_irrefl _)
  | true => rfl

theorem linked_add (hl : Linked s) (eventObject : Option EventObject)
    (eventHandler allocated : Bool) :
    Linked (addEventHandlerInternal s eventObject type eventHandler allocated ok).1 := by
  by_cases hcalls : ∃ e, eventObject = some e ∧ eventHandler = true ∧ allocated = true ∧
      ¬ e.handle.toInt < 0
  · rcases hcalls with ⟨e, rfl, rfl, rfl, hpos⟩
    rw [add_eq hpos]
    refine ⟨fun h hh => ?_, fun h hh => ?_, fun h hh => ?_, fun item rest hstage => ?_⟩
    · by_cases hc : h = s.created
      · subst hc
        have hok : succeeds type ok = true := by simpa using hh
        simp [hok]
      · have hmem := hl.known h (by simpa [Function.update_of_ne hc] using hh)
        exact mem_added hmem
    · rcases eq_or_mem_added hh with rfl | hmem
      · exact Nat.lt_succ_self _
      · exact Nat.lt_succ_of_lt (hl.fresh h hmem)
    · by_cases hc : h = s.created
      · subst hc
        have hok := succeeds_of_added hl hh
        simp only [Function.update_self]
        refine ⟨ne_timer_of_nonneg hpos, ?_⟩
        simp only [succeeds, Bool.and_eq_true, Bool.or_eq_true] at hok
        exact hok.1.1
      · simp only [Function.update_of_ne hc]
        exact hl.typed h ((eq_or_mem_added hh).resolve_left hc)
    · rcases hl.calling item rest hstage with ⟨halive, hinUse⟩
      have hne : item ≠ s.created := (hl.fresh item (hl.known item halive)).ne
      simp [Function.update_of_ne hne, halive, hinUse]
  · rw [add_rejected fun e he hh ha => not_not.1 fun hneg => hcalls ⟨e, he, hh, ha, hneg⟩]
    exact hl

/-- A key is registered for the new handler only if it was free and all calls succeed. -/
theorem Registers.cases (h : Registers s e type ok) (k : Key) :
    registered (s.alloc e type) s.created ok k = s.udata k ∨
      (registered (s.alloc e type) s.created ok k = some s.created ∧ s.udata k = none ∧
        succeeds type ok = true) := by
  rw [registered_alloc]
  unfold Registers at h
  split
  · rename_i hk
    rcases hk with ⟨rfl, hw, hwrite, hread⟩
    refine .inr ⟨rfl, ?_⟩
    by_cases hr : has type BEYOND_EVENT_TYPE_READ
    · simp only [hr, if_true] at h
      rcases h (hread hr) with ⟨-, hfree⟩
      exact ⟨(hfree hw).2, by simp [succeeds, hr, hw, hwrite, hread hr]⟩
    · simp only [hr] at h
      exact ⟨h hw hwrite, by simp [succeeds, hr, hw, hwrite]⟩
  · split
    · rename_i hk
      rcases hk with ⟨rfl, hr, hread⟩
      simp only [hr, if_true] at h
      rcases h hread with ⟨hnone, hfree⟩
      refine .inr ⟨rfl, hnone, ?_⟩
      by_cases hw : has type BEYOND_EVENT_TYPE_WRITE
      · simp [succeeds, hr, hw, hread, (hfree hw).1]
      · simp [succeeds, hr, hw, hread]
    · exact .inl rfl

/-- What is registered for a new handler whose calls succeed. -/
theorem registered_new_iff (hpos : ¬ e.handle.toInt < 0) (hok : succeeds type ok = true) {k : Key}
    (hk : s.udata k ≠ some s.created) :
    registered (s.alloc e type) s.created ok k = some s.created ↔
      k.1 = e.handle ∧ (⟨e, type, .init, false⟩ : HandlerObjectImpl).filters k.2 = true := by
  have htimer := ne_timer_of_nonneg hpos
  rw [registered_alloc]
  simp only [succeeds, Bool.and_eq_true, Bool.or_eq_true, Bool.not_eq_true'] at hok
  rcases hok with ⟨⟨-, hread⟩, hwrite⟩
  rcases k with ⟨ident, filter⟩
  cases filter with
  | read =>
      simp only [Prod.mk.injEq, reduceCtorEq, and_false, false_and, if_false, and_true]
      constructor
      · intro h
        split at h
        · rename_i hnew
          exact ⟨hnew.1,
            by simp [HandlerObjectImpl.filters, HandlerObjectImpl.handle, htimer, hnew.2.1]⟩
        · exact absurd h hk
      · rintro ⟨rfl, hfilter⟩
        simp only [HandlerObjectImpl.filters, Bool.and_eq_true] at hfilter
        rw [if_pos ⟨rfl, hfilter.2, by simpa [hfilter.2] using hread⟩]
  | write =>
      simp only [Prod.mk.injEq, reduceCtorEq, and_false, false_and, if_false, and_true]
      constructor
      · intro h
        split at h
        · rename_i hnew
          exact ⟨hnew.1,
            by simp [HandlerObjectImpl.filters, HandlerObjectImpl.handle, htimer, hnew.2.1]⟩
        · exact absurd h hk
      · rintro ⟨rfl, hfilter⟩
        simp only [HandlerObjectImpl.filters, Bool.and_eq_true] at hfilter
        rw [if_pos ⟨rfl, hfilter.2, by simpa [hfilter.2] using hwrite,
          fun hr => by simpa [hr] using hread⟩]
  | timer =>
      simp only [Prod.mk.injEq, reduceCtorEq, and_false, false_and, if_false, hk, false_iff,
        not_and]
      rintro rfl
      simp [HandlerObjectImpl.filters, HandlerObjectImpl.handle, htimer]

theorem matched_add_iff (hs : Matched s) (hl : Linked s) (hpos : ¬ e.handle.toInt < 0) :
    Matched (addEventHandlerInternal s (some e) type true true ok).1 ↔
      Registers s e type ok := by
  rw [add_eq hpos]
  constructor
  · intro hs'
    have hnone : ∀ k, registered (s.alloc e type) s.created ok k = some s.created →
        s.udata k = none := fun k hk =>
      hs.unregistered hl hs' (fun g hg => mem_added hg)
        (fun g hg => by simp [Function.update_of_ne hg.ne]) hk
    have hok : ∀ k, registered (s.alloc e type) s.created ok k = some s.created →
        succeeds type ok = true := fun k hk => by simpa using hs'.carries k s.created hk
    unfold Registers
    by_cases hr : has type BEYOND_EVENT_TYPE_READ
    · simp only [hr, if_true]
      intro hread
      have hkey : registered (s.alloc e type) s.created ok (e.handle, .read) = some s.created := by
        simp [registered_alloc, hr, hread]
      refine ⟨hnone _ hkey, fun hw => ?_⟩
      have hwrite : ok .write = true := by
        have := hok _ hkey
        simpa [succeeds, hr, hread, hw] using this
      exact ⟨hwrite, hnone _ (by simp [registered_alloc, hw, hwrite, hread])⟩
    · simp only [hr]
      intro hw hwrite
      exact hnone _ (by simp [registered_alloc, hr, hw, hwrite])
  · intro hregisters
    have hcarries : ∀ k h, registered (s.alloc e type) s.created ok k = some h →
        Function.update s.alive s.created (succeeds type ok) h = true := by
      intro k h hk
      rcases hregisters.cases k with hsame | ⟨hnew, -, hok⟩
      · have halive := hs.carries k h (hsame ▸ hk)
        have hne : h ≠ s.created := (hl.fresh h (hl.known h halive)).ne
        rwa [Function.update_of_ne hne]
      · rw [hnew, Option.some.injEq] at hk
        subst hk
        simpa using hok
    refine ⟨hcarries, fun h hh halive k => ?_, fun h hh hdead k hk => ?_⟩
    · by_cases hc : h = s.created
      · subst hc
        simp only [Function.update_self]
        refine registered_new_iff hpos (by simpa using halive) fun hold => ?_
        exact absurd (hl.fresh _ (hl.known _ (hs.carries k _ hold))) (lt_irrefl _)
      · have hmem := (eq_or_mem_added hh).resolve_left hc
        simp only [Function.update_of_ne hc] at halive ⊢
        rw [← hs.present h hmem halive k]
        rcases hregisters.cases k with hsame | ⟨hnew, hnone, -⟩
        · rw [hsame]
        · rw [hnew, hnone]
          simp [Ne.symm hc]
    · exact absurd (hdead.symm.trans (hcarries k h hk)) Bool.false_ne_true

/-! ## Frames -/

variable {h : Nat} {o : HandlerObjectImpl}

theorem Linked.faulty (hl : Linked s) : Linked { s with fault := true } :=
  ⟨hl.known, hl.fresh, hl.typed, hl.calling⟩

theorem Linked.goto (hl : Linked s) {stage : Stage}
    (hstage : ∀ item rest, stage = .calling item rest →
      s.alive item = true ∧ (s.object item).inUse = true) : Linked { s with stage := stage } :=
  ⟨hl.known, hl.fresh, hl.typed, hstage⟩

theorem Linked.setObject (hl : Linked s) (hevent : o.eventObject = (s.object h).eventObject)
    (htype : o.type = (s.object h).type)
    (hinUse : ∀ rest, s.stage = .calling h rest → o.inUse = true) : Linked (s.setObject h o) := by
  refine ⟨hl.known, hl.fresh, fun g hg => ?_, fun item rest hstage => ?_⟩
  · by_cases hgh : g = h
    · subst hgh
      simpa [State.setObject, HandlerObjectImpl.handle, hevent, htype] using hl.typed g hg
    · simpa [State.setObject, Function.update_of_ne hgh] using hl.typed g hg
  · rcases hl.calling item rest hstage with ⟨halive, hused⟩
    refine ⟨halive, ?_⟩
    by_cases hitem : item = h
    · subst hitem
      simpa [State.setObject] using hinUse rest hstage
    · simpa [State.setObject, Function.update_of_ne hitem] using hused

/-- Registrations depend on nothing else of a state. -/
theorem Matched.congr (hs : Matched s) (hudata : s'.udata = s.udata) (halive : s'.alive = s.alive)
    (hadded : s'.added = s.added)
    (hobject : ∀ g, (s'.object g).eventObject = (s.object g).eventObject ∧
      (s'.object g).type = (s.object g).type) : Matched s' := by
  have hfilters : ∀ g f, (s'.object g).filters f = (s.object g).filters f := by
    intro g f
    cases f <;> simp [HandlerObjectImpl.filters, HandlerObjectImpl.handle, (hobject g).1,
      (hobject g).2]
  have hhandle : ∀ g, (s'.object g).handle = (s.object g).handle := fun g => by
    simp [HandlerObjectImpl.handle, (hobject g).1]
  refine ⟨?_, ?_, ?_⟩
  · simpa [hudata, halive] using hs.carries
  · simpa [hudata, halive, hadded, hfilters, hhandle] using hs.present
  · simpa [hudata, halive, hadded] using hs.removed

theorem Matched.setObject (hs : Matched s) (hevent : o.eventObject = (s.object h).eventObject)
    (htype : o.type = (s.object h).type) : Matched (s.setObject h o) := by
  refine hs.congr rfl rfl rfl fun g => ?_
  by_cases hgh : g = h
  · subst hgh
    simp [State.setObject, hevent, htype]
  · simp [State.setObject, Function.update_of_ne hgh]

theorem Matched.goto (hs : Matched s) (stage : Stage) : Matched { s with stage := stage } :=
  ⟨hs.carries, hs.present, hs.removed⟩

theorem Matched.faulty (hs : Matched s) : Matched { s with fault := true } :=
  ⟨hs.carries, hs.present, hs.removed⟩

/-! ## Removing -/

/-- What is registered once the calls of a removal have been made. -/
def unregistered (s : State) (h : Nat) (ok : Filter → Bool) (k : Key) : Option Nat :=
  let o := s.object h
  if k = (o.handle, .write) ∧ (has o.type BEYOND_EVENT_TYPE_READ ∧ ok .read ∨
      has o.type BEYOND_EVENT_TYPE_WRITE ∧ ok .write) then none
  else s.udata k

/-- A handler in use is only marked, any other is deleted. -/
theorem remove_eq :
    (removeEventHandlerImpl s h ok).1 =
      if (s.object h).inUse then s.setObject h { s.object h with state := .delete }
      else { s with
        object := Function.update s.object h
          { s.object h with inUse := true, state := .deleted }
        alive := Function.update s.alive h false
        udata := unregistered s h ok } := by
  cases hinUse : (s.object h).inUse with
  | true => simp [removeEventHandlerImpl, hinUse]
  | false =>
      have hudata : ∀ t : Key → Option Nat, (∀ k, t k = unregistered s h ok k) →
          t = unregistered s h ok := fun t ht => funext ht
      cases hr : has (s.object h).type BEYOND_EVENT_TYPE_READ <;>
        cases hw : has (s.object h).type BEYOND_EVENT_TYPE_WRITE <;>
        cases hread : ok .read <;> cases hwrite : ok .write <;>
        simp [removeEventHandlerImpl, State.unregister, State.setObject, State.free, hinUse, hr, hw,
          hread, hwrite] <;>
        exact hudata _ fun k => by
          simp [unregistered, Function.update_apply, hr, hw, hread, hwrite]

theorem matched_remove_iff (hs : Matched s) (hl : Linked s) (halive : s.alive h = true)
    (hinUse : (s.object h).inUse = false) :
    Matched (removeEventHandlerImpl s h ok).1 ↔ Unregisters (s.object h) ok := by
  have hmem : h ∈ s.added := hl.known h halive
  rcases hl.typed h hmem with ⟨htimer, htype⟩
  have hpresent := hs.present h hmem halive
  rw [remove_eq, hinUse]
  simp only [Bool.false_eq_true, if_false]
  constructor
  · intro hs'
    have hgone : ∀ k, unregistered s h ok k ≠ some h := fun k hk => by
      simpa using hs'.carries k h hk
    have hr : has (s.object h).type BEYOND_EVENT_TYPE_READ = false := by
      rw [Bool.eq_false_iff]
      intro hr
      have hk : s.udata ((s.object h).handle, .read) = some h :=
        (hpresent _).2 ⟨rfl, by simp [HandlerObjectImpl.filters, htimer, hr]⟩
      exact hgone ((s.object h).handle, .read) (by simpa [unregistered] using hk)
    have hw := htype.resolve_left (by simp [hr])
    refine ⟨hr, ?_⟩
    by_contra hwrite
    have hk : s.udata ((s.object h).handle, .write) = some h :=
      (hpresent _).2 ⟨rfl, by simp [HandlerObjectImpl.filters, htimer, hw]⟩
    exact hgone ((s.object h).handle, .write) (by simpa [unregistered, hr, hwrite] using hk)
  · rintro ⟨hr, hwrite⟩
    have hw := htype.resolve_left (by simp [hr])
    -- The only key of the handler is the one that is deleted.
    have hother : ∀ k, unregistered s h ok k =
        if k = ((s.object h).handle, .write) then none else s.udata k := by
      intro k
      simp [unregistered, hr, hw, hwrite]
    have hown : ∀ k, s.udata k = some h ↔ k = ((s.object h).handle, .write) := by
      rintro ⟨ident, filter⟩
      rw [hpresent]
      cases filter <;> simp [HandlerObjectImpl.filters, htimer, hr, hw]
    have hkept : ∀ k g, g ≠ h → (unregistered s h ok k = some g ↔ s.udata k = some g) := by
      intro k g hg
      rw [hother]
      split
      · rename_i hk
        simp [(hown k).2 hk, Ne.symm hg]
      · rfl
    have hcarries : ∀ k g, unregistered s h ok k = some g →
        Function.update s.alive h false g = true := by
      intro k g hk
      by_cases hg : g = h
      · subst hg
        rw [hother] at hk
        split at hk
        · cases hk
        · rename_i hne
          exact absurd ((hown k).1 hk) hne
      · rw [Function.update_of_ne hg]
        exact hs.carries k g ((hkept k g hg).1 hk)
    refine ⟨hcarries, fun g hg halive' k => ?_, fun g hg hdead k hk => ?_⟩
    · have hne : g ≠ h := by
        rintro rfl
        simp at halive'
      simp only [Function.update_of_ne hne] at halive' ⊢
      rw [hkept k g hne]
      exact hs.present g hg halive' k
    · exact absurd (hdead.symm.trans (hcarries k g hk)) Bool.false_ne_true

theorem linked_remove (hl : Linked s) : Linked (removeEventHandlerImpl s h ok).1 := by
  rw [remove_eq]
  cases hinUse : (s.object h).inUse with
  | true => exact hl.setObject rfl rfl fun _ _ => hinUse
  | false =>
      simp only [Bool.false_eq_true, if_false]
      refine ⟨fun g hg => ?_, hl.fresh, fun g hg => ?_, fun item rest hstage => ?_⟩
      · have hne : g ≠ h := by
          rintro rfl
          simp at hg
        exact hl.known g (by simpa [Function.update_of_ne hne] using hg)
      · by_cases hgh : g = h
        · subst hgh
          simpa [HandlerObjectImpl.handle] using hl.typed g hg
        · simpa [Function.update_of_ne hgh] using hl.typed g hg
      · rcases hl.calling item rest hstage with ⟨halive, hused⟩
        have hne : item ≠ h := by
          rintro rfl
          rw [hinUse] at hused
          cases hused
        simp [Function.update_of_ne hne, halive, hused]

/-! ## Every step -/

theorem matched_addEventHandler_iff (hs : Matched s) (hl : Linked s)
    (eventObject : Option EventObject) (eventHandler allocated : Bool) :
    Matched (addEventHandlerInternal s eventObject type eventHandler allocated ok).1 ↔
      Keeps s (.add eventObject type eventHandler allocated ok) := by
  by_cases hcalls : ∃ e, eventObject = some e ∧ eventHandler = true ∧ allocated = true ∧
      ¬ e.handle.toInt < 0
  · rcases hcalls with ⟨e, rfl, rfl, rfl, hpos⟩
    rw [matched_add_iff hs hl hpos]
    exact ⟨fun hregisters _ => hregisters, fun hkeeps => hkeeps (not_lt.1 hpos)⟩
  · have hrejected : ∀ e, eventObject = some e → eventHandler = true → allocated = true →
        e.handle.toInt < 0 := fun e he hh ha =>
      not_not.1 fun hneg => hcalls ⟨e, he, hh, ha, hneg⟩
    rw [add_rejected hrejected]
    refine iff_of_true hs ?_
    unfold Keeps
    split
    · rename_i heq
      cases heq
      exact fun hpos => absurd (hrejected _ rfl rfl rfl) (not_lt.2 hpos)
    · trivial
    · trivial
    · trivial

/-- `RemoveEventHandler` deletes a handler that is neither in use nor marked. -/
theorem matched_removeEventHandler_iff (hs : Matched s) (hl : Linked s)
    (halive : s.alive h = true) :
    Matched (removeEventHandler s (some h) ok).1 ↔ Keeps s (.remove (some h) ok) := by
  simp only [removeEventHandler]
  split
  · rename_i hstate
    exact iff_of_true hs fun _ hinit => absurd hinit hstate
  · rename_i hstate
    cases hinUse : (s.object h).inUse with
    | false =>
        rw [matched_remove_iff hs hl halive hinUse]
        exact ⟨fun hgone _ _ _ => hgone, fun hkeeps => hkeeps halive (not_not.1 hstate) hinUse⟩
    | true =>
        rw [remove_eq, if_pos hinUse]
        refine iff_of_true (hs.setObject rfl rfl) fun _ _ hnot => ?_
        rw [hinUse] at hnot
        cases hnot

theorem linked_returns {opt : HandlerReturn} (hl : Linked s) (h : returns s opt ok = some s') :
    Linked s' := by
  unfold returns at h
  split at h
  · rename_i item rest hstage
    have ht : Linked { s with stage := .batch rest } := hl.goto nofun
    simp only at h
    split at h
    · cases h
      exact ht.faulty
    · split at h
      · cases h
        exact linked_remove (ht.setObject rfl rfl nofun)
      · cases h
        exact ht.setObject rfl rfl nofun
  · cases h

theorem linked_next (hl : Linked s) (h : next s = some s') : Linked s' := by
  unfold next at h
  split at h
  · cases h
    exact hl.goto nofun
  · rename_i e rest hstage
    simp only at h
    split at h
    · cases h
      exact hl.faulty
    · rename_i halive
      split at h
      · cases h
        exact hl.goto nofun
      · split at h
        · cases h
          exact hl.goto nofun
        · cases h
          have ht := hl.setObject (h := e.udata) (o := { s.object e.udata with inUse := true }) rfl
            rfl fun _ _ => rfl
          refine ht.goto ?_
          rintro item rest' hcalling
          cases hcalling
          exact ⟨by simpa [State.setObject] using halive, by simp [State.setObject]⟩
  · cases h

theorem linked_step {a : Act} (hl : Linked s) (h : step s a = some s') : Linked s' := by
  unfold step at h
  split at h
  · cases h
  · cases a with
    | add eventObject type eventHandler allocated ok =>
        cases h
        exact linked_add hl eventObject eventHandler allocated
    | remove handlerObject ok =>
        simp only at h
        split at h
        · cases h
          exact hl.faulty
        · cases h
          cases handlerObject with
          | none => exact hl
          | some g =>
              simp only [removeEventHandler]
              split
              · exact hl
              · exact linked_remove hl
    | wait events =>
        simp only at h
        split at h
        · cases h
          exact hl.goto nofun
        · cases h
    | next => exact linked_next hl h
    | returns opt ok => exact linked_returns hl h

theorem matched_next (hs : Matched s) (h : next s = some s') : Matched s' := by
  unfold next at h
  split at h
  · cases h
    exact hs.goto _
  · rename_i e rest hstage
    simp only at h
    split at h
    · cases h
      exact hs.faulty
    · split at h
      · cases h
        exact hs.goto _
      · split at h
        · cases h
          exact hs.goto _
        · cases h
          exact (hs.setObject (h := e.udata) (o := { s.object e.udata with inUse := true }) rfl
            rfl).goto _
  · cases h

/-- The loop removes a handler that has returned `CANCEL`, or that was marked in the meantime. -/
theorem matched_returns_iff {opt : HandlerReturn} (hs : Matched s) (hl : Linked s)
    (h : returns s opt ok = some s') :
    Matched s' ↔ Keeps s (.returns opt ok) := by
  unfold returns at h
  split at h
  · rename_i item rest hstage
    have ht : Matched { s with stage := .batch rest } := hs.goto _
    have hlt : Linked { s with stage := .batch rest } := hl.goto nofun
    have halive := (hl.calling item rest hstage).1
    simp only [halive, Bool.true_eq_false, if_false] at h
    split at h
    · rename_i hremoved
      cases h
      have hmatched : Matched (State.setObject { s with stage := .batch rest } item
          { s.object item with state := .delete, inUse := false }) := ht.setObject rfl rfl
      have hlinked : Linked (State.setObject { s with stage := .batch rest } item
          { s.object item with state := .delete, inUse := false }) := hlt.setObject rfl rfl nofun
      rw [matched_remove_iff hmatched hlinked halive (by simp [State.setObject])]
      simp only [Keeps, hstage]
      constructor
      · intro hgone _
        simpa [State.setObject, Unregisters] using hgone
      · intro hgone
        simpa [State.setObject, Unregisters] using hgone hremoved
    · rename_i hkept
      cases h
      refine iff_of_true (ht.setObject rfl rfl) ?_
      simp only [Keeps, hstage]
      exact fun hremoved => absurd hremoved hkept
  · cases h

theorem matched_step_iff {a : Act} (hs : Matched s) (hl : Linked s) (h : step s a = some s') :
    Matched s' ↔ Keeps s a := by
  unfold step at h
  split at h
  · cases h
  · cases a with
    | add eventObject type eventHandler allocated ok =>
        cases h
        exact matched_addEventHandler_iff hs hl eventObject eventHandler allocated
    | remove handlerObject ok =>
        cases handlerObject with
        | none =>
            cases h
            exact iff_of_true hs trivial
        | some g =>
            simp only [Option.any_some, Bool.not_eq_true'] at h
            split at h
            · rename_i hdead
              cases h
              exact iff_of_true hs.faulty fun halive => absurd (hdead.symm.trans halive) (by simp)
            · rename_i halive
              cases h
              exact matched_removeEventHandler_iff hs hl (by simpa using halive)
    | wait events =>
        simp only at h
        split at h
        · cases h
          simp [Keeps, hs.goto]
        · cases h
    | next => simpa [Keeps] using matched_next hs h
    | returns opt ok => exact matched_returns_iff hs hl h

/-! ## Runs -/

/-- `P` holds after the step, if it can be made. -/
def After (P : State → Prop) (s : State) (a : Act) : Prop := ∀ s', step s a = some s' → P s'

theorem registrations_match (as : List Act) (s : State)
    (h : Run.exec step State.start as = some s) :
    Run.Along step (After Matched) State.start as ↔ Run.Along step Keeps State.start as := by
  have hkept : Run.Preserved step Keeps fun s => Matched s ∧ Linked s := by
    rintro s a s' ⟨hs, hl⟩ hkeeps hstep
    exact ⟨(matched_step_iff hs hl hstep).2 hkeeps, linked_step hl hstep⟩
  refine Run.along_iff_of_invariant hkept ?_ ⟨matched_start, linked_start⟩ h
  rintro s a s' ⟨hs, hl⟩ hstep
  rw [← matched_step_iff hs hl hstep]
  constructor
  · intro hafter
    exact hafter s' hstep
  · intro hmatched t ht
    cases Option.some.inj (hstep.symm.trans ht)
    exact hmatched

/-- A handler for writing and one for reading are added, and an event removes the former. -/
def writeRun : List Act :=
  [.add (some ⟨5#32, false⟩) BEYOND_EVENT_TYPE_WRITE true true fun _ => true,
    .add (some ⟨5#32, false⟩) BEYOND_EVENT_TYPE_READ true true fun _ => true,
    .wait [⟨(5#32, .write), 0, false⟩], .next, .returns .cancel fun _ => true]

theorem write_handler_removed :
    (∃ s, Run.exec step State.start writeRun = some s ∧ s.udata (5#32, .write) = none ∧
      s.udata (5#32, .read) = some 1) ∧
    Run.Along step (After Matched) State.start writeRun := by
  refine ⟨⟨_, rfl, rfl, rfl⟩, (registrations_match writeRun _ rfl).2 ?_⟩
  decide

/-- A handler for reading is added and removed. -/
def readRun : List Act :=
  [.add (some ⟨5#32, false⟩) BEYOND_EVENT_TYPE_READ true true fun _ => true,
    .remove (some 0) fun _ => true]

theorem read_filter_stays :
    (∃ s, Run.exec step State.start readRun = some s ∧ s.udata (5#32, .read) = some 0 ∧
      s.alive 0 = false) ∧
    ¬ Run.Along step (After Matched) State.start readRun := by
  refine ⟨⟨_, rfl, rfl, rfl⟩, fun h => ?_⟩
  have hs := (h.2 _ rfl).1 _ rfl
  exact absurd (hs.carries (5#32, .read) 0 rfl) (by decide)

end Kqueue
end EventLoop
end Beyond
