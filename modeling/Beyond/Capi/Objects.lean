import Beyond.Module.Loading

/-!
# Objects of an application

`beyond_authenticator_h`, `beyond_peer_h` and `beyond_runtime_h` are pointers to records that begin
with a `beyond_generic_handle`: a magic text and a pointer to the object.  The functions look at the
text, which tells neither the type of a record nor whether the record is still there.

The event loop of a session calls back for the objects that are registered in it.  It works off the
events of one `epoll_pwait` after the other, each with the pointer to the handler that was registered.
A callback is a stretch of the run in which the application may call anything, and its object is used
again when it returns.  The calls of the application and the begin and the end of a callback are single
steps.
-/

namespace Beyond
namespace Capi
namespace Objects

open Bytes Beyond.Module

inductive Class
  | authenticator
  | peer
  | runtime
  deriving DecidableEq, Repr

/-- The module behind it. -/
def Class.kind : Class → Loading.Kind
  | .authenticator => .authenticator
  | .peer => .peer
  | .runtime => .runtime

/-- `beyond_authenticator`, `beyond_inference_peer` or `beyond_inference_runtime`. -/
structure Record where
  «class» : Class
  address : Nat
  /-- `_generic.handle`. -/
  handle : Nat
  /-- `eventLoop`. -/
  session : Nat
  /-- Whether it is registered in the event loop. -/
  handlerObject : Bool
  /-- Whether the application has set a callback. -/
  eventHandler : Bool
  deriving DecidableEq, Repr

/-- Where the loop of a session is in `WaitEpoll`. -/
structure Turn where
  /-- The object whose callback is running. -/
  current : Option Nat
  /-- The records whose events are still to come. -/
  events : List Nat
  deriving DecidableEq, Repr

structure State where
  modules : Loading.State
  memory : Ledger
  records : List Record
  loops : Nat → Turn
  fault : Bool

namespace State

def init : State := ⟨.init, .empty, [], fun _ => ⟨none, []⟩, false⟩

variable (s : State)

def damaged : State := { s with fault := true }

def faulty : Bool := s.fault || s.modules.fault

/-- A member function of an object. -/
def callObject (object : Nat) : State :=
  { s with modules := Loading.call object .other s.modules }

def free (address : Nat) : State := { s with memory := s.memory.free address }

def find (address : Nat) : Option Record := s.records.find? fun r => r.address = address

def setLoop (session : Nat) (turn : Turn) : State :=
  { s with loops := Function.update s.loops session turn }

end State

/-! ## Handles -/

inductive Found
  | refused
  | fault
  | record (r : Record)
  deriving DecidableEq, Repr

/-- `beyond_generic_handle_get_handle` for the objects of a class.  The text in a record that was
released is read in vain, and an object of another class is taken for one of this. -/
def getHandle (s : State) (c : Class) : Option Nat → Found
  | none => .refused
  | some address =>
      match s.find address with
      | none => .fault
      | some r => if r.class = c then .record r else .fault

/-- A function that only passes something on: `beyond_peer_activate` and others. -/
def pass (c : Class) (h : Option Nat) (s : State) : State :=
  match getHandle s c h with
  | .refused => s
  | .fault => s.damaged
  | .record r => s.callObject r.handle

/-! ## Configuration -/

/-- `BEYOND_GENERIC_HANDLE_MAGIC`. -/
def magic : Bytes := ascii "_B_GEH!_"

/-- What `beyond_config::object` points to: a record, or memory of the application that ends
somewhere. -/
inductive Target
  | null
  | record (address : Nat)
  | bytes (content : Bytes)
  deriving DecidableEq, Repr

/-- Whether it can be told what is to be passed on.  `memcmp` reads as many bytes as there are in the
text, and behind the text a pointer is taken for an object. -/
def Target.readable (s : State) : Target → Bool
  | .null => true
  | .record address => (s.find address).isSome
  | .bytes content => magic.length ≤ content.length && content.take magic.length != magic

/-- `beyond_authenticator_configure` and `beyond_peer_configure` look for an object behind a handle;
`beyond_runtime_configure` does not. -/
def configure (c : Class) (h : Option Nat) (config : Option Target) (s : State) : State :=
  match getHandle s c h with
  | .refused => s
  | .fault => s.damaged
  | .record r =>
      match c, config with
      | .runtime, _ | _, none => s.callObject r.handle
      | _, some target => if target.readable s then s.callObject r.handle else s.damaged

/-! ## `create` and `destroy` -/

/-- How the calls end that a `create` makes itself. -/
structure Outcomes where
  new : Bool
  /-- What the object answers to `GetHandle`. -/
  descriptor : Int
  addEventHandler : Bool

/-- `AddEventHandler` asks the object for its descriptor, and so does `RemoveEventHandler`. -/
def watch (c : Class) (record object session : Nat) (e : Outcomes) (s : State) : State :=
  let s := s.callObject object
  if e.addEventHandler then
    { s with records := ⟨c, record, object, session, true, false⟩ :: s.records }
  else { s with modules := Loading.destroy object s.modules }.free record

/-- An object without a descriptor is left out of the event loop, but for a peer. -/
def register (c : Class) (record object session : Nat) (e : Outcomes) (s : State) : State :=
  match c with
  | .peer => watch c record object session e s
  | _ =>
      let s := s.callObject object
      if e.descriptor < 0 then
        { s with records := ⟨c, record, object, session, false, false⟩ :: s.records }
      else watch c record object session e s

def create (c : Class) (session : Option Nat) (arg : Option Loading.Argument) (o : Loading.Outcomes)
    (e : Outcomes) (s : State) : State :=
  match session with
  | none => s
  | some session =>
      if e.new then
        let record := s.memory.allocated
        let made := Loading.create c.kind arg o s.modules
        let s := { s with modules := made.2, memory := s.memory.alloc }
        match made.1 with
        | none => s.free record
        | some object => register c record object session e s
      else s

def destroy (c : Class) (h : Option Nat) (s : State) : State :=
  match getHandle s c h with
  | .refused => s
  | .fault => s.damaged
  | .record r =>
      let s := if r.handlerObject then s.callObject r.handle else s
      { s with
        modules := Loading.destroy r.handle s.modules
        records := s.records.erase r
        memory := s.memory.free r.address }

/-! ## Callbacks -/

def setHandler (r : Record) (event : Bool) (s : State) : State :=
  { s with
    records := s.records.map fun r' => if r' = r then { r with eventHandler := event } else r' }

/-- `event` tells whether the callback is not null.  Only the runtime looks at the handle, asks for
the descriptor and takes a null callback. -/
def setEventCallback (c : Class) (h : Option Nat) (event : Bool) (descriptor : Int)
    (s : State) : State :=
  match c, event with
  | .authenticator, false | .peer, false => s
  | _, _ =>
      match getHandle s c h with
      | .refused => s
      | .fault => s.damaged
      | .record r =>
          if c = .runtime then
            let s := s.callObject r.handle
            if descriptor < 0 then s else setHandler r event s
          else setHandler r event s

/-- `epoll_pwait` returns events of handlers that are registered then. -/
def wait (session : Nat) (events : List Nat) (s : State) : Option State :=
  if s.loops session = ⟨none, []⟩ ∧ events.Nodup ∧
      events.all fun address =>
        (s.find address).any fun r => r.handlerObject && r.session == session then
    some (s.setLoop session ⟨none, events⟩)
  else none

/-- The handler of an object: the event is fetched, and released again at once if there is no
callback. -/
def handle (session : Nat) (rest : List Nat) (r : Record) (s : State) : State :=
  let s := s.callObject r.handle
  if r.eventHandler then s.setLoop session ⟨some r.handle, rest⟩ else s.callObject r.handle

/-- The loop comes to its next event; `ready` tells whether the handler is for an event of this
type. -/
def dispatch (session : Nat) (ready : Bool) (s : State) : Option State :=
  match s.loops session with
  | ⟨none, address :: rest⟩ =>
      let s := s.setLoop session ⟨none, rest⟩
      match s.find address with
      -- The handler was deleted with its record, and the loop reads it in vain.
      | none => some s.damaged
      | some r => if ready then some (handle session rest r s) else some s
  | _ => none

/-- The callback returns, and the event is released. -/
def callbackReturns (session : Nat) (s : State) : Option State :=
  match s.loops session with
  | ⟨some object, rest⟩ => some ((s.callObject object).setLoop session ⟨none, rest⟩)
  | _ => none

inductive Action
  | create (c : Class) (session : Option Nat) (arg : Option Loading.Argument)
      (o : Loading.Outcomes) (e : Outcomes)
  | setEventCallback (c : Class) (h : Option Nat) (event : Bool) (descriptor : Int)
  | configure (c : Class) (h : Option Nat) (config : Option Target)
  | pass (c : Class) (h : Option Nat)
  | destroy (c : Class) (h : Option Nat)
  | wait (session : Nat) (events : List Nat)
  | dispatch (session : Nat) (ready : Bool)
  | callbackReturns (session : Nat)
  /-- The worker of an emulator goes on. -/
  | work (object : Nat)

def step (s : State) (a : Action) : Option State :=
  if s.faulty then none
  else
    match a with
    | .create c session arg o e => some (create c session arg o e s)
    | .setEventCallback c h event descriptor => some (setEventCallback c h event descriptor s)
    | .configure c h config => some (configure c h config s)
    | .pass c h => some (pass c h s)
    | .destroy c h => some (destroy c h s)
    | .wait session events => wait session events s
    | .dispatch session ready => dispatch session ready s
    | .callbackReturns session => callbackReturns session s
    | .work object => (Loading.step s.modules (.work object)).map fun m => { s with modules := m }

/-! ## What an application has to keep -/

/-- The application has the object and it is of the class that the function is for, or the pointer is
null. -/
def Own (s : State) (c : Class) (h : Option Nat) : Prop :=
  ∀ address, h = some address → ∃ r, s.find address = some r ∧ r.class = c

/-- A runtime without an asynchronous mode for which there is no emulator: `create` asks the null
pointer for its descriptor. -/
def Unattached (c : Class) (arg : Option Loading.Argument) (o : Loading.Outcomes) : Prop :=
  Loading.wanted c.kind arg o ≠ none ∧ ∃ made, o.main = some made ∧ Loading.Unattached c.kind made

def Sound (s : State) : Action → Prop
  | .create c session arg o e =>
      session ≠ none → e.new = true → Loading.check c.kind arg ≠ .fault ∧ ¬ Unattached c arg o
  | .setEventCallback c h event _ => (c ≠ .runtime → event = true) → Own s c h
  | .configure c h config =>
      Own s c h ∧ ∀ target, h ≠ none → c ≠ .runtime → config = some target → target.readable s = true
  | .pass c h => Own s c h
  | .destroy c h => Own s c h
  -- No object whose event is still to come has been destroyed meanwhile.
  | .dispatch session _ => ∀ address, (s.loops session).events.head? = some address →
      s.find address ≠ none
  -- The object of the callback has not been destroyed in it.
  | .callbackReturns session => ∀ object, (s.loops session).current = some object →
      ∃ r ∈ s.records, r.handle = object
  | .work object => Loading.Sound s.modules (.work object)
  | .wait _ _ => True

section Handles

variable {s : State} {c : Class} {h : Option Nat}

theorem getHandle_cases (hown : Own s c h) :
    (h = none ∧ getHandle s c h = .refused) ∨
      ∃ r ∈ s.records, r.class = c ∧ h = some r.address ∧ getHandle s c h = .record r := by
  cases h with
  | none => exact .inl ⟨rfl, rfl⟩
  | some address =>
      rcases hown address rfl with ⟨r, hr, hclass⟩
      have hmem : r ∈ s.records := List.mem_of_find?_eq_some hr
      have haddress : r.address = address := by simpa using List.find?_some hr
      refine .inr ⟨r, hmem, hclass, congrArg some haddress.symm, ?_⟩
      rw [getHandle, hr]
      exact if_pos hclass

end Handles

/-! ## The records and the objects behind them -/

/-- A call that is under way has the objects `pending` and the blocks `blocks` besides those of the
records. -/
structure Holds (pending : List (Loading.Kind × Nat)) (blocks : List Nat) (s : State) : Prop where
  reached : Loading.Reaches .init s.modules
  attached : ∀ i ∈ s.modules.impls, i.async ≠ none
  paired : (pending ++ s.records.map fun r => (r.class.kind, r.handle)).Perm
    (s.modules.impls.map fun i => (i.kind, i.object))
  memory : s.memory.Balanced (blocks ++ s.records.map Record.address)
  fault : s.fault = false

/-- Between two calls. -/
def Inv (s : State) : Prop := Holds [] [] s

namespace Holds

variable {pending : List (Loading.Kind × Nat)} {blocks : List Nat} {s : State} {k : Loading.Kind}
  {object address : Nat}

theorem inv (h : Holds pending blocks s) : Loading.Inv s.modules :=
  h.reached.inv Loading.init_inv

theorem sound (h : Holds pending blocks s) : s.faulty = false := by
  rw [State.faulty, h.fault, h.inv.fault]
  rfl

theorem free (h : Holds pending (address :: blocks) s) : Holds pending blocks (s.free address) :=
  ⟨h.reached, h.attached, h.paired, h.memory.free, h.fault⟩

/-- The object of a record. -/
theorem impl_of_mem (h : Holds pending blocks s)
    (hobject : (k, object) ∈ pending ++ s.records.map fun r => (r.class.kind, r.handle)) :
    ∃ i ∈ s.modules.impls, i.kind = k ∧ i.object = object ∧ s.modules.find object = some i := by
  rcases List.mem_map.1 (h.paired.subset hobject) with ⟨i, hi, heq⟩
  cases heq
  exact ⟨i, hi, rfl, rfl, Loading.find_of_mem h.inv hi⟩

theorem callObject (h : Holds pending blocks s)
    (hobject : (k, object) ∈ pending ++ s.records.map fun r => (r.class.kind, r.handle)) :
    s.callObject object = s := by
  rcases h.impl_of_mem hobject with ⟨i, hi, -, -, hfind⟩
  rw [State.callObject, Loading.call_same (m := .other) h.inv hfind (h.attached i hi)]

theorem callRecord (h : Holds pending blocks s) {r : Record} (hr : r ∈ s.records) :
    s.callObject r.handle = s :=
  h.callObject (List.mem_append_right _ (List.mem_map_of_mem hr))

theorem destroyed (h : Holds ((k, object) :: pending) blocks s) :
    Holds pending blocks { s with modules := Loading.destroy object s.modules } := by
  rcases h.impl_of_mem List.mem_cons_self with ⟨i, hi, rfl, rfl, hfind⟩
  have hholds := Loading.destroy_holds h.inv hfind
  refine ⟨h.reached.trans (.destroy h.inv.fault (by simp [hfind])), ?_, ?_, h.memory, h.fault⟩
  · intro j hj
    rw [hholds.objects] at hj
    exact h.attached j (List.mem_of_mem_erase hj)
  · have hperm := h.paired.trans
      ((List.perm_cons_erase hi).map fun i : Loading.Impl => (i.kind, i.object))
    dsimp only
    rw [hholds.objects]
    exact hperm.cons_inv

/-- What was made is given to the application. -/
theorem keep {c : Class} {session : Nat} {handlerObject eventHandler : Bool}
    (h : Holds [(c.kind, object)] [address] s) :
    Holds [] []
      { s with records := ⟨c, address, object, session, handlerObject, eventHandler⟩ :: s.records } :=
  ⟨h.reached, h.attached, h.paired, h.memory, h.fault⟩

theorem setLoop (h : Holds pending blocks s) (session : Nat) (turn : Turn) :
    Holds pending blocks (s.setLoop session turn) :=
  ⟨h.reached, h.attached, h.paired, h.memory, h.fault⟩

end Holds

/-! ## Steps -/

section Steps

variable {s s' : State} {a : Action} {c : Class} {e : Outcomes} {record object session : Nat}

theorem watch_holds (h : Holds [(c.kind, object)] [record] s) :
    Inv (watch c record object session e s) := by
  rw [watch, h.callObject (List.mem_append_left _ (List.mem_singleton_self _))]
  split
  · exact h.keep
  · exact h.destroyed.free

theorem register_holds (h : Holds [(c.kind, object)] [record] s) :
    Inv (register c record object session e s) := by
  unfold register
  split
  · exact watch_holds h
  · rw [h.callObject (List.mem_append_left _ (List.mem_singleton_self _))]
    dsimp only
    split
    · exact h.keep
    · exact watch_holds h

theorem create_holds {session : Option Nat} {arg : Option Loading.Argument} {o : Loading.Outcomes}
    (h : Inv s) (hsound : Sound s (.create c session arg o e)) :
    Inv (create c session arg o e s) := by
  unfold create
  split
  · exact h
  rename_i session
  split
  · rename_i hnew
    rcases hsound (Option.some_ne_none session) hnew with ⟨hcheck, hattached⟩
    have hreached := h.reached.trans (.create (o := o) h.inv.fault hcheck)
    rcases Loading.create_cases (o := o) h.inv hcheck with
      ⟨-, hnone, hholds⟩ | ⟨i, hwanted, hsome, hkind, hasync, hholds⟩
    · have hmade : Holds [] [s.memory.allocated]
          { s with modules := (Loading.create c.kind arg o s.modules).2, memory := s.memory.alloc } :=
        { reached := hreached
          attached := fun j hj => h.attached j (hholds.objects ▸ hj)
          paired := hholds.objects ▸ h.paired
          memory := h.memory.alloc
          fault := h.fault }
      simp only [hnone]
      exact hmade.free
    · have hmade : Holds [(c.kind, i.object)] [s.memory.allocated]
          { s with modules := (Loading.create c.kind arg o s.modules).2, memory := s.memory.alloc } := by
        refine ⟨hreached, ?_, ?_, h.memory.alloc, h.fault⟩
        · intro j hj
          rw [hholds.objects] at hj
          rcases List.mem_cons.1 hj with rfl | hj
          · -- the emulator of a runtime that needs one is there
            exact fun hnone => hattached ⟨by simp [hwanted], hasync.1 hnone⟩
          · exact h.attached j hj
        · dsimp only
          rw [hholds.objects, ← hkind]
          exact h.paired.cons _
      simp only [hsome]
      exact register_holds hmade
  · exact h

theorem setHandler_inv {r : Record} {event : Bool} (h : Inv s) : Inv (setHandler r event s) := by
  have hrecords : ∀ {β : Type} (f : Record → β), f { r with eventHandler := event } = f r →
      (setHandler r event s).records.map f = s.records.map f := by
    intro β f hf
    rw [setHandler, List.map_map]
    refine List.map_congr_left fun r' _ => ?_
    rw [Function.comp_apply]
    split
    · rename_i heq
      rw [hf, heq]
    · rfl
  refine ⟨h.reached, h.attached, ?_, ?_, h.fault⟩
  · rw [hrecords (fun r => (r.class.kind, r.handle)) rfl]
    exact h.paired
  · rw [hrecords Record.address rfl]
    exact h.memory

theorem setEventCallback_inv {h : Option Nat} {event : Bool} {descriptor : Int} (hs : Inv s)
    (hown : Sound s (.setEventCallback c h event descriptor)) :
    Inv (setEventCallback c h event descriptor s) := by
  unfold setEventCallback
  split
  · exact hs
  · exact hs
  · rename_i hauthenticator hpeer
    have hevent : c ≠ .runtime → event = true := by
      intro hne
      cases event with
      | true => rfl
      | false =>
          cases c with
          | authenticator => exact absurd rfl (hauthenticator rfl)
          | peer => exact absurd rfl (hpeer rfl)
          | runtime => exact absurd rfl hne
    rcases getHandle_cases (hown hevent) with ⟨-, hget⟩ | ⟨r, hr, -, -, hget⟩
    · rw [hget]
      exact hs
    · rw [hget]
      dsimp only
      split
      · rw [hs.callRecord hr]
        split
        · exact hs
        · exact setHandler_inv hs
      · exact setHandler_inv hs

theorem pass_same {h : Option Nat} (hs : Inv s) (hown : Own s c h) : pass c h s = s := by
  rcases getHandle_cases hown with ⟨-, hget⟩ | ⟨r, hr, -, -, hget⟩
  · rw [pass, hget]
  · rw [pass, hget]
    exact hs.callRecord hr

theorem configure_same {h : Option Nat} {config : Option Target} (hs : Inv s)
    (hsound : Sound s (.configure c h config)) : configure c h config s = s := by
  rcases getHandle_cases hsound.1 with ⟨-, hget⟩ | ⟨r, hr, -, hsome, hget⟩
  · rw [configure, hget]
  · rw [configure, hget]
    dsimp only
    split
    · exact hs.callRecord hr
    · exact hs.callRecord hr
    · rename_i target hclass
      rw [if_pos (hsound.2 target (by simp [hsome]) (fun heq => hclass heq) rfl)]
      exact hs.callRecord hr

theorem destroy_inv {h : Option Nat} (hs : Inv s) (hown : Own s c h) : Inv (destroy c h s) := by
  rcases getHandle_cases hown with ⟨-, hget⟩ | ⟨r, hr, -, -, hget⟩
  · rw [destroy, hget]
    exact hs
  · have hcall : (if r.handlerObject then s.callObject r.handle else s) = s := by
      rw [hs.callRecord hr, ite_self]
    rw [destroy, hget]
    simp only [hcall]
    -- the record is given back before its object is destroyed
    have htaken : Holds [(r.class.kind, r.handle)] [r.address]
        { s with records := s.records.erase r } :=
      { reached := hs.reached
        attached := hs.attached
        paired := ((List.perm_cons_erase hr).map _).symm.trans hs.paired
        memory := hs.memory.perm ((List.perm_cons_erase hr).map _)
        fault := hs.fault }
    exact htaken.destroyed.free

theorem handle_inv {rest : List Nat} {r : Record} (hs : Inv s) (hr : r ∈ s.records) :
    Inv (handle session rest r s) := by
  have hcall := hs.callRecord hr
  rw [handle, hcall]
  split
  · exact hs.setLoop session ⟨some r.handle, rest⟩
  · rw [hcall]
    exact hs

theorem dispatch_inv {ready : Bool} (hs : Inv s) (hsound : Sound s (.dispatch session ready))
    (h : dispatch session ready s = some s') : Inv s' := by
  unfold dispatch at h
  split at h
  · rename_i address rest hloop
    have hturned : Inv (s.setLoop session ⟨none, rest⟩) := hs.setLoop session ⟨none, rest⟩
    have hfound : (s.setLoop session ⟨none, rest⟩).find address ≠ none :=
      hsound address (by rw [hloop]; rfl)
    rcases Option.ne_none_iff_exists'.1 hfound with ⟨r, hr⟩
    simp only [hr] at h
    split at h
    · cases h
      exact handle_inv hturned (List.mem_of_find?_eq_some hr)
    · cases h
      exact hturned
  · cases h

/-- A sound action keeps records and objects together. -/
theorem step_inv (hs : Inv s) (ha : Sound s a) (hstep : step s a = some s') : Inv s' := by
  unfold step at hstep
  rw [if_neg (by simp [hs.sound])] at hstep
  cases a with
  | create c session arg o e =>
      cases hstep
      exact create_holds hs ha
  | setEventCallback c h event descriptor =>
      cases hstep
      exact setEventCallback_inv hs ha
  | configure c h config =>
      cases hstep
      rw [configure_same hs ha]
      exact hs
  | pass c h =>
      cases hstep
      rw [pass_same hs ha]
      exact hs
  | destroy c h =>
      cases hstep
      exact destroy_inv hs ha
  | wait session events =>
      simp only [wait] at hstep
      split at hstep
      · cases hstep
        exact hs.setLoop session ⟨none, events⟩
      · cases hstep
  | dispatch session ready => exact dispatch_inv hs ha hstep
  | callbackReturns session =>
      simp only [callbackReturns] at hstep
      split at hstep
      · rename_i object rest hloop
        cases hstep
        rcases ha object (by rw [hloop]) with ⟨r, hr, rfl⟩
        rw [hs.callRecord hr]
        exact hs.setLoop session ⟨none, rest⟩
      · cases hstep
  | work object =>
      rcases Option.map_eq_some_iff.1 hstep with ⟨m, hm, rfl⟩
      have hsound : Loading.Sound s.modules (.work object) := ha
      have hsame := (Loading.step_effect hs.inv hsound hm).2.worked_eq
      exact
        { reached := hs.reached.trans (.step hsound hm)
          attached := fun i hi => hs.attached i (hsame ▸ hi)
          paired := hsame ▸ hs.paired
          memory := hs.memory
          fault := hs.fault }

/-! Whatever else an application does is a fault. -/

end Steps

/-! ## Runs -/

theorem init_inv : Inv .init where
  reached := .refl _
  attached _ hi := absurd hi List.not_mem_nil
  paired := .refl _
  memory := .empty
  fault := rfl

end Objects
end Capi
end Beyond
