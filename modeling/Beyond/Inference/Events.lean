import Beyond.Base.Ownership
import Beyond.Base.Run
import Beyond.EventLoop.Dispatch

/-!
# Events of the peers at the inference

A peer publishes its events through the pipe of its `EventObject`.  Fetching one invokes, among
other handlers, the `PeerEventHandler` that `AddPeer` has registered, which copies the event and
publishes the copy through the pipe of the inference.  Fetching from there invokes the handlers of the
application.  Both event objects are the same class; what goes through the pipes are pointers.

A fetch goes on handler by handler, beside the publications and the fetches from the other objects.
-/

namespace Beyond
namespace Inference
namespace Events

open EventLoop EventObject

/-! ## State -/

def READ : BitVec 32 := 0x00000010
def ERROR : BitVec 32 := 0x00000040

structure EventData (π δ : Type*) where
  type : BitVec 32
  data : δ
  /-- The peer that has published the event; nothing reads it. -/
  origin : π
  deriving DecidableEq, Repr

/-- The event objects. -/
inductive Site (π : Type*)
  | peer (p : π)
  | inference
  deriving DecidableEq, Repr

/-- A `FetchEventData` that has got its event: the handlers before and behind its iterator. -/
structure Fetch (η δ : Type*) where
  event : Nat
  done : List (Registration η δ)
  todo : List (Registration η δ)
  deriving DecidableEq, Repr

structure Object (η δ : Type*) where
  pipe : List Nat
  handlers : List (Registration η δ)
  fetching : Option (Fetch η δ)
  deriving DecidableEq, Repr

structure State (π η δ : Type*) where
  heap : Nat → Option (EventData π δ)
  object : Site π → Object η δ
  /-- What the callers of `FetchEventData` have got, and have not destroyed yet. -/
  fetched : List Nat
  published : π → List (BitVec 32 × δ)
  /-- The events that the handler of the application was invoked with. -/
  invocations : List (EventData π δ)

/-- The registration that is followed on each object. -/
structure Setup (η δ : Type*) where
  peerEventHandler : η
  /-- `Inference::impl::remote`. -/
  remote : δ
  /-- The one of the application. -/
  tracked : Registration η δ

inductive Act (π η δ : Type*)
  /-- The peer publishes an event; the record for it is allocated at `addr`. -/
  | publish (p : π) (type : BitVec 32) (data : δ) (addr : Nat)
  /-- `FetchEventData` up to its loop. -/
  | fetch (x : Site π) (exception : Bool)
  /-- The loop of `FetchEventData` gets to its next handler, which returns `ret`; a copy of the event
  is allocated at `addr`. -/
  | next (x : Site π) (ret : HandlerReturn) (addr : Nat)
  | finish (x : Site π)
  /-- `DestroyEventData`. -/
  | destroy (addr : Nat)
  /-- `AddHandler`. -/
  | add (x : Site π) (registration : Registration η δ)
  /-- `RemoveHandler`. -/
  | remove (x : Site π) (registration : Registration η δ)

variable {π η δ : Type*}

/-- What `AddPeer` registers. -/
def Setup.relay (setup : Setup η δ) : Registration η δ :=
  ⟨setup.peerEventHandler, READ ||| ERROR, setup.remote⟩

def Setup.followed (setup : Setup η δ) : Site π → Registration η δ
  | .peer _ => setup.relay
  | .inference => setup.tracked

section Steps

variable [DecidableEq π] [DecidableEq η] [DecidableEq δ]

def State.setObject (s : State π η δ) (x : Site π) (o : Object η δ) : State π η δ :=
  { s with object := Function.update s.object x o }

/-- `new EventData`. -/
def State.store (s : State π η δ) (addr : Nat) (e : EventData π δ) : State π η δ :=
  { s with heap := Function.update s.heap addr (some e) }

/-- `write` of the pointer. -/
def State.write (s : State π η δ) (x : Site π) (addr : Nat) : State π η δ :=
  s.setObject x { s.object x with pipe := (s.object x).pipe ++ [addr] }

/-! ## Steps -/

def publish (s : State π η δ) (p : π) (type : BitVec 32) (data : δ) (addr : Nat) :
    Option (State π η δ) :=
  -- Memory in use is not allocated again.
  if (s.heap addr).isSome then none
  else
    some { (s.store addr ⟨type, data, p⟩).write (.peer p) addr with
      published := Function.update s.published p (s.published p ++ [(type, data)]) }

/-- What `select` tells of a readable pipe. -/
def selected (exception : Bool) : BitVec 32 :=
  (if exception then ERROR else 0) ||| READ

def fetch (s : State π η δ) (x : Site π) (exception : Bool) : Option (State π η δ) :=
  match (s.object x).fetching, (s.object x).pipe with
  | some _, _ => none
  -- `-EAGAIN`, or a `read` that blocks.
  | none, [] => if exception then none else some s
  | none, addr :: rest =>
      match s.heap addr with
      | none => none
      | some e =>
          some ((s.store addr { e with type := e.type ||| selected exception }).setObject x
            { s.object x with
              pipe := rest
              fetching := some ⟨addr, [], (s.object x).handlers⟩ })

/-- The iterator goes on; a handler that has cancelled is erased. -/
def State.advance (s : State π η δ) (x : Site π) (f : Fetch η δ) (r : Registration η δ)
    (rest : List (Registration η δ)) (ret : HandlerReturn) : State π η δ :=
  s.setObject x { s.object x with
    fetching := some { f with
      done := if ret = .cancel then f.done else f.done ++ [r]
      todo := rest } }

/-- `Inference::impl::remote::PeerEventHandler`; it returns `RENEW` in any case. -/
def peerEventHandler (s : State π η δ) (type : BitVec 32) (e : EventData π δ) (addr : Nat) :
    Option (State π η δ) :=
  if type &&& ERROR = ERROR then some s
  else if (s.heap addr).isSome then none
  else some ((s.store addr ⟨e.type, e.data, e.origin⟩).write .inference addr)

def next (setup : Setup η δ) (s : State π η δ) (x : Site π) (ret : HandlerReturn) (addr : Nat) :
    Option (State π η δ) :=
  match (s.object x).fetching with
  | none => none
  | some f =>
      match f.todo, s.heap f.event with
      | r :: rest, some e =>
          if ¬ r.matches e.type then some (s.advance x f r rest .renew)
          else if r = setup.followed x then
            match x with
            | .peer _ =>
                peerEventHandler (s.advance x f r rest .renew) (e.type &&& r.type) e addr
            | .inference =>
                some { s.advance x f r rest ret with invocations := s.invocations ++ [e] }
          else some (s.advance x f r rest ret)
      | _, _ => none

def finish (s : State π η δ) (x : Site π) : Option (State π η δ) :=
  match (s.object x).fetching with
  | some ⟨addr, done, []⟩ =>
      some { s.setObject x { s.object x with handlers := done, fetching := none } with
        fetched := s.fetched ++ [addr] }
  | _ => none

def destroy (s : State π η δ) (addr : Nat) : Option (State π η δ) :=
  if addr ∈ s.fetched then
    some { s with
      heap := Function.update s.heap addr none
      fetched := s.fetched.erase addr }
  else none

/-- The handlers are changed between two fetches. -/
def State.setHandlers (s : State π η δ) (x : Site π) (handlers : List (Registration η δ)) :
    Option (State π η δ) :=
  if (s.object x).fetching = none then some (s.setObject x { s.object x with handlers := handlers })
  else none

def addHandler (s : State π η δ) (x : Site π) (registration : Registration η δ) :
    Option (State π η δ) :=
  s.setHandlers x
    -- `-EALREADY`
    (if (s.object x).handlers.any fun d => overlaps registration ⟨d, false, false⟩ then
      (s.object x).handlers
    else (s.object x).handlers ++ [registration])

def removeHandler (s : State π η δ) (x : Site π) (registration : Registration η δ) :
    Option (State π η δ) :=
  s.setHandlers x ((s.object x).handlers.erase registration)

def step (setup : Setup η δ) (s : State π η δ) : Act π η δ → Option (State π η δ)
  | .publish p type data addr => publish s p type data addr
  | .fetch x exception => fetch s x exception
  | .next x ret addr => next setup s x ret addr
  | .finish x => finish s x
  | .destroy addr => destroy s addr
  | .add x registration => addHandler s x registration
  | .remove x registration => removeHandler s x registration

/-- Nothing is published yet; `handlers` are those that are registered on each object. -/
def State.start (handlers : Site π → List (Registration η δ)) : State π η δ :=
  { heap := fun _ => none
    object := fun x => ⟨[], handlers x, none⟩
    fetched := []
    published := fun _ => []
    invocations := [] }

/-! ## The property -/

/-- What arrives of an event. -/
def stamp (event : BitVec 32 × δ) : BitVec 32 × δ := (event.1 ||| READ, event.2)

namespace State

variable (s : State π η δ)

/-- The invocations for events of the peer, in order. -/
def delivered (p : π) : List (BitVec 32 × δ) :=
  (s.invocations.filter fun e => e.origin = p).map fun e => (e.type, e.data)

def idle (x : Site π) : Prop := (s.object x).pipe = [] ∧ (s.object x).fetching = none

end State

/-- What is asked of every state. -/
structure Correlated (s : State π η δ) : Prop where
  /-- The handler was invoked for the first events of each peer. -/
  ordered : ∀ p, s.delivered p <+: (s.published p).map stamp
  /-- It was invoked for all of them once nothing is on its way. -/
  complete : ∀ p, s.idle (.peer p) → s.idle .inference → s.delivered p = (s.published p).map stamp
  /-- The pointers that are on their way lead to records, so that no fetch reads a deleted one. -/
  live : ∀ x, (∀ addr ∈ (s.object x).pipe, (s.heap addr).isSome) ∧
    ∀ f, (s.object x).fetching = some f → (s.heap f.event).isSome

/-- No error is published or selected, and the two handlers stay registered. -/
def Regular (setup : Setup η δ) (s : State π η δ) : Act π η δ → Prop
  | .publish _ type _ _ => type &&& ERROR = 0
  | .fetch _ exception => exception = false
  | .next .inference ret _ => ret = .cancel →
      (s.object .inference).fetching.bind (fun f => f.todo.head?) ≠ some setup.tracked
  | .remove x registration => registration ≠ setup.followed x
  | _ => True

instance (setup : Setup η δ) (s : State π η δ) :
    (a : Act π η δ) → Decidable (Regular setup s a)
  | .publish _ type _ _ => inferInstanceAs (Decidable (type &&& ERROR = 0))
  | .fetch _ exception => inferInstanceAs (Decidable (exception = false))
  | .next .inference ret _ => inferInstanceAs (Decidable (ret = .cancel →
      (s.object .inference).fetching.bind (fun f => f.todo.head?) ≠ some setup.tracked))
  | .next (.peer _) _ _ => inferInstanceAs (Decidable True)
  | .finish _ => inferInstanceAs (Decidable True)
  | .destroy _ => inferInstanceAs (Decidable True)
  | .add _ _ => inferInstanceAs (Decidable True)
  | .remove x registration => inferInstanceAs (Decidable (registration ≠ setup.followed x))

end Steps

/-! ## The invariant -/

namespace Object

variable (o : Object η δ)

/-- The pointers that the object holds. -/
def addresses : List Nat := (o.fetching.map Fetch.event).toList ++ o.pipe

def registered : List (Registration η δ) :=
  match o.fetching with
  | none => o.handlers
  | some f => f.done ++ f.todo

/-- The events that the handler is still to be invoked for. -/
def coming [DecidableEq η] [DecidableEq δ] (r : Registration η δ) : List Nat :=
  match o.fetching with
  | none => o.pipe
  | some f => if r ∈ f.todo then f.event :: o.pipe else o.pipe

end Object

/-- What arrives of a record, if it is an event of the peer. -/
def arrives [DecidableEq π] (p : π) (e : EventData π δ) : Option (BitVec 32 × δ) :=
  if e.origin = p then some (stamp (e.type, e.data)) else none

namespace State

variable (s : State π η δ)

/-- The callers of `FetchEventData` hold pointers, too. -/
def holding : Option (Site π) → List Nat
  | some x => (s.object x).addresses
  | none => s.fetched

/-- What the object will deliver of a peer. -/
def flow [DecidableEq π] [DecidableEq η] [DecidableEq δ] (setup : Setup η δ) (x : Site π) (p : π) :
    List (BitVec 32 × δ) :=
  ((s.object x).coming (setup.followed x)).filterMap fun addr => (s.heap addr).bind (arrives p)

end State

/-- An event that may be in the object. -/
structure Fits (x : Site π) (e : EventData π δ) : Prop where
  clean : e.type &&& ERROR = 0
  origin : ∀ p, x = .peer p → e.origin = p

/-- The pointers lead where they should. -/
structure Placed [DecidableEq π] [DecidableEq η] [DecidableEq δ] (setup : Setup η δ)
    (s : State π η δ) : Prop where
  owned : Owned s.holding s.heap
  once : ∀ x, (s.object x).registered.count (setup.followed x) = 1
  fits : ∀ x, ∀ addr ∈ (s.object x).addresses, ∀ e, s.heap addr = some e → Fits x e
  marked : ∀ x f e, (s.object x).fetching = some f → s.heap f.event = some e →
    e.type ||| READ = e.type

/-- Every event of a peer was delivered, or is in the pipe of the inference, or in that of the peer,
in this order. -/
structure Inv [DecidableEq π] [DecidableEq η] [DecidableEq δ] (setup : Setup η δ)
    (s : State π η δ) : Prop extends Placed setup s where
  account : ∀ p, (s.published p).map stamp =
    s.delivered p ++ s.flow setup .inference p ++ s.flow setup (.peer p) p

/-! ## Types -/

theorem clean_or_read {type : BitVec 32} (h : type &&& ERROR = 0) :
    (type ||| READ) &&& ERROR = 0 := by
  rw [BitVec.and_or_distrib_right, h]
  decide

theorem or_read_self (type : BitVec 32) : type ||| READ ||| READ = type ||| READ := by
  rw [BitVec.or_assoc, BitVec.or_self]

/-- The `READ` bit reaches every handler for it. -/
theorem matches_of_read {r : Registration η δ} {type : BitVec 32} (hr : r.type &&& READ ≠ 0)
    (htype : type ||| READ = type) : r.matches type := by
  intro hzero
  rw [← htype, BitVec.and_or_distrib_left] at hzero
  exact hr (BitVec.or_eq_zero_iff.1 hzero).2

theorem relay_reads (setup : Setup η δ) : setup.relay.type &&& READ ≠ 0 :=
  (by decide : (READ ||| ERROR) &&& READ ≠ 0)

theorem followed_reads {setup : Setup η δ} (htracked : setup.tracked.type &&& READ ≠ 0) (x : Site π) :
    (setup.followed x).type &&& READ ≠ 0 := by
  cases x with
  | peer p => exact relay_reads setup
  | inference => exact htracked

/-- `PeerEventHandler` publishes every event without the error bit. -/
theorem not_error_of_clean {type mask : BitVec 32} (h : type &&& ERROR = 0) :
    ¬ type &&& mask &&& ERROR = ERROR := by
  have hzero : type &&& mask &&& ERROR = 0 := by
    rw [BitVec.and_assoc, BitVec.and_comm mask ERROR, ← BitVec.and_assoc, h]
    exact BitVec.zero_and
  rw [hzero]
  decide

/-! ## Objects -/

theorem mem_addresses_of_coming [DecidableEq η] [DecidableEq δ] {o : Object η δ}
    {r : Registration η δ} {addr : Nat} (h : addr ∈ o.coming r) : addr ∈ o.addresses := by
  unfold Object.coming at h
  unfold Object.addresses
  split at h
  · exact List.mem_append_right _ h
  · rename_i f hf
    split at h
    · rw [hf]
      simpa using h
    · exact List.mem_append_right _ h

section Objects

variable [DecidableEq π] {s : State π η δ}

theorem arrives_mark (p : π) (e : EventData π δ) :
    arrives p { e with type := e.type ||| READ } = arrives p e := by
  simp [arrives, stamp, or_read_self]

theorem holding_setObject (x : Site π) (o : Object η δ) :
    (s.setObject x o).holding = Function.update s.holding (some x) o.addresses := by
  funext k
  cases k with
  | none => simp [State.holding, State.setObject]
  | some y =>
      by_cases hy : y = x
      · subst hy
        simp [State.holding, State.setObject]
      · simp [State.holding, State.setObject, hy]

variable (s)

theorem object_setObject_of_ne {x y : Site π} (o : Object η δ) (hy : y ≠ x) :
    (s.setObject x o).object y = s.object y :=
  Function.update_of_ne hy _ _

@[simp] theorem object_setObject (x : Site π) (o : Object η δ) :
    (s.setObject x o).object x = o :=
  Function.update_self ..

theorem object_write_of_ne {x y : Site π} (addr : Nat) (e : EventData π δ) (hy : y ≠ x) :
    ((s.store addr e).write x addr).object y = s.object y :=
  Function.update_of_ne hy _ _

@[simp] theorem object_write (x : Site π) (addr : Nat) (e : EventData π δ) :
    ((s.store addr e).write x addr).object x =
      { s.object x with pipe := (s.object x).pipe ++ [addr] } :=
  Function.update_self ..

theorem addresses_write (x : Site π) (addr : Nat) (e : EventData π δ) :
    (((s.store addr e).write x addr).object x).addresses = (s.object x).addresses ++ [addr] := by
  simp [Object.addresses]

theorem holding_write (x : Site π) (addr : Nat) (e : EventData π δ) :
    ((s.store addr e).write x addr).holding =
      Function.update s.holding (some x) (s.holding (some x) ++ [addr]) := by
  have hstore : (s.store addr e).holding = s.holding := by
    funext k
    cases k <;> rfl
  rw [State.write, holding_setObject, hstore]
  simp [Object.addresses, State.holding, State.store]

end Objects

section Flow

variable [DecidableEq π] [DecidableEq η] [DecidableEq δ] {setup : Setup η δ} {s : State π η δ}

/-- What an object delivers depends on the records behind its own pointers. -/
theorem flow_congr {s' : State π η δ} {x : Site π} (p : π)
    (hcoming : (s'.object x).coming (setup.followed x) = (s.object x).coming (setup.followed x))
    (hheap : ∀ addr ∈ (s.object x).addresses,
      (s'.heap addr).bind (arrives p) = (s.heap addr).bind (arrives p)) :
    s'.flow setup x p = s.flow setup x p := by
  unfold State.flow
  rw [hcoming]
  exact List.filterMap_congr fun addr haddr => hheap addr (mem_addresses_of_coming haddr)

/-! ## Writing to a pipe -/

theorem coming_write (s : State π η δ) (x : Site π) (addr : Nat) (e : EventData π δ)
    (r : Registration η δ) :
    (((s.store addr e).write x addr).object x).coming r = (s.object x).coming r ++ [addr] := by
  cases hf : (s.object x).fetching with
  | none => simp [Object.coming, hf]
  | some f => by_cases hr : r ∈ f.todo <;> simp [Object.coming, hf, hr]

theorem placed_write (hs : Placed setup s) {x : Site π} {addr : Nat} {e : EventData π δ}
    (hfresh : s.heap addr = none) (he : Fits x e) : Placed setup ((s.store addr e).write x addr) := by
  have hnew := hs.owned.not_mem_of_fresh hfresh
  have hother : ∀ b, b ≠ addr → ((s.store addr e).write x addr).heap b = s.heap b :=
    fun b hb => Function.update_of_ne hb _ _
  have hself : ((s.store addr e).write x addr).heap addr = some e := Function.update_self ..
  have hsame : ∀ y b, b ∈ (s.object y).addresses → b ≠ addr :=
    fun y b hb heq => hnew (some y) (heq ▸ hb)
  refine ⟨?_, fun y => ?_, fun y b hb e' he' => ?_, fun y f e' hf he' => ?_⟩
  · rw [holding_write]
    exact hs.owned.alloc hfresh (some x) e
  · by_cases hy : y = x
    · subst hy
      have hregistered : (((s.store addr e).write y addr).object y).registered =
          (s.object y).registered := by
        simp [Object.registered]
      rw [hregistered]
      exact hs.once y
    · rw [object_write_of_ne s addr e hy]
      exact hs.once y
  · by_cases hy : y = x
    · subst hy
      rw [addresses_write, List.mem_append, List.mem_singleton] at hb
      rcases hb with hb | rfl
      · rw [hother b (hsame y b hb)] at he'
        exact hs.fits y b hb e' he'
      · rw [hself] at he'
        cases he'
        exact he
    · rw [object_write_of_ne s addr e hy] at hb
      rw [hother b (hsame y b hb)] at he'
      exact hs.fits y b hb e' he'
  · have hf' : (s.object y).fetching = some f := by
      by_cases hy : y = x
      · subst hy
        simpa using hf
      · rwa [object_write_of_ne s addr e hy] at hf
    have hmem : f.event ∈ (s.object y).addresses := by simp [Object.addresses, hf']
    rw [hother f.event (hsame y _ hmem)] at he'
    exact hs.marked y f e' hf' he'

theorem flow_write (hs : Placed setup s) {x : Site π} {addr : Nat} {e : EventData π δ}
    (hfresh : s.heap addr = none) (y : Site π) (p : π) :
    ((s.store addr e).write x addr).flow setup y p =
      s.flow setup y p ++ if y = x then (arrives p e).toList else [] := by
  have hnew := hs.owned.not_mem_of_fresh hfresh
  have hself : ((s.store addr e).write x addr).heap addr = some e := Function.update_self ..
  have hsame : ∀ b ∈ (s.object y).addresses,
      (((s.store addr e).write x addr).heap b).bind (arrives p) = (s.heap b).bind (arrives p) := by
    intro b hb
    have hne : b ≠ addr := fun heq => hnew (some y) (heq ▸ hb)
    rw [show ((s.store addr e).write x addr).heap b = s.heap b from Function.update_of_ne hne _ _]
  by_cases hy : y = x
  · subst hy
    unfold State.flow
    rw [coming_write, List.filterMap_append,
      List.filterMap_congr fun b hb => hsame b (mem_addresses_of_coming hb)]
    cases harrives : arrives p e <;> simp [hself, harrives]
  · rw [flow_congr p (by rw [object_write_of_ne s addr e hy]) hsame]
    simp [hy]

/-! ## The loop of a fetch -/

/-- An object changes without a pointer being read, written or handed over. -/
theorem placed_setObject (hs : Placed setup s) {x : Site π} {o : Object η δ}
    (haddresses : o.addresses = (s.object x).addresses)
    (honce : o.registered.count (setup.followed x) = 1)
    (hmarked : ∀ f e, o.fetching = some f → s.heap f.event = some e →
      e.type ||| READ = e.type) :
    Placed setup (s.setObject x o) := by
  have hself := object_setObject s x o
  have hother := fun y (hy : y ≠ x) => object_setObject_of_ne s o hy
  have hholding : (s.setObject x o).holding = s.holding := by
    rw [holding_setObject, haddresses]
    exact Function.update_eq_self ..
  refine ⟨by rw [hholding]; exact hs.owned, fun y => ?_, fun y b hb e he => ?_,
    fun y f e hf he => ?_⟩
  · by_cases hy : y = x
    · subst hy
      rw [hself]
      exact honce
    · rw [hother y hy]
      exact hs.once y
  · by_cases hy : y = x
    · subst hy
      rw [hself, haddresses] at hb
      exact hs.fits y b hb e he
    · rw [hother y hy] at hb
      exact hs.fits y b hb e he
  · by_cases hy : y = x
    · subst hy
      rw [hself] at hf
      exact hmarked f e hf he
    · rw [hother y hy] at hf
      exact hs.marked y f e hf he

theorem flow_setObject {x : Site π} {o : Object η δ}
    (hcoming : o.coming (setup.followed x) = (s.object x).coming (setup.followed x)) (y : Site π)
    (p : π) : (s.setObject x o).flow setup y p = s.flow setup y p := by
  refine flow_congr p ?_ fun _ _ => rfl
  by_cases hy : y = x
  · subst hy
    rw [object_setObject, hcoming]
  · rw [object_setObject_of_ne s o hy]

section Advance

variable {x : Site π} {f : Fetch η δ} {r : Registration η δ} {rest : List (Registration η δ)}
  (ret : HandlerReturn) (hf : (s.object x).fetching = some f) (htodo : f.todo = r :: rest)
include hf htodo

theorem placed_advance (hs : Placed setup s) (hret : r = setup.followed x → ret ≠ .cancel) :
    Placed setup (s.advance x f r rest ret) := by
  refine placed_setObject hs ?_ ?_ fun f' e hf' he => ?_
  · simp [Object.addresses, hf]
  · have honce := hs.once x
    simp only [Object.registered, hf, htodo, List.count_append, List.count_cons] at honce
    by_cases hr : r = setup.followed x
    · have hrenew := hret hr
      simp only [Object.registered, hrenew, if_false, List.count_append, List.count_singleton]
      omega
    · have hr' : (r == setup.followed x) = false := by simpa using hr
      by_cases hcancel : ret = .cancel <;>
        simpa [Object.registered, hcancel, hr', List.count_cons] using honce
  · cases hf'
    exact hs.marked x f e hf he

/-- When the iterator passes the followed handler, the event is delivered. -/
theorem flow_advance (hs : Placed setup s) {e : EventData π δ} (he : s.heap f.event = some e)
    (y : Site π) (p : π) :
    s.flow setup y p = (if y = x ∧ r = setup.followed x then (arrives p e).toList else []) ++
      (s.advance x f r rest ret).flow setup y p := by
  by_cases hy : y = x
  · subst hy
    have hcoming : ((s.advance y f r rest ret).object y).coming (setup.followed y) =
        if setup.followed y ∈ rest then f.event :: (s.object y).pipe else (s.object y).pipe := by
      simp [State.advance, Object.coming]
    by_cases hr : r = setup.followed y
    · -- It is registered once, so it is not ahead any more.
      have hrest : setup.followed y ∉ rest := by
        have honce := hs.once y
        simp only [Object.registered, hf, htodo, hr, List.count_append, List.count_cons_self] at honce
        have hzero : rest.count (setup.followed y) = 0 := by omega
        exact List.count_eq_zero.1 hzero
      have hbefore : (s.object y).coming (setup.followed y) = f.event :: (s.object y).pipe := by
        simp [Object.coming, hf, htodo, hr]
      unfold State.flow
      rw [hcoming, hbefore, if_neg hrest, if_pos ⟨rfl, hr⟩]
      cases harrives : arrives p e <;>
        simp [he, harrives, State.advance, State.setObject]
    · have hbefore : ((s.advance y f r rest ret).object y).coming (setup.followed y) =
          (s.object y).coming (setup.followed y) := by
        rw [hcoming]
        simp [Object.coming, hf, htodo, Ne.symm hr]
      have hsame : (s.advance y f r rest ret).flow setup y p = s.flow setup y p :=
        flow_congr p hbefore fun _ _ => rfl
      rw [if_neg fun h => hr h.2, List.nil_append, hsame]
  · have hobject : (s.advance x f r rest ret).object y = s.object y :=
      object_setObject_of_ne s _ hy
    have hsame : (s.advance x f r rest ret).flow setup y p = s.flow setup y p :=
      flow_congr p (by rw [hobject]) fun _ _ => rfl
    rw [if_neg fun h => hy h.1, List.nil_append, hsame]

end Advance

/-! ## Steps -/

theorem inv_publish {s' : State π η δ} {p : π} {type : BitVec 32} {data : δ} {addr : Nat}
    (hs : Inv setup s) (hclean : type &&& ERROR = 0)
    (h : publish s p type data addr = some s') : Inv setup s' := by
  unfold publish at h
  split at h
  · cases h
  · rename_i hheap
    have hfresh : s.heap addr = none := by simpa using hheap
    cases h
    have hfits : Fits (.peer p) (⟨type, data, p⟩ : EventData π δ) :=
      ⟨hclean, fun q hq => by cases hq; rfl⟩
    have hplaced := placed_write hs.toPlaced hfresh hfits
    refine ⟨⟨hplaced.owned, hplaced.once, hplaced.fits, hplaced.marked⟩, fun q => ?_⟩
    have hinference := flow_write hs.toPlaced (x := .peer p) (e := ⟨type, data, p⟩) hfresh
      .inference q
    have hpeer := flow_write hs.toPlaced (x := .peer p) (e := ⟨type, data, p⟩) hfresh (.peer q) q
    rw [if_neg nofun, List.append_nil] at hinference
    have hflow : ((s.store addr ⟨type, data, p⟩).write (.peer p) addr).flow setup (.peer q) q =
        s.flow setup (.peer q) q ++ if q = p then [stamp (type, data)] else [] := by
      rw [hpeer]
      by_cases hq : q = p
      · subst hq
        simp [arrives]
      · simp [hq]
    have hpublished : (Function.update s.published p (s.published p ++ [(type, data)]) q).map stamp =
        (s.published q).map stamp ++ if q = p then [stamp (type, data)] else [] := by
      by_cases hq : q = p
      · subst hq
        simp
      · simp [hq]
    calc (Function.update s.published p (s.published p ++ [(type, data)]) q).map stamp
        = (s.published q).map stamp ++ (if q = p then [stamp (type, data)] else []) := hpublished
      _ = s.delivered q ++ s.flow setup .inference q ++ (s.flow setup (.peer q) q ++
            if q = p then [stamp (type, data)] else []) := by rw [hs.account q, List.append_assoc]
      _ = _ := by rw [← hflow, ← hinference]; rfl

/-- A record is marked by the fetch of it. -/
theorem placed_store (hs : Placed setup s) {x : Site π} {addr : Nat}
    (haddr : addr ∈ (s.object x).addresses) {e : EventData π δ} (he : Fits x e)
    (hmarked : e.type ||| READ = e.type) : Placed setup (s.store addr e) := by
  have hself : (s.store addr e).heap addr = some e := Function.update_self ..
  have hother : ∀ b, b ≠ addr → (s.store addr e).heap b = s.heap b :=
    fun b hb => Function.update_of_ne hb _ _
  have hholding : (s.store addr e).holding = s.holding := by
    funext k
    cases k <;> rfl
  refine ⟨?_, hs.once, fun y b hb e' he' => ?_, fun y f e' hf he' => ?_⟩
  · rw [hholding]
    exact hs.owned.store addr e
  · by_cases hba : b = addr
    · subst hba
      rw [hself] at he'
      cases he'
      have hxy := hs.owned.disjoint (some x) (some y) b haddr hb
      cases hxy
      exact he
    · rw [hother b hba] at he'
      exact hs.fits y b hb e' he'
  · by_cases hfa : f.event = addr
    · rw [hfa, hself] at he'
      cases he'
      exact hmarked
    · rw [hother _ hfa] at he'
      exact hs.marked y f e' hf he'

theorem selected_false : selected false = READ := by
  decide

theorem flow_store {addr : Nat} {e e' : EventData π δ} (he : s.heap addr = some e)
    (harrives : ∀ p, arrives p e' = arrives p e) (y : Site π) (p : π) :
    (s.store addr e').flow setup y p = s.flow setup y p := by
  refine flow_congr p rfl fun b _ => ?_
  by_cases hb : b = addr
  · subst hb
    rw [show (s.store b e').heap b = some e' from Function.update_self .., he]
    exact harrives p
  · rw [show (s.store addr e').heap b = s.heap b from Function.update_of_ne hb _ _]

/-- The parts of the invariant survive a step that delivers and publishes nothing. -/
theorem inv_of_flow {s' : State π η δ} (hs : Inv setup s) (hplaced : Placed setup s')
    (hflow : ∀ y p, s'.flow setup y p = s.flow setup y p) (hpublished : s'.published = s.published)
    (hinvocations : s'.invocations = s.invocations) : Inv setup s' := by
  refine ⟨hplaced, fun p => ?_⟩
  have hdelivered : s'.delivered p = s.delivered p := by
    unfold State.delivered
    rw [hinvocations]
  rw [hpublished, hdelivered, hflow, hflow]
  exact hs.account p

theorem inv_fetch {s' : State π η δ} {x : Site π} (hs : Inv setup s)
    (h : fetch s x false = some s') : Inv setup s' := by
  unfold fetch at h
  split at h
  · cases h
  · cases h
    exact hs
  · rename_i addr rest hfetching hpipe
    split at h
    · cases h
    · rename_i e he
      cases h
      rw [selected_false]
      have haddr : addr ∈ (s.object x).addresses := by simp [Object.addresses, hpipe]
      have hfits := hs.fits x addr haddr e he
      have hmark : e.type ||| READ ||| READ = e.type ||| READ := or_read_self e.type
      have hstore : Placed setup (s.store addr { e with type := e.type ||| READ }) :=
        placed_store hs.toPlaced haddr ⟨clean_or_read hfits.clean, hfits.origin⟩ hmark
      have honce := hs.once x
      have hcount : (s.object x).handlers.count (setup.followed x) = 1 := by
        simpa [Object.registered, hfetching] using honce
      have hmem : setup.followed x ∈ (s.object x).handlers :=
        List.count_pos_iff.1 (by rw [hcount]; exact Nat.one_pos)
      refine inv_of_flow hs (placed_setObject hstore ?_ ?_ ?_) (fun y p => ?_) rfl rfl
      · simp [Object.addresses, State.store, hfetching, hpipe]
      · simpa [Object.registered] using hcount
      · intro f e' hf he'
        cases hf
        rw [show (s.store addr _).heap addr = some _ from Function.update_self ..] at he'
        cases he'
        exact hmark
      · rw [flow_setObject (by simp [Object.coming, State.store, hfetching, hpipe, hmem])]
        exact flow_store he (fun p => arrives_mark p e) y p

/-- The iterator passes another handler, or one that the event does not concern. -/
theorem inv_advance (hs : Inv setup s) {x : Site π} {f : Fetch η δ} {r : Registration η δ}
    {rest : List (Registration η δ)} (ret : HandlerReturn) (hf : (s.object x).fetching = some f)
    (htodo : f.todo = r :: rest) {e : EventData π δ} (he : s.heap f.event = some e)
    (hr : r ≠ setup.followed x) : Inv setup (s.advance x f r rest ret) := by
  have hplaced := placed_advance ret hf htodo hs.toPlaced fun heq => absurd heq hr
  refine inv_of_flow hs hplaced (fun y p => ?_) rfl rfl
  rw [flow_advance ret hf htodo hs.toPlaced he y p, if_neg fun h => hr h.2, List.nil_append]

/-- `PeerEventHandler` moves an event from the peer to the inference. -/
theorem inv_relay {s' : State π η δ} (hs : Inv setup s) {p : π} {f : Fetch η δ}
    {rest : List (Registration η δ)} (hf : (s.object (.peer p)).fetching = some f)
    (htodo : f.todo = setup.relay :: rest) {e : EventData π δ} (he : s.heap f.event = some e)
    {addr : Nat}
    (h : peerEventHandler (s.advance (.peer p) f setup.relay rest .renew)
      (e.type &&& setup.relay.type) e addr = some s') : Inv setup s' := by
  have hmem : f.event ∈ (s.object (.peer p)).addresses := by simp [Object.addresses, hf]
  have hfits := hs.fits (.peer p) f.event hmem e he
  unfold peerEventHandler at h
  rw [if_neg (not_error_of_clean hfits.clean)] at h
  split at h
  · cases h
  · rename_i hheap
    have hfresh : (s.advance (.peer p) f setup.relay rest .renew).heap addr = none := by
      simpa using hheap
    cases h
    have hadvance : Placed setup (s.advance (.peer p) f setup.relay rest .renew) :=
      placed_advance .renew hf htodo hs.toPlaced fun _ => nofun
    have hcopy : Fits .inference (⟨e.type, e.data, e.origin⟩ : EventData π δ) :=
      ⟨hfits.clean, nofun⟩
    refine ⟨placed_write hadvance hfresh hcopy, fun q => ?_⟩
    have hinference : ((((s.advance (.peer p) f setup.relay rest .renew).store addr
        ⟨e.type, e.data, e.origin⟩).write .inference addr).flow setup .inference q) =
          s.flow setup .inference q ++ (arrives q e).toList := by
      rw [flow_write hadvance hfresh, if_pos rfl,
        flow_advance .renew hf htodo hs.toPlaced he .inference q, if_neg nofun,
        List.nil_append]
    -- Only the events of the peer itself are on their way in its object.
    have hpeer : s.flow setup (.peer q) q = (arrives q e).toList ++
        (((s.advance (.peer p) f setup.relay rest .renew).store addr
          ⟨e.type, e.data, e.origin⟩).write .inference addr).flow setup (.peer q) q := by
      rw [flow_write hadvance hfresh, if_neg nofun, List.append_nil,
        flow_advance .renew hf htodo hs.toPlaced he (.peer q) q]
      by_cases hq : q = p
      · subst hq
        rw [if_pos ⟨rfl, rfl⟩]
      · have hforeign : e.origin ≠ q := fun heq => hq (heq ▸ (hfits.origin p rfl))
        simp [arrives, hforeign, hq]
    calc (s.published q).map stamp
        = s.delivered q ++ s.flow setup .inference q ++ s.flow setup (.peer q) q := hs.account q
      _ = _ := by rw [hinference, hpeer, List.append_assoc, List.append_assoc, List.append_assoc]; rfl

/-- An invocation at the inference delivers the event. -/
theorem inv_deliver (hs : Inv setup s) {f : Fetch η δ} {rest : List (Registration η δ)}
    {ret : HandlerReturn} (hf : (s.object .inference).fetching = some f)
    (htodo : f.todo = setup.tracked :: rest) {e : EventData π δ} (he : s.heap f.event = some e)
    (hret : ret ≠ .cancel) :
    Inv setup { s.advance .inference f setup.tracked rest ret with
      invocations := s.invocations ++ [e] } := by
  have hadvance : Placed setup (s.advance .inference f setup.tracked rest ret) :=
    placed_advance ret hf htodo hs.toPlaced fun _ => hret
  refine ⟨⟨hadvance.owned, hadvance.once, hadvance.fits, hadvance.marked⟩, fun q => ?_⟩
  have hinference := flow_advance ret hf htodo hs.toPlaced he .inference q
  have hpeer := flow_advance ret hf htodo hs.toPlaced he (.peer q) q
  rw [if_pos ⟨rfl, rfl⟩] at hinference
  have hforeign : ¬ ((.peer q : Site π) = .inference ∧
      setup.tracked = setup.followed (.inference : Site π)) := fun h => nomatch h.1
  rw [if_neg hforeign, List.nil_append] at hpeer
  have hdelivered : State.delivered { s.advance .inference f setup.tracked rest ret with
      invocations := s.invocations ++ [e] } q = s.delivered q ++ (arrives q e).toList := by
    have hmarked := hs.marked .inference f e hf he
    unfold State.delivered arrives
    by_cases hq : e.origin = q <;> simp [hq, stamp, hmarked]
  calc (s.published q).map stamp
      = s.delivered q ++ s.flow setup .inference q ++ s.flow setup (.peer q) q := hs.account q
    _ = _ := by rw [hinference, hpeer, ← List.append_assoc (s.delivered q), ← hdelivered]; rfl

theorem inv_next {s' : State π η δ} (htracked : setup.tracked.type &&& READ ≠ 0) {x : Site π}
    {ret : HandlerReturn} {addr : Nat} (hs : Inv setup s)
    (hregular : Regular setup s (.next x ret addr)) (h : next setup s x ret addr = some s') :
    Inv setup s' := by
  unfold next at h
  split at h
  · cases h
  · rename_i f hf
    split at h
    · rename_i r rest e htodo he
      split at h
      · rename_i hmatch
        cases h
        have hr : r ≠ setup.followed x := by
          intro heq
          subst heq
          exact hmatch (matches_of_read (followed_reads htracked x) (hs.marked x f e hf he))
        exact inv_advance hs .renew hf htodo he hr
      · split at h
        · rename_i hr
          subst hr
          cases x with
          | peer p => exact inv_relay hs hf htodo he h
          | inference =>
              cases h
              refine inv_deliver hs hf htodo he fun hcancel => ?_
              exact hregular hcancel (by simp [hf, htodo, Setup.followed])
        · rename_i hr
          cases h
          exact inv_advance hs ret hf htodo he hr
    · cases h

theorem inv_finish {s' : State π η δ} {x : Site π} (hs : Inv setup s)
    (h : finish s x = some s') : Inv setup s' := by
  unfold finish at h
  split at h
  · rename_i addr done hf
    cases h
    have haddresses : (s.object x).addresses = addr :: (s.object x).pipe := by
      simp [Object.addresses, hf]
    have hself := object_setObject s x { s.object x with handlers := done, fetching := none }
    have hother := fun y (hy : y ≠ x) =>
      object_setObject_of_ne s { s.object x with handlers := done, fetching := none } hy
    have hflow : ∀ y p, (s.setObject x
        { s.object x with handlers := done, fetching := none }).flow setup y p =
          s.flow setup y p := by
      intro y p
      apply flow_setObject
      simp [Object.coming, hf]
    refine inv_of_flow hs ⟨?_, fun y => ?_, fun y b hb e he => ?_, fun y f e hf' he => ?_⟩ hflow rfl rfl
    · -- The pointer goes to the caller.
      have hmove := hs.owned.move (j := some x) (k := none) haddresses nofun
      have hholding : State.holding { s.setObject x
            { s.object x with handlers := done, fetching := none } with
          fetched := s.fetched ++ [addr] } =
          Function.update (Function.update s.holding (some x) (s.object x).pipe) none
            (s.holding none ++ [addr]) := by
        funext k
        cases k with
        | none => simp [State.holding]
        | some y =>
            have hset := congrFun (holding_setObject (s := s) x
              { s.object x with handlers := done, fetching := none }) (some y)
            simpa [State.holding, Object.addresses] using hset
      rw [hholding]
      exact hmove
    · by_cases hy : y = x
      · subst hy
        have honce := hs.once y
        simpa [Object.registered, hf, hself] using honce
      · simpa [hother y hy] using hs.once y
    · by_cases hy : y = x
      · subst hy
        have hmem : b ∈ (s.object y).addresses := by
          rw [haddresses]
          refine List.mem_cons_of_mem _ ?_
          simpa [hself, Object.addresses] using hb
        exact hs.fits y b hmem e he
      · have hmem : b ∈ (s.object y).addresses := by simpa [hother y hy] using hb
        exact hs.fits y b hmem e he
    · by_cases hy : y = x
      · subst hy
        simp at hf'
      · have hf'' : (s.object y).fetching = some f := by simpa [hother y hy] using hf'
        exact hs.marked y f e hf'' he
  · cases h

theorem inv_destroy {s' : State π η δ} {addr : Nat} (hs : Inv setup s)
    (h : destroy s addr = some s') : Inv setup s' := by
  unfold destroy at h
  split at h
  · rename_i hmem
    cases h
    -- The record is the caller's, so no object leads to it.
    have hne : ∀ y, ∀ b ∈ (s.object y).addresses, b ≠ addr := by
      intro y b hb heq
      have hdisjoint := hs.owned.disjoint none (some y) addr hmem (heq ▸ hb)
      cases hdisjoint
    have hheap : ∀ y, ∀ b ∈ (s.object y).addresses,
        Function.update s.heap addr none b = s.heap b :=
      fun y b hb => Function.update_of_ne (hne y b hb) _ _
    refine inv_of_flow hs ⟨?_, hs.once, fun y b hb e he => ?_, fun y f e hf he => ?_⟩
      (fun y p => flow_congr p rfl fun b hb => congrArg (·.bind (arrives p)) (hheap y b hb)) rfl rfl
    · have hfree := hs.owned.free (k := none) hmem
      have hholding : State.holding { s with
          heap := Function.update s.heap addr none
          fetched := s.fetched.erase addr } =
          Function.update s.holding none ((s.holding none).erase addr) := by
        funext k
        cases k <;> simp [State.holding]
      rw [hholding]
      exact hfree
    · exact hs.fits y b hb e ((hheap y b hb).symm.trans he)
    · have hfetching : (s.object y).fetching = some f := hf
      have hmem' : f.event ∈ (s.object y).addresses := by simp [Object.addresses, hfetching]
      exact hs.marked y f e hf ((hheap y _ hmem').symm.trans he)
  · cases h

theorem inv_setHandlers {s' : State π η δ} {x : Site π} {handlers : List (Registration η δ)}
    (hs : Inv setup s) (honce : (s.object x).fetching = none →
      handlers.count (setup.followed x) = (s.object x).handlers.count (setup.followed x))
    (h : s.setHandlers x handlers = some s') : Inv setup s' := by
  unfold State.setHandlers at h
  split at h
  · rename_i hfetching
    cases h
    have hbefore := hs.once x
    simp only [Object.registered, hfetching] at hbefore
    refine inv_of_flow hs (placed_setObject hs.toPlaced ?_ ?_ ?_) (fun y p => flow_setObject ?_ y p)
      rfl rfl
    · simp [Object.addresses, hfetching]
    · simpa [Object.registered, hfetching, honce hfetching] using hbefore
    · intro f e hf
      rw [show (_ : Object η δ).fetching = (s.object x).fetching from rfl, hfetching] at hf
      cases hf
    · simp [Object.coming, hfetching]
  · cases h

theorem inv_addHandler {s' : State π η δ} (htracked : setup.tracked.type &&& READ ≠ 0) {x : Site π}
    {registration : Registration η δ} (hs : Inv setup s)
    (h : addHandler s x registration = some s') : Inv setup s' := by
  unfold addHandler at h
  refine inv_setHandlers hs (fun hfetching => ?_) h
  split
  · rfl
  · rename_i hrefused
    -- The followed handler is there already, so it would have been refused.
    have hne : registration ≠ setup.followed x := by
      intro heq
      apply hrefused
      have hbefore := hs.once x
      simp only [Object.registered, hfetching] at hbefore
      have hmem : setup.followed x ∈ (s.object x).handlers :=
        List.count_pos_iff.1 (by rw [hbefore]; exact Nat.one_pos)
      have htype : (setup.followed x).type ≠ 0 := by
        intro hzero
        have hreads := followed_reads htracked x
        rw [hzero] at hreads
        exact hreads BitVec.zero_and
      exact List.any_eq_true.2 ⟨_, hmem, by simpa [overlaps, heq] using htype⟩
    simp [List.count_append, hne]

theorem inv_removeHandler {s' : State π η δ} {x : Site π} {registration : Registration η δ}
    (hs : Inv setup s) (hne : registration ≠ setup.followed x)
    (h : removeHandler s x registration = some s') : Inv setup s' :=
  inv_setHandlers hs (fun _ => List.count_erase_of_ne (Ne.symm hne)) h

theorem inv_step {s' : State π η δ} {a : Act π η δ} (htracked : setup.tracked.type &&& READ ≠ 0)
    (hs : Inv setup s) (hregular : Regular setup s a) (h : step setup s a = some s') :
    Inv setup s' := by
  cases a with
  | publish p type data addr => exact inv_publish hs hregular h
  | fetch x exception =>
      have hquiet : exception = false := hregular
      subst hquiet
      exact inv_fetch hs h
  | next x ret addr => exact inv_next htracked hs hregular h
  | finish x => exact inv_finish hs h
  | destroy addr => exact inv_destroy hs h
  | add x registration => exact inv_addHandler htracked hs h
  | remove x registration => exact inv_removeHandler hs hregular h

/-! ## Runs -/

theorem inv_start {handlers : Site π → List (Registration η δ)}
    (hregistered : ∀ x, (handlers x).count (setup.followed x) = 1) :
    Inv setup (State.start handlers) := by
  have hholding : ∀ k, (State.start (π := π) handlers).holding k = [] := by
    intro k
    cases k <;> rfl
  refine ⟨⟨⟨fun k => ?_, fun j k a ha => ?_, fun k a ha => ?_⟩, hregistered, fun x addr _ e he => ?_,
    fun x f e hf => ?_⟩, fun p => rfl⟩
  · rw [hholding]
    exact List.nodup_nil
  · rw [hholding] at ha
    cases ha
  · rw [hholding] at ha
    cases ha
  · cases he
  · cases hf

theorem flow_of_idle {x : Site π} (hidle : s.idle x) (p : π) : s.flow setup x p = [] := by
  simp [State.flow, Object.coming, hidle.1, hidle.2]

theorem Inv.correlated (hs : Inv setup s) : Correlated s := by
  refine ⟨fun p => ?_, fun p hpeer hinference => ?_, fun x => ⟨fun addr haddr => ?_, fun f hf => ?_⟩⟩
  · rw [hs.account p, List.append_assoc]
    exact List.prefix_append _ _
  · have haccount := hs.account p
    rw [flow_of_idle hpeer, flow_of_idle hinference, List.append_nil, List.append_nil] at haccount
    exact haccount.symm
  · exact hs.owned.live (some x) addr (List.mem_append_right _ haddr)
  · exact hs.owned.live (some x) f.event (by simp [State.holding, Object.addresses, hf])

/-- However the peers, the fetches and the changes of the handlers are interleaved, the handler of the
application gets the events of each peer in order, once each and unchanged. -/
theorem events_correlated (setup : Setup η δ) (handlers : Site π → List (Registration η δ))
    (as : List (Act π η δ)) (s : State π η δ) (htracked : setup.tracked.type &&& READ ≠ 0)
    (hregistered : ∀ x, (handlers x).count (setup.followed x) = 1)
    (hregular : Run.Along (step setup) (Regular setup) (State.start handlers) as)
    (hexec : Run.exec (step setup) (State.start handlers) as = some s) : Correlated s :=
  (Run.exec_invariant (fun _ _ _ hs hG h => inv_step htracked hs hG h) (inv_start hregistered)
    hregular hexec).correlated

end Flow

/-- The handler of the application is number 1; the inference is at 100. -/
def appSetup : Setup Nat Nat := ⟨0, 100, ⟨1, READ, 7⟩⟩

def appHandlers : Site Bool → List (Registration Nat Nat)
  | .peer _ => [appSetup.relay]
  | .inference => [⟨2, ERROR, 8⟩, appSetup.tracked]

/-- Both peers publish; their events change places on the way, but not those of one peer. -/
def crossingRun : List (Act Bool Nat Nat) :=
  [.publish true 0x01000200 11 1, .publish false 0x02000400 12 2, .publish true 0x01000400 13 3,
    .fetch (.peer false) false, .next (.peer false) .renew 4, .fetch (.peer true) false,
    .next (.peer true) .renew 5, .fetch .inference false, .finish (.peer true),
    .fetch (.peer true) false, .next .inference .renew 0, .next (.peer true) .renew 6,
    .next .inference .renew 0, .finish .inference, .destroy 4, .fetch .inference false,
    .next .inference .renew 0, .next .inference .renew 0]

theorem crossingRun_correlated :
    ∃ s, Run.exec (step appSetup) (State.start appHandlers) crossingRun = some s ∧
      s.delivered true = [(0x01000210, 11)] ∧ s.delivered false = [(0x02000410, 12)] ∧
      Correlated s := by
  refine ⟨_, rfl, by decide, by decide,
    events_correlated appSetup appHandlers crossingRun _ (by decide) ?_ (by decide) rfl⟩
  intro x
  cases x with
  | peer p => rfl
  | inference => decide

end Events
end Inference
end Beyond
