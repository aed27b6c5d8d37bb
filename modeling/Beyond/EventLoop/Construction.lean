import Mathlib.Data.List.Perm.Basic
import Beyond.Base.Descriptors

/-!
# Construction of event loops and event objects

`EventLoop::impl::Create` and the `Create` of the event objects open descriptors and construct
objects, and undo that on their ways out.  What they do is followed in the process: its descriptors,
the objects that were constructed, the pointers that objects keep, and the loops whose thread runs.
Each call that may fail is a named step, and any set of steps may fail.
-/

namespace Beyond
namespace Construction

structure Process where
  descriptors : Descriptors
  objects : Ledger
  /-- An object, and one that it points to. -/
  pointers : List (Nat × Nat)
  /-- The event loops whose thread runs. -/
  threads : List Nat

namespace Process

def empty : Process := ⟨.empty, .empty, [], []⟩

variable (k : Kernel)

/-- `pipe` and `socketpair`. -/
def openPair (p : Process) (cloexec : Bool) : (Nat × Nat) × Process :=
  let first := p.descriptors.add k 0 cloexec 0
  ((p.descriptors.next k 0, first.next k 0),
    { p with descriptors := first.add k 0 cloexec 0 })

/-- A descriptor that is closed on `exec`, as `epoll_create1(EPOLL_CLOEXEC)` gives it. -/
def openOne (p : Process) : Nat × Process :=
  (p.descriptors.next k 0, { p with descriptors := p.descriptors.add k 0 true 0 })

def close (p : Process) (fd : Nat) : Process := { p with descriptors := p.descriptors.close fd }

def fcntl (p : Process) (fails : Bool) (fd cmd arg : Nat) : Bool × Process :=
  let called := p.descriptors.fcntl k fails fd cmd arg
  (called.1, { p with descriptors := called.2 })

/-- `new`, with the pointers that the object keeps. -/
def new (p : Process) (targets : List Nat) : Nat × Process :=
  (p.objects.allocated,
    { p with
      objects := p.objects.alloc
      pointers := targets.map (p.objects.allocated, ·) ++ p.pointers })

/-- `holder` keeps a pointer to `target`. -/
def assign (p : Process) (holder target : Nat) : Process :=
  { p with pointers := (holder, target) :: p.pointers }

def delete (p : Process) (object : Nat) : Process := { p with objects := p.objects.free object }

def Alive (p : Process) (object : Nat) : Prop :=
  object < p.objects.allocated ∧ p.objects.releases object = 0

/-- Nothing that is alive points to a released object. -/
def Sound (p : Process) : Prop := ∀ r ∈ p.pointers, p.Alive r.1 → p.Alive r.2

/-- From `p` to `p'`, descriptors were opened and objects constructed: `fds` and `objects` are held, the
others were closed or released once, and nothing else changed. -/
structure Made (p p' : Process) (fds objects : List Nat) : Prop where
  descriptors : p.descriptors.Grown p'.descriptors fds
  objects : p.objects.Grown p'.objects objects
  pointers : ∀ r ∈ p'.pointers, r ∈ p.pointers ∨ p.objects.allocated ≤ r.1
  threads : p'.threads = p.threads

namespace Made

variable {k : Kernel} {p p' p'' : Process} {fds fds' objects objects' : List Nat}

theorem refl (p : Process) : p.Made p [] [] :=
  ⟨.refl p.descriptors, .refl p.objects, fun _ hr => .inl hr, rfl⟩

theorem perm (h : p.Made p' fds objects) (hfds : fds.Perm fds') (hobjects : objects.Perm objects') :
    p.Made p' fds' objects' :=
  ⟨h.descriptors.perm hfds, h.objects.perm hobjects, h.pointers, h.threads⟩

theorem openPair (h : p.Made p' fds objects) (cloexec : Bool) :
    ∃ a b q, p'.openPair k cloexec = ((a, b), q) ∧ p.Made q (b :: a :: fds) objects :=
  ⟨_, _, _, rfl,
    { descriptors :=
        (h.descriptors.trans (.add p'.descriptors 0 cloexec 0)).trans (.add _ 0 cloexec 0)
      objects := h.objects
      pointers := h.pointers
      threads := h.threads }⟩

theorem openOne (h : p.Made p' fds objects) :
    ∃ fd q, p'.openOne k = (fd, q) ∧ p.Made q (fd :: fds) objects :=
  ⟨_, _, rfl,
    { descriptors := h.descriptors.trans (.add p'.descriptors 0 true 0)
      objects := h.objects
      pointers := h.pointers
      threads := h.threads }⟩

theorem new (h : p.Made p' fds objects) (targets : List Nat) :
    ∃ o q, p'.new targets = (o, q) ∧ p.Made q fds (o :: objects) := by
  refine ⟨_, _, rfl, ?_⟩
  have hobjects := (h.objects.trans (.alloc p'.objects)).perm (List.perm_append_singleton _ _)
  refine ⟨h.descriptors, hobjects, ?_, h.threads⟩
  intro r hr
  rcases List.mem_append.1 hr with hnew | hr
  · obtain ⟨target, -, rfl⟩ := List.mem_map.1 hnew
    exact .inr h.objects.allocated_le
  · exact h.pointers r hr

/-- What the function itself has constructed may get pointers. -/
theorem assign (h : p.Made p' fds objects) (holder target : Nat) (hholder : holder ∈ objects) :
    p.Made (p'.assign holder target) fds objects where
  descriptors := h.descriptors
  objects := h.objects
  pointers r hr := by
    rcases List.mem_cons.1 hr with rfl | hr
    · exact .inr (h.objects.recent holder hholder)
    · exact h.pointers r hr
  threads := h.threads

/-- Setting the flag of a descriptor that is held fails only by itself. -/
theorem setfd (h : p.Made p' fds objects) {fd : Nat} (hfd : fd ∈ fds) (fails : Bool) (arg : Nat) :
    ∃ q, p'.fcntl k fails fd F_SETFD arg = (!fails, q) ∧ p.Made q fds objects := by
  have hmade : p.descriptors.Grown (p'.descriptors.fcntl k fails fd F_SETFD arg).2 fds :=
    h.descriptors.fcntl_setfd hfd
  obtain ⟨d, hd⟩ := Option.ne_none_iff_exists'.1 (h.descriptors.opened fd hfd)
  refine ⟨_, Prod.ext ?_ rfl, hmade, h.objects, h.pointers, h.threads⟩
  unfold Process.fcntl
  rw [Descriptors.fcntl_setfd hd]
  cases fails <;> rfl

theorem delete {object : Nat} (h : p.Made p' fds (object :: objects)) :
    p.Made (p'.delete object) fds objects where
  descriptors := h.descriptors
  objects := h.objects.free
  pointers := h.pointers
  threads := h.threads

/-- A way out closes and deletes some of what is held, in whatever order. -/
theorem undo (ns os : List Nat) (h : p.Made p' fds objects) (hfds : fds.Perm (ns ++ fds'))
    (hobjects : objects.Perm (os ++ objects'))
    (hdescriptors : p''.descriptors = p'.descriptors.closeAll ns)
    (hledger : p''.objects = p'.objects.freeAll os) (hpointers : p''.pointers = p'.pointers)
    (hthreads : p''.threads = p'.threads) : p.Made p'' fds' objects' where
  descriptors := hdescriptors ▸ h.descriptors.closeAll hfds
  objects := hledger ▸ (h.objects.perm hobjects).freeAll
  pointers r hr := h.pointers r (hpointers ▸ hr)
  threads := hthreads.trans h.threads

/-- A call that leaves nothing behind leaves no pointer to a released object. -/
theorem sound (h : p.Made p' [] []) (hsound : p.Sound) : p'.Sound := by
  intro r hr halive
  have hbefore := h.objects.alive halive.1 halive.2
  rcases h.pointers r hr with hr | hnew
  · obtain ⟨hlt, hzero⟩ := hsound r hr hbefore
    have hsum := h.objects.sums r.2
    have hold : ¬ (p.objects.allocated ≤ r.2 ∧ r.2 < p'.objects.allocated) := by omega
    rw [if_neg hold, List.count_nil, hzero] at hsum
    exact ⟨Nat.lt_of_lt_of_le hlt h.objects.allocated_le, hsum⟩
  · exact absurd hbefore.1 (Nat.not_lt.2 hnew)

end Made

/-- What a call that constructs an `α` has done since `p`, with `fds` and `objects` held before it: where
it has `failed`, nothing is left of it; else what `owns` lists is held as well. -/
def Constructs {α : Type*} (failed : Prop) (p : Process) (fds objects : List Nat)
    (owns : α → List Nat × List Nat) (called : Option α × Process) : Prop :=
  match called.1 with
  | none => failed ∧ p.Made called.2 fds objects
  | some a => ¬ failed ∧ p.Made called.2 ((owns a).1 ++ fds) ((owns a).2 ++ objects)

/-- The next part of a function, unless it has returned null. -/
def andThen {α β : Type*} (called : Option α × Process) (next : α → Process → Option β × Process) :
    Option β × Process :=
  match called.1 with
  | none => (none, called.2)
  | some a => next a called.2

/-- The ways out of the second part also undo the first. -/
theorem Constructs.andThen {α β : Type*} {failed failed' : Prop} {p : Process} {fds objects : List Nat}
    {owns : α → List Nat × List Nat} {owns' : β → List Nat × List Nat} {called : Option α × Process}
    {next : α → Process → Option β × Process} (h : p.Constructs failed fds objects owns called)
    (hnext : ∀ a p', p.Made p' ((owns a).1 ++ fds) ((owns a).2 ++ objects) →
      p.Constructs failed' fds objects owns' (next a p')) :
    p.Constructs (failed ∨ failed') fds objects owns' (Process.andThen called next) := by
  obtain ⟨a, p'⟩ := called
  cases a with
  | none => exact ⟨.inl h.1, h.2⟩
  | some a =>
      have hsecond := hnext a p' h.2
      change Constructs _ p fds objects owns' (next a p')
      generalize next a p' = called at hsecond ⊢
      obtain ⟨b, p''⟩ := called
      cases b with
      | none => exact ⟨.inr hsecond.1, hsecond.2⟩
      | some b => exact ⟨fun hfailed => hfailed.elim h.1 hsecond.1, hsecond.2⟩

end Process

/-! ## Event and command objects -/

/-- A `CommandObject` with its descriptor. -/
structure CommandObject where
  object : Nat
  handle : Nat

/-- `new beyond::CommandObject(handle)`, kept by `holder`. -/
def CommandObject.new (holder handle : Nat) (p : Process) : CommandObject × Process :=
  (⟨(p.new []).1, handle⟩, (p.new []).2.assign holder (p.new []).1)

theorem Process.Made.command {p p' : Process} {fds objects : List Nat}
    (h : p.Made p' fds objects) (holder : Nat) (hholder : holder ∈ objects) (handle : Nat) :
    ∃ o q, CommandObject.new holder handle p' = (⟨o, handle⟩, q) ∧ p.Made q fds (o :: objects) := by
  obtain ⟨o, q, hnew, hmade⟩ := h.new []
  refine ⟨o, q.assign holder o, ?_, hmade.assign holder o (List.mem_cons_of_mem o hholder)⟩
  rw [CommandObject.new, hnew]

/-- An event object with the two ends of its pipe. -/
structure EventObject where
  object : Nat
  handle : Nat
  publishHandle : Nat

namespace EventObject

inductive Step
  | pipe
  | fcntl0
  | fcntl1
  | new
  deriving DecidableEq, Repr

variable (k : Kernel) (fails : Step → Bool)

/-- The body that the `Create`s of the event objects share; `setfd` is the call that is to set the flag
of a descriptor. -/
def createWith (setfd : Process → Bool → Nat → Bool × Process) (p : Process) :
    Option EventObject × Process :=
  if fails .pipe then (none, p)
  else
    let pfd := (p.openPair k false).1
    let first := setfd (p.openPair k false).2 (fails .fcntl0) pfd.1
    if first.1 = false then (none, (first.2.close pfd.1).close pfd.2)
    else
      let second := setfd first.2 (fails .fcntl1) pfd.2
      if second.1 = false then (none, (second.2.close pfd.1).close pfd.2)
      else if fails .new then (none, (second.2.close pfd.1).close pfd.2)
      else (some ⟨(second.2.new []).1, pfd.1, pfd.2⟩, (second.2.new []).2)

/-- `Inference::impl::EventObject::Create`. -/
def create (p : Process) : Option EventObject × Process :=
  createWith k fails (fun p fails fd => p.fcntl k fails fd F_SETFD FD_CLOEXEC) p

def destroy (o : EventObject) (p : Process) : Process :=
  ((p.close o.handle).close o.publishHandle).delete o.object

def owns (o : EventObject) : List Nat × List Nat := ([o.handle, o.publishHandle], [o.object])

/-- Whichever of its steps fails, both ends of the pipe are closed. -/
theorem create_constructs {p p' : Process} {fds objects : List Nat} (h : p.Made p' fds objects) :
    p.Constructs (∃ s, fails s = true) fds objects owns (create k fails p') := by
  unfold create createWith
  by_cases hpipe : fails .pipe = true
  · rw [if_pos hpipe]
    exact ⟨⟨_, hpipe⟩, h⟩
  obtain ⟨a, b, p₁, hopen, hopened⟩ := h.openPair (k := k) false
  rw [if_neg hpipe, hopen]
  have hundo : ∀ q : Process, p.Made q (b :: a :: fds) objects →
      p.Made ((q.close a).close b) fds objects := fun q hq =>
    hq.undo [a, b] [] (.swap a b fds) (.refl _) rfl rfl rfl rfl
  obtain ⟨p₂, hset₀, hfirst⟩ := hopened.setfd (k := k) (.tail b (.head fds)) (fails .fcntl0) FD_CLOEXEC
  dsimp only
  rw [hset₀]
  by_cases hfcntl0 : fails .fcntl0 = true
  · rw [if_pos (by simp [hfcntl0])]
    exact ⟨⟨_, hfcntl0⟩, hundo p₂ hfirst⟩
  obtain ⟨p₃, hset₁, hsecond⟩ := hfirst.setfd (k := k) (.head _) (fails .fcntl1) FD_CLOEXEC
  rw [if_neg (by simp [hfcntl0])]
  dsimp only
  rw [hset₁]
  by_cases hfcntl1 : fails .fcntl1 = true
  · rw [if_pos (by simp [hfcntl1])]
    exact ⟨⟨_, hfcntl1⟩, hundo p₃ hsecond⟩
  rw [if_neg (by simp [hfcntl1])]
  by_cases hnew : fails .new = true
  · rw [if_pos hnew]
    exact ⟨⟨_, hnew⟩, hundo p₃ hsecond⟩
  obtain ⟨object, p₄, hnewed, hmade⟩ := hsecond.new []
  dsimp only
  rw [if_neg hnew, hnewed]
  refine ⟨?_, hmade.perm (.swap a b fds) (.refl _)⟩
  rintro ⟨s, hs⟩
  cases s <;> contradiction

end EventObject

/-! ## Event loops -/

namespace EventLoop

/-- The steps of `AddEventHandlerInternal`. -/
inductive HandlerStep
  | new
  | epollCtl
  deriving DecidableEq, Repr

/-- `AddEventHandlerInternal` for an event object with a descriptor; `pimpl` is the loop.  A handler that is
registered hangs from the loop. -/
def addHandler (fails : HandlerStep → Bool) (pimpl eventObject data : Nat) (p : Process) :
    Option Nat × Process :=
  if fails .new then (none, p)
  else
    let handlerObject := (p.new [eventObject, data]).1
    let p := (p.new [eventObject, data]).2
    if fails .epollCtl then (none, p.delete handlerObject)
    else (some handlerObject, p.assign pimpl handlerObject)

/-- The members of `EventLoop::impl` that its destructor reads. -/
structure Impl where
  pimpl : Nat
  /-- The descriptors of `SP_CTRL` and `SP_NOTI`, if they are not -1. -/
  spfd : Option (Nat × Nat)
  handle : Option Nat
  /-- The handler of the control socket, with its event object. -/
  spHandlerObject : Option (Nat × Nat)

namespace Impl

/-- `delete pimpl`. -/
def delete (loop : Impl) (p : Process) : Process :=
  let p :=
    match loop.spHandlerObject with
    | some (spHandlerObject, eventObject) => (p.delete spHandlerObject).delete eventObject
    | none => p
  let p :=
    match loop.spfd with
    | some (ctrl, noti) => (p.close ctrl).close noti
    | none => p
  let p :=
    match loop.handle with
    | some handle => p.close handle
    | none => p
  p.delete loop.pimpl

def fds (loop : Impl) : List Nat :=
  loop.spfd.elim [] (fun spfd => [spfd.1, spfd.2]) ++ loop.handle.toList

def objects (loop : Impl) : List Nat :=
  loop.spHandlerObject.elim [] (fun h => [h.1, h.2]) ++ [loop.pimpl]

def owns (loop : Impl) : List Nat × List Nat := (loop.fds, loop.objects)

end Impl

inductive Step
  | new
  | socketpair
  | epoll
  | generic
  | handler (s : HandlerStep)
  deriving DecidableEq, Repr

variable (k : Kernel)

/-- `EventLoop::impl::Create(true, false)`. -/
def create (fails : Step → Bool) (p : Process) : Option Impl × Process :=
  if fails .new then (none, p)
  else
    let pimpl := (p.new []).1
    let p := (p.new []).2
    if fails .socketpair then (none, Impl.delete ⟨pimpl, none, none, none⟩ p)
    else
      let spfd := (p.openPair k true).1
      let p := (p.openPair k true).2
      if fails .epoll then (none, Impl.delete ⟨pimpl, some spfd, none, none⟩ p)
      else
        let handle := (p.openOne k).1
        let p := (p.openOne k).2
        if fails .generic then (none, Impl.delete ⟨pimpl, some spfd, some handle, none⟩ p)
        else
          let generic := (p.new []).1
          let added := addHandler (fun s => fails (.handler s)) pimpl generic pimpl (p.new []).2
          match added.1 with
          | none =>
              (none, Impl.delete ⟨pimpl, some spfd, some handle, none⟩ (added.2.delete generic))
          | some spHandlerObject =>
              (some ⟨pimpl, some spfd, some handle, some (spHandlerObject, generic)⟩, added.2)

/-- `Destroy` of a loop that never ran: `StopLoop` finds it stopped, and `pthread_join` refuses the calling
thread, which `svc_thid` still names. -/
def destroy (loop : Impl) (p : Process) : Process := loop.delete p

inductive RunStep
  | attrInit
  | create
  | attrDestroy
  deriving DecidableEq, Repr

/-- `Run` of a loop that never ran, and whether it returns 0. -/
def run (fails : RunStep → Bool) (loop : Impl) (p : Process) : Bool × Process :=
  if fails .attrInit then (false, p)
  else if fails .create then (false, p)
  else (!fails .attrDestroy, { p with threads := loop.pimpl :: p.threads })

/-! ## Constructing a loop -/

variable {p p' : Process} {fds objects : List Nat}

/-- The loop was constructed since `p`. -/
theorem addHandler_constructs (fails : HandlerStep → Bool) (pimpl eventObject data : Nat)
    (h : p.Made p' fds objects) (hpimpl : pimpl ∈ objects) :
    p.Constructs (∃ s, fails s = true) fds objects (fun handlerObject => ([], [handlerObject]))
      (addHandler fails pimpl eventObject data p') := by
  unfold addHandler
  by_cases hnew : fails .new = true
  · rw [if_pos hnew]
    exact ⟨⟨_, hnew⟩, h⟩
  obtain ⟨handlerObject, p₁, hnewed, hmade⟩ := h.new [eventObject, data]
  rw [if_neg hnew, hnewed]
  dsimp only
  by_cases hctl : fails .epollCtl = true
  · rw [if_pos hctl]
    exact ⟨⟨_, hctl⟩, hmade.delete⟩
  rw [if_neg hctl]
  refine ⟨?_, hmade.assign pimpl handlerObject (List.mem_cons_of_mem handlerObject hpimpl)⟩
  rintro ⟨s, hs⟩
  cases s <;> contradiction

/-- The destructor of a partly constructed loop releases what the loop has so far. -/
theorem create_constructs (fails : Step → Bool) (h : p.Made p' fds objects) :
    p.Constructs (∃ s, fails s = true) fds objects Impl.owns (create k fails p') := by
  unfold create
  by_cases hnew : fails .new = true
  · rw [if_pos hnew]
    exact ⟨⟨_, hnew⟩, h⟩
  obtain ⟨pimpl, p₁, hnewed, hobject⟩ := h.new []
  rw [if_neg hnew, hnewed]
  dsimp only
  by_cases hsocketpair : fails .socketpair = true
  · rw [if_pos hsocketpair]
    exact ⟨⟨_, hsocketpair⟩, hobject.delete⟩
  obtain ⟨ctrl, noti, p₂, hopen, hpair⟩ := hobject.openPair (k := k) true
  rw [if_neg hsocketpair, hopen]
  dsimp only
  by_cases hepoll : fails .epoll = true
  · rw [if_pos hepoll]
    exact ⟨⟨_, hepoll⟩, hpair.undo [ctrl, noti] [pimpl] (.swap ctrl noti fds) (.refl _) rfl rfl rfl rfl⟩
  obtain ⟨handle, p₃, hepolled, hone⟩ := hpair.openOne (k := k)
  rw [if_neg hepoll, hepolled]
  dsimp only
  have hfds : (handle :: noti :: ctrl :: fds).Perm ([ctrl, noti, handle] ++ fds) := by
    refine List.perm_iff_count.2 fun n => ?_
    simp only [List.cons_append, List.nil_append, List.count_cons]
    omega
  by_cases hgeneric : fails .generic = true
  · rw [if_pos hgeneric]
    exact ⟨⟨_, hgeneric⟩, hone.undo [ctrl, noti, handle] [pimpl] hfds (.refl _) rfl rfl rfl rfl⟩
  obtain ⟨generic, p₄, hgenericed, hobjects⟩ := hone.new []
  rw [if_neg hgeneric, hgenericed]
  dsimp only
  have hadded :=
    addHandler_constructs (fun s => fails (.handler s)) pimpl generic pimpl hobjects (by simp)
  generalize addHandler (fun s => fails (.handler s)) pimpl generic pimpl p₄ = added at hadded ⊢
  obtain ⟨spHandlerObject, p₅⟩ := added
  cases spHandlerObject with
  | none =>
      obtain ⟨⟨s, hs⟩, hmade⟩ := hadded
      exact ⟨⟨_, hs⟩, hmade.undo [ctrl, noti, handle] [generic, pimpl] hfds (.refl _) rfl rfl rfl rfl⟩
  | some spHandlerObject =>
      obtain ⟨hnone, hmade⟩ := hadded
      refine ⟨?_, hmade.perm hfds (.refl _)⟩
      rintro ⟨s, hs⟩
      cases s with
      | handler s => exact hnone ⟨s, hs⟩
      | _ => contradiction

theorem addHandler_descriptors (fails : HandlerStep → Bool) (pimpl eventObject data : Nat)
    (p : Process) : (addHandler fails pimpl eventObject data p).2.descriptors = p.descriptors := by
  unfold addHandler
  split
  · rfl
  · dsimp only
    split <;> rfl

theorem addHandler_eq_none_iff (fails : HandlerStep → Bool) (pimpl eventObject data : Nat)
    (p : Process) :
    (addHandler fails pimpl eventObject data p).1 = none ↔ ∃ s, fails s = true := by
  unfold addHandler
  by_cases hnew : fails .new = true
  · rw [if_pos hnew]
    exact iff_of_true rfl ⟨_, hnew⟩
  rw [if_neg hnew]
  by_cases hctl : fails .epollCtl = true
  · dsimp only
    rw [if_pos hctl]
    exact iff_of_true rfl ⟨_, hctl⟩
  dsimp only
  rw [if_neg hctl]
  refine iff_of_false (Option.some_ne_none _) ?_
  rintro ⟨s, hs⟩
  cases s <;> contradiction

/-- A loop gets the next three numbers. -/
theorem create_used (fails : Step → Bool) (p : Process) (h : (create k fails p).1 ≠ none) :
    (create k fails p).2.descriptors.used = k.handed p.descriptors.used 3 := by
  revert h
  unfold create
  split
  · exact fun h => absurd rfl h
  dsimp only
  split
  · exact fun h => absurd rfl h
  split
  · exact fun h => absurd rfl h
  split
  · exact fun h => absurd rfl h
  split
  · exact fun h => absurd rfl h
  · intro _
    dsimp only
    rw [addHandler_descriptors]
    rfl

theorem delete_descriptors (loop : Impl) (p : Process) :
    (loop.delete p).descriptors = p.descriptors.closeAll loop.fds := by
  obtain ⟨pimpl, spfd, handle, spHandlerObject⟩ := loop
  cases spHandlerObject <;> cases spfd <;> cases handle <;> rfl

theorem run_objects (fails : RunStep → Bool) (loop : Impl) (p : Process) :
    (run fails loop p).2.objects = p.objects := by
  unfold run
  split
  · rfl
  · split <;> rfl

theorem run_fails_iff {fails : RunStep → Bool} {loop : Impl} {p : Process} :
    (run fails loop p).1 = false ↔ ∃ s, fails s = true := by
  unfold run
  by_cases hinit : fails .attrInit = true
  · rw [if_pos hinit]
    exact ⟨fun _ => ⟨_, hinit⟩, fun _ => rfl⟩
  rw [if_neg hinit]
  by_cases hcreate : fails .create = true
  · rw [if_pos hcreate]
    exact ⟨fun _ => ⟨_, hcreate⟩, fun _ => rfl⟩
  rw [if_neg hcreate, Bool.not_eq_false']
  refine ⟨fun hdestroy => ⟨_, hdestroy⟩, ?_⟩
  rintro ⟨s, hs⟩
  cases s with
  | attrDestroy => exact hs
  | _ => contradiction

end EventLoop
end Construction
end Beyond
