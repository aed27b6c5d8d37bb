import Beyond.Base.Platform
import Beyond.Base.RefCount
import Beyond.Base.Run
import Beyond.EventLoop.Handlers

/-!
# Tensor containers of the C API

A `beyond_tensor_container` is shared by the application and by the inferences that use it as input,
and counts its references.  `beyond_inference_do` takes one for the inference and keeps it in a
`beyond_inference_context`, which travels through the runtime or the peer; the event handler that
`beyond_inference_create` registers gives it back when the answer comes.

Containers and contexts are numbered as they are allocated; memory that was freed is `none`, and an
access to it sets `fault`.  The handle and its inference are there all the time.
-/

namespace Beyond
namespace Capi
namespace Tensor

open EventLoop (EventTypes)
open Errno

def INT_MAX : Int := 2147483647

/-! ## Events -/

def READ : BitVec 32 := 0x00000010
def WRITE : BitVec 32 := 0x00000020
def ERROR : BitVec 32 := 0x00000040
def INFERENCE_SUCCESS : BitVec 32 := 0x01000200
def INFERENCE_STOPPED : BitVec 32 := 0x01000400
def INFERENCE_CANCELED : BitVec 32 := 0x01000800
def INFERENCE_ERROR : BitVec 32 := 0x01001000
def INFERENCE_MASK : BitVec 32 := 0x0100FF00

/-- The events that answer an inference. -/
inductive Completion
  | success
  | error
  | canceled
  | stopped
  deriving DecidableEq, Repr

def Completion.type : Completion → BitVec 32
  | success => INFERENCE_SUCCESS
  | error => INFERENCE_ERROR
  | canceled => INFERENCE_CANCELED
  | stopped => INFERENCE_STOPPED

/-- What `FetchEventData` adds to the type. -/
def readiness (ready : EventTypes) : BitVec 32 :=
  (if ready.read then READ else 0) ||| (if ready.write then WRITE else 0) |||
    (if ready.error then ERROR else 0)

structure EventData where
  type : BitVec 32
  data : Option Nat
  deriving DecidableEq, Repr

/-! ## State -/

/-- `beyond_tensor_container`. -/
structure Container where
  handle : Nat
  refcnt : Int
  deriving DecidableEq, Repr

/-- `beyond_inference_context`. -/
structure Context where
  inputTensor : Nat
  userContext : Option Nat
  deriving DecidableEq, Repr

/-- An invocation of the output callback, with the inference that the event answers. -/
structure Callback where
  answers : Option Nat
  event : EventData
  deriving DecidableEq, Repr

structure State where
  handle : Nat
  /-- Whether there is an output callback. -/
  output : Bool
  container : Nat → Option Container
  allocated : Nat
  tensorFrees : Nat → Nat
  context : Nat → Option Context
  contexts : Nat
  releases : Nat → Nat
  /-- The references that the application owns. -/
  users : Nat → Nat
  /-- What `beyond_inference_do` was called with, where it was accepted. -/
  accepted : Nat → Option Context
  /-- The accepted inferences without an answer. -/
  waiting : List Nat
  callbacks : List Callback
  fault : Bool

def State.initial (handle : Nat) : State where
  handle := handle
  output := true
  container _ := none
  allocated := 0
  tensorFrees _ := 0
  context _ := none
  contexts := 0
  releases _ := 0
  users _ := 0
  accepted _ := none
  waiting := []
  callbacks := []
  fault := false

inductive Act
  | allocateTensor (info : Bool) (size : Int) (malloc : Bool) (ret : Int)
  | getOutput (malloc : Bool) (ret : Int)
  | refTensor (c : Nat)
  | unrefTensor (ptr : Option Nat)
  /-- `beyond_inference_do`; `ret` is what `Invoke` returns. -/
  | invoke (ptr : Option Nat) (userContext : Option Nat) (malloc : Bool) (ret : Int)
  /-- The event that answers inference `x` is fetched. -/
  | completion (x : Nat) (kind : Completion) (ready : EventTypes)
  /-- A fetch fails, perhaps with the event that would have answered an inference. -/
  | failedFetch (ret : Int) (answers : Option Nat)
  /-- An event without data is fetched. -/
  | notice (type : BitVec 32)
  deriving DecidableEq, Repr

/-- Whether inference `x` was accepted with container `c` as its input. -/
def uses (accepted : Nat → Option Context) (c x : Nat) : Bool :=
  (accepted x).map Context.inputTensor == some c

/-- The references that users own, and one for each unanswered inference on `c`. -/
def State.holders (s : State) (c : Nat) : Nat := s.users c + s.waiting.countP (uses s.accepted c)

/-- The data of the callbacks that answer inference `x`. -/
def answersTo (callbacks : List Callback) (x : Nat) : List (Option Nat) :=
  (callbacks.filter fun b => b.answers == some x).map fun b => b.event.data

/-! ## Functions -/

def tensorContainerRef (s : State) (c : Nat) : State :=
  match s.container c with
  | none => { s with fault := true }
  | some k =>
      -- `++` on the largest `int` is undefined.
      if k.refcnt = INT_MAX then { s with fault := true }
      else
        { s with
          container := Function.update s.container c (some { k with refcnt := k.refcnt + 1 }) }

def tensorContainerUnref (s : State) (c : Nat) : State :=
  match s.container c with
  | none => { s with fault := true }
  | some k =>
      if k.refcnt - 1 = 0 then
        { s with
          container := Function.update s.container c none
          tensorFrees := Function.update s.tensorFrees c (s.tensorFrees c + 1) }
      else
        { s with
          container := Function.update s.container c (some { k with refcnt := k.refcnt - 1 }) }

/-- `free` of a context. -/
def freeContext (s : State) (x : Nat) : State :=
  match s.context x with
  | none => { s with fault := true }
  | some _ =>
      { s with
        context := Function.update s.context x none
        releases := Function.update s.releases x (s.releases x + 1) }

/-- A container in which the runtime has put its tensor; the caller owns the reference. -/
def newContainer (s : State) : State :=
  { s with
    container := Function.update s.container s.allocated (some ⟨s.handle, 1⟩)
    allocated := s.allocated + 1
    users := Function.update s.users s.allocated 1 }

def allocateTensor (s : State) (info : Bool) (size : Int) (malloc : Bool) (ret : Int) :
    State × Option Nat :=
  if info = false ∨ size ≤ 0 then (s, none)
  else if ¬ malloc then (s, none)
  else if ret < 0 then (s, none)
  else (newContainer s, some s.allocated)

def getOutput (s : State) (malloc : Bool) (ret : Int) : State × Int :=
  if ¬ malloc then (s, -ENOMEM)
  else if ret < 0 then (s, ret)
  else (newContainer s, 0)

/-- `beyond_inference_do`. -/
def invoke (s : State) (ptr : Option Nat) (userContext : Option Nat) (malloc : Bool) (ret : Int) :
    State × Int :=
  match ptr with
  | none => (s, -EINVAL)
  | some c =>
      match s.container c with
      | none => ({ s with fault := true }, ret)
      | some k =>
          if k.handle ≠ s.handle then (s, -EINVAL)
          else if ¬ malloc then (s, -ENOMEM)
          else
            let x := s.contexts
            let t := tensorContainerRef
              { s with
                context := Function.update s.context x (some ⟨c, userContext⟩)
                contexts := x + 1 } c
            if ret < 0 then (freeContext (tensorContainerUnref t c) x, ret)
            else
              ({ t with
                accepted := Function.update t.accepted x (some ⟨c, userContext⟩)
                waiting := t.waiting ++ [x] }, ret)

/-- The branches of the event handler: what it does, and what it tells the callback. -/
def takeEvent (s : State) (ret : Int) (evtData : Option EventData) : State × EventData :=
  match evtData with
  | none => (s, ⟨INFERENCE_ERROR, none⟩)
  | some e =>
      if ret < 0 ∨ e.type &&& ERROR ≠ 0 then (s, ⟨INFERENCE_ERROR, none⟩)
      else if e.type &&& INFERENCE_MASK ≠ 0 then
        match e.data with
        | none => (s, ⟨e.type, none⟩)
        | some x =>
            match s.context x with
            | none => ({ s with fault := true }, ⟨e.type, none⟩)
            | some context =>
                (freeContext (tensorContainerUnref s context.inputTensor) x,
                  ⟨e.type, context.userContext⟩)
      else (s, e)

/-- The event handler; `answers` is the inference that the event was published for. -/
def eventHandler (s : State) (ret : Int) (evtData : Option EventData) (answers : Option Nat) :
    State :=
  let taken := takeEvent s ret evtData
  let t := taken.1
  { t with
    waiting := match answers with
      | none => t.waiting
      | some x => t.waiting.erase x
    callbacks := if t.output then t.callbacks ++ [⟨answers, taken.2⟩] else t.callbacks }

/-- Users pass what somebody holds, and give back only what they own. -/
def step (s : State) : Act → Option State
  | .allocateTensor info size malloc ret => some (allocateTensor s info size malloc ret).1
  | .getOutput malloc ret => some (getOutput s malloc ret).1
  | .refTensor c =>
      if s.holders c = 0 then none
      else
        let t := tensorContainerRef s c
        some { t with users := Function.update t.users c (t.users c + 1) }
  | .unrefTensor none => some s
  | .unrefTensor (some c) =>
      if s.users c = 0 then none
      else
        let t := tensorContainerUnref s c
        some { t with users := Function.update t.users c (t.users c - 1) }
  | .invoke ptr userContext malloc ret =>
      if ptr.any fun c => s.holders c == 0 then none
      else some (invoke s ptr userContext malloc ret).1
  | .completion x kind ready =>
      if x ∈ s.waiting then
        some (eventHandler s 0 (some ⟨kind.type ||| readiness ready, some x⟩) (some x))
      else none
  | .failedFetch ret answers =>
      if answers.any fun x => x ∉ s.waiting then none
      else some (eventHandler s ret none answers)
  | .notice type => some (eventHandler s 0 (some ⟨type, none⟩) none)

/-! ## Specification -/

structure Correct (s : State) : Prop where
  safe : s.fault = false
  /-- Tensors are freed once, and when no reference and no unanswered inference is left. -/
  tensors : ∀ c < s.allocated,
    s.tensorFrees c = if s.users c = 0 ∧ ∀ x ∈ s.waiting, uses s.accepted c x = false then 1 else 0
  contexts : ∀ x < s.contexts, s.releases x = if x ∈ s.waiting then 0 else 1
  callbacks : ∀ x context, s.accepted x = some context →
    answersTo s.callbacks x = if x ∈ s.waiting then [] else [context.userContext]

/-- The answer to an inference comes without the error bit and by a fetch that works, and nobody takes
a reference of a container that has as many as an `int` can count. -/
def Clean (s : State) : Act → Prop
  | .completion _ _ ready => ready.error = false
  | .failedFetch _ answers => answers = none
  | .refTensor c => (s.holders c : Int) ≠ INT_MAX
  | .invoke ptr _ malloc _ => malloc = true → ∀ c ∈ ptr, (s.holders c : Int) ≠ INT_MAX
  | _ => True

instance Clean.decidable (s : State) : ∀ a, Decidable (Clean s a)
  | .completion _ _ ready => inferInstanceAs (Decidable (ready.error = false))
  | .failedFetch _ answers => inferInstanceAs (Decidable (answers = none))
  | .refTensor c => inferInstanceAs (Decidable ((s.holders c : Int) ≠ INT_MAX))
  | .invoke ptr _ malloc _ =>
      inferInstanceAs (Decidable (malloc = true → ∀ c ∈ ptr, (s.holders c : Int) ≠ INT_MAX))
  | .allocateTensor .. | .getOutput .. | .unrefTensor _ | .notice _ => isTrue trivial

/-! ## The counters -/

def count (container : Nat → Option Container) (c : Nat) : Option Int :=
  (container c).map Container.refcnt

@[simp] theorem count_update (container : Nat → Option Container) (c : Nat) (k : Option Container) :
    count (Function.update container c k) =
      Function.update (count container) c (k.map Container.refcnt) := by
  funext d
  by_cases hd : d = c
  · subst hd
    simp [count]
  · simp [Function.update_of_ne hd, count]

/-- What the invariant says of the containers, for any `holders`. -/
structure Kept (s : State) (holders : Nat → Nat) : Prop where
  counted : Counted (fun c => c < s.allocated) holders (count s.container) s.tensorFrees
  handles : ∀ c k, s.container c = some k → k.handle = s.handle

theorem handles_update {s : State} {c : Nat} {k : Option Container}
    (hs : ∀ d k, s.container d = some k → k.handle = s.handle)
    (hk : ∀ k', k = some k' → k'.handle = s.handle) :
    ∀ d k', Function.update s.container c k d = some k' → k'.handle = s.handle := by
  intro d k' hd
  by_cases hdc : d = c
  · subst hdc
    rw [Function.update_self] at hd
    exact hk k' hd
  · rw [Function.update_of_ne hdc] at hd
    exact hs d k' hd

namespace Kept

variable {s : State} {holders : Nat → Nat} {c : Nat}

theorem container_of_held (h : Kept s holders) (hc : holders c ≠ 0) :
    s.container c = some ⟨s.handle, holders c⟩ := by
  have hcount := h.counted.count_of_held hc
  cases hk : s.container c with
  | none => simp [count, hk] at hcount
  | some k =>
      have hrefcnt : k.refcnt = holders c := by simpa [count, hk] using hcount
      rw [← hrefcnt, ← h.handles c k hk]

theorem new (h : Kept s holders) :
    Kept (newContainer s) (Function.update holders s.allocated 1) where
  counted := by
    have hnew : Counted (fun c => c < s.allocated + 1) _ _ _ :=
      h.counted.alloc (a := s.allocated) (fun b => by omega) (by omega)
    simpa [newContainer] using hnew
  handles := handles_update h.handles (by simp)

/-- Somebody holds the container: the reference is counted, and nothing else happens. -/
theorem ref (h : Kept s holders) (hc : holders c ≠ 0) (hmax : (holders c : Int) ≠ INT_MAX) :
    ∃ container, tensorContainerRef s c = { s with container := container } ∧
      Kept { s with container := container } (Function.update holders c (holders c + 1)) := by
  have hk := h.container_of_held hc
  have hstep : tensorContainerRef s c = { s with
      container := Function.update s.container c (some ⟨s.handle, holders c + 1⟩) } := by
    simp only [tensorContainerRef, hk, if_neg hmax]
  refine ⟨_, hstep, ?_, ?_⟩
  · simpa using h.counted.join hc
  · exact handles_update h.handles (by simp)

/-- A holder gives its reference back; the last one frees the tensors and the container. -/
theorem unref (h : Kept s holders) {n : Nat} (hc : holders c = n + 1) :
    ∃ container tensorFrees,
      tensorContainerUnref s c = { s with container := container, tensorFrees := tensorFrees } ∧
      Kept { s with container := container, tensorFrees := tensorFrees }
        (Function.update holders c n) := by
  have hk := h.container_of_held (c := c) (by omega)
  have hrefcnt : (holders c : Int) - 1 = n := by omega
  by_cases hn : n = 0
  · subst hn
    have hstep : tensorContainerUnref s c = { s with
        container := Function.update s.container c none
        tensorFrees := Function.update s.tensorFrees c (s.tensorFrees c + 1) } := by
      simp [tensorContainerUnref, hk, hrefcnt]
    refine ⟨_, _, hstep, ?_, ?_⟩
    · simpa using h.counted.last hc
    · exact handles_update h.handles (by simp)
  · have hn' : ¬ (n : Int) = 0 := by omega
    have hstep : tensorContainerUnref s c = { s with
        container := Function.update s.container c (some ⟨s.handle, n⟩) } := by
      simp only [tensorContainerUnref, hk, hrefcnt, if_neg hn']
    refine ⟨_, s.tensorFrees, hstep, ?_, ?_⟩
    · simpa using h.counted.leave hc hn
    · exact handles_update h.handles (by simp)

end Kept

/-! ## Holders -/

theorem uses_of_ne {accepted : Nat → Option Context} {x y : Nat} (hy : y ≠ x)
    (context : Option Context) (c : Nat) :
    uses (Function.update accepted x context) c y = uses accepted c y := by
  simp [uses, Function.update_of_ne hy]

theorem uses_of_accepted {accepted : Nat → Option Context} {x : Nat} {context : Context}
    (hx : accepted x = some context) (c : Nat) :
    uses accepted c x = decide (context.inputTensor = c) := by
  simp [uses, hx, beq_eq_decide]

/-- An accepted inference joins the holders of its input. -/
theorem holders_accept {s : State} {x : Nat} (hx : x ∉ s.waiting) (context : Context) :
    State.holders { s with
      accepted := Function.update s.accepted x (some context)
      waiting := s.waiting ++ [x] } =
    Function.update s.holders context.inputTensor (s.holders context.inputTensor + 1) := by
  funext c
  have hrest : s.waiting.countP (uses (Function.update s.accepted x (some context)) c) =
      s.waiting.countP (uses s.accepted c) := by
    refine List.countP_congr fun y hy => ?_
    rw [uses_of_ne (ne_of_mem_of_not_mem hy hx)]
  have hnew : uses (Function.update s.accepted x (some context)) c x =
      decide (context.inputTensor = c) := uses_of_accepted (Function.update_self ..) c
  simp only [State.holders, List.countP_append, List.countP_singleton, hrest, hnew]
  by_cases hc : c = context.inputTensor
  · subst hc
    simp
    omega
  · have hc' : ¬ context.inputTensor = c := fun heq => hc heq.symm
    simp [State.holders, Function.update_of_ne hc, hc']

/-- An answered inference leaves the holders of its input. -/
theorem holders_answer {s : State} {x : Nat} {context : Context} (hx : x ∈ s.waiting)
    (haccepted : s.accepted x = some context) :
    ∃ n, s.holders context.inputTensor = n + 1 ∧
      State.holders { s with waiting := s.waiting.erase x } =
        Function.update s.holders context.inputTensor n := by
  have hcount : ∀ c, s.waiting.countP (uses s.accepted c) =
      (s.waiting.erase x).countP (uses s.accepted c) +
        if context.inputTensor = c then 1 else 0 := by
    intro c
    rw [(List.perm_cons_erase hx).countP_eq, List.countP_cons, uses_of_accepted haccepted]
    simp
  refine ⟨s.users context.inputTensor +
    (s.waiting.erase x).countP (uses s.accepted context.inputTensor), ?_, ?_⟩
  · simp only [State.holders, hcount, if_true]
    omega
  · funext c
    by_cases hc : c = context.inputTensor
    · subst hc
      simp [State.holders]
    · have hc' : ¬ context.inputTensor = c := fun heq => hc heq.symm
      simp [State.holders, Function.update_of_ne hc, hcount c, hc']

/-- The references of a user. -/
theorem holders_users {s : State} {c n : Nat} :
    State.holders { s with users := Function.update s.users c n } =
      Function.update s.holders c (n + s.waiting.countP (uses s.accepted c)) := by
  funext d
  by_cases hd : d = c
  · subst hd
    simp [State.holders]
  · simp [State.holders, Function.update_of_ne hd]

/-! ## Invariant -/

structure Inv (s : State) : Prop where
  safe : s.fault = false
  output : s.output = true
  kept : Kept s s.holders
  nodup : s.waiting.Nodup
  pending : ∀ x ∈ s.waiting, x < s.contexts ∧ s.releases x = 0 ∧ answersTo s.callbacks x = [] ∧
    ∃ context, s.accepted x = some context ∧ s.context x = some context
  settled : ∀ x < s.contexts, x ∉ s.waiting → s.releases x = 1 ∧
    ∀ context, s.accepted x = some context → answersTo s.callbacks x = [context.userContext]
  unmade : ∀ x, s.contexts ≤ x → s.releases x = 0 ∧ answersTo s.callbacks x = [] ∧ s.accepted x = none

theorem inv_initial (handle : Nat) : Inv (.initial handle) where
  safe := rfl
  output := rfl
  kept :=
    { counted := fun c =>
        ⟨by simp [State.holders, State.initial], fun _ => rfl, by simp [State.initial], fun _ => rfl⟩
      handles := by simp [State.initial] }
  nodup := List.nodup_nil
  pending := by simp [State.initial]
  settled := by simp [State.initial]
  unmade := fun _ _ => ⟨rfl, rfl, rfl⟩

/-- Without an unclean step nothing is lost. -/
theorem Inv.correct {s : State} (hs : Inv s) : Correct s where
  safe := hs.safe
  tensors c hc := by
    have hheld : s.holders c = 0 ↔
        s.users c = 0 ∧ ∀ x ∈ s.waiting, uses s.accepted c x = false := by
      simp [State.holders, List.countP_eq_zero]
    rw [hs.kept.counted.frees_eq hc]
    exact if_congr hheld rfl rfl
  contexts x hx := by
    by_cases hwaiting : x ∈ s.waiting
    · rw [if_pos hwaiting]
      exact (hs.pending x hwaiting).2.1
    · rw [if_neg hwaiting]
      exact (hs.settled x hx hwaiting).1
  callbacks x context haccepted := by
    by_cases hwaiting : x ∈ s.waiting
    · rw [if_pos hwaiting]
      exact (hs.pending x hwaiting).2.2.1
    · rw [if_neg hwaiting]
      have hx : x < s.contexts := by
        by_contra hle
        have hnone := (hs.unmade x (by omega)).2.2
        simp [hnone] at haccepted
      exact (hs.settled x hx hwaiting).2 context haccepted

/-! ## Damage -/

/-- An error that has happened, or a context that is never released: nobody waits for it any more. -/
def Damaged (s : State) : Prop :=
  s.fault = true ∨ ∃ x < s.contexts, x ∉ s.waiting ∧ s.releases x = 0

theorem Damaged.not_correct {s : State} (hs : Damaged s) : ¬ Correct s := by
  intro hcorrect
  rcases hs with hfault | ⟨x, hx, hwaiting, hreleases⟩
  · rw [hcorrect.safe] at hfault
    cases hfault
  · have hone := hcorrect.contexts x hx
    rw [if_neg hwaiting, hreleases] at hone
    cases hone

/-- Errors stay, and a context that nobody waits for is left alone. -/
structure Later (s t : State) : Prop where
  fault : s.fault = true → t.fault = true
  contexts : s.contexts ≤ t.contexts
  waiting : ∀ x < s.contexts, x ∉ s.waiting → x ∉ t.waiting
  releases : ∀ x < s.contexts, x ∉ s.waiting → t.releases x = s.releases x

theorem Damaged.later {s t : State} (hs : Damaged s) (h : Later s t) : Damaged t := by
  rcases hs with hfault | ⟨x, hx, hwaiting, hreleases⟩
  · exact .inl (h.fault hfault)
  · exact .inr ⟨x, hx.trans_le h.contexts, h.waiting x hx hwaiting,
      (h.releases x hx hwaiting).trans hreleases⟩

theorem Later.refl (s : State) : Later s s := ⟨id, le_rfl, fun _ _ => id, fun _ _ _ => rfl⟩

theorem Later.trans {s t u : State} (h : Later s t) (h' : Later t u) : Later s u where
  fault hs := h'.fault (h.fault hs)
  contexts := h.contexts.trans h'.contexts
  waiting x hx hs := h'.waiting x (hx.trans_le h.contexts) (h.waiting x hx hs)
  releases x hx hs :=
    (h'.releases x (hx.trans_le h.contexts) (h.waiting x hx hs)).trans (h.releases x hx hs)

theorem later_ref (s : State) (c : Nat) : Later s (tensorContainerRef s c) := by
  unfold tensorContainerRef
  split
  · exact ⟨fun _ => rfl, le_rfl, fun _ _ => id, fun _ _ _ => rfl⟩
  split
  · exact ⟨fun _ => rfl, le_rfl, fun _ _ => id, fun _ _ _ => rfl⟩
  · exact ⟨id, le_rfl, fun _ _ => id, fun _ _ _ => rfl⟩

theorem later_unref (s : State) (c : Nat) : Later s (tensorContainerUnref s c) := by
  unfold tensorContainerUnref
  split
  · exact ⟨fun _ => rfl, le_rfl, fun _ _ => id, fun _ _ _ => rfl⟩
  split
  · exact ⟨id, le_rfl, fun _ _ => id, fun _ _ _ => rfl⟩
  · exact ⟨id, le_rfl, fun _ _ => id, fun _ _ _ => rfl⟩

theorem later_freeContext {s t : State} (h : Later s t) {x : Nat}
    (hx : x < s.contexts → x ∈ s.waiting) : Later s (freeContext t x) := by
  unfold freeContext
  split
  · exact ⟨fun _ => rfl, h.contexts, h.waiting, h.releases⟩
  · refine ⟨h.fault, h.contexts, h.waiting, fun y hy hwaiting => ?_⟩
    have hne : y ≠ x := fun heq => hwaiting (heq ▸ hx (heq ▸ hy))
    simpa [Function.update_of_ne hne] using h.releases y hy hwaiting

theorem fault_freeContext {s : State} (hs : s.fault = true) (x : Nat) :
    (freeContext s x).fault = true := by
  unfold freeContext
  split
  · rfl
  · exact hs

theorem later_invoke (s : State) (ptr userContext : Option Nat) (malloc : Bool) (ret : Int) :
    Later s (invoke s ptr userContext malloc ret).1 := by
  cases ptr with
  | none => exact .refl s
  | some c =>
  cases hk : s.container c with
  | none =>
      simp only [invoke, hk]
      exact ⟨fun _ => rfl, le_rfl, fun _ _ => id, fun _ _ _ => rfl⟩
  | some k =>
  simp only [invoke, hk]
  split
  · exact .refl s
  split
  · exact .refl s
  have hnew : Later s { s with
      context := Function.update s.context s.contexts (some ⟨c, userContext⟩)
      contexts := s.contexts + 1 } :=
    ⟨id, Nat.le_succ _, fun _ _ => id, fun _ _ _ => rfl⟩
  have href := hnew.trans (later_ref _ c)
  split
  · exact later_freeContext (href.trans (later_unref _ c)) fun h => absurd h (lt_irrefl _)
  · refine ⟨href.fault, href.contexts, fun x hx hwaiting => ?_, href.releases⟩
    have hne : x ≠ s.contexts := hx.ne
    simpa [hne] using href.waiting x hx hwaiting

theorem later_takeEvent (s : State) (ret : Int) (evtData : Option EventData)
    (hevent : ∀ e ∈ evtData, ∀ x ∈ e.data, x ∈ s.waiting) :
    Later s (takeEvent s ret evtData).1 := by
  cases evtData with
  | none => exact .refl s
  | some e =>
      simp only [takeEvent]
      split
      · exact .refl s
      split
      · split
        · exact .refl s
        · rename_i x hdata
          split
          · exact ⟨fun _ => rfl, le_rfl, fun _ _ => id, fun _ _ _ => rfl⟩
          · exact later_freeContext (later_unref s _) fun _ => hevent e rfl x hdata
      · exact .refl s

theorem later_eventHandler (s : State) (ret : Int) (evtData : Option EventData)
    (answers : Option Nat) (hevent : ∀ e ∈ evtData, ∀ x ∈ e.data, x ∈ s.waiting) :
    Later s (eventHandler s ret evtData answers) := by
  have h := later_takeEvent s ret evtData hevent
  refine ⟨h.fault, h.contexts, fun x hx hwaiting => ?_, h.releases⟩
  cases answers with
  | none => exact h.waiting x hx hwaiting
  | some y => exact fun hmem => h.waiting x hx hwaiting (List.mem_of_mem_erase hmem)

theorem damaged_step {s s' : State} {a : Act} (hs : Damaged s) (h : step s a = some s') :
    Damaged s' := by
  refine hs.later ?_
  cases a with
  | allocateTensor info size malloc ret =>
      cases h
      unfold allocateTensor
      split_ifs <;> exact ⟨id, le_rfl, fun _ _ => id, fun _ _ _ => rfl⟩
  | getOutput malloc ret =>
      cases h
      unfold getOutput
      split_ifs <;> exact ⟨id, le_rfl, fun _ _ => id, fun _ _ _ => rfl⟩
  | refTensor c =>
      simp only [step] at h
      split_ifs at h
      cases h
      have h := later_ref s c
      exact ⟨h.fault, h.contexts, h.waiting, h.releases⟩
  | unrefTensor ptr =>
      cases ptr with
      | none =>
          cases h
          exact .refl s
      | some c =>
          simp only [step] at h
          split_ifs at h
          cases h
          have h := later_unref s c
          exact ⟨h.fault, h.contexts, h.waiting, h.releases⟩
  | invoke ptr userContext malloc ret =>
      simp only [step] at h
      split_ifs at h
      cases h
      exact later_invoke s ptr userContext malloc ret
  | completion x kind ready =>
      simp only [step] at h
      split_ifs at h with hx
      cases h
      exact later_eventHandler s _ _ _ (by simpa using hx)
  | failedFetch ret answers =>
      simp only [step] at h
      split_ifs at h
      cases h
      exact later_eventHandler s _ _ _ (by simp)
  | notice type =>
      cases h
      exact later_eventHandler s _ _ _ (by simp)

/-! ## Steps -/

namespace Inv

variable {s : State}

/-- Only the references of users change, and the containers with them. -/
theorem of_users (hs : Inv s) {container : Nat → Option Container} {tensorFrees : Nat → Nat}
    {allocated : Nat} {users : Nat → Nat}
    (hkept : Kept { s with container := container, tensorFrees := tensorFrees, allocated := allocated }
      (State.holders { s with users := users })) :
    Inv { s with
      container := container
      tensorFrees := tensorFrees
      allocated := allocated
      users := users } where
  safe := hs.safe
  output := hs.output
  kept := ⟨hkept.counted, hkept.handles⟩
  nodup := hs.nodup
  pending := hs.pending
  settled := hs.settled
  unmade := hs.unmade

theorem newContainer (hs : Inv s) : Inv (newContainer s) := by
  have hnew := hs.kept.new
  refine hs.of_users ⟨?_, hnew.handles⟩
  have hzero : s.waiting.countP (uses s.accepted s.allocated) = 0 := by
    by_contra hne
    have hheld : s.holders s.allocated ≠ 0 := by
      simp only [State.holders]
      omega
    exact lt_irrefl _ ((hs.kept.counted s.allocated).held hheld).1
  rw [holders_users, hzero]
  exact hnew.counted

theorem refTensor (hs : Inv s) {c : Nat} (hc : s.holders c ≠ 0)
    (hmax : (s.holders c : Int) ≠ INT_MAX) :
    Inv { tensorContainerRef s c with
      users := Function.update (tensorContainerRef s c).users c
        ((tensorContainerRef s c).users c + 1) } := by
  rcases hs.kept.ref hc hmax with ⟨container, hstep, hkept⟩
  rw [hstep]
  refine hs.of_users ⟨?_, hkept.handles⟩
  have hholders : s.users c + 1 + s.waiting.countP (uses s.accepted c) = s.holders c + 1 := by
    simp only [State.holders]
    omega
  rw [holders_users, hholders]
  exact hkept.counted

theorem unrefTensor (hs : Inv s) {c : Nat} (hc : s.users c ≠ 0) :
    Inv { tensorContainerUnref s c with
      users := Function.update (tensorContainerUnref s c).users c
        ((tensorContainerUnref s c).users c - 1) } := by
  have hheld : s.holders c =
      s.users c - 1 + s.waiting.countP (uses s.accepted c) + 1 := by
    simp only [State.holders]
    omega
  rcases hs.kept.unref hheld with ⟨container, tensorFrees, hstep, hkept⟩
  rw [hstep]
  refine hs.of_users ⟨?_, hkept.handles⟩
  rw [holders_users]
  exact hkept.counted

/-- A call that is rejected behind the allocation of its context. -/
theorem rejected (hs : Inv s) (c : Nat) (userContext : Option Nat)
    {container : Nat → Option Container} {tensorFrees : Nat → Nat}
    (hkept : Kept { s with container := container, tensorFrees := tensorFrees } s.holders) :
    Inv (freeContext
      { s with
        container := container
        tensorFrees := tensorFrees
        context := Function.update s.context s.contexts (some ⟨c, userContext⟩)
        contexts := s.contexts + 1 } s.contexts) := by
  have hnew := hs.unmade s.contexts le_rfl
  simp only [freeContext, Function.update_self]
  refine
    { safe := hs.safe
      output := hs.output
      kept := ⟨hkept.counted, hkept.handles⟩
      nodup := hs.nodup
      pending := fun x hx => ?_
      settled := fun x hx hwaiting => ?_
      unmade := fun x hx => ?_ }
  · rcases hs.pending x hx with ⟨hlt, hreleases, hanswers, context, haccepted, hcontext⟩
    refine ⟨Nat.lt_succ_of_lt hlt, ?_, hanswers, context, haccepted, ?_⟩
    · simpa [Function.update_of_ne hlt.ne] using hreleases
    · simpa [Function.update_of_ne hlt.ne] using hcontext
  · by_cases heq : x = s.contexts
    · subst heq
      refine ⟨by simp [hnew.1], fun context haccepted => ?_⟩
      simp [hnew.2.2] at haccepted
    · simpa [Function.update_of_ne heq] using
        hs.settled x (Nat.lt_of_le_of_ne (Nat.le_of_lt_succ hx) heq) hwaiting
  · have hlt : s.contexts < x := hx
    simpa [Function.update_of_ne hlt.ne'] using hs.unmade x hlt.le

/-- A call that the runtime accepts. -/
theorem accept (hs : Inv s) (c : Nat) (userContext : Option Nat) {container : Nat → Option Container}
    (hkept : Kept { s with container := container }
      (Function.update s.holders c (s.holders c + 1))) :
    Inv { s with
      container := container
      context := Function.update s.context s.contexts (some ⟨c, userContext⟩)
      contexts := s.contexts + 1
      accepted := Function.update s.accepted s.contexts (some ⟨c, userContext⟩)
      waiting := s.waiting ++ [s.contexts] } := by
  have hnew := hs.unmade s.contexts le_rfl
  have hfresh : s.contexts ∉ s.waiting := fun hmem => lt_irrefl _ (hs.pending _ hmem).1
  refine
    { safe := hs.safe
      output := hs.output
      kept := ⟨?_, hkept.handles⟩
      nodup := List.nodup_append.2 ⟨hs.nodup, List.nodup_singleton _, ?_⟩
      pending := fun x hx => ?_
      settled := fun x hx hwaiting => ?_
      unmade := fun x hx => ?_ }
  · have hcounted := hkept.counted
    rw [← holders_accept hfresh ⟨c, userContext⟩] at hcounted
    exact hcounted
  · intro x hx y hy heq
    rw [List.mem_singleton] at hy
    exact hfresh (hy ▸ heq ▸ hx)
  · rcases List.mem_append.1 hx with hx | hx
    · rcases hs.pending x hx with ⟨hlt, hreleases, hanswers, context, haccepted, hcontext⟩
      refine ⟨Nat.lt_succ_of_lt hlt, hreleases, hanswers, context, ?_, ?_⟩
      · simpa [Function.update_of_ne hlt.ne] using haccepted
      · simpa [Function.update_of_ne hlt.ne] using hcontext
    · cases List.mem_singleton.1 hx
      exact ⟨Nat.lt_succ_self _, hnew.1, hnew.2.1, ⟨c, userContext⟩, by simp, by simp⟩
  · have hne : x ≠ s.contexts := fun heq => hwaiting (by simp [heq])
    have hold := hs.settled x (Nat.lt_of_le_of_ne (Nat.le_of_lt_succ hx) hne)
      fun hmem => hwaiting (List.mem_append_left _ hmem)
    simpa [Function.update_of_ne hne] using hold
  · have hlt : s.contexts < x := hx
    simpa [Function.update_of_ne hlt.ne'] using hs.unmade x hlt.le

theorem invoke (hs : Inv s) {ptr userContext : Option Nat} {malloc : Bool} {ret : Int}
    (hptr : ∀ c ∈ ptr, s.holders c ≠ 0)
    (hclean : malloc = true → ∀ c ∈ ptr, (s.holders c : Int) ≠ INT_MAX) :
    Inv (invoke s ptr userContext malloc ret).1 := by
  cases ptr with
  | none => exact hs
  | some c =>
  have hheld := hptr c rfl
  simp only [Tensor.invoke, hs.kept.container_of_held hheld]
  cases malloc with
  | false => simpa using hs
  | true =>
  have hnew : Kept { s with
      context := Function.update s.context s.contexts (some ⟨c, userContext⟩)
      contexts := s.contexts + 1 } s.holders := ⟨hs.kept.counted, hs.kept.handles⟩
  rcases hnew.ref hheld (hclean rfl c rfl) with ⟨container, hstep, hkept⟩
  simp only [ne_eq, not_true_eq_false, if_false, hstep]
  by_cases hret : ret < 0
  · simp only [if_pos hret]
    -- The reference that was taken is given back.
    rcases hkept.unref (c := c) (Function.update_self ..)
      with ⟨container', tensorFrees, hback, hkept'⟩
    rw [Function.update_idem, Function.update_eq_self] at hkept'
    rw [hback]
    exact hs.rejected c userContext ⟨hkept'.counted, hkept'.handles⟩
  · simp only [if_neg hret]
    exact hs.accept c userContext ⟨hkept.counted, hkept.handles⟩

end Inv

/-! ## Answers -/

theorem answersTo_append (callbacks : List Callback) (answers : Option Nat) (event : EventData)
    (x : Nat) :
    answersTo (callbacks ++ [⟨answers, event⟩]) x =
      answersTo callbacks x ++ if answers = some x then [event.data] else [] := by
  by_cases h : answers = some x
  · simp [answersTo, h]
  · simp [answersTo, h]

/-- Which branch an answer comes to is decided by the error bit alone. -/
theorem completion_type (kind : Completion) (ready : EventTypes) :
    ((kind.type ||| readiness ready) &&& ERROR = 0 ↔ ready.error = false) ∧
      (kind.type ||| readiness ready) &&& INFERENCE_MASK ≠ 0 := by
  rcases ready with ⟨read, write, error⟩
  cases kind <;> cases read <;> cases write <;> cases error <;> decide

namespace Inv

variable {s : State}

/-- The answer to an inference comes without the error bit. -/
theorem completion (hs : Inv s) {x : Nat} (hx : x ∈ s.waiting) (kind : Completion)
    {ready : EventTypes} (hready : ready.error = false) :
    Inv (eventHandler s 0 (some ⟨kind.type ||| readiness ready, some x⟩) (some x)) := by
  rcases hs.pending x hx with ⟨hlt, hreleases, hanswers, context, haccepted, hcontext⟩
  rcases holders_answer hx haccepted with ⟨n, hheld, hleft⟩
  rcases hs.kept.unref hheld with ⟨container, tensorFrees, hstep, hkept⟩
  have htype := completion_type kind ready
  have htaken : takeEvent s 0 (some ⟨kind.type ||| readiness ready, some x⟩) =
      ({ s with
          container := container
          tensorFrees := tensorFrees
          context := Function.update s.context x none
          releases := Function.update s.releases x (s.releases x + 1) },
        ⟨kind.type ||| readiness ready, context.userContext⟩) := by
    simp only [takeEvent]
    rw [if_neg (by simp [htype.1.2 hready]), if_pos htype.2]
    simp [hcontext, hstep, freeContext]
  simp only [eventHandler, htaken, if_pos hs.output]
  refine
    { safe := hs.safe
      output := hs.output
      kept := ⟨?_, hkept.handles⟩
      nodup := hs.nodup.erase x
      pending := fun y hy => ?_
      settled := fun y hy hwaiting => ?_
      unmade := fun y hy => ?_ }
  · have hcounted := hkept.counted
    rw [← hleft] at hcounted
    exact hcounted
  · have hyx : y ≠ x ∧ y ∈ s.waiting := hs.nodup.mem_erase_iff.1 hy
    simpa [Function.update_of_ne hyx.1, answersTo_append, hyx.1.symm] using hs.pending y hyx.2
  · by_cases hyx : y = x
    · subst hyx
      refine ⟨by simp [hreleases], fun context' haccepted' => ?_⟩
      cases Option.some.inj (haccepted.symm.trans haccepted')
      simp [answersTo_append, hanswers]
    · have hwaiting' : y ∉ s.waiting := fun hmem => hwaiting ((List.mem_erase_of_ne hyx).2 hmem)
      have hxy : x ≠ y := fun heq => hyx heq.symm
      simpa [Function.update_of_ne hyx, answersTo_append, hxy] using hs.settled y hy hwaiting'
  · have hyx : y ≠ x := fun heq => absurd hlt (by simpa [heq] using hy)
    have hxy : x ≠ y := fun heq => hyx heq.symm
    simpa [Function.update_of_ne hyx, answersTo_append, hxy] using hs.unmade y hy

/-- An event that answers no inference and carries nothing. -/
theorem notice (hs : Inv s) {ret : Int} {evtData : Option EventData} {event : EventData}
    (htaken : takeEvent s ret evtData = (s, event)) : Inv (eventHandler s ret evtData none) := by
  simp only [eventHandler, htaken, if_pos hs.output]
  exact
    { safe := hs.safe
      output := hs.output
      kept := ⟨hs.kept.counted, hs.kept.handles⟩
      nodup := hs.nodup
      pending := fun x hx => by simpa [answersTo_append] using hs.pending x hx
      settled := fun x hx hwaiting => by simpa [answersTo_append] using hs.settled x hx hwaiting
      unmade := fun x hx => by simpa [answersTo_append] using hs.unmade x hx }

end Inv

theorem takeEvent_none_data (s : State) (ret : Int) (type : BitVec 32) :
    ∃ event, takeEvent s ret (some ⟨type, none⟩) = (s, event) := by
  simp only [takeEvent]
  split_ifs
  · exact ⟨_, rfl⟩
  · exact ⟨_, rfl⟩
  · exact ⟨_, rfl⟩

theorem inv_step {s s' : State} {a : Act} (hs : Inv s) (hclean : Clean s a)
    (h : step s a = some s') : Inv s' := by
  cases a with
  | allocateTensor info size malloc ret =>
      cases h
      simp only [allocateTensor]
      split
      · exact hs
      split
      · exact hs
      split
      · exact hs
      · exact hs.newContainer
  | getOutput malloc ret =>
      cases h
      simp only [getOutput]
      split
      · exact hs
      split
      · exact hs
      · exact hs.newContainer
  | refTensor c =>
      simp only [step] at h
      split_ifs at h with hc
      cases h
      exact hs.refTensor hc hclean
  | unrefTensor ptr =>
      cases ptr with
      | none =>
          cases h
          exact hs
      | some c =>
          simp only [step] at h
          split_ifs at h with hc
          cases h
          exact hs.unrefTensor hc
  | invoke ptr userContext malloc ret =>
      simp only [step] at h
      split_ifs at h with hptr
      cases h
      exact hs.invoke (by simpa [Option.any_eq_true] using hptr) hclean
  | completion x kind ready =>
      simp only [step] at h
      split_ifs at h with hx
      cases h
      exact hs.completion hx kind hclean
  | failedFetch ret answers =>
      cases (show answers = none from hclean)
      cases h
      exact hs.notice rfl
  | notice type =>
      cases h
      rcases takeEvent_none_data s 0 type with ⟨event, htaken⟩
      exact hs.notice htaken

/-! ## Unclean steps -/

/-- An answer that is not taken leaves its context behind. -/
theorem damaged_of_lost_answer {s : State} (hs : Inv s) {x : Nat} (hx : x ∈ s.waiting)
    {ret : Int} {evtData : Option EventData}
    (htaken : takeEvent s ret evtData = (s, ⟨INFERENCE_ERROR, none⟩)) :
    Damaged (eventHandler s ret evtData (some x)) := by
  have hpending := hs.pending x hx
  simp only [eventHandler, htaken]
  exact .inr ⟨x, hpending.1, fun hmem => (hs.nodup.mem_erase_iff.1 hmem).1 rfl, hpending.2.1⟩

theorem fault_of_overflow {s : State} {c : Nat} {k : Container} (hk : s.container c = some k)
    (hmax : k.refcnt = INT_MAX) : (tensorContainerRef s c).fault = true := by
  simp [tensorContainerRef, hk, hmax]

theorem fault_invoke {s : State} {c : Nat} {k : Container} (hk : s.container c = some k)
    (hhandle : k.handle = s.handle) (hmax : k.refcnt = INT_MAX) (userContext : Option Nat)
    (ret : Int) : (invoke s (some c) userContext true ret).1.fault = true := by
  have hfault := fault_of_overflow (s := { s with
    context := Function.update s.context s.contexts (some ⟨c, userContext⟩)
    contexts := s.contexts + 1 }) hk hmax
  simp only [invoke, hk, hhandle, ne_eq, not_true_eq_false, if_false]
  split
  · exact fault_freeContext ((later_unref _ c).fault hfault) s.contexts
  · exact hfault

theorem damaged_of_unclean {s s' : State} {a : Act} (hs : Inv s) (hunclean : ¬ Clean s a)
    (h : step s a = some s') : Damaged s' := by
  cases a with
  | allocateTensor info size malloc ret => exact absurd trivial hunclean
  | getOutput malloc ret => exact absurd trivial hunclean
  | unrefTensor ptr => exact absurd trivial hunclean
  | notice type => exact absurd trivial hunclean
  | refTensor c =>
      simp only [step] at h
      split_ifs at h with hc
      cases h
      have hmax : (s.holders c : Int) = INT_MAX := not_not.1 hunclean
      exact .inl (fault_of_overflow (hs.kept.container_of_held hc) hmax)
  | invoke ptr userContext malloc ret =>
      simp only [step] at h
      split_ifs at h with hptr
      cases h
      simp only [Clean, Classical.not_imp, not_forall, not_not] at hunclean
      rcases hunclean with ⟨rfl, c, hc, hmax⟩
      cases hc
      have hheld : s.holders c ≠ 0 := by simpa using hptr
      exact .inl (fault_invoke (hs.kept.container_of_held hheld) rfl hmax userContext ret)
  | completion x kind ready =>
      simp only [step] at h
      split_ifs at h with hx
      cases h
      refine damaged_of_lost_answer hs hx ?_
      have htype := (completion_type kind ready).1
      have herror : (kind.type ||| readiness ready) &&& ERROR ≠ 0 := fun h0 => hunclean (htype.1 h0)
      simp only [takeEvent]
      rw [if_pos (Or.inr herror)]
  | failedFetch ret answers =>
      simp only [step] at h
      split_ifs at h with hanswers
      cases h
      cases answers with
      | none => exact absurd rfl hunclean
      | some x => exact damaged_of_lost_answer hs (by simpa using hanswers) rfl

/-- Whatever the application and the runtime do: containers, contexts and callbacks are as they should
be exactly as long as no answer was fetched with the error bit or lost in a failed fetch (and no count
has run over). -/
theorem correct_iff (handle : Nat) (as : List Act) (s : State)
    (hexec : Run.exec step (.initial handle) as = some s) :
    Correct s ↔ Run.Along step Clean (.initial handle) as :=
  Run.holds_iff_along (fun _ _ _ => inv_step) (fun _ _ _ => damaged_of_unclean)
    (fun _ _ _ => damaged_step) (fun _ => Inv.correct) (fun _ => Damaged.not_correct)
    (inv_initial handle) hexec

/-! ## Fixed runs -/

/-- The answer comes with the error bit: the callback gets no user context, and when the application
has given its reference back nobody is left to free the tensors. -/
theorem lost_answer_leaks :
    ∃ s, Run.exec step (.initial 1)
        [.allocateTensor true 1 true 0, .invoke (some 0) (some 5) true 0,
          .completion 0 .success ⟨true, false, true⟩, .unrefTensor (some 0)] = some s ∧
      s.holders 0 = 0 ∧ s.tensorFrees 0 = 0 ∧ s.releases 0 = 0 ∧
      answersTo s.callbacks 0 = [none] ∧ ¬ Correct s :=
  ⟨_, rfl, rfl, rfl, rfl, rfl, fun h => absurd (h.contexts 0 (by decide)) (by decide)⟩

/-- Two inferences on one container, which the application has given back before the answers, and a
third that is rejected. -/
def sharedRun : List Act :=
  [.allocateTensor true 2 true 0, .getOutput true 0, .refTensor 0, .invoke (some 0) (some 5) true 0,
    .invoke (some 0) none true 0, .invoke (some 1) (some 6) true (-1), .unrefTensor (some 0),
    .unrefTensor (some 0), .completion 1 .canceled ⟨true, true, false⟩, .failedFetch (-11) none,
    .completion 0 .error ⟨true, false, false⟩, .unrefTensor (some 1)]

theorem sharedRun_correct :
    ∃ s, Run.exec step (.initial 1) sharedRun = some s ∧ s.tensorFrees 0 = 1 ∧ Correct s :=
  ⟨_, rfl, rfl, (correct_iff 1 sharedRun _ rfl).2 (by decide)⟩

end Tensor
end Capi
end Beyond
