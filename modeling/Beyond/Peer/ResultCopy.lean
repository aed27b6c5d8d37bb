import Beyond.Base.Bytes
import Beyond.Base.Ledger
import Beyond.Base.Platform
import Beyond.Inference.TensorType

/-!
# Copying the result of an inference

`Sink::NewDataHandler` takes the oldest `InvokeData` from the request queue and copies the memories of a
`GstBuffer` into tensors of its own, one block for each.  Every memory may fail to be peeked or to be
mapped, and every block may fail to be allocated; what was made until then is to be released again.
-/

namespace Beyond
namespace Peer
namespace ResultCopy

open Bytes (toInt32)

/-! ## State -/

/-- What stops the C++ code other than by a return. -/
inductive Fault
  | outOfBounds
  | heapOverflow
  deriving DecidableEq, Repr

/-- A memory of the buffer, and which of the calls for it succeed. -/
structure GstMemory where
  bytes : Bytes
  peek : Bool
  map : Bool
  malloc : Bool
  deriving DecidableEq, Repr

/-- `beyond_tensor`; `data` is a block with its contents. -/
structure Tensor where
  type : Int := 0
  size : Int := 0
  data : Option (Nat × Bytes) := none
  deriving DecidableEq, Repr

/-- A tensor as `calloc` leaves it. -/
def Tensor.zero : Tensor := {}

def Tensor.blocks (t : Tensor) : List Nat := (t.data.map Prod.fst).toList

/-- An `InvokeData` in the request queue. -/
structure InvokeData where
  block : Nat
  context : Nat
  deriving DecidableEq, Repr

/-- An `InvokeData` that was sent, without its context. -/
structure Record where
  block : Nat
  size : Nat
  array : Nat
  tensors : List Tensor
  deriving DecidableEq, Repr

def Record.blocks (r : Record) : List Nat := r.tensors.flatMap Tensor.blocks ++ [r.array, r.block]

def blocksOf (queue : List InvokeData) : List Nat := queue.map InvokeData.block

/-- The client before a call: what it holds is in the request queue. -/
structure Client where
  ledger : Ledger
  queue : List InvokeData
  balanced : ledger.Balanced (blocksOf queue)

/-- A call: what `GetOutputTensorInfo` gives (`none` if it fails), the memories of the buffer, and whether
`calloc` and `Send` succeed. -/
structure Call where
  tensorInfo : Option (Option (List Int))
  memories : List GstMemory
  numMems : memories.length < 2 ^ 32
  calloc : Bool
  send : Bool

/-- Inside the copying loop. -/
structure State where
  ledger : Ledger
  mapped : List Nat
  tensor : List Tensor

/-- What a call leaves.  An event comes with the context that it carries. -/
structure Result where
  ledger : Ledger
  queue : List InvokeData
  mapped : List Nat
  published : List (EventType × Option Nat)
  sent : List Record

/-! ## The handler -/

/-- `tensor[i] = f(tensor[i])`. -/
def storeTensor (i : Nat) (f : Tensor → Tensor) (s : State) : Except Fault State :=
  match s.tensor[i]? with
  | none => .error .outOfBounds
  | some t => .ok { s with tensor := s.tensor.set i (f t) }

/-- `free(tensor[i].data)`, and the pointer is reset. -/
def freeTensor (i : Nat) (s : State) : Except Fault State :=
  match s.tensor[i]? with
  | none => .error .outOfBounds
  | some t =>
      .ok { s with
        tensor := s.tensor.set i { t with data := none }
        ledger := s.ledger.freeAll t.blocks }

/-- The type for tensor `i`. -/
def typeAt (tensorInfo : Option (List Int)) (i : Nat) : Except Fault Int :=
  match tensorInfo with
  | none => .ok Inference.UNSUPPORTED
  | some types =>
      match types[i]? with
      | none => .error .outOfBounds
      | some type => .ok type

/-- The argument of `malloc`: the `int` size as a `size_t`. -/
def request (size : Int) : Nat := (size % 2 ^ 64).toNat

/-- The loop body; `false` is its `break`. -/
def copyMemory (tensorInfo : Option (List Int)) (i : Nat) (mem : GstMemory) (s : State) :
    Except Fault (State × Bool) :=
  if mem.peek = false then .ok (s, false)
  -- A memory that cannot be mapped is passed over.
  else if mem.map = false then .ok (s, true)
  else
    let s := { s with mapped := i :: s.mapped }
    let size := toInt32 mem.bytes.length
    if mem.malloc = false then
      match storeTensor i (fun t => { t with size := size, data := none }) s with
      | .error e => .error e
      | .ok s => .ok (s, false)
    else if request size < mem.bytes.length then .error .heapOverflow
    else
      match typeAt tensorInfo i with
      | .error e => .error e
      | .ok type =>
          match storeTensor i (fun _ => ⟨type, size, some (s.ledger.allocated, mem.bytes)⟩)
              { s with ledger := s.ledger.alloc } with
          | .error e => .error e
          | .ok s => .ok ({ s with mapped := s.mapped.erase i }, true)

/-- The copying loop, and the index at which it ends. -/
def copyLoop (tensorInfo : Option (List Int)) :
    Nat → List GstMemory → State → Except Fault (State × Nat)
  | i, [], s => .ok (s, i)
  | i, mem :: mems, s =>
      match copyMemory tensorInfo i mem s with
      | .error e => .error e
      | .ok (s, false) => .ok (s, i)
      | .ok (s, true) => copyLoop tensorInfo (i + 1) mems s

/-- `while (--i > 0)` with `i` above zero. -/
def cleanDown : Nat → State → Except Fault State
  | 0, s => .ok s
  | i + 1, s =>
      if i = 0 then .ok s
      else
        match freeTensor i s with
        | .error e => .error e
        | .ok s => cleanDown i s

/-- `while (--i > 0)`; `i` is unsigned. -/
def cleanLoop (i : Nat) (s : State) : Except Fault State :=
  if i = 0 then
    match freeTensor (2 ^ 32 - 1) s with
    | .error e => .error e
    | .ok s => cleanDown (2 ^ 32 - 1) s
  else cleanDown i s

/-- The loop that releases `n` tensors from `i` on. -/
def freeLoop : Nat → Nat → State → Except Fault State
  | 0, _, s => .ok s
  | n + 1, i, s =>
      match freeTensor i s with
      | .error e => .error e
      | .ok s => freeLoop n (i + 1) s

/-- A failure with the event for it. -/
def giveUp (inferenceData : InvokeData) (array : Nat) (queue : List InvokeData) :
    Except Fault State → Except Fault Result
  | .error e => .error e
  | .ok s =>
      .ok ⟨(s.ledger.free array).free inferenceData.block, queue, s.mapped,
        [(.inferenceError, some inferenceData.context)], []⟩

/-- `Sink::NewDataHandler`. -/
def newDataHandler (g : Client) (c : Call) : Except Fault Result :=
  match c.tensorInfo with
  | none => .ok ⟨g.ledger, g.queue, [], [(.inferenceError, none)], []⟩
  | some tensorInfo =>
      if c.memories.length ≠ (tensorInfo.getD []).length then
        .ok ⟨g.ledger, g.queue, [], [(.inferenceError, none)], []⟩
      else
        match g.queue with
        | [] => .ok ⟨g.ledger, [], [], [(.inferenceError, none)], []⟩
        | inferenceData :: queue =>
            if c.calloc = false then
              .ok ⟨g.ledger.free inferenceData.block, queue, [],
                [(.inferenceError, some inferenceData.context)], []⟩
            else
              let array := g.ledger.allocated
              let tensor := List.replicate c.memories.length Tensor.zero
              match copyLoop tensorInfo 0 c.memories ⟨g.ledger.alloc, [], tensor⟩ with
              | .error e => .error e
              | .ok (s, i) =>
                  if i ≠ c.memories.length then
                    match freeTensor i s with
                    | .error e => .error e
                    | .ok s => giveUp inferenceData array queue (cleanLoop i s)
                  else if c.send = false then
                    giveUp inferenceData array queue (freeLoop c.memories.length 0 s)
                  else
                    .ok ⟨s.ledger, queue, s.mapped,
                      [(.inferenceSuccess, some inferenceData.context)],
                      [⟨inferenceData.block, c.memories.length, array, s.tensor⟩]⟩

/-! ## The property -/

/-- Tensor `i` has the size and the bytes of its memory and the type of its tensor info. -/
def Copied (types : List Int) (i : Nat) (mem : GstMemory) (t : Tensor) : Prop :=
  types[i]? = some t.type ∧ t.size = mem.bytes.length ∧
    (t.data.map Prod.snd).getD [] = mem.bytes

/-- The record holds a copy of the whole buffer. -/
structure Whole (c : Call) (r : Record) : Prop where
  size : r.size = c.memories.length
  length : r.tensors.length = c.memories.length
  tensors : ∀ tensorInfo, c.tensorInfo = some tensorInfo → ∀ i mem t, c.memories[i]? = some mem →
    r.tensors[i]? = some t → Copied (tensorInfo.getD []) i mem t

/-- All or nothing: a whole record is sent with a success, or there is one error and nothing is left of
what the call took and made.  No memory stays mapped. -/
def AllOrNothing (c : Call) : Except Fault Result → Prop
  | .error _ => False
  | .ok r =>
      r.mapped = [] ∧
      ((∃ record context, r.sent = [record] ∧ r.published = [(.inferenceSuccess, some context)] ∧
          Whole c record ∧ r.ledger.Balanced (record.blocks ++ blocksOf r.queue)) ∨
        (∃ context, r.sent = [] ∧ r.published = [(.inferenceError, context)] ∧
          r.ledger.Balanced (blocksOf r.queue)))

/-! ## The condition -/

/-- The loop gets over this memory. -/
def GstMemory.passes (mem : GstMemory) : Bool :=
  mem.peek && (!mem.map ||
    (mem.malloc && decide (mem.bytes.length ≤ request (toInt32 mem.bytes.length))))

/-- The memory is copied as a whole, or there was nothing to copy and the type is that of an empty
tensor. -/
def GstMemory.Right (mem : GstMemory) (type : Option Int) : Prop :=
  if mem.map then mem.bytes.length < 2 ^ 31 else mem.bytes = [] ∧ type = some 0

/-- If the copying starts, then it gets to the end with all memories right or is followed by a failing
`Send`, or it ends at a memory that cannot be peeked and the first memory could not be mapped. -/
def Copyable (g : Client) (c : Call) : Prop :=
  ∀ tensorInfo, c.tensorInfo = some tensorInfo →
    c.memories.length = (tensorInfo.getD []).length → g.queue ≠ [] → c.calloc = true →
    match c.memories.dropWhile GstMemory.passes with
    | [] => c.send = false ∨
        ∀ (i : Nat) (mem : GstMemory), c.memories[i]? = some mem →
          mem.Right (tensorInfo.getD [])[i]?
    | mem :: _ => mem.peek = false ∧
        ∃ first, (c.memories.takeWhile GstMemory.passes).head? = some first ∧ first.map = false

/-! ## Copying -/

/-- The tensor that the loop makes of a memory. -/
def IsCopy (types : List Int) (i : Nat) (mem : GstMemory) (t : Tensor) : Prop :=
  if mem.map then
    ∃ type block, types[i]? = some type ∧
      t = ⟨type, toInt32 mem.bytes.length, some (block, mem.bytes)⟩
  else t = .zero

section Middle

variable {α : Type*} {done rest : List α} {x : α} {n : Nat}

theorem getElem?_middle (hn : done.length = n) : (done ++ x :: rest)[n]? = some x := by
  rw [List.getElem?_append_right hn.le, hn, Nat.sub_self, List.getElem?_cons_zero]

theorem set_middle (hn : done.length = n) (y : α) :
    (done ++ x :: rest).set n y = done ++ y :: rest := by
  rw [← hn, List.set_append_right _ _ (Nat.le_refl _), Nat.sub_self, List.set_cons_zero]

end Middle

section Copying

variable {tensorInfo : Option (List Int)} {i n : Nat} {mem : GstMemory} {s : State}

theorem typeAt_ok (hi : i < (tensorInfo.getD []).length) :
    ∃ type, (tensorInfo.getD [])[i]? = some type ∧ typeAt tensorInfo i = .ok type := by
  cases tensorInfo with
  | none => exact absurd hi (Nat.not_lt_zero i)
  | some types =>
      refine ⟨types[i], List.getElem?_eq_getElem hi, ?_⟩
      have htype : types[i]? = some types[i] := List.getElem?_eq_getElem hi
      simp only [typeAt, htype]

theorem freeTensor_ok {t : Tensor} (h : s.tensor[i]? = some t) :
    freeTensor i s = .ok { s with
      tensor := s.tensor.set i { t with data := none }
      ledger := s.ledger.freeAll t.blocks } := by
  simp only [freeTensor, h]

theorem copyMemory_passes (hpass : mem.passes = true) (hi : i < (tensorInfo.getD []).length)
    (hs : s.tensor[i]? = some .zero) :
    ∃ t s', IsCopy (tensorInfo.getD []) i mem t ∧ s'.tensor = s.tensor.set i t ∧
      s'.mapped = s.mapped ∧
      (∀ held, s.ledger.Balanced held → s'.ledger.Balanced (t.blocks ++ held)) ∧
      copyMemory tensorInfo i mem s = .ok (s', true) := by
  have hpeek : mem.peek = true := (Bool.and_eq_true_iff.1 hpass).1
  cases hmap : mem.map with
  | false =>
      have hset : s.tensor.set i .zero = s.tensor := by
        rcases List.getElem?_eq_some_iff.1 hs with ⟨hlt, hget⟩
        rw [← hget, List.set_getElem_self]
      refine ⟨.zero, s, ?_, hset.symm, rfl, fun held hl => hl, ?_⟩
      · simp [IsCopy, hmap]
      · simp [copyMemory, hpeek, hmap]
  | true =>
      have hrest : mem.malloc = true ∧
          mem.bytes.length ≤ request (toInt32 mem.bytes.length) := by
        simpa [GstMemory.passes, hpeek, hmap] using hpass
      rcases typeAt_ok hi with ⟨type, htype, hat⟩
      refine ⟨⟨type, toInt32 mem.bytes.length, some (s.ledger.allocated, mem.bytes)⟩,
        { s with
          ledger := s.ledger.alloc
          tensor := s.tensor.set i
            ⟨type, toInt32 mem.bytes.length, some (s.ledger.allocated, mem.bytes)⟩ },
        ?_, rfl, rfl, fun held hl => hl.alloc, ?_⟩
      · rw [IsCopy, if_pos hmap]
        exact ⟨type, _, htype, rfl⟩
      · simp only [copyMemory, hpeek, hmap, hrest.1, Bool.true_eq_false, if_false,
          if_neg (Nat.not_lt.2 hrest.2), hat, storeTensor, hs, List.erase_cons_head]

/-- The loop runs over the memories that it gets over. -/
theorem copyLoop_prefix {pre : List GstMemory} {cells : List Tensor} {held : List Nat}
    (hpass : ∀ mem ∈ pre, mem.passes = true) (hcells : cells.length = i)
    (hs : s.tensor = cells ++ List.replicate (pre.length + n) Tensor.zero)
    (htypes : i + pre.length ≤ (tensorInfo.getD []).length) (hl : s.ledger.Balanced held) :
    ∃ copies s', copies.length = pre.length ∧
      (∀ j mem t, pre[j]? = some mem → copies[j]? = some t →
        IsCopy (tensorInfo.getD []) (i + j) mem t) ∧
      s'.tensor = cells ++ copies ++ List.replicate n Tensor.zero ∧ s'.mapped = s.mapped ∧
      s'.ledger.Balanced (copies.flatMap Tensor.blocks ++ held) ∧
      ∀ rest, copyLoop tensorInfo i (pre ++ rest) s =
        copyLoop tensorInfo (i + pre.length) rest s' := by
  induction pre generalizing i s cells held with
  | nil => exact ⟨[], s, rfl, by simp, by simpa using hs, rfl, hl, fun rest => rfl⟩
  | cons mem pre ih =>
      rw [List.length_cons] at hs htypes
      have hfirst : s.tensor[i]? = some .zero := by
        rw [hs, Nat.add_right_comm, List.replicate_succ]
        exact getElem?_middle hcells
      have hi : i < (tensorInfo.getD []).length := by omega
      rcases copyMemory_passes (hpass mem List.mem_cons_self) hi hfirst with
        ⟨t, s₁, hcopy, htensor, hmapped, hledger, hstep⟩
      have hnext : s₁.tensor = (cells ++ [t]) ++ List.replicate (pre.length + n) Tensor.zero := by
        rw [htensor, hs, Nat.add_right_comm, List.replicate_succ, set_middle hcells,
          List.append_assoc]
        rfl
      rcases ih (fun m hm => hpass m (List.mem_cons_of_mem mem hm))
        (by rw [List.length_append, List.length_singleton, hcells]) hnext (by omega)
        (hledger held hl) with ⟨copies, s', hlength, hcopies, htensor', hmapped', hledger', hrun⟩
      refine ⟨t :: copies, s', by simp [hlength], ?_, ?_, hmapped'.trans hmapped, ?_, ?_⟩
      · intro j mem' t' hmem ht
        cases j with
        | zero =>
            cases hmem
            cases ht
            exact hcopy
        | succ j =>
            have hrest := hcopies j mem' t' hmem ht
            rwa [Nat.add_assoc, Nat.add_comm 1] at hrest
      · rw [htensor']
        simp
      · apply hledger'.perm
        rw [List.flatMap_cons, List.append_assoc]
        exact List.perm_append_comm_assoc _ _ _
      · intro rest
        simp only [List.cons_append, copyLoop, hstep, hrun rest]
        rw [List.length_cons, Nat.add_assoc, Nat.add_comm 1]

/-- Where the loop does not get over a memory, it ends or writes past a block. -/
theorem copyLoop_stops (tensorInfo : Option (List Int)) (post : List GstMemory)
    {cells : List Tensor} (hstop : mem.passes = false)
    (hcells : cells.length = i)
    (hs : s.tensor = cells ++ List.replicate (n + 1) Tensor.zero)
    (hmapped : s.mapped = []) :
    (copyLoop tensorInfo i (mem :: post) s = .error .heapOverflow ∧ mem.peek = true) ∨
    ∃ s' size, copyLoop tensorInfo i (mem :: post) s = .ok (s', i) ∧ s'.ledger = s.ledger ∧
      s'.tensor = cells ++ { Tensor.zero with size := size } :: List.replicate n Tensor.zero ∧
      (s'.mapped = [] ↔ mem.peek = false) := by
  have hget : s.tensor[i]? = some .zero := by
    rw [hs, List.replicate_succ]
    exact getElem?_middle hcells
  cases hpeek : mem.peek with
  | false =>
      refine Or.inr ⟨s, 0, ?_, rfl, hs, by simp [hmapped]⟩
      simp [copyLoop, copyMemory, hpeek]
  | true =>
      have hmap : mem.map = true := by
        cases hmap : mem.map with
        | false => simp [GstMemory.passes, hpeek, hmap] at hstop
        | true => rfl
      cases hmalloc : mem.malloc with
      | false =>
          refine Or.inr ⟨{ s with
            mapped := i :: s.mapped
            tensor := s.tensor.set i { Tensor.zero with size := toInt32 mem.bytes.length } },
            toInt32 mem.bytes.length, ?_, rfl, ?_, by simp⟩
          · simp [copyLoop, copyMemory, hpeek, hmap, hmalloc, storeTensor, hget, Tensor.zero]
          · rw [hs, List.replicate_succ]
            exact set_middle hcells _
      | true =>
          have hshort : request (toInt32 mem.bytes.length) < mem.bytes.length := by
            simpa [GstMemory.passes, hpeek, hmap, hmalloc] using hstop
          exact Or.inl ⟨by simp [copyLoop, copyMemory, hpeek, hmap, hmalloc, hshort], rfl⟩

end Copying

/-! ## Cleaning up -/

section Cleaning

variable {s : State} {held : List Nat}

/-- The loop counts down to one, so the first tensor keeps its block. -/
theorem cleanDown_spec {first : Tensor} {cells rest : List Tensor}
    (hs : s.tensor = first :: cells ++ rest)
    (hl : s.ledger.Balanced ((first :: cells).flatMap Tensor.blocks ++ held)) :
    ∃ s', cleanDown (cells.length + 1) s = .ok s' ∧ s'.mapped = s.mapped ∧
      s'.ledger.Balanced (first.blocks ++ held) := by
  induction cells using List.reverseRecOn generalizing s rest with
  | nil => exact ⟨s, rfl, rfl, by simpa using hl⟩
  | append_singleton cells t ih =>
      have hshape : s.tensor = (first :: cells) ++ t :: rest := by simpa using hs
      have hget : s.tensor[cells.length + 1]? = some t := by
        rw [hshape]
        exact getElem?_middle rfl
      have hset : s.tensor.set (cells.length + 1) { t with data := none } =
          (first :: cells) ++ { t with data := none } :: rest := by
        rw [hshape]
        exact set_middle rfl _
      have hfree : (s.ledger.freeAll t.blocks).Balanced
          ((first :: cells).flatMap Tensor.blocks ++ held) := by
        apply Ledger.Balanced.freeAll
        apply hl.perm
        rw [← List.cons_append, List.flatMap_append, List.flatMap_singleton, List.append_assoc]
        exact List.perm_append_comm_assoc _ _ _
      rcases ih (s := { s with
          tensor := s.tensor.set (cells.length + 1) { t with data := none }
          ledger := s.ledger.freeAll t.blocks }) hset hfree with ⟨s', hrun, hmapped, hl'⟩
      refine ⟨s', ?_, hmapped, hl'⟩
      rw [List.length_append, List.length_singleton]
      unfold cleanDown
      rw [if_neg (Nat.succ_ne_zero _), freeTensor_ok hget]
      exact hrun

/-- The other loop releases every tensor. -/
theorem freeLoop_spec {done cells : List Tensor} (hs : s.tensor = done ++ cells)
    (hl : s.ledger.Balanced (cells.flatMap Tensor.blocks ++ held)) :
    ∃ s', freeLoop cells.length done.length s = .ok s' ∧ s'.mapped = s.mapped ∧
      s'.ledger.Balanced held := by
  induction cells generalizing s done with
  | nil => exact ⟨s, rfl, rfl, hl⟩
  | cons t cells ih =>
      have hget : s.tensor[done.length]? = some t := by
        rw [hs]
        exact getElem?_middle rfl
      have hset : s.tensor.set done.length { t with data := none } =
          (done ++ [{ t with data := none }]) ++ cells := by
        rw [hs, set_middle rfl, List.append_assoc]
        rfl
      have hfree : (s.ledger.freeAll t.blocks).Balanced
          (cells.flatMap Tensor.blocks ++ held) := by
        apply Ledger.Balanced.freeAll
        rwa [List.flatMap_cons, List.append_assoc] at hl
      rcases ih (s := { s with
          tensor := s.tensor.set done.length { t with data := none }
          ledger := s.ledger.freeAll t.blocks }) hset hfree with ⟨s', hrun, hmapped, hl'⟩
      refine ⟨s', ?_, hmapped, hl'⟩
      rw [List.length_append, List.length_singleton] at hrun
      rw [List.length_cons, freeLoop, freeTensor_ok hget]
      exact hrun

end Cleaning

/-! ## All or nothing -/

section Outcome

variable {g : Client} {c : Call} {tensorInfo : Option (List Int)} {d : InvokeData}
  {queue : List InvokeData}

theorem copied_iff {types : List Int} {i : Nat} {mem : GstMemory} {t : Tensor}
    (h : IsCopy types i mem t) : Copied types i mem t ↔ mem.Right types[i]? := by
  unfold IsCopy at h
  unfold Copied GstMemory.Right
  split at h
  · rename_i hmap
    rcases h with ⟨type, block, htype, rfl⟩
    rw [if_pos hmap]
    constructor
    · rintro ⟨-, hsize, -⟩
      have hlt := Bytes.toInt32_lt mem.bytes.length
      dsimp only at hsize
      rw [hsize] at hlt
      exact_mod_cast hlt
    · intro hlt
      have hsize := Bytes.toInt32_of_lt hlt
      refine ⟨htype, ?_, rfl⟩
      dsimp only
      exact hsize
  · rename_i hmap
    subst h
    rw [if_neg hmap]
    constructor
    · rintro ⟨htype, -, hbytes⟩
      exact ⟨hbytes.symm, htype⟩
    · rintro ⟨hbytes, htype⟩
      refine ⟨htype, ?_, hbytes.symm⟩
      rw [hbytes]
      rfl

theorem blocks_eq_nil_iff {types : List Int} {i : Nat} {mem : GstMemory} {t : Tensor}
    (h : IsCopy types i mem t) : t.blocks = [] ↔ mem.map = false := by
  unfold IsCopy at h
  split at h
  · rename_i hmap
    rcases h with ⟨type, block, -, rfl⟩
    simp [Tensor.blocks, hmap]
  · rename_i hmap
    subst h
    simpa [Tensor.blocks, Tensor.zero] using hmap

/-- An early exit: nothing was made, and what was taken was released. -/
theorem allOrNothing_early {l : Ledger} {context : Option Nat} (hl : l.Balanced (blocksOf queue)) :
    AllOrNothing c (.ok ⟨l, queue, [], [(.inferenceError, context)], []⟩) :=
  ⟨rfl, Or.inr ⟨context, rfl, rfl, hl⟩⟩

/-- An exit behind a clean-up that leaves `lost`. -/
theorem allOrNothing_giveUp {s : State} {array : Nat} {lost : List Nat}
    (hl : s.ledger.Balanced (lost ++ array :: d.block :: blocksOf queue)) :
    AllOrNothing c (giveUp d array queue (.ok s)) ↔ s.mapped = [] ∧ lost = [] := by
  have hfree : ((s.ledger.free array).free d.block).Balanced (lost ++ blocksOf queue) := by
    apply Ledger.Balanced.free
    apply Ledger.Balanced.free
    apply hl.perm
    exact List.perm_append_comm_assoc lost [array, d.block] (blocksOf queue)
  constructor
  · rintro ⟨hmapped, ⟨record, context, hsent, -⟩ | ⟨context, -, -, hbalanced⟩⟩
    · cases hsent
    · exact ⟨hmapped, hfree.iff_none_lost.1 hbalanced⟩
  · rintro ⟨hmapped, hlost⟩
    exact ⟨hmapped, Or.inr ⟨_, rfl, rfl, hfree.iff_none_lost.2 hlost⟩⟩

/-- The ledger when the copying starts. -/
theorem balanced_start (hqueue : g.queue = d :: queue) :
    g.ledger.alloc.Balanced (g.ledger.allocated :: d.block :: blocksOf queue) := by
  have hl := g.balanced
  rw [hqueue] at hl
  exact hl.alloc

/-- The copying gets over the memories in front. -/
theorem copyLoop_start {pre rest : List GstMemory} (hsplit : c.memories = pre ++ rest)
    (hlength : c.memories.length = (tensorInfo.getD []).length) (hqueue : g.queue = d :: queue)
    (hpass : ∀ mem ∈ pre, mem.passes = true) :
    ∃ copies s, copies.length = pre.length ∧
      (∀ j mem t, pre[j]? = some mem → copies[j]? = some t →
        IsCopy (tensorInfo.getD []) j mem t) ∧
      s.tensor = copies ++ List.replicate rest.length Tensor.zero ∧ s.mapped = [] ∧
      s.ledger.Balanced (copies.flatMap Tensor.blocks ++
        g.ledger.allocated :: d.block :: blocksOf queue) ∧
      copyLoop tensorInfo 0 c.memories
          ⟨g.ledger.alloc, [], List.replicate c.memories.length Tensor.zero⟩ =
        copyLoop tensorInfo pre.length rest s := by
  have hcells : ([] : List Tensor).length = 0 := rfl
  have htensor :
      (⟨g.ledger.alloc, [], List.replicate c.memories.length Tensor.zero⟩ : State).tensor =
        [] ++ List.replicate (pre.length + rest.length) Tensor.zero := by
    rw [hsplit, List.length_append]
    rfl
  have htypes : 0 + pre.length ≤ (tensorInfo.getD []).length := by
    rw [← hlength, hsplit, List.length_append]
    omega
  rcases copyLoop_prefix hpass hcells htensor htypes (balanced_start hqueue) with
    ⟨copies, s, hcount, hcopies, hs, hmapped, hl, hrun⟩
  refine ⟨copies, s, hcount, ?_, hs, hmapped, hl, ?_⟩
  · intro j mem t hmem ht
    have hcopy := hcopies j mem t hmem ht
    rwa [Nat.zero_add] at hcopy
  · have hend := hrun rest
    rw [Nat.zero_add] at hend
    conv_lhs => arg 3; rw [hsplit]
    exact hend

/-- The way to the copying. -/
theorem newDataHandler_copying (hinfo : c.tensorInfo = some tensorInfo)
    (hlength : c.memories.length = (tensorInfo.getD []).length) (hqueue : g.queue = d :: queue)
    (hcalloc : c.calloc = true) {s : State} {i : Nat}
    (hrun : copyLoop tensorInfo 0 c.memories
      ⟨g.ledger.alloc, [], List.replicate c.memories.length Tensor.zero⟩ = .ok (s, i)) :
    newDataHandler g c =
      if i ≠ c.memories.length then
        match freeTensor i s with
        | .error e => .error e
        | .ok s => giveUp d g.ledger.allocated queue (cleanLoop i s)
      else if c.send = false then
        giveUp d g.ledger.allocated queue (freeLoop c.memories.length 0 s)
      else
        .ok ⟨s.ledger, queue, s.mapped, [(.inferenceSuccess, some d.context)],
          [⟨d.block, c.memories.length, g.ledger.allocated, s.tensor⟩]⟩ := by
  simp only [newDataHandler, hinfo, hlength, hqueue, hcalloc, ne_eq, not_true_eq_false, if_false,
    Bool.true_eq_false]
  rw [← hlength, hrun]

/-- All memories are got over. -/
theorem copy_all_iff (hinfo : c.tensorInfo = some tensorInfo)
    (hlength : c.memories.length = (tensorInfo.getD []).length) (hqueue : g.queue = d :: queue)
    (hcalloc : c.calloc = true) (hpass : ∀ mem ∈ c.memories, mem.passes = true) :
    AllOrNothing c (newDataHandler g c) ↔
      (c.send = false ∨ ∀ (i : Nat) (mem : GstMemory), c.memories[i]? = some mem →
        mem.Right (tensorInfo.getD [])[i]?) := by
  have hsplit : c.memories = c.memories ++ [] := (List.append_nil _).symm
  rcases copyLoop_start hsplit hlength hqueue hpass with
    ⟨copies, s, hcount, hcopies, hs, hmapped, hl, hrun⟩
  rw [List.length_nil, List.replicate_zero, List.append_nil] at hs
  rw [newDataHandler_copying hinfo hlength hqueue hcalloc hrun, if_neg (by simp)]
  cases hsend : c.send with
  | false =>
      have htensor : s.tensor = [] ++ copies := hs
      rcases freeLoop_spec htensor hl with ⟨s', hfree, hmapped', hl'⟩
      rw [hcount] at hfree
      rw [if_pos rfl]
      refine iff_of_true ?_ (Or.inl rfl)
      rw [show freeLoop c.memories.length 0 s = .ok s' from hfree]
      have hnone : s'.ledger.Balanced
          ([] ++ g.ledger.allocated :: d.block :: blocksOf queue) := hl'
      exact (allOrNothing_giveUp hnone).2 ⟨hmapped'.trans hmapped, rfl⟩
  | true =>
      rw [if_neg (by decide), hs]
      have hcopied : ∀ {i : Nat} {mem : GstMemory}, c.memories[i]? = some mem →
          ∃ t, copies[i]? = some t ∧
            (Copied (tensorInfo.getD []) i mem t ↔ mem.Right (tensorInfo.getD [])[i]?) := by
        intro i mem hmem
        have hi : i < copies.length := by
          rw [hcount]
          exact (List.getElem?_eq_some_iff.1 hmem).1
        have ht : copies[i]? = some copies[i] := List.getElem?_eq_getElem hi
        exact ⟨_, ht, copied_iff (hcopies i mem _ hmem ht)⟩
      constructor
      · rintro ⟨-, ⟨record, context, hsent, -, hwhole, -⟩ | ⟨context, hsent, -⟩⟩
        · cases hsent
          refine Or.inr fun i mem hmem => ?_
          rcases hcopied hmem with ⟨t, ht, hiff⟩
          exact hiff.1 (hwhole.tensors tensorInfo hinfo i mem t hmem ht)
        · cases hsent
      · rintro (hfalse | hright)
        · cases hfalse
        · refine ⟨hmapped, Or.inl ⟨_, _, rfl, rfl, ⟨rfl, hcount, ?_⟩, ?_⟩⟩
          · intro tensorInfo' hinfo' i mem t hmem ht
            cases hinfo.symm.trans hinfo'
            rcases hcopied hmem with ⟨t', ht', hiff⟩
            cases ht.symm.trans ht'
            exact hiff.2 (hright i mem hmem)
          · apply hl.perm
            simp only [Record.blocks, List.append_assoc]
            exact List.Perm.refl _

/-- The copying ends in front of a memory. -/
theorem copy_stops_iff (hinfo : c.tensorInfo = some tensorInfo)
    (hlength : c.memories.length = (tensorInfo.getD []).length) (hqueue : g.queue = d :: queue)
    (hcalloc : c.calloc = true) {pre post : List GstMemory} {mem : GstMemory}
    (hsplit : c.memories = pre ++ mem :: post) (hpass : ∀ mem ∈ pre, mem.passes = true)
    (hstop : mem.passes = false) :
    AllOrNothing c (newDataHandler g c) ↔
      mem.peek = false ∧ ∃ first, pre.head? = some first ∧ first.map = false := by
  rcases copyLoop_start hsplit hlength hqueue hpass with
    ⟨copies, s, hcount, hcopies, hs, hmapped, hl, hrun⟩
  rcases copyLoop_stops tensorInfo post hstop hcount hs hmapped with
    ⟨hfault, hpeek⟩ | ⟨s', size, hend, hledger, htensor, hmapped'⟩
  · have hresult : newDataHandler g c = .error .heapOverflow := by
      simp only [newDataHandler, hinfo, hlength, hqueue, hcalloc, ne_eq, not_true_eq_false,
        if_false, Bool.true_eq_false]
      rw [← hlength, hrun.trans hfault]
    rw [hresult]
    refine iff_of_false id fun h => ?_
    rw [hpeek] at h
    cases h.1
  · have hne : pre.length ≠ c.memories.length := by
      rw [hsplit, List.length_append, List.length_cons]
      omega
    have hget : s'.tensor[pre.length]? = some { Tensor.zero with size := size } := by
      rw [htensor]
      exact getElem?_middle hcount
    have hset : s'.tensor.set pre.length { Tensor.zero with size := size } = s'.tensor := by
      rw [htensor]
      exact set_middle hcount _
    have hfree : freeTensor pre.length s' = .ok s' := by
      rw [freeTensor_ok hget]
      exact congrArg (fun tensor => Except.ok (ε := Fault) { s' with tensor := tensor }) hset
    rw [newDataHandler_copying hinfo hlength hqueue hcalloc (hrun.trans hend), if_pos hne, hfree]
    cases pre with
    | nil =>
        -- The counter wraps, and the loop starts far behind the array.
        have hcount' : s'.tensor.length = c.memories.length := by
          rw [htensor, hsplit, List.length_append, List.length_append, hcount, List.length_cons,
            List.length_cons, List.length_replicate]
        have hout : s'.tensor[2 ^ 32 - 1]? = none := by
          apply List.getElem?_eq_none
          rw [hcount']
          exact Nat.le_sub_one_of_lt c.numMems
        have hclean : cleanLoop 0 s' = .error .outOfBounds := by
          unfold cleanLoop freeTensor
          rw [if_pos rfl, hout]
        have hresult : giveUp d g.ledger.allocated queue (cleanLoop 0 s') = .error .outOfBounds := by
          rw [hclean]
          rfl
        refine iff_of_false ?_ ?_
        · change ¬AllOrNothing c (giveUp d g.ledger.allocated queue (cleanLoop 0 s'))
          rw [hresult]
          exact id
        rintro ⟨-, first, hfirst, -⟩
        cases hfirst
    | cons first pre =>
        cases copies with
        | nil => cases hcount
        | cons t copies =>
            rw [← hledger] at hl
            rcases cleanDown_spec htensor hl with ⟨s'', hclean, hmapped'', hl''⟩
            have hrunClean : cleanLoop (first :: pre).length s' = .ok s'' := by
              unfold cleanLoop
              have hpos : (first :: pre).length ≠ 0 := Nat.succ_ne_zero pre.length
              rw [if_neg hpos, ← hcount]
              exact hclean
            have hfirst := blocks_eq_nil_iff (hcopies 0 first t rfl rfl)
            change AllOrNothing c
              (giveUp d g.ledger.allocated queue (cleanLoop (first :: pre).length s')) ↔ _
            rw [hrunClean, allOrNothing_giveUp hl'', hmapped'', hmapped', hfirst]
            simp

end Outcome

/-- Exactly these calls copy all or nothing. -/
theorem all_or_nothing_iff (g : Client) (c : Call) :
    AllOrNothing c (newDataHandler g c) ↔ Copyable g c := by
  unfold Copyable
  cases hinfo : c.tensorInfo with
  | none =>
      simp only [newDataHandler, hinfo]
      exact iff_of_true (allOrNothing_early g.balanced) (by simp)
  | some tensorInfo =>
      by_cases hlength : c.memories.length = (tensorInfo.getD []).length
      case neg =>
        simp only [newDataHandler, hinfo, if_pos hlength]
        refine iff_of_true (allOrNothing_early g.balanced) ?_
        intro tensorInfo' hinfo' hlength'
        cases hinfo'
        exact absurd hlength' hlength
      cases hqueue : g.queue with
      | nil =>
          have hl := g.balanced
          rw [hqueue] at hl
          simp only [newDataHandler, hinfo, hlength, hqueue, ne_eq, not_true_eq_false, if_false]
          exact iff_of_true (allOrNothing_early hl) (by simp)
      | cons d queue =>
          cases hcalloc : c.calloc with
          | false =>
              have hl := g.balanced
              rw [hqueue] at hl
              simp only [newDataHandler, hinfo, hlength, hqueue, hcalloc, ne_eq,
                not_true_eq_false, if_false, if_true]
              exact iff_of_true (allOrNothing_early hl.free) (by simp)
          | true =>
              have hforall : ∀ P : Option (List Int) → Prop,
                  (∀ tensorInfo', some tensorInfo = some tensorInfo' →
                    c.memories.length = (tensorInfo'.getD []).length → d :: queue ≠ [] →
                    true = true → P tensorInfo') ↔ P tensorInfo := by
                intro P
                constructor
                · intro h
                  exact h tensorInfo rfl hlength (List.cons_ne_nil d queue) rfl
                · rintro h tensorInfo' hinfo' - - -
                  cases hinfo'
                  exact h
              have hwhile := List.takeWhile_append_dropWhile (p := GstMemory.passes) (l := c.memories)
              refine Iff.trans ?_ (hforall _).symm
              cases hdrop : c.memories.dropWhile GstMemory.passes with
              | nil =>
                  refine copy_all_iff hinfo hlength hqueue hcalloc fun mem hmem => ?_
                  exact List.dropWhile_eq_nil_iff.1 hdrop mem hmem
              | cons mem post =>
                  rw [hdrop] at hwhile
                  refine copy_stops_iff hinfo hlength hqueue hcalloc hwhile.symm ?_ ?_
                  · intro mem hmem
                    exact List.mem_takeWhile_imp hmem
                  · have hhead := List.head?_dropWhile_not GstMemory.passes c.memories
                    rw [hdrop] at hhead
                    simpa using hhead

/-- The only memory cannot be peeked, and the clean-up leaves the array. -/
theorem no_memory_peeked :
    ¬AllOrNothing
      ⟨some (some [7]), [⟨[], false, true, true⟩], by decide, true, true⟩
      (newDataHandler ⟨Ledger.empty.alloc, [⟨0, 1⟩], Ledger.Balanced.empty.alloc⟩
        ⟨some (some [7]), [⟨[], false, true, true⟩], by decide, true, true⟩) :=
  id

end ResultCopy
end Peer
end Beyond
