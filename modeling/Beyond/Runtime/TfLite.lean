import Beyond.Base.Bytes
import Beyond.Base.Platform
import Beyond.Inference.TensorType

/-!
# The runtime of TensorFlow Lite

The calls of the `Runtime` of `runtime_tflite` as functions of the runtime and of what TensorFlow Lite
and the allocator do while they run.

A model file is a graph: the tensors, and which of them are inputs and outputs.  An interpreter works
on a memory of the graph, which has the same tensors with contents that change.  Models are told apart
by serial numbers, since a file can be loaded twice.
-/

namespace Beyond
namespace TfLite

open Errno
open Inference (TensorType UNSUPPORTED)

/-! ## TensorFlow Lite -/

/-- The types that `ConvertType` names. -/
inductive TfLiteType
  | noType
  | float32
  | int32
  | uint8
  | string
  | bool
  | int16
  | complex64
  | int8
  | other
  deriving DecidableEq, Repr

structure TfLiteTensor where
  type : TfLiteType
  data : Bytes
  dims : List Int
  /-- No object is larger than `PTRDIFF_MAX`. -/
  bytes_lt : data.length < 2 ^ 63
  deriving DecidableEq

def TfLiteTensor.bytes (t : TfLiteTensor) : Nat := t.data.length

/-- Everything but the contents. -/
structure TfLiteTensor.SameShape (t u : TfLiteTensor) : Prop where
  type : t.type = u.type
  bytes : t.bytes = u.bytes
  dims : t.dims = u.dims

/-- The tensor after a `memcpy` of `bytes` bytes into its buffer. -/
def TfLiteTensor.write (t : TfLiteTensor) (source : Bytes) : TfLiteTensor where
  type := t.type
  data := source.take t.bytes ++ t.data.drop source.length
  dims := t.dims
  bytes_lt := by
    have hlength : (source.take t.bytes ++ t.data.drop source.length).length = t.data.length := by
      simp only [bytes, List.length_append, List.length_take, List.length_drop]
      omega
    rw [hlength]
    exact t.bytes_lt

theorem TfLiteTensor.write_sameShape (t : TfLiteTensor) (source : Bytes) :
    (t.write source).SameShape t := by
  refine ⟨rfl, ?_, rfl⟩
  simp only [write, bytes, List.length_append, List.length_take, List.length_drop]
  omega

theorem TfLiteTensor.write_data {t : TfLiteTensor} {source : Bytes} (h : source.length = t.bytes) :
    (t.write source).data = source := by
  have hrest : t.data.drop source.length = [] := List.drop_eq_nil_of_le h.ge
  simp only [write, hrest, List.append_nil]
  exact List.take_of_length_le h.le

/-- What a model file holds; the tensors are as `AllocateTensors` leaves them. -/
structure Graph where
  inputs : List Nat
  outputs : List Nat
  tensor : Nat → TfLiteTensor

/-- The tensors of an interpreter. -/
structure Memory (g : Graph) where
  tensor : Nat → TfLiteTensor
  shape : ∀ i, (tensor i).SameShape (g.tensor i)

def Memory.initial (g : Graph) : Memory g := ⟨g.tensor, fun _ => ⟨rfl, rfl, rfl⟩⟩

/-- `memcpy` into the buffer of a tensor. -/
def Memory.write {g : Graph} (m : Memory g) (i : Nat) (source : Bytes) : Memory g where
  tensor := Function.update m.tensor i ((m.tensor i).write source)
  shape := by
    intro j
    by_cases hj : j = i
    · subst hj
      have hwrite := (m.tensor j).write_sameShape source
      have hshape := m.shape j
      rw [Function.update_self]
      exact ⟨hwrite.type.trans hshape.type, hwrite.bytes.trans hshape.bytes,
        hwrite.dims.trans hshape.dims⟩
    · rw [Function.update_of_ne hj]
      exact m.shape j

theorem Memory.write_tensor_self {g : Graph} (m : Memory g) (i : Nat) (source : Bytes) :
    (m.write i source).tensor i = (m.tensor i).write source := by
  simp [write]

theorem Memory.write_tensor_ne {g : Graph} (m : Memory g) {i j : Nat} (h : j ≠ i)
    (source : Bytes) : (m.write i source).tensor j = m.tensor j := by
  simp [write, h]

/-- `Interpreter::Invoke`: whether it returns `kTfLiteOk`, and the memory it leaves. -/
abbrev Interpretation := (g : Graph) → Memory g → Bool × Memory g

/-! ## Tensors of the caller -/

/-- A `beyond_tensor`; its size is an `int`, and its data has this size. -/
structure Tensor where
  type : Int
  size : Int
  data : Bytes
  int : -2 ^ 31 ≤ size ∧ size < 2 ^ 31
  holds : data.length = size.toNat
  deriving DecidableEq

/-- A `beyond_tensor_info`. -/
structure TensorInfo where
  type : Int
  size : Int
  name : Option Bytes
  dims : List Int
  deriving DecidableEq, Repr

/-- `static_cast<size_t>` of an `int`. -/
def toSize (n : Int) : Nat := (n % 2 ^ 64).toNat

/-- The conversion is harmless: no tensor has a size that a negative number could stand for. -/
theorem bytes_eq_toSize_iff (t : TfLiteTensor) (u : Tensor) :
    t.bytes = toSize u.size ↔ (t.bytes : Int) = u.size := by
  have hbytes : t.bytes < 2 ^ 63 := t.bytes_lt
  have hint := u.int
  unfold toSize
  omega

def ConvertType : TfLiteType → Int
  | .uint8 => TensorType.uint8.code
  | .int8 => TensorType.int8.code
  | .int16 => TensorType.int16.code
  | .int32 => TensorType.int32.code
  | .float32 => TensorType.float32.code
  | .noType | .bool | .string | .complex64 | .other => UNSUPPORTED

/-! ## `Invoke` -/

/-- What `Invoke` does with the interpreter. -/
inductive Event
  /-- `memcpy` of `count` bytes from the source into a tensor whose buffer has `room` bytes. -/
  | copy (tensor : Nat) (source : Bytes) (room count : Nat)
  | run
  deriving DecidableEq, Repr

structure Copied (g : Graph) where
  events : List Event
  memory : Memory g

def copyEvent (t : TfLiteTensor) (i : Nat) (u : Tensor) : Event := .copy i u.data t.bytes t.bytes

/-- The loop over the inputs of the model. -/
def copyInputs {g : Graph} (m : Memory g) : List Nat → List Tensor → Copied g
  | i :: inputs, u :: input =>
      -- The first size that differs ends the loop.
      if (m.tensor i).bytes ≠ toSize u.size then ⟨[], m⟩
      else
        let rest := copyInputs (m.write i (u.data.take (m.tensor i).bytes)) inputs input
        ⟨copyEvent (m.tensor i) i u :: rest.events, rest.memory⟩
  | _, _ => ⟨[], m⟩

structure Invoked (g : Graph) where
  ret : Int
  events : List Event
  memory : Memory g

def Invoke (run : Interpretation) (stop : Bool) {g : Graph} (m : Memory g) (input : List Tensor) :
    Invoked g :=
  if input.length ≠ g.inputs.length then ⟨-EFAULT, [], m⟩
  else
    let copied := copyInputs m g.inputs input
    let ran := run g copied.memory
    let ret := if ran.1 then 0 else if stop then -ECANCELED else -EFAULT
    ⟨ret, copied.events ++ [.run], ran.2⟩

end TfLite
end Beyond
