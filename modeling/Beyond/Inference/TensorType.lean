import Beyond.Base.Bytes

/-!
# Tensor types

The names and the sizes that `beyond::Inference` gives to the types of tensors.
-/

namespace Beyond
namespace Inference

open Bytes (ascii)

/-- The values of `beyond_tensor_type` that stand for a type. -/
inductive TensorType
  | int8
  | int16
  | int32
  | int64
  | uint8
  | uint16
  | uint32
  | uint64
  | float16
  | float32
  deriving DecidableEq, Repr

namespace TensorType

def code : TensorType → Int
  | int8 => 0x00
  | int16 => 0x01
  | int32 => 0x02
  | int64 => 0x04
  | uint8 => 0x10
  | uint16 => 0x11
  | uint32 => 0x12
  | uint64 => 0x14
  | float16 => 0x21
  | float32 => 0x22

/-- The label of a `switch` over the type. -/
def ofCode : Int → Option TensorType
  | 0x00 => some int8
  | 0x01 => some int16
  | 0x02 => some int32
  | 0x04 => some int64
  | 0x10 => some uint8
  | 0x11 => some uint16
  | 0x12 => some uint32
  | 0x14 => some uint64
  | 0x21 => some float16
  | 0x22 => some float32
  | _ => none

@[simp] theorem ofCode_code (type : TensorType) : ofCode type.code = some type := by
  cases type <;> rfl

end TensorType

/-- `BEYOND_TENSOR_TYPE_UNSUPPORTED`. -/
def UNSUPPORTED : Int := 0xff

def tensorTypeToString (type : Int) : Bytes :=
  match TensorType.ofCode type with
  | some .int8 => ascii "int8"
  | some .int16 => ascii "int16"
  | some .int32 => ascii "int32"
  | some .int64 => ascii "int64"
  | some .uint8 => ascii "uint8"
  | some .uint16 => ascii "uint16"
  | some .uint32 => ascii "uint32"
  | some .uint64 => ascii "uint64"
  | some .float16 => ascii "float16"
  | some .float32 => ascii "float32"
  | none => ascii "error"

def tensorTypeToSize (type : Int) : Int :=
  match TensorType.ofCode type with
  | some .int8 | some .uint8 => 1
  | some .int16 | some .uint16 | some .float16 => 2
  | some .int32 | some .uint32 | some .float32 => 4
  | some .int64 | some .uint64 => 8
  | none => 0

/-- There is no comparison with `"uint64"`. -/
def tensorTypeStringToType (str : Bytes) : Int :=
  if str = ascii "int8" then TensorType.int8.code
  else if str = ascii "int16" then TensorType.int16.code
  else if str = ascii "int32" then TensorType.int32.code
  else if str = ascii "int64" then TensorType.int64.code
  else if str = ascii "uint8" then TensorType.uint8.code
  else if str = ascii "uint16" then TensorType.uint16.code
  else if str = ascii "uint32" then TensorType.uint32.code
  else if str = ascii "float16" then TensorType.float16.code
  else if str = ascii "float32" then TensorType.float32.code
  else UNSUPPORTED

/-! ## Names -/

/-- The texts that `TensorTypeToString` can return. -/
theorem tensorTypeToString_mem (type : Int) :
    tensorTypeToString type ∈ ["int8", "int16", "int32", "int64", "uint8", "uint16", "uint32",
      "uint64", "float16", "float32", "error"].map ascii := by
  unfold tensorTypeToString
  cases TensorType.ofCode type with
  | none => decide
  | some type => cases type <;> decide

/-- A name is read back as its type, except for the one that no comparison mentions. -/
theorem tensorTypeStringToType_toString (type : TensorType) :
    tensorTypeStringToType (tensorTypeToString type.code) =
      if type = .uint64 then UNSUPPORTED else type.code := by
  cases type <;> decide

theorem tensorTypeStringToType_eq_code_iff (type : TensorType) :
    tensorTypeStringToType (tensorTypeToString type.code) = type.code ↔ type ≠ .uint64 := by
  cases type <;> decide

theorem tensorTypeToSize_nonneg (type : Int) : 0 ≤ tensorTypeToSize type := by
  unfold tensorTypeToSize
  cases TensorType.ofCode type with
  | none => decide
  | some type => cases type <;> decide

end Inference
end Beyond
