import Beyond.Runtime.TfLiteInvoke
import Beyond.Runtime.TfLiteModels

/-!
# What an inference computes

An application asks the runtime for the infos of the inputs, lets it allocate tensors by them, writes to
their data and invokes.  This module follows the bytes: from these tensors through `Invoke` to the
interpreter, and from the interpreter through `GetOutput` to the tensors that the application gets.

Of TensorFlow Lite it is assumed that an interpreter that succeeds computes a function of its inputs.
-/

namespace Beyond
namespace TfLite

open Errno
open Inference (UNSUPPORTED)
open Bytes (toInt32 toInt32_of_lt)

/-! ## `AllocateTensor` -/

/-- The tensor for an info; `malloc` leaves `contents` in its block. -/
def Tensor.ofInfo (info : TensorInfo) (contents : Nat → UInt8)
    (h : 0 ≤ info.size ∧ info.size < 2 ^ 31) : Tensor where
  type := info.type
  size := info.size
  data := (List.range info.size.toNat).map contents
  int := ⟨by omega, h.2⟩
  holds := by simp

/-- The loop over the infos; `fails n` tells whether the `n`th allocation of the call fails. -/
def allocateTensors (contents : Nat → Nat → UInt8) (fails : Nat → Bool) :
    Nat → List TensorInfo → Except Int (List Tensor)
  | _, [] => .ok []
  | n, info :: infos =>
      if h : 0 ≤ info.size ∧ info.size < 2 ^ 31 then
        if fails n then .error (-ENOMEM)
        else
          match allocateTensors contents fails (n + 1) infos with
          | .error ret => .error ret
          | .ok tensors => .ok (Tensor.ofInfo info (contents n) h :: tensors)
      -- No block has the size that a negative `int` converts to.
      else .error (-ENOMEM)

def AllocateTensor (contents : Nat → Nat → UInt8) (fails : Nat → Bool) (infos : List TensorInfo) :
    Except Int (List Tensor) :=
  if fails 0 then .error (-ENOMEM) else allocateTensors contents fails 1 infos

/-! ## Tensors of a graph -/

/-- Everything but the data. -/
def Tensor.shape (t : Tensor) : Int × Int := (t.type, t.size)

def TensorInfo.shape (info : TensorInfo) : Int × Int := (info.type, info.size)

/-- The inputs are different tensors, and what is passed in or out has a size that an `int` holds. -/
structure Graph.Regular (g : Graph) : Prop where
  nodup : g.inputs.Nodup
  inputs : ∀ i ∈ g.inputs, (g.tensor i).bytes < 2 ^ 31
  outputs : ∀ i ∈ g.outputs, (g.tensor i).bytes < 2 ^ 31

instance (g : Graph) : Decidable g.Regular :=
  decidable_of_iff (g.inputs.Nodup ∧ (∀ i ∈ g.inputs, (g.tensor i).bytes < 2 ^ 31) ∧
      ∀ i ∈ g.outputs, (g.tensor i).bytes < 2 ^ 31)
    ⟨fun h => ⟨h.1, h.2.1, h.2.2⟩, fun h => ⟨h.nodup, h.inputs, h.outputs⟩⟩

/-- One tensor for each input, of its size. -/
def Fits (g : Graph) (input : List Tensor) : Prop :=
  input.map Tensor.size = g.inputs.map fun i => ((g.tensor i).bytes : Int)

/-- What a model computes: the bytes of an output from those of all inputs. -/
abbrev Semantics := Graph → List Bytes → Nat → Bytes

/-- An interpreter that succeeds computes `f`. -/
def Computes (run : Interpretation) (f : Semantics) : Prop :=
  ∀ (g : Graph) (m : Memory g), (run g m).1 = true → ∀ i ∈ g.outputs,
    ((run g m).2.tensor i).data = f g (g.inputs.map fun j => (m.tensor j).data) i

/-- The outputs of the model, in tensors that `GetOutputTensorInfo` describes. -/
structure Result (f : Semantics) (g : Graph) (input output : List Tensor) : Prop where
  shape : output.map Tensor.shape = (describe g g.outputs).map TensorInfo.shape
  data : output.map Tensor.data = g.outputs.map (f g (input.map Tensor.data))

/-! ## From the infos to the inputs -/

theorem allocateTensors_shape {contents : Nat → Nat → UInt8} {fails : Nat → Bool} {n : Nat}
    {infos : List TensorInfo} {tensors : List Tensor}
    (h : allocateTensors contents fails n infos = .ok tensors) :
    tensors.map Tensor.shape = infos.map TensorInfo.shape := by
  induction infos generalizing n tensors with
  | nil =>
      cases h
      rfl
  | cons info infos ih =>
      unfold allocateTensors at h
      split at h
      · split at h
        · cases h
        · split at h
          · cases h
          · next rest hrest =>
              cases h
              rw [List.map_cons, List.map_cons, ih hrest]
              rfl
      · cases h

theorem AllocateTensor_shape {contents : Nat → Nat → UInt8} {fails : Nat → Bool}
    {infos : List TensorInfo} {tensors : List Tensor}
    (h : AllocateTensor contents fails infos = .ok tensors) :
    tensors.map Tensor.shape = infos.map TensorInfo.shape := by
  unfold AllocateTensor at h
  split at h
  · cases h
  · exact allocateTensors_shape h

theorem map_map_congr {α β γ : Type*} {l : List α} {f : α → β} {g : β → γ} {k : α → γ}
    (h : ∀ a ∈ l, g (f a) = k a) : (l.map f).map g = l.map k := by
  rw [List.map_map]
  exact List.map_congr_left h

theorem tensorInfo_size (t : TfLiteTensor) : (tensorInfo t).size = toInt32 t.bytes := by
  rw [tensorInfo]

/-- Tensors with the shapes of the infos fit, whatever was written to them. -/
theorem fits_of_shape {g : Graph} (hg : g.Regular) {input : List Tensor}
    (h : input.map Tensor.shape = (describe g g.inputs).map TensorInfo.shape) : Fits g input := by
  have hsize : input.map Tensor.size = (describe g g.inputs).map TensorInfo.size := by
    simpa [List.map_map, Function.comp_def, Tensor.shape, TensorInfo.shape] using
      congrArg (List.map Prod.snd) h
  have hbytes : ∀ i ∈ g.inputs, (tensorInfo (g.tensor i)).size = ((g.tensor i).bytes : Int) :=
    fun i hi => (tensorInfo_size (g.tensor i)).trans (toInt32_of_lt (hg.inputs i hi))
  rw [Fits, hsize, describe]
  exact map_map_congr hbytes

/-! ## Through the interpreter -/

theorem Fits.length_eq {g : Graph} {input : List Tensor} (h : Fits g input) :
    input.length = g.inputs.length := by
  simpa using congrArg List.length h

theorem Fits.sizeMatches {g : Graph} {input : List Tensor} (h : Fits g input) :
    ∀ p ∈ g.inputs.zip input, SizeMatches g p := by
  intro p hp
  rcases List.mem_iff_getElem?.1 hp with ⟨k, hk⟩
  rcases List.getElem?_zip_eq_some.1 hk with ⟨hinput, htensor⟩
  have hsizes := congrArg (·[k]?) h
  simpa [List.getElem?_map, hinput, htensor, SizeMatches, eq_comm] using hsizes

/-- Behind the copies, the inputs hold the bytes of the tensors. -/
theorem copyInputs_inputs {g : Graph} (hg : g.Regular) (m : Memory g) {input : List Tensor}
    (h : Fits g input) :
    (g.inputs.map fun j => ((copyInputs m g.inputs input).memory.tensor j).data) =
      input.map Tensor.data := by
  have hcopied := copyInputs_data m hg.nodup h.sizeMatches
  calc (g.inputs.map fun j => ((copyInputs m g.inputs input).memory.tensor j).data)
      = (g.inputs.zip input).map
          fun p => ((copyInputs m g.inputs input).memory.tensor p.1).data := by
        have hfst := List.map_fst_zip h.length_eq.ge
        have hmap := congrArg
          (List.map fun j => ((copyInputs m g.inputs input).memory.tensor j).data) hfst
        rw [List.map_map] at hmap
        exact hmap.symm
    _ = (g.inputs.zip input).map fun p => p.2.data := List.map_congr_left hcopied
    _ = input.map Tensor.data := by
        conv_rhs => rw [← List.map_snd_zip h.length_eq.le, List.map_map]
        rfl

/-- An `Invoke` that returns 0 leaves the outputs of the model. -/
theorem Invoke_computes {run : Interpretation} {f : Semantics} (hrun : Computes run f) {g : Graph}
    (hg : g.Regular) {stop : Bool} (m : Memory g) {input : List Tensor} (hfits : Fits g input)
    (hret : 0 ≤ (Invoke run stop m input).ret) :
    ∀ i ∈ g.outputs, ((Invoke run stop m input).memory.tensor i).data =
      f g (input.map Tensor.data) i := by
  have hcount : ¬ input.length ≠ g.inputs.length := fun h => h hfits.length_eq
  simp only [Invoke, if_neg hcount] at hret ⊢
  have hran : (run g (copyInputs m g.inputs input).memory).1 = true := by
    by_contra hfailed
    have hcode : ¬ 0 ≤ (if stop then -ECANCELED else -EFAULT) := by cases stop <;> decide
    rw [if_neg hfailed] at hret
    exact hcode hret
  intro i hi
  rw [hrun g _ hran i hi, copyInputs_inputs hg m hfits]

/-! ## From the outputs to the application -/

theorem collectOutputs_shape {g : Graph} (m : Memory g) {fails : Nat → Bool} {n : Nat}
    {outputs : List Nat} {tensors : List Tensor}
    (h : collectOutputs m.tensor fails n outputs = .ok tensors) :
    tensors.map Tensor.shape = (describe g outputs).map TensorInfo.shape := by
  induction outputs generalizing n tensors with
  | nil =>
      cases h
      rfl
  | cons i outputs ih =>
      unfold collectOutputs at h
      split at h
      · cases h
      · split at h
        · split at h
          · cases h
          · split at h
            · cases h
            · next rest hrest =>
                cases h
                have hshape := m.shape i
                rw [List.map_cons, ih hrest]
                simp only [describe, List.map_cons, Tensor.shape, TensorInfo.shape, Tensor.ofOutput,
                  tensorInfo, hshape.type, hshape.bytes]
        · cases h

/-- The copies are complete where an `int` holds the sizes. -/
theorem collectOutputs_data {g : Graph} (m : Memory g) {fails : Nat → Bool} {n : Nat}
    {outputs : List Nat} {tensors : List Tensor}
    (hsmall : ∀ i ∈ outputs, (g.tensor i).bytes < 2 ^ 31)
    (h : collectOutputs m.tensor fails n outputs = .ok tensors) :
    tensors.map Tensor.data = outputs.map fun i => (m.tensor i).data := by
  induction outputs generalizing n tensors with
  | nil =>
      cases h
      rfl
  | cons i outputs ih =>
      unfold collectOutputs at h
      split at h
      · cases h
      · split at h
        · split at h
          · cases h
          · split at h
            · cases h
            · next rest hrest =>
                cases h
                have hbytes : (m.tensor i).bytes < 2 ^ 31 := by
                  rw [m.bytes_eq]
                  exact hsmall i List.mem_cons_self
                have hwhole : (m.tensor i).data.take (toInt32 (m.tensor i).bytes).toNat =
                    (m.tensor i).data := by
                  rw [toInt32_of_lt hbytes, Int.toNat_natCast]
                  exact List.take_of_length_le le_rfl
                rw [List.map_cons, List.map_cons,
                  ih (fun j hj => hsmall j (List.mem_cons_of_mem _ hj)) hrest]
                simp only [Tensor.ofOutput, hwhole]
        · cases h

theorem collectOutputs_neg {tensor : Nat → TfLiteTensor} {fails : Nat → Bool} {n : Nat}
    {outputs : List Nat} {ret : Int} (h : collectOutputs tensor fails n outputs = .error ret) :
    ret < 0 := by
  induction outputs generalizing n with
  | nil => cases h
  | cons i outputs ih =>
      unfold collectOutputs at h
      split at h
      · cases h
        decide
      · split at h
        · split at h
          · cases h
            decide
          · split at h
            · next hrest =>
                cases h
                exact ih hrest
            · cases h
        · cases h
          decide

/-- What `GetOutput` passes back are the outputs in the memory. -/
theorem GetOutput_result {f : Semantics} {r : Runtime} {i : Interpreter} {fails : Nat → Bool}
    {input : List Tensor} {out : Outcome} (hi : r.interpreter = some i)
    (hg : i.model.graph.Regular)
    (hdata : ∀ j ∈ i.model.graph.outputs, (i.memory.tensor j).data =
      f i.model.graph (input.map Tensor.data) j)
    (hout : r.GetOutput fails = some out) (hret : 0 ≤ out.ret) :
    ∃ output, out.tensors = some output ∧ Result f i.model.graph input output := by
  have hefault : ¬ 0 ≤ -EFAULT := by decide
  have henomem : ¬ 0 ≤ -ENOMEM := by decide
  unfold Runtime.GetOutput at hout
  rw [hi] at hout
  dsimp only at hout
  split at hout
  · cases hout
    exact absurd hret hefault
  · split at hout
    · cases hout
      exact absurd hret henomem
    · split at hout
      · next ret hcollected =>
          cases hout
          exact absurd hret (not_le_of_gt (collectOutputs_neg hcollected))
      · next output hcollected =>
          cases hout
          refine ⟨output, rfl, collectOutputs_shape i.memory hcollected, ?_⟩
          rw [collectOutputs_data i.memory hg.outputs hcollected]
          exact List.map_congr_left hdata

end TfLite
end Beyond
