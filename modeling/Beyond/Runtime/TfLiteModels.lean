import Beyond.Base.Run
import Beyond.Runtime.TfLite

/-!
# The model of the TensorFlow Lite runtime

The `Runtime` of `runtime_tflite` owns a model, an interpreter that was built from a model, and the
tensor infos it was asked for before.  `State.last` is a ghost: the model of the last `LoadModel` that
returned 0.  `Laws` says of a call that the runtime speaks about this model only.

An interpreter must not outlive the model it was built from, so what counts is the runtime behind each
assignment inside `LoadModel`, not only behind the call.
-/

namespace Beyond
namespace TfLite

open Errno
open Inference (UNSUPPORTED)
open Bytes (toInt32)

/-! ## The runtime -/

structure FlatBufferModel where
  serial : Nat
  graph : Graph

structure Interpreter where
  /-- The model it was built from. -/
  model : FlatBufferModel
  memory : Memory model.graph

/-- The infos of one side of the model, `none` for a null pointer, and their number. -/
structure InfoArray where
  infos : Option (List TensorInfo)
  size : Int
  deriving DecidableEq, Repr

structure Runtime where
  model : Option FlatBufferModel
  interpreter : Option Interpreter
  inputTensorInfo : InfoArray
  outputTensorInfo : InfoArray
  stop : Bool

/-- What `Create` returns. -/
def Create : Runtime := ⟨none, none, ⟨none, 0⟩, ⟨none, 0⟩, false⟩

/-- The model of the interpreter is the one that the runtime owns, so it was not released. -/
def Runtime.Holds (r : Runtime) : Prop := ∀ i, r.interpreter = some i → r.model = some i.model

/-- What a call returns, and the runtimes behind the assignments before its last one. -/
structure Outcome where
  runtime : Runtime
  ret : Int
  moments : List Runtime := []
  infos : Option (List TensorInfo) := none
  tensors : Option (List Tensor) := none

/-! ## `LoadModel` -/

/-- The end of an `InterpreterBuilder`; one that fails may reset the interpreter or not. -/
inductive Builder
  | built
  | failed (reset : Bool)
  deriving DecidableEq, Repr

/-- The file and what TensorFlow Lite makes of it. -/
structure File where
  access : Bool
  /-- The model of `BuildFromFile`, if any. -/
  graph : Option Graph
  builder : Builder
  allocates : Bool

def Runtime.LoadModel (r : Runtime) (serial : Nat) (file : File) : Outcome :=
  if file.access = false then { runtime := r, ret := -EINVAL }
  else
    match file.graph with
    | none => { runtime := { r with model := none }, ret := - Errno.EIO }
    | some graph =>
        let model : FlatBufferModel := ⟨serial, graph⟩
        -- The assignment releases the model before.
        let assigned := { r with model := some model }
        match file.builder with
        | .failed reset =>
            let left := if reset then { assigned with interpreter := none } else assigned
            { runtime := { left with model := none }, ret := -EFAULT, moments := [assigned, left] }
        | .built =>
            let loaded := { assigned with interpreter := some ⟨model, .initial graph⟩ }
            { runtime := loaded, ret := if file.allocates then 0 else -EFAULT,
              moments := [assigned] }

/-! ## Tensor infos -/

def tensorInfo (t : TfLiteTensor) : TensorInfo :=
  ⟨ConvertType t.type, toInt32 t.bytes, none, t.dims⟩

/-- The loop over the tensors of one side; `fails n` tells whether the `n`th allocation of the call
fails. -/
def collectInfos (tensor : Nat → TfLiteTensor) (fails : Nat → Bool) :
    Nat → List Nat → Except Int (List TensorInfo)
  | _, [] => .ok []
  | n, i :: tensors =>
      if ConvertType (tensor i).type = UNSUPPORTED then .error (-ENOTSUP)
      else if fails n then .error (-ENOMEM)
      else
        match collectInfos tensor fails (n + 1) tensors with
        | .error ret => .error ret
        | .ok infos => .ok (tensorInfo (tensor i) :: infos)

/-- The array and the return code of one of the two functions; `none` where a null interpreter is
dereferenced. -/
def getTensorInfo (array : InfoArray) (interpreter : Option Interpreter)
    (tensors : Graph → List Nat) (fails : Nat → Bool) : Option (InfoArray × Int) :=
  match array.infos with
  | some _ => some (array, 0)
  | none =>
      match interpreter with
      | none => none
      | some i =>
          let size : Int := (tensors i.model.graph).length
          if fails 0 then some (⟨none, size⟩, -ENOMEM)
          else
            match collectInfos i.memory.tensor fails 1 (tensors i.model.graph) with
            | .error ret => some (⟨none, size⟩, ret)
            | .ok infos => some (⟨some infos, size⟩, 0)

/-- The infos are passed back on success only. -/
def passedBack (array : InfoArray) (ret : Int) : Option (List TensorInfo) :=
  if ret = 0 then array.infos else none

def Runtime.GetInputTensorInfo (r : Runtime) (fails : Nat → Bool) : Option Outcome :=
  (getTensorInfo r.inputTensorInfo r.interpreter Graph.inputs fails).map fun got =>
    { runtime := { r with inputTensorInfo := got.1 }, ret := got.2,
      infos := passedBack got.1 got.2 }

def Runtime.GetOutputTensorInfo (r : Runtime) (fails : Nat → Bool) : Option Outcome :=
  (getTensorInfo r.outputTensorInfo r.interpreter Graph.outputs fails).map fun got =>
    { runtime := { r with outputTensorInfo := got.1 }, ret := got.2,
      infos := passedBack got.1 got.2 }

/-! ## Inference -/

def Runtime.invoke (r : Runtime) (run : Interpretation) (input : List Tensor) : Option Outcome :=
  match r.interpreter with
  | none => none
  | some i =>
      let out := Invoke run r.stop i.memory input
      some { runtime := { r with interpreter := some ⟨i.model, out.memory⟩ }, ret := out.ret }

/-- The copy of an output tensor. -/
def Tensor.ofOutput (t : TfLiteTensor) (h : 0 ≤ toInt32 t.bytes) : Tensor where
  type := ConvertType t.type
  size := toInt32 t.bytes
  data := t.data.take (toInt32 t.bytes).toNat
  int := ⟨by omega, Bytes.toInt32_lt _⟩
  holds := by
    have hle : (toInt32 t.bytes).toNat ≤ t.data.length := by
      unfold toInt32 at h ⊢
      rw [Int.bmod_def] at h ⊢
      unfold TfLiteTensor.bytes at h ⊢
      omega
    rw [List.length_take]
    omega

def collectOutputs (tensor : Nat → TfLiteTensor) (fails : Nat → Bool) :
    Nat → List Nat → Except Int (List Tensor)
  | _, [] => .ok []
  | n, i :: tensors =>
      if ConvertType (tensor i).type = UNSUPPORTED then .error (-ENOTSUP)
      else if h : 0 ≤ toInt32 (tensor i).bytes then
        if fails n then .error (-ENOMEM)
        else
          match collectOutputs tensor fails (n + 1) tensors with
          | .error ret => .error ret
          | .ok outputs => .ok (Tensor.ofOutput (tensor i) h :: outputs)
      -- No block has the size that a negative number converts to.
      else .error (-ENOMEM)

def Runtime.GetOutput (r : Runtime) (fails : Nat → Bool) : Option Outcome :=
  match r.interpreter with
  | none => none
  | some i =>
      if i.model.graph.outputs = [] then some { runtime := r, ret := -EFAULT }
      else if fails 0 then some { runtime := r, ret := -ENOMEM }
      else
        match collectOutputs i.memory.tensor fails 1 i.model.graph.outputs with
        | .error ret => some { runtime := r, ret := ret }
        | .ok tensors => some { runtime := r, ret := 0, tensors := some tensors }

def Runtime.Stop (r : Runtime) : Outcome := { runtime := { r with stop := true }, ret := 0 }

/-! ## Runs -/

/-- A call with what it meets. -/
inductive Act
  | loadModel (file : File)
  | getInputTensorInfo (fails : Nat → Bool)
  | getOutputTensorInfo (fails : Nat → Bool)
  | invoke (run : Interpretation) (input : List Tensor)
  | getOutput (fails : Nat → Bool)
  | stop

structure State where
  runtime : Runtime
  /-- The serial number of the next model. -/
  serial : Nat
  last : Option FlatBufferModel

def State.created : State := ⟨Create, 0, none⟩

def perform (s : State) : Act → Option Outcome
  | .loadModel file => some (s.runtime.LoadModel s.serial file)
  | .getInputTensorInfo fails => s.runtime.GetInputTensorInfo fails
  | .getOutputTensorInfo fails => s.runtime.GetOutputTensorInfo fails
  | .invoke run input => s.runtime.invoke run input
  | .getOutput fails => s.runtime.GetOutput fails
  | .stop => some s.runtime.Stop

/-- The state behind a call that returned. -/
def State.next (s : State) (out : Outcome) : Act → State
  | .loadModel _ => ⟨out.runtime, s.serial + 1, if out.ret = 0 then out.runtime.model else s.last⟩
  | _ => ⟨out.runtime, s.serial, s.last⟩

def step (s : State) (a : Act) : Option State := (perform s a).map fun out => s.next out a

/-! ## Laws -/

def Act.IsLoad : Act → Prop
  | .loadModel _ => True
  | _ => False

/-- The calls that speak about a loaded model. -/
def Act.NeedsModel : Act → Prop
  | .loadModel _ | .stop => False
  | _ => True

def Act.RunsModel : Act → Prop
  | .invoke _ _ | .getOutput _ => True
  | _ => False

/-- The tensors that the call describes. -/
def Act.tensors : Act → Graph → List Nat
  | .getInputTensorInfo _ => Graph.inputs
  | .getOutputTensorInfo _ => Graph.outputs
  | _ => fun _ => []

def describe (g : Graph) (tensors : List Nat) : List TensorInfo :=
  tensors.map fun i => tensorInfo (g.tensor i)

structure LawfulCall (s : State) (a : Act) (out : Outcome) : Prop where
  /-- The interpreter never refers to a released model. -/
  holds : ∀ r ∈ out.moments ++ [out.runtime], r.Holds
  failed : a.IsLoad → out.ret ≠ 0 → out.runtime = s.runtime
  described : ∀ infos, out.infos = some infos →
    ∃ m, s.last = some m ∧ infos = describe m.graph (a.tensors m.graph)
  runs : a.RunsModel → ∃ i, s.runtime.interpreter = some i ∧ s.last = some i.model
  unloaded : a.NeedsModel → s.last = none → out.ret < 0

/-- The call returns and is lawful. -/
def Laws (s : State) (a : Act) : Prop := ∃ out, perform s a = some out ∧ LawfulCall s a out

/-- A model is loaded at most once, `AllocateTensors` succeeds on it, and nothing is asked before. -/
def Clean (s : State) : Act → Prop
  | .loadModel file => file.access = false ∨
      (s.last = none ∧
        (file.graph = none ∨ file.builder ≠ .built ∨ file.allocates = true))
  | .stop => True
  | _ => s.last ≠ none

/-! ## What a call does to the model -/

/-- The infos are read off the tensors, whose shape never changes. -/
theorem collectInfos_eq {g : Graph} (m : Memory g) {fails : Nat → Bool} {n : Nat}
    {tensors : List Nat} {infos : List TensorInfo}
    (h : collectInfos m.tensor fails n tensors = .ok infos) : infos = describe g tensors := by
  induction tensors generalizing n infos with
  | nil =>
      cases h
      rfl
  | cons i tensors ih =>
      unfold collectInfos at h
      split at h
      · cases h
      · split at h
        · cases h
        · split at h
          · cases h
          · next rest hrest =>
              cases h
              have hshape := m.shape i
              have hinfo : tensorInfo (m.tensor i) = tensorInfo (g.tensor i) := by
                simp only [tensorInfo, hshape.type, hshape.bytes, hshape.dims]
              rw [ih hrest, hinfo]
              rfl

/-- Everything the array holds behind the call describes the model of the interpreter, if it did
before. -/
theorem getTensorInfo_spec {array : InfoArray} {i : Interpreter} (tensors : Graph → List Nat)
    (fails : Nat → Bool)
    (h : ∀ infos, array.infos = some infos → infos = describe i.model.graph (tensors i.model.graph)) :
    ∃ got, getTensorInfo array (some i) tensors fails = some got ∧
      (∀ infos, got.1.infos = some infos →
        infos = describe i.model.graph (tensors i.model.graph)) := by
  unfold getTensorInfo
  split
  · exact ⟨_, rfl, h⟩
  · dsimp only
    split
    · exact ⟨_, rfl, fun infos hinfos => by cases hinfos⟩
    · split
      · exact ⟨_, rfl, fun infos hinfos => by cases hinfos⟩
      · next collected hcollected =>
          refine ⟨_, rfl, fun infos hinfos => ?_⟩
          cases hinfos
          exact collectInfos_eq i.memory hcollected

theorem passedBack_infos {array : InfoArray} {ret : Int} {infos : List TensorInfo}
    (h : passedBack array ret = some infos) : array.infos = some infos := by
  unfold passedBack at h
  split at h
  · exact h
  · cases h

/-- A null interpreter is dereferenced where no infos are kept. -/
theorem getTensorInfo_null {array : InfoArray} (h : array.infos = none)
    (tensors : Graph → List Nat) (fails : Nat → Bool) :
    getTensorInfo array none tensors fails = none := by
  simp only [getTensorInfo, h]

theorem GetOutput_runtime {r : Runtime} {i : Interpreter} (fails : Nat → Bool)
    (h : r.interpreter = some i) :
    ∃ out, r.GetOutput fails = some out ∧ out.runtime = r ∧ out.moments = [] ∧
      out.infos = none := by
  unfold Runtime.GetOutput
  rw [h]
  dsimp only
  split
  · exact ⟨_, rfl, rfl, rfl, rfl⟩
  · split
    · exact ⟨_, rfl, rfl, rfl, rfl⟩
    · split <;> exact ⟨_, rfl, rfl, rfl, rfl⟩

/-! ## The invariant -/

/-- The kept infos describe the model that was loaded last. -/
def InfoArray.Describes (array : InfoArray) (last : Option FlatBufferModel)
    (tensors : Graph → List Nat) : Prop :=
  ∀ infos, array.infos = some infos →
    ∃ m, last = some m ∧ infos = describe m.graph (tensors m.graph)

structure Inv (s : State) : Prop where
  model : s.runtime.model = s.last
  interpreter : s.runtime.interpreter.map Interpreter.model = s.last
  inputs : s.runtime.inputTensorInfo.Describes s.last Graph.inputs
  outputs : s.runtime.outputTensorInfo.Describes s.last Graph.outputs
  fresh : ∀ m, s.last = some m → m.serial < s.serial

theorem Inv.created : Inv State.created where
  model := rfl
  interpreter := rfl
  inputs := by
    intro infos h
    cases h
  outputs := by
    intro infos h
    cases h
  fresh := by
    intro m h
    cases h

section Runs

variable {s : State} {file : File}

theorem Inv.holds (h : Inv s) : s.runtime.Holds := by
  intro i hi
  have hlast := h.interpreter
  rw [hi] at hlast
  exact h.model.trans hlast.symm

/-- Before the first model, nothing is there. -/
theorem Inv.empty (h : Inv s) (hlast : s.last = none) :
    s.runtime.model = none ∧ s.runtime.interpreter = none ∧
      s.runtime.inputTensorInfo.infos = none ∧ s.runtime.outputTensorInfo.infos = none := by
  refine ⟨h.model.trans hlast, ?_, ?_, ?_⟩
  · have hinterpreter := h.interpreter
    rw [hlast] at hinterpreter
    exact Option.map_eq_none_iff.1 hinterpreter
  · refine Option.eq_none_iff_forall_ne_some.2 fun infos hinfos => ?_
    rcases h.inputs infos hinfos with ⟨m, hm, -⟩
    exact absurd (hm.symm.trans hlast) (by simp)
  · refine Option.eq_none_iff_forall_ne_some.2 fun infos hinfos => ?_
    rcases h.outputs infos hinfos with ⟨m, hm, -⟩
    exact absurd (hm.symm.trans hlast) (by simp)

/-- Behind it, there is an interpreter of this model. -/
theorem Inv.loaded (h : Inv s) (hlast : s.last ≠ none) :
    ∃ i, s.runtime.interpreter = some i ∧ s.last = some i.model := by
  rcases Option.ne_none_iff_exists'.1 hlast with ⟨m, hm⟩
  have hinterpreter := h.interpreter
  rw [hm] at hinterpreter
  rcases Option.map_eq_some_iff.1 hinterpreter with ⟨i, hi, rfl⟩
  exact ⟨i, hi, hm⟩

/-! ## `LoadModel` -/

/-- Without an interpreter, a load that stops early leaves everything as it was. -/
theorem LoadModel_early {r : Runtime} (serial : Nat) (hmodel : r.model = none)
    (hinterpreter : r.interpreter = none) (hfile : file.graph = none ∨ file.builder ≠ .built) :
    (r.LoadModel serial file).runtime = r ∧ (r.LoadModel serial file).ret < 0 ∧
      ∀ t ∈ (r.LoadModel serial file).moments, t.interpreter = none := by
  rcases r with ⟨model, interpreter, inputs, outputs, stop⟩
  cases hmodel
  cases hinterpreter
  unfold Runtime.LoadModel
  split
  · exact ⟨rfl, Int.neg_neg_of_pos (by decide), by simp⟩
  · split
    · exact ⟨rfl, Int.neg_neg_of_pos (by decide), by simp⟩
    · next graph hgraph =>
        dsimp only
        split
        · next reset _ =>
            -- The pointers are null again, whether the builder reset the interpreter or not.
            refine ⟨?_, Int.neg_neg_of_pos (by decide), ?_⟩
            · cases reset <;> rfl
            · intro t ht
              cases reset with
              | false =>
                  rcases List.mem_pair.1 ht with rfl | rfl
                  · rfl
                  · rfl
              | true =>
                  rcases List.mem_pair.1 ht with rfl | rfl
                  · rfl
                  · rfl
        · next hbuilt => exact absurd hbuilt (hfile.resolve_left (by simp [hgraph]))

/-- A load that gets to `AllocateTensors` leaves the new model and its interpreter. -/
theorem LoadModel_built (r : Runtime) (serial : Nat) {graph : Graph} (haccess : file.access = true)
    (hgraph : file.graph = some graph) (hbuilder : file.builder = .built) :
    r.LoadModel serial file =
      { runtime := { r with
          model := some ⟨serial, graph⟩
          interpreter := some ⟨⟨serial, graph⟩, .initial graph⟩ }
        ret := if file.allocates then 0 else -EFAULT
        moments := [{ r with model := some ⟨serial, graph⟩ }] } := by
  simp [Runtime.LoadModel, haccess, hgraph, hbuilder]

/-- A second load that finds its file releases the model under the interpreter. -/
theorem LoadModel_releases {r : Runtime} {serial : Nat} {i : Interpreter}
    (haccess : file.access = true) (hi : r.interpreter = some i)
    (hserial : i.model.serial ≠ serial) :
    ∃ t ∈ (r.LoadModel serial file).moments ++ [(r.LoadModel serial file).runtime],
      ¬ t.Holds := by
  cases hgraph : file.graph with
  | none =>
      refine ⟨{ r with model := none }, ?_, ?_⟩
      · simp [Runtime.LoadModel, haccess, hgraph]
      · intro hholds
        have hmodel : none = some i.model := hholds i hi
        cases hmodel
  | some graph =>
      refine ⟨{ r with model := some ⟨serial, graph⟩ }, ?_, ?_⟩
      · cases hbuilder : file.builder with
        | built => simp [Runtime.LoadModel, haccess, hgraph, hbuilder]
        | failed reset => simp [Runtime.LoadModel, haccess, hgraph, hbuilder]
      · intro hholds
        have hmodel : some ⟨serial, graph⟩ = some i.model := hholds i hi
        exact hserial (congrArg FlatBufferModel.serial (Option.some.inj hmodel)).symm

theorem LoadModel_missing {r : Runtime} {serial : Nat} (haccess : file.access = false) :
    r.LoadModel serial file = { runtime := r, ret := -EINVAL } := by
  simp [Runtime.LoadModel, haccess]

/-- A load that succeeds has loaded what is in the file. -/
theorem LoadModel_graph {r : Runtime} {serial : Nat} {m : FlatBufferModel}
    (hret : (r.LoadModel serial file).ret = 0)
    (hm : (r.LoadModel serial file).runtime.model = some m) : file.graph = some m.graph := by
  have heinval : -EINVAL ≠ 0 := by decide
  have heio : -Errno.EIO ≠ 0 := by decide
  have hefault : -EFAULT ≠ 0 := by decide
  unfold Runtime.LoadModel at hret hm
  split at hret
  · exact absurd hret heinval
  · rename_i haccess
    rw [if_neg haccess] at hm
    split at hret
    · exact absurd hret heio
    · rename_i graph hgraph
      rw [hgraph] at hm ⊢
      dsimp only at hret hm
      split at hret
      · exact absurd hret hefault
      · rename_i hbuilt
        rw [hbuilt] at hm
        cases hm
        rfl

theorem LoadModel_infos (r : Runtime) (serial : Nat) (file : File) :
    (r.LoadModel serial file).infos = none := by
  unfold Runtime.LoadModel
  split
  · rfl
  · split
    · rfl
    · dsimp only
      split <;> rfl

/-- The runtime with a model and an interpreter on it. -/
def Runtime.withModel (r : Runtime) (m : FlatBufferModel) : Runtime :=
  { r with model := some m, interpreter := some ⟨m, .initial m.graph⟩ }

/-- A clean load changes nothing or is the first to succeed; in the meantime the interpreter refers
to no released model. -/
theorem load_cases (h : Inv s) (hclean : Clean s (.loadModel file)) :
    (∀ t ∈ (s.runtime.LoadModel s.serial file).moments, t.Holds) ∧
      (((s.runtime.LoadModel s.serial file).runtime = s.runtime ∧
          (s.runtime.LoadModel s.serial file).ret < 0) ∨
        ∃ graph, s.last = none ∧
          (s.runtime.LoadModel s.serial file).runtime = s.runtime.withModel ⟨s.serial, graph⟩ ∧
          (s.runtime.LoadModel s.serial file).ret = 0) := by
  by_cases haccess : file.access = false
  · rw [LoadModel_missing haccess]
    exact ⟨by simp, .inl ⟨rfl, Int.neg_neg_of_pos (by decide)⟩⟩
  · rcases hclean.resolve_left haccess with ⟨hlast, hfile⟩
    rcases h.empty hlast with ⟨hmodel, hinterpreter, -, -⟩
    -- While there is no interpreter, none can refer to a released model.
    have hnone : ∀ u : Runtime, u.interpreter = none → u.Holds := by
      intro u hu i hi
      exact absurd (hi.symm.trans hu) (by simp)
    by_cases hearly : file.graph = none ∨ file.builder ≠ .built
    · rcases LoadModel_early s.serial hmodel hinterpreter hearly with
        ⟨hruntime, hret, hmoments⟩
      exact ⟨fun t ht => hnone t (hmoments t ht), .inl ⟨hruntime, hret⟩⟩
    · simp only [not_or, ne_eq, not_not] at hearly
      rcases Option.ne_none_iff_exists'.1 hearly.1 with ⟨graph, hgraph⟩
      have hallocates : file.allocates = true := by
        rcases hfile with hmissing | hfailed | hallocates
        · exact absurd hmissing hearly.1
        · exact absurd hearly.2 hfailed
        · exact hallocates
      rw [LoadModel_built _ _ (by simpa using haccess) hgraph hearly.2, hallocates]
      refine ⟨?_, .inr ⟨graph, hlast, rfl, rfl⟩⟩
      intro t ht
      cases List.mem_singleton.1 ht
      exact hnone _ hinterpreter

theorem load_laws_iff (h : Inv s) : Laws s (.loadModel file) ↔ Clean s (.loadModel file) := by
  constructor
  · rintro ⟨out, hout, hlaw⟩
    cases hout
    by_cases haccess : file.access = true
    · -- A model that is there already is released under its interpreter.
      have hlast : s.last = none := by
        by_contra hne
        rcases h.loaded hne with ⟨i, hi, hm⟩
        have hserial : i.model.serial ≠ s.serial := (h.fresh i.model hm).ne
        rcases LoadModel_releases haccess hi hserial with ⟨t, ht, hreleased⟩
        exact hreleased (hlaw.holds t ht)
      refine .inr ⟨hlast, ?_⟩
      by_contra hbad
      simp only [not_or, ne_eq, not_not, Bool.not_eq_true] at hbad
      rcases hbad with ⟨hgraph, hbuilder, hallocates⟩
      rcases Option.ne_none_iff_exists'.1 hgraph with ⟨graph, hgraph⟩
      -- The failing load leaves an interpreter where there was none.
      have hload := LoadModel_built s.runtime s.serial haccess hgraph hbuilder
      have hret : (s.runtime.LoadModel s.serial file).ret ≠ 0 := by
        have hefault : -EFAULT ≠ 0 := by decide
        rw [hload, hallocates]
        exact hefault
      have hsame := congrArg Runtime.interpreter (hlaw.failed trivial hret)
      rw [hload, (h.empty hlast).2.1] at hsame
      cases hsame
    · exact .inl (by simpa using haccess)
  · intro hclean
    rcases load_cases h hclean with ⟨hmoments, hend⟩
    refine ⟨s.runtime.LoadModel s.serial file, rfl, ?_⟩
    refine
      { holds := ?_, failed := ?_, described := ?_, runs := fun hrun => hrun.elim
        unloaded := fun hneeds => hneeds.elim }
    · intro t ht
      rcases List.mem_append.1 ht with ht | ht
      · exact hmoments t ht
      · cases List.mem_singleton.1 ht
        rcases hend with ⟨hruntime, -⟩ | ⟨graph, -, hruntime, -⟩
        · rw [hruntime]
          exact h.holds
        · rw [hruntime]
          intro i hi
          cases hi
          rfl
    · intro _ hret
      rcases hend with ⟨hruntime, -⟩ | ⟨graph, -, -, hzero⟩
      · exact hruntime
      · exact absurd hzero hret
    · intro infos hinfos
      rw [LoadModel_infos] at hinfos
      cases hinfos

theorem load_keeps (h : Inv s) (hclean : Clean s (.loadModel file)) :
    Inv (s.next (s.runtime.LoadModel s.serial file) (.loadModel file)) := by
  rcases (load_cases h hclean).2 with ⟨hruntime, hret⟩ | ⟨graph, hlast, hruntime, hret⟩
  · have hnext : s.next (s.runtime.LoadModel s.serial file) (.loadModel file) =
        ⟨s.runtime, s.serial + 1, s.last⟩ := by
      simp only [State.next, hruntime, if_neg hret.ne]
    rw [hnext]
    exact ⟨h.model, h.interpreter, h.inputs, h.outputs, fun m hm => (h.fresh m hm).trans (by simp)⟩
  · have hnext : s.next (s.runtime.LoadModel s.serial file) (.loadModel file) =
        ⟨s.runtime.withModel ⟨s.serial, graph⟩, s.serial + 1, some ⟨s.serial, graph⟩⟩ := by
      simp only [State.next, hruntime, if_pos hret, Runtime.withModel]
    rcases h.empty hlast with ⟨-, -, hinputs, houtputs⟩
    rw [hnext]
    refine ⟨rfl, rfl, ?_, ?_, ?_⟩
    · intro infos hinfos
      exact absurd (hinfos.symm.trans hinputs) (by simp)
    · intro infos hinfos
      exact absurd (hinfos.symm.trans houtputs) (by simp)
    · intro m hm
      cases hm
      exact Nat.lt_succ_self s.serial

/-! ## The other calls -/

/-- What there is to show of a call that speaks about a loaded model. -/
theorem lawful_call {a : Act} {out : Outcome} (hlast : s.last ≠ none) (hload : ¬ a.IsLoad)
    (hmoments : out.moments = []) (hholds : out.runtime.Holds)
    (hinfos : ∀ infos, out.infos = some infos →
      ∃ m, s.last = some m ∧ infos = describe m.graph (a.tensors m.graph))
    (hruns : a.RunsModel → ∃ i, s.runtime.interpreter = some i ∧ s.last = some i.model) :
    LawfulCall s a out where
  holds := by
    intro r hr
    rw [hmoments] at hr
    cases List.mem_singleton.1 hr
    exact hholds
  failed := fun h => absurd h hload
  described := hinfos
  runs := hruns
  unloaded := fun _ h => absurd h hlast

/-- The infos that a model describes, and what they say. -/
theorem infos_laws (h : Inv s) (hlast : s.last ≠ none) {array : InfoArray}
    {tensors : Graph → List Nat} (fails : Nat → Bool) (harray : array.Describes s.last tensors) :
    ∃ got, getTensorInfo array s.runtime.interpreter tensors fails = some got ∧
      got.1.Describes s.last tensors := by
  rcases h.loaded hlast with ⟨i, hi, hm⟩
  have hkept : ∀ infos, array.infos = some infos →
      infos = describe i.model.graph (tensors i.model.graph) := by
    intro infos hinfos
    rcases harray infos hinfos with ⟨m, hm', hdescribed⟩
    cases Option.some.inj (hm.symm.trans hm')
    exact hdescribed
  rcases getTensorInfo_spec tensors fails hkept with ⟨got, hgot, hdescribed⟩
  rw [hi]
  exact ⟨got, hgot, fun infos hinfos => ⟨i.model, hm, hdescribed infos hinfos⟩⟩

/-- The calls that speak about a model need one, and with one each of them is lawful and keeps the
invariant. -/
theorem call_laws (h : Inv s) {a : Act} (hneeds : a.NeedsModel) (hlast : s.last ≠ none) :
    ∃ out, perform s a = some out ∧ LawfulCall s a out ∧ Inv (s.next out a) := by
  rcases h.loaded hlast with ⟨i, hi, hm⟩
  cases a with
  | loadModel file => exact hneeds.elim
  | stop => exact hneeds.elim
  | getInputTensorInfo fails =>
      rcases infos_laws h hlast fails h.inputs with ⟨got, hgot, hdescribes⟩
      refine ⟨_, congrArg (Option.map _) hgot, ?_, ?_⟩
      · refine lawful_call hlast id rfl h.holds (fun infos hinfos => ?_) (fun hrun => hrun.elim)
        exact hdescribes infos (passedBack_infos hinfos)
      · exact ⟨h.model, h.interpreter, hdescribes, h.outputs, h.fresh⟩
  | getOutputTensorInfo fails =>
      rcases infos_laws h hlast fails h.outputs with ⟨got, hgot, hdescribes⟩
      refine ⟨_, congrArg (Option.map _) hgot, ?_, ?_⟩
      · refine lawful_call hlast id rfl h.holds (fun infos hinfos => ?_) (fun hrun => hrun.elim)
        exact hdescribes infos (passedBack_infos hinfos)
      · exact ⟨h.model, h.interpreter, h.inputs, hdescribes, h.fresh⟩
  | invoke run input =>
      have hout : perform s (.invoke run input) =
          some { runtime := { s.runtime with
                  interpreter := some ⟨i.model, (Invoke run s.runtime.stop i.memory input).memory⟩ }
                 ret := (Invoke run s.runtime.stop i.memory input).ret } := by
        simp only [perform, Runtime.invoke, hi]
      refine ⟨_, hout, ?_, ?_⟩
      · refine lawful_call hlast id rfl ?_ (fun infos hinfos => by cases hinfos) (fun _ => ⟨i, hi, hm⟩)
        intro j hj
        cases hj
        exact h.holds i hi
      · exact ⟨h.model, hm.symm, h.inputs, h.outputs, h.fresh⟩
  | getOutput fails =>
      rcases GetOutput_runtime fails hi with ⟨out, hout, hruntime, hmoments, hinfos⟩
      refine ⟨out, hout, ?_, ?_⟩
      · refine lawful_call hlast id hmoments ?_ (fun infos h' => ?_) (fun _ => ⟨i, hi, hm⟩)
        · rw [hruntime]
          exact h.holds
        · rw [hinfos] at h'
          cases h'
      · have hnext : s.next out (.getOutput fails) = s := by
          simp only [State.next, hruntime]
        rw [hnext]
        exact h

/-- Before the first model, they dereference a null interpreter. -/
theorem call_null (h : Inv s) {a : Act} (hneeds : a.NeedsModel) (hlast : s.last = none) :
    perform s a = none := by
  rcases h.empty hlast with ⟨-, hinterpreter, hinputs, houtputs⟩
  cases a with
  | loadModel file => exact hneeds.elim
  | stop => exact hneeds.elim
  | getInputTensorInfo fails =>
      simp only [perform, Runtime.GetInputTensorInfo, hinterpreter, getTensorInfo_null hinputs,
        Option.map_none]
  | getOutputTensorInfo fails =>
      simp only [perform, Runtime.GetOutputTensorInfo, hinterpreter, getTensorInfo_null houtputs,
        Option.map_none]
  | invoke run input => simp only [perform, Runtime.invoke, hinterpreter]
  | getOutput fails => simp only [perform, Runtime.GetOutput, hinterpreter]

theorem clean_iff_of_needs {a : Act} (hneeds : a.NeedsModel) : Clean s a ↔ s.last ≠ none := by
  cases a with
  | loadModel file => exact hneeds.elim
  | stop => exact hneeds.elim
  | getInputTensorInfo fails => exact Iff.rfl
  | getOutputTensorInfo fails => exact Iff.rfl
  | invoke run input => exact Iff.rfl
  | getOutput fails => exact Iff.rfl

theorem call_laws_iff (h : Inv s) {a : Act} (hneeds : a.NeedsModel) : Laws s a ↔ Clean s a := by
  rw [clean_iff_of_needs hneeds]
  constructor
  · rintro ⟨out, hout, -⟩ hlast
    rw [call_null h hneeds hlast] at hout
    cases hout
  · intro hlast
    rcases call_laws h hneeds hlast with ⟨out, hout, hlawful, -⟩
    exact ⟨out, hout, hlawful⟩

theorem stop_laws (h : Inv s) : Laws s .stop := by
  refine ⟨_, rfl, ?_⟩
  refine
    { holds := ?_, failed := fun hload => hload.elim, described := fun infos hinfos => by cases hinfos
      runs := fun hrun => hrun.elim, unloaded := fun hneeds => hneeds.elim }
  intro r hr
  cases List.mem_singleton.1 hr
  exact h.holds

/-! ## Whole runs -/

/-- The loads, `Stop`, and the calls that speak about a model. -/
theorem Act.kinds (a : Act) : (∃ file, a = .loadModel file) ∨ a = .stop ∨ a.NeedsModel := by
  cases a with
  | loadModel file => exact .inl ⟨file, rfl⟩
  | stop => exact .inr (.inl rfl)
  | getInputTensorInfo fails => exact .inr (.inr trivial)
  | getOutputTensorInfo fails => exact .inr (.inr trivial)
  | invoke run input => exact .inr (.inr trivial)
  | getOutput fails => exact .inr (.inr trivial)

theorem laws_iff_clean (h : Inv s) (a : Act) : Laws s a ↔ Clean s a := by
  rcases a.kinds with ⟨file, rfl⟩ | rfl | hneeds
  · exact load_laws_iff h
  · exact ⟨fun _ => trivial, fun _ => stop_laws h⟩
  · exact call_laws_iff h hneeds

theorem clean_preserved : Run.Preserved step Clean Inv := by
  intro s a t h hclean hstep
  rcases Option.map_eq_some_iff.1 hstep with ⟨out, hout, rfl⟩
  rcases a.kinds with ⟨file, rfl⟩ | rfl | hneeds
  · cases hout
    exact load_keeps h hclean
  · cases hout
    exact ⟨h.model, h.interpreter, h.inputs, h.outputs, h.fresh⟩
  · rcases call_laws h hneeds ((clean_iff_of_needs hneeds).1 hclean) with ⟨out', hout', -, hnext⟩
    cases Option.some.inj (hout.symm.trans hout')
    exact hnext

end Runs

/-- From `Create` on, the runtime speaks about one model in exactly the runs that load one model once
and ask nothing before. -/
theorem one_model_iff (acts : List Act) :
    Run.Along step Laws State.created acts ↔ Run.Along step Clean State.created acts :=
  Run.along_congr clean_preserved (fun _ a h => laws_iff_clean h a) Inv.created

/-! ## A call before the first model -/

/-- Asking for the inputs of nothing dereferences the null interpreter. -/
theorem infos_before_load :
    ¬ Run.Along step Laws State.created [.getInputTensorInfo fun _ => false] := by
  rintro ⟨⟨out, hout, -⟩, -⟩
  cases hout

end TfLite
end Beyond
