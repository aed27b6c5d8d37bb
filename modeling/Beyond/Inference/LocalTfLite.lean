import Beyond.Inference.Local
import Beyond.Runtime.TfLiteCompute

/-!
# Local inference with TensorFlow Lite

The emulator of `Beyond.Inference.Local` leaves open what its module returns.  Here the module is the
`Runtime` of `runtime_tflite`: the worker calls its `Invoke` and `GetOutput` inside
`CommandInvokeHandler`, and executes the other commands between two invocations.  `AllocateTensor`
touches nothing of the runtime.

The application makes its inputs as the interface asks for: tensors that were allocated by the infos of
the inputs, with data of its own that it leaves alone until the invocation has ended.  Then each output
that it gets is what the model makes of the input of the same invocation.
-/

namespace Beyond
namespace Inference
namespace LocalTfLite

open EventLoop EventObject Errno Events Relay
open Beyond.Runtime
open TfLite (Computes File Interpretation Result Semantics Tensor TensorInfo)

variable {η δ : Type*}

/-! ## State -/

structure State (η δ : Type*) where
  inference : Local.State (List Tensor) η δ
  runtime : TfLite.State
  /-- What `GetInputTensorInfo` has passed back. -/
  infos : List (List TensorInfo)
  /-- What `AllocateTensor` has passed back. -/
  tensors : List (List Tensor)
  /-- The tensors that came with the `Invoke` of a record. -/
  inputOf : Nat → Option (List Tensor)

inductive Act (η δ : Type*)
  /-- A step in which the worker does not call the runtime. -/
  | inference (a : Local.Act (List Tensor) η δ)
  | invoke (run : Interpretation)
  | getOutput (fails : Nat → Bool)
  /-- The worker executes another command. -/
  | command (a : TfLite.Act)
  | allocateTensor (infos : List TensorInfo) (contents : Nat → Nat → UInt8) (fails : Nat → Bool)

namespace State

variable (s : State η δ)

def emulator : Async.State (List Tensor) δ := s.inference.emulator

end State

/-! ## Steps -/

/-- The worker calls the module for these. -/
def callsModule {τ : Type*} : Async.Act τ δ → Bool
  | .moduleInvoke _ => true
  | .moduleGetOutput _ _ => true
  | _ => false

def callsRuntime : Local.Act (List Tensor) η δ → Bool
  | .backend _ b _ => callsModule b
  | _ => false

/-- What comes with an `Invoke` that gets a record. -/
def passed {τ : Type*} : Async.Act τ δ → Option τ
  | .invoke tensor _ true _ => some tensor
  | _ => none

def inputOf : Local.Act (List Tensor) η δ → Option (List Tensor)
  | .backend _ b _ => passed b
  | _ => none

/-- The infos of a `GetInputTensorInfo`. -/
def inputInfos (a : TfLite.Act) (out : TfLite.Outcome) : List (List TensorInfo) :=
  match a with
  | .getInputTensorInfo _ => out.infos.toList
  | _ => []

/-- `Invoke` and `GetOutput` are called by `CommandInvokeHandler` only. -/
def isCommand : TfLite.Act → Bool
  | .invoke _ _ | .getOutput _ => false
  | _ => true

section Steps

variable [DecidableEq η] [DecidableEq δ] (setup : Setup η δ)

def inference (s : State η δ) (a : Local.Act (List Tensor) η δ) : Option (State η δ) :=
  if callsRuntime a then none
  else
    (Local.step setup s.inference a).map fun t =>
      { s with
        inference := t
        inputOf :=
          match inputOf a with
          | some tensor => Function.update s.inputOf s.emulator.allocated (some tensor)
          | none => s.inputOf }

def invoke (s : State η δ) (run : Interpretation) : Option (State η δ) :=
  match s.emulator.worker with
  | .invoking arg =>
      (TfLite.perform s.runtime (.invoke run arg.tensor)).bind fun out =>
        (Local.step setup s.inference (.backend () (.moduleInvoke out.ret) 0)).map fun t =>
          { s with inference := t, runtime := s.runtime.next out (.invoke run arg.tensor) }
  | _ => none

def getOutput (s : State η δ) (fails : Nat → Bool) : Option (State η δ) :=
  (TfLite.perform s.runtime (.getOutput fails)).bind fun out =>
    -- A `GetOutput` that fails leaves a null pointer in the record.
    (Local.step setup s.inference
        (.backend () (.moduleGetOutput out.ret (out.tensors.getD [])) 0)).map fun t =>
      { s with inference := t, runtime := s.runtime.next out (.getOutput fails) }

def command (s : State η δ) (a : TfLite.Act) : Option (State η δ) :=
  match s.emulator.worker with
  | .idle =>
      if isCommand a then
        (TfLite.perform s.runtime a).map fun out =>
          { s with runtime := s.runtime.next out a, infos := s.infos ++ inputInfos a out }
      else none
  | _ => none

def allocateTensor (s : State η δ) (infos : List TensorInfo) (contents : Nat → Nat → UInt8)
    (fails : Nat → Bool) : State η δ :=
  match TfLite.AllocateTensor contents fails infos with
  | .error _ => s
  | .ok tensors => { s with tensors := s.tensors ++ [tensors] }

def step (s : State η δ) : Act η δ → Option (State η δ)
  | .inference a => inference setup s a
  | .invoke run => invoke setup s run
  | .getOutput fails => getOutput setup s fails
  | .command a => command s a
  | .allocateTensor infos contents fails => some (allocateTensor s infos contents fails)

/-- A runtime that was just created, added to an inference. -/
def State.start (own application : List (Registration η δ)) : State η δ where
  inference := Local.State.start setup own application
  runtime := .created
  infos := []
  tensors := []
  inputOf _ := none

/-! ## The property -/

/-- The file of a `LoadModel` holds a regular graph. -/
def RegularFile : TfLite.Act → Prop
  | .loadModel file => ∀ g ∈ file.graph, g.Regular
  | _ => True

/-- The inference as in `Beyond.Inference.Local`.  Tensors are allocated by infos that
`GetInputTensorInfo` has passed back, and the inputs are such tensors with other data; one model is
loaded, before anything else is asked. -/
def Sound (s : State η δ) : Act η δ → Prop
  | .inference a => Local.Sound setup s.inference a ∧
      ∀ tensor ∈ inputOf a, ∃ buffers ∈ s.tensors,
        tensor.map Tensor.shape = buffers.map Tensor.shape
  | .invoke _ => True
  | .getOutput fails => ∀ out ∈ TfLite.perform s.runtime (.getOutput fails), 0 ≤ out.ret
  | .command a => TfLite.Clean s.runtime a ∧ RegularFile a
  | .allocateTensor infos _ _ => infos ∈ s.infos

instance (s : TfLite.State) : (a : TfLite.Act) → Decidable (TfLite.Clean s a)
  | .loadModel file => inferInstanceAs (Decidable (file.access = false ∨
      (s.last = none ∧ (file.graph = none ∨ file.builder ≠ .built ∨ file.allocates = true))))
  | .stop => inferInstanceAs (Decidable True)
  | .getInputTensorInfo _ | .getOutputTensorInfo _ | .invoke _ _ | .getOutput _ =>
      inferInstanceAs (Decidable (s.last ≠ none))

instance : (a : TfLite.Act) → Decidable (RegularFile a)
  | .loadModel file => inferInstanceAs (Decidable (∀ g ∈ file.graph, g.Regular))
  | .getInputTensorInfo _ | .getOutputTensorInfo _ | .invoke _ _ | .getOutput _ | .stop =>
      inferInstanceAs (Decidable True)

instance (s : State η δ) : (a : Act η δ) → Decidable (Sound setup s a)
  | .inference a => inferInstanceAs (Decidable (Local.Sound setup s.inference a ∧
      ∀ tensor ∈ inputOf a, ∃ buffers ∈ s.tensors,
        tensor.map Tensor.shape = buffers.map Tensor.shape))
  | .invoke _ => inferInstanceAs (Decidable True)
  | .getOutput fails => inferInstanceAs (Decidable
      (∀ out ∈ TfLite.perform s.runtime (.getOutput fails), 0 ≤ out.ret))
  | .command a => inferInstanceAs (Decidable (TfLite.Clean s.runtime a ∧ RegularFile a))
  | .allocateTensor infos _ _ => inferInstanceAs (Decidable (infos ∈ s.infos))

/-- What the interpreter does in an `Invoke`. -/
def Act.interpretation : Act η δ → Option Interpretation
  | .invoke run => some run
  | _ => none

/-- The tensors are what the loaded model makes of those that came with the record. -/
def State.Computed (f : Semantics) (s : State η δ) (record : Nat) (output : List Tensor) : Prop :=
  ∃ m input, s.runtime.last = some m ∧ s.inputOf record = some input ∧ Result f m.graph input output

/-- What the application gets out of it. -/
structure Served (f : Semantics) (s : State η δ) : Prop where
  relayed : Relayed Local.runtime Local.calls Prod.snd s.inference ()
  answered : Local.Answered s.inference
  /-- Each output that it has got is that of the model for the input of the same invocation. -/
  computed : ∀ p ∈ s.emulator.taken, s.Computed f p.1 p.2
  /-- The worker never calls a runtime without an interpreter. -/
  loaded : s.emulator.worker.held ≠ [] → s.runtime.runtime.interpreter ≠ none

end Steps

/-! ## Tensors on their way through the emulator -/

section Carried

variable {τ : Type*}

/-- What is known of the tensors that the worker has in hand. -/
def InHand (given computed : Nat → τ → Prop) (ran : τ → Prop) : Async.Worker τ δ → Prop
  | .idle => True
  | .received arg => given arg.record arg.tensor
  | .invoking arg => given arg.record arg.tensor
  | .fetching arg type => given arg.record arg.tensor ∧ (type = .inferenceSuccess → ran arg.tensor)
  | .sending arg type => (∃ input, given arg.record input) ∧
      (type = .inferenceSuccess → computed arg.record arg.tensor)
  | .publishing _ => True

/-- `given` holds of what came with an `Invoke`, `ran` of what the module was invoked on last, and
`computed` of what it gave for it. -/
structure Carries (given computed : Nat → τ → Prop) (ran : τ → Prop) (e : Async.State τ δ) : Prop where
  command : ∀ arg ∈ e.command, given arg.record arg.tensor
  worker : InHand given computed ran e.worker
  output : ∀ arg ∈ e.output, computed arg.record arg.tensor
  taken : ∀ p ∈ e.taken, computed p.1 p.2

variable {given given' computed computed' : Nat → τ → Prop} {ran ran' : τ → Prop}
  {e e' : Async.State τ δ}

theorem carries_start : Carries given computed ran (Async.State.start : Async.State τ δ) := by
  constructor
  case worker => exact trivial
  all_goals
    intro x hx
    cases hx

theorem Carries.mono (h : Carries given computed ran e) (hgiven : ∀ n x, given n x → given' n x)
    (hcomputed : ∀ n x, computed n x → computed' n x)
    (hran : ∀ arg type, e.worker = .fetching arg type → ran arg.tensor → ran' arg.tensor) :
    Carries given' computed' ran' e := by
  refine ⟨fun arg harg => hgiven _ _ (h.command arg harg), ?_,
    fun arg harg => hcomputed _ _ (h.output arg harg), fun p hp => hcomputed _ _ (h.taken p hp)⟩
  have hworker := h.worker
  cases hw : e.worker with
  | idle => exact trivial
  | received arg | invoking arg =>
      rw [hw] at hworker
      exact hgiven _ _ hworker
  | fetching arg type =>
      rw [hw] at hworker
      exact ⟨hgiven _ _ hworker.1, fun htype => hran arg type hw (hworker.2 htype)⟩
  | sending arg type =>
      rw [hw] at hworker
      rcases hworker with ⟨⟨input, hinput⟩, houtput⟩
      exact ⟨⟨input, hgiven _ _ hinput⟩, fun htype => hcomputed _ _ (houtput htype)⟩
  | publishing eventData => exact trivial

/-- A step in which the worker does not call the module. -/
theorem carries_step {b : Async.Act τ δ} (hc : Carries given computed ran e)
    (hsound : Async.Sound e b) (hmodule : callsModule b = false)
    (hpassed : ∀ tensor ∈ passed b, given e.allocated tensor) (h : Async.step e b = some e') :
    Carries given computed ran e' := by
  have hworker := hc.worker
  cases b with
  | invoke tensor context allocated sent =>
      cases h
      unfold Async.invoke
      split
      · exact hc
      · rename_i hallocated
        rw [Bool.not_eq_false] at hallocated
        subst hallocated
        split
        · exact ⟨hc.command, hc.worker, hc.output, hc.taken⟩
        · refine ⟨fun arg harg => ?_, hc.worker, hc.output, hc.taken⟩
          rcases List.mem_append.1 harg with hold | hnew
          · exact hc.command arg hold
          · rw [List.mem_singleton.1 hnew]
            exact hpassed tensor rfl
  | getOutput recv =>
      simp only [Async.step, Async.getOutput] at h
      split at h
      · cases h
        exact hc
      · split at h
        · cases h
        · rename_i arg rest houtput
          have hrest : ∀ other ∈ rest, computed other.record other.tensor := fun other hother =>
            hc.output other (houtput ▸ List.mem_cons_of_mem arg hother)
          split at h
          · cases h
            exact ⟨hc.command, hc.worker, hrest, hc.taken⟩
          · cases h
            refine ⟨hc.command, hc.worker, hrest, fun p hp => ?_⟩
            rcases List.mem_append.1 hp with hold | hnew
            · exact hc.taken p hold
            · rw [List.mem_singleton.1 hnew]
              exact hc.output arg (houtput ▸ List.mem_cons_self)
  | receive =>
      simp only [Async.step, Async.receive] at h
      split at h
      · rename_i arg rest hidle hcommand
        cases h
        have hrest : ∀ other ∈ rest, given other.record other.tensor := fun other hother =>
          hc.command other (hcommand ▸ List.mem_cons_of_mem arg hother)
        exact ⟨hrest, hc.command arg (hcommand ▸ List.mem_cons_self), hc.output, hc.taken⟩
      · cases h
  | newEventData allocated =>
      simp only [Async.step, Async.newEventData] at h
      split at h
      · rename_i arg hreceived
        rw [hreceived] at hworker
        split at h
        · cases h
          exact ⟨hc.command, trivial, hc.output, hc.taken⟩
        · cases h
          exact ⟨hc.command, hworker, hc.output, hc.taken⟩
      · cases h
  | moduleInvoke ret => cases hmodule
  | moduleGetOutput ret tensor => cases hmodule
  | send ret =>
      simp only [Async.step, Async.send] at h
      split at h
      · rename_i arg type hsending
        rw [hsending] at hworker
        split at h
        · cases h
          exact ⟨hc.command, trivial, hc.output, hc.taken⟩
        · rename_i hsent
          -- Only the record of a success is queued.
          have htype : type = .inferenceSuccess := by
            have hfailed := hsound.resolve_left hsent
            rw [hsending] at hfailed
            cases type with
            | inferenceSuccess => rfl
            | inferenceError => cases hfailed
          cases h
          refine ⟨hc.command, trivial, fun other hother => ?_, hc.taken⟩
          rcases List.mem_append.1 hother with hold | hnew
          · exact hc.output other hold
          · rw [List.mem_singleton.1 hnew]
            exact hworker.2 htype
      · cases h
  | publish ret =>
      simp only [Async.step, Async.publish] at h
      split at h
      · split at h
        · cases h
          exact ⟨hc.command, trivial, hc.output, hc.taken⟩
        · cases h
          exact ⟨hc.command, trivial, hc.output, hc.taken⟩
      · cases h

theorem carries_moduleInvoke {arg : Async.CommandData τ δ} {ret : Int}
    (hc : Carries given computed ran e) (hworker : e.worker = .invoking arg)
    (hran : 0 ≤ ret → ran' arg.tensor) (h : Async.moduleInvoke e ret = some e') :
    Carries given computed ran' e' := by
  have hgiven := hc.worker
  rw [hworker] at hgiven
  simp only [Async.moduleInvoke, hworker] at h
  cases h
  refine ⟨hc.command, ⟨hgiven, fun htype => hran ?_⟩, hc.output, hc.taken⟩
  by_contra hneg
  rw [if_pos (not_le.1 hneg)] at htype
  cases htype

theorem carries_moduleGetOutput {tensor : τ} {ret : Int} (hc : Carries given computed ran e)
    (hret : 0 ≤ ret)
    (hcomputed : ∀ arg type, e.worker = .fetching arg type → given arg.record arg.tensor →
      ran arg.tensor → computed arg.record tensor)
    (h : Async.moduleGetOutput e ret tensor = some e') : Carries given computed ran e' := by
  have hworker := hc.worker
  unfold Async.moduleGetOutput at h
  split at h
  · rename_i arg type hfetching
    rw [hfetching] at hworker
    rw [if_neg (not_lt.2 hret)] at h
    cases h
    exact ⟨hc.command, ⟨⟨arg.tensor, hworker.1⟩, fun htype =>
      hcomputed arg type hfetching hworker.1 (hworker.2 htype)⟩, hc.output, hc.taken⟩
  · cases h

/-- Records are numbered on. -/
theorem allocated_le {b : Async.Act τ δ} (h : Async.step e b = some e') :
    e.allocated ≤ e'.allocated := by
  cases b with
  | invoke tensor context allocated sent =>
      cases h
      unfold Async.invoke
      split
      · exact Nat.le_refl _
      · split
        · exact Nat.le_succ _
        · exact Nat.le_succ _
  | getOutput recv =>
      simp only [Async.step, Async.getOutput] at h
      split at h
      · cases h
        exact Nat.le_refl _
      · split at h
        · cases h
        · split at h <;> cases h <;> exact Nat.le_refl _
  | receive =>
      simp only [Async.step, Async.receive] at h
      split at h <;> cases h
      exact Nat.le_refl _
  | newEventData allocated =>
      simp only [Async.step, Async.newEventData] at h
      split at h
      · split at h <;> cases h <;> exact Nat.le_refl _
      · cases h
  | moduleInvoke ret =>
      simp only [Async.step, Async.moduleInvoke] at h
      split at h <;> cases h
      exact Nat.le_refl _
  | moduleGetOutput ret tensor =>
      simp only [Async.step, Async.moduleGetOutput] at h
      split at h
      · split at h <;> cases h <;> exact Nat.le_refl _
      · cases h
  | send ret =>
      simp only [Async.step, Async.send] at h
      split at h
      · split at h <;> cases h <;> exact Nat.le_refl _
      · cases h
  | publish ret =>
      simp only [Async.step, Async.publish] at h
      split at h
      · split at h <;> cases h <;> exact Nat.le_refl _
      · cases h

theorem allocated_passed {b : Async.Act τ δ} {tensor : τ} (hpassed : passed b = some tensor)
    (h : Async.step e b = some e') : e'.allocated = e.allocated + 1 := by
  cases b with
  | invoke given context allocated sent =>
      cases allocated with
      | false => cases hpassed
      | true =>
          cases h
          simp only [Async.invoke, Bool.true_eq_false, if_false]
          split <;> rfl
  | _ => cases hpassed

end Carried

/-! ## The invariant -/

section Inference

variable [DecidableEq η] [DecidableEq δ] {setup : Setup η δ} {f : Semantics} {s s' : State η δ}

/-- One tensor for each input of the loaded model came with the `Invoke` of the record. -/
def State.Given (s : State η δ) (record : Nat) (input : List Tensor) : Prop :=
  s.inputOf record = some input ∧ ∃ m, s.runtime.last = some m ∧ TfLite.Fits m.graph input

/-- The interpreter holds what its model makes of the input. -/
def Ran (f : Semantics) (r : TfLite.Runtime) (input : List Tensor) : Prop :=
  ∃ i, r.interpreter = some i ∧ ∀ j ∈ i.model.graph.outputs,
    (i.memory.tensor j).data = f i.model.graph (input.map Tensor.data) j

structure Inv (f : Semantics) (s : State η δ) : Prop where
  runtime : TfLite.Inv s.runtime
  regular : ∀ m, s.runtime.last = some m → m.graph.Regular
  infos : ∀ infos ∈ s.infos, ∃ m, s.runtime.last = some m ∧
    infos = TfLite.describe m.graph m.graph.inputs
  tensors : ∀ buffers ∈ s.tensors, ∃ infos ∈ s.infos,
    buffers.map Tensor.shape = infos.map TensorInfo.shape
  recorded : ∀ n, s.emulator.allocated ≤ n → s.inputOf n = none
  carries : Carries s.Given (s.Computed f) (Ran f s.runtime.runtime) s.emulator

/-- Nothing of what was loaded or passed is forgotten. -/
structure Kept (s s' : State η δ) : Prop where
  last : ∀ m, s.runtime.last = some m → s'.runtime.last = some m
  inputOf : ∀ n input, s.inputOf n = some input → s'.inputOf n = some input

omit [DecidableEq η] [DecidableEq δ] in
theorem Kept.given (h : Kept s s') {record : Nat} {input : List Tensor}
    (hgiven : s.Given record input) : s'.Given record input := by
  rcases hgiven with ⟨hinput, m, hm, hfits⟩
  exact ⟨h.inputOf _ _ hinput, m, h.last m hm, hfits⟩

omit [DecidableEq η] [DecidableEq δ] in
theorem Kept.computed (h : Kept s s') {record : Nat} {output : List Tensor}
    (hcomputed : s.Computed f record output) : s'.Computed f record output := by
  rcases hcomputed with ⟨m, input, hm, hinput, hresult⟩
  exact ⟨m, input, h.last m hm, h.inputOf _ _ hinput, hresult⟩

theorem inv_start (own application : List (Registration η δ)) :
    Inv f (State.start setup own application : State η δ) where
  runtime := TfLite.Inv.created
  regular := by
    intro m hm
    cases hm
  infos := by
    intro infos hinfos
    cases hinfos
  tensors := by
    intro buffers hbuffers
    cases hbuffers
  recorded := fun _ _ => rfl
  carries := carries_start

/-! ## Steps of the inference -/

/-- What the emulator does is a step of its own. -/
theorem backend_step {b : Async.Act (List Tensor) δ} {addr : Nat}
    {t : Local.State (List Tensor) η δ}
    (h : Local.step setup s.inference (.backend () b addr) = some t) :
    Async.step s.emulator b = some t.emulator := by
  rcases backend_own h with ⟨e, hstep, hbackend⟩
  have he : t.emulator = e := by
    simp only [Local.State.emulator, hbackend, Function.update_self]
  rw [he]
  exact hstep

/-- The emulator takes a step of its own, or none. -/
theorem emulator_step {a : Local.Act (List Tensor) η δ} {t : Local.State (List Tensor) η δ}
    (hsound : Local.Sound setup s.inference a) (h : Local.step setup s.inference a = some t) :
    (∃ b addr, a = .backend () b addr ∧ Async.Sound s.emulator b ∧
        Async.step s.emulator b = some t.emulator) ∨
      (inputOf a = none ∧ t.emulator = s.emulator) := by
  cases a with
  | backend p b addr =>
      cases p
      exact .inl ⟨b, addr, rfl, hsound, backend_step h⟩
  | exhausted p => exact hsound.elim
  | event a => exact .inr ⟨rfl, congrFun (event_frame h).2.1 ()⟩

omit [DecidableEq η] [DecidableEq δ] in
/-- Tensors that were allocated by the infos of the inputs fit, with whatever data. -/
theorem Inv.fits (hs : Inv f s) {tensor buffers : List Tensor} (hbuffers : buffers ∈ s.tensors)
    (hshape : tensor.map Tensor.shape = buffers.map Tensor.shape) :
    ∃ m, s.runtime.last = some m ∧ TfLite.Fits m.graph tensor := by
  rcases hs.tensors buffers hbuffers with ⟨infos, hinfos, hallocated⟩
  rcases hs.infos infos hinfos with ⟨m, hm, rfl⟩
  exact ⟨m, hm, TfLite.fits_of_shape (hs.regular m hm) (hshape.trans hallocated)⟩

theorem inv_inference {a : Local.Act (List Tensor) η δ} (hs : Inv f s)
    (hsound : Sound setup s (.inference a)) (h : inference setup s a = some s') : Inv f s' := by
  rcases hsound with ⟨hlocal, hallocated⟩
  unfold inference at h
  split at h
  · cases h
  · rename_i hmodule
    rcases Option.map_eq_some_iff.1 h with ⟨t, ht, rfl⟩
    rcases emulator_step hlocal ht with ⟨b, addr, rfl, hb, hstep⟩ | ⟨hnone, hsame⟩
    · have hquiet : callsModule b = false := Bool.eq_false_iff.2 hmodule
      cases hpassed : passed b with
      | none =>
          simp only [inputOf, hpassed]
          refine ⟨hs.runtime, hs.regular, hs.infos, hs.tensors, fun n hn => ?_, ?_⟩
          · exact hs.recorded n ((allocated_le hstep).trans hn)
          · exact carries_step hs.carries hb hquiet (by simp [hpassed]) hstep
      | some tensor =>
          have hnext := allocated_passed hpassed hstep
          simp only [inputOf, hpassed] at hallocated ⊢
          rcases hallocated tensor rfl with ⟨buffers, hbuffers, hshape⟩
          have hfresh := hs.recorded s.emulator.allocated (Nat.le_refl _)
          set s' : State η δ := { s with
            inference := t
            inputOf := Function.update s.inputOf s.emulator.allocated (some tensor) } with hs'
          have hkept : Kept s s' := by
            refine ⟨fun m hm => hm, fun n input hinput => ?_⟩
            have hne : n ≠ s.emulator.allocated := by
              rintro rfl
              rw [hfresh] at hinput
              cases hinput
            exact (Function.update_of_ne hne _ _).trans hinput
          have hgiven : s'.Given s.emulator.allocated tensor :=
            ⟨Function.update_self _ _ _, hs.fits hbuffers hshape⟩
          refine ⟨hs.runtime, hs.regular, hs.infos, hs.tensors, fun n hn => ?_, ?_⟩
          · have hlt : s.emulator.allocated < n := Nat.lt_of_succ_le (hnext.ge.trans hn)
            exact (Function.update_of_ne hlt.ne' _ _).trans (hs.recorded n hlt.le)
          · refine carries_step (hs.carries.mono (fun _ _ => hkept.given) (fun _ _ => hkept.computed)
              fun _ _ _ hran => hran) hb hquiet (fun other hother => ?_) hstep
            cases Option.some.inj (hpassed.symm.trans hother)
            exact hgiven
    · simp only [hnone]
      refine ⟨hs.runtime, hs.regular, hs.infos, hs.tensors, fun n hn => ?_, ?_⟩
      · exact hs.recorded n (hsame ▸ hn)
      · have hcarries := hs.carries
        rw [← hsame] at hcarries
        exact hcarries

/-! ## Calls of the runtime -/

/-- A clean call keeps to the model that was loaded before. -/
theorem last_kept {r : TfLite.State} {a : TfLite.Act} {out : TfLite.Outcome} (hr : TfLite.Inv r)
    (hclean : TfLite.Clean r a) (hout : TfLite.perform r a = some out)
    {m : TfLite.FlatBufferModel} (hm : r.last = some m) : (r.next out a).last = some m := by
  cases a with
  | loadModel file =>
      cases hout
      rcases (TfLite.load_cases hr hclean).2 with ⟨-, hret⟩ | ⟨graph, hlast, -⟩
      · simp only [TfLite.State.next, if_neg hret.ne, hm]
      · rw [hlast] at hm
        cases hm
  | _ => exact hm

/-- What is loaded by a command is the graph of a regular file. -/
theorem regular_kept {r : TfLite.State} {a : TfLite.Act} {out : TfLite.Outcome}
    (hregular : ∀ m, r.last = some m → m.graph.Regular) (hfile : RegularFile a)
    (hout : TfLite.perform r a = some out) :
    ∀ m, (r.next out a).last = some m → m.graph.Regular := by
  cases a with
  | loadModel file =>
      cases hout
      intro m hm
      simp only [TfLite.State.next] at hm
      split at hm
      · rename_i hret
        exact hfile m.graph (TfLite.LoadModel_graph hret hm)
      · exact hregular m hm
  | _ => exact hregular

/-- The infos of the inputs are those of the loaded model. -/
theorem inputInfos_described {r : TfLite.State} {a : TfLite.Act} {out : TfLite.Outcome}
    (hlawful : TfLite.LawfulCall r a out) {infos : List TensorInfo}
    (hinfos : infos ∈ inputInfos a out) :
    ∃ m, r.last = some m ∧ infos = TfLite.describe m.graph m.graph.inputs := by
  cases a with
  | getInputTensorInfo fails => exact hlawful.described infos (Option.mem_toList.1 hinfos)
  | _ => cases hinfos

omit [DecidableEq η] [DecidableEq δ] in
theorem inv_command {a : TfLite.Act} (hs : Inv f s) (hclean : TfLite.Clean s.runtime a)
    (hfile : RegularFile a) (h : command s a = some s') : Inv f s' := by
  unfold command at h
  split at h
  · rename_i hidle
    split at h
    · rcases Option.map_eq_some_iff.1 h with ⟨out, hout, rfl⟩
      rcases (TfLite.laws_iff_clean hs.runtime a).2 hclean with ⟨out', hout', hlawful⟩
      cases Option.some.inj (hout.symm.trans hout')
      have hlast : ∀ m, s.runtime.last = some m → (s.runtime.next out a).last = some m :=
        fun _ hm => last_kept hs.runtime hclean hout hm
      set s' : State η δ := { s with
        runtime := s.runtime.next out a
        infos := s.infos ++ inputInfos a out } with hs'
      have hkept : Kept s s' := ⟨hlast, fun _ _ hinput => hinput⟩
      refine ⟨?_, regular_kept hs.regular hfile hout, fun infos hinfos => ?_,
        fun buffers hbuffers => ?_, hs.recorded, ?_⟩
      · exact TfLite.clean_preserved hs.runtime hclean (congrArg (Option.map _) hout)
      · have hdescribed : ∃ m, s.runtime.last = some m ∧
            infos = TfLite.describe m.graph m.graph.inputs := by
          rcases List.mem_append.1 hinfos with hold | hnew
          · exact hs.infos infos hold
          · exact inputInfos_described hlawful hnew
        rcases hdescribed with ⟨m, hm, rfl⟩
        exact ⟨m, hlast m hm, rfl⟩
      · rcases hs.tensors buffers hbuffers with ⟨infos, hinfos, hshape⟩
        exact ⟨infos, List.mem_append_left _ hinfos, hshape⟩
      · -- The worker has no tensors in hand while it executes the command.
        refine hs.carries.mono (fun _ _ => hkept.given) (fun _ _ => hkept.computed)
          fun arg type hfetching _ => ?_
        rw [hidle] at hfetching
        cases hfetching
    · cases h
  · cases h

omit [DecidableEq η] [DecidableEq δ] in
theorem inv_allocateTensor {infos : List TensorInfo} {contents : Nat → Nat → UInt8}
    {fails : Nat → Bool} (hs : Inv f s) (hinfos : infos ∈ s.infos) :
    Inv f (allocateTensor s infos contents fails) := by
  unfold allocateTensor
  split
  · exact hs
  · rename_i tensors hallocated
    refine ⟨hs.runtime, hs.regular, hs.infos, fun buffers hbuffers => ?_, hs.recorded, hs.carries⟩
    rcases List.mem_append.1 hbuffers with hold | hnew
    · exact hs.tensors buffers hold
    · rw [List.mem_singleton.1 hnew]
      exact ⟨infos, hinfos, TfLite.AllocateTensor_shape hallocated⟩

omit [DecidableEq η] [DecidableEq δ] in
/-- The interpreter is there, and its model is the one that was loaded. -/
theorem Inv.interpreter (hs : Inv f s) {m : TfLite.FlatBufferModel}
    (hm : s.runtime.last = some m) :
    ∃ memory : TfLite.Memory m.graph, s.runtime.runtime.interpreter = some ⟨m, memory⟩ := by
  rcases hs.runtime.loaded (by simp [hm]) with ⟨i, hi, hlast⟩
  cases Option.some.inj (hm.symm.trans hlast)
  exact ⟨i.memory, hi⟩

theorem inv_invoke {run : Interpretation} (hs : Inv f s) (hrun : Computes run f)
    (h : invoke setup s run = some s') : Inv f s' := by
  unfold invoke at h
  split at h
  · rename_i arg hinvoking
    rcases Option.bind_eq_some_iff.1 h with ⟨out, hout, hnext⟩
    rcases Option.map_eq_some_iff.1 hnext with ⟨t, ht, rfl⟩
    have hgiven := hs.carries.worker
    rw [hinvoking] at hgiven
    rcases hgiven with ⟨-, m, hm, hfits⟩
    rcases hs.interpreter hm with ⟨memory, hi⟩
    have hclean : TfLite.Clean s.runtime (.invoke run arg.tensor) := by
      change s.runtime.last ≠ none
      simp [hm]
    have hstep := backend_step ht
    refine ⟨TfLite.clean_preserved hs.runtime hclean (congrArg (Option.map _) hout), hs.regular,
      hs.infos, hs.tensors, fun n hn => ?_, ?_⟩
    · exact hs.recorded n ((allocated_le hstep).trans hn)
    · refine carries_moduleInvoke hs.carries hinvoking (fun hret => ?_) hstep
      simp only [TfLite.perform, TfLite.Runtime.invoke, hi] at hout
      cases hout
      exact ⟨_, rfl, TfLite.Invoke_computes hrun (hs.regular m hm) memory hfits hret⟩
  · cases h

theorem inv_getOutput {fails : Nat → Bool} (hs : Inv f s)
    (hsound : ∀ out ∈ TfLite.perform s.runtime (.getOutput fails), 0 ≤ out.ret)
    (h : getOutput setup s fails = some s') : Inv f s' := by
  rcases Option.bind_eq_some_iff.1 h with ⟨out, hout, hnext⟩
  rcases Option.map_eq_some_iff.1 hnext with ⟨t, ht, rfl⟩
  have hstep := backend_step ht
  have hsame : out.runtime = s.runtime.runtime := by
    cases hi : s.runtime.runtime.interpreter with
    | none => simp [TfLite.perform, TfLite.Runtime.GetOutput, hi] at hout
    | some i =>
        rcases TfLite.GetOutput_runtime fails hi with ⟨out', hout', hruntime, -⟩
        cases Option.some.inj (hout.symm.trans hout')
        exact hruntime
  have hstate : s.runtime.next out (.getOutput fails) = s.runtime := by
    simp only [TfLite.State.next, hsame]
  rw [hstate]
  refine ⟨hs.runtime, hs.regular, hs.infos, hs.tensors, fun n hn => ?_, ?_⟩
  · exact hs.recorded n ((allocated_le hstep).trans hn)
  · refine carries_moduleGetOutput hs.carries (hsound out hout) (fun arg type _ hgiven hran => ?_) hstep
    rcases hgiven with ⟨hinput, m, hm, -⟩
    rcases hs.interpreter hm with ⟨memory, hi⟩
    rcases hran with ⟨i, hi', hdata⟩
    cases Option.some.inj (hi.symm.trans hi')
    rcases TfLite.GetOutput_result hi (hs.regular m hm) hdata hout (hsound out hout) with
      ⟨output, houtput, hresult⟩
    rw [houtput]
    exact ⟨m, arg.tensor, hm, hinput, hresult⟩

/-! ## Runs -/

theorem inv_step {a : Act η δ} (hs : Inv f s) (hsound : Sound setup s a)
    (hcomputes : ∀ run ∈ a.interpretation, Computes run f) (h : step setup s a = some s') :
    Inv f s' := by
  cases a with
  | inference a => exact inv_inference hs hsound h
  | invoke run => exact inv_invoke hs (hcomputes run rfl) h
  | getOutput fails => exact inv_getOutput hs hsound h
  | command a => exact inv_command hs hsound.1 hsound.2 h
  | allocateTensor infos contents fails =>
      cases h
      exact inv_allocateTensor hs hsound

end Inference

/-! ## A model that copies -/

/-- A graph with one input and one output, both of two bytes. -/
def pair : TfLite.Graph := ⟨[0], [1], fun _ => ⟨.uint8, [1, 2], [2], by decide⟩⟩

/-- An interpreter that knows only such graphs: it copies the input to the output. -/
def copies : Interpretation := fun g m =>
  match g.inputs, g.outputs with
  | [i], [j] =>
      if (m.tensor i).bytes = (m.tensor j).bytes then (true, m.write j (m.tensor i).data)
      else (false, m)
  | _, _ => (false, m)

/-- The tensor of the input, with data of the application. -/
def given : Tensor := ⟨Inference.TensorType.uint8.code, 2, [5, 6], by decide, by decide⟩

end LocalTfLite
end Inference
end Beyond
