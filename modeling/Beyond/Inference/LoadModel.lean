import Beyond.Base.Bytes
import Beyond.Base.Platform
import Beyond.Base.TailCalls

/-!
# The two forms of `LoadModel`

`Inference::impl::local` and `Inference::impl::remote` load a model by its name or from a list of
names.  The form for one name ends in a call of `LoadModel`; which form that is, is decided by the
type of its argument.  A `const char *` selects the form for one name, a `const char **` with a
size the form for a list.

What a runtime or a peer does with a model is a parameter.
-/

namespace Beyond
namespace Inference
namespace LoadModel

open Errno
open TailCalls

/-- The object behind an inference. -/
inductive Instance (ρ π : Type*)
  /-- `Inference::impl::local` with its runtime. -/
  | ofLocal (runtime : Option ρ)
  /-- `Inference::impl::remote` with the selected peer. -/
  | ofRemote (peer : Option π) (modelFile : Bytes)
  deriving DecidableEq, Repr

/-- A call of one of the two forms.  A `none` is a null pointer. -/
inductive Call
  | one (model : Option Bytes)
  /-- Of the array only `model[0]` is read. -/
  | list (model : Option (Option Bytes)) (size : Int)
  deriving DecidableEq, Repr

/-- The instance and the return code when a call returns. -/
abbrev Outcome (ρ π : Type*) := Instance ρ π × Int

section

variable {ρ π : Type*}

-- `LoadModel` of the runtime and of the peer.
variable (loadRuntime : ρ → Bytes → ρ × Int) (loadPeer : π → Bytes → π × Int)

namespace Local

def one (runtime : Option ρ) (model : Option Bytes) : (Instance ρ π × Call) ⊕ Outcome ρ π :=
  match model with
  | none => .inr (.ofLocal runtime, -EINVAL)
  -- The argument is still a `const char *`.
  | some model => .inl (.ofLocal runtime, .one (some model))

def list (runtime : Option ρ) (model : Option (Option Bytes)) (size : Int) : Outcome ρ π :=
  match runtime with
  | none => (.ofLocal none, -EINVAL)
  | some runtime =>
      if size ≤ 0 then (.ofLocal (some runtime), -EINVAL)
      else
        match model with
        | some (some model) =>
            if size ≠ 1 then (.ofLocal (some runtime), -ENOTSUP)
            else (.ofLocal (some (loadRuntime runtime model).1), (loadRuntime runtime model).2)
        | _ => (.ofLocal (some runtime), -EINVAL)

end Local

namespace Remote

def one (peer : Option π) (modelFile : Bytes) (model : Option Bytes) :
    (Instance ρ π × Call) ⊕ Outcome ρ π :=
  match model with
  | none => .inr (.ofRemote peer modelFile, -EINVAL)
  | some model => .inl (.ofRemote peer modelFile, .list (some (some model)) 1)

def list (peer : Option π) (modelFile : Bytes) (model : Option (Option Bytes)) (size : Int) :
    Outcome ρ π :=
  if size ≤ 0 then (.ofRemote peer modelFile, -EINVAL)
  else
    match model with
    | some (some model) =>
        if size ≠ 1 then (.ofRemote peer modelFile, -ENOTSUP)
        else
          match peer with
          -- The name is kept until a peer is chosen.
          | none => (.ofRemote none model, 0)
          | some peer => (.ofRemote (some (loadPeer peer model).1) modelFile, (loadPeer peer model).2)
    | _ => (.ofRemote peer modelFile, -EINVAL)

end Remote

/-- One call: it returns or ends in another call. -/
def step : Instance ρ π × Call → (Instance ρ π × Call) ⊕ Outcome ρ π
  | (.ofLocal runtime, .one model) => Local.one runtime model
  | (.ofLocal runtime, .list model size) => .inr (Local.list loadRuntime runtime model size)
  | (.ofRemote peer modelFile, .one model) => Remote.one peer modelFile model
  | (.ofRemote peer modelFile, .list model size) =>
      .inr (Remote.list loadPeer peer modelFile model size)

/-- The call for one name returns, with the code and in the state of the call for a list of one. -/
def LikeListOfOne (s : Instance ρ π) (model : Option Bytes) : Prop :=
  ∃ r, Returns (step loadRuntime loadPeer) (s, .one model) r ∧
    Returns (step loadRuntime loadPeer) (s, .list (some model) 1) r

/-! ## Null pointers -/

/-- Each form refuses a null pointer, without a runtime or a peer too. -/
theorem likeListOfOne_null (s : Instance ρ π) : LikeListOfOne loadRuntime loadPeer s none := by
  refine ⟨(s, -EINVAL), ?_, ?_⟩
  · cases s with
    | ofLocal runtime => exact .done rfl
    | ofRemote peer modelFile => exact .done rfl
  · cases s with
    | ofLocal runtime =>
        cases runtime with
        | none => exact .done rfl
        | some runtime => exact .done rfl
    | ofRemote peer modelFile => exact .done rfl

/-! ## The local inference -/

/-- The call is a call of itself. -/
theorem local_one_calls_itself (runtime : Option ρ) (model : Bytes) :
    step loadRuntime loadPeer (.ofLocal runtime, .one (some model)) =
      .inl (.ofLocal runtime, .one (some model)) := rfl

theorem local_one_never_returns (runtime : Option ρ) (model : Bytes) (r : Outcome ρ π) :
    ¬ Returns (step loadRuntime loadPeer) (.ofLocal runtime, .one (some model)) r := by
  refine not_returns (I := fun c => c = (.ofLocal runtime, .one (some model))) ?_ rfl r
  rintro c rfl
  exact ⟨_, local_one_calls_itself loadRuntime loadPeer runtime model, rfl⟩

/-! ## The remote inference -/

theorem remote_likeListOfOne (peer : Option π) (modelFile : Bytes) (model : Option Bytes) :
    LikeListOfOne loadRuntime loadPeer (.ofRemote peer modelFile) model := by
  cases model with
  | none => exact likeListOfOne_null loadRuntime loadPeer _
  | some model =>
      -- The address of the argument is a list of one.
      have hnext : step loadRuntime loadPeer (.ofRemote peer modelFile, .one (some model)) =
          .inl (.ofRemote peer modelFile, .list (some (some model)) 1) := rfl
      have hlist : Returns (step loadRuntime loadPeer)
          (.ofRemote peer modelFile, .list (some (some model)) 1)
          (Remote.list loadPeer peer modelFile (some (some model)) 1) := .done rfl
      exact ⟨_, (returns_iff_of_next hnext).2 hlist, hlist⟩

/-- What loading one model comes to, for each instance and each pointer. -/
theorem likeListOfOne_iff (s : Instance ρ π) (model : Option Bytes) :
    LikeListOfOne loadRuntime loadPeer s model ↔
      model = none ∨ ∃ peer modelFile, s = .ofRemote peer modelFile := by
  constructor
  · rintro ⟨r, hone, -⟩
    cases s with
    | ofLocal runtime =>
        cases model with
        | none => exact .inl rfl
        | some model =>
            exact absurd hone (local_one_never_returns loadRuntime loadPeer runtime model r)
    | ofRemote peer modelFile => exact .inr ⟨peer, modelFile, rfl⟩
  · rintro (rfl | ⟨peer, modelFile, rfl⟩)
    · exact likeListOfOne_null loadRuntime loadPeer s
    · exact remote_likeListOfOne loadRuntime loadPeer peer modelFile model

end

/-- A local inference with a runtime that loads anything. -/
theorem local_one_hangs :
    ¬ LikeListOfOne (fun (_ : Unit) _ => ((), 0)) (fun (_ : Unit) _ => ((), 0)) (.ofLocal (some ()))
      (some (Bytes.ascii "model.tflite")) := by
  rintro ⟨r, hone, -⟩
  exact local_one_never_returns _ _ _ _ r hone

end LoadModel
end Inference
end Beyond
