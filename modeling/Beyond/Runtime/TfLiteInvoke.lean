import Beyond.Runtime.TfLite

/-!
# The inputs of an inference

`Runtime::Invoke` copies the tensors of its caller into the inputs of the model and runs the
interpreter.  `Lawful` says that the interpreter only runs on inputs that were copied in full.
-/

namespace Beyond
namespace TfLite

open Errno
open Inference (TensorType)

variable {g : Graph}

/-- The tensor has the size of the input. -/
def SizeMatches (g : Graph) (p : Nat × Tensor) : Prop := ((g.tensor p.1).bytes : Int) = p.2.size

/-- A `memcpy` inside its source and its destination. -/
def Event.Bounded : Event → Prop
  | .copy _ source room count => count ≤ source.length ∧ count ≤ room
  | .run => True

/-- One copy of each tensor into its input. -/
def fullCopies (g : Graph) (inputs : List Nat) (input : List Tensor) : List Event :=
  (inputs.zip input).map fun p => copyEvent (g.tensor p.1) p.1 p.2

structure Lawful (g : Graph) (input : List Tensor) (out : Invoked g) : Prop where
  computed : out.ret = 0 → input.length = g.inputs.length ∧
    (∀ p ∈ g.inputs.zip input, SizeMatches g p) ∧
      out.events = fullCopies g g.inputs input ++ [.run]
  refused : (∃ p ∈ g.inputs.zip input, ¬ SizeMatches g p) → out.ret < 0 ∧ .run ∉ out.events
  bounded : ∀ e ∈ out.events, e.Bounded

/-! ## The loop -/

theorem Memory.bytes_eq (m : Memory g) (i : Nat) : (m.tensor i).bytes = (g.tensor i).bytes :=
  (m.shape i).bytes

theorem sizeMatches_iff (m : Memory g) (i : Nat) (u : Tensor) :
    SizeMatches g (i, u) ↔ (m.tensor i).bytes = toSize u.size := by
  rw [bytes_eq_toSize_iff, m.bytes_eq]
  exact Iff.rfl

/-- A tensor of the right size has just the bytes that are copied. -/
theorem Tensor.length_data {u : Tensor} {i : Nat} (h : SizeMatches g (i, u)) :
    u.data.length = (g.tensor i).bytes := by
  have hsize : ((g.tensor i).bytes : Int) = u.size := h
  rw [u.holds]
  omega

theorem copyInputs_differs {m : Memory g} {i : Nat} {u : Tensor} (h : ¬ SizeMatches g (i, u))
    (inputs : List Nat) (input : List Tensor) :
    copyInputs m (i :: inputs) (u :: input) = ⟨[], m⟩ := by
  have hne : (m.tensor i).bytes ≠ toSize u.size := fun hbytes =>
    h ((sizeMatches_iff m i u).2 hbytes)
  simp only [copyInputs, if_pos hne]

theorem copyInputs_matches {m : Memory g} {i : Nat} {u : Tensor} (h : SizeMatches g (i, u))
    (inputs : List Nat) (input : List Tensor) :
    copyInputs m (i :: inputs) (u :: input) =
      ⟨copyEvent (g.tensor i) i u :: (copyInputs (m.write i u.data) inputs input).events,
        (copyInputs (m.write i u.data) inputs input).memory⟩ := by
  have hbytes := (sizeMatches_iff m i u).1 h
  -- The whole tensor is copied.
  have hwhole : u.data.take (m.tensor i).bytes = u.data := by
    rw [m.bytes_eq]
    exact List.take_of_length_le (Tensor.length_data h).le
  have hevent : copyEvent (m.tensor i) i u = copyEvent (g.tensor i) i u := by
    simp only [copyEvent, m.bytes_eq]
  simp only [copyInputs, hbytes, ne_eq, not_true_eq_false, if_false]
  rw [← hbytes, hwhole, hevent]

/-- No iteration of the loop leaves its buffers, wherever the loop ends. -/
theorem copyInputs_bounded (m : Memory g) (inputs : List Nat) (input : List Tensor) :
    ∀ e ∈ (copyInputs m inputs input).events, e.Bounded := by
  induction inputs generalizing m input with
  | nil =>
      intro e he
      simp [copyInputs] at he
  | cons i inputs ih =>
      cases input with
      | nil =>
          intro e he
          simp [copyInputs] at he
      | cons u input =>
          intro e he
          by_cases hsize : SizeMatches g (i, u)
          · rw [copyInputs_matches hsize] at he
            rcases List.mem_cons.1 he with rfl | he
            · exact ⟨(Tensor.length_data hsize).ge, le_rfl⟩
            · exact ih _ _ e he
          · rw [copyInputs_differs hsize] at he
            simp at he

/-- Where every size matches, the loop runs to its end. -/
theorem copyInputs_complete (m : Memory g) {inputs : List Nat} {input : List Tensor}
    (h : ∀ p ∈ inputs.zip input, SizeMatches g p) :
    (copyInputs m inputs input).events = fullCopies g inputs input := by
  induction inputs generalizing m input with
  | nil => simp [copyInputs, fullCopies]
  | cons i inputs ih =>
      cases input with
      | nil => simp [copyInputs, fullCopies]
      | cons u input =>
          have hsize : SizeMatches g (i, u) := h (i, u) (by simp)
          have hrest : ∀ p ∈ inputs.zip input, SizeMatches g p := fun p hp =>
            h p (List.mem_cons_of_mem _ hp)
          rw [copyInputs_matches hsize]
          simp only [ih _ hrest, fullCopies, List.zip_cons_cons, List.map_cons]

/-- The loop leaves the tensors alone that are not inputs of its own. -/
theorem copyInputs_frame (m : Memory g) {inputs : List Nat} {input : List Tensor} {j : Nat}
    (hj : j ∉ inputs) : (copyInputs m inputs input).memory.tensor j = m.tensor j := by
  induction inputs generalizing m input with
  | nil => simp [copyInputs]
  | cons i inputs ih =>
      have hne : j ≠ i := fun h => hj (by simp [h])
      have hrest : j ∉ inputs := fun h => hj (List.mem_cons_of_mem _ h)
      cases input with
      | nil => simp [copyInputs]
      | cons u input =>
          by_cases hsize : SizeMatches g (i, u)
          · rw [copyInputs_matches hsize]
            exact (ih (m.write i u.data) hrest).trans (m.write_tensor_ne hne _)
          · rw [copyInputs_differs hsize]

/-- Behind a complete loop over different inputs, each of them holds the bytes of its tensor. -/
theorem copyInputs_data (m : Memory g) {inputs : List Nat} {input : List Tensor}
    (hnodup : inputs.Nodup) (h : ∀ p ∈ inputs.zip input, SizeMatches g p) :
    ∀ p ∈ inputs.zip input,
      ((copyInputs m inputs input).memory.tensor p.1).data = p.2.data := by
  induction inputs generalizing m input with
  | nil =>
      intro p hp
      simp at hp
  | cons i inputs ih =>
      cases input with
      | nil =>
          intro p hp
          simp at hp
      | cons u input =>
          intro p hp
          have hsize : SizeMatches g (i, u) := h (i, u) (by simp)
          have hrest : ∀ q ∈ inputs.zip input, SizeMatches g q := fun q hq =>
            h q (List.mem_cons_of_mem _ hq)
          rcases List.nodup_cons.1 hnodup with ⟨hi, hnodup'⟩
          rw [copyInputs_matches hsize]
          rcases List.mem_cons.1 hp with rfl | hp
          · -- The later iterations write to other tensors.
            have hlength : u.data.length = (m.tensor i).bytes :=
              (Tensor.length_data hsize).trans (m.bytes_eq i).symm
            calc
              ((copyInputs (m.write i u.data) inputs input).memory.tensor i).data
                  = ((m.write i u.data).tensor i).data := by rw [copyInputs_frame _ hi]
              _ = ((m.tensor i).write u.data).data := by rw [m.write_tensor_self]
              _ = u.data := TfLiteTensor.write_data hlength
          · exact ih _ hnodup' hrest p hp

/-! ## The call -/

section Call

variable (run : Interpretation) (stop : Bool) (m : Memory g) (input : List Tensor)

theorem Invoke_count {run : Interpretation} {stop : Bool} {m : Memory g} {input : List Tensor}
    (h : input.length ≠ g.inputs.length) : Invoke run stop m input = ⟨-EFAULT, [], m⟩ := by
  simp only [Invoke, if_pos h]

theorem Invoke_events {input : List Tensor} (h : input.length = g.inputs.length) :
    (Invoke run stop m input).events = (copyInputs m g.inputs input).events ++ [.run] := by
  simp [Invoke, h]

theorem Invoke_bounded : ∀ e ∈ (Invoke run stop m input).events, e.Bounded := by
  intro e he
  by_cases hcount : input.length = g.inputs.length
  · rw [Invoke_events run stop m hcount] at he
    rcases List.mem_append.1 he with he | he
    · exact copyInputs_bounded m g.inputs input e he
    · cases List.mem_singleton.1 he
      trivial
  · rw [Invoke_count hcount] at he
    simp at he

/-- The interpreter runs on inputs in full exactly when no size differs, or the number does. -/
theorem Invoke_lawful_iff :
    Lawful g input (Invoke run stop m input) ↔
      input.length ≠ g.inputs.length ∨ ∀ p ∈ g.inputs.zip input, SizeMatches g p := by
  constructor
  · intro h
    by_cases hcount : input.length = g.inputs.length
    · refine .inr fun p hp => ?_
      by_contra hsize
      -- The loop was left early, and the interpreter ran all the same.
      have hran : Event.run ∈ (Invoke run stop m input).events := by
        rw [Invoke_events run stop m hcount]
        simp
      exact (h.refused ⟨p, hp, hsize⟩).2 hran
    · exact .inl hcount
  · intro h
    by_cases hcount : input.length = g.inputs.length
    · have hsizes := h.resolve_left fun hne => hne hcount
      refine ⟨fun _ => ⟨hcount, hsizes, ?_⟩, ?_, Invoke_bounded run stop m input⟩
      · rw [Invoke_events run stop m hcount, copyInputs_complete m hsizes]
      · rintro ⟨p, hp, hsize⟩
        exact absurd (hsizes p hp) hsize
    · rw [Invoke_count hcount]
      refine ⟨?_, ?_, ?_⟩
      · intro hret
        have hefault : -EFAULT ≠ 0 := by decide
        exact absurd hret hefault
      · intro _
        have hefault : -EFAULT < 0 := by decide
        exact ⟨hefault, by simp⟩
      · intro e he
        simp at he

end Call

/-! ## A tensor that is too small -/

/-- One input of two bytes. -/
def twoBytes : Graph where
  inputs := [0]
  outputs := []
  tensor := fun _ => ⟨.uint8, [0, 0], [2], by decide⟩

def oneByte : Tensor := ⟨TensorType.uint8.code, 1, [7], by decide, by decide⟩

/-- The inference succeeds with nothing copied. -/
theorem oneByte_computed :
    ¬ Lawful twoBytes [oneByte]
      (Invoke (fun _ m => (true, m)) false (Memory.initial twoBytes) [oneByte]) := by
  intro h
  have hret : (Invoke (fun _ m => (true, m)) false (Memory.initial twoBytes) [oneByte]).ret = 0 := by
    decide
  have hsize : (2 : Int) = 1 := (h.computed hret).2.1 (0, oneByte) (by simp [twoBytes])
  exact absurd hsize (by decide)

end TfLite
end Beyond
