import Mathlib.Data.List.Nodup
import Beyond.Base.Platform
import Beyond.Base.Run

/-!
# The client's pipeline

`Source::Invoke` pushes the input of an invocation into the GStreamer pipeline and then its
`InvokeData` into `requestQueue`.  What comes out of the pipeline goes to `Sink::NewDataHandler` on
another thread, which takes the oldest `InvokeData` for it.  This module interleaves the two threads
and the pipeline, whose `queue leaky=2 max-size-buffers=1` may drop buffers but keeps their order.

`step` says what a write to the output pipe or to that of the events does once it gets through;
`Blocking.step` is the system in which a write waits for room.
-/

namespace Beyond
namespace Peer
namespace GrpcClient
namespace Gst

/-! ## State -/

/-- An `InvokeData`: which invocation made it, and the context of that invocation. -/
structure InvokeData (κ : Type*) where
  invocation : Nat
  context : κ
  deriving DecidableEq, Repr

/-- A published event.  `data` is the `InvokeData` whose context it carries; `source` is the
invocation whose input produced the output that is being handled. -/
structure Event (κ : Type*) where
  type : EventType
  data : Option (InvokeData κ)
  source : InvokeData κ
  deriving DecidableEq, Repr

/-- A record sent to `output`: the `InvokeData` that `Invoke` has made, and what is in its `context`
and its `size` by then. -/
structure Output (κ : Type*) where
  data : InvokeData κ
  /-- `none` for a null pointer. -/
  context : Option κ
  size : Nat
  source : InvokeData κ
  deriving DecidableEq, Repr

/-- Inside `Source::Invoke`. -/
inductive Source (κ : Type*)
  | idle
  /-- The buffer is in the pipeline, the request not yet in `requestQueue`. -/
  | pushed (invokeData : InvokeData κ)
  deriving Repr

/-- Inside `Sink::NewDataHandler`, with the buffer of the invocation `source`. -/
inductive Sink (κ : Type*)
  | idle
  | received (source : InvokeData κ)
  | checked (source : InvokeData κ) (numMems : Nat)
  | taken (source : InvokeData κ) (numMems : Nat) (inferenceData : InvokeData κ)
  | copied (source : InvokeData κ) (numMems : Nat) (inferenceData : InvokeData κ)
  /-- The handler has left its tensors behind. -/
  | faulted
  deriving Repr

structure State (κ : Type*) where
  source : Source κ
  sink : Sink κ
  /-- The invocations whose buffers are on the way through the pipeline, or their results back. -/
  pipeline : List (InvokeData κ)
  requestQueue : List (InvokeData κ)
  invoked : Nat
  /-- The invocations for which `Invoke` returned 0. -/
  accepted : List (InvokeData κ)
  events : List (Event κ)
  outputs : List (Output κ)
  /-- The invocations whose output found `requestQueue` empty. -/
  missed : List (InvokeData κ)

inductive Act (κ : Type*)
  /-- `Source::Invoke` up to `gst_app_src_push_buffer`: whether there is a buffer, and whether all of
  its memories could be wrapped. -/
  | push (context : κ) (buffer wrapped : Bool)
  | pushRequest
  /-- The pipeline drops a buffer. -/
  | drop (i : Nat)
  /-- The pipeline has an output for `NewDataHandler`. -/
  | deliver
  /-- `GetOutputTensorInfo` returns `ret` and `size`; the buffer has `numMems` memories. -/
  | checkOutput (ret : Int) (size numMems : Nat) (published : Bool)
  | takeRequest (published : Bool)
  /-- `calloc`, and how many memories are copied before one fails. -/
  | copyTensors (allocated : Bool) (i : Nat) (published : Bool)
  | send (ret : Int) (published : Bool)

variable {κ : Type*}

namespace State

/-- `PublishEventData`, whose result nobody looks at. -/
def publish (s : State κ) (published : Bool) (e : Event κ) : State κ :=
  if published = true then { s with events := s.events ++ [e] } else s

@[simp] theorem publish_sink (s : State κ) (published : Bool) (e : Event κ) :
    (s.publish published e).sink = s.sink := by
  unfold publish
  split <;> rfl

@[simp] theorem publish_outputs (s : State κ) (published : Bool) (e : Event κ) :
    (s.publish published e).outputs = s.outputs := by
  unfold publish
  split <;> rfl

end State

/-! ## Steps -/

def push (s : State κ) (context : κ) (buffer wrapped : Bool) : Option (State κ) :=
  match s.source with
  | .pushed _ => none
  | .idle =>
      let invokeData : InvokeData κ := ⟨s.invoked, context⟩
      -- `-ENOMEM` leaves the `do` block.
      if buffer = false then some { s with invoked := s.invoked + 1 }
      -- `-EFAULT` leaves the inner loop only: the buffer is pushed, the request is not.
      else if wrapped = false then
        some { s with invoked := s.invoked + 1, pipeline := s.pipeline ++ [invokeData] }
      else
        some { s with
          source := .pushed invokeData
          invoked := s.invoked + 1
          pipeline := s.pipeline ++ [invokeData] }

def pushRequest (s : State κ) : Option (State κ) :=
  match s.source with
  | .idle => none
  | .pushed invokeData =>
      some { s with
        source := .idle
        requestQueue := s.requestQueue ++ [invokeData]
        accepted := s.accepted ++ [invokeData] }

def deliver (s : State κ) : Option (State κ) :=
  match s.sink, s.pipeline with
  | .idle, source :: rest => some { s with sink := .received source, pipeline := rest }
  | _, _ => none

/-- Neither error takes the request of the output. -/
def checkOutput (s : State κ) (ret : Int) (size numMems : Nat) (published : Bool) :
    Option (State κ) :=
  match s.sink with
  | .received source =>
      if ret < 0 then
        some ({ s with sink := .idle }.publish published ⟨.inferenceError, none, source⟩)
      else if numMems ≠ size then
        some ({ s with sink := .idle }.publish published ⟨.inferenceError, none, source⟩)
      else some { s with sink := .checked source numMems }
  | _ => none

def takeRequest (s : State κ) (published : Bool) : Option (State κ) :=
  match s.sink with
  | .checked source numMems =>
      match s.requestQueue with
      | [] =>
          some ({ s with sink := .idle, missed := s.missed ++ [source] }.publish published
            ⟨.inferenceError, none, source⟩)
      | inferenceData :: rest =>
          some { s with sink := .taken source numMems inferenceData, requestQueue := rest }
  | _ => none

def copyTensors (s : State κ) (allocated : Bool) (i : Nat) (published : Bool) :
    Option (State κ) :=
  match s.sink with
  | .taken source numMems inferenceData =>
      if allocated = false then
        some ({ s with sink := .idle }.publish published
          ⟨.inferenceError, some inferenceData, source⟩)
      else if i < numMems then
        -- `while (--i > 0)` starts behind `tensor[0]` and wraps around when the first one fails.
        if i = 0 then some { s with sink := .faulted }
        else
          some ({ s with sink := .idle }.publish published
            ⟨.inferenceError, some inferenceData, source⟩)
      else some { s with sink := .copied source numMems inferenceData }
  | _ => none

def send (s : State κ) (ret : Int) (published : Bool) : Option (State κ) :=
  match s.sink with
  | .copied source numMems inferenceData =>
      if ret < 0 then
        some ({ s with sink := .idle }.publish published
          ⟨.inferenceError, some inferenceData, source⟩)
      else
        -- The context is taken out of the record, and goes with the event.
        let output : Output κ := ⟨inferenceData, none, numMems, source⟩
        some ({ s with sink := .idle, outputs := s.outputs ++ [output] }.publish published
          ⟨.inferenceSuccess, some inferenceData, source⟩)
  | _ => none

def step (s : State κ) : Act κ → Option (State κ)
  | .push context buffer wrapped => push s context buffer wrapped
  | .pushRequest => pushRequest s
  | .drop i =>
      if i < s.pipeline.length then some { s with pipeline := s.pipeline.eraseIdx i } else none
  | .deliver => deliver s
  | .checkOutput ret size numMems published => checkOutput s ret size numMems published
  | .takeRequest published => takeRequest s published
  | .copyTensors allocated i published => copyTensors s allocated i published
  | .send ret published => send s ret published

def State.start : State κ :=
  { source := .idle, sink := .idle, pipeline := [], requestQueue := [], invoked := 0, accepted := []
    events := [], outputs := [], missed := [] }

/-! ## The property -/

/-- The handler's steps, and the delivery to it. -/
def Act.bySink : Act κ → Bool
  | .push _ _ _ => false
  | .pushRequest => false
  | .drop _ => false
  | _ => true

/-- `NewDataHandler` copies the tensors of an output. -/
def Act.copies : Act κ → Bool
  | .copyTensors _ _ _ => true
  | _ => false

/-- The invocation whose request is still to be queued. -/
def Source.pending : Source κ → List (InvokeData κ)
  | idle => []
  | pushed invokeData => [invokeData]

namespace Sink

/-- The output that is being handled. -/
def buffer : Sink κ → List (InvokeData κ)
  | idle => []
  | received source => [source]
  | checked source _ => [source]
  | taken source _ _ => [source]
  | copied source _ _ => [source]
  | faulted => []

def numMems : Sink κ → Nat
  | checked _ n => n
  | taken _ n _ => n
  | copied _ n _ => n
  | _ => 0

/-- The output is about to be sent. -/
def isCopied : Sink κ → Bool
  | copied _ _ _ => true
  | _ => false

end Sink

namespace State

/-- The invocations whose contexts the events carry. -/
def answered (s : State κ) : List (InvokeData κ) := s.events.filterMap Event.data

/-- The invocations whose output is still to come, or is being handled. -/
def underway (s : State κ) : List (InvokeData κ) := s.sink.buffer ++ s.pipeline

end State

/-- Nothing is dropped and no output rejected; every buffer is wrapped; an output looks for its
request only when it is queued; the first tensor is copied, and every answer is published. -/
def Aligned (s : State κ) : Act κ → Prop
  | .push _ buffer wrapped => buffer = true → wrapped = true
  | .pushRequest => True
  | .drop _ => False
  | .deliver => True
  | .checkOutput ret size numMems _ => 0 ≤ ret ∧ numMems = size
  | .takeRequest _ => ∀ i ∈ s.sink.buffer, i ∉ s.source.pending
  | .copyTensors allocated i published =>
      (allocated = true ∧ s.sink.numMems ≤ i) ∨ ((allocated = true → i ≠ 0) ∧ published = true)
  | .send _ published => published = true

instance [DecidableEq κ] (s : State κ) : (a : Act κ) → Decidable (Aligned s a)
  | .push _ buffer wrapped => inferInstanceAs (Decidable (buffer = true → wrapped = true))
  | .pushRequest => inferInstanceAs (Decidable True)
  | .drop _ => inferInstanceAs (Decidable False)
  | .deliver => inferInstanceAs (Decidable True)
  | .checkOutput ret size numMems _ => inferInstanceAs (Decidable (0 ≤ ret ∧ numMems = size))
  | .takeRequest _ => inferInstanceAs (Decidable (∀ i ∈ s.sink.buffer, i ∉ s.source.pending))
  | .copyTensors allocated i published =>
      inferInstanceAs (Decidable ((allocated = true ∧ s.sink.numMems ≤ i) ∨
        ((allocated = true → i ≠ 0) ∧ published = true)))
  | .send _ published => inferInstanceAs (Decidable (published = true))

/-! ## The invariant -/

namespace Sink

/-- The request that the handler has taken. -/
def request : Sink κ → List (InvokeData κ)
  | taken _ _ inferenceData => [inferenceData]
  | copied _ _ inferenceData => [inferenceData]
  | _ => []

/-- The output whose request is still to be taken. -/
def unrequested : Sink κ → List (InvokeData κ)
  | received source => [source]
  | checked source _ => [source]
  | _ => []

end Sink

/-- The two queues stand in step. -/
structure Inv (s : State κ) : Prop where
  /-- What waits for an output are the outputs that are still to come, in their order. -/
  aligned : s.requestQueue ++ s.source.pending = s.sink.unrequested ++ s.pipeline
  accepted : s.accepted = s.answered ++ (s.sink.request ++ s.requestQueue)
  /-- The handler holds the request of the output that it handles. -/
  own : s.sink.request ++ s.sink.unrequested = s.sink.buffer
  events : ∀ e ∈ s.events, e.type = .inferenceSuccess → e.data = some e.source
  outputs : ∀ o ∈ s.outputs, o.data = o.source
  missed : s.missed = []
  fresh : ∀ i ∈ s.accepted ++ s.source.pending, i.invocation < s.invoked
  nodup : (s.accepted ++ s.source.pending).Nodup
  running : s.sink ≠ .faulted

theorem inv_start : Inv (State.start : State κ) := by
  constructor
  all_goals simp [State.start, Source.pending, Sink.unrequested, Sink.request, Sink.buffer,
    State.answered]

/-- Every invocation is answered or underway. -/
theorem Inv.all {s : State κ} (hs : Inv s) :
    s.accepted ++ s.source.pending = s.answered ++ s.underway := by
  calc s.accepted ++ s.source.pending
      = s.answered ++ (s.sink.request ++ (s.requestQueue ++ s.source.pending)) := by
        rw [hs.accepted]
        simp only [List.append_assoc]
    _ = s.answered ++ (s.sink.request ++ (s.sink.unrequested ++ s.pipeline)) := by
        rw [hs.aligned]
    _ = s.answered ++ s.underway := by
        rw [← List.append_assoc s.sink.request, hs.own]
        rfl

/-! ## Steps -/

theorem inv_push {s s' : State κ} {context : κ} {buffer wrapped : Bool} (hs : Inv s)
    (hwrapped : buffer = true → wrapped = true) (h : push s context buffer wrapped = some s') :
    Inv s' := by
  unfold push at h
  split at h
  · cases h
  · rename_i hidle
    have haligned := hs.aligned
    have hfresh := hs.fresh
    have hnodup := hs.nodup
    simp only [hidle, Source.pending, List.append_nil] at haligned hfresh hnodup
    split at h
    · cases h
      refine ⟨hs.aligned, hs.accepted, hs.own, hs.events, hs.outputs, hs.missed, fun i hi => ?_,
        hs.nodup, hs.running⟩
      exact Nat.lt_succ_of_lt (hs.fresh i hi)
    · rename_i hbuffer
      have hw : wrapped = true := hwrapped (by simpa using hbuffer)
      rw [if_neg (by simp [hw])] at h
      cases h
      refine ⟨?_, hs.accepted, hs.own, hs.events, hs.outputs, hs.missed, fun i hi => ?_, ?_,
        hs.running⟩
      · simp [Source.pending, haligned]
      · rcases List.mem_append.1 hi with hold | hnew
        · exact Nat.lt_succ_of_lt (hfresh i hold)
        · rw [List.mem_singleton.1 hnew]
          exact Nat.lt_succ_self _
      · -- The number of the new invocation was never given.
        refine List.nodup_append.2 ⟨hnodup, List.nodup_singleton _, fun i hi j hj heq => ?_⟩
        have hlt := hfresh i hi
        rw [heq, List.mem_singleton.1 hj] at hlt
        exact Nat.lt_irrefl _ hlt

theorem inv_pushRequest {s s' : State κ} (hs : Inv s) (h : pushRequest s = some s') : Inv s' := by
  unfold pushRequest at h
  split at h
  · cases h
  · rename_i invokeData hpushed
    cases h
    have haligned := hs.aligned
    have hfresh := hs.fresh
    have hnodup := hs.nodup
    simp only [hpushed, Source.pending] at haligned hfresh hnodup
    refine ⟨?_, ?_, hs.own, hs.events, hs.outputs, hs.missed, ?_, ?_, hs.running⟩
    · simpa [Source.pending] using haligned
    · show s.accepted ++ [invokeData] = s.answered ++ (s.sink.request ++ (s.requestQueue ++ _))
      rw [hs.accepted]
      simp only [List.append_assoc]
    · simpa [Source.pending] using hfresh
    · simpa [Source.pending] using hnodup

/-- A step of the handler that keeps the output and its request. -/
theorem inv_sink {s : State κ} (hs : Inv s) {sink : Sink κ} (hne : sink ≠ .faulted)
    (hrequest : sink.request = s.sink.request) (hunrequested : sink.unrequested = s.sink.unrequested)
    (hbuffer : sink.buffer = s.sink.buffer) : Inv { s with sink := sink } := by
  refine ⟨?_, ?_, ?_, hs.events, hs.outputs, hs.missed, hs.fresh, hs.nodup, hne⟩
  · simpa only [hunrequested] using hs.aligned
  · simpa only [hrequest, State.answered] using hs.accepted
  · simpa only [hrequest, hunrequested, hbuffer] using hs.own

/-- An answer for the request in hand, with an output or without one. -/
theorem inv_answer {s : State κ} (hs : Inv s) {type : EventType}
    {source inferenceData : InvokeData κ} {outputs : List (Output κ)}
    (hrequest : s.sink.request = [inferenceData]) (hunrequested : s.sink.unrequested = [])
    (hbuffer : s.sink.buffer = [source])
    (houtputs : inferenceData = source → ∀ o ∈ outputs, o.data = o.source) :
    Inv ({ s with sink := .idle, outputs := outputs }.publish true
      ⟨type, some inferenceData, source⟩) := by
  have hown : inferenceData = source := by
    have h := hs.own
    rw [hrequest, hunrequested, hbuffer] at h
    simpa using h
  have haligned := hs.aligned
  have haccepted := hs.accepted
  rw [hunrequested] at haligned
  rw [hrequest] at haccepted
  refine ⟨haligned, ?_, rfl, fun e he => ?_, houtputs hown, hs.missed, hs.fresh, hs.nodup, nofun⟩
  · simpa [State.publish, State.answered, Sink.request] using haccepted
  · rcases List.mem_append.1 he with hold | hnew
    · exact hs.events e hold
    · rw [List.mem_singleton.1 hnew, hown]
      exact fun _ => rfl

/-- The invariant, read for a handler that is known to be inside a certain step. -/
theorem Inv.inside {s : State κ} (hs : Inv s) {sink : Sink κ} (hsink : s.sink = sink) :
    Inv { s with sink := sink } := by
  subst hsink
  exact hs

theorem inv_deliver {s s' : State κ} (hs : Inv s) (h : deliver s = some s') : Inv s' := by
  unfold deliver at h
  split at h
  · rename_i source rest hsink hpipeline
    cases h
    have hin := hs.inside hsink
    have haligned : s.requestQueue ++ s.source.pending = s.pipeline := hin.aligned
    -- The output leaves the pipeline; its request stays in the queue.
    exact ⟨haligned.trans hpipeline, hin.accepted, rfl, hs.events, hs.outputs, hs.missed, hs.fresh,
      hs.nodup, nofun⟩
  · cases h

theorem inv_checkOutput {s s' : State κ} {ret : Int} {size numMems : Nat} {published : Bool}
    (hs : Inv s) (hret : 0 ≤ ret) (hsize : numMems = size)
    (h : checkOutput s ret size numMems published = some s') : Inv s' := by
  unfold checkOutput at h
  split at h
  · rename_i source hsink
    rw [if_neg (Int.not_lt.2 hret), if_neg (not_not.2 hsize)] at h
    cases h
    exact inv_sink hs nofun (by rw [hsink]; rfl) (by rw [hsink]; rfl) (by rw [hsink]; rfl)
  · cases h

theorem inv_takeRequest {s s' : State κ} {published : Bool} (hs : Inv s)
    (hqueued : ∀ i ∈ s.sink.buffer, i ∉ s.source.pending)
    (h : takeRequest s published = some s') : Inv s' := by
  unfold takeRequest at h
  split at h
  · rename_i source numMems hsink
    have hin := hs.inside hsink
    have haligned : s.requestQueue ++ s.source.pending = source :: s.pipeline := hin.aligned
    split at h
    · rename_i hempty
      -- The request of the output would still be pending, which the condition excludes.
      rw [hempty, List.nil_append] at haligned
      have hbuffer : source ∈ s.sink.buffer := by
        rw [hsink]
        exact List.mem_singleton_self _
      have hpending := hqueued source hbuffer
      rw [haligned] at hpending
      exact absurd List.mem_cons_self hpending
    · rename_i inferenceData rest hqueue
      cases h
      have haccepted : s.accepted = s.answered ++ ([] ++ s.requestQueue) := hin.accepted
      rw [hqueue, List.cons_append, List.cons.injEq] at haligned
      rw [hqueue] at haccepted
      refine ⟨haligned.2, haccepted, ?_, hs.events, hs.outputs, hs.missed, hs.fresh, hs.nodup,
        nofun⟩
      simp [Sink.request, Sink.unrequested, Sink.buffer, haligned.1]
  · cases h

theorem inv_copyTensors {s s' : State κ} {allocated : Bool} {i : Nat} {published : Bool}
    (hs : Inv s)
    (hcopied : (allocated = true ∧ s.sink.numMems ≤ i) ∨
      ((allocated = true → i ≠ 0) ∧ published = true))
    (h : copyTensors s allocated i published = some s') : Inv s' := by
  unfold copyTensors at h
  split at h
  · rename_i source numMems inferenceData hsink
    have hanswer : Inv ({ s with sink := .idle }.publish true
        ⟨.inferenceError, some inferenceData, source⟩) :=
      inv_answer hs (by rw [hsink]; rfl) (by rw [hsink]; rfl) (by rw [hsink]; rfl)
        (fun _ => hs.outputs)
    rw [hsink] at hcopied
    split at h
    · rename_i hallocated
      have hpublished : published = true := by simpa [hallocated] using hcopied
      cases h
      rw [hpublished]
      exact hanswer
    · rename_i hallocated
      rw [Bool.not_eq_false] at hallocated
      split at h
      · rename_i hlt
        -- The copy has failed, so it is the second case of the condition.
        have hanswered := hcopied.resolve_left fun hall => absurd hlt (Nat.not_lt.2 hall.2)
        rw [if_neg (hanswered.1 hallocated)] at h
        cases h
        rw [hanswered.2]
        exact hanswer
      · cases h
        exact inv_sink hs nofun (by rw [hsink]; rfl) (by rw [hsink]; rfl) (by rw [hsink]; rfl)
  · cases h

theorem inv_send {s s' : State κ} {ret : Int} (hs : Inv s) (h : send s ret true = some s') :
    Inv s' := by
  unfold send at h
  split at h
  · rename_i source numMems inferenceData hsink
    split at h
    · cases h
      exact inv_answer hs (by rw [hsink]; rfl) (by rw [hsink]; rfl) (by rw [hsink]; rfl)
        (fun _ => hs.outputs)
    · cases h
      refine inv_answer hs (by rw [hsink]; rfl) (by rw [hsink]; rfl) (by rw [hsink]; rfl)
        (fun hown o ho => ?_)
      rcases List.mem_append.1 ho with hold | hnew
      · exact hs.outputs o hold
      · rw [List.mem_singleton.1 hnew]
        exact hown
  · cases h

theorem inv_step {s s' : State κ} {a : Act κ} (hs : Inv s) (haligned : Aligned s a)
    (h : step s a = some s') : Inv s' := by
  cases a with
  | push context buffer wrapped => exact inv_push hs haligned h
  | pushRequest => exact inv_pushRequest hs h
  | drop i => exact haligned.elim
  | deliver => exact inv_deliver hs h
  | checkOutput ret size numMems published => exact inv_checkOutput hs haligned.1 haligned.2 h
  | takeRequest published => exact inv_takeRequest hs haligned h
  | copyTensors allocated i published => exact inv_copyTensors hs haligned h
  | send ret published =>
      have hpublished : published = true := haligned
      subst hpublished
      exact inv_send hs h

/-- An output that is about to be sent has just been copied or was so before, and nothing has been
written since. -/
theorem copied_of_step {s s' : State κ} {a : Act κ} (h : step s a = some s')
    (hcopied : s'.sink.isCopied = true) :
    s'.outputs = s.outputs ∧ s'.events = s.events ∧
      (a.copies = true ∨ s.sink.isCopied = true) := by
  cases a with
  | push context buffer wrapped =>
      simp only [step, push] at h
      split at h
      · cases h
      · split at h
        · cases h
          exact ⟨rfl, rfl, .inr hcopied⟩
        · split at h <;> cases h <;> exact ⟨rfl, rfl, .inr hcopied⟩
  | pushRequest =>
      simp only [step, pushRequest] at h
      split at h
      · cases h
      · cases h
        exact ⟨rfl, rfl, .inr hcopied⟩
  | drop i =>
      simp only [step] at h
      split at h
      · cases h
        exact ⟨rfl, rfl, .inr hcopied⟩
      · cases h
  | deliver =>
      simp only [step, deliver] at h
      split at h
      · cases h
        cases hcopied
      · cases h
  | checkOutput ret size numMems published =>
      simp only [step, checkOutput] at h
      split at h
      · split at h
        · cases h
          simp [Sink.isCopied] at hcopied
        · split at h <;> cases h <;> simp [Sink.isCopied] at hcopied
      · cases h
  | takeRequest published =>
      simp only [step, takeRequest] at h
      split at h
      · split at h <;> cases h <;> simp [Sink.isCopied] at hcopied
      · cases h
  | copyTensors allocated i published =>
      simp only [step, copyTensors] at h
      split at h
      · split at h
        · cases h
          simp [Sink.isCopied] at hcopied
        · split at h
          · split at h <;> cases h <;> simp [Sink.isCopied] at hcopied
          · cases h
            exact ⟨rfl, rfl, .inl rfl⟩
      · cases h
  | send ret published =>
      simp only [step, send] at h
      split at h
      · split at h <;> cases h <;> simp [Sink.isCopied] at hcopied
      · cases h

/-- A record that a step sends has lost its context. -/
theorem separated_of_step {s s' : State κ} {a : Act κ} (h : step s a = some s')
    (hs : ∀ o ∈ s.outputs, o.context = none) : ∀ o ∈ s'.outputs, o.context = none := by
  cases a with
  | push context buffer wrapped =>
      simp only [step, push] at h
      split at h
      · cases h
      · split at h
        · cases h
          exact hs
        · split at h <;> cases h <;> exact hs
  | pushRequest =>
      simp only [step, pushRequest] at h
      split at h
      · cases h
      · cases h
        exact hs
  | drop i =>
      simp only [step] at h
      split at h
      · cases h
        exact hs
      · cases h
  | deliver =>
      simp only [step, deliver] at h
      split at h
      · cases h
        exact hs
      · cases h
  | checkOutput ret size numMems published =>
      simp only [step, checkOutput] at h
      split at h
      · split at h
        · cases h
          simpa using hs
        · split at h <;> cases h <;> simpa using hs
      · cases h
  | takeRequest published =>
      simp only [step, takeRequest] at h
      split at h
      · split at h <;> cases h <;> simpa using hs
      · cases h
  | copyTensors allocated i published =>
      simp only [step, copyTensors] at h
      split at h
      · split at h
        · cases h
          simpa using hs
        · split at h
          · split at h <;> cases h <;> simpa using hs
          · cases h
            exact hs
      · cases h
  | send ret published =>
      simp only [step, send] at h
      split at h
      · split at h
        · cases h
          simpa using hs
        · cases h
          rw [State.publish_outputs]
          intro o ho
          rcases List.mem_append.1 ho with hold | hnew
          · exact hs o hold
          · rw [List.mem_singleton.1 hnew]
      · cases h

/-! ## Blocking writes -/

/-- How many pointers the pipe of the outputs and that of the events take before a write waits. -/
structure Pipes where
  output : Nat
  event : Nat
  deriving DecidableEq, Repr

namespace Blocking

structure State (κ : Type*) where
  gst : Gst.State κ
  /-- How many of the outputs `GetOutput` has read. -/
  taken : Nat
  /-- How many of the events `FetchEventData` has read. -/
  fetched : Nat

inductive Act (κ : Type*)
  | gst (a : Gst.Act κ)
  | getOutput
  | fetchEvent

namespace State

/-- The outputs that are still in their pipe. -/
def untaken (s : State κ) : Nat := s.gst.outputs.length - s.taken

/-- The events that are still in their pipe. -/
def unfetched (s : State κ) : Nat := s.gst.events.length - s.fetched

def start : State κ := ⟨.start, 0, 0⟩

end State

/-- No pipe has more than it holds. -/
structure Fits (pipes : Pipes) (s : State κ) : Prop where
  output : s.untaken ≤ pipes.output
  event : s.unfetched ≤ pipes.event

instance (pipes : Pipes) (s : State κ) : Decidable (Fits pipes s) :=
  decidable_of_iff (s.untaken ≤ pipes.output ∧ s.unfetched ≤ pipes.event)
    ⟨fun h => ⟨h.1, h.2⟩, fun h => ⟨h.output, h.event⟩⟩

/-- The steps, as if there were always room. -/
def move (s : State κ) : Act κ → Option (State κ)
  | .gst a => (Gst.step s.gst a).map fun gst => { s with gst := gst }
  | .getOutput => if 0 < s.untaken then some { s with taken := s.taken + 1 } else none
  | .fetchEvent => if 0 < s.unfetched then some { s with fetched := s.fetched + 1 } else none

/-- A write waits as long as there is no room for what it writes. -/
def step (pipes : Pipes) : State κ → Act κ → Option (State κ) := Run.within move (Fits pipes)

/-! ## The property -/

/-- Events and outputs belong to their invocations. -/
structure Correlated [DecidableEq κ] (pipes : Pipes) (s : State κ) : Prop where
  /-- An event of success carries the context of the invocation whose input produced the output. -/
  success : ∀ e ∈ s.gst.events, e.type = .inferenceSuccess → e.data = some e.source
  /-- An output record is the `InvokeData` of that invocation. -/
  output : ∀ o ∈ s.gst.outputs, o.data = o.source
  /-- An output that finds no request is not the output of an accepted invocation. -/
  missed : ∀ i ∈ s.gst.missed, i ∉ s.gst.accepted
  /-- An accepted invocation is answered by one event, or its output is still underway. -/
  answered : ∀ i ∈ s.gst.accepted, s.gst.answered.count i + s.gst.underway.count i = 1
  /-- As long as one is underway, the handler is not stuck. -/
  handled : s.gst.underway ≠ [] → ∃ a : Gst.Act κ, a.bySink = true ∧
    (step pipes s (.gst a)).isSome = true

/-- And every output record still has the context of its invocation. -/
structure Carried [DecidableEq κ] (pipes : Pipes) (s : State κ) : Prop
    extends Correlated pipes s where
  carried : ∀ o ∈ s.gst.outputs, o.context = some o.source.context

/-- And the context has left every output record. -/
structure Separated [DecidableEq κ] (pipes : Pipes) (s : State κ) : Prop
    extends Correlated pipes s where
  separated : ∀ o ∈ s.gst.outputs, o.context = none

/-- As in `Gst.Aligned`; and when the tensors of an output are copied, there is room for it and for
its event. -/
def Aligned (pipes : Pipes) (s : State κ) : Act κ → Prop
  | .gst a => Gst.Aligned s.gst a ∧
      (a.copies = true → s.untaken < pipes.output ∧ s.unfetched < pipes.event)
  | .getOutput => True
  | .fetchEvent => True

instance [DecidableEq κ] (pipes : Pipes) (s : State κ) : (a : Act κ) → Decidable (Aligned pipes s a)
  | .gst a => inferInstanceAs (Decidable (Gst.Aligned s.gst a ∧
      (a.copies = true → s.untaken < pipes.output ∧ s.unfetched < pipes.event)))
  | .getOutput => inferInstanceAs (Decidable True)
  | .fetchEvent => inferInstanceAs (Decidable True)

/-! ## The invariant -/

structure Inv (pipes : Pipes) (s : State κ) : Prop where
  gst : Gst.Inv s.gst
  fits : Fits pipes s
  /-- The writes that the handler is about to make find room. -/
  room : s.gst.sink.isCopied = true → s.untaken < pipes.output ∧ s.unfetched < pipes.event
  separated : ∀ o ∈ s.gst.outputs, o.context = none

variable {pipes : Pipes} {s s' : State κ}

theorem inv_start : Inv pipes (State.start : State κ) where
  gst := Gst.inv_start
  fits := ⟨Nat.zero_le _, Nat.zero_le _⟩
  room := fun h => by cases h
  separated := fun o ho => by cases ho

theorem step_gst {a : Gst.Act κ} (h : step pipes s (.gst a) = some s') :
    Gst.step s.gst a = some s'.gst ∧ s'.taken = s.taken ∧ s'.fetched = s.fetched ∧
      Fits pipes s' := by
  rcases Run.within_eq_some.1 h with ⟨hmove, hfits⟩
  rcases Option.map_eq_some_iff.1 hmove with ⟨gst, hgst, rfl⟩
  exact ⟨hgst, rfl, rfl, hfits⟩

theorem step_isSome {a : Gst.Act κ} {gst : Gst.State κ} (h : Gst.step s.gst a = some gst)
    (hfits : Fits pipes { s with gst := gst }) : (step pipes s (.gst a)).isSome = true :=
  Run.within_isSome (congrArg (Option.map _) h) hfits

theorem inv_step {a : Act κ} (hs : Inv pipes s) (haligned : Aligned pipes s a)
    (h : step pipes s a = some s') : Inv pipes s' := by
  cases a with
  | gst a =>
      rcases step_gst h with ⟨hstep, htaken, hfetched, hfits⟩
      refine ⟨Gst.inv_step hs.gst haligned.1 hstep, hfits, fun hcopied => ?_,
        separated_of_step hstep hs.separated⟩
      rcases copied_of_step hstep hcopied with ⟨houtputs, hevents, hroom⟩
      rw [State.untaken, State.unfetched, houtputs, hevents, htaken, hfetched]
      exact hroom.elim haligned.2 hs.room
  | getOutput =>
      rcases Run.within_eq_some.1 h with ⟨hmove, hfits⟩
      simp only [move] at hmove
      split at hmove
      · cases hmove
        have hle : s.gst.outputs.length - (s.taken + 1) ≤ s.untaken :=
          Nat.sub_le_sub_left (Nat.le_succ _) _
        exact ⟨hs.gst, hfits,
          fun hcopied => ⟨Nat.lt_of_le_of_lt hle (hs.room hcopied).1, (hs.room hcopied).2⟩, hs.separated⟩
      · cases hmove
  | fetchEvent =>
      rcases Run.within_eq_some.1 h with ⟨hmove, hfits⟩
      simp only [move] at hmove
      split at hmove
      · cases hmove
        have hle : s.gst.events.length - (s.fetched + 1) ≤ s.unfetched :=
          Nat.sub_le_sub_left (Nat.le_succ _) _
        exact ⟨hs.gst, hfits,
          fun hcopied => ⟨(hs.room hcopied).1, Nat.lt_of_le_of_lt hle (hs.room hcopied).2⟩, hs.separated⟩
      · cases hmove

/-- A step that writes nothing needs no room. -/
theorem step_quiet (hs : Inv pipes s) {a : Gst.Act κ} {gst : Gst.State κ}
    (h : Gst.step s.gst a = some gst) (houtputs : gst.outputs = s.gst.outputs)
    (hevents : gst.events = s.gst.events) : (step pipes s (.gst a)).isSome = true := by
  refine step_isSome h ⟨?_, ?_⟩
  · show gst.outputs.length - s.taken ≤ pipes.output
    rw [houtputs]
    exact hs.fits.output
  · show gst.events.length - s.fetched ≤ pipes.event
    rw [hevents]
    exact hs.fits.event

theorem Inv.handled (hs : Inv pipes s) (h : s.gst.underway ≠ []) :
    ∃ a : Gst.Act κ, a.bySink = true ∧ (step pipes s (.gst a)).isSome = true := by
  cases hsink : s.gst.sink with
  | idle =>
      cases hpipeline : s.gst.pipeline with
      | nil => simp [Gst.State.underway, hsink, hpipeline, Sink.buffer] at h
      | cons source rest =>
          have hstep : Gst.step s.gst .deliver =
              some { s.gst with sink := .received source, pipeline := rest } := by
            simp [Gst.step, deliver, hsink, hpipeline]
          exact ⟨.deliver, rfl, step_quiet hs hstep rfl rfl⟩
  | received source =>
      have hstep : Gst.step s.gst (.checkOutput 0 0 0 true) =
          some { s.gst with sink := .checked source 0 } := by
        simp [Gst.step, checkOutput, hsink]
      exact ⟨.checkOutput 0 0 0 true, rfl, step_quiet hs hstep rfl rfl⟩
  | checked source numMems =>
      cases hqueue : s.gst.requestQueue with
      | nil =>
          have hstep : Gst.step s.gst (.takeRequest false) =
              some { s.gst with sink := .idle, missed := s.gst.missed ++ [source] } := by
            simp [Gst.step, takeRequest, hsink, hqueue, Gst.State.publish]
          exact ⟨.takeRequest false, rfl, step_quiet hs hstep rfl rfl⟩
      | cons inferenceData rest =>
          have hstep : Gst.step s.gst (.takeRequest true) =
              some { s.gst with
                sink := .taken source numMems inferenceData
                requestQueue := rest } := by
            simp [Gst.step, takeRequest, hsink, hqueue]
          exact ⟨.takeRequest true, rfl, step_quiet hs hstep rfl rfl⟩
  | taken source numMems inferenceData =>
      have hstep : Gst.step s.gst (.copyTensors true numMems true) =
          some { s.gst with sink := .copied source numMems inferenceData } := by
        simp [Gst.step, copyTensors, hsink]
      exact ⟨.copyTensors true numMems true, rfl, step_quiet hs hstep rfl rfl⟩
  | copied source numMems inferenceData =>
      rcases hs.room (by rw [hsink]; rfl) with ⟨houtput, hevent⟩
      have hstep : Gst.step s.gst (.send 0 true) =
          some ({ s.gst with
            sink := .idle
            outputs := s.gst.outputs ++ [(⟨inferenceData, none, numMems, source⟩ : Output κ)] }.publish
                true ⟨.inferenceSuccess, some inferenceData, source⟩) := by
        simp [Gst.step, send, hsink]
      refine ⟨.send 0 true, rfl, step_isSome hstep ⟨?_, ?_⟩⟩
      · show (s.gst.outputs ++ [_]).length - s.taken ≤ pipes.output
        have huntaken : s.gst.outputs.length - s.taken < pipes.output := houtput
        rw [List.length_append, List.length_singleton]
        omega
      · show (s.gst.events ++ [_]).length - s.fetched ≤ pipes.event
        have hunfetched : s.gst.events.length - s.fetched < pipes.event := hevent
        rw [List.length_append, List.length_singleton]
        omega
  | faulted => exact absurd hsink hs.gst.running

theorem Inv.correlated [DecidableEq κ] (hs : Inv pipes s) : Separated pipes s := by
  refine ⟨⟨hs.gst.events, hs.gst.outputs, ?_, fun i hi => ?_, hs.handled⟩, hs.separated⟩
  · intro i hi
    rw [hs.gst.missed] at hi
    cases hi
  · rw [← List.count_append, ← hs.gst.all]
    exact List.count_eq_one_of_mem hs.gst.nodup (List.mem_append_left _ hi)

/-- As long as the pipeline drops nothing, no output is rejected or overtakes its request, every
answer is published and there is room for it, events and outputs belong to their invocations, in
every state of every run; the context of an invocation goes with its event alone. -/
theorem results_correlated [DecidableEq κ] (pipes : Pipes) (as : List (Act κ)) (s : State κ)
    (haligned : Run.Along (step pipes) (Aligned pipes) State.start as)
    (hexec : Run.exec (step pipes) State.start as = some s) : Separated pipes s :=
  (Run.exec_invariant (fun _ _ _ hs hG h => inv_step hs hG h) inv_start haligned hexec).correlated

/-! ## Fixed runs -/

/-- One invocation, with nothing going wrong: its record is handed over without its context.  And two
invocations, of which the pipeline drops the first buffer: the output of the second is published with
the context of the first. -/
theorem context_separated :
    (∃ s, Run.exec (step ⟨8, 8⟩) (State.start : State Nat)
        (List.map Act.gst [.push 10 true true, .pushRequest, .deliver, .checkOutput 0 1 1 true,
          .takeRequest true, .copyTensors true 1 true, .send 0 true]) = some s ∧
      s.gst.outputs = [⟨⟨0, 10⟩, none, 1, ⟨0, 10⟩⟩] ∧ ¬ Carried ⟨8, 8⟩ s) ∧
    ∃ s, Run.exec (step ⟨8, 8⟩) (State.start : State Nat)
        (List.map Act.gst [.push 10 true true, .pushRequest, .push 11 true true, .pushRequest,
          .drop 0, .deliver, .checkOutput 0 1 1 true, .takeRequest true, .copyTensors true 1 true,
          .send 0 true]) = some s ∧
      s.gst.events = [⟨.inferenceSuccess, some ⟨0, 10⟩, ⟨1, 11⟩⟩] ∧ ¬ Carried ⟨8, 8⟩ s := by
  refine ⟨⟨_, rfl, rfl, fun h => ?_⟩, _, rfl, rfl, fun h => ?_⟩
  · have hcarried := h.carried _ List.mem_cons_self
    exact absurd hcarried (by decide)
  · have hsuccess := h.success _ List.mem_cons_self rfl
    exact absurd hsuccess (by decide)

/-- Two invocations over pipes for one pointer each: the first output arrives while the second is
being pushed, and the second cannot be queued. -/
def overlappingRun : List (Act Nat) :=
  [.gst (.push 10 true true), .gst .deliver, .gst .pushRequest, .gst (.checkOutput 0 2 2 true),
    .gst (.push 11 true true), .gst (.takeRequest true), .gst (.copyTensors true 2 true),
    .gst .pushRequest, .gst (.send 0 true), .gst .deliver, .gst (.checkOutput 0 2 2 true),
    .gst (.takeRequest true), .getOutput, .fetchEvent, .gst (.copyTensors true 2 true),
    .gst (.send (-1) true)]

theorem overlappingRun_correlated :
    ∃ s, Run.exec (step ⟨1, 1⟩) State.start overlappingRun = some s ∧
      s.gst.events = [⟨.inferenceSuccess, some ⟨0, 10⟩, ⟨0, 10⟩⟩,
        ⟨.inferenceError, some ⟨1, 11⟩, ⟨1, 11⟩⟩] ∧
      s.gst.outputs = [⟨⟨0, 10⟩, none, 2, ⟨0, 10⟩⟩] ∧ Separated ⟨1, 1⟩ s :=
  ⟨_, rfl, rfl, rfl, results_correlated ⟨1, 1⟩ overlappingRun _ (by decide) rfl⟩

end Blocking

end Gst
end GrpcClient
end Peer
end Beyond
