import Beyond.Inference.Relay
import Beyond.Peer.ClientGst

/-!
# Remote inference

`Inference::impl::remote` hands a call to the peer that it has selected, and the events of all its
peers on to the handlers of the application.  This module puts the pipelines of any number of client
peers at the one end and the application at the other.  Next to the answers of its pipeline a peer
publishes events of other types, which take the same way.
-/

namespace Beyond
namespace Inference
namespace Remote

open EventLoop EventObject Events Relay
open Peer.GrpcClient

variable {π η δ : Type*}

/-! ## The client peer -/

/-- A client peer, with its pipeline. -/
structure Client (δ : Type*) where
  gst : Gst.State δ
  /-- How many outputs `GetOutput` has returned. -/
  taken : Nat
  published : List (BitVec 32 × δ)

inductive Call (δ : Type*)
  | gst (a : Gst.Act δ)
  /-- `GetOutput`, which blocks as long as there is no output. -/
  | getOutput
  /-- The peer publishes something else than an answer, without data. -/
  | notice (type : BitVec 32)

def Client.start : Client δ := ⟨.start, 0, []⟩

/-- The event as `PublishEventData` gets it; `null` is the data of an event that has none. -/
def publication (null : δ) (e : Gst.Event δ) : BitVec 32 × δ :=
  (code e.type, (e.data.map Gst.InvokeData.context).getD null)

def Client.step (null : δ) (s : Client δ) : Call δ → Option (Client δ)
  | .gst a =>
      (Gst.step s.gst a).map fun gst =>
        { s with
          gst := gst
          published := s.published ++ (gst.events.drop s.gst.events.length).map (publication null) }
  | .getOutput => if s.taken < s.gst.outputs.length then some { s with taken := s.taken + 1 } else none
  | .notice type => some { s with published := s.published ++ [(type, null)] }

/-- The peer, as far as it publishes events. -/
def peer (null : δ) : Backend (Client δ) (Call δ) δ := ⟨Client.step null, Client.published⟩

/-- The peer as a service. -/
def calls (s : Client δ) : AsyncCall.State (Gst.InvokeData δ) where
  accepted := s.gst.accepted
  outcomes := s.gst.events.map fun e => ok e.type
  told := 0
  taken := s.taken

/-- The pipeline is aligned, and what else is published is neither an answer nor an error. -/
def Client.Aligned (null : δ) (s : Client δ) : Call δ → Prop
  | .gst a => Gst.Aligned s.gst a
  | .getOutput => True
  | .notice type => isAnswer (type, null) = false ∧ type &&& ERROR = 0

instance [DecidableEq δ] (null : δ) (s : Client δ) : (a : Call δ) → Decidable (s.Aligned null a)
  | .gst a => inferInstanceAs (Decidable (Gst.Aligned s.gst a))
  | .getOutput => inferInstanceAs (Decidable True)
  | .notice type =>
      inferInstanceAs (Decidable (isAnswer (type, null) = false ∧ type &&& ERROR = 0))

/-! ## The inference -/

abbrev State (π η δ : Type*) := Relay.State π (Client δ) η δ

abbrev Act (π η δ : Type*) := Relay.Act π (Call δ) η δ

namespace State

variable (s : State π η δ)

def client (p : π) : Client δ := s.backend p

/-- Neither the pipeline of the peer nor an event object has anything left to do. -/
def settled (p : π) : Prop :=
  (s.client p).gst.source = .idle ∧ (s.client p).gst.underway = [] ∧ s.events.idle (.peer p) ∧
    s.events.idle .inference

end State

/-- What the application gets from `GetOutput`, next to what it is told. -/
structure Answered [DecidableEq π] (s : State π η δ) (p : π) : Prop where
  /-- The outputs that it has got are those of the successes, in their order, and each is the output of
  its own input. -/
  outputs : ((s.client p).gst.outputs.take (s.client p).taken).map Gst.Output.data =
    (s.service calls p).takenCalls
  own : ∀ o ∈ (s.client p).gst.outputs, o.data = o.source
  /-- When it is told of a success, `GetOutput` does not block. -/
  ready : (s.client p).taken < (AsyncCall.successes (s.service calls p).toldCalls).length →
    (s.client p).taken < (s.client p).gst.outputs.length
  /-- In the end it was told of every invocation, with its context. -/
  settled : s.settled p →
    (s.told p).map Prod.snd = (s.client p).gst.accepted.map Gst.InvokeData.context

/-! ## The pipeline, step by step -/

section Pipeline

variable {s s' : Gst.State δ}

/-- What a step of an aligned pipeline does to its histories. -/
inductive Stepped (s s' : Gst.State δ) : Prop
  | same (accepted : s'.accepted = s.accepted) (events : s'.events = s.events)
      (outputs : s'.outputs = s.outputs)
  | accepted (i : Gst.InvokeData δ) (accepted : s'.accepted = s.accepted ++ [i])
      (events : s'.events = s.events) (outputs : s'.outputs = s.outputs)
  | failed (i source : Gst.InvokeData δ) (request : s.sink.request = [i])
      (accepted : s'.accepted = s.accepted)
      (events : s'.events = s.events ++ [⟨.inferenceError, some i, source⟩])
      (outputs : s'.outputs = s.outputs)
  | succeeded (i source : Gst.InvokeData δ) (size : Nat) (request : s.sink.request = [i])
      (accepted : s'.accepted = s.accepted)
      (events : s'.events = s.events ++ [⟨.inferenceSuccess, some i, source⟩])
      (outputs : s'.outputs = s.outputs ++ [⟨i, none, size, source⟩])

theorem stepped_push {context : δ} {buffer wrapped : Bool}
    (h : Gst.push s context buffer wrapped = some s') : Stepped s s' := by
  unfold Gst.push at h
  split at h
  · cases h
  · simp only at h
    split at h
    · cases h
      exact .same rfl rfl rfl
    · split at h <;> cases h <;> exact .same rfl rfl rfl

theorem stepped_takeRequest {published : Bool} (hs : Gst.Inv s)
    (haligned : Gst.Aligned s (.takeRequest published))
    (h : Gst.takeRequest s published = some s') : Stepped s s' := by
  unfold Gst.takeRequest at h
  split at h
  · rename_i source numMems hsink
    split at h
    · rename_i hempty
      -- The request of an output is queued by now.
      have hqueue := (hs.inside hsink).aligned
      have hbuffer : source ∈ s.sink.buffer := by simp [hsink, Gst.Sink.buffer]
      have hpending := haligned source hbuffer
      simp only [hempty, List.nil_append, Gst.Sink.unrequested, List.cons_append] at hqueue
      rw [hqueue] at hpending
      exact absurd List.mem_cons_self hpending
    · cases h
      exact .same rfl rfl rfl
  · cases h

theorem stepped_copyTensors {allocated : Bool} {i : Nat} {published : Bool}
    (haligned : Gst.Aligned s (.copyTensors allocated i published))
    (h : Gst.copyTensors s allocated i published = some s') : Stepped s s' := by
  unfold Gst.copyTensors at h
  split at h
  · rename_i source numMems inferenceData hsink
    have hrequest : s.sink.request = [inferenceData] := by rw [hsink]; rfl
    have hcopied : (allocated = true ∧ numMems ≤ i) ∨
        ((allocated = true → i ≠ 0) ∧ published = true) := by
      simpa [Gst.Aligned, hsink, Gst.Sink.numMems] using haligned
    split at h
    · rename_i hallocated
      have hpublished : published = true := by simpa [hallocated] using hcopied
      subst hpublished
      cases h
      exact .failed inferenceData source hrequest rfl rfl rfl
    · rename_i hallocated
      rw [Bool.not_eq_false] at hallocated
      split at h
      · rename_i hlt
        have hanswered := hcopied.resolve_left fun hall => absurd hlt (Nat.not_lt.2 hall.2)
        rw [if_neg (hanswered.1 hallocated), hanswered.2] at h
        cases h
        exact .failed inferenceData source hrequest rfl rfl rfl
      · cases h
        exact .same rfl rfl rfl
  · cases h

theorem stepped_send {ret : Int} (h : Gst.send s ret true = some s') : Stepped s s' := by
  unfold Gst.send at h
  split at h
  · rename_i source numMems inferenceData hsink
    have hrequest : s.sink.request = [inferenceData] := by rw [hsink]; rfl
    split at h
    · cases h
      exact .failed inferenceData source hrequest rfl rfl rfl
    · cases h
      exact .succeeded inferenceData source numMems hrequest rfl rfl rfl
  · cases h

theorem stepped {a : Gst.Act δ} (hs : Gst.Inv s) (haligned : Gst.Aligned s a)
    (h : Gst.step s a = some s') : Stepped s s' := by
  cases a with
  | push context buffer wrapped => exact stepped_push h
  | pushRequest =>
      simp only [Gst.step, Gst.pushRequest] at h
      split at h
      · cases h
      · rename_i invokeData _
        cases h
        exact .accepted invokeData rfl rfl rfl
  | drop i => exact haligned.elim
  | deliver =>
      simp only [Gst.step, Gst.deliver] at h
      split at h
      · cases h
        exact .same rfl rfl rfl
      · cases h
  | checkOutput ret size numMems published =>
      simp only [Gst.step, Gst.checkOutput] at h
      split at h
      · rw [if_neg (Int.not_lt.2 haligned.1), if_neg (not_not.2 haligned.2)] at h
        cases h
        exact .same rfl rfl rfl
      · cases h
  | takeRequest published => exact stepped_takeRequest hs haligned h
  | copyTensors allocated i published => exact stepped_copyTensors haligned h
  | send ret published =>
      have hpublished : published = true := haligned
      subst hpublished
      exact stepped_send h

end Pipeline

/-! ## The peer serves -/

/-- The invocations that were answered, and how. -/
def ended (events : List (Gst.Event δ)) : List (Gst.InvokeData δ × Bool) :=
  events.filterMap fun e => e.data.map fun i => (i, ok e.type)

structure Inv (null : δ) (s : Client δ) : Prop where
  gst : Gst.Inv s.gst
  answered : ∀ e ∈ s.gst.events, e.data.isSome = true
  outputs : s.gst.outputs.map Gst.Output.data = AsyncCall.successes (ended s.gst.events)
  taken : s.taken ≤ s.gst.outputs.length
  published : s.published.filter isAnswer = s.gst.events.map (publication null)

section Serving

variable {null : δ} {s s' : Client δ}

theorem inv_start : Inv null (Client.start : Client δ) := by
  refine ⟨Gst.inv_start, fun e he => ?_, rfl, Nat.le_refl 0, rfl⟩
  cases he

theorem zip_answered {events : List (Gst.Event δ)} (h : ∀ e ∈ events, e.data.isSome = true) :
    (events.filterMap Gst.Event.data).zip (events.map fun e => ok e.type) =
      ended events := by
  induction events with
  | nil => rfl
  | cons e events ih =>
      rcases Option.isSome_iff_exists.1 (h e List.mem_cons_self) with ⟨i, hi⟩
      have hrest := ih fun e' he' => h e' (List.mem_cons_of_mem _ he')
      simpa [ended, hi] using hrest

theorem length_answered {events : List (Gst.Event δ)} (h : ∀ e ∈ events, e.data.isSome = true) :
    (events.filterMap Gst.Event.data).length = events.length := by
  induction events with
  | nil => rfl
  | cons e events ih =>
      rcases Option.isSome_iff_exists.1 (h e List.mem_cons_self) with ⟨i, hi⟩
      have hrest := ih fun e' he' => h e' (List.mem_cons_of_mem _ he')
      simp [hi, hrest]

theorem map_answer (null : δ) {events : List (Gst.Event δ)} (h : ∀ e ∈ events, e.data.isSome = true) :
    events.map (publication null) = (ended events).map (answer Gst.InvokeData.context) := by
  induction events with
  | nil => rfl
  | cons e events ih =>
      rcases Option.isSome_iff_exists.1 (h e List.mem_cons_self) with ⟨i, hi⟩
      have hrest := ih fun e' he' => h e' (List.mem_cons_of_mem _ he')
      simpa [ended, hi, publication, answer, answerType_ok] using hrest

/-- The first calls are those that were answered. -/
theorem completed (hs : Inv null s) : (calls s).completed = ended s.gst.events := by
  have haccepted := hs.gst.accepted
  have hlength : s.gst.answered.length = s.gst.events.length := length_answered hs.answered
  calc (calls s).completed
      = (s.gst.answered ++ (s.gst.sink.request ++ s.gst.requestQueue)).zip
          ((s.gst.events.map fun e => ok e.type) ++ []) := by
        simp only [AsyncCall.State.completed, calls, haccepted, List.append_nil]
    _ = s.gst.answered.zip (s.gst.events.map fun e => ok e.type) := by
        rw [List.zip_append (hlength.trans (List.length_map _).symm), List.zip_nil_right,
          List.append_nil]
    _ = ended s.gst.events := zip_answered hs.answered

/-- The request in hand is not answered yet. -/
theorem length_outcomes_lt (hs : Inv null s) {i : Gst.InvokeData δ}
    (hrequest : s.gst.sink.request = [i]) :
    (calls s).outcomes.length < (calls s).accepted.length := by
  have hlength := length_answered hs.answered
  simp only [calls, hs.gst.accepted, hrequest, Gst.State.answered]
  simp [hlength]

theorem count_outcomes (hs : Inv null s) :
    (calls s).outcomes.count true = s.gst.outputs.length := by
  have hle : (calls s).outcomes.length ≤ (calls s).accepted.length := by
    have hlength := length_answered hs.answered
    simp [calls, hs.gst.accepted, Gst.State.answered, hlength]
  calc (calls s).outcomes.count true
      = (AsyncCall.successes (calls s).completed).length := (AsyncCall.length_successes hle).symm
    _ = (s.gst.outputs.map Gst.Output.data).length := by rw [completed hs, hs.outputs]
    _ = s.gst.outputs.length := List.length_map _

theorem ended_append (events : List (Gst.Event δ)) (type : EventType) (i source : Gst.InvokeData δ) :
    ended (events ++ [⟨type, some i, source⟩]) = ended events ++ [(i, ok type)] := by
  simp [ended]

/-- One more answer was published. -/
theorem answered_append {events : List (Gst.Event δ)} (h : ∀ e ∈ events, e.data.isSome = true)
    (type : EventType) (i source : Gst.InvokeData δ) :
    ∀ e ∈ events ++ [⟨type, some i, source⟩], e.data.isSome = true := by
  intro e he
  rcases List.mem_append.1 he with hold | hnew
  · exact h e hold
  · rw [List.mem_singleton.1 hnew]
    rfl

/-- A pipeline that was aligned stays so, and so does what the peer makes of it. -/
theorem inv_gst {a : Gst.Act δ} {gst : Gst.State δ} (hs : Inv null s)
    (haligned : Gst.Aligned s.gst a) (h : Gst.step s.gst a = some gst) :
    Inv null { s with
      gst := gst
      published := s.published ++ (gst.events.drop s.gst.events.length).map (publication null) } := by
  have hgst := Gst.inv_step hs.gst haligned h
  cases stepped hs.gst haligned h with
  | same haccepted hevents houtputs =>
      refine ⟨hgst, ?_, ?_, ?_, ?_⟩
      · simpa only [hevents] using hs.answered
      · simpa only [hevents, houtputs] using hs.outputs
      · simpa only [houtputs] using hs.taken
      · simpa [hevents] using hs.published
  | accepted i haccepted hevents houtputs =>
      refine ⟨hgst, ?_, ?_, ?_, ?_⟩
      · simpa only [hevents] using hs.answered
      · simpa only [hevents, houtputs] using hs.outputs
      · simpa only [houtputs] using hs.taken
      · simpa [hevents] using hs.published
  | failed i source hrequest haccepted hevents houtputs =>
      refine ⟨hgst, ?_, ?_, ?_, ?_⟩
      · simpa only [hevents] using answered_append hs.answered _ i source
      · simpa [hevents, houtputs, ended_append, AsyncCall.successes, ok] using hs.outputs
      · simpa only [houtputs] using hs.taken
      · simp [hevents, hs.published, publication, isAnswer_code]
  | succeeded i source size hrequest haccepted hevents houtputs =>
      refine ⟨hgst, ?_, ?_, ?_, ?_⟩
      · simpa only [hevents] using answered_append hs.answered _ i source
      · simpa [hevents, houtputs, ended_append, AsyncCall.successes, ok] using hs.outputs
      · simpa [houtputs] using Nat.le_succ_of_le hs.taken
      · simp [hevents, hs.published, publication, isAnswer_code]

theorem inv_step {a : Call δ} (hs : Inv null s) (haligned : s.Aligned null a)
    (h : Client.step null s a = some s') : Inv null s' := by
  cases a with
  | gst a =>
      rcases Option.map_eq_some_iff.1 h with ⟨gst, hstep, rfl⟩
      exact inv_gst hs haligned hstep
  | getOutput =>
      simp only [Client.step] at h
      split at h
      · rename_i hlt
        cases h
        exact ⟨hs.gst, hs.answered, hs.outputs, hlt, hs.published⟩
      · cases h
  | notice type =>
      cases h
      refine ⟨hs.gst, hs.answered, hs.outputs, hs.taken, ?_⟩
      simp [List.filter_append, haligned.1, hs.published]

theorem simulated_gst {a : Gst.Act δ} {gst : Gst.State δ} (hs : Inv null s)
    (haligned : Gst.Aligned s.gst a) (h : Gst.step s.gst a = some gst)
    (published : List (BitVec 32 × δ)) (told : Nat) :
    ∃ bs, Run.exec AsyncCall.step { calls s with told := told } bs =
      some { calls ⟨gst, s.taken, published⟩ with told := told } := by
  cases stepped hs.gst haligned h with
  | same haccepted hevents houtputs =>
      refine ⟨[], ?_⟩
      simp only [Run.exec_nil, calls, haccepted, hevents]
  | accepted i haccepted hevents houtputs =>
      refine ⟨[.accept i], ?_⟩
      simp [AsyncCall.step, Run.exec_cons, calls, haccepted, hevents]
  | failed i source hrequest haccepted hevents houtputs =>
      refine ⟨[.complete false], ?_⟩
      rw [Run.exec_cons]
      simp only [AsyncCall.step, length_outcomes_lt hs hrequest, if_true]
      simp [calls, haccepted, hevents, ok]
  | succeeded i source size hrequest haccepted hevents houtputs =>
      refine ⟨[.complete true], ?_⟩
      rw [Run.exec_cons]
      simp only [AsyncCall.step, length_outcomes_lt hs hrequest, if_true]
      simp [calls, haccepted, hevents, ok]

theorem simulated {a : Call δ} (hs : Inv null s) (haligned : s.Aligned null a)
    (h : Client.step null s a = some s') (told : Nat) :
    ∃ bs, Run.exec AsyncCall.step { calls s with told := told } bs =
      some { calls s' with told := told } := by
  cases a with
  | gst a =>
      rcases Option.map_eq_some_iff.1 h with ⟨gst, hstep, rfl⟩
      exact simulated_gst hs haligned hstep _ told
  | getOutput =>
      simp only [Client.step] at h
      split at h
      · rename_i hlt
        cases h
        refine ⟨[.take], ?_⟩
        have hcount : (calls s).taken < (calls s).outcomes.count true := by
          rw [count_outcomes hs]
          exact hlt
        rw [Run.exec_cons]
        simp only [AsyncCall.step, hcount, if_true]
        rfl
      · cases h
  | notice type =>
      cases h
      exact ⟨[], rfl⟩

/-- A pipeline publishes at most one answer at a time. -/
theorem published_step {a : Call δ} (hs : Inv null s) (haligned : s.Aligned null a)
    (h : Client.step null s a = some s') : s'.published = s.published ∨
      ∃ e, s'.published = s.published ++ [e] ∧ e.1 &&& ERROR = 0 := by
  cases a with
  | gst a =>
      rcases Option.map_eq_some_iff.1 h with ⟨gst, hstep, rfl⟩
      cases stepped hs.gst haligned hstep with
      | same haccepted hevents houtputs => exact .inl (by simp [hevents])
      | accepted i haccepted hevents houtputs => exact .inl (by simp [hevents])
      | failed i source hrequest haccepted hevents houtputs =>
          exact .inr ⟨publication null ⟨.inferenceError, some i, source⟩, by simp [hevents],
            code_clean _⟩
      | succeeded i source size hrequest haccepted hevents houtputs =>
          exact .inr ⟨publication null ⟨.inferenceSuccess, some i, source⟩, by simp [hevents],
            code_clean _⟩
  | getOutput =>
      simp only [Client.step] at h
      split at h
      · cases h
        exact .inl rfl
      · cases h
  | notice type =>
      cases h
      exact .inr ⟨(type, null), rfl, haligned.2⟩

/-- A peer with an aligned pipeline serves the application. -/
theorem serves (null : δ) : Serves (peer null) (Client.Aligned null) (Inv null) calls
    Gst.InvokeData.context := by
  constructor
  · exact fun _ _ _ hs hG h => inv_step hs hG h
  · exact fun _ _ _ told hs hG h => simulated hs hG h told
  · intro s hs
    refine ⟨s.gst.events.length, by simp [calls], ?_⟩
    have hlength : (ended s.gst.events).length = s.gst.events.length := by
      have hmap := congrArg List.length (map_answer null hs.answered)
      simpa using hmap.symm
    rw [completed hs, List.take_of_length_le (Nat.le_of_eq hlength)]
    exact hs.published.trans (map_answer null hs.answered)
  · exact fun _ _ _ hs hG h => published_step hs hG h

end Serving

/-! ## Outputs -/

section Outputs

variable [DecidableEq π] {null : δ} {s : State π η δ} {p : π}

theorem answered_outputs (hs : Inv null (s.client p)) :
    ((s.client p).gst.outputs.take (s.client p).taken).map Gst.Output.data =
      (s.service calls p).takenCalls := by
  have hcompleted : (s.service calls p).completed = ended (s.client p).gst.events := completed hs
  rw [AsyncCall.State.takenCalls, hcompleted, ← hs.outputs]
  exact List.map_take

/-- A success that the application was told of has its output in the queue, or had it there. -/
theorem answered_ready (hs : Inv null (s.client p))
    (hlt : (s.client p).taken < (AsyncCall.successes (s.service calls p).toldCalls).length) :
    (s.client p).taken < (s.client p).gst.outputs.length := by
  have hprefix : AsyncCall.successes (s.service calls p).toldCalls <+:
      AsyncCall.successes (calls (s.client p)).completed :=
    AsyncCall.successes_prefix (List.take_prefix _ _)
  have hle := hprefix.length_le
  rw [completed hs, ← hs.outputs, List.length_map] at hle
  exact Nat.lt_of_lt_of_le hlt hle

theorem answered_settled (hs : Inv null (s.client p))
    (hrelayed : Relayed (peer null) calls Gst.InvokeData.context s p) (hsettled : s.settled p) :
    (s.told p).map Prod.snd = (s.client p).gst.accepted.map Gst.InvokeData.context := by
  rcases hsettled with ⟨hsource, hunderway, hpeer, hinference⟩
  have haccepted : (s.client p).gst.accepted = (s.client p).gst.answered := by
    have hall := hs.gst.all
    rw [hsource, hunderway] at hall
    simpa [Gst.Source.pending] using hall
  have hpublished : (s.client p).published.filter isAnswer =
      (ended (s.client p).gst.events).map (answer Gst.InvokeData.context) :=
    hs.published.trans (map_answer null hs.answered)
  have hended : (ended (s.client p).gst.events).map Prod.fst = (s.client p).gst.answered := by
    rw [← zip_answered hs.answered]
    exact List.map_fst_zip (by simp [length_answered hs.answered])
  calc (s.told p).map Prod.snd
      = (((s.client p).published.filter isAnswer).map stamp).map Prod.snd := by
        rw [hrelayed.complete hpeer hinference]
        rfl
    _ = ((ended (s.client p).gst.events).map Prod.fst).map Gst.InvokeData.context := by
        rw [hpublished]
        simp only [List.map_map]
        rfl
    _ = (s.client p).gst.accepted.map Gst.InvokeData.context := by rw [hended, haccepted]

end Outputs

/-! ## Runs -/

section Inference

variable [DecidableEq π] [DecidableEq η] [DecidableEq δ]

def step (null : δ) (setup : Setup η δ) : State π η δ → Act π η δ → Option (State π η δ) :=
  Relay.step (peer null) setup

def Sound (null : δ) (setup : Setup η δ) : State π η δ → Act π η δ → Prop :=
  Relay.Sound (Client.Aligned null) setup

instance (null : δ) (setup : Setup η δ) (s : State π η δ) (a : Act π η δ) :
    Decidable (Sound null setup s a) :=
  inferInstanceAs (Decidable (Relay.Sound (Client.Aligned null) setup s a))

/-- Whatever the order in which the application calls, the pipelines work and events are fetched, each
aligned peer of a remote inference is an asynchronous service to the application: it is told of the
invocations in their order, once each and as they have ended, and `GetOutput` gives it the outputs of
the successes. -/
theorem remote_service (null : δ) (setup : Setup η δ)
    (handlers : Site π → List (Registration η δ)) (acts : List (Act π η δ)) (s : State π η δ) (p : π)
    (htracked : setup.tracked.type &&& READ ≠ 0)
    (hregistered : ∀ x, (handlers x).count (setup.followed x) = 1)
    (hsound : Run.Along (step null setup) (Sound null setup) (.start .start handlers) acts)
    (hexec : Run.exec (step null setup) (.start .start handlers) acts = some s) :
    Relayed (peer null) calls Gst.InvokeData.context s p ∧ Answered s p := by
  have hinv : Relay.Inv (peer null) (Inv null) setup s :=
    Run.exec_invariant (fun _ _ _ hs hG h => Relay.inv_step (serves null) htracked hs hG h)
      (Relay.inv_start inv_start rfl hregistered) hsound hexec
  have hrelayed : Relayed (peer null) calls Gst.InvokeData.context s p :=
    relayed_run (serves null) htracked inv_start rfl rfl hregistered hsound hexec p
  have hs : Inv null (s.client p) := hinv.backend p
  exact ⟨hrelayed, answered_outputs hs, hs.gst.outputs, answered_ready hs,
    answered_settled hs hrelayed⟩

end Inference

/-- Two invocations of one peer, the second of which cannot be queued; the other peer tells that its
info has changed.  The application is told of the change and of the first invocation. -/
def shortRun : List (Act Bool Nat Nat) :=
  [.backend true (.gst (.push 10 true true)) 0, .backend true (.gst .deliver) 0,
    .backend true (.gst .pushRequest) 0, .backend true (.gst (.checkOutput 0 2 2 true)) 0,
    .backend false (.notice 0x02000400) 1, .backend true (.gst (.push 11 true true)) 0,
    .backend true (.gst (.takeRequest true)) 0, .backend true (.gst (.copyTensors true 2 true)) 0,
    .event (.fetch (.peer false) false), .backend true (.gst .pushRequest) 0,
    .backend true (.gst (.send 0 true)) 2, .event (.next (.peer false) .renew 3),
    .event (.fetch (.peer true) false), .event (.next (.peer true) .renew 4),
    .event (.fetch .inference false), .event (.next .inference .renew 0),
    .event (.next .inference .renew 0), .event (.finish .inference), .event (.fetch .inference false),
    .event (.next .inference .renew 0), .event (.next .inference .renew 0),
    .backend true .getOutput 0, .backend true (.gst .deliver) 0,
    .backend true (.gst (.checkOutput 0 2 2 true)) 0, .backend true (.gst (.takeRequest true)) 0,
    .backend true (.gst (.copyTensors true 2 true)) 0, .backend true (.gst (.send (-1) true)) 5]

theorem shortRun_services :
    ∃ s, Run.exec (step 0 appSetup) (.start .start appHandlers) shortRun = some s ∧
      s.told true = [(0x01000210, 10)] ∧ s.events.delivered false = [(0x02000410, 0)] ∧
      (s.client true).taken = 1 ∧
      Relayed (peer 0) calls Gst.InvokeData.context s true ∧ Answered s true := by
  refine ⟨_, rfl, by decide, by decide, rfl, ?_⟩
  refine remote_service 0 appSetup appHandlers shortRun _ true (by decide) ?_ (by decide) rfl
  intro x
  cases x with
  | peer p => rfl
  | inference => decide

end Remote
end Inference
end Beyond
