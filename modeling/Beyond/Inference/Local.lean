import Beyond.Inference.Relay
import Beyond.Runtime.Async

/-!
# Local inference

`Inference::impl::local` hands every call to the runtime that `AddRuntime` was given, and the events
of the runtime on to the handlers of the application.  With the asynchronous emulator for a runtime,
this module puts the two ends together: the calls of the application, the worker, the fetches from
the two event objects and the changes of their handlers, in any order.
-/

namespace Beyond
namespace Inference
namespace Local

open EventLoop EventObject Errno Events Relay
open Beyond.Runtime

variable {τ η δ : Type*}

/-! ## The runtime -/

/-- The event as `PublishEventData` gets it. -/
def published (eventData : Async.EventData δ) : BitVec 32 × δ := (code eventData.type, eventData.data)

/-- The emulator, as far as it publishes events. -/
def runtime : Backend (Async.State τ δ) (Async.Act τ δ) δ where
  step := Async.step
  published s := s.events.map published

/-- The emulator as a service: a call has ended with success as soon as its output is queued. -/
def calls (s : Async.State τ δ) : AsyncCall.State (Nat × δ) where
  accepted := s.accepted
  outcomes := s.events.map (fun eventData => ok eventData.type) ++ s.worker.succeeding.map fun _ => true
  told := 0
  taken := s.taken.length

/-! ## The inference -/

/-- `AddRuntime`, for a runtime with these handlers: the handlers afterwards. -/
def addRuntime [DecidableEq η] [DecidableEq δ] (setup : Setup η δ) (runtime : Option Unit)
    (handlers : List (Registration η δ)) : Int × Option Unit × List (Registration η δ) :=
  if runtime.isSome then (-ENOTSUP, runtime, handlers)
  else if handlers.any fun d => overlaps setup.relay ⟨d, false, false⟩ then
    (-EALREADY, runtime, handlers)
  else (0, some (), handlers ++ [setup.relay])

abbrev State (τ η δ : Type*) := Relay.State Unit (Async.State τ δ) η δ

abbrev Act (τ η δ : Type*) := Relay.Act Unit (Async.Act τ δ) η δ

namespace State

variable (s : State τ η δ)

/-- The emulator. -/
def emulator : Async.State τ δ := s.backend ()

/-- Neither the worker nor an event object has anything left to do. -/
def settled : Prop :=
  s.emulator.worker = .idle ∧ s.emulator.command = [] ∧ s.events.idle (.peer ()) ∧
    s.events.idle .inference

end State

section Inference

variable [DecidableEq η] [DecidableEq δ]

def step (setup : Setup η δ) : State τ η δ → Act τ η δ → Option (State τ η δ) :=
  Relay.step runtime setup

/-- `AddRuntime` has registered its handler behind those that the runtime had before. -/
def State.start (setup : Setup η δ) (own application : List (Registration η δ)) : State τ η δ :=
  Relay.State.start Async.State.start fun
    | .peer () => (addRuntime setup none own).2.2
    | .inference => application

def Sound (setup : Setup η δ) : State τ η δ → Act τ η δ → Prop := Relay.Sound Async.Sound setup

instance (setup : Setup η δ) (s : State τ η δ) (a : Act τ η δ) : Decidable (Sound setup s a) :=
  inferInstanceAs (Decidable (Relay.Sound Async.Sound setup s a))

end Inference

/-! ## The property -/

/-- What the application gets from `GetOutput`, next to what it is told. -/
structure Answered (s : State τ η δ) : Prop where
  /-- The outputs that it has got are those of the successes, in their order. -/
  outputs : s.emulator.taken.map Prod.fst = (s.service calls ()).takenCalls.map Prod.fst
  tensors : ∀ p ∈ s.emulator.taken, s.emulator.outputOf p.1 = some p.2
  /-- When it is told of a success, `GetOutput` does not block and does not fail. -/
  ready : s.emulator.taken.length < (AsyncCall.successes (s.service calls ()).toldCalls).length →
    ∃ arg rest, s.emulator.output = arg :: rest ∧ 0 ≤ arg.value
  /-- In the end it was told of every invocation, with its context. -/
  settled : s.settled → (s.told ()).map Prod.snd = s.emulator.accepted.map Prod.snd

/-! ## The runtime serves -/

theorem answer_invocation (eventData : Async.EventData δ) :
    answer Prod.snd (eventData.invocation, ok eventData.type) = published eventData := by
  simp only [answer, answerType_ok, published, Async.EventData.invocation]

section Serving

variable {s s' : Async.State τ δ}

theorem calls_congr (haccepted : s'.accepted = s.accepted) (hevents : s'.events = s.events)
    (hworker : s'.worker.succeeding = s.worker.succeeding) (htaken : s'.taken = s.taken) :
    calls s' = calls s := by
  simp only [calls, haccepted, hevents, hworker, htaken]

/-- The events are the answers of the first calls. -/
theorem answers (hs : Async.Inv s) : s.events.length ≤ (calls s).outcomes.length ∧
    (s.events.map published).filter isAnswer =
      ((calls s).completed.take s.events.length).map (answer Prod.snd) := by
  constructor
  · simp [calls]
  · have hcompleted : (calls s).completed.take s.events.length =
        s.events.map fun eventData => (eventData.invocation, ok eventData.type) := by
      simp only [AsyncCall.State.completed, calls, hs.events]
      rw [List.zip_append (by simp), List.take_left' (by simp), List.zip_map']
    rw [hcompleted, List.map_map, List.filter_eq_self.2]
    · exact List.map_congr_left fun eventData _ => (answer_invocation eventData).symm
    · intro e he
      rcases List.mem_map.1 he with ⟨eventData, -, rfl⟩
      exact isAnswer_code eventData.type eventData.data

/-- What is queued has succeeded, and is taken or still to be taken. -/
theorem count_outcomes (hs : Async.Inv s) :
    (calls s).outcomes.count true = s.taken.length + s.output.length := by
  have hevents : (s.events.map fun eventData => ok eventData.type).count true = s.successes.length := by
    rw [List.count_eq_countP, List.countP_map, List.countP_eq_length_filter]
    simp only [Async.State.successes, List.length_map]
    congr 1
    exact List.filter_congr fun e _ => by simp [ok]
  have hworker : (s.worker.succeeding.map fun _ => true).count true = s.worker.succeeding.length := by
    simp
  calc (calls s).outcomes.count true
      = s.successes.length + s.worker.succeeding.length := by
        rw [calls, List.count_append, hevents, hworker]
    _ = s.queued.length := by rw [hs.queued, List.length_append]
    _ = s.taken.length + s.output.length := by rw [hs.served]; simp

/-- As long as the worker has an invocation in hand, a call has not ended. -/
theorem length_outcomes_lt (hs : Async.Inv s) (hworker : s.worker.unpublished ≠ [])
    (hsucceeding : s.worker.succeeding = []) :
    (calls s).outcomes.length < (calls s).accepted.length := by
  have hpos := List.length_pos_iff.2 hworker
  simp only [calls, hs.events, hsucceeding]
  simp
  omega

theorem simulated_invoke (tensor : τ) (context : δ) (allocated : Bool) (sent : Int) (told : Nat) :
    ∃ bs, Run.exec AsyncCall.step { calls s with told := told } bs =
      some { calls (Async.invoke s tensor context allocated sent) with told := told } := by
  unfold Async.invoke
  split
  · exact ⟨[], rfl⟩
  · split
    · exact ⟨[], rfl⟩
    · exact ⟨[.accept (s.allocated, context)], rfl⟩

theorem simulated_getOutput (hs : Async.Inv s) {recv : Int} (h : Async.getOutput s recv = some s')
    (told : Nat) : ∃ bs, Run.exec AsyncCall.step { calls s with told := told } bs =
      some { calls s' with told := told } := by
  unfold Async.getOutput at h
  split at h
  · cases h
    exact ⟨[], rfl⟩
  · split at h
    · cases h
    · rename_i arg rest houtput
      have hvalue : arg.value = 0 := hs.values arg (by simp [houtput])
      rw [if_neg (by omega)] at h
      cases h
      refine ⟨[.take], ?_⟩
      have hcount : (calls s).taken < (calls s).outcomes.count true := by
        rw [count_outcomes hs, houtput]
        simp [calls]
      rw [Run.exec_cons]
      simp only [AsyncCall.step, hcount, if_true]
      simp [calls]

/-- The worker goes on without ending the call in hand. -/
theorem simulated_same (haccepted : s'.accepted = s.accepted) (hevents : s'.events = s.events)
    (hworker : s'.worker.succeeding = s.worker.succeeding) (htaken : s'.taken = s.taken)
    (told : Nat) : ∃ bs, Run.exec AsyncCall.step { calls s with told := told } bs =
      some { calls s' with told := told } :=
  ⟨[], by rw [calls_congr haccepted hevents hworker htaken]; rfl⟩

theorem simulated_send (hs : Async.Inv s) {ret : Int} (hsound : Async.Sound s (.send ret))
    (h : Async.send s ret = some s') (told : Nat) :
    ∃ bs, Run.exec AsyncCall.step { calls s with told := told } bs =
      some { calls s' with told := told } := by
  unfold Async.send at h
  split at h
  · rename_i arg type hworker
    split at h
    · cases h
      refine simulated_same ?_ ?_ ?_ ?_ told <;> simp [hworker, Async.Worker.succeeding]
    · rename_i hsent
      -- Only the output of a success is queued.
      have htype : type = .inferenceSuccess := by
        cases type with
        | inferenceSuccess => rfl
        | inferenceError =>
            have hfailed := hsound.resolve_left hsent
            rw [hworker] at hfailed
            cases hfailed
      subst htype
      cases h
      refine ⟨[.complete true], ?_⟩
      have hlt := length_outcomes_lt hs (by simp [hworker, Async.Worker.unpublished])
        (by simp [hworker, Async.Worker.succeeding])
      rw [Run.exec_cons]
      simp only [AsyncCall.step, hlt, if_true]
      simp [calls, hworker, Async.Worker.succeeding]
  · cases h

theorem simulated_publish (hs : Async.Inv s) {ret : Int} (hret : 0 ≤ ret)
    (h : Async.publish s ret = some s') (told : Nat) :
    ∃ bs, Run.exec AsyncCall.step { calls s with told := told } bs =
      some { calls s' with told := told } := by
  unfold Async.publish at h
  split at h
  · rename_i eventData hworker
    rw [if_neg (Int.not_lt.2 hret)] at h
    cases h
    by_cases htype : eventData.type = .inferenceSuccess
    · -- The call has ended when its output was queued.
      refine ⟨[], ?_⟩
      simp [calls, hworker, Async.Worker.succeeding, htype, ok]
    · refine ⟨[.complete false], ?_⟩
      have hlt := length_outcomes_lt hs (by simp [hworker, Async.Worker.unpublished])
        (by simp [hworker, Async.Worker.succeeding, htype])
      rw [Run.exec_cons]
      simp only [AsyncCall.step, hlt, if_true]
      simp [calls, hworker, Async.Worker.succeeding, htype, ok]
  · cases h

theorem simulated {a : Async.Act τ δ} (hs : Async.Inv s) (hsound : Async.Sound s a)
    (h : Async.step s a = some s') (told : Nat) :
    ∃ bs, Run.exec AsyncCall.step { calls s with told := told } bs =
      some { calls s' with told := told } := by
  cases a with
  | invoke tensor context allocated sent =>
      cases h
      exact simulated_invoke tensor context allocated sent told
  | getOutput recv => exact simulated_getOutput hs h told
  | receive =>
      simp only [Async.step, Async.receive] at h
      split at h
      · rename_i hworker _
        cases h
        refine simulated_same ?_ ?_ ?_ ?_ told <;> simp [hworker, Async.Worker.succeeding]
      · cases h
  | newEventData allocated =>
      simp only [Async.step, Async.newEventData] at h
      split at h
      · rename_i arg hworker
        split at h
        · cases h
          refine simulated_same ?_ ?_ ?_ ?_ told <;> simp [hworker, Async.Worker.succeeding]
        · cases h
          refine simulated_same ?_ ?_ ?_ ?_ told <;> simp [hworker, Async.Worker.succeeding]
      · cases h
  | moduleInvoke ret =>
      simp only [Async.step, Async.moduleInvoke] at h
      split at h
      · rename_i arg hworker
        cases h
        refine simulated_same ?_ ?_ ?_ ?_ told <;> simp [hworker, Async.Worker.succeeding]
      · cases h
  | moduleGetOutput ret tensor =>
      have hret : ¬ ret < 0 := Int.not_lt.2 hsound
      simp only [Async.step, Async.moduleGetOutput, if_neg hret] at h
      split at h
      · rename_i arg type hworker
        cases h
        refine simulated_same ?_ ?_ ?_ ?_ told <;> simp [hworker, Async.Worker.succeeding]
      · cases h
  | send ret => exact simulated_send hs hsound h told
  | publish ret => exact simulated_publish hs hsound h told

/-- Only the last step of the handler publishes. -/
theorem events_step {a : Async.Act τ δ} (h : Async.step s a = some s') :
    s'.events = s.events ∨ ∃ eventData, s'.events = s.events ++ [eventData] := by
  cases a with
  | invoke tensor context allocated sent =>
      cases h
      left
      unfold Async.invoke
      split
      · rfl
      · split <;> rfl
  | getOutput recv =>
      simp only [Async.step, Async.getOutput] at h
      left
      split at h
      · cases h
        rfl
      · split at h
        · cases h
        · split at h <;> cases h <;> rfl
  | receive =>
      simp only [Async.step, Async.receive] at h
      split at h <;> cases h
      exact .inl rfl
  | newEventData allocated =>
      simp only [Async.step, Async.newEventData] at h
      split at h
      · split at h <;> cases h <;> exact .inl rfl
      · cases h
  | moduleInvoke ret =>
      simp only [Async.step, Async.moduleInvoke] at h
      split at h <;> cases h
      exact .inl rfl
  | moduleGetOutput ret tensor =>
      simp only [Async.step, Async.moduleGetOutput] at h
      split at h
      · split at h <;> cases h <;> exact .inl rfl
      · cases h
  | send ret =>
      simp only [Async.step, Async.send] at h
      split at h
      · split at h <;> cases h <;> exact .inl rfl
      · cases h
  | publish ret =>
      simp only [Async.step, Async.publish] at h
      split at h
      · rename_i eventData _
        split at h
        · cases h
          exact .inl rfl
        · cases h
          exact .inr ⟨eventData, rfl⟩
      · cases h

/-- The emulator serves the application. -/
theorem serves : Serves (runtime : Backend (Async.State τ δ) _ δ) Async.Sound Async.Inv calls
    Prod.snd := by
  constructor
  · exact fun _ _ _ hs hG h => Async.inv_step hs hG h
  · exact fun _ _ _ told hs hG h => simulated hs hG h told
  · exact fun s hs => ⟨s.events.length, answers hs⟩
  · intro s a s' _ _ h
    rcases events_step h with hsame | ⟨eventData, hnew⟩
    · exact .inl (congrArg (List.map published) hsame)
    · refine .inr ⟨published eventData, ?_, code_clean eventData.type⟩
      simp [runtime, hnew]

/-! ## Outputs -/

/-- The calls that have ended with success are those whose outputs were queued. -/
theorem successes_completed (hs : Async.Inv s) :
    (AsyncCall.successes (calls s).completed).map Prod.fst = s.queued := by
  have hevents : (AsyncCall.successes (s.events.map fun e => (e.invocation, ok e.type))).map Prod.fst =
      s.successes := by
    simp only [AsyncCall.successes, List.filter_map, List.map_map, Async.State.successes]
    rfl
  have hworker : (AsyncCall.successes ((s.worker.unpublished ++
      s.command.map Async.CommandData.invocation).zip (s.worker.succeeding.map fun _ => true))).map
        Prod.fst = s.worker.succeeding := by
    cases hw : s.worker with
    | publishing eventData =>
        by_cases htype : eventData.type = .inferenceSuccess
        · simp [AsyncCall.successes, Async.Worker.succeeding, Async.Worker.unpublished, htype,
            Async.EventData.invocation]
        · simp [AsyncCall.successes, Async.Worker.succeeding, htype]
    | _ => simp [AsyncCall.successes, Async.Worker.succeeding]
  calc (AsyncCall.successes (calls s).completed).map Prod.fst
      = s.successes ++ s.worker.succeeding := by
        rw [AsyncCall.State.completed, calls, hs.events, List.zip_append (by simp), List.zip_map',
          AsyncCall.successes_append, List.map_append, hevents, hworker]
    _ = s.queued := hs.queued.symm

end Serving

section Outputs

variable {s : State τ η δ}

theorem answered_outputs (hs : Async.Inv s.emulator) :
    s.emulator.taken.map Prod.fst = (s.service calls ()).takenCalls.map Prod.fst := by
  have hserved : (AsyncCall.successes (calls s.emulator).completed).map Prod.fst =
      s.emulator.taken.map Prod.fst ++ s.emulator.output.map Async.CommandData.record :=
    (successes_completed hs).trans hs.served
  calc s.emulator.taken.map Prod.fst
      = ((AsyncCall.successes (calls s.emulator).completed).map Prod.fst).take
          s.emulator.taken.length := by rw [hserved, List.take_left' (by simp)]
    _ = (s.service calls ()).takenCalls.map Prod.fst := List.map_take.symm

/-- A success that the application was told of has its output in the queue, or had it there. -/
theorem answered_ready (hs : Async.Inv s.emulator)
    (hlt : s.emulator.taken.length < (AsyncCall.successes (s.service calls ()).toldCalls).length) :
    ∃ arg rest, s.emulator.output = arg :: rest ∧ 0 ≤ arg.value := by
  have hprefix : AsyncCall.successes (s.service calls ()).toldCalls <+:
      AsyncCall.successes (calls s.emulator).completed :=
    AsyncCall.successes_prefix (List.take_prefix _ _)
  have hlength : (AsyncCall.successes (calls s.emulator).completed).length =
      s.emulator.taken.length + s.emulator.output.length := by
    have hqueued := congrArg List.length ((successes_completed hs).trans hs.served)
    simpa using hqueued
  have hle := hprefix.length_le
  cases houtput : s.emulator.output with
  | nil =>
      rw [houtput, List.length_nil] at hlength
      omega
  | cons arg rest =>
      have hvalue : arg.value = 0 := hs.values arg (by simp [houtput])
      exact ⟨arg, rest, rfl, Int.le_of_eq hvalue.symm⟩

theorem answered_settled (hs : Async.Inv s.emulator)
    (hrelayed : Relayed runtime calls Prod.snd s ()) (hsettled : s.settled) :
    (s.told ()).map Prod.snd = s.emulator.accepted.map Prod.snd := by
  rcases hsettled with ⟨hworker, hcommand, hruntime, hinference⟩
  have haccepted : s.emulator.accepted = s.emulator.events.map Async.EventData.invocation := by
    rw [hs.events, hworker, hcommand]
    simp [Async.Worker.unpublished]
  have hanswers : (s.emulator.events.map published).filter isAnswer =
      s.emulator.events.map published := by
    refine List.filter_eq_self.2 fun e he => ?_
    rcases List.mem_map.1 he with ⟨eventData, -, rfl⟩
    exact isAnswer_code eventData.type eventData.data
  calc (s.told ()).map Prod.snd
      = ((s.emulator.events.map published).map stamp).map Prod.snd := by
        rw [hrelayed.complete hruntime hinference]
        exact congrArg (fun l => (l.map stamp).map Prod.snd) hanswers
    _ = s.emulator.accepted.map Prod.snd := by
        rw [haccepted]
        simp only [List.map_map]
        rfl

end Outputs

section Inference

variable [DecidableEq η] [DecidableEq δ]

/-- `AddRuntime` that returns 0 has registered its handler, which was not there before. -/
theorem count_relay {setup : Setup η δ} {own : List (Registration η δ)}
    (hadded : (addRuntime setup none own).1 = 0) :
    (addRuntime setup none own).2.2.count setup.relay = 1 := by
  unfold addRuntime at hadded ⊢
  simp only [Option.isSome_none, Bool.false_eq_true, if_false] at hadded ⊢
  split at hadded
  · cases hadded
  · rename_i hnone
    have hnot : setup.relay ∉ own := by
      intro hmem
      refine hnone (List.any_eq_true.2 ⟨setup.relay, hmem, ?_⟩)
      have htype : (READ ||| ERROR) &&& (READ ||| ERROR) ≠ 0 := by decide
      exact decide_eq_true ⟨rfl, htype, rfl⟩
    rw [if_neg hnone, List.count_append, List.count_eq_zero_of_not_mem hnot]
    simp

/-- Whatever the order in which the application calls, the worker works and events are fetched, local
inference is an asynchronous service to the application: it is told of the invocations in their order,
once each and as they have ended, and `GetOutput` gives it the outputs of the successes. -/
theorem local_service (setup : Setup η δ) (own application : List (Registration η δ))
    (acts : List (Act τ η δ)) (s : State τ η δ) (htracked : setup.tracked.type &&& READ ≠ 0)
    (hadded : (addRuntime setup none own).1 = 0) (hregistered : application.count setup.tracked = 1)
    (hsound : Run.Along (step setup) (Sound setup) (State.start setup own application) acts)
    (hexec : Run.exec (step setup) (State.start setup own application) acts = some s) :
    Relayed runtime calls Prod.snd s () ∧ Answered s := by
  have hfollowed : ∀ x : Site Unit, (match x with
      | .peer () => (addRuntime setup none own).2.2
      | .inference => application).count (setup.followed x) = 1 := by
    intro x
    cases x with
    | peer p => exact count_relay hadded
    | inference => exact hregistered
  have hinv : Relay.Inv runtime Async.Inv setup s :=
    Run.exec_invariant (fun _ _ _ hs hG h => inv_step serves htracked hs hG h)
      (Relay.inv_start Async.inv_start rfl hfollowed) hsound hexec
  have hrelayed : Relayed runtime calls Prod.snd s () :=
    relayed_run serves htracked Async.inv_start rfl rfl hfollowed hsound hexec ()
  have hs : Async.Inv s.emulator := hinv.backend ()
  exact ⟨hrelayed, answered_outputs hs, fun p hp => (hs.taken p hp).2, answered_ready hs,
    answered_settled hs hrelayed⟩

end Inference

/-- Two inferences, the second of which fails; the application is told of the first one, and gets its
output. -/
def shortRun : List (Act Nat Nat Nat) :=
  [.backend () (.invoke 10 7 true 0) 0, .backend () (.invoke 11 8 true 0) 0, .backend () .receive 0,
    .backend () (.newEventData true) 0, .backend () (.moduleInvoke 0) 0,
    .backend () (.moduleGetOutput 0 20) 0, .backend () (.send 0) 0, .backend () (.publish 0) 1,
    .backend () .receive 0, .backend () (.newEventData true) 0, .backend () (.moduleInvoke (-1)) 0,
    .backend () (.moduleGetOutput 0 21) 0, .event (.fetch (.peer ()) false),
    .backend () (.send (-1)) 0, .event (.next (.peer ()) .renew 2), .backend () (.publish 0) 3,
    .event (.finish (.peer ())), .event (.fetch .inference false),
    .event (.next .inference .renew 0), .backend () (.getOutput 0) 0]

theorem shortRun_service :
    ∃ s, Run.exec (step appSetup) (State.start appSetup [] [appSetup.tracked]) shortRun = some s ∧
      s.told () = [(0x01000210, 7)] ∧ s.emulator.taken = [(0, 20)] ∧
      Relayed runtime calls Prod.snd s () ∧ Answered s :=
  ⟨_, rfl, by decide, rfl, local_service appSetup [] [appSetup.tracked] shortRun _ (by decide) rfl
    (by decide) (by decide) rfl⟩

end Local
end Inference
end Beyond
