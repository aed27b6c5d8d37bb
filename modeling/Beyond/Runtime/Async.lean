import Mathlib.Data.List.Nodup
import Mathlib.Data.List.Range
import Mathlib.Logic.Function.Basic
import Beyond.Base.Platform
import Beyond.Base.Run

/-!
# The asynchronous runtime

`Inference::Runtime::impl::Async` runs a synchronous runtime module on a worker thread.  `Invoke`
sends a `CommandData` record to the worker; `CommandInvokeHandler` runs the module on it, queues the
record for `GetOutput` and publishes an event.  This module interleaves any sequence of `Invoke` and
`GetOutput` calls with the worker.  What the module and the system calls return is part of the
actions.

`step` says what a write does once it gets through.  The descriptors are blocking ones and hold so many
pointers; `Blocking.step` is the system in which a write waits for room.
-/

namespace Beyond
namespace Runtime
namespace Async

/-! ## State -/

/-- `CommandData` as `Invoke` fills it: `args.tensor` and `ret.value`.  `record` is its address;
`tensor` stands for the tensor array with its size. -/
structure CommandData (τ κ : Type*) where
  record : Nat
  tensor : τ
  context : κ
  value : Int
  deriving Repr

/-- An `EventData` that `CommandInvokeHandler` has published, and for which record. -/
structure EventData (κ : Type*) where
  record : Nat
  type : EventType
  data : κ
  deriving Repr

/-- Inside `CommandInvokeHandler`. -/
inductive Worker (τ κ : Type*)
  | idle
  | received (arg : CommandData τ κ)
  /-- `eventData` exists and has the context. -/
  | invoking (arg : CommandData τ κ)
  | fetching (arg : CommandData τ κ) (type : EventType)
  | sending (arg : CommandData τ κ) (type : EventType)
  | publishing (eventData : EventData κ)
  deriving Repr

structure State (τ κ : Type*) where
  /-- Commands that the worker has not received. -/
  command : List (CommandData τ κ)
  worker : Worker τ κ
  /-- Between `outputProducer` and `outputConsumer`. -/
  output : List (CommandData τ κ)
  allocated : Nat
  /-- The `Invoke`s that returned 0. -/
  accepted : List (Nat × κ)
  /-- What was ever sent to `outputProducer`. -/
  queued : List Nat
  events : List (EventData κ)
  /-- What the `GetOutput`s have returned. -/
  taken : List (Nat × τ)
  /-- The tensors that the module gave for a record. -/
  outputOf : Nat → Option τ
  released : List Nat

inductive Act (τ κ : Type*)
  /-- `Invoke`; `sent` is the result of `Send`. -/
  | invoke (tensor : τ) (context : κ) (allocated : Bool) (sent : Int)
  /-- `GetOutput`; `recv` is the result of `Recv`. -/
  | getOutput (recv : Int)
  | receive
  | newEventData (allocated : Bool)
  | moduleInvoke (ret : Int)
  | moduleGetOutput (ret : Int) (tensor : τ)
  | send (ret : Int)
  | publish (ret : Int)

variable {τ κ : Type*}

/-- A step of the worker, not of a caller. -/
def Act.byWorker : Act τ κ → Bool
  | .invoke _ _ _ _ => false
  | .getOutput _ => false
  | _ => true

def CommandData.invocation (arg : CommandData τ κ) : Nat × κ := (arg.record, arg.context)

def EventData.invocation (eventData : EventData κ) : Nat × κ := (eventData.record, eventData.data)

/-! ## Steps -/

def invoke (s : State τ κ) (tensor : τ) (context : κ) (allocated : Bool) (sent : Int) :
    State τ κ :=
  if allocated = false then s
  -- `delete arg`: the worker never sees a record that could not be sent.
  else if sent < 0 then
    { s with allocated := s.allocated + 1, released := s.released ++ [s.allocated] }
  else
    { s with
      command := s.command ++ [⟨s.allocated, tensor, context, 0⟩]
      allocated := s.allocated + 1
      accepted := s.accepted ++ [(s.allocated, context)] }

/-- `Recv` blocks as long as nothing is queued. -/
def getOutput (s : State τ κ) (recv : Int) : Option (State τ κ) :=
  if recv < 0 then some s
  else
    match s.output with
    | [] => none
    | arg :: rest =>
        -- This return does not release the record.
        if arg.value < 0 then some { s with output := rest }
        else
          some { s with
            output := rest
            taken := s.taken ++ [(arg.record, arg.tensor)]
            released := s.released ++ [arg.record] }

/-- `Main` hands the command to `CommandInvokeHandler`. -/
def receive (s : State τ κ) : Option (State τ κ) :=
  match s.worker, s.command with
  | .idle, arg :: rest => some { s with command := rest, worker := .received arg }
  | _, _ => none

def newEventData (s : State τ κ) (allocated : Bool) : Option (State τ κ) :=
  match s.worker with
  | .received arg =>
      -- Without memory the handler returns: no event, and nobody has `arg` any more.
      if allocated = false then some { s with worker := .idle }
      else some { s with worker := .invoking arg }
  | _ => none

def moduleInvoke (s : State τ κ) (ret : Int) : Option (State τ κ) :=
  match s.worker with
  | .invoking arg =>
      some { s with
        worker := .fetching arg (if ret < 0 then .inferenceError else .inferenceSuccess) }
  | _ => none

def moduleGetOutput (s : State τ κ) (ret : Int) (tensor : τ) : Option (State τ κ) :=
  match s.worker with
  | .fetching arg type =>
      -- The branch of the failure leaves `arg` alone.
      if ret < 0 then
        some { s with worker := .publishing ⟨arg.record, .inferenceError, arg.context⟩ }
      else
        some { s with
          worker := .sending { arg with tensor := tensor } type
          outputOf := Function.update s.outputOf arg.record (some tensor) }
  | _ => none

def send (s : State τ κ) (ret : Int) : Option (State τ κ) :=
  match s.worker with
  | .sending arg type =>
      if ret < 0 then
        some { s with
          worker := .publishing ⟨arg.record, .inferenceError, arg.context⟩
          released := s.released ++ [arg.record] }
      else
        some { s with
          worker := .publishing ⟨arg.record, type, arg.context⟩
          output := s.output ++ [arg]
          queued := s.queued ++ [arg.record] }
  | _ => none

def publish (s : State τ κ) (ret : Int) : Option (State τ κ) :=
  match s.worker with
  | .publishing eventData =>
      if ret < 0 then some { s with worker := .idle }
      else some { s with worker := .idle, events := s.events ++ [eventData] }
  | _ => none

def step (s : State τ κ) : Act τ κ → Option (State τ κ)
  | .invoke tensor context allocated sent => some (invoke s tensor context allocated sent)
  | .getOutput recv => getOutput s recv
  | .receive => receive s
  | .newEventData allocated => newEventData s allocated
  | .moduleInvoke ret => moduleInvoke s ret
  | .moduleGetOutput ret tensor => moduleGetOutput s ret tensor
  | .send ret => send s ret
  | .publish ret => publish s ret

def State.start : State τ κ :=
  { command := [], worker := .idle, output := [], allocated := 0, accepted := [], queued := []
    events := [], taken := [], outputOf := fun _ => none, released := [] }

/-! ## The property -/

namespace Worker

/-- The `Invoke` that the worker has in hand, whose event is still to come. -/
def unpublished : Worker τ κ → List (Nat × κ)
  | idle => []
  | received arg => [arg.invocation]
  | invoking arg => [arg.invocation]
  | fetching arg _ => [arg.invocation]
  | sending arg _ => [arg.invocation]
  | publishing eventData => [eventData.invocation]

/-- The record that the worker owns. -/
def held : Worker τ κ → List (CommandData τ κ)
  | idle => []
  | received arg => [arg]
  | invoking arg => [arg]
  | fetching arg _ => [arg]
  | sending arg _ => [arg]
  | publishing _ => []

/-- The record of an event of success that is about to be published. -/
def succeeding : Worker τ κ → List Nat
  | publishing eventData =>
      if eventData.type = .inferenceSuccess then [eventData.record] else []
  | _ => []

/-- The steps until the worker is idle. -/
def remaining : Worker τ κ → Nat
  | idle => 0
  | received _ => 5
  | invoking _ => 4
  | fetching _ _ => 3
  | sending _ _ => 2
  | publishing _ => 1

end Worker

namespace State

/-- The records of the events of success, in order. -/
def successes (s : State τ κ) : List Nat :=
  (s.events.filter fun eventData => eventData.type = .inferenceSuccess).map EventData.record

/-- The records that one party owns. -/
def owned (s : State τ κ) : List Nat :=
  (s.output ++ (s.worker.held ++ s.command)).map CommandData.record

/-- The worker's steps until every accepted `Invoke` has its event. -/
def remaining (s : State τ κ) : Nat := s.worker.remaining + 6 * s.command.length

end State

/-- About to queue the record of an `Invoke` that the module has failed. -/
def Worker.sendsFailed : Worker τ κ → Bool
  | sending _ .inferenceError => true
  | _ => false

/-- No allocation, publication or `GetOutput` of the module fails for an `Invoke`, and one that the
module has failed is not queued. -/
def Sound (s : State τ κ) : Act τ κ → Prop
  | .newEventData allocated => allocated = true
  | .moduleGetOutput ret _ => 0 ≤ ret
  | .send ret => ret < 0 ∨ s.worker.sendsFailed = false
  | .publish ret => 0 ≤ ret
  | _ => True

instance (s : State τ κ) : (a : Act τ κ) → Decidable (Sound s a)
  | .invoke _ _ _ _ => inferInstanceAs (Decidable True)
  | .getOutput _ => inferInstanceAs (Decidable True)
  | .receive => inferInstanceAs (Decidable True)
  | .newEventData allocated => inferInstanceAs (Decidable (allocated = true))
  | .moduleInvoke _ => inferInstanceAs (Decidable True)
  | .moduleGetOutput ret _ => inferInstanceAs (Decidable (0 ≤ ret))
  | .send ret => inferInstanceAs (Decidable (ret < 0 ∨ s.worker.sendsFailed = false))
  | .publish ret => inferInstanceAs (Decidable (0 ≤ ret))

/-! ## The invariant -/

structure Inv (s : State τ κ) : Prop where
  events : s.accepted =
    s.events.map EventData.invocation ++
      (s.worker.unpublished ++ s.command.map CommandData.invocation)
  queued : s.queued = s.successes ++ s.worker.succeeding
  served : s.queued = s.taken.map Prod.fst ++ s.output.map CommandData.record
  records : (List.range s.allocated).Perm (s.released ++ s.owned)
  taken : ∀ p ∈ s.taken, p.1 ∈ s.released ∧ s.outputOf p.1 = some p.2
  output : ∀ arg ∈ s.output, s.outputOf arg.record = some arg.tensor
  sending : ∀ arg type, s.worker = .sending arg type → s.outputOf arg.record = some arg.tensor
  values : ∀ arg ∈ s.output ++ (s.worker.held ++ s.command), arg.value = 0

theorem inv_start : Inv (State.start : State τ κ) := by
  constructor
  case records => exact List.Perm.refl _
  all_goals simp [State.start, State.successes, Worker.unpublished, Worker.succeeding, Worker.held]

/-! ## Progress -/

theorem remaining_lt {s s' : State τ κ} {a : Act τ κ} (ha : a.byWorker = true)
    (h : step s a = some s') : s'.remaining < s.remaining := by
  cases a with
  | invoke tensor context allocated sent => cases ha
  | getOutput recv => cases ha
  | receive =>
      simp only [step, receive] at h
      split at h
      · rename_i hw hc
        cases h
        simp [State.remaining, Worker.remaining, hw, hc]
        omega
      · cases h
  | newEventData allocated =>
      simp only [step, newEventData] at h
      split at h
      · rename_i hw
        split at h <;> cases h <;> simp [State.remaining, Worker.remaining, hw]
      · cases h
  | moduleInvoke ret =>
      simp only [step, moduleInvoke] at h
      split at h
      · rename_i hw
        cases h
        simp [State.remaining, Worker.remaining, hw]
      · cases h
  | moduleGetOutput ret tensor =>
      simp only [step, moduleGetOutput] at h
      split at h
      · rename_i hw
        split at h <;> cases h <;> simp [State.remaining, Worker.remaining, hw]
      · cases h
  | send ret =>
      simp only [step, send] at h
      split at h
      · rename_i hw
        split at h <;> cases h <;> simp [State.remaining, Worker.remaining, hw]
      · cases h
  | publish ret =>
      simp only [step, publish] at h
      split at h
      · rename_i hw
        split at h <;> cases h <;> simp [State.remaining, Worker.remaining, hw]
      · cases h

/-! ## The parts of the invariant -/

/-- A record in hand is neither released nor queued. -/
theorem Inv.not_held {s : State τ κ} (hs : Inv s) {arg : CommandData τ κ}
    (harg : arg ∈ s.worker.held) :
    arg.record ∉ s.released ∧ ∀ other ∈ s.output, other.record ≠ arg.record := by
  have hnodup : (s.released ++ s.owned).Nodup := hs.records.nodup_iff.1 List.nodup_range
  simp only [State.owned, List.map_append] at hnodup
  rw [← List.append_assoc] at hnodup
  have hdisjoint := (List.nodup_append.1 hnodup).2.2
  have hmem : arg.record ∈ s.worker.held.map CommandData.record ++
      s.command.map CommandData.record :=
    List.mem_append_left _ (List.mem_map_of_mem harg)
  constructor
  · intro hreleased
    exact hdisjoint _ (List.mem_append_left _ hreleased) _ hmem rfl
  · intro other hother heq
    have hrecord : other.record ∈ s.output.map CommandData.record := List.mem_map_of_mem hother
    exact hdisjoint _ (List.mem_append_right _ hrecord) _ hmem heq

/-! ## Steps of the callers -/

theorem inv_invoke {s : State τ κ} (hs : Inv s) (tensor : τ) (context : κ) (allocated : Bool)
    (sent : Int) : Inv (invoke s tensor context allocated sent) := by
  unfold invoke
  split
  · exact hs
  · split
    · refine ⟨hs.events, hs.queued, hs.served, ?_, fun p hp => ?_, hs.output, hs.sending, hs.values⟩
      · have hrecords := hs.records.append_right [s.allocated]
        rw [← List.range_succ, List.append_assoc] at hrecords
        show (List.range (s.allocated + 1)).Perm (s.released ++ [s.allocated] ++ s.owned)
        rw [List.append_assoc]
        exact hrecords.trans (List.perm_append_comm.append_left _)
      · exact ⟨List.mem_append_left _ (hs.taken p hp).1, (hs.taken p hp).2⟩
    · refine ⟨?_, hs.queued, hs.served, ?_, hs.taken, hs.output, hs.sending, ?_⟩
      · simp [hs.events, CommandData.invocation]
      · have hrecords := hs.records.append_right [s.allocated]
        rw [← List.range_succ] at hrecords
        simpa [State.owned] using hrecords
      · intro arg harg
        simp only [List.mem_append, List.mem_singleton] at harg
        rcases harg with hout | hheld | hcommand | hnew
        · exact hs.values arg (by simp [hout])
        · exact hs.values arg (by simp [hheld])
        · exact hs.values arg (by simp [hcommand])
        · rw [hnew]

theorem inv_getOutput {s s' : State τ κ} {recv : Int} (hs : Inv s)
    (h : getOutput s recv = some s') : Inv s' := by
  unfold getOutput at h
  split at h
  · cases h
    exact hs
  · split at h
    · cases h
    · rename_i arg rest hout
      have hvalue : arg.value = 0 := hs.values arg (by simp [hout])
      rw [if_neg (by simp [hvalue])] at h
      cases h
      refine ⟨hs.events, hs.queued, ?_, ?_, ?_, ?_, hs.sending, ?_⟩
      · simpa [hout] using hs.served
      · simpa [hout, State.owned] using hs.records
      · intro p hp
        rcases List.mem_append.1 hp with hold | hnew
        · exact ⟨List.mem_append_left _ (hs.taken p hold).1, (hs.taken p hold).2⟩
        · rw [List.mem_singleton] at hnew
          subst hnew
          exact ⟨by simp, hs.output arg (by simp [hout])⟩
      · intro other hother
        exact hs.output other (by simp [hout, hother])
      · intro other hother
        apply hs.values other
        rw [hout]
        exact List.mem_cons_of_mem _ hother

/-! ## Steps of the worker -/

/-- The invariant, read for a worker that is known to be inside a certain step. -/
theorem Inv.inside {s : State τ κ} (hs : Inv s) {worker : Worker τ κ} (hw : s.worker = worker) :
    Inv { s with worker := worker } := by
  subst hw
  exact hs

theorem inv_receive {s s' : State τ κ} (hs : Inv s) (h : receive s = some s') : Inv s' := by
  unfold receive at h
  split at h
  · rename_i arg rest hw hc
    cases h
    have hin := hs.inside hw
    have hevents := hin.events
    have hrecords := hin.records
    have hvalues := hin.values
    simp only [hc, State.owned] at hevents hrecords hvalues
    -- The command is still without an event, now in the hands of the worker.
    exact ⟨hevents, hin.queued, hs.served, hrecords, hs.taken, hs.output, fun _ _ => nofun, hvalues⟩
  · cases h

/-- A step inside the handler that hands nothing on. -/
theorem inv_worker {s : State τ κ} (hs : Inv s) {worker : Worker τ κ}
    (hunpublished : worker.unpublished = s.worker.unpublished) (hheld : worker.held = s.worker.held)
    (hsucceeding : worker.succeeding = s.worker.succeeding)
    (hsending : ∀ arg type, worker ≠ .sending arg type) : Inv { s with worker := worker } := by
  refine ⟨?_, ?_, hs.served, ?_, hs.taken, hs.output, fun arg type h => absurd h (hsending _ _), ?_⟩
  · simpa only [hunpublished] using hs.events
  · simpa only [hsucceeding, State.successes] using hs.queued
  · simpa only [State.owned, hheld] using hs.records
  · simpa only [hheld] using hs.values

theorem inv_newEventData {s s' : State τ κ} (hs : Inv s) (h : newEventData s true = some s') :
    Inv s' := by
  unfold newEventData at h
  split at h
  · rename_i arg hw
    cases h
    exact inv_worker hs (by rw [hw]; rfl) (by rw [hw]; rfl) (by rw [hw]; rfl) (fun _ _ => nofun)
  · cases h

theorem inv_moduleInvoke {s s' : State τ κ} {ret : Int} (hs : Inv s)
    (h : moduleInvoke s ret = some s') : Inv s' := by
  unfold moduleInvoke at h
  split at h
  · rename_i arg hw
    cases h
    exact inv_worker hs (by rw [hw]; rfl) (by rw [hw]; rfl) (by rw [hw]; rfl) (fun _ _ => nofun)
  · cases h

theorem inv_moduleGetOutput {s s' : State τ κ} {ret : Int} {tensor : τ} (hs : Inv s)
    (hret : 0 ≤ ret) (h : moduleGetOutput s ret tensor = some s') : Inv s' := by
  unfold moduleGetOutput at h
  split at h
  · rename_i arg type hw
    rw [if_neg (Int.not_lt.2 hret)] at h
    cases h
    have hin := hs.inside hw
    have hmem : arg ∈ s.worker.held := by
      rw [hw]
      exact List.mem_singleton_self _
    have hnot := hs.not_held hmem
    refine ⟨hin.events, hin.queued, hs.served, ?_, fun p hp => ?_, fun other hother => ?_, ?_, ?_⟩
    · simpa [State.owned, Worker.held] using hin.records
    · -- What was taken is released, so it is not the record in hand.
      have hp' := hs.taken p hp
      have hne : p.1 ≠ arg.record := fun heq => hnot.1 (heq ▸ hp'.1)
      exact ⟨hp'.1, (Function.update_of_ne hne _ _).trans hp'.2⟩
    · exact (Function.update_of_ne (hnot.2 other hother) _ _).trans (hs.output other hother)
    · intro arg' type' h
      cases h
      exact Function.update_self _ _ _
    · -- `arg` has a new tensor, and the value that it had.
      intro other hother
      simp only [Worker.held, List.mem_append, List.mem_singleton] at hother
      rcases hother with hout | hnew | hcommand
      · exact hs.values other (List.mem_append_left _ hout)
      · subst hnew
        exact hs.values arg (List.mem_append_right _ (List.mem_append_left _ hmem))
      · exact hs.values other (List.mem_append_right _ (List.mem_append_right _ hcommand))
  · cases h

theorem inv_send {s s' : State τ κ} {ret : Int} (hs : Inv s)
    (hret : ret < 0 ∨ s.worker.sendsFailed = false)
    (h : send s ret = some s') : Inv s' := by
  unfold send at h
  split at h
  · rename_i arg type hw
    have hin := hs.inside hw
    have hrecords := hin.records
    have hvalues := hin.values
    simp only [State.owned, Worker.held] at hrecords hvalues
    split at h
    · cases h
      refine ⟨hin.events, ?_, hs.served, ?_, fun p hp => ?_, hs.output, fun _ _ => nofun, ?_⟩
      · simpa [Worker.succeeding, State.successes] using hin.queued
      · -- `arg` goes from the middle of the owned records to the end of the released ones.
        refine hrecords.trans ?_
        simp only [State.owned, Worker.held, List.map_append, List.map_cons, List.map_nil,
          List.nil_append, List.append_assoc]
        apply List.Perm.append_left
        rw [← List.append_assoc, ← List.append_assoc]
        exact List.perm_append_comm.append_right _
      · exact ⟨List.mem_append_left _ (hs.taken p hp).1, (hs.taken p hp).2⟩
      · intro other hother
        simp only [Worker.held, List.nil_append, List.mem_append] at hother
        rcases hother with hout | hcommand
        · exact hvalues other (List.mem_append_left _ hout)
        · exact hvalues other (List.mem_append_right _ (List.mem_append_right _ hcommand))
    · rename_i hsent
      -- A record that is queued has an event of success to come.
      have htype : type = .inferenceSuccess := by
        cases type with
        | inferenceSuccess => rfl
        | inferenceError =>
            have hfailed := hret.resolve_left hsent
            rw [hw] at hfailed
            cases hfailed
      subst htype
      cases h
      have hqueued : s.queued = s.successes := by
        simpa [Worker.succeeding, State.successes] using hin.queued
      refine ⟨hin.events, ?_, ?_, ?_, hs.taken, fun other hother => ?_, fun _ _ => nofun, ?_⟩
      · simp [hqueued, Worker.succeeding, State.successes]
      · simp [hs.served]
      · simpa [State.owned, Worker.held] using hrecords
      · rcases List.mem_append.1 hother with hold | hnew
        · exact hs.output other hold
        · rw [List.mem_singleton.1 hnew]
          exact hs.sending arg .inferenceSuccess hw
      · simpa [Worker.held] using hvalues
  · cases h

theorem inv_publish {s s' : State τ κ} {ret : Int} (hs : Inv s) (hret : 0 ≤ ret)
    (h : publish s ret = some s') : Inv s' := by
  unfold publish at h
  split at h
  · rename_i eventData hw
    rw [if_neg (Int.not_lt.2 hret)] at h
    cases h
    have hin := hs.inside hw
    have hqueued : s.queued = s.successes ++ (Worker.publishing eventData).succeeding := hin.queued
    refine ⟨?_, ?_, hs.served, hin.records, hs.taken, hs.output, fun _ _ => nofun, hin.values⟩
    · simpa [Worker.unpublished] using hin.events
    · -- The record that was about to succeed is now among the successes.
      rw [hqueued]
      by_cases htype : eventData.type = .inferenceSuccess
      · simp [State.successes, Worker.succeeding, htype]
      · simp [State.successes, Worker.succeeding, htype]
  · cases h

theorem inv_step {s s' : State τ κ} {a : Act τ κ} (hs : Inv s) (hsound : Sound s a)
    (h : step s a = some s') : Inv s' := by
  cases a with
  | invoke tensor context allocated sent =>
      cases h
      exact inv_invoke hs tensor context allocated sent
  | getOutput recv => exact inv_getOutput hs h
  | receive => exact inv_receive hs h
  | newEventData allocated =>
      have hallocated : allocated = true := hsound
      subst hallocated
      exact inv_newEventData hs h
  | moduleInvoke ret => exact inv_moduleInvoke hs h
  | moduleGetOutput ret tensor => exact inv_moduleGetOutput hs hsound h
  | send ret => exact inv_send hs hsound h
  | publish ret => exact inv_publish hs hsound h

/-! ## Blocking writes -/

/-- How many pointers `command`, `outputProducer` and the event object take before a write waits. -/
structure Pipes where
  command : Nat
  output : Nat
  event : Nat
  deriving DecidableEq, Repr

namespace Blocking

structure State (τ κ : Type*) where
  async : Async.State τ κ
  /-- How many of the events `FetchEventData` has read. -/
  fetched : Nat

inductive Act (τ κ : Type*)
  | async (a : Async.Act τ κ)
  /-- `FetchEventData` reads an event. -/
  | fetchEvent

/-- The events that are still in their pipe. -/
def State.unfetched (s : State τ κ) : Nat := s.async.events.length - s.fetched

/-- No pipe has more than it holds. -/
structure Fits (pipes : Pipes) (s : State τ κ) : Prop where
  command : s.async.command.length ≤ pipes.command
  output : s.async.output.length ≤ pipes.output
  event : s.unfetched ≤ pipes.event

instance (pipes : Pipes) (s : State τ κ) : Decidable (Fits pipes s) :=
  decidable_of_iff (s.async.command.length ≤ pipes.command ∧
      s.async.output.length ≤ pipes.output ∧ s.unfetched ≤ pipes.event)
    ⟨fun h => ⟨h.1, h.2.1, h.2.2⟩, fun h => ⟨h.command, h.output, h.event⟩⟩

/-- The steps, as if there were always room. -/
def move (s : State τ κ) : Act τ κ → Option (State τ κ)
  | .async a => (Async.step s.async a).map fun async => { s with async := async }
  | .fetchEvent => if 0 < s.unfetched then some { s with fetched := s.fetched + 1 } else none

/-- A write waits as long as there is no room for what it writes. -/
def step (pipes : Pipes) : State τ κ → Act τ κ → Option (State τ κ) := Run.within move (Fits pipes)

def State.start : State τ κ := ⟨.start, 0⟩

/-! ## The property -/

/-- No call that the action makes fails. -/
def succeeds : Async.Act τ κ → Bool
  | .newEventData allocated => allocated
  | .moduleInvoke ret => decide (0 ≤ ret)
  | .moduleGetOutput ret _ => decide (0 ≤ ret)
  | .send ret => decide (0 ≤ ret)
  | .publish ret => decide (0 ≤ ret)
  | _ => true

/-- What is asked of every state. -/
structure Paired (pipes : Pipes) (s : State τ κ) : Prop where
  /-- One event for each accepted `Invoke`, with its context and in order; only what the worker has
  in hand or has not received is still without one. -/
  events : s.async.accepted =
    s.async.events.map EventData.invocation ++
      (s.async.worker.unpublished ++ s.async.command.map CommandData.invocation)
  /-- As long as an event is missing, the worker does not wait, and its steps come to an end. -/
  served : s.async.events.length < s.async.accepted.length →
    ∃ a : Async.Act τ κ, a.byWorker = true ∧ succeeds a = true ∧
      (step pipes s (.async a)).isSome = true
  progress : ∀ (a : Async.Act τ κ) s', a.byWorker = true → step pipes s (.async a) = some s' →
    s'.async.remaining < s.async.remaining
  /-- What is queued are the records of the events of success, each before its event. -/
  queued : s.async.queued = s.async.successes ++ s.async.worker.succeeding
  /-- The `k`-th `GetOutput` returns the tensors of the `k`-th success. -/
  taken : ∀ (k record : Nat) (tensor : τ), s.async.taken[k]? = some (record, tensor) →
    s.async.queued[k]? = some record ∧ s.async.outputOf record = some tensor
  /-- Every record is released once, or one party owns it. -/
  records : (List.range s.async.allocated).Perm (s.async.released ++ s.async.owned)

/-- As in `Async.Sound`; and when the module's `GetOutput` has returned, there is room for the output
and for the event. -/
def Sound (pipes : Pipes) (s : State τ κ) : Act τ κ → Prop
  | .async (.moduleGetOutput ret _) =>
      0 ≤ ret ∧ s.async.output.length < pipes.output ∧ s.unfetched < pipes.event
  | .async a => Async.Sound s.async a
  | .fetchEvent => True

instance (pipes : Pipes) (s : State τ κ) : (a : Act τ κ) → Decidable (Sound pipes s a)
  | .async (.moduleGetOutput ret _) => inferInstanceAs (Decidable
      (0 ≤ ret ∧ s.async.output.length < pipes.output ∧ s.unfetched < pipes.event))
  | .async (.invoke tensor context allocated sent) =>
      inferInstanceAs (Decidable (Async.Sound s.async (.invoke tensor context allocated sent)))
  | .async (.getOutput recv) => inferInstanceAs (Decidable (Async.Sound s.async (.getOutput recv)))
  | .async .receive => inferInstanceAs (Decidable (Async.Sound s.async .receive))
  | .async (.newEventData allocated) =>
      inferInstanceAs (Decidable (Async.Sound s.async (.newEventData allocated)))
  | .async (.moduleInvoke ret) =>
      inferInstanceAs (Decidable (Async.Sound s.async (.moduleInvoke ret)))
  | .async (.send ret) => inferInstanceAs (Decidable (Async.Sound s.async (.send ret)))
  | .async (.publish ret) => inferInstanceAs (Decidable (Async.Sound s.async (.publish ret)))
  | .fetchEvent => inferInstanceAs (Decidable True)

/-! ## The invariant -/

/-- The writes that the worker is about to make find room. -/
def Room (pipes : Pipes) (s : State τ κ) : Prop :=
  match s.async.worker with
  | .sending _ _ => s.async.output.length < pipes.output ∧ s.unfetched < pipes.event
  | .publishing _ => s.unfetched < pipes.event
  | _ => True

structure Inv (pipes : Pipes) (s : State τ κ) : Prop where
  async : Async.Inv s.async
  fits : Fits pipes s
  room : Room pipes s

variable {pipes : Pipes} {s s' : State τ κ}

theorem Sound.async {a : Async.Act τ κ} (h : Sound pipes s (.async a)) : Async.Sound s.async a := by
  cases a with
  | moduleGetOutput ret tensor => exact h.1
  | _ => exact h

theorem step_async {a : Async.Act τ κ} (h : step pipes s (.async a) = some s') :
    Async.step s.async a = some s'.async ∧ s'.fetched = s.fetched ∧ Fits pipes s' := by
  rcases Run.within_eq_some.1 h with ⟨hmove, hfits⟩
  rcases Option.map_eq_some_iff.1 hmove with ⟨async, hasync, rfl⟩
  exact ⟨hasync, rfl, hfits⟩

theorem step_isSome {a : Async.Act τ κ} {async : Async.State τ κ}
    (h : Async.step s.async a = some async) (hfits : Fits pipes { s with async := async }) :
    (step pipes s (.async a)).isSome = true :=
  Run.within_isSome (congrArg (Option.map _) h) hfits

/-- The room that the worker has found stays: others only take out of the pipes. -/
theorem Room.mono (h : Room pipes s) (hworker : s'.async.worker = s.async.worker)
    (houtput : s'.async.output.length ≤ s.async.output.length)
    (hevents : s'.unfetched ≤ s.unfetched) : Room pipes s' := by
  cases hw : s.async.worker with
  | sending arg type =>
      rw [Room, hw] at h
      rw [Room, hworker, hw]
      exact ⟨lt_of_le_of_lt houtput h.1, lt_of_le_of_lt hevents h.2⟩
  | publishing eventData =>
      rw [Room, hw] at h
      rw [Room, hworker, hw]
      exact lt_of_le_of_lt hevents h
  | idle | received | invoking | fetching =>
      rw [Room, hworker, hw]
      trivial

theorem room_step {a : Async.Act τ κ} (hs : Inv pipes s) (hsound : Sound pipes s (.async a))
    (h : Async.step s.async a = some s'.async) (hfetched : s'.fetched = s.fetched) :
    Room pipes s' := by
  have hroom := hs.room
  cases a with
  | invoke tensor context allocated sent =>
      have hsame : s'.async.worker = s.async.worker ∧ s'.async.output = s.async.output ∧
          s'.async.events = s.async.events := by
        simp only [Async.step, Option.some.injEq] at h
        rw [← h]
        unfold invoke
        split
        · exact ⟨rfl, rfl, rfl⟩
        · split <;> exact ⟨rfl, rfl, rfl⟩
      refine hroom.mono hsame.1 (by rw [hsame.2.1]) (Nat.le_of_eq ?_)
      rw [State.unfetched, hsame.2.2, hfetched, State.unfetched]
  | getOutput recv =>
      have hless : s'.async.worker = s.async.worker ∧
          s'.async.output.length ≤ s.async.output.length ∧ s'.async.events = s.async.events := by
        simp only [Async.step, getOutput] at h
        split at h
        · rw [← Option.some.inj h]
          exact ⟨rfl, le_rfl, rfl⟩
        · split at h
          · cases h
          · rename_i arg rest houtput
            have hle : rest.length ≤ s.async.output.length := by simp [houtput]
            split at h
            · rw [← Option.some.inj h]
              exact ⟨rfl, hle, rfl⟩
            · rw [← Option.some.inj h]
              exact ⟨rfl, hle, rfl⟩
      refine hroom.mono hless.1 hless.2.1 (Nat.le_of_eq ?_)
      rw [State.unfetched, hless.2.2, hfetched, State.unfetched]
  | receive =>
      simp only [Async.step, receive] at h
      split at h
      · simp only [Option.some.injEq] at h
        simp only [Room, ← h]
      · cases h
  | newEventData allocated =>
      simp only [Async.step, newEventData] at h
      split at h
      · split at h
        · simp only [Option.some.injEq] at h
          simp only [Room, ← h]
        · simp only [Option.some.injEq] at h
          simp only [Room, ← h]
      · cases h
  | moduleInvoke ret =>
      simp only [Async.step, moduleInvoke] at h
      split at h
      · simp only [Option.some.injEq] at h
        simp only [Room, ← h]
      · cases h
  | moduleGetOutput ret tensor =>
      rcases hsound with ⟨hret, houtput, hevent⟩
      simp only [Async.step, moduleGetOutput, if_neg (Int.not_lt.2 hret)] at h
      split at h
      · simp only [Option.some.injEq] at h
        simp only [Room, State.unfetched, ← h, hfetched]
        exact ⟨houtput, hevent⟩
      · cases h
  | send ret =>
      simp only [Async.step, send] at h
      split at h
      · rename_i arg type hworker
        rw [Room, hworker] at hroom
        split at h
        · simp only [Option.some.injEq] at h
          simp only [Room, State.unfetched, ← h, hfetched]
          exact hroom.2
        · simp only [Option.some.injEq] at h
          simp only [Room, State.unfetched, ← h, hfetched]
          exact hroom.2
      · cases h
  | publish ret =>
      simp only [Async.step, publish] at h
      split at h
      · split at h
        · simp only [Option.some.injEq] at h
          simp only [Room, ← h]
        · simp only [Option.some.injEq] at h
          simp only [Room, ← h]
      · cases h

theorem inv_step {a : Act τ κ} (hs : Inv pipes s) (hsound : Sound pipes s a)
    (h : step pipes s a = some s') : Inv pipes s' := by
  cases a with
  | async a =>
      rcases step_async h with ⟨hstep, hfetched, hfits⟩
      exact ⟨Async.inv_step hs.async hsound.async hstep, hfits, room_step hs hsound hstep hfetched⟩
  | fetchEvent =>
      rcases Run.within_eq_some.1 h with ⟨hmove, hfits⟩
      simp only [move] at hmove
      split at hmove
      · cases hmove
        exact ⟨hs.async, hfits,
          hs.room.mono rfl le_rfl (Nat.sub_le_sub_left (Nat.le_succ s.fetched) _)⟩
      · cases hmove

theorem inv_start : Inv pipes (State.start : State τ κ) := by
  refine ⟨Async.inv_start, ⟨Nat.zero_le _, Nat.zero_le _, Nat.zero_le _⟩, ?_⟩
  rw [Room, State.start, Async.State.start]
  trivial

/-- Outside the handler a received command is all the worker needs, inside it nothing but room. -/
theorem worker_enabled (hs : Inv pipes s)
    (h : s.async.worker.unpublished ≠ [] ∨ s.async.command ≠ []) :
    ∃ a : Async.Act τ κ, a.byWorker = true ∧ succeeds a = true ∧
      (step pipes s (.async a)).isSome = true := by
  have hroom := hs.room
  rcases hs.fits with ⟨hcommand, houtput, hevent⟩
  cases hw : s.async.worker with
  | idle =>
      cases hc : s.async.command with
      | nil => simp [hw, hc, Worker.unpublished] at h
      | cons arg rest =>
          have hrest : rest.length ≤ pipes.command := by
            rw [hc] at hcommand
            exact (Nat.le_succ _).trans hcommand
          have hstep : Async.step s.async .receive =
              some { s.async with command := rest, worker := .received arg } := by
            simp only [Async.step, receive, hw, hc]
          exact ⟨.receive, rfl, rfl, step_isSome hstep ⟨hrest, houtput, hevent⟩⟩
  | received arg =>
      have hstep : Async.step s.async (.newEventData true) =
          some { s.async with worker := .invoking arg } := by
        simp [Async.step, newEventData, hw]
      exact ⟨.newEventData true, rfl, rfl, step_isSome hstep ⟨hcommand, houtput, hevent⟩⟩
  | invoking arg =>
      have hstep : Async.step s.async (.moduleInvoke 0) =
          some { s.async with worker := .fetching arg .inferenceSuccess } := by
        simp [Async.step, moduleInvoke, hw]
      exact ⟨.moduleInvoke 0, rfl, rfl, step_isSome hstep ⟨hcommand, houtput, hevent⟩⟩
  | fetching arg type =>
      have hstep : Async.step s.async (.moduleGetOutput 0 arg.tensor) =
          some { s.async with
            worker := .sending arg type
            outputOf := Function.update s.async.outputOf arg.record (some arg.tensor) } := by
        simp [Async.step, moduleGetOutput, hw]
      exact ⟨.moduleGetOutput 0 arg.tensor, rfl, rfl,
        step_isSome hstep ⟨hcommand, houtput, hevent⟩⟩
  | sending arg type =>
      rw [Room, hw] at hroom
      have hmore : (s.async.output ++ [arg]).length ≤ pipes.output := by
        rw [List.length_append]
        exact hroom.1
      have hstep : Async.step s.async (.send 0) =
          some { s.async with
            worker := .publishing ⟨arg.record, type, arg.context⟩
            output := s.async.output ++ [arg]
            queued := s.async.queued ++ [arg.record] } := by
        simp [Async.step, send, hw]
      exact ⟨.send 0, rfl, rfl, step_isSome hstep ⟨hcommand, hmore, hevent⟩⟩
  | publishing eventData =>
      rw [Room, hw] at hroom
      have hmore : (s.async.events ++ [eventData]).length - s.fetched ≤ pipes.event := by
        have hunfetched : s.async.events.length - s.fetched < pipes.event := hroom
        rw [List.length_append, List.length_singleton]
        omega
      have hstep : Async.step s.async (.publish 0) =
          some { s.async with worker := .idle, events := s.async.events ++ [eventData] } := by
        simp [Async.step, publish, hw]
      exact ⟨.publish 0, rfl, rfl, step_isSome hstep ⟨hcommand, houtput, hmore⟩⟩

theorem Inv.paired (hs : Inv pipes s) : Paired pipes s := by
  refine ⟨hs.async.events, fun hlt => worker_enabled hs ?_, fun a s' ha h => ?_,
    hs.async.queued, fun k record tensor hk => ⟨?_, ?_⟩, hs.async.records⟩
  · by_contra hnone
    rw [not_or, not_not, not_not] at hnone
    -- Then every accepted invocation has its event.
    have hall : s.async.accepted = s.async.events.map EventData.invocation := by
      simpa [hnone.1, hnone.2] using hs.async.events
    rw [hall, List.length_map] at hlt
    exact lt_irrefl _ hlt
  · exact remaining_lt ha (step_async h).1
  · rw [hs.async.served, List.getElem?_append_left]
    · simp [hk]
    · simpa using (List.getElem?_eq_some_iff.1 hk).1
  · exact (hs.async.taken _ (List.mem_of_getElem? hk)).2

/-- As long as only the module's `Invoke` fails, its record is then not queued, and outputs and events
are read before their pipes are full, events, outputs and records are paired in every state of every
run. -/
theorem outputs_paired (pipes : Pipes) (as : List (Act τ κ)) (s : State τ κ)
    (hsound : Run.Along (step pipes) (Sound pipes) State.start as)
    (hexec : Run.exec (step pipes) State.start as = some s) : Paired pipes s :=
  (Run.exec_invariant (fun _ _ _ hs hG h => inv_step hs hG h) inv_start hsound hexec).paired

/-! ## Fixed runs -/

/-- The module fails to invoke, and then hands out an output: the event is an error, the output is
queued, and the next `GetOutput` returns it. -/
theorem failed_invoke_queued :
    ∃ s, Run.exec (step ⟨8, 8, 8⟩) (State.start : State Nat Nat)
        (List.map Act.async [.invoke 10 7 true 0, .receive, .newEventData true, .moduleInvoke (-1),
          .moduleGetOutput 0 20, .send 0, .publish 0, .getOutput 0]) = some s ∧
      s.async.events.map EventData.type = [.inferenceError] ∧ s.async.taken = [(0, 20)] ∧
      ¬ Paired ⟨8, 8, 8⟩ s := by
  refine ⟨_, rfl, rfl, rfl, fun h => ?_⟩
  have hqueued : [0] = ([] : List Nat) := h.queued
  cases hqueued

/-- Two inferences over pipes for one pointer each, the second refused by the output queue. -/
def refusedRun : List (Act Nat Nat) :=
  [.async (.invoke 10 7 true 0), .async .receive, .async (.invoke 11 8 true 0),
    .async (.newEventData true), .async (.moduleInvoke 0), .async (.moduleGetOutput 0 20),
    .async (.send 0), .async (.getOutput 0), .async (.publish 0), .async .receive,
    .async (.newEventData true), .fetchEvent, .async (.moduleInvoke 0),
    .async (.moduleGetOutput 0 21), .async (.send (-1)), .async (.publish 0)]

theorem refusedRun_paired :
    ∃ s, Run.exec (step ⟨1, 1, 1⟩) State.start refusedRun = some s ∧
      s.async.events = [⟨0, .inferenceSuccess, 7⟩, ⟨1, .inferenceError, 8⟩] ∧
      s.async.taken = [(0, 20)] ∧ s.async.released = [0, 1] ∧ Paired ⟨1, 1, 1⟩ s :=
  ⟨_, rfl, rfl, rfl, rfl, outputs_paired ⟨1, 1, 1⟩ refusedRun _ (by decide) rfl⟩

end Blocking

end Async
end Runtime
end Beyond
