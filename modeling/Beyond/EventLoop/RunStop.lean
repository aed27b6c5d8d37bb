import Mathlib.Logic.Function.Basic
import Beyond.Base.Platform
import Beyond.Base.Run

/-!
# Running and stopping the event loop

`EventLoop::impl` keeps one `eventLoopState`, which `Run`, `StopLoop` and `ThreadMain` change under a
mutex.  `ThreadMain` runs on a thread of its own or, without `enable_thread`, inside `Run`.  This
module interleaves any number of calls of `Run` and of `StopLoop` (from `Stop` and `Destroy`) with the
`ThreadMain`s that the calls start, one critical section or system call at a time.
-/

namespace Beyond
namespace EventLoop
namespace RunStop

open Errno

/-! ## State -/

/-- `EventLoopState`. -/
inductive LoopState
  | stopped
  | startRequested
  | started
  | stopRequested
  deriving DecidableEq, Repr

def LoopState.flag : LoopState → Nat
  | stopped => 0x00
  | startRequested => 0x01
  | started => 0x02
  | stopRequested => 0x04

/-- `!!(eventLoopState & (STOP_REQUESTED | STOPPED))`. -/
def LoopState.refusesStop (s : LoopState) : Bool :=
  (s.flag &&& (LoopState.stopRequested.flag ||| LoopState.stopped.flag)) != 0

/-- Inside a call. -/
inductive CallPc
  | idle
  /-- `Run` has requested the start; the parameters are still to be stored. -/
  | started (epollWaitSize loopCount timeoutInMS : Int)
  | launching
  | creating
  /-- `pthread_create` has returned `status`. -/
  | destroyingAttr (status : Int)
  /-- `ThreadMain` runs inside the call. -/
  | inline (thread : Nat)
  /-- `StopLoop` has requested the stop and wakes the loop up. -/
  | writing (before : LoopState)
  deriving DecidableEq, Repr

/-- Inside `ThreadMain`. -/
inductive ThreadPc
  | absent
  | entry
  /-- `malloc`, the signal mask, the signal descriptor. -/
  | prepare
  | abort (ret : Int)
  | starting
  | looping
  | polling
  | finishing (ret : Int)
  /-- Behind the last access to the state. -/
  | cleanup (ret : Int)
  | ended (ret : Int)
  deriving DecidableEq, Repr

inductive Call
  | run
  | stop
  deriving DecidableEq, Repr

/-- A call that has returned: the state that it found, and the last state that it wrote. -/
structure Return where
  call : Call
  ret : Int
  before : LoopState
  wrote : Option LoopState
  deriving DecidableEq, Repr

structure State (ι : Type*) where
  state : LoopState
  epollWaitSize : Int
  loopCount : Int
  timeoutInMS : Int
  caller : ι → CallPc
  thread : Nat → ThreadPc
  created : Nat
  returns : List Return

inductive Act (ι : Type*)
  | run (i : ι) (epollWaitSize loopCount timeoutInMS : Int)
  /-- `StopLoop`, from `Stop` or from `Destroy`. -/
  | stop (i : ι)
  /-- A call goes on; `ret` is the result of the system call that it makes, if it makes one. -/
  | call (i : ι) (ret : Int)
  /-- A `ThreadMain` goes on; `ret` is the result of what it calls, if it calls something. -/
  | thread (j : Nat) (ret : Int)

variable {ι : Type*}

namespace State

def setCaller [DecidableEq ι] (s : State ι) (i : ι) (pc : CallPc) : State ι :=
  { s with caller := Function.update s.caller i pc }

def setThread (s : State ι) (j : Nat) (pc : ThreadPc) : State ι :=
  { s with thread := Function.update s.thread j pc }

/-- A new `ThreadMain`. -/
def spawn (s : State ι) : State ι :=
  { s.setThread s.created .entry with created := s.created + 1 }

def log (s : State ι) (r : Return) : State ι := { s with returns := s.returns ++ [r] }

end State

/-! ## Steps -/

def runCall [DecidableEq ι] (s : State ι) (i : ι) (epollWaitSize loopCount timeoutInMS : Int) :
    Option (State ι) :=
  if s.caller i ≠ .idle then none
  else if s.state ≠ .stopped then some (s.log ⟨.run, -EINVAL, s.state, none⟩)
  else
    some ({ s with state := .startRequested }.setCaller i
      (.started epollWaitSize loopCount timeoutInMS))

def stopCall [DecidableEq ι] (s : State ι) (i : ι) : Option (State ι) :=
  if s.caller i ≠ .idle then none
  else if s.state.refusesStop then some (s.log ⟨.stop, -EALREADY, s.state, none⟩)
  -- Only a loop that is started may be waiting for events.
  else if s.state = .started then
    some ({ s with state := .stopRequested }.setCaller i (.writing s.state))
  else some ({ s with state := .stopRequested }.log ⟨.stop, 0, s.state, some .stopRequested⟩)

def callStep [DecidableEq ι] (enableThread : Bool) (s : State ι) (i : ι) (ret : Int) :
    Option (State ι) :=
  match s.caller i with
  | .idle => none
  | .started epollWaitSize loopCount timeoutInMS =>
      some ({ s with
        epollWaitSize := epollWaitSize
        loopCount := loopCount
        timeoutInMS := timeoutInMS }.setCaller i .launching)
  | .launching =>
      if enableThread = false then some (s.spawn.setCaller i (.inline s.created))
      -- The failures from here on leave `START_REQUESTED` behind.
      else if ret ≠ 0 then
        some ((s.log ⟨.run, -ret, .stopped, some .startRequested⟩).setCaller i .idle)
      else some (s.setCaller i .creating)
  | .creating =>
      if ret ≠ 0 then some (s.setCaller i (.destroyingAttr ret))
      else some (s.spawn.setCaller i (.destroyingAttr 0))
  | .destroyingAttr status =>
      some ((s.log ⟨.run, if status ≠ 0 then -status else -ret, .stopped,
        some .startRequested⟩).setCaller i .idle)
  | .inline j =>
      match s.thread j with
      -- Every way out of `ThreadMain` leaves `STOPPED` behind.
      | .ended r => some ((s.log ⟨.run, r, .stopped, some .stopped⟩).setCaller i .idle)
      | _ => none
  | .writing before =>
      some ((s.log ⟨.stop, -ret, before, some .stopRequested⟩).setCaller i .idle)

def threadStep (s : State ι) (j : Nat) (ret : Int) : Option (State ι) :=
  match s.thread j with
  | .absent => none
  | .entry =>
      if s.epollWaitSize ≤ 0 ∨ s.loopCount = 0 then some (s.setThread j (.abort (-EINVAL)))
      else some (s.setThread j .prepare)
  | .prepare =>
      if ret ≠ 0 then some (s.setThread j (.abort ret)) else some (s.setThread j .starting)
  | .abort r => some ({ s with state := .stopped }.setThread j (.ended r))
  | .starting =>
      -- A stop that was requested in the meantime is kept.
      if s.state = .startRequested then some ({ s with state := .started }.setThread j .looping)
      else some (s.setThread j .looping)
  | .looping =>
      if s.state = .started ∧ s.loopCount ≠ 0 then
        some ({ s with loopCount := if 0 < s.loopCount then s.loopCount - 1 else s.loopCount
          }.setThread j .polling)
      else some (s.setThread j (.finishing 0))
  | .polling =>
      if ret = -ETIMEDOUT then some (s.setThread j (.finishing ret))
      else some (s.setThread j .looping)
  | .finishing r => some ({ s with state := .stopped }.setThread j (.cleanup r))
  | .cleanup r => some (s.setThread j (.ended r))
  | .ended _ => none

def step [DecidableEq ι] (enableThread : Bool) (s : State ι) : Act ι → Option (State ι)
  | .run i epollWaitSize loopCount timeoutInMS => runCall s i epollWaitSize loopCount timeoutInMS
  | .stop i => stopCall s i
  | .call i ret => callStep enableThread s i ret
  | .thread j ret => threadStep s j ret

/-- As the constructor leaves the loop. -/
def State.start : State ι :=
  { state := .stopped
    epollWaitSize := -1
    loopCount := -1
    timeoutInMS := -1
    caller := fun _ => .idle
    thread := fun _ => .absent
    created := 0
    returns := [] }

/-! ## The property -/

/-- The `ThreadMain` is executing. -/
def ThreadPc.executing : ThreadPc → Bool
  | .absent => false
  | .ended _ => false
  | _ => true

/-- The call is about to execute `ThreadMain`, or to have it executed. -/
def CallPc.launches : CallPc → Bool
  | .started _ _ _ => true
  | .launching => true
  | .creating => true
  | _ => false

def Live (s : State ι) : Prop :=
  (∃ j, (s.thread j).executing = true) ∨ ∃ i, (s.caller i).launches = true

/-- What is asked of every state. -/
structure Coherent (s : State ι) : Prop where
  /-- Without a `ThreadMain` the loop is stopped, and `Run` starts it. -/
  idle : ¬ Live s → s.state = .stopped
  /-- `StopLoop` refuses exactly a loop that is not running or that was already asked to stop, and
  leaves its state alone. -/
  already : ∀ r ∈ s.returns, r.call = .stop →
    ((r.ret = -EALREADY ∧ r.wrote = none) ↔ (r.before = .stopped ∨ r.before = .stopRequested))
  /-- A call that returns another error leaves the state that it found. -/
  restored : ∀ r ∈ s.returns, r.ret ≠ 0 → (r.call = .stop ∧ r.ret = -EALREADY) ∨
    r.wrote.getD r.before = r.before

/-- No stop is requested of a loop that is stopped, and no system call of `Run` and `StopLoop`
fails. -/
def Regular (s : State ι) : Act ι → Prop
  | .run _ _ _ _ => True
  | .stop _ => s.state ≠ .stopped
  | .call _ ret => ret = 0
  | .thread _ _ => True

instance (s : State ι) : (a : Act ι) → Decidable (Regular s a)
  | .run _ _ _ _ => inferInstanceAs (Decidable True)
  | .stop _ => inferInstanceAs (Decidable (s.state ≠ .stopped))
  | .call _ ret => inferInstanceAs (Decidable (ret = 0))
  | .thread _ _ => inferInstanceAs (Decidable True)

/-! ## The invariant -/

/-- The `ThreadMain` has not yet written its last state. -/
def ThreadPc.active : ThreadPc → Bool
  | .absent => false
  | .cleanup _ => false
  | .ended _ => false
  | _ => true

/-- Who has the loop in hand: a call that launches `ThreadMain`, or a `ThreadMain`. -/
def Active (caller : ι → CallPc) (thread : Nat → ThreadPc) : ι ⊕ Nat → Prop
  | .inl i => (caller i).launches = true
  | .inr j => (thread j).active = true

/-- What a return record is, when all goes well. -/
def Return.Fine (r : Return) : Prop :=
  (r.call = .stop → ((r.ret = -EALREADY ∧ r.wrote = none) ↔
    (r.before = .stopped ∨ r.before = .stopRequested))) ∧
  (r.ret ≠ 0 → (r.call = .stop ∧ r.ret = -EALREADY) ∨ r.wrote.getD r.before = r.before)

/-- One party at most has the loop in hand, and the loop is stopped when there is none. -/
structure Inv (s : State ι) : Prop where
  owner : ∃ o : Option (ι ⊕ Nat), (∀ p, Active s.caller s.thread p ↔ o = some p) ∧
    (s.state = .stopped ↔ o = none)
  fresh : ∀ j, s.created ≤ j → s.thread j = .absent
  destroyingAttr : ∀ i status, s.caller i = .destroyingAttr status → status = 0
  writing : ∀ i before, s.caller i = .writing before → before = .started
  returns : ∀ r ∈ s.returns, r.Fine

theorem inv_start : Inv (State.start : State ι) := by
  refine ⟨⟨none, ?_, ?_⟩, fun _ _ => rfl, ?_, ?_, ?_⟩
  · intro p
    cases p with
    | inl i => simp [Active, State.start, CallPc.launches]
    | inr j => simp [Active, State.start, ThreadPc.active]
  · simp [State.start]
  · intro i status h
    cases h
  · intro i before h
    cases h
  · intro r hr
    cases hr

theorem executing_of_active {pc : ThreadPc} (h : pc.active = true) : pc.executing = true := by
  cases pc <;> simp [ThreadPc.active, ThreadPc.executing] at h ⊢

theorem Inv.coherent {s : State ι} (h : Inv s) : Coherent s := by
  refine ⟨fun hlive => ?_, fun r hr => (h.returns r hr).1, fun r hr => (h.returns r hr).2⟩
  rcases h.owner with ⟨o, howner, hstopped⟩
  apply hstopped.2
  -- An owner would be a call about to execute `ThreadMain`, or an executing one.
  cases o with
  | none => rfl
  | some p =>
      exfalso
      have hactive := (howner p).2 rfl
      apply hlive
      cases p with
      | inl i => exact Or.inr ⟨i, hactive⟩
      | inr j => exact Or.inl ⟨j, executing_of_active hactive⟩

theorem fine_refused {s : LoopState} (h : s.refusesStop = true) :
    Return.Fine ⟨.stop, -EALREADY, s, none⟩ := by
  have hs : s = .stopRequested := by
    cases s <;> simp [LoopState.refusesStop, LoopState.flag] at h ⊢
  subst hs
  exact ⟨fun _ => by simp, fun _ => Or.inl ⟨rfl, rfl⟩⟩

theorem fine_stopped {s : LoopState} (hs : s ≠ .stopped) (h : ¬ s.refusesStop = true) :
    Return.Fine ⟨.stop, 0, s, some .stopRequested⟩ := by
  have hs' : s ≠ .stopRequested := by
    intro heq
    subst heq
    exact h rfl
  exact ⟨fun _ => by simp [hs, hs'], fun hne => absurd rfl hne⟩

theorem fine_unchanged (ret : Int) (s : LoopState) : Return.Fine ⟨.run, ret, s, none⟩ :=
  ⟨fun h => (by cases h), fun _ => Or.inr rfl⟩

theorem fine_run_zero (wrote : Option LoopState) : Return.Fine ⟨.run, 0, .stopped, wrote⟩ :=
  ⟨fun h => (by cases h), fun h => absurd rfl h⟩

theorem fine_inline (ret : Int) : Return.Fine ⟨.run, ret, .stopped, some .stopped⟩ :=
  ⟨fun h => (by cases h), fun _ => Or.inr rfl⟩

/-! ## Steps -/

section Owner

variable {caller : ι → CallPc} {thread : Nat → ThreadPc} {o : Option (ι ⊕ Nat)}

theorem active_setThread (h : ∀ p, Active caller thread p ↔ o = some p) {j : Nat} {pc : ThreadPc}
    (hpc : pc.active = (thread j).active) (p : ι ⊕ Nat) :
    Active caller (Function.update thread j pc) p ↔ o = some p := by
  rw [← h p]
  cases p with
  | inl i => exact Iff.rfl
  | inr k =>
      by_cases hk : k = j
      · subst hk
        simp [Active, hpc]
      · simp [Active, Function.update_of_ne hk]

/-- A `ThreadMain` that has written its last state leaves the loop to nobody. -/
theorem active_release (h : ∀ p, Active caller thread p ↔ o = some p) {j : Nat} {pc : ThreadPc}
    (hj : (thread j).active = true) (hpc : pc.active = false) (p : ι ⊕ Nat) :
    Active caller (Function.update thread j pc) p ↔ none = some p := by
  have ho : o = some (.inr j) := (h (.inr j)).1 hj
  cases p with
  | inl i =>
      have hi : ¬ Active caller thread (.inl i) := by
        rw [h, ho]
        simp
      simpa [Active] using hi
  | inr k =>
      by_cases hk : k = j
      · subst hk
        simp [Active, hpc]
      · have hk' : ¬ Active caller thread (.inr k) := by
          rw [h, ho]
          simpa using fun heq => hk heq.symm
        simpa [Active, Function.update_of_ne hk] using hk'

variable [DecidableEq ι]

theorem active_setCaller (h : ∀ p, Active caller thread p ↔ o = some p) {i : ι} {pc : CallPc}
    (hpc : pc.launches = (caller i).launches) (p : ι ⊕ Nat) :
    Active (Function.update caller i pc) thread p ↔ o = some p := by
  rw [← h p]
  cases p with
  | inl k =>
      by_cases hk : k = i
      · subst hk
        simp [Active, hpc]
      · simp [Active, Function.update_of_ne hk]
  | inr j => exact Iff.rfl

/-- A `Run` that finds the loop stopped takes it. -/
theorem active_take (h : ∀ p, Active caller thread p ↔ none = some p) {i : ι} {pc : CallPc}
    (hpc : pc.launches = true) (p : ι ⊕ Nat) :
    Active (Function.update caller i pc) thread p ↔ some (.inl i) = some p := by
  -- The loop was stopped, so nobody else has it.
  have hnone : ∀ p, ¬ Active caller thread p := fun p hp => by cases (h p).1 hp
  cases p with
  | inl k =>
      by_cases hk : k = i
      · subst hk
        simp [Active, hpc]
      · simp only [Active, Function.update_of_ne hk, Option.some.injEq, Sum.inl.injEq]
        exact iff_of_false (hnone (.inl k)) fun heq => hk heq.symm
  | inr j => exact iff_of_false (hnone (.inr j)) (by simp)

/-- A call hands the loop to the `ThreadMain` that it starts. -/
theorem active_handOver (h : ∀ p, Active caller thread p ↔ o = some p) {i : ι} {j : Nat}
    {pc : CallPc} {tpc : ThreadPc} (hi : (caller i).launches = true) (hpc : pc.launches = false)
    (htpc : tpc.active = true) (p : ι ⊕ Nat) :
    Active (Function.update caller i pc) (Function.update thread j tpc) p ↔
      some (.inr j) = some p := by
  have ho : o = some (.inl i) := (h (.inl i)).1 hi
  cases p with
  | inl k =>
      by_cases hk : k = i
      · subst hk
        simp [Active, hpc]
      · have hk' : ¬ Active caller thread (.inl k) := by
          rw [h, ho]
          simpa using fun heq => hk heq.symm
        simpa [Active, Function.update_of_ne hk] using hk'
  | inr k =>
      by_cases hk : k = j
      · subst hk
        simp [Active, htpc]
      · have hk' : ¬ Active caller thread (.inr k) := by
          rw [h, ho]
          simp
        simp only [Active, Function.update_of_ne hk, Option.some.injEq, Sum.inr.injEq]
        exact iff_of_false hk' fun heq => hk heq.symm

end Owner

/-- A step of a `ThreadMain` that keeps the loop, or does not have it. -/
theorem inv_thread_keep {s : State ι} (hs : Inv s) {state : LoopState} (loopCount : Int) {j : Nat}
    {pc : ThreadPc} (hstate : state = .stopped ↔ s.state = .stopped) (hold : s.thread j ≠ .absent)
    (hpc : pc.active = (s.thread j).active) :
    Inv ({ s with state := state, loopCount := loopCount }.setThread j pc) := by
  rcases hs.owner with ⟨o, howner, hstopped⟩
  refine ⟨⟨o, active_setThread howner hpc, hstate.trans hstopped⟩, ?_, hs.destroyingAttr,
    hs.writing, hs.returns⟩
  intro k hk
  have hkj : k ≠ j := fun heq => hold (heq ▸ hs.fresh k hk)
  simpa [State.setThread, Function.update_of_ne hkj] using hs.fresh k hk

/-- A `ThreadMain` writes its last state. -/
theorem inv_thread_stop {s : State ι} (hs : Inv s) {j : Nat} {pc : ThreadPc}
    (hj : (s.thread j).active = true) (hpc : pc.active = false) :
    Inv ({ s with state := .stopped }.setThread j pc) := by
  rcases hs.owner with ⟨o, howner, _⟩
  refine ⟨⟨none, active_release howner hj hpc, by simp [State.setThread]⟩, ?_, hs.destroyingAttr,
    hs.writing, hs.returns⟩
  intro k hk
  have hkj : k ≠ j := by
    intro heq
    subst heq
    rw [hs.fresh k hk] at hj
    cases hj
  simpa [State.setThread, Function.update_of_ne hkj] using hs.fresh k hk

/-- A `ThreadMain` keeps the loop, or writes its last state, or returns. -/
theorem threadStep_cases {s s' : State ι} {j : Nat} {ret : Int} (h : threadStep s j ret = some s') :
    ((s.thread j).active = true ∧ (∀ r, s.thread j ≠ .abort r) ∧
      ∃ state loopCount pc, pc.active = true ∧
      (state = s.state ∨ s.state = .startRequested ∧ state = .started) ∧
      s' = { s with state := state, loopCount := loopCount }.setThread j pc) ∨
    (∃ r, s.thread j = .abort r ∧ s' = { s with state := .stopped }.setThread j (.ended r)) ∨
    (∃ r, s.thread j = .finishing r ∧
      s' = { s with state := .stopped }.setThread j (.cleanup r)) ∨
    ∃ r, s.thread j = .cleanup r ∧ s' = s.setThread j (.ended r) := by
  cases hpc : s.thread j with
  | absent => simp [threadStep, hpc] at h
  | abort r =>
      simp only [threadStep, hpc, Option.some.injEq] at h
      exact .inr (.inl ⟨r, rfl, h.symm⟩)
  | finishing r =>
      simp only [threadStep, hpc, Option.some.injEq] at h
      exact .inr (.inr (.inl ⟨r, rfl, h.symm⟩))
  | cleanup r =>
      simp only [threadStep, hpc, Option.some.injEq] at h
      exact .inr (.inr (.inr ⟨r, rfl, h.symm⟩))
  | ended r => simp [threadStep, hpc] at h
  | starting =>
      simp only [threadStep, hpc] at h
      split at h <;> cases h
      · rename_i hstate
        exact .inl ⟨rfl, nofun, .started, s.loopCount, .looping, rfl, .inr ⟨hstate, rfl⟩, rfl⟩
      · exact .inl ⟨rfl, nofun, s.state, s.loopCount, .looping, rfl, .inl rfl, rfl⟩
  | entry | prepare | looping | polling =>
      simp only [threadStep, hpc] at h
      split at h <;> cases h <;> exact .inl ⟨rfl, nofun, s.state, _, _, rfl, .inl rfl, rfl⟩

/-- A `ThreadMain` leaves the calls alone, and counts down only a loop count above 0. -/
theorem threadStep_frame {s s' : State ι} {j : Nat} {ret : Int} (h : threadStep s j ret = some s')
    (hcount : s.loopCount ≤ 0) : s'.caller = s.caller ∧ s'.created = s.created ∧
      s'.epollWaitSize = s.epollWaitSize ∧ s'.loopCount = s.loopCount := by
  unfold threadStep at h
  repeat' split at h
  all_goals cases h
  all_goals refine ⟨rfl, rfl, rfl, ?_⟩
  all_goals first
    | rfl
    | omega

theorem inv_threadStep {s s' : State ι} {j : Nat} {ret : Int} (hs : Inv s)
    (h : threadStep s j ret = some s') : Inv s' := by
  rcases threadStep_cases h with ⟨hactive, -, state, loopCount, pc, hpc, hstate, rfl⟩ |
    ⟨r, hpc, rfl⟩ | ⟨r, hpc, rfl⟩ | ⟨r, hpc, rfl⟩
  · refine inv_thread_keep hs loopCount ?_ ?_ (by rw [hpc, hactive])
    · -- `STARTED` is as little `STOPPED` as `START_REQUESTED` is.
      rcases hstate with rfl | ⟨hstart, rfl⟩
      · rfl
      · simp [hstart]
    · intro habsent
      rw [habsent] at hactive
      cases hactive
  · exact inv_thread_stop hs (by rw [hpc]; rfl) rfl
  · exact inv_thread_stop hs (by rw [hpc]; rfl) rfl
  · -- The last state is written already, so the loop may be in other hands by now.
    exact inv_thread_keep hs s.loopCount Iff.rfl (by simp [hpc]) (by rw [hpc]; rfl)

theorem Inv.log {s : State ι} (hs : Inv s) {r : Return} (hr : r.Fine) : Inv (s.log r) := by
  refine ⟨hs.owner, hs.fresh, hs.destroyingAttr, hs.writing, ?_⟩
  intro r' hr'
  rcases List.mem_append.1 hr' with hr' | hr'
  · exact hs.returns r' hr'
  · rw [List.mem_singleton] at hr'
    exact hr' ▸ hr

variable [DecidableEq ι]

/-- What is known of the calls stays known when one of them moves on. -/
theorem Inv.update_caller {s : State ι} (hs : Inv s) (i : ι) (pc : CallPc)
    (hattr : ∀ status, pc = .destroyingAttr status → status = 0)
    (hwriting : ∀ before, pc = .writing before → before = .started) :
    (∀ k status, Function.update s.caller i pc k = .destroyingAttr status → status = 0) ∧
      ∀ k before, Function.update s.caller i pc k = .writing before → before = .started := by
  constructor
  · intro k status hk
    by_cases hki : k = i
    · subst hki
      exact hattr status (by simpa using hk)
    · exact hs.destroyingAttr k status (by rwa [Function.update_of_ne hki] at hk)
  · intro k before hk
    by_cases hki : k = i
    · subst hki
      exact hwriting before (by simpa using hk)
    · exact hs.writing k before (by rwa [Function.update_of_ne hki] at hk)

/-- A step of a call inside the loop's state, which keeps the loop or does not have it. -/
theorem inv_caller_keep {s : State ι} (hs : Inv s) {state : LoopState}
    (epollWaitSize loopCount timeoutInMS : Int) {i : ι} {pc : CallPc}
    (hstate : state = .stopped ↔ s.state = .stopped) (hpc : pc.launches = (s.caller i).launches)
    (hattr : ∀ status, pc = .destroyingAttr status → status = 0)
    (hwriting : ∀ before, pc = .writing before → before = .started) :
    Inv ({ s with
      state := state
      epollWaitSize := epollWaitSize
      loopCount := loopCount
      timeoutInMS := timeoutInMS }.setCaller i pc) := by
  rcases hs.owner with ⟨o, howner, hstopped⟩
  have hcallers := hs.update_caller i pc hattr hwriting
  exact ⟨⟨o, active_setCaller howner hpc, hstate.trans hstopped⟩, hs.fresh, hcallers.1, hcallers.2,
    hs.returns⟩

/-- A call that is over, or that goes on without the loop. -/
theorem inv_caller_idle {s : State ι} (hs : Inv s) {i : ι} (hpc : (s.caller i).launches = false) :
    Inv (s.setCaller i .idle) :=
  inv_caller_keep hs s.epollWaitSize s.loopCount s.timeoutInMS Iff.rfl hpc.symm
    (fun _ h => by cases h) (fun _ h => by cases h)

theorem inv_spawn {s : State ι} (hs : Inv s) {i : ι} {pc : CallPc}
    (hi : (s.caller i).launches = true) (hpc : pc.launches = false)
    (hattr : ∀ status, pc = .destroyingAttr status → status = 0)
    (hwriting : ∀ before, pc = .writing before → before = .started) :
    Inv (s.spawn.setCaller i pc) := by
  rcases hs.owner with ⟨o, howner, hstopped⟩
  have ho : o = some (.inl i) := (howner (.inl i)).1 hi
  have hcallers := hs.update_caller i pc hattr hwriting
  refine ⟨⟨some (.inr s.created), active_handOver howner hi hpc rfl, ?_⟩, ?_, hcallers.1, hcallers.2,
    hs.returns⟩
  · rw [show (s.spawn.setCaller i pc).state = s.state from rfl, hstopped, ho]
    simp
  · intro k hk
    have hk' : s.created + 1 ≤ k := hk
    have hne : k ≠ s.created := by omega
    have hfresh := hs.fresh k (by omega)
    simpa [State.spawn, State.setCaller, State.setThread, Function.update_of_ne hne] using hfresh

theorem inv_runCall {s s' : State ι} {i : ι} {epollWaitSize loopCount timeoutInMS : Int}
    (hs : Inv s) (h : runCall s i epollWaitSize loopCount timeoutInMS = some s') : Inv s' := by
  unfold runCall at h
  split at h
  · cases h
  · split at h
    · cases h
      exact hs.log (fine_unchanged _ _)
    · rename_i hstate
      rw [not_not] at hstate
      cases h
      rcases hs.owner with ⟨o, howner, hstopped⟩
      -- The state is `STOPPED`: the invariant says that the loop is free.
      have ho : o = none := hstopped.1 hstate
      subst ho
      have hcallers := hs.update_caller i (.started epollWaitSize loopCount timeoutInMS)
        (fun _ => nofun) (fun _ => nofun)
      exact ⟨⟨some (.inl i), active_take howner rfl, by simp [State.setCaller]⟩, hs.fresh,
        hcallers.1, hcallers.2, hs.returns⟩

theorem inv_stopCall {s s' : State ι} {i : ι} (hs : Inv s) (hregular : s.state ≠ .stopped)
    (h : stopCall s i = some s') : Inv s' := by
  have hstate : LoopState.stopRequested = .stopped ↔ s.state = .stopped := by simp [hregular]
  unfold stopCall at h
  split at h
  · cases h
  · rename_i hidle
    rw [not_not] at hidle
    split at h
    · rename_i hrefuses
      cases h
      exact hs.log (fine_refused hrefuses)
    · rename_i hrefuses
      split at h
      · rename_i hstarted
        cases h
        refine inv_caller_keep hs s.epollWaitSize s.loopCount s.timeoutInMS hstate
          (by rw [hidle]; rfl) (fun _ h => by cases h) (fun before h => ?_)
        cases h
        exact hstarted
      · cases h
        rcases hs.owner with ⟨o, howner, hstopped⟩
        have hs' : Inv { s with state := .stopRequested } :=
          ⟨⟨o, howner, hstate.trans hstopped⟩, hs.fresh, hs.destroyingAttr, hs.writing, hs.returns⟩
        exact hs'.log (fine_stopped hregular hrefuses)

theorem inv_callStep {enableThread : Bool} {s s' : State ι} {i : ι} (hs : Inv s)
    (h : callStep enableThread s i 0 = some s') : Inv s' := by
  cases hpc : s.caller i with
  | idle => simp [callStep, hpc] at h
  | started epollWaitSize loopCount timeoutInMS =>
      simp only [callStep, hpc, Option.some.injEq] at h
      exact h ▸ inv_caller_keep hs _ _ _ Iff.rfl (by rw [hpc]; rfl) (fun _ => nofun) (fun _ => nofun)
  | launching =>
      simp only [callStep, hpc] at h
      split at h
      · cases h
        exact inv_spawn hs (by rw [hpc]; rfl) rfl (fun _ => nofun) (fun _ => nofun)
      · rw [if_neg (by decide)] at h
        cases h
        exact inv_caller_keep hs s.epollWaitSize s.loopCount s.timeoutInMS Iff.rfl
          (by rw [hpc]; rfl) (fun _ => nofun) (fun _ => nofun)
  | creating =>
      simp only [callStep, hpc] at h
      rw [if_neg (by decide)] at h
      cases h
      exact inv_spawn hs (by rw [hpc]; rfl) rfl (fun _ h => by cases h; rfl) (fun _ => nofun)
  | destroyingAttr status =>
      -- `pthread_create` has succeeded, so the call returns 0.
      have hstatus := hs.destroyingAttr i status hpc
      subst hstatus
      simp only [callStep, hpc] at h
      cases h
      exact inv_caller_idle (hs.log (fine_run_zero _)) (by
        rw [show (s.log _).caller = s.caller from rfl, hpc]; rfl)
  | inline j =>
      simp only [callStep, hpc] at h
      split at h
      · cases h
        exact inv_caller_idle (hs.log (fine_inline _)) (by
          rw [show (s.log _).caller = s.caller from rfl, hpc]; rfl)
      · cases h
  | writing before =>
      have hbefore := hs.writing i before hpc
      subst hbefore
      simp only [callStep, hpc] at h
      cases h
      exact inv_caller_idle (hs.log (fine_stopped (by decide) (by decide))) (by
        rw [show (s.log _).caller = s.caller from rfl, hpc]; rfl)

theorem inv_step {enableThread : Bool} {s s' : State ι} {a : Act ι} (hs : Inv s)
    (hregular : Regular s a) (h : step enableThread s a = some s') : Inv s' := by
  cases a with
  | run i epollWaitSize loopCount timeoutInMS => exact inv_runCall hs h
  | stop i => exact inv_stopCall hs hregular h
  | call i ret =>
      have hret : ret = 0 := hregular
      subst hret
      exact inv_callStep hs h
  | thread j ret => exact inv_threadStep hs h

/-- As long as no stop is requested of a stopped loop and no system call of `Run` and `StopLoop`
fails, the state of the loop is coherent, in every state of every run. -/
theorem loop_coherent (enableThread : Bool) (as : List (Act ι)) (s : State ι)
    (hregular : Run.Along (step enableThread) Regular State.start as)
    (hexec : Run.exec (step enableThread) State.start as = some s) : Coherent s :=
  (Run.exec_invariant (fun _ _ _ hs hG h => inv_step hs hG h) inv_start hregular hexec).coherent

/-! ## Fixed runs -/

/-- `Stop` of a loop that does not run: it returns 0, and the loop cannot be run any more. -/
theorem stop_of_stopped :
    ∃ s, Run.exec (step true) (State.start : State Unit) [.stop (), .run () 10 (-1) (-1)] = some s ∧
      s.returns = [⟨.stop, 0, .stopped, some .stopRequested⟩, ⟨.run, -EINVAL, .stopRequested, none⟩] ∧
      ¬ Coherent s := by
  refine ⟨_, rfl, rfl, fun h => ?_⟩
  have hrefused := (h.already _ List.mem_cons_self rfl).2 (Or.inl rfl)
  exact absurd hrefused.1 (by decide)

/-- A loop that is run, stopped from outside while it polls, and run again. -/
def runStopRun : List (Act Unit) :=
  [.run () 10 (-1) (-1), .call () 0, .call () 0, .call () 0, .call () 0, .thread 0 0, .thread 0 0,
    .thread 0 0, .thread 0 0, .stop (), .call () 0, .thread 0 0, .thread 0 0, .thread 0 0,
    .run () 10 (-1) (-1)]

theorem runStopRun_coherent :
    ∃ s, Run.exec (step true) State.start runStopRun = some s ∧ s.state = .startRequested ∧
      s.returns.length = 2 ∧ Coherent s :=
  ⟨_, rfl, rfl, rfl, loop_coherent true runStopRun _ (by decide) rfl⟩

end RunStop
end EventLoop
end Beyond
