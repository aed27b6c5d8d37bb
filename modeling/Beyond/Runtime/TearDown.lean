import Beyond.EventLoop.Batch
import Beyond.EventLoop.RunStop

/-!
# Tearing the asynchronous runtime down

`Async::Destroy` runs on the thread of the application: it removes the event handler of the commands,
sets a stop handler that destroys the event loop, requests the stop of the loop, and deletes the
`Async` with its command and output objects.  It waits for nothing.  The worker may be anywhere in
`ThreadMain`, in `WaitEpoll`, or in `Main` and the handler of a command.

This module puts the worker together from `ThreadMain` of `RunStop`, `WaitEpoll` of the handler objects
and `Main`, and interleaves it with the application.  An object stays in place after its deletion, and
so does its descriptor; every later use is recorded.
-/

namespace Beyond
namespace Runtime
namespace TearDown

open EventLoop

/-! ## State -/

/-- What the loop waits for: `spfd[SP_NOTI]`, and the worker's end of the command socket. -/
inductive Descriptor
  | control
  | command
  deriving DecidableEq, Repr

/-- A command in the socket: of a method that waits for the reply, or of `Invoke`. -/
inductive Kind
  | method
  | invoke
  deriving DecidableEq, Repr

/-- An object, with the descriptors that are closed when it is deleted. -/
inductive Object
  | async
  /-- `context.command` -/
  | contextCommand
  | command
  | outputProducer
  | outputConsumer
  | eventObject
  | eventLoop
  deriving DecidableEq, Repr

/-- Inside `Main`. -/
inductive Main
  | entered
  | received (kind : Kind)
  | replying
  | invoking
  | fetching
  | sending
  | publishing
  | finished
  deriving DecidableEq, Repr

/-- The thread of the application; from `removing` on it is in `Destroy`. -/
inductive Application
  | idle
  | waiting
  | removing
  | settingStop
  | stopping
  /-- `StopLoop` behind its critical section. -/
  | waking
  | deleting (rest : List Object)
  | returned
  deriving DecidableEq, Repr

structure State where
  application : Application
  commands : List Kind
  replies : Nat
  /-- The worker in `WaitEpoll`, and both parties in `RemoveEventHandler`. -/
  handlers : EventLoop.State Unit Descriptor
  /-- The worker in `ThreadMain`, and the application in `StopLoop`. -/
  loop : RunStop.State Unit
  /-- `epoll_pwait` has returned. -/
  woken : Bool
  main : Main
  /-- The messages for `CtrlEventHandler`. -/
  control : Nat
  /-- `stopEventObject` is set. -/
  stopHandler : Bool
  alive : Object → Bool
  /-- How often the event loop was deleted. -/
  deletes : Nat
  violations : List Object

inductive Act
  /-- A method, or `Invoke`, up to its `Send`. -/
  | call (kind : Kind)
  /-- The method gets its reply. -/
  | recv
  | destroy
  /-- `Destroy` goes on; `ok` is about the system call or the allocation that it makes. -/
  | proceed (ok : Bool)
  /-- `epoll_pwait` returns a batch. -/
  | deliver (batch : List (Entry Descriptor))
  /-- `WaitEpoll` goes on. -/
  | loop
  /-- The worker's own `RemoveEventHandler` goes on. -/
  | remove (ok : Bool)
  /-- `CtrlEventHandler`, or a step of `Main`; `ok` is about what a command handler calls. -/
  | main (ok : Bool)
  /-- `ThreadMain` goes on; `ret` is the result of what it calls, if it calls something. -/
  | thread (ret : Int)
  deriving DecidableEq, Repr

namespace State

/-- Uses of objects. -/
def use (s : State) (objects : List Object) : State :=
  { s with violations := s.violations ++ objects.filter fun o => !s.alive o }

/-- The worker's place in `ThreadMain`. -/
def worker (s : State) : RunStop.ThreadPc := s.loop.thread 0

end State

/-! ## The application -/

def call (s : State) (kind : Kind) : Option State :=
  match s.application with
  | .idle =>
      some { s with
        commands := s.commands ++ [kind]
        application := if kind = .method then .waiting else .idle }
  | _ => none

def recv (s : State) : Option State :=
  match s.application, s.replies with
  | .waiting, n + 1 => some { s with replies := n, application := .idle }
  | _, _ => none

/-- What the next step of a removal uses: the epoll set, and `eventObject->GetHandle()`. -/
def unlinks : Removal Descriptor → List Object
  | .unlinking .command => [.contextCommand, .eventLoop]
  | .unlinking .control => [.eventLoop]
  | _ => []

/-- The order of `~Async`. -/
def released : List Object :=
  [.contextCommand, .command, .outputProducer, .outputConsumer, .eventObject, .async]

def destroy (s : State) : Option State :=
  match s.application with
  | .idle =>
      (EventLoop.step s.handlers (.remove (some ()) .command)).map fun handlers =>
        { s with handlers := handlers, application := .removing }
  | _ => none

/-- `RemoveEventHandler` on the thread `k`. -/
def unlink (s : State) (k : Option Unit) (ok : Bool) : Option State :=
  (EventLoop.step s.handlers (.proceed k ok)).map fun handlers =>
    { s.use (unlinks (s.handlers.removal k)) with handlers := handlers }

/-- The object is deleted and its descriptor closed, which also takes it out of the epoll set. -/
def State.release (s : State) (o : Object) : State :=
  { s with
    alive := Function.update s.alive o false
    handlers :=
      if o = .contextCommand then
        { s.handlers with watched := Function.update s.handlers.watched .command false }
      else s.handlers }

def proceed (s : State) (ok : Bool) : Option State :=
  match s.application with
  | .removing =>
      if s.handlers.removal (some ()) = .idle then some { s with application := .settingStop }
      else unlink s (some ()) ok
  -- Nobody looks at what `SetStopHandler` and `Stop` return.
  | .settingStop =>
      some { s.use [.eventLoop] with
        stopHandler := s.stopHandler || ok, application := .stopping }
  | .stopping =>
      (RunStop.step true s.loop (.stop ())).map fun loop =>
        { s.use [.eventLoop] with loop := loop, application := .waking }
  | .waking =>
      match s.loop.caller () with
      | .writing _ =>
          (RunStop.step true s.loop (.call () 0)).map fun loop =>
            { s.use [.eventLoop] with
              loop := loop
              control := if ok then s.control + 1 else s.control
              application := .deleting released }
      | _ => some { s with application := .deleting released }
  | .deleting (o :: rest) => some { s.release o with application := .deleting rest }
  | .deleting [] => some { s with application := .returned }
  | _ => none

/-! ## The worker -/

/-- Epoll reports a descriptor as long as there is something to read. -/
def ready (s : State) : Entry Descriptor → Bool
  | .signal => true
  | .handler .control events => events = readable ∧ 0 < s.control
  | .handler .command events => events = readable ∧ s.commands ≠ []

def deliver (s : State) (batch : List (Entry Descriptor)) : Option State :=
  if s.worker = .polling ∧ s.woken = false ∧ batch.all (ready s) ∧ (pending batch).Nodup then
    (EventLoop.step s.handlers (.deliver batch)).map fun handlers =>
      { s.use [.eventLoop] with handlers := handlers, woken := true }
  else none

def loop (s : State) : Option State :=
  (EventLoop.step s.handlers .loop).map fun handlers => { s with handlers := handlers }

/-- `Main` calls the handler from `cmdTable`; without an `EventData` that of `Invoke` returns. -/
def Main.dispatch (kind : Kind) (ok : Bool) : Main :=
  match kind with
  | .method => .replying
  | .invoke => if ok then .invoking else .finished

def handlerReturns (s : State) : Option State :=
  (EventLoop.step s.handlers (.handlerReturns .renew)).map fun handlers =>
    { s with handlers := handlers, main := .entered }

def main (s : State) (ok : Bool) : Option State :=
  match s.main with
  | .entered =>
      match s.commands with
      | [] => none
      | kind :: rest =>
          some { s.use [.contextCommand] with commands := rest, main := .received kind }
  -- `cmdTable` and the module, which are reached through the context.
  | .received kind => some { s.use [.async] with main := .dispatch kind ok }
  | .replying =>
      some { s.use [.async, .contextCommand] with replies := s.replies + 1, main := .finished }
  | .invoking => some { s.use [.async] with main := .fetching }
  | .fetching => some { s.use [.async] with main := if ok then .sending else .publishing }
  | .sending => some { s.use [.async, .outputProducer] with main := .publishing }
  | .publishing => some { s.use [.async, .eventObject] with main := .finished }
  | .finished => handlerReturns s

/-- `CtrlEventHandler`, which reads one message. -/
def ctrlEventHandler (s : State) : Option State :=
  if s.control = 0 then none
  else (handlerReturns s).map fun t => { t with control := s.control - 1 }

def handle (s : State) (ok : Bool) : Option State :=
  match s.handlers.stage with
  | .calling .command _ => main s ok
  | .calling .control _ => ctrlEventHandler s
  | _ => none

/-- At its end `ThreadMain` takes the stop handler, which calls `Destroy` of the loop.  As the loop is
not started any more there is nothing to wake up; the thread is detached, and the loop is deleted. -/
def State.finish (s : State) : State :=
  if s.stopHandler then
    { s with
      stopHandler := false
      alive := Function.update s.alive .eventLoop false
      deletes := s.deletes + 1 }
  else s

def thread (s : State) (ret : Int) : Option State :=
  match s.worker with
  | .polling =>
      -- `WaitEpoll` returns behind its batch, or because it was interrupted; it never times out.
      if s.handlers.stage = .waiting then
        (RunStop.step true s.loop (.thread 0 0)).map fun loop =>
          { s.use [.eventLoop] with loop := loop, woken := false }
      else none
  | .cleanup _ =>
      (RunStop.step true s.loop (.thread 0 ret)).map fun loop =>
        { (s.use [.eventLoop]).finish with loop := loop }
  | _ =>
      (RunStop.step true s.loop (.thread 0 ret)).map fun loop =>
        { s.use [.eventLoop] with loop := loop }

def step (s : State) : Act → Option State
  | .call kind => call s kind
  | .recv => recv s
  | .destroy => destroy s
  | .proceed ok => proceed s ok
  | .deliver batch => deliver s batch
  | .loop => loop s
  | .remove ok => unlink s none ok
  | .main ok => handle s ok
  | .thread ret => thread s ret

/-- As `Create` leaves the runtime: `Run` has started the thread with its default parameters. -/
def State.start : State :=
  { application := .idle
    commands := []
    replies := 0
    handlers := .start (fun _ => true) fun _ => ⟨true, false, true⟩
    loop := { (RunStop.State.start : RunStop.State Unit).spawn with
      state := .startRequested, epollWaitSize := 10 }
    woken := false
    main := .entered
    control := 0
    stopHandler := false
    alive := fun _ => true
    deletes := 0
    violations := [] }

/-! ## The property -/

/-- The worker goes on by itself: what it waits for is the message for `CtrlEventHandler`, and nothing
interrupts it. -/
def Undisturbed (s : State) : Act → Prop
  | .deliver batch => batch = [.handler .control readable]
  | .thread _ => s.worker = .polling → s.woken = true
  | .loop => True
  | .remove _ => True
  | .main _ => True
  | _ => False

/-- What is asked of every state. -/
structure TornDown (s : State) : Prop where
  /-- No handler object was used after its deletion. -/
  handlers : s.handlers.violations = []
  /-- No other object was, and no descriptor after it was closed. -/
  objects : s.violations = []
  once : s.deletes ≤ 1
  /-- When both threads are done the loop is gone. -/
  destroyed : s.application = .returned → s.worker.executing = false → s.deletes = 1
  /-- The worker does not wait for ever. -/
  awake : s.application = .returned → s.worker = .polling → s.woken = false → 0 < s.control
  /-- It comes to its end, with nobody's help. -/
  finishes : s.application = .returned → ∃ as t, Run.exec step s as = some t ∧
    Run.Along step Undisturbed s as ∧ t.worker.executing = false

/-- No system call or allocation of the tear-down fails; a handler object is deleted only when nobody
else holds it; that of the commands is gone before the first object is deleted; `ThreadMain` gets what
it needs; and it does not come to its stop handler while `StopLoop` wakes the loop up. -/
def Orderly (s : State) : Act → Prop
  | .destroy => Exclusive s.handlers (.remove (some ()) .command)
  | .proceed ok => ok = true ∧ Exclusive s.handlers (.proceed (some ()) ok) ∧
      (s.application = .deleting released → s.handlers.alive .command = false)
  | .remove ok => Exclusive s.handlers (.proceed none ok)
  | .thread ret => (s.worker = .prepare → ret = 0) ∧
      ∀ r, s.worker = .cleanup r → s.application ≠ .waking
  | _ => True

instance Orderly.decidable (s : State) : ∀ a, Decidable (Orderly s a)
  | .call _ => inferInstanceAs (Decidable True)
  | .recv => inferInstanceAs (Decidable True)
  | .destroy => inferInstanceAs (Decidable (Exclusive s.handlers (.remove (some ()) .command)))
  | .proceed ok =>
      inferInstanceAs (Decidable (ok = true ∧ Exclusive s.handlers (.proceed (some ()) ok) ∧
        (s.application = .deleting released → s.handlers.alive .command = false)))
  | .deliver _ => inferInstanceAs (Decidable True)
  | .loop => inferInstanceAs (Decidable True)
  | .remove ok => inferInstanceAs (Decidable (Exclusive s.handlers (.proceed none ok)))
  | .main _ => inferInstanceAs (Decidable True)
  | .thread ret =>
      match h : s.worker with
      | .prepare => decidable_of_iff (ret = 0) (by simp [Orderly, h])
      | .cleanup _ => decidable_of_iff (s.application ≠ .waking) (by simp [Orderly, h])
      | .absent | .entry | .abort _ | .starting | .looping | .polling | .finishing _ | .ended _ =>
          isTrue (by simp [Orderly, h])

/-! ## The invariant -/

/-- The stop of the loop is not yet requested. -/
def Application.before : Application → Bool
  | idle => true
  | waiting => true
  | removing => true
  | settingStop => true
  | stopping => true
  | _ => false

/-- `ThreadMain` is as far as the state of the loop tells. -/
def Running (pc : RunStop.ThreadPc) (state : RunStop.LoopState) : Prop :=
  ((pc = .entry ∨ pc = .prepare ∨ pc = .starting) ∧ state = .startRequested) ∨
    ((pc = .looping ∨ pc = .polling) ∧ state = .started)

/-- `ThreadMain` will find that it is to stop. -/
def Leaving (pc : RunStop.ThreadPc) (state : RunStop.LoopState) : Prop :=
  (state = .stopRequested ∨ state = .stopped) ∧ pc ≠ .absent ∧ ∀ r, pc ≠ .abort r

structure LoopInv (s : State) : Prop where
  epollWaitSize : s.loop.epollWaitSize = 10
  loopCount : s.loop.loopCount = -1
  before : s.application.before = true → s.loop.caller () = .idle ∧ Running s.worker s.loop.state
  after : s.application.before = false → Leaving s.worker s.loop.state
  stopHandler : s.application = .stopping ∨ s.application.before = false →
    s.worker.executing = true → s.stopHandler = true
  /-- The loop is there as long as `ThreadMain` executes. -/
  alive : s.worker.executing = true → s.alive .eventLoop = true ∧ s.deletes = 0
  dead : s.worker.executing = false → s.deletes = 1
  waking : s.application = .waking → s.worker.executing = true ∧
    (s.worker = .polling → s.woken = false → ∃ b, s.loop.caller () = .writing b)
  awake : (∃ rest, s.application = .deleting rest) ∨ s.application = .returned →
    s.worker = .polling → s.woken = false → 0 < s.control

structure Inv (s : State) : Prop where
  handlers : EventLoop.Inv s.handlers
  loop : LoopInv s
  violations : s.violations = []
  /-- The handler object of the commands goes first. -/
  dead : ∀ o, o ≠ .eventLoop → s.alive o = false → s.handlers.alive .command = false
  deleting : ∀ rest, s.application = .deleting rest →
    .eventLoop ∉ rest ∧ (rest ≠ released → s.handlers.alive .command = false)
  removal : s.handlers.removal (some ()) ≠ .idle → s.application = .removing
  inside : s.handlers.stage ≠ .waiting → s.worker = .polling ∧ s.woken = true
  own : s.handlers.removal none ≠ .idle → s.handlers.stage ≠ .waiting

theorem inv_start : Inv State.start where
  handlers := EventLoop.inv_start _ _
  loop :=
    { epollWaitSize := rfl
      loopCount := rfl
      before := fun _ => ⟨rfl, .inl ⟨.inl rfl, rfl⟩⟩
      after := nofun
      stopHandler := by simp [State.start, Application.before]
      alive := fun _ => ⟨rfl, rfl⟩
      dead := nofun
      waking := nofun
      awake := by simp [State.start] }
  violations := rfl
  dead := nofun
  deleting := nofun
  removal := fun h => absurd rfl h
  inside := fun h => absurd rfl h
  own := fun h => absurd rfl h

/-! ## What is there -/

theorem use_of_alive {s : State} {objects : List Object} (h : ∀ o ∈ objects, s.alive o = true) :
    s.use objects = s := by
  have hnone : objects.filter (fun o => !s.alive o) = [] := by
    rw [List.filter_eq_nil_iff]
    intro o ho
    simp [h o ho]
  simp [State.use, hnone]

theorem executing_of_running {pc : RunStop.ThreadPc} {state : RunStop.LoopState}
    (h : Running pc state) : pc.executing = true := by
  rcases h with ⟨rfl | rfl | rfl, -⟩ | ⟨rfl | rfl, -⟩ <;> rfl

namespace Inv

variable {s t : State}

/-- While the handler object of the commands is there, so is everything that `~Async` deletes. -/
theorem alive_of_command (hs : Inv s) (hcommand : s.handlers.alive .command = true) {o : Object}
    (ho : o ≠ .eventLoop) : s.alive o = true := by
  cases halive : s.alive o with
  | true => rfl
  | false =>
      rw [hs.dead o ho halive] at hcommand
      cases hcommand

theorem eventLoop_of_before (hs : Inv s) (h : s.application.before = true) :
    s.alive .eventLoop = true :=
  (hs.loop.alive (executing_of_running (hs.loop.before h).2)).1

/-- What a removal uses is there: the object that it removes, and with it the rest. -/
theorem unlinks_alive (hs : Inv s) (k : Option Unit) :
    ∀ o ∈ unlinks (s.handlers.removal k), s.alive o = true := by
  cases hpc : s.handlers.removal k with
  | unlinking d =>
      have hitem : s.handlers.alive d = true := hs.handlers.removal k d (by rw [hpc]; rfl)
      -- A removal of the worker runs inside the loop, that of `Destroy` before it asks it to stop.
      have hloop : s.alive .eventLoop = true := by
        cases k with
        | none =>
            have hinside := hs.inside (hs.own (by simp [hpc]))
            exact (hs.loop.alive (by rw [hinside.1]; rfl)).1
        | some u => exact hs.eventLoop_of_before (by rw [hs.removal (by simp [hpc])]; rfl)
      cases d with
      | control => simpa [unlinks] using hloop
      | command => simpa [unlinks, hloop] using hs.alive_of_command hitem (by decide)
  | _ => simp [unlinks]

end Inv

/-! ## Steps in `WaitEpoll` and in `RemoveEventHandler` -/

/-- A deleted handler object stays so. -/
theorem dead_step {b b' : EventLoop.State Unit Descriptor} {a : EventLoop.Act Unit Descriptor}
    (h : EventLoop.step b a = some b') {d : Descriptor} (hd : b.alive d = false) :
    b'.alive d = false := by
  cases a with
  | deliver batch =>
      simp only [EventLoop.step] at h
      split at h
      · cases h
        exact hd
      · cases h
  | loop =>
      simp only [EventLoop.step] at h
      split at h
      · rw [(RemovalEffect.loop_change h).1]
        exact hd
      · cases h
  | handlerReturns opt =>
      simp only [EventLoop.step] at h
      split at h
      · split at h
        · cases h
          exact hd
        · cases h
          exact hd
        · cases h
      · cases h
  | remove k r =>
      simp only [EventLoop.step] at h
      split at h
      · cases h
        exact hd
      · cases h
  | proceed k ok => exact (RemovalEffect.proceeded h).alive d hd

/-- A worker that is not in `epoll_pwait` does not depend on the messages. -/
theorem LoopInv.congr {s t : State} (h : LoopInv s) (happlication : t.application = s.application)
    (hloop : t.loop = s.loop) (hstop : t.stopHandler = s.stopHandler)
    (halive : t.alive .eventLoop = s.alive .eventLoop) (hdeletes : t.deletes = s.deletes)
    (hwoken : t.woken = false → s.woken = false ∧ t.control = s.control) : LoopInv t := by
  have hworker : t.worker = s.worker := by rw [State.worker, State.worker, hloop]
  refine ⟨?_, ?_, ?_, ?_, ?_, ?_, ?_, ?_, ?_⟩
  · rw [hloop]
    exact h.epollWaitSize
  · rw [hloop]
    exact h.loopCount
  · rw [happlication, hworker, hloop]
    exact h.before
  · rw [happlication, hworker, hloop]
    exact h.after
  · rw [happlication, hworker, hstop]
    exact h.stopHandler
  · rw [hworker, halive, hdeletes]
    exact h.alive
  · rw [hworker, hdeletes]
    exact h.dead
  · rw [happlication, hworker, hloop]
    exact fun hwaking => ⟨(h.waking hwaking).1, fun hpolling hasleep =>
      (h.waking hwaking).2 hpolling (hwoken hasleep).1⟩
  · rw [happlication, hworker]
    intro hbehind hpolling hasleep
    rw [(hwoken hasleep).2]
    exact h.awake hbehind hpolling (hwoken hasleep).1

namespace Inv

variable {s t : State}

/-- A step of the handler objects. -/
theorem rehandle (hs : Inv s) {a : EventLoop.Act Unit Descriptor}
    {handlers : EventLoop.State Unit Descriptor} (hex : Exclusive s.handlers a)
    (hstep : EventLoop.step s.handlers a = some handlers)
    (ht : t = { s with
      handlers := handlers, woken := t.woken, main := t.main, control := t.control })
    (hwoken : t.woken = false → s.woken = false ∧ t.control = s.control)
    (hremoval : handlers.removal (some ()) ≠ .idle → s.application = .removing)
    (hinside : handlers.stage ≠ .waiting → s.worker = .polling ∧ t.woken = true)
    (hown : handlers.removal none ≠ .idle → handlers.stage ≠ .waiting) : Inv t := by
  rw [ht]
  exact
    { handlers := EventLoop.inv_step hs.handlers hex hstep
      loop := hs.loop.congr rfl rfl rfl rfl rfl hwoken
      violations := hs.violations
      dead := fun o ho halive => dead_step hstep (hs.dead o ho halive)
      deleting := fun rest hrest =>
        ⟨(hs.deleting rest hrest).1, fun hne => dead_step hstep ((hs.deleting rest hrest).2 hne)⟩
      removal := hremoval
      inside := hinside
      own := hown }

theorem unlink_step {k : Option Unit} {ok : Bool} (hs : Inv s)
    (hex : Exclusive s.handlers (.proceed k ok)) (hstep : TearDown.unlink s k ok = some t) :
    Inv t := by
  unfold TearDown.unlink at hstep
  rcases Option.map_eq_some_iff.1 hstep with ⟨handlers, hproceed, ht⟩
  have hp := RemovalEffect.proceeded hproceed
  rw [use_of_alive (hs.unlinks_alive k)] at ht
  -- A removal that goes on was going on.
  have hidle : ∀ j, handlers.removal j ≠ .idle → s.handlers.removal j ≠ .idle := by
    intro j hj hbefore
    by_cases hjk : j = k
    · subst hjk
      simp [EventLoop.step, removalStep, hbefore] at hproceed
    · exact hj ((hp.others j hjk).trans hbefore)
  subst ht
  refine hs.rehandle hex hproceed rfl (fun h => ⟨h, rfl⟩) (fun h => hs.removal (hidle _ h)) ?_ ?_
  · rw [hp.stage]
    exact hs.inside
  · rw [hp.stage]
    exact fun h => hs.own (hidle _ h)

theorem loop_step (hs : Inv s) (hstep : TearDown.loop s = some t) : Inv t := by
  rcases Option.map_eq_some_iff.1 hstep with ⟨handlers, hhandlers, rfl⟩
  have hgo := hhandlers
  simp only [EventLoop.step] at hgo
  split at hgo
  · rename_i hidle
    have hstage : s.handlers.stage ≠ .waiting := by
      intro hwaiting
      simp [loopStep, hwaiting] at hgo
    -- The loop starts a removal on its own thread only at `releasing`.
    have hchange := (RemovalEffect.loop_change hgo).2.2
    refine hs.rehandle (a := .loop) trivial hhandlers rfl (fun h => ⟨h, rfl⟩) ?_
      (fun _ => hs.inside hstage) ?_
    · rcases hchange with ⟨hsame, -⟩ | ⟨r, rest, -, -, hremoval, -⟩
      · rw [hsame]
        exact hs.removal
      · rw [hremoval, Function.update_of_ne (by decide)]
        exact hs.removal
    · rcases hchange with ⟨hsame, -⟩ | ⟨r, rest, -, hremoving, -, -⟩
      · rw [hsame]
        exact fun h => absurd hidle h
      · rw [hremoving]
        exact fun _ => by simp
  · cases hgo

theorem deliver_step {batch : List (Entry Descriptor)} (hs : Inv s)
    (hstep : TearDown.deliver s batch = some t) : Inv t := by
  unfold TearDown.deliver at hstep
  split at hstep
  · rename_i hdeliver
    rcases Option.map_eq_some_iff.1 hstep with ⟨handlers, hhandlers, ht⟩
    have hloop := (hs.loop.alive (by rw [hdeliver.1]; rfl)).1
    rw [use_of_alive (by simpa using hloop)] at ht
    subst ht
    have hgo := hhandlers
    simp only [EventLoop.step] at hgo
    split at hgo
    · rename_i hwaiting
      cases hgo
      exact hs.rehandle (a := .deliver batch) trivial hhandlers rfl (by simp) hs.removal
        (fun _ => ⟨hdeliver.1, rfl⟩) (fun _ h => by cases h)
    · cases hgo
  · cases hstep

/-- The event handler returns to `WaitEpoll`. -/
theorem return_step (hs : Inv s) (hstep : TearDown.handlerReturns s = some t) (control : Nat) :
    Inv { t with control := control } := by
  rcases Option.map_eq_some_iff.1 hstep with ⟨handlers, hhandlers, rfl⟩
  have hgo := hhandlers
  simp only [EventLoop.step] at hgo
  split at hgo
  · rename_i hidle
    split at hgo
    · rename_i hopt
      cases hopt
    · rename_i d rest hstage _
      have hinside := hs.inside (by simp [hstage])
      cases hgo
      exact hs.rehandle (a := .handlerReturns .renew) trivial hhandlers rfl
        (fun h => by simp [hinside.2] at h) hs.removal (fun _ => hinside) (fun h => absurd hidle h)
    · cases hgo
  · cases hgo

/-- `Main` is only running as long as the objects that it uses are there. -/
theorem use_main (hs : Inv s) {rest : List (Entry Descriptor)}
    (hstage : s.handlers.stage = .calling .command rest) {objects : List Object}
    (hobjects : .eventLoop ∉ objects) : s.use objects = s := by
  -- The loop holds the handler object until `Main` has returned.
  have hcommand : s.handlers.alive .command = true :=
    hs.handlers.stage .command (by simp [hstage, Stage.items])
  refine use_of_alive fun o ho => hs.alive_of_command hcommand ?_
  exact fun heq => hobjects (heq ▸ ho)

theorem quiet (hs : Inv s)
    (ht : t = { s with commands := t.commands, replies := t.replies, main := t.main }) : Inv t := by
  rw [ht]
  exact
    { handlers := hs.handlers
      loop := hs.loop.congr rfl rfl rfl rfl rfl fun h => ⟨h, rfl⟩
      violations := hs.violations
      dead := hs.dead
      deleting := hs.deleting
      removal := hs.removal
      inside := hs.inside
      own := hs.own }

theorem main_step (hs : Inv s) {rest : List (Entry Descriptor)}
    (hstage : s.handlers.stage = .calling .command rest) {ok : Bool}
    (hstep : TearDown.main s ok = some t) : Inv t := by
  have huse : ∀ objects, .eventLoop ∉ objects → s.use objects = s := fun _ => hs.use_main hstage
  cases hmain : s.main with
  | entered =>
      simp only [TearDown.main, hmain, huse [.contextCommand] (by decide)] at hstep
      split at hstep
      · cases hstep
      · cases hstep
        exact hs.quiet rfl
  | finished =>
      simp only [TearDown.main, hmain] at hstep
      exact hs.return_step hstep t.control
  | _ =>
      simp [TearDown.main, hmain, huse] at hstep
      subst hstep
      exact hs.quiet rfl

theorem handle_step (hs : Inv s) {ok : Bool} (hstep : TearDown.handle s ok = some t) : Inv t := by
  unfold TearDown.handle at hstep
  split at hstep
  · rename_i rest hstage
    exact hs.main_step hstage hstep
  · unfold ctrlEventHandler at hstep
    split at hstep
    · cases hstep
    · rcases Option.map_eq_some_iff.1 hstep with ⟨u, hu, rfl⟩
      exact hs.return_step hu _
  · cases hstep

end Inv

/-! ## Steps of the application -/

theorem LoopInv.goto {s t : State} (h : LoopInv s) (hbefore : s.application.before = true)
    (happlication : t.application.before = true) (hloop : t.loop = s.loop)
    (hstop : t.application = .stopping → t.stopHandler = true)
    (halive : t.alive .eventLoop = s.alive .eventLoop) (hdeletes : t.deletes = s.deletes) :
    LoopInv t := by
  have hworker : t.worker = s.worker := by rw [State.worker, State.worker, hloop]
  refine ⟨?_, ?_, ?_, ?_, ?_, ?_, ?_, ?_, ?_⟩
  · rw [hloop]
    exact h.epollWaitSize
  · rw [hloop]
    exact h.loopCount
  · rw [hworker, hloop]
    exact fun _ => h.before hbefore
  · intro hafter
    rw [happlication] at hafter
    cases hafter
  · rintro (hstopping | hafter)
    · exact fun _ => hstop hstopping
    · rw [happlication] at hafter
      cases hafter
  · rw [hworker, halive, hdeletes]
    exact h.alive
  · rw [hworker, hdeletes]
    exact h.dead
  · intro hwaking
    rw [hwaking] at happlication
    cases happlication
  · rintro (⟨rest, hdeleting⟩ | hreturned)
    · rw [hdeleting] at happlication
      cases happlication
    · rw [hreturned] at happlication
      cases happlication

namespace Inv

variable {s t : State}

/-- The application goes on, and the stop is not yet requested. -/
theorem goto (hs : Inv s) (hbefore : s.application.before = true)
    (happlication : t.application.before = true)
    (ht : t = { s with
      application := t.application, commands := t.commands, replies := t.replies
      stopHandler := t.stopHandler })
    (hstop : t.application = .stopping → t.stopHandler = true)
    (hremoval : s.handlers.removal (some ()) ≠ .idle → t.application = .removing) : Inv t := by
  rw [ht]
  exact
    { handlers := hs.handlers
      loop := hs.loop.goto hbefore happlication rfl hstop rfl rfl
      violations := hs.violations
      dead := hs.dead
      deleting := fun rest hrest => by
        rw [show t.application = .deleting rest from hrest] at happlication
        cases happlication
      removal := hremoval
      inside := hs.inside
      own := hs.own }

theorem no_removal (hs : Inv s) (h : s.application ≠ .removing) :
    s.handlers.removal (some ()) = .idle := by
  by_contra hne
  exact h (hs.removal hne)

theorem call_step {kind : Kind} (hs : Inv s) (hstep : call s kind = some t) : Inv t := by
  unfold call at hstep
  split at hstep
  · rename_i hidle
    have hnone := hs.no_removal (by simp [hidle])
    cases hstep
    cases kind with
    | method => exact hs.goto (by rw [hidle]; rfl) rfl rfl nofun (fun h => absurd hnone h)
    | invoke => exact hs.goto (by rw [hidle]; rfl) rfl rfl nofun (fun h => absurd hnone h)
  · cases hstep

theorem recv_step (hs : Inv s) (hstep : recv s = some t) : Inv t := by
  unfold recv at hstep
  split at hstep
  · rename_i hwaiting _
    have hnone := hs.no_removal (by simp [hwaiting])
    cases hstep
    exact hs.goto (by rw [hwaiting]; rfl) rfl rfl nofun (fun h => absurd hnone h)
  · cases hstep

theorem destroy_step (hs : Inv s) (hex : Orderly s .destroy) (hstep : destroy s = some t) :
    Inv t := by
  unfold destroy at hstep
  split at hstep
  · rename_i hidle
    rcases Option.map_eq_some_iff.1 hstep with ⟨handlers, hhandlers, ht⟩
    have hbefore : s.application.before = true := by rw [hidle]; rfl
    -- The application is in its call from now on.
    have hgo := hhandlers
    simp only [EventLoop.step] at hgo
    split at hgo
    · rename_i hentry
      cases hgo
      subst ht
      exact
        { handlers := EventLoop.inv_step (a := .remove (some ()) .command) hs.handlers hex hhandlers
          loop := hs.loop.goto hbefore rfl rfl (by simp) rfl rfl
          violations := hs.violations
          dead := hs.dead
          deleting := by simp
          removal := fun _ => rfl
          inside := hs.inside
          own := fun h => hs.own (by simpa [EventLoop.State.setRemoval] using h) }
    · cases hgo
  · cases hstep

end Inv

/-- `StopLoop` of a loop that runs: it asks the loop to stop, and is going to wake it up where the
loop is started. -/
theorem stop_running {b b' : RunStop.State Unit} {pc : RunStop.ThreadPc} (hidle : b.caller () = .idle)
    (hrunning : Running pc b.state) (hstep : RunStop.step true b (.stop ()) = some b') :
    b'.state = .stopRequested ∧ b'.thread = b.thread ∧ b'.epollWaitSize = b.epollWaitSize ∧
      b'.loopCount = b.loopCount ∧ (pc = .polling → ∃ state, b'.caller () = .writing state) := by
  simp only [RunStop.step, RunStop.stopCall, hidle] at hstep
  -- Before the loop is started nobody has to be woken up: `ThreadMain` keeps `STOP_REQUESTED`.
  rcases hrunning with ⟨hpc, hstate⟩ | ⟨-, hstate⟩
  · simp [hstate, RunStop.LoopState.refusesStop, RunStop.LoopState.flag] at hstep
    subst hstep
    refine ⟨rfl, rfl, rfl, rfl, ?_⟩
    rintro rfl
    simp at hpc
  · simp [hstate, RunStop.LoopState.refusesStop, RunStop.LoopState.flag] at hstep
    subst hstep
    exact ⟨rfl, rfl, rfl, rfl, fun _ => ⟨_, rfl⟩⟩

theorem leaving_of_running {pc : RunStop.ThreadPc} {state : RunStop.LoopState}
    (h : Running pc state) : Leaving pc .stopRequested := by
  refine ⟨.inl rfl, ?_, fun r => ?_⟩
  · rcases h with ⟨rfl | rfl | rfl, -⟩ | ⟨rfl | rfl, -⟩ <;> nofun
  · rcases h with ⟨rfl | rfl | rfl, -⟩ | ⟨rfl | rfl, -⟩ <;> nofun

namespace Inv

variable {s t : State}

/-- The application goes on behind the request of the stop. -/
theorem behind (hs : Inv s) (hloop : LoopInv t)
    (ht : t = { s with
      application := t.application, loop := t.loop, control := t.control })
    (hworker : t.worker = s.worker) (hremoving : s.application ≠ .removing)
    (hdeleting : ∀ rest, t.application = .deleting rest →
      .eventLoop ∉ rest ∧ (rest ≠ released → s.handlers.alive .command = false)) : Inv t := by
  rw [ht] at hloop hworker hdeleting ⊢
  exact
    { handlers := hs.handlers
      loop := hloop
      violations := hs.violations
      dead := hs.dead
      deleting := hdeleting
      removal := fun h => absurd (hs.no_removal hremoving) h
      inside := hworker ▸ hs.inside
      own := hs.own }

theorem stopping_step (hs : Inv s) (hstopping : s.application = .stopping)
    {loop : RunStop.State Unit} (hstep : RunStop.step true s.loop (.stop ()) = some loop) :
    Inv { s with loop := loop, application := .waking } := by
  rcases hs.loop.before (by rw [hstopping]; rfl) with ⟨hidle, hrunning⟩
  rcases stop_running hidle hrunning hstep with ⟨hstate, hthread, hsize, hcount, hwriting⟩
  have hexecuting := executing_of_running hrunning
  have hworker : loop.thread 0 = s.worker := by rw [hthread, State.worker]
  refine hs.behind ?_ rfl hworker (by rw [hstopping]; nofun) nofun
  refine ⟨hsize.trans hs.loop.epollWaitSize, hcount.trans hs.loop.loopCount, nofun, fun _ => ?_,
    fun _ _ => hs.loop.stopHandler (.inl hstopping) hexecuting, fun _ => hs.loop.alive hexecuting,
    fun h => ?_, fun _ => ⟨?_, ?_⟩, by simp⟩
  · rw [State.worker, hworker, hstate]
    exact leaving_of_running hrunning
  · rw [State.worker, hworker, hexecuting] at h
    cases h
  · rw [State.worker, hworker]
    exact hexecuting
  · rw [State.worker, hworker]
    exact fun hpolling _ => hwriting hpolling

/-- The message that wakes the loop up is on its way. -/
theorem writing_step (hs : Inv s) (hwaking : s.application = .waking) {before : RunStop.LoopState}
    (hwriting : s.loop.caller () = .writing before) {loop : RunStop.State Unit}
    (hstep : RunStop.step true s.loop (.call () 0) = some loop) :
    Inv { s with loop := loop, control := s.control + 1, application := .deleting released } := by
  have hafter : s.application.before = false := by rw [hwaking]; rfl
  have hframe : loop.state = s.loop.state ∧ loop.thread = s.loop.thread ∧
      loop.epollWaitSize = s.loop.epollWaitSize ∧ loop.loopCount = s.loop.loopCount := by
    simp only [RunStop.step, RunStop.callStep, hwriting] at hstep
    cases hstep
    exact ⟨rfl, rfl, rfl, rfl⟩
  rcases hframe with ⟨hstate, hthread, hsize, hcount⟩
  have hworker : loop.thread 0 = s.worker := by rw [hthread, State.worker]
  refine hs.behind ?_ rfl hworker (by rw [hwaking]; simp) ?_
  · refine ⟨hsize.trans hs.loop.epollWaitSize, hcount.trans hs.loop.loopCount, fun h => ?_,
      fun _ => ?_, fun _ => ?_, ?_, ?_, by simp, fun _ _ _ => Nat.succ_pos _⟩
    · cases h
    · rw [State.worker, hworker, hstate]
      exact hs.loop.after hafter
    · rw [State.worker, hworker]
      exact hs.loop.stopHandler (.inr hafter)
    · rw [State.worker, hworker]
      exact hs.loop.alive
    · rw [State.worker, hworker]
      exact hs.loop.dead
  · intro rest hrest
    cases hrest
    exact ⟨by decide, fun h => absurd rfl h⟩

/-- There is no one to wake up. -/
theorem waking_step (hs : Inv s) (hwaking : s.application = .waking)
    (hnone : ∀ before, s.loop.caller () ≠ .writing before) :
    Inv { s with application := .deleting released } := by
  have hafter : s.application.before = false := by rw [hwaking]; rfl
  refine hs.behind ?_ rfl rfl (by rw [hwaking]; nofun) ?_
  · refine ⟨hs.loop.epollWaitSize, hs.loop.loopCount, nofun, fun _ => hs.loop.after hafter,
      fun _ => hs.loop.stopHandler (.inr hafter), hs.loop.alive, hs.loop.dead, nofun, ?_⟩
    intro _ hpolling hasleep
    rcases (hs.loop.waking hwaking).2 hpolling hasleep with ⟨before, hwriting⟩
    exact absurd hwriting (hnone before)
  · intro rest hrest
    cases hrest
    exact ⟨by decide, fun h => absurd rfl h⟩

theorem returned_step (hs : Inv s) (hdeleting : s.application = .deleting []) :
    Inv { s with application := .returned } := by
  have hafter : s.application.before = false := by rw [hdeleting]; rfl
  refine hs.behind ?_ rfl rfl (by rw [hdeleting]; nofun) nofun
  exact ⟨hs.loop.epollWaitSize, hs.loop.loopCount, nofun, fun _ => hs.loop.after hafter,
    fun _ => hs.loop.stopHandler (.inr hafter), hs.loop.alive, hs.loop.dead, nofun,
    fun _ => hs.loop.awake (.inl ⟨[], hdeleting⟩)⟩

/-- Without its descriptor the handler object is not reported any more. -/
theorem release_handlers (hs : Inv s) (o : Object) : EventLoop.Inv (s.release o).handlers ∧
    (s.release o).handlers.alive = s.handlers.alive ∧
    (s.release o).handlers.stage = s.handlers.stage ∧
    (s.release o).handlers.removal = s.handlers.removal := by
  have hinv := hs.handlers
  by_cases ho : o = .contextCommand
  · -- Closing the descriptor takes it out of the epoll set.
    simp only [State.release, ho, if_true, and_self, and_true]
    have hclosed : ∀ d, Function.update s.handlers.watched .command false d = true →
        s.handlers.watched d = true := by
      intro d hd
      by_cases hdc : d = .command
      · rw [hdc, Function.update_self] at hd
        cases hd
      · rwa [Function.update_of_ne hdc] at hd
    refine ⟨hinv.violations, hinv.stage, hinv.removal, fun d hd => hinv.watched d (hclosed d hd), ?_⟩
    intro k d hk
    rw [Bool.eq_false_iff]
    exact fun hd => Bool.eq_false_iff.1 (hinv.unlinked k d hk) (hclosed d hd)
  · simp only [State.release, ho, if_false, and_self, and_true]
    exact hinv

theorem release_step (hs : Inv s) {o : Object} {rest : List Object}
    (hdeleting : s.application = .deleting (o :: rest))
    (hcommand : s.handlers.alive .command = false) :
    Inv { s.release o with application := .deleting rest } := by
  have hafter : s.application.before = false := by rw [hdeleting]; rfl
  have hkept := (hs.deleting _ hdeleting).1
  rw [List.mem_cons, not_or] at hkept
  rcases hs.release_handlers o with ⟨hinv, halive, hstage, hremoval⟩
  have hloop : (s.release o).alive .eventLoop = s.alive .eventLoop :=
    Function.update_of_ne hkept.1 _ _
  exact
    { handlers := hinv
      loop :=
        { epollWaitSize := hs.loop.epollWaitSize
          loopCount := hs.loop.loopCount
          before := nofun
          after := fun _ => hs.loop.after hafter
          stopHandler := fun _ => hs.loop.stopHandler (.inr hafter)
          alive := fun h => ⟨hloop.trans (hs.loop.alive h).1, (hs.loop.alive h).2⟩
          dead := hs.loop.dead
          waking := nofun
          awake := fun _ => hs.loop.awake (.inl ⟨_, hdeleting⟩) }
      violations := hs.violations
      dead := fun _ _ _ => (congrFun halive .command).trans hcommand
      deleting := fun rest' hrest => by
        cases hrest
        exact ⟨hkept.2, fun _ => (congrFun halive .command).trans hcommand⟩
      removal := fun h => absurd (hs.no_removal (by rw [hdeleting]; nofun)) (hremoval ▸ h)
      inside := fun h => hs.inside (hstage ▸ h)
      own := fun h => hstage ▸ hs.own (hremoval ▸ h) }

theorem proceed_step {ok : Bool} (hs : Inv s) (hok : Orderly s (.proceed ok))
    (hstep : proceed s ok = some t) : Inv t := by
  rcases hok with ⟨rfl, hex, hfirst⟩
  have huse : s.application.before = true → s.use [.eventLoop] = s := fun h =>
    use_of_alive (by simpa using hs.eventLoop_of_before h)
  unfold proceed at hstep
  split at hstep
  · -- `RemoveEventHandler`
    rename_i hremoving
    split at hstep
    · rename_i hidle
      cases hstep
      exact hs.goto (by rw [hremoving]; rfl) rfl rfl nofun fun h => absurd hidle h
    · exact hs.unlink_step hex hstep
  · -- `SetStopHandler`
    rename_i hsetting
    have hnone := hs.no_removal (by rw [hsetting]; nofun)
    rw [huse (by rw [hsetting]; rfl)] at hstep
    cases hstep
    exact hs.goto (by rw [hsetting]; rfl) rfl rfl (fun _ => Bool.or_true _)
      fun h => absurd hnone h
  · -- `StopLoop`, up to the end of its critical section
    rename_i hstopping
    rw [huse (by rw [hstopping]; rfl)] at hstep
    rcases Option.map_eq_some_iff.1 hstep with ⟨loop, hloop, rfl⟩
    exact hs.stopping_step hstopping hloop
  · -- Its write: the worker has not come to its stop handler, so the loop is still there.
    rename_i hwaking
    rw [use_of_alive (by simpa using (hs.loop.alive (hs.loop.waking hwaking).1).1)] at hstep
    split at hstep
    · rename_i before hwriting
      rcases Option.map_eq_some_iff.1 hstep with ⟨loop, hloop, rfl⟩
      exact hs.writing_step hwaking hwriting hloop
    · rename_i hnone
      cases hstep
      exact hs.waking_step hwaking hnone
  · rename_i o rest hdeleting
    cases hstep
    refine hs.release_step hdeleting ?_
    -- The first deletion is the one that the condition is about.
    by_cases hrest : o :: rest = released
    · exact hfirst (hrest ▸ hdeleting)
    · exact (hs.deleting _ hdeleting).2 hrest
  · rename_i hdeleting
    cases hstep
    exact hs.returned_step hdeleting
  · cases hstep

end Inv

/-! ## Steps of `ThreadMain` -/

section ThreadMain

variable {b b' : RunStop.State Unit} {ret : Int}

theorem thread_running (hsize : b.epollWaitSize = 10) (hcount : b.loopCount = -1)
    (hrunning : Running (b.thread 0) b.state) (hprepare : b.thread 0 = .prepare → ret = 0)
    (hpolling : b.thread 0 = .polling → ret = 0)
    (hstep : RunStop.step true b (.thread 0 ret) = some b') :
    Running (b'.thread 0) b'.state ∧ b'.caller = b.caller ∧ b'.epollWaitSize = 10 ∧
      b'.loopCount = -1 := by
  rcases hrunning with ⟨hpc | hpc | hpc, hstate⟩ | ⟨hpc | hpc, hstate⟩
  · simp [RunStop.step, RunStop.threadStep, hpc, hsize, hcount] at hstep
    subst hstep
    exact ⟨.inl ⟨.inr (.inl rfl), hstate⟩, rfl, hsize, hcount⟩
  · simp [RunStop.step, RunStop.threadStep, hpc, hprepare hpc] at hstep
    subst hstep
    exact ⟨.inl ⟨.inr (.inr rfl), hstate⟩, rfl, hsize, hcount⟩
  · simp [RunStop.step, RunStop.threadStep, hpc, hstate] at hstep
    subst hstep
    exact ⟨.inr ⟨.inl rfl, rfl⟩, rfl, hsize, hcount⟩
  · simp [RunStop.step, RunStop.threadStep, hpc, hstate, hcount] at hstep
    subst hstep
    exact ⟨.inr ⟨.inr rfl, rfl⟩, rfl, hsize, rfl⟩
  · simp [RunStop.step, RunStop.threadStep, hpc, hpolling hpc, Errno.ETIMEDOUT] at hstep
    subst hstep
    exact ⟨.inr ⟨.inl rfl, hstate⟩, rfl, hsize, hcount⟩

/-- A loop that was asked to stop does not wait again. -/
theorem thread_leaving (hsize : b.epollWaitSize = 10) (hcount : b.loopCount = -1)
    (hleaving : Leaving (b.thread 0) b.state) (hprepare : b.thread 0 = .prepare → ret = 0)
    (hstep : RunStop.step true b (.thread 0 ret) = some b') :
    Leaving (b'.thread 0) b'.state ∧ b'.thread 0 ≠ .polling ∧ b'.caller = b.caller ∧
      b'.epollWaitSize = 10 ∧ b'.loopCount = -1 ∧
      ((b'.thread 0).executing = false ↔ ∃ r, b.thread 0 = .cleanup r) := by
  rcases hleaving with ⟨hstate, habsent, habort⟩
  have hrequested : b.state ≠ .startRequested := fun h => by simp [h] at hstate
  have hstarted : b.state ≠ .started := fun h => by simp [h] at hstate
  -- Every place but the last two keeps the state.
  have hgo : ∀ pc, pc ≠ .absent → pc ≠ .polling → (∀ r, pc ≠ .abort r) → pc.executing = true →
      (∀ r, b.thread 0 ≠ .cleanup r) → b' = b.setThread 0 pc →
      Leaving (b'.thread 0) b'.state ∧ b'.thread 0 ≠ .polling ∧ b'.caller = b.caller ∧
        b'.epollWaitSize = 10 ∧ b'.loopCount = -1 ∧
        ((b'.thread 0).executing = false ↔ ∃ r, b.thread 0 = .cleanup r) := by
    intro pc hpc hpolling hpcAbort hexecuting hcleanup hb'
    have hthread : b'.thread 0 = pc := by rw [hb']; rfl
    rw [hthread, hexecuting]
    refine ⟨⟨hb' ▸ hstate, hpc, hpcAbort⟩, hpolling, by rw [hb']; rfl, by rw [hb']; exact hsize,
      by rw [hb']; exact hcount, ?_⟩
    simpa using hcleanup
  cases hpc : b.thread 0 with
  | absent => exact absurd hpc habsent
  | abort r => exact absurd hpc (habort r)
  | ended r => simp [RunStop.step, RunStop.threadStep, hpc] at hstep
  | entry =>
      simp [RunStop.step, RunStop.threadStep, hpc, hsize, hcount] at hstep
      rw [hpc] at hgo
      exact hgo .prepare (by simp) (by simp) (by simp) rfl (by simp) hstep.symm
  | prepare =>
      simp [RunStop.step, RunStop.threadStep, hpc, hprepare hpc] at hstep
      rw [hpc] at hgo
      exact hgo .starting (by simp) (by simp) (by simp) rfl (by simp) hstep.symm
  | starting =>
      simp [RunStop.step, RunStop.threadStep, hpc, hrequested] at hstep
      rw [hpc] at hgo
      exact hgo .looping (by simp) (by simp) (by simp) rfl (by simp) hstep.symm
  | looping =>
      simp [RunStop.step, RunStop.threadStep, hpc, hstarted] at hstep
      rw [hpc] at hgo
      exact hgo (.finishing 0) (by simp) (by simp) (by simp) rfl (by simp) hstep.symm
  | polling =>
      simp only [RunStop.step, RunStop.threadStep, hpc] at hstep
      rw [hpc] at hgo
      split at hstep
      · exact hgo (.finishing ret) (by simp) (by simp) (by simp) rfl (by simp)
          (Option.some.inj hstep).symm
      · exact hgo .looping (by simp) (by simp) (by simp) rfl (by simp) (Option.some.inj hstep).symm
  | finishing r =>
      simp only [RunStop.step, RunStop.threadStep, hpc] at hstep
      cases hstep
      refine ⟨⟨.inr rfl, fun h => ?_, fun r h => ?_⟩, fun h => ?_, rfl, hsize, hcount, ?_⟩
      · cases h
      · cases h
      · cases h
      · simp [RunStop.State.setThread, RunStop.ThreadPc.executing]
  | cleanup r =>
      simp only [RunStop.step, RunStop.threadStep, hpc] at hstep
      cases hstep
      refine ⟨⟨hstate, fun h => ?_, fun r h => ?_⟩, fun h => ?_, rfl, hsize, hcount, ?_⟩
      · cases h
      · cases h
      · cases h
      · simp [RunStop.State.setThread, RunStop.ThreadPc.executing]

end ThreadMain

theorem worker_executing {s : State} {ret : Int} {loop : RunStop.State Unit}
    (hstep : RunStop.step true s.loop (.thread 0 ret) = some loop) : s.worker.executing = true := by
  simp only [RunStop.step, RunStop.threadStep] at hstep
  unfold State.worker
  cases hpc : s.loop.thread 0 with
  | absent => simp [hpc] at hstep
  | ended r => simp [hpc] at hstep
  | _ => rfl

namespace Inv

variable {s t : State}

theorem stage_waiting (hs : Inv s) (h : s.worker ≠ .polling) : s.handlers.stage = .waiting := by
  by_contra hstage
  exact h (hs.inside hstage).1

/-- A step of `ThreadMain` outside its stop handler. -/
theorem go_step (hs : Inv s) (hstage : s.handlers.stage = .waiting) {ret : Int}
    {loop : RunStop.State Unit} (hprepare : s.worker = .prepare → ret = 0)
    (hpolling : s.worker = .polling → ret = 0) (hcleanup : ∀ r, s.worker ≠ .cleanup r)
    (hstep : RunStop.step true s.loop (.thread 0 ret) = some loop) (woken : Bool) :
    Inv { s with loop := loop, woken := woken } := by
  have halive := hs.loop.alive (worker_executing hstep)
  -- Only what is said about `ThreadMain` and about the state of the loop is concerned.
  refine
    { handlers := hs.handlers
      loop := ?_
      violations := hs.violations
      dead := hs.dead
      deleting := hs.deleting
      removal := hs.removal
      inside := fun h => absurd hstage h
      own := hs.own }
  cases hbefore : s.application.before with
  | true =>
      rcases thread_running hs.loop.epollWaitSize hs.loop.loopCount (hs.loop.before hbefore).2
        hprepare hpolling hstep with ⟨hrunning, hcaller, hsize, hcount⟩
      have hexecuting := executing_of_running hrunning
      refine ⟨hsize, hcount, fun _ => ⟨hcaller ▸ (hs.loop.before hbefore).1, hrunning⟩, ?_, ?_,
        fun _ => halive, fun h => ?_, ?_, ?_⟩
      · intro hafter
        simp [hbefore] at hafter
      · intro hstop _
        exact hs.loop.stopHandler hstop (worker_executing hstep)
      · rw [show State.worker _ = loop.thread 0 from rfl, hexecuting] at h
        cases h
      · intro hwaking
        rw [show s.application = .waking from hwaking] at hbefore
        cases hbefore
      · rintro (⟨rest, hdeleting⟩ | hreturned)
        · rw [show s.application = .deleting rest from hdeleting] at hbefore
          cases hbefore
        · rw [show s.application = .returned from hreturned] at hbefore
          cases hbefore
  | false =>
      rcases thread_leaving hs.loop.epollWaitSize hs.loop.loopCount (hs.loop.after hbefore)
        hprepare hstep with ⟨hleaving, hasleep, -, hsize, hcount, hended⟩
      have hexecuting : (loop.thread 0).executing = true := by
        rw [← Bool.not_eq_false, hended]
        rintro ⟨r, hr⟩
        exact hcleanup r hr
      refine ⟨hsize, hcount, ?_, fun _ => hleaving, ?_, fun _ => halive, fun h => ?_,
        fun _ => ⟨hexecuting, fun h => absurd h hasleep⟩, fun _ h => absurd h hasleep⟩
      · intro h
        simp [hbefore] at h
      · intro hstop _
        exact hs.loop.stopHandler hstop (worker_executing hstep)
      · rw [show State.worker _ = loop.thread 0 from rfl, hexecuting] at h
        cases h

/-- `ThreadMain` ends in its stop handler. -/
theorem finish_step (hs : Inv s) {ret r : Int} {loop : RunStop.State Unit}
    (hcleanup : s.worker = .cleanup r) (hwaking : s.application ≠ .waking)
    (hstep : RunStop.step true s.loop (.thread 0 ret) = some loop) :
    Inv { s.finish with loop := loop } := by
  have hstage := hs.stage_waiting (by rw [hcleanup]; nofun)
  have hexecuting := worker_executing hstep
  -- A loop that is at its end was asked to stop.
  have hafter : s.application.before = false := by
    rw [Bool.eq_false_iff]
    intro hbefore
    rcases (hs.loop.before hbefore).2 with ⟨hpc, -⟩ | ⟨hpc, -⟩
    · simp [hcleanup] at hpc
    · simp [hcleanup] at hpc
  have hstop := hs.loop.stopHandler (.inr hafter) hexecuting
  rcases thread_leaving hs.loop.epollWaitSize hs.loop.loopCount (hs.loop.after hafter)
    (by rw [← State.worker, hcleanup]; nofun) hstep with
    ⟨hleaving, hasleep, -, hsize, hcount, hended⟩
  have hdone : (loop.thread 0).executing = false := hended.2 ⟨r, hcleanup⟩
  simp only [State.finish, hstop, if_true]
  refine
    { handlers := hs.handlers
      loop := ?_
      violations := hs.violations
      dead := fun o ho halive => hs.dead o ho ((Function.update_of_ne ho _ _).symm.trans halive)
      deleting := hs.deleting
      removal := hs.removal
      inside := fun h => absurd hstage h
      own := hs.own }
  refine ⟨hsize, hcount, ?_, fun _ => hleaving, fun _ h => ?_, fun h => ?_, fun _ => ?_,
    fun h => absurd h hwaking, fun _ h => absurd h hasleep⟩
  · intro h
    simp [hafter] at h
  · rw [show State.worker _ = loop.thread 0 from rfl, hdone] at h
    cases h
  · rw [show State.worker _ = loop.thread 0 from rfl, hdone] at h
    cases h
  · show s.deletes + 1 = 1
    rw [(hs.loop.alive hexecuting).2]

theorem thread_step {ret : Int} (hs : Inv s) (hok : Orderly s (.thread ret))
    (hstep : thread s ret = some t) : Inv t := by
  have huse : s.worker.executing = true → s.use [.eventLoop] = s := fun h =>
    use_of_alive (by simpa using (hs.loop.alive h).1)
  unfold thread at hstep
  split at hstep
  · -- `WaitEpoll` returns, with a result that does not end the loop.
    rename_i hpolling
    split at hstep
    · rename_i hstage
      rw [huse (by rw [hpolling]; rfl)] at hstep
      rcases Option.map_eq_some_iff.1 hstep with ⟨loop, hloop, rfl⟩
      exact hs.go_step hstage (fun _ => rfl) (fun _ => rfl) (by rw [hpolling]; nofun) hloop false
    · cases hstep
  · rename_i r hcleanup
    rw [huse (by rw [hcleanup]; rfl)] at hstep
    rcases Option.map_eq_some_iff.1 hstep with ⟨loop, hloop, rfl⟩
    exact hs.finish_step hcleanup (hok.2 r hcleanup) hloop
  · rename_i hpolling hcleanup
    rcases Option.map_eq_some_iff.1 hstep with ⟨loop, hloop, ht⟩
    rw [huse (worker_executing hloop)] at ht
    subst ht
    exact hs.go_step (hs.stage_waiting hpolling) hok.1 (fun h => absurd h hpolling) hcleanup hloop
      s.woken

/-! ## Runs -/

theorem step_inv {a : Act} (hs : Inv s) (hok : Orderly s a) (hstep : step s a = some t) :
    Inv t := by
  cases a with
  | call kind => exact hs.call_step hstep
  | recv => exact hs.recv_step hstep
  | destroy => exact hs.destroy_step hok hstep
  | proceed ok => exact hs.proceed_step hok hstep
  | deliver batch => exact hs.deliver_step hstep
  | loop => exact hs.loop_step hstep
  | remove ok => exact hs.unlink_step hok hstep
  | main ok => exact hs.handle_step hstep
  | thread ret => exact hs.thread_step hok hstep

end Inv

/-! ## The end of the worker -/

/-- The handler object of the messages stays, and each message that was reported is there until it is
read; behind `Destroy` that of the commands is gone. -/
structure Ending (s : State) : Prop where
  lasting : Lasting s.handlers .control
  nodup : s.handlers.stage.uncalled.Nodup
  message : .control ∈ s.handlers.stage.uncalled → 0 < s.control
  returned : s.application = .returned → s.handlers.alive .command = false

theorem ending_start : Ending State.start where
  lasting := lasting_start _ _ rfl
  nodup := List.nodup_nil
  message := nofun
  returned := nofun

namespace Ending

variable {s t : State}

theorem keep (hs : Ending s) (hhandlers : t.handlers = s.handlers) (hcontrol : s.control ≤ t.control)
    (hreturned : t.application = .returned → s.handlers.alive .command = false) : Ending t := by
  refine ⟨hhandlers ▸ hs.lasting, hhandlers ▸ hs.nodup, ?_, hhandlers ▸ hreturned⟩
  rw [hhandlers]
  exact fun hmem => Nat.lt_of_lt_of_le (hs.message hmem) hcontrol

theorem rehandle (hs : Ending s) {a : EventLoop.Act Unit Descriptor}
    (hstep : EventLoop.step s.handlers a = some t.handlers) (hremove : ∀ k, a ≠ .remove k .control)
    (hrenew : a ≠ .handlerReturns .cancel)
    (happlication : t.application = .returned → s.application = .returned)
    (hnodup : t.handlers.stage.uncalled.Nodup)
    (hmessage : .control ∈ t.handlers.stage.uncalled → 0 < t.control) : Ending t :=
  ⟨lasting_step hs.lasting hremove hrenew hstep, hnodup, hmessage,
    fun h => dead_step hstep (hs.returned (happlication h))⟩

theorem unlink_step {k : Option Unit} {ok : Bool} (hs : Ending s)
    (hstep : TearDown.unlink s k ok = some t) : Ending t := by
  rcases Option.map_eq_some_iff.1 hstep with ⟨handlers, hproceed, rfl⟩
  have hstage := (RemovalEffect.proceeded hproceed).stage
  refine hs.rehandle hproceed (fun _ => nofun) nofun id ?_ ?_
  · exact hstage ▸ hs.nodup
  · exact hstage ▸ hs.message

theorem loop_step (hs : Ending s) (hstep : TearDown.loop s = some t) : Ending t := by
  rcases Option.map_eq_some_iff.1 hstep with ⟨handlers, hhandlers, rfl⟩
  have hgo := hhandlers
  simp only [EventLoop.step] at hgo
  split at hgo
  · have hsub := (loop_stage hgo).2
    exact hs.rehandle hhandlers (fun _ => by simp) (by simp) id (hs.nodup.sublist hsub)
      fun hmem => hs.message (hsub.subset hmem)
  · cases hgo

theorem deliver_step {batch : List (Entry Descriptor)} (hs : Ending s)
    (hstep : TearDown.deliver s batch = some t) : Ending t := by
  unfold TearDown.deliver at hstep
  split at hstep
  · rename_i hdeliver
    rcases Option.map_eq_some_iff.1 hstep with ⟨handlers, hhandlers, rfl⟩
    have hgo := hhandlers
    simp only [EventLoop.step] at hgo
    split at hgo
    · cases hgo
      refine hs.rehandle hhandlers (fun _ => by simp) (by simp) id hdeliver.2.2.2 fun hmem => ?_
      -- Epoll has reported it, so there is a message.
      rcases entry_of_pending hmem with ⟨events, hentry⟩
      have hready := List.all_eq_true.1 hdeliver.2.2.1 _ hentry
      simp only [ready, decide_eq_true_eq] at hready
      exact hready.2
    · cases hgo
  · cases hstep

theorem return_step (hs : Ending s) (hstep : TearDown.handlerReturns s = some t) (control : Nat)
    (hcontrol : ∀ r rest, s.handlers.stage = .calling r rest → .control ∈ pending rest →
      0 < control) : Ending { t with control := control } := by
  rcases Option.map_eq_some_iff.1 hstep with ⟨handlers, hhandlers, rfl⟩
  have hgo := hhandlers
  simp only [EventLoop.step] at hgo
  split at hgo
  · split at hgo
    · rename_i hopt
      cases hopt
    · rename_i d rest hstage _
      cases hgo
      have hnodup := hs.nodup
      rw [hstage] at hnodup
      exact hs.rehandle hhandlers (fun _ => by simp) (by simp) id hnodup.of_cons (hcontrol d rest hstage)
    · cases hgo
  · cases hgo

theorem main_step {ok : Bool} (hs : Ending s) (hstep : TearDown.main s ok = some t) : Ending t := by
  have hkeep : ∀ u : State, u.handlers = s.handlers → u.control = s.control →
      u.application = s.application → Ending u := fun u hhandlers hcontrol happlication =>
    hs.keep hhandlers (Nat.le_of_eq hcontrol.symm) fun h => hs.returned (happlication ▸ h)
  cases hmain : s.main with
  | entered =>
      simp only [TearDown.main, hmain] at hstep
      split at hstep
      · cases hstep
      · cases hstep
        exact hkeep _ rfl rfl rfl
  | finished =>
      simp only [TearDown.main, hmain] at hstep
      refine hs.return_step hstep t.control fun r rest' hcalling hmem => ?_
      rcases Option.map_eq_some_iff.1 hstep with ⟨handlers, -, rfl⟩
      exact hs.message (by rw [hcalling]; exact List.mem_cons_of_mem _ hmem)
  | _ =>
      simp only [TearDown.main, hmain] at hstep
      cases hstep
      exact hkeep _ rfl rfl rfl

theorem handle_step {ok : Bool} (hs : Ending s) (hstep : TearDown.handle s ok = some t) :
    Ending t := by
  unfold TearDown.handle at hstep
  split at hstep
  · exact hs.main_step hstep
  · rename_i hstage
    unfold ctrlEventHandler at hstep
    split at hstep
    · cases hstep
    · rcases Option.map_eq_some_iff.1 hstep with ⟨u, hu, rfl⟩
      refine hs.return_step hu _ fun r rest' hcalling hmem => ?_
      -- There is only one report of it.
      rw [hstage] at hcalling
      cases hcalling
      have hnodup := hs.nodup
      rw [hstage] at hnodup
      exact absurd hmem (List.nodup_cons.1 hnodup).1
  · cases hstep

theorem call_step {kind : Kind} (hs : Ending s) (hstep : call s kind = some t) : Ending t := by
  unfold call at hstep
  split at hstep
  · cases hstep
    cases kind with
    | method => exact hs.keep rfl (Nat.le_refl _) nofun
    | invoke => exact hs.keep rfl (Nat.le_refl _) nofun
  · cases hstep

theorem recv_step (hs : Ending s) (hstep : recv s = some t) : Ending t := by
  unfold recv at hstep
  split at hstep
  · cases hstep
    exact hs.keep rfl (Nat.le_refl _) nofun
  · cases hstep

theorem destroy_step (hs : Ending s) (hstep : destroy s = some t) : Ending t := by
  unfold destroy at hstep
  split at hstep
  · rcases Option.map_eq_some_iff.1 hstep with ⟨handlers, hhandlers, rfl⟩
    have hgo := hhandlers
    simp only [EventLoop.step] at hgo
    split at hgo
    · cases hgo
      exact hs.rehandle hhandlers (fun _ => by simp) (by simp) (by simp) hs.nodup hs.message
    · cases hgo
  · cases hstep

/-- The objects that are deleted leave the handler object of the messages alone. -/
theorem release_step (hs : Ending s) (o : Object) (rest : List Object) :
    Ending { s.release o with application := .deleting rest } := by
  by_cases ho : o = .contextCommand
  · simp only [State.release, ho, if_true]
    have hne : Descriptor.control ≠ .command := nofun
    have hwatched : Function.update s.handlers.watched .command false .control = true :=
      (Function.update_of_ne hne _ _).trans hs.lasting.watched
    exact ⟨⟨hwatched, hs.lasting.state, hs.lasting.stage, hs.lasting.removal⟩, hs.nodup, hs.message,
      nofun⟩
  · simp only [State.release, ho, if_false]
    exact hs.keep rfl (Nat.le_refl _) nofun

theorem proceed_step {ok : Bool} (hs : Ending s) (hinv : Inv s) (hstep : proceed s ok = some t) :
    Ending t := by
  unfold proceed at hstep
  split at hstep
  · split at hstep
    · cases hstep
      exact hs.keep rfl (Nat.le_refl _) nofun
    · exact hs.unlink_step hstep
  · cases hstep
    exact hs.keep rfl (Nat.le_refl _) nofun
  · rcases Option.map_eq_some_iff.1 hstep with ⟨loop, -, rfl⟩
    exact hs.keep rfl (Nat.le_refl _) nofun
  · split at hstep
    · rcases Option.map_eq_some_iff.1 hstep with ⟨loop, -, rfl⟩
      refine hs.keep rfl ?_ nofun
      cases ok with
      | true => exact Nat.le_succ _
      | false => exact Nat.le_refl _
    · cases hstep
      exact hs.keep rfl (Nat.le_refl _) nofun
  · cases hstep
    exact hs.release_step _ _
  · rename_i hdeleting
    cases hstep
    exact hs.keep rfl (Nat.le_refl _) fun _ => (hinv.deleting [] hdeleting).2 (by decide)
  · cases hstep

theorem thread_step {ret : Int} (hs : Ending s) (hstep : thread s ret = some t) : Ending t := by
  have hkeep : ∀ u : State, u.handlers = s.handlers → u.control = s.control →
      u.application = s.application → Ending u := fun u hhandlers hcontrol happlication =>
    hs.keep hhandlers (Nat.le_of_eq hcontrol.symm) fun h => hs.returned (happlication ▸ h)
  unfold thread at hstep
  split at hstep
  · split at hstep
    · rcases Option.map_eq_some_iff.1 hstep with ⟨loop, -, rfl⟩
      exact hkeep _ rfl rfl rfl
    · cases hstep
  · rcases Option.map_eq_some_iff.1 hstep with ⟨loop, -, rfl⟩
    unfold State.finish
    split
    · exact hkeep _ rfl rfl rfl
    · exact hkeep _ rfl rfl rfl
  · rcases Option.map_eq_some_iff.1 hstep with ⟨loop, -, rfl⟩
    exact hkeep _ rfl rfl rfl

theorem step {a : Act} (hs : Ending s) (hinv : Inv s) (hstep : TearDown.step s a = some t) :
    Ending t := by
  cases a with
  | call kind => exact hs.call_step hstep
  | recv => exact hs.recv_step hstep
  | destroy => exact hs.destroy_step hstep
  | proceed ok => exact hs.proceed_step hinv hstep
  | deliver batch => exact hs.deliver_step hstep
  | loop => exact hs.loop_step hstep
  | remove ok => exact hs.unlink_step hstep
  | main ok => exact hs.handle_step hstep
  | thread ret => exact hs.thread_step hstep

end Ending

/-- More steps than `ThreadMain` makes before its end, once the loop was asked to stop, apart from
those in `WaitEpoll`. -/
def threadLeft : RunStop.ThreadPc → Nat
  | .absent => 0
  | .ended _ => 0
  | .abort _ => 1
  | .cleanup _ => 1
  | .finishing _ => 2
  | .looping => 3
  | .polling => 4
  | .starting => 4
  | .prepare => 5
  | .entry => 6

theorem leaving_enabled {b : RunStop.State Unit} (hsize : b.epollWaitSize = 10)
    (hcount : b.loopCount = -1) (hleaving : Leaving (b.thread 0) b.state)
    (hexecuting : (b.thread 0).executing = true) :
    ∃ b', RunStop.step true b (.thread 0 0) = some b' ∧
      threadLeft (b'.thread 0) < threadLeft (b.thread 0) := by
  rcases hleaving with ⟨hstate, -, -⟩
  have hrequested : b.state ≠ .startRequested := fun h => by simp [h] at hstate
  have hstarted : b.state ≠ .started := fun h => by simp [h] at hstate
  cases hpc : b.thread 0 with
  | absent => simp [hpc, RunStop.ThreadPc.executing] at hexecuting
  | ended r => simp [hpc, RunStop.ThreadPc.executing] at hexecuting
  | _ =>
      simp [RunStop.step, RunStop.threadStep, RunStop.State.setThread, hpc, hsize, hcount,
        hrequested, hstarted, Errno.ETIMEDOUT, threadLeft]

/-- The same with the steps in `WaitEpoll`; a worker that waits is woken up once. -/
def State.left (s : State) : Nat :=
  threadLeft s.worker +
    if s.worker = .polling then if s.woken then s.handlers.stage.left else 13 else 0

section Worker

variable {s : State}

/-- Behind `Destroy` the loop holds no handler object but that of the messages. -/
theorem only_control (hs : Inv s) (he : Ending s) (hreturned : s.application = .returned) :
    s.handlers.removal none = .idle ∧
      ∀ d ∈ s.handlers.stage.items, d = .control := by
  have hgone : ∀ d, s.handlers.alive d = true → d = .control := by
    intro d hd
    cases d with
    | control => rfl
    | command =>
        rw [he.returned hreturned] at hd
        cases hd
  refine ⟨?_, fun d hd => hgone d (hs.handlers.stage d hd)⟩
  -- What the loop removes is alive, and that of the messages is never removed.
  have hitem : ∀ d, (s.handlers.removal none).item ≠ some d := by
    intro d hd
    cases hgone d (hs.handlers.removal none d hd)
    exact he.lasting.removal none hd
  cases hpc : s.handlers.removal none with
  | idle => rfl
  | _ => exact absurd (by rw [hpc]; rfl) (hitem _)

/-- A step in `WaitEpoll`. -/
theorem left_lt {t : State} (hpolling : s.worker = .polling) (hloop : t.loop = s.loop)
    (hwoken : t.woken = true)
    (hless : t.handlers.stage.left < if s.woken then s.handlers.stage.left else 13) :
    t.left < s.left := by
  have hworker : t.worker = .polling := by rw [State.worker, hloop, ← hpolling, State.worker]
  simp only [State.left, hworker, hpolling, hwoken, if_true]
  exact Nat.add_lt_add_left hless _

theorem left_of_not_polling (hpolling : s.worker ≠ .polling) : s.left = threadLeft s.worker := by
  simp [State.left, hpolling]

/-- Epoll reports the message that `StopLoop` has sent. -/
theorem deliver_enabled (hpolling : s.worker = .polling) (hwoken : s.woken = false)
    (hstage : s.handlers.stage = .waiting) (hwatched : s.handlers.watched .control = true)
    (hmessage : 0 < s.control) :
    ∃ t, step s (.deliver [.handler .control readable]) = some t ∧
      t.application = s.application ∧ t.left < s.left := by
  have hready : [Entry.handler Descriptor.control readable].all (ready s) = true := by
    simp [ready, hmessage]
  have hdeliver : EventLoop.step s.handlers (.deliver [.handler .control readable]) =
      some (s.handlers.goto (.batch [.handler .control readable])) := by
    simp [EventLoop.step, hstage, deliverable, hwatched]
  have hnodup : (pending [Entry.handler Descriptor.control readable]).Nodup := by decide
  have hstep : step s (.deliver [.handler .control readable]) =
      some { s.use [.eventLoop] with
        handlers := s.handlers.goto (.batch [.handler .control readable]), woken := true } := by
    rw [step, deliver, if_pos ⟨hpolling, hwoken, hready, hnodup⟩, hdeliver]
    rfl
  refine ⟨_, hstep, rfl, left_lt hpolling rfl rfl ?_⟩
  simp [hwoken, EventLoop.State.goto, Stage.left]

/-- `CtrlEventHandler` reads it and returns. -/
theorem handle_enabled (hpolling : s.worker = .polling) (hwoken : s.woken = true)
    (hidle : s.handlers.removal none = .idle) {rest : List (Entry Descriptor)}
    (hstage : s.handlers.stage = .calling .control rest) (hmessage : 0 < s.control) :
    ∃ t, step s (.main true) = some t ∧ t.application = s.application ∧ t.left < s.left := by
  have hreturns : EventLoop.step s.handlers (.handlerReturns .renew) =
      some (s.handlers.goto (.returned .control rest)) := by
    simp [EventLoop.step, hidle, hstage]
  have hstep : step s (.main true) =
      some { s with
        handlers := s.handlers.goto (.returned .control rest)
        main := .entered
        control := s.control - 1 } := by
    simp only [step, handle, hstage, ctrlEventHandler, if_neg (Nat.ne_of_gt hmessage),
      handlerReturns, hreturns]
    rfl
  refine ⟨_, hstep, rfl, left_lt hpolling rfl hwoken ?_⟩
  simp [hwoken, hstage, EventLoop.State.goto, Stage.left]

theorem loop_enabled (hpolling : s.worker = .polling) (hwoken : s.woken = true)
    (hidle : s.handlers.removal none = .idle) (hwaiting : s.handlers.stage ≠ .waiting)
    (hcalling : ∀ d rest, s.handlers.stage ≠ .calling d rest) :
    ∃ t, step s .loop = some t ∧ t.application = s.application ∧ t.left < s.left := by
  rcases loopStep_enabled hwaiting hcalling with ⟨handlers, hloop⟩
  have hhandlers : EventLoop.step s.handlers .loop = some handlers := by
    simp [EventLoop.step, hidle, hloop]
  have hstep : step s .loop = some { s with handlers := handlers } := by
    rw [step, loop, hhandlers]
    rfl
  refine ⟨_, hstep, rfl, left_lt hpolling rfl hwoken ?_⟩
  rw [if_pos hwoken]
  exact (loop_stage hloop).1

theorem thread_enabled {loop : RunStop.State Unit}
    (hloop : RunStop.step true s.loop (.thread 0 0) = some loop)
    (hasleep : loop.thread 0 ≠ .polling) (hless : threadLeft (loop.thread 0) < threadLeft s.worker)
    (hstage : s.handlers.stage = .waiting) :
    ∃ t, step s (.thread 0) = some t ∧ t.application = s.application ∧ t.left < s.left := by
  have hleft : ∀ t : State, t.loop = loop → t.left < s.left := by
    intro t ht
    have hworker : t.worker = loop.thread 0 := by rw [State.worker, ht]
    rw [left_of_not_polling (by rw [hworker]; exact hasleep), hworker]
    exact Nat.lt_of_lt_of_le hless (Nat.le_add_right _ _)
  have hfinish : (s.use [.eventLoop]).finish.application = s.application := by
    unfold State.finish
    split
    · rfl
    · rfl
  cases hpc : s.worker with
  | polling =>
      simp only [step, thread, hpc, hstage, hloop, if_true]
      exact ⟨_, rfl, rfl, hleft _ rfl⟩
  | cleanup r =>
      simp only [step, thread, hpc, hloop]
      exact ⟨_, rfl, hfinish, hleft _ rfl⟩
  | _ =>
      simp only [step, thread, hpc, hloop]
      exact ⟨_, rfl, rfl, hleft _ rfl⟩

/-- The step that the worker makes next, if nothing interrupts it. -/
theorem worker_enabled (hs : Inv s) (he : Ending s) (hreturned : s.application = .returned)
    (hexecuting : s.worker.executing = true) :
    ∃ a, Orderly s a ∧ Undisturbed s a ∧
      ∃ t, step s a = some t ∧ t.application = s.application ∧ t.left < s.left := by
  rcases only_control hs he hreturned with ⟨hidle, hcontrol⟩
  have hleaving := hs.loop.after (by rw [hreturned]; rfl)
  rcases leaving_enabled hs.loop.epollWaitSize hs.loop.loopCount hleaving hexecuting with
    ⟨loop, hloop, hless⟩
  have hasleep := (thread_leaving hs.loop.epollWaitSize hs.loop.loopCount hleaving (fun _ => rfl)
    hloop).2.1
  by_cases hstage : s.handlers.stage = .waiting
  · -- Outside of a batch: the worker sleeps, or `ThreadMain` goes on.
    by_cases hwait : s.worker = .polling ∧ s.woken = false
    · exact ⟨.deliver _, trivial, rfl, deliver_enabled hwait.1 hwait.2 hstage he.lasting.watched
        (hs.loop.awake (.inr hreturned) hwait.1 hwait.2)⟩
    · have hundisturbed : Undisturbed s (.thread 0) := fun hpolling => by
        simpa [hpolling] using hwait
      have horderly : Orderly s (.thread 0) :=
        ⟨fun _ => rfl, fun _ _ => by rw [hreturned]; nofun⟩
      exact ⟨.thread 0, horderly, hundisturbed, thread_enabled hloop hasleep hless hstage⟩
  · -- In a batch: `CtrlEventHandler` returns, or the loop goes on.
    rcases hs.inside hstage with ⟨hpolling, hwoken⟩
    by_cases hcalling : ∃ d rest, s.handlers.stage = .calling d rest
    · rcases hcalling with ⟨d, rest, hcalling⟩
      cases hcontrol d (by rw [hcalling]; exact List.mem_cons_self)
      exact ⟨.main true, trivial, trivial, handle_enabled hpolling hwoken hidle hcalling
        (he.message (by rw [hcalling]; exact List.mem_cons_self))⟩
    · exact ⟨.loop, trivial, trivial, loop_enabled hpolling hwoken hidle hstage
        fun d rest h => hcalling ⟨d, rest, h⟩⟩

/-- By induction on what the worker has to do. -/
theorem finishes (hs : Inv s) (he : Ending s) (hreturned : s.application = .returned) :
    ∃ as t, Run.exec step s as = some t ∧ Run.Along step Undisturbed s as ∧
      t.worker.executing = false := by
  induction hleft : s.left using Nat.strongRecOn generalizing s with
  | _ n ih =>
      cases hexecuting : s.worker.executing with
      | false => exact ⟨[], s, rfl, trivial, hexecuting⟩
      | true =>
          rcases worker_enabled hs he hreturned hexecuting with
            ⟨a, horderly, hundisturbed, t, ht, happlication, hless⟩
          rcases ih t.left (hleft ▸ hless) (hs.step_inv horderly ht) (he.step hs ht)
            (happlication.trans hreturned) rfl with ⟨as, u, hu, has, hended⟩
          exact ⟨a :: as, u, Run.exec_cons_some.2 ⟨t, ht, hu⟩,
            Run.along_of_step hundisturbed ht has, hended⟩

theorem tornDown (hs : Inv s) (he : Ending s) : TornDown s := by
  refine ⟨hs.handlers.violations, hs.violations, ?_, fun _ => hs.loop.dead,
    fun h => hs.loop.awake (.inr h), finishes hs he⟩
  cases hexecuting : s.worker.executing with
  | true => rw [(hs.loop.alive hexecuting).2]; exact Nat.zero_le 1
  | false => exact Nat.le_of_eq (hs.loop.dead hexecuting)

end Worker

/-- Where the worker has let go of the handler object of the commands before the first object is
deleted, and does not come to its stop handler while the application wakes it up, it uses nothing
that was deleted or closed, and it comes to its end, where the event loop is deleted once. -/
theorem torn_down {as : List Act} {s : State} (horderly : Run.Along step Orderly State.start as)
    (hexec : Run.exec step State.start as = some s) : TornDown s := by
  -- `Ending` needs `Inv` for the deletions of `Destroy`, so both go along the run together.
  have hinv : Inv s ∧ Ending s :=
    Run.exec_invariant (I := fun s => Inv s ∧ Ending s)
      (fun _ _ _ hs hok h => ⟨hs.1.step_inv hok h, hs.2.step hs.1 h⟩) ⟨inv_start, ending_start⟩
      horderly hexec
  exact tornDown hinv.1 hinv.2

/-- `Destroy` runs to its end while the worker is in the handler of an `Invoke`, which then uses all
that it was going to use. -/
theorem destroyed_in_invoke :
    ∃ s, Run.exec step State.start
        [.thread 0, .thread 0, .thread 0, .thread 0, .call .invoke,
          .deliver [.handler .command readable], .loop, .loop, .loop, .main true, .main true,
          .destroy, .proceed true, .proceed true, .proceed true, .proceed true, .proceed true,
          .proceed true, .proceed true, .proceed true, .proceed true, .proceed true, .proceed true,
          .proceed true, .proceed true, .proceed true,
          .main true, .main true, .main true, .main true, .main true, .loop, .loop, .loop, .loop,
          .remove true, .remove true] = some s ∧
      s.application = .returned ∧ s.violations =
        [.async, .async, .async, .outputProducer, .async, .eventObject, .contextCommand] ∧
      ¬ TornDown s := by
  refine ⟨_, rfl, rfl, rfl, fun h => ?_⟩
  cases h.objects

/-- `Destroy` finds the worker in the handler of an `Invoke` and waits, with its deletions, for the end
of the removal; another `Invoke` stays in the socket. -/
def removedInInvoke : List Act :=
  [.thread 0, .thread 0, .thread 0, .thread 0, .call .invoke, .call .invoke,
    .deliver [.handler .command readable], .loop, .loop, .loop, .main true, .main true,
    .destroy, .proceed true, .proceed true, .proceed true, .proceed true, .proceed true,
    .proceed true, .proceed true,
    .main true, .main true, .main true, .main true, .main true, .loop, .loop, .loop, .loop,
    .remove true, .remove true, .remove true, .remove true,
    .proceed true, .proceed true, .proceed true, .proceed true, .proceed true, .proceed true,
    .proceed true, .loop, .loop, .loop, .thread 0, .thread 0, .thread 0, .thread 0]

set_option maxRecDepth 2000 in
theorem removedInInvoke_torn_down : ∃ s, Run.exec step State.start removedInInvoke = some s ∧
    s.application = .returned ∧ s.worker = .ended 0 ∧ s.commands = [.invoke] ∧ TornDown s := by
  have horderly : Run.Along step Orderly State.start removedInInvoke := by decide
  exact ⟨_, rfl, rfl, rfl, rfl, torn_down horderly rfl⟩

end TearDown
end Runtime
end Beyond
