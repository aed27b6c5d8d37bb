import Beyond.Base.Platform
import Beyond.EventLoop.Construction

/-!
# Construction of the asynchronous runtime

`Inference::Runtime::impl::Async::Create` wraps four descriptors, one after the other, constructs an
event object and an event loop, and starts the loop.  Its ways out close by hand what is not wrapped yet
and leave the rest to `~Async`, which knows of everything but the loop and its handler.
`Inference::Runtime::impl::Create` builds this emulator for a module without an asynchronous mode.
-/

namespace Beyond
namespace Runtime
namespace AsyncCreate

open Construction

/-- The calls of `Async::Create` that may fail. -/
inductive Step
  | new
  | socketpair
  | spfd0
  | spfd1
  | pipe
  | pfd0
  | pfd1
  | command
  | contextCommand
  | outputProducer
  | outputConsumer
  | eventObject (s : EventObject.Step)
  | eventLoop (s : Construction.EventLoop.Step)
  | handler (s : Construction.EventLoop.HandlerStep)
  | run (s : Construction.EventLoop.RunStep)
  deriving DecidableEq, Repr

/-- The parts of `Async::Create`. -/
inductive Part
  | openAll
  | wrapAll
  | connect
  | start
  deriving DecidableEq, Repr

def Step.part : Step → Part
  | .new | .socketpair | .spfd0 | .spfd1 | .pipe | .pfd0 | .pfd1 => .openAll
  | .command | .contextCommand | .outputProducer | .outputConsumer => .wrapAll
  | .eventObject _ | .eventLoop _ => .connect
  | .handler _ | .run _ => .start

def Failed (fails : Step → Bool) (part : Part) : Prop := ∃ s : Step, s.part = part ∧ fails s = true

/-- The members of `Async`. -/
structure Async where
  object : Nat
  command : Option CommandObject := none
  contextCommand : Option CommandObject := none
  outputProducer : Option CommandObject := none
  outputConsumer : Option CommandObject := none
  eventObject : Option EventObject := none
  eventLoop : Option Construction.EventLoop.Impl := none
  handlerObject : Option Nat := none

/-- `~Async` closes the descriptor of a command object and deletes the object. -/
def release (o : Option CommandObject) (p : Process) : Process :=
  match o with
  | some o => (p.close o.handle).delete o.object
  | none => p

/-- `delete async`. -/
def Async.delete (async : Async) (p : Process) : Process :=
  let p := release async.contextCommand p
  let p := release async.command p
  let p := release async.outputProducer p
  let p := release async.outputConsumer p
  let p :=
    match async.eventObject with
    | some eventObject => eventObject.destroy p
    | none => p
  p.delete async.object

/-! ## `Async::Create` -/

variable (k : Kernel) (fails : Step → Bool)

/-- The new object with the descriptors that are to be wrapped. -/
structure Opened where
  object : Nat
  spfd : Nat × Nat
  pfd : Nat × Nat

def openAll (p : Process) : Option Opened × Process :=
  if fails .new then (none, p)
  else
    let async : Async := { object := (p.new []).1 }
    let p := (p.new []).2
    if fails .socketpair then (none, async.delete p)
    else
      let spfd := (p.openPair k false).1
      let spfd0 := (p.openPair k false).2.fcntl k (fails .spfd0) spfd.1 F_SETFD FD_CLOEXEC
      if spfd0.1 = false then (none, async.delete ((spfd0.2.close spfd.1).close spfd.2))
      else
        let spfd1 := spfd0.2.fcntl k (fails .spfd1) spfd.2 F_SETFD FD_CLOEXEC
        if spfd1.1 = false then (none, async.delete ((spfd1.2.close spfd.1).close spfd.2))
        else if fails .pipe then (none, async.delete ((spfd1.2.close spfd.1).close spfd.2))
        else
          let pfd := (spfd1.2.openPair k false).1
          let pfd0 := (spfd1.2.openPair k false).2.fcntl k (fails .pfd0) pfd.1 F_SETFD FD_CLOEXEC
          if pfd0.1 = false then
            (none, async.delete
              ((((pfd0.2.close pfd.1).close pfd.2).close spfd.1).close spfd.2))
          else
            let pfd1 := pfd0.2.fcntl k (fails .pfd1) pfd.2 F_SETFD FD_CLOEXEC
            if pfd1.1 = false then
              (none, async.delete
                ((((pfd1.2.close pfd.1).close pfd.2).close spfd.1).close spfd.2))
            else (some ⟨async.object, spfd, pfd⟩, pfd1.2)

/-- The object with what `~Async` closes. -/
structure Wrapped where
  object : Nat
  command : CommandObject
  contextCommand : CommandObject
  outputProducer : CommandObject
  outputConsumer : CommandObject

def wrapAll (o : Opened) (p : Process) : Option Wrapped × Process :=
  let (spfd, pfd) := (o.spfd, o.pfd)
  let async : Async := { object := o.object }
  if fails .command then
    (none, ((((async.delete p).close pfd.1).close pfd.2).close spfd.1).close spfd.2)
  else
    let command := (CommandObject.new o.object spfd.1 p).1
    let p := (CommandObject.new o.object spfd.1 p).2
    let async := { async with command := some command }
    if fails .contextCommand then
      (none, (((async.delete p).close pfd.1).close pfd.2).close spfd.2)
    else
      let contextCommand := (CommandObject.new o.object spfd.2 p).1
      let p := (CommandObject.new o.object spfd.2 p).2
      let async := { async with contextCommand := some contextCommand }
      if fails .outputProducer then (none, ((async.delete p).close pfd.1).close pfd.2)
      else
        let outputProducer := (CommandObject.new o.object pfd.2 p).1
        let p := (CommandObject.new o.object pfd.2 p).2
        let async := { async with outputProducer := some outputProducer }
        if fails .outputConsumer then (none, (async.delete p).close pfd.1)
        else
          let outputConsumer := (CommandObject.new o.object pfd.1 p).1
          let p := (CommandObject.new o.object pfd.1 p).2
          (some ⟨o.object, command, contextCommand, outputProducer, outputConsumer⟩, p)

/-- The object with all its members but the handler. -/
structure Built extends Wrapped where
  eventObject : EventObject
  loop : Construction.EventLoop.Impl

def Wrapped.async (w : Wrapped) : Async :=
  { object := w.object
    command := some w.command
    contextCommand := some w.contextCommand
    outputProducer := some w.outputProducer
    outputConsumer := some w.outputConsumer }

def Built.async (b : Built) : Async :=
  { b.toWrapped.async with eventObject := some b.eventObject, eventLoop := some b.loop }

def connect (w : Wrapped) (p : Process) : Option Built × Process :=
  let created := EventObject.create k (fun s => fails (.eventObject s)) p
  match created.1 with
  | none => (none, w.async.delete created.2)
  | some eventObject =>
      let p := created.2.assign w.object eventObject.object
      let async := { w.async with eventObject := some eventObject }
      let created := Construction.EventLoop.create k (fun s => fails (.eventLoop s)) p
      match created.1 with
      | none => (none, async.delete created.2)
      | some loop => (some ⟨w, eventObject, loop⟩, created.2.assign w.object loop.pimpl)

def start (b : Built) (p : Process) : Option Async × Process :=
  let added :=
    Construction.EventLoop.addHandler (fun s => fails (.handler s)) b.loop.pimpl
      b.contextCommand.object b.object p
  match added.1 with
  | none => (none, b.async.delete added.2)
  | some handlerObject =>
      let p := added.2.assign b.object handlerObject
      let async := { b.async with handlerObject := some handlerObject }
      let ran := Construction.EventLoop.run (fun s => fails (.run s)) b.loop p
      if ran.1 = false then (none, async.delete ran.2)
      else (some async, ran.2)

/-- `Async::Create` up to where the event loop exists. -/
def build (p : Process) : Option Built × Process :=
  Process.andThen (Process.andThen (openAll k fails p) (wrapAll fails)) (connect k fails)

def create (p : Process) : Option Async × Process :=
  Process.andThen (build k fails p) (start fails)

/-! ## The parts -/

section Parts

variable {k : Kernel} {fails : Step → Bool} {p p' : Process}

/-- The last opening comes first. -/
def Opened.owns (o : Opened) : List Nat × List Nat :=
  ([o.pfd.2, o.pfd.1, o.spfd.2, o.spfd.1], [o.object])

/-- In the order in which `~Async` releases them. -/
def Wrapped.owns (w : Wrapped) : List Nat × List Nat :=
  ([w.contextCommand.handle, w.command.handle, w.outputProducer.handle, w.outputConsumer.handle],
    [w.contextCommand.object, w.command.object, w.outputProducer.object, w.outputConsumer.object,
      w.object])

/-- What `~Async` releases. -/
def Built.members (b : Built) : List Nat × List Nat :=
  ([b.contextCommand.handle, b.command.handle, b.outputProducer.handle, b.outputConsumer.handle,
      b.eventObject.handle, b.eventObject.publishHandle],
    [b.contextCommand.object, b.command.object, b.outputProducer.object, b.outputConsumer.object,
      b.eventObject.object, b.object])

def Built.owns (b : Built) : List Nat × List Nat :=
  (b.members.1 ++ b.loop.fds, b.members.2 ++ b.loop.objects)

theorem openAll_constructs :
    p.Constructs (Failed fails .openAll) [] [] Opened.owns (openAll k fails p) := by
  unfold openAll
  by_cases hnew : fails .new = true
  · rw [if_pos hnew]
    exact ⟨⟨_, rfl, hnew⟩, .refl p⟩
  obtain ⟨object, p₁, hnewed, hobject⟩ := (Process.Made.refl p).new []
  rw [if_neg hnew, hnewed]
  dsimp only
  by_cases hsocketpair : fails .socketpair = true
  · rw [if_pos hsocketpair]
    exact ⟨⟨_, rfl, hsocketpair⟩, hobject.delete⟩
  obtain ⟨spfd0, spfd1, p₂, hopen, hspfd⟩ := hobject.openPair (k := k) false
  rw [if_neg hsocketpair, hopen]
  -- until the pipe exists, a way out closes the sockets and deletes the object
  have hundo : ∀ q : Process, p.Made q [spfd1, spfd0] [object] →
      p.Made (Async.delete { object } ((q.close spfd0).close spfd1)) [] [] := fun q hq =>
    hq.undo [spfd0, spfd1] [object] (.swap spfd0 spfd1 []) (.refl _) rfl rfl rfl rfl
  obtain ⟨p₃, hset, hspfd⟩ := hspfd.setfd (k := k) (.tail spfd1 (.head [])) (fails .spfd0) FD_CLOEXEC
  dsimp only
  rw [hset]
  by_cases hspfd0 : fails .spfd0 = true
  · rw [if_pos (by simp [hspfd0])]
    exact ⟨⟨_, rfl, hspfd0⟩, hundo p₃ hspfd⟩
  obtain ⟨p₄, hset, hspfd⟩ := hspfd.setfd (k := k) (.head _) (fails .spfd1) FD_CLOEXEC
  rw [if_neg (by simp [hspfd0])]
  dsimp only
  rw [hset]
  by_cases hspfd1 : fails .spfd1 = true
  · rw [if_pos (by simp [hspfd1])]
    exact ⟨⟨_, rfl, hspfd1⟩, hundo p₄ hspfd⟩
  rw [if_neg (by simp [hspfd1])]
  dsimp only
  by_cases hpipe : fails .pipe = true
  · rw [if_pos hpipe]
    exact ⟨⟨_, rfl, hpipe⟩, hundo p₄ hspfd⟩
  obtain ⟨pfd0, pfd1, p₅, hopen, hpfd⟩ := hspfd.openPair (k := k) false
  rw [if_neg hpipe, hopen]
  -- from here on the pipe is closed too
  have hundo : ∀ q : Process, p.Made q [pfd1, pfd0, spfd1, spfd0] [object] →
      p.Made (Async.delete { object }
        ((((q.close pfd0).close pfd1).close spfd0).close spfd1)) [] [] := fun q hq =>
    hq.undo [pfd0, pfd1, spfd0, spfd1] [object]
      ((List.Perm.swap pfd0 pfd1 _).trans (((List.Perm.swap spfd0 spfd1 _).cons _).cons _))
      (.refl _) rfl rfl rfl rfl
  obtain ⟨p₆, hset, hpfd⟩ := hpfd.setfd (k := k) (.tail pfd1 (.head _)) (fails .pfd0) FD_CLOEXEC
  dsimp only
  rw [hset]
  by_cases hpfd0 : fails .pfd0 = true
  · rw [if_pos (by simp [hpfd0])]
    exact ⟨⟨_, rfl, hpfd0⟩, hundo p₆ hpfd⟩
  obtain ⟨p₇, hset, hpfd⟩ := hpfd.setfd (k := k) (.head _) (fails .pfd1) FD_CLOEXEC
  rw [if_neg (by simp [hpfd0])]
  dsimp only
  rw [hset]
  by_cases hpfd1 : fails .pfd1 = true
  · rw [if_pos (by simp [hpfd1])]
    exact ⟨⟨_, rfl, hpfd1⟩, hundo p₇ hpfd⟩
  rw [if_neg (by simp [hpfd1])]
  refine ⟨?_, hpfd⟩
  rintro ⟨s, hpart, hs⟩
  cases s <;> contradiction

theorem wrapAll_constructs {o : Opened} (h : p.Made p' o.owns.1 o.owns.2) :
    p.Constructs (Failed fails .wrapAll) [] [] Wrapped.owns (wrapAll fails o p') := by
  obtain ⟨object, ⟨spfd0, spfd1⟩, ⟨pfd0, pfd1⟩⟩ := o
  unfold wrapAll
  dsimp only [Opened.owns] at h ⊢
  -- every way out closes these four, though in another order
  have hcloses : ∀ ns : List Nat, (∀ n, [pfd1, pfd0, spfd1, spfd0].count n = ns.count n) →
      [pfd1, pfd0, spfd1, spfd0].Perm (ns ++ []) := fun ns hcount => by
    rw [List.append_nil]
    exact List.perm_iff_count.2 hcount
  by_cases hcommand : fails .command = true
  · rw [if_pos hcommand]
    refine ⟨⟨_, rfl, hcommand⟩,
      h.undo [pfd0, pfd1, spfd0, spfd1] [object] (hcloses _ fun n => ?_) (.refl _) rfl rfl rfl rfl⟩
    simp only [List.count_cons]
    omega
  obtain ⟨command, p₁, hnewed, hmade⟩ := h.command object (by simp) spfd0
  rw [if_neg hcommand, hnewed]
  dsimp only
  by_cases hcontext : fails .contextCommand = true
  · rw [if_pos hcontext]
    refine ⟨⟨_, rfl, hcontext⟩, hmade.undo [spfd0, pfd0, pfd1, spfd1] [command, object]
      (hcloses _ fun n => ?_) (.refl _) rfl rfl rfl rfl⟩
    simp only [List.count_cons]
    omega
  obtain ⟨contextCommand, p₂, hnewed, hmade⟩ := hmade.command object (by simp) spfd1
  rw [if_neg hcontext, hnewed]
  dsimp only
  by_cases hproducer : fails .outputProducer = true
  · rw [if_pos hproducer]
    refine ⟨⟨_, rfl, hproducer⟩, hmade.undo [spfd1, spfd0, pfd0, pfd1]
      [contextCommand, command, object] (hcloses _ fun n => ?_) (.refl _) rfl rfl rfl rfl⟩
    simp only [List.count_cons]
    omega
  obtain ⟨outputProducer, p₃, hnewed, hmade⟩ := hmade.command object (by simp) pfd1
  rw [if_neg hproducer, hnewed]
  dsimp only
  by_cases hconsumer : fails .outputConsumer = true
  · rw [if_pos hconsumer]
    refine ⟨⟨_, rfl, hconsumer⟩, hmade.undo [spfd1, spfd0, pfd1, pfd0]
      [contextCommand, command, outputProducer, object] (hcloses _ fun n => ?_)
      (List.perm_iff_count.2 fun n => ?_) rfl rfl rfl rfl⟩ <;>
    · simp only [List.append_nil, List.count_cons]
      omega
  obtain ⟨outputConsumer, p₄, hnewed, hmade⟩ := hmade.command object (by simp) pfd0
  rw [if_neg hconsumer, hnewed]
  refine ⟨?_, hmade.perm ?_ ?_⟩
  · rintro ⟨s, hpart, hs⟩
    cases s <;> contradiction
  · refine hcloses [spfd1, spfd0, pfd1, pfd0] fun n => ?_
    simp only [List.count_cons]
    omega
  · refine List.perm_iff_count.2 fun n => ?_
    simp only [Wrapped.owns, List.append_nil, List.count_cons]
    omega

theorem connect_constructs {w : Wrapped} (h : p.Made p' w.owns.1 w.owns.2) :
    p.Constructs (Failed fails .connect) [] [] Built.owns (connect k fails w p') := by
  unfold connect
  have hevent := EventObject.create_constructs k (fun s => fails (.eventObject s)) h
  generalize EventObject.create k (fun s => fails (.eventObject s)) p' = created at hevent ⊢
  obtain ⟨eventObject, p₁⟩ := created
  cases eventObject with
  | none =>
      obtain ⟨⟨s, hs⟩, hmade⟩ := hevent
      exact ⟨⟨_, rfl, hs⟩, hmade.undo w.owns.1 w.owns.2 (.of_eq (List.append_nil _).symm)
        (.of_eq (List.append_nil _).symm) rfl rfl rfl rfl⟩
  | some eventObject =>
      obtain ⟨hnoEvent, hmade⟩ := hevent
      have hassigned := hmade.assign w.object eventObject.object (by simp [Wrapped.owns])
      -- the members, in the order in which `~Async` releases them
      have hmembers : p.Made (p₁.assign w.object eventObject.object)
          (w.owns.1 ++ [eventObject.handle, eventObject.publishHandle])
          [w.contextCommand.object, w.command.object, w.outputProducer.object,
            w.outputConsumer.object, eventObject.object, w.object] := by
        refine hassigned.perm List.perm_append_comm (List.perm_iff_count.2 fun n => ?_)
        simp only [EventObject.owns, Wrapped.owns, List.cons_append, List.nil_append, List.count_cons]
        omega
      have hloop := Construction.EventLoop.create_constructs k (fun s => fails (.eventLoop s)) hmembers
      dsimp only
      generalize Construction.EventLoop.create k (fun s => fails (.eventLoop s))
        (p₁.assign w.object eventObject.object) = created at hloop ⊢
      obtain ⟨loop, p₂⟩ := created
      cases loop with
      | none =>
          obtain ⟨⟨s, hs⟩, hmade⟩ := hloop
          exact ⟨⟨_, rfl, hs⟩, hmade.undo
            (w.owns.1 ++ [eventObject.handle, eventObject.publishHandle])
            [w.contextCommand.object, w.command.object, w.outputProducer.object,
              w.outputConsumer.object, eventObject.object, w.object]
            (.of_eq (List.append_nil _).symm) (.of_eq (List.append_nil _).symm) rfl rfl rfl rfl⟩
      | some loop =>
          obtain ⟨hnoLoop, hmade⟩ := hloop
          have hassigned := hmade.assign w.object loop.pimpl (by simp)
          refine ⟨?_, hassigned.perm ?_ ?_⟩
          · rintro ⟨s, hpart, hs⟩
            cases s with
            | eventObject s => exact hnoEvent ⟨s, hs⟩
            | eventLoop s => exact hnoLoop ⟨s, hs⟩
            | _ => contradiction
          · rw [List.append_nil]
            exact List.perm_append_comm
          · rw [List.append_nil]
            exact List.perm_append_comm

end Parts

/-! ## All or nothing -/

/-- Of a call that returned null nothing is left: each descriptor that it opened was closed once, each
object that it constructed was released once, nothing alive points to a released object, no thread
was left running, and what was there before is as it was. -/
structure LeavesNothing (p p' : Process) : Prop where
  descriptors : p.descriptors.Grown p'.descriptors []
  objects : p.objects.Grown p'.objects []
  sound : p.Sound → p'.Sound
  threads : p'.threads = p.threads

theorem LeavesNothing.of_made {p p' : Process} (h : p.Made p' [] []) : LeavesNothing p p' :=
  ⟨h.descriptors, h.objects, h.sound, h.threads⟩

section Create

variable {k : Kernel} {fails : Step → Bool} {p p' : Process} {b : Built}

def Early (fails : Step → Bool) : Prop :=
  (Failed fails .openAll ∨ Failed fails .wrapAll) ∨ Failed fails .connect

theorem build_constructs (k : Kernel) (fails : Step → Bool) (p : Process) :
    p.Constructs (Early fails) [] [] Built.owns (build k fails p) := by
  have hwrapped : p.Constructs (Failed fails .openAll ∨ Failed fails .wrapAll) [] [] Wrapped.owns
      (Process.andThen (openAll k fails p) (wrapAll fails)) := by
    refine openAll_constructs.andThen fun o p' ho => ?_
    rw [List.append_nil, List.append_nil] at ho
    exact wrapAll_constructs ho
  refine hwrapped.andThen fun w p' hw => ?_
  rw [List.append_nil, List.append_nil] at hw
  exact connect_constructs hw

/-- `~Async` forgets the event loop. -/
theorem start_leaks (h : p.Made p' b.owns.1 b.owns.2) (hfailed : Failed fails .start) :
    (start fails b p').1 = none ∧
      ∃ objects, b.loop.pimpl ∈ objects ∧ p.objects.Grown (start fails b p').2.objects objects := by
  have hpimpl : b.loop.pimpl ∈ b.loop.objects := by simp [Construction.EventLoop.Impl.objects]
  have hdelete : ∀ (handlerObject : Option Nat) (q : Process) (os : List Nat),
      p.objects.Grown q.objects (b.members.2 ++ os) →
      p.objects.Grown (Async.delete { b.async with handlerObject } q).objects os :=
    fun handlerObject q os hq => hq.freeAll
  unfold start
  have hadded := Construction.EventLoop.addHandler_constructs (fun s => fails (.handler s)) b.loop.pimpl
    b.contextCommand.object b.object h (by simp [Built.owns, hpimpl])
  generalize Construction.EventLoop.addHandler (fun s => fails (.handler s)) b.loop.pimpl
    b.contextCommand.object b.object p' = added at hadded ⊢
  obtain ⟨handlerObject, p₁⟩ := added
  cases handlerObject with
  | none => exact ⟨rfl, b.loop.objects, hpimpl, hdelete none p₁ _ hadded.2.objects⟩
  | some handlerObject =>
      -- the handler was added, so it is `Run` that fails
      obtain ⟨hnone, hmade⟩ := hadded
      have hran : ∃ s, fails (.run s) = true := by
        obtain ⟨s, hpart, hs⟩ := hfailed
        cases s with
        | handler s => exact absurd ⟨s, hs⟩ hnone
        | run s => exact ⟨s, hs⟩
        | _ => contradiction
      dsimp only
      rw [if_pos (Construction.EventLoop.run_fails_iff.2 hran)]
      refine ⟨rfl, handlerObject :: b.loop.objects, List.mem_cons_of_mem _ hpimpl, ?_⟩
      have hperm : (handlerObject :: (b.members.2 ++ b.loop.objects)).Perm
          (b.members.2 ++ handlerObject :: b.loop.objects) := List.perm_middle.symm
      refine hdelete (some handlerObject) _ _ ?_
      rw [Construction.EventLoop.run_objects]
      exact hmade.objects.perm hperm

theorem start_succeeds (h : p.Made p' b.owns.1 b.owns.2) (hfailed : ¬ Failed fails .start) :
    (start fails b p').1 ≠ none := by
  unfold start
  have hpimpl : b.loop.pimpl ∈ b.owns.2 := by simp [Built.owns, Construction.EventLoop.Impl.objects]
  have hadded := Construction.EventLoop.addHandler_constructs (fun s => fails (.handler s)) b.loop.pimpl
    b.contextCommand.object b.object h hpimpl
  generalize Construction.EventLoop.addHandler (fun s => fails (.handler s)) b.loop.pimpl
    b.contextCommand.object b.object p' = added at hadded ⊢
  obtain ⟨handlerObject, p₁⟩ := added
  cases handlerObject with
  | none =>
      obtain ⟨⟨s, hs⟩, -⟩ := hadded
      exact absurd ⟨_, rfl, hs⟩ hfailed
  | some handlerObject =>
      have hran : ¬ ∃ s, fails (.run s) = true := fun ⟨s, hs⟩ => hfailed ⟨_, rfl, hs⟩
      dsimp only
      rw [if_neg fun hfalse => hran (Construction.EventLoop.run_fails_iff.1 hfalse)]
      exact Option.some_ne_none _

/-- Once the event loop exists, a failure loses it. -/
theorem create_leavesNothing_iff :
    ((create k fails p).1 = none → LeavesNothing p (create k fails p).2) ↔
      ¬ (¬ Early fails ∧ Failed fails .start) := by
  have hbuilt := build_constructs k fails p
  unfold create Process.andThen
  generalize build k fails p = built at hbuilt ⊢
  obtain ⟨b, p'⟩ := built
  cases b with
  | none =>
      obtain ⟨hearly, hmade⟩ := hbuilt
      exact iff_of_true (fun _ => .of_made hmade) fun hlate => hlate.1 hearly
  | some b =>
      obtain ⟨hnone, hmade⟩ := hbuilt
      rw [List.append_nil, List.append_nil] at hmade
      dsimp only
      by_cases hfailed : Failed fails .start
      · obtain ⟨hnull, objects, hpimpl, hleft⟩ := start_leaks hmade hfailed
        exact iff_of_false (fun hnothing => hleft.not_of_mem hpimpl (hnothing hnull).objects)
          fun hlate => hlate ⟨hnone, hfailed⟩
      · exact iff_of_true (fun hnull => absurd hnull (start_succeeds hmade hfailed))
          fun hlate => hfailed hlate.2

end Create

/-! ## `Inference::Runtime::impl::Create` -/

/-- `beyond_argument`. -/
structure Argument where
  argc : Int
  argv : Option (List (Option String))

/-- The argument with its `argv[0]`, if none of the pointers is null. -/
def Argument.name (arg : Option Argument) : Option (Argument × String) :=
  match arg with
  | some ⟨argc, some (some name :: rest)⟩ =>
      if argc < 1 then none else some (⟨argc, some (some name :: rest)⟩, name)
  | _ => none

/-- What a runtime module returns from `GetModuleType` and `GetHandle`. -/
structure Module where
  moduleType : Option String
  handle : Int

/-- A library that `dlopen` finds, with the entry point that `dlsym` finds in it. -/
structure Library where
  main : Option (Argument → Option Module)

inductive ImplStep
  | new
  | malloc
  | snprintf
  deriving DecidableEq, Repr

/-- What a call of the runtime is passed on to. -/
inductive Receiver
  | runtime (object : Nat)
  | emulator (async : Async)

/-- The members of `Inference::Runtime::impl`. -/
structure Impl where
  object : Nat
  moduleObject : Nat
  asyncEmulator : Option Async
  async : Option Receiver

/-- `FilenameFormat`. -/
def filenameOf (name : String) : String := "libbeyond-" ++ name ++ ".so"

def typeRuntime : String := "runtime"

/-- `Inference::Runtime::impl::Create` up to where the module is known to be a runtime. -/
def load (library : String → Option Library) (fails : ImplStep → Bool) (arg : Option Argument)
    (p : Process) : Option (Nat × Nat × Module) × Process :=
  match Argument.name arg with
  | none => (none, p)
  | some (arg, name) =>
      if fails .new then (none, p)
      else
        let impl := (p.new []).1
        let p := (p.new []).2
        if fails .malloc then (none, p.delete impl)
        else
          let filename := (p.new []).1
          let p := (p.new []).2
          if fails .snprintf then (none, (p.delete filename).delete impl)
          else
            let p := p.delete filename
            match library (filenameOf name) with
            | none => (none, p.delete impl)
            | some dlHandle =>
                match dlHandle.main with
                | none => (none, p.delete impl)
                | some main =>
                    match main arg with
                    | none => (none, p.delete impl)
                    | some m =>
                        let runtime := (p.new []).1
                        let p := (p.new []).2
                        match m.moduleType with
                        | none => (none, (p.delete runtime).delete impl)
                        | some moduleType =>
                            if moduleType ≠ typeRuntime then (none, (p.delete runtime).delete impl)
                            else (some (impl, runtime, m), p.assign impl runtime)

/-- The emulator may be null. -/
def attach (k : Kernel) (asyncFails : Step → Bool) (impl runtime : Nat) (m : Module) (p : Process) :
    Impl × Process :=
  if m.handle = -Errno.ENOTSUP then
    let created := create k asyncFails p
    (⟨impl, runtime, created.1, created.1.map .emulator⟩, created.2)
  else (⟨impl, runtime, none, some (.runtime runtime)⟩, p)

def createImpl (k : Kernel) (library : String → Option Library) (fails : ImplStep → Bool)
    (asyncFails : Step → Bool) (arg : Option Argument) (p : Process) : Option Impl × Process :=
  Process.andThen (load library fails arg p) fun (impl, runtime, m) p =>
    let attached := attach k asyncFails impl runtime m p
    (some attached.1, attached.2)

/-- The calls that pass something on. -/
inductive Call
  | getModuleName
  | getModuleType
  | configure
  | loadModel
  | getInputTensorInfo
  | getOutputTensorInfo
  | setInputTensorInfo
  | setOutputTensorInfo
  | allocateTensor
  | freeTensor
  | prepare
  | invoke
  | getOutput
  | stop
  | getHandle
  | addHandler
  | removeHandler
  | fetchEventData
  | destroyEventData
  deriving DecidableEq, Repr

/-- The pointer that a call dereferences. -/
def Impl.receiver (impl : Impl) : Call → Option Receiver
  | .getModuleName | .getModuleType => some (.runtime impl.moduleObject)
  | _ => impl.async

/-- The module that the argument names, if it is a runtime. -/
def loaded (library : String → Option Library) (arg : Option Argument) : Option Module := do
  let (arg, name) ← Argument.name arg
  let dlHandle ← library (filenameOf name)
  let main ← dlHandle.main
  let m ← main arg
  if m.moduleType = some typeRuntime then some m else none

section Impl

variable {k : Kernel} {library : String → Option Library} {fails : ImplStep → Bool}
  {asyncFails : Step → Bool} {arg : Option Argument} {p : Process}

theorem create_eq_none_iff : (create k asyncFails p).1 = none ↔ ∃ s, asyncFails s = true := by
  have hparts : (∃ s, asyncFails s = true) ↔ Early asyncFails ∨ Failed asyncFails .start := by
    constructor
    · rintro ⟨s, hs⟩
      cases hpart : s.part with
      | openAll => exact .inl (.inl (.inl ⟨s, hpart, hs⟩))
      | wrapAll => exact .inl (.inl (.inr ⟨s, hpart, hs⟩))
      | connect => exact .inl (.inr ⟨s, hpart, hs⟩)
      | start => exact .inr ⟨s, hpart, hs⟩
    · rintro (((⟨s, -, hs⟩ | ⟨s, -, hs⟩) | ⟨s, -, hs⟩) | ⟨s, -, hs⟩) <;> exact ⟨s, hs⟩
  rw [hparts]
  have hbuilt := build_constructs k asyncFails p
  unfold create Process.andThen
  generalize build k asyncFails p = built at hbuilt ⊢
  obtain ⟨b, p'⟩ := built
  cases b with
  | none => exact iff_of_true rfl (.inl hbuilt.1)
  | some b =>
      obtain ⟨hnone, hmade⟩ := hbuilt
      rw [List.append_nil, List.append_nil] at hmade
      by_cases hfailed : Failed asyncFails .start
      · exact iff_of_true (start_leaks hmade hfailed).1 (.inr hfailed)
      · exact iff_of_false (start_succeeds hmade hfailed) fun hor => hor.elim hnone hfailed

theorem load_eq (library : String → Option Library) (arg : Option Argument) (p : Process)
    (h : ∀ s, fails s = false) :
    (load library fails arg p).1.map (fun l => l.2.2) = loaded library arg := by
  unfold load loaded
  simp only [h]
  cases Argument.name arg with
  | none => rfl
  | some named =>
    obtain ⟨arg, name⟩ := named
    cases hlibrary : library (filenameOf name) with
    | none => simp [hlibrary]
    | some dlHandle =>
      cases hmain : dlHandle.main with
      | none => simp [hlibrary, hmain]
      | some main =>
        cases hm : main arg with
        | none => simp [hlibrary, hmain, hm]
        | some m =>
          cases htype : m.moduleType with
          | none => simp [hlibrary, hmain, hm, htype]
          | some moduleType =>
            by_cases heq : moduleType = typeRuntime <;> simp [hlibrary, hmain, hm, htype, heq]

theorem load_fails (h : ¬ ∀ s, fails s = false) : (load library fails arg p).1 = none := by
  unfold load
  cases Argument.name arg with
  | none => rfl
  | some named =>
    dsimp only
    by_cases hnew : fails .new = true
    · rw [if_pos hnew]
    rw [if_neg hnew]
    by_cases hmalloc : fails .malloc = true
    · rw [if_pos hmalloc]
    rw [if_neg hmalloc]
    by_cases hsnprintf : fails .snprintf = true
    · rw [if_pos hsnprintf]
    refine absurd (fun s => ?_) h
    cases s <;> rw [Bool.eq_false_iff] <;> assumption

theorem attach_iff {impl runtime : Nat} {m : Module} :
    (∀ c, (attach k asyncFails impl runtime m p).1.receiver c ≠ none) ↔
      ¬ (m.handle = -Errno.ENOTSUP ∧ ∃ s, asyncFails s = true) := by
  unfold attach
  by_cases hhandle : m.handle = -Errno.ENOTSUP
  · rw [if_pos hhandle, ← create_eq_none_iff (k := k) (p := p)]
    generalize create k asyncFails p = created
    obtain ⟨_ | async, p'⟩ := created
    · exact iff_of_false (fun hall => hall .configure rfl) fun hnot => hnot ⟨hhandle, rfl⟩
    · refine iff_of_true (fun c => ?_) fun hnull => nomatch hnull.2
      cases c <;> exact Option.some_ne_none _
  · rw [if_neg hhandle]
    refine iff_of_true (fun c => ?_) fun hnull => hhandle hnull.1
    cases c <;> exact Option.some_ne_none _

/-- A runtime whose module has no asynchronous mode gets the emulator, or null. -/
theorem receivers_iff :
    (∀ impl, (createImpl k library fails asyncFails arg p).1 = some impl →
        ∀ c, impl.receiver c ≠ none) ↔
      ¬ ((∀ s, fails s = false) ∧ (∃ m, loaded library arg = some m ∧ m.handle = -Errno.ENOTSUP) ∧
        ∃ s, asyncFails s = true) := by
  unfold createImpl Process.andThen
  by_cases hnone : ∀ s, fails s = false
  · have hload := load_eq library arg p hnone
    generalize load library fails arg p = called at hload ⊢
    rw [← hload]
    obtain ⟨_ | ⟨impl, runtime, m⟩, p'⟩ := called
    · -- no module was loaded
      refine iff_of_true (fun impl himpl => nomatch himpl) ?_
      rintro ⟨-, ⟨m, hm, -⟩, -⟩
      cases hm
    simp only [Option.some.injEq, forall_eq']
    rw [attach_iff]
    simp [hnone]
  · rw [load_fails hnone]
    exact iff_of_true (fun impl himpl => nomatch himpl) fun hall => hnone hall.1

end Impl

/-- `Async::Create` is all or nothing unless it fails when the event loop exists, and
`Inference::Runtime::impl::Create` gives out no null pointer unless it needs an emulator that cannot be
built. -/
theorem allOrNothing_iff (k : Kernel) (library : String → Option Library) (implFails : ImplStep → Bool)
    (fails : Step → Bool) (arg : Option Argument) (p : Process) :
    (((create k fails p).1 = none → LeavesNothing p (create k fails p).2) ↔
        ¬ (¬ Early fails ∧ Failed fails .start)) ∧
      ((∀ impl, (createImpl k library implFails fails arg p).1 = some impl →
          ∀ c, impl.receiver c ≠ none) ↔
        ¬ ((∀ s, implFails s = false) ∧
          (∃ m, loaded library arg = some m ∧ m.handle = -Errno.ENOTSUP) ∧ ∃ s, fails s = true)) :=
  ⟨create_leavesNothing_iff, receivers_iff⟩

/-- A thread that cannot be created. -/
def noThread (s : Step) : Bool := s == .run .create

/-- A runtime module without an asynchronous mode. -/
def synchronous : Library := ⟨some fun _ => some ⟨some "runtime", -Errno.ENOTSUP⟩⟩

/-- Without a thread, the event loop is lost and the runtime is left with a null emulator. -/
theorem noThread_loses :
    ¬ ((create .lowest noThread .empty).1 = none →
        LeavesNothing .empty (create .lowest noThread .empty).2) ∧
      ¬ ∀ impl, (createImpl .lowest (fun _ => some synchronous) (fun _ => false) noThread
          (some ⟨1, some [some "tflite"]⟩) .empty).1 = some impl → ∀ c, impl.receiver c ≠ none := by
  have hnone : ∀ part, part ≠ .start → ¬ Failed noThread part := by
    rintro part hpart ⟨s, rfl, hs⟩
    obtain rfl : s = .run .create := by simpa [noThread] using hs
    exact hpart rfl
  have hfailed : Failed noThread .start := ⟨.run .create, rfl, rfl⟩
  refine ⟨fun hall => create_leavesNothing_iff.1 hall ⟨?_, hfailed⟩, fun hall => ?_⟩
  · rintro ((hopen | hwrap) | hconnect)
    · exact hnone .openAll (by decide) hopen
    · exact hnone .wrapAll (by decide) hwrap
    · exact hnone .connect (by decide) hconnect
  · exact receivers_iff.1 hall ⟨fun _ => rfl, ⟨_, rfl, rfl⟩, ⟨.run .create, rfl⟩⟩

end AsyncCreate
end Runtime
end Beyond
