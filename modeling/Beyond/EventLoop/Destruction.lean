import Beyond.EventLoop.RunStop

/-!
# Destroying the event loop

`EventLoop::impl::Destroy` stops the loop, joins or detaches its thread, and deletes the object.  It
may be called by the thread that has created the loop, in an event handler inside `WaitEpoll`, and in
the stop handler that `ThreadMain` invokes at its end.  This module interleaves such calls with the
steps of `RunStop`.  The object stays in place after its deletion; every later access to it is
recorded.
-/

namespace Beyond
namespace EventLoop
namespace Destruction

open RunStop

variable {ι : Type*}

/-! ## State -/

/-- Where a `ThreadMain` is in code of the user. -/
inductive Hook
  | none
  /-- In a handler, inside `WaitEpoll`. -/
  | callback
  /-- In the stop handler, or behind the place of it when there is none. -/
  | stopHandler
  deriving DecidableEq, Repr

/-- Where `Destroy` is called. -/
inductive Place
  | creator
  | callback (thread : Nat)
  | stopHandler (thread : Nat)
  deriving DecidableEq, Repr

/-- Inside `Destroy`. -/
inductive DestroyPc
  | entered
  /-- The call has set `destructed`. -/
  | stopping
  /-- `StopLoop` wakes the loop up. -/
  | writing
  | joining
  | deleting
  deriving DecidableEq, Repr

/-- Who has used the object after its deletion. -/
inductive Party (ι : Type*)
  | run (i : ι)
  | threadMain (j : Nat)
  | destroy (place : Place)
  deriving DecidableEq, Repr

structure State (ι : Type*) where
  base : RunStop.State ι
  hook : Nat → Hook
  /-- The call of `Destroy` that is in progress at each place. -/
  call : Place → Option DestroyPc
  destructed : Bool
  alive : Bool
  deletes : Nat
  violations : List (Party ι)

inductive Act (ι : Type*)
  | base (a : RunStop.Act ι)
  /-- A `ThreadMain` invokes a handler or the stop handler. -/
  | enter (j : Nat)
  /-- A handler returns to `WaitEpoll`. -/
  | leave (j : Nat)
  /-- `Destroy` is called. -/
  | destroy (place : Place)
  | proceed (place : Place)

namespace State

/-- A read or a write of the object. -/
def touch (s : State ι) (p : Party ι) : State ι :=
  if s.alive then s else { s with violations := s.violations ++ [p] }

def goto (s : State ι) (place : Place) (pc : Option DestroyPc) : State ι :=
  { s with call := Function.update s.call place pc }

def setHook (s : State ι) (j : Nat) (h : Hook) : State ι :=
  { s with hook := Function.update s.hook j h }

end State

/-! ## Steps -/

/-- `ThreadMain` runs its own code. -/
def ready (s : State ι) (j : Nat) : Bool :=
  match s.base.thread j with
  -- The end of `ThreadMain` is behind the stop handler.
  | .cleanup _ => s.hook j = .stopHandler ∧ s.call (.stopHandler j) = none
  | _ => s.hook j = .none

/-- Which steps of `RunStop` use the object; `Stop` is left to its callers. -/
def user (s : State ι) : RunStop.Act ι → Option (Party ι)
  | .run i _ _ _ => some (.run i)
  | .call i _ => if (s.base.caller i).launches then some (.run i) else none
  | .thread j _ =>
      match s.base.thread j with
      | .cleanup _ => none
      | _ => some (.threadMain j)
  | .stop _ => none

def enter (s : State ι) (j : Nat) : Option (State ι) :=
  match s.base.thread j, s.hook j with
  | .polling, .none => some ((s.touch (.threadMain j)).setHook j .callback)
  -- The signal descriptor is taken out of the epoll set, and the stop handler out of the object.
  | .cleanup _, .none => some ((s.touch (.threadMain j)).setHook j .stopHandler)
  | _, _ => none

def leave (s : State ι) (j : Nat) : Option (State ι) :=
  if s.hook j = .callback ∧ s.call (.callback j) = none then some (s.setHook j .none) else none

/-- The user's code runs at the place. -/
def reached (s : State ι) : Place → Bool
  | .creator => true
  | .callback j => s.hook j = .callback
  | .stopHandler j => s.hook j = .stopHandler ∧ (s.base.thread j).executing = true

def destroy (s : State ι) (place : Place) : Option (State ι) :=
  if reached s place ∧ s.call place = none then some (s.goto place (some .entered)) else none

/-- Whether `pthread_join` returns: `svc_thid` is the last thread, or still the creator itself. -/
def joined (b : RunStop.State ι) : Bool :=
  b.created = 0 ∨ (b.thread (b.created - 1)).executing = false

def proceed (enableThread : Bool) (s : State ι) (place : Place) : Option (State ι) :=
  match s.call place with
  | none => none
  | some .entered =>
      if s.destructed then some ((s.touch (.destroy place)).goto place none)
      else some ({ s.touch (.destroy place) with destructed := true }.goto place (some .stopping))
  | some .stopping =>
      if s.base.state.refusesStop then
        some ((s.touch (.destroy place)).goto place (some .joining))
      else
        some ({ s.touch (.destroy place) with
          base := { s.base with state := .stopRequested } }.goto place
            (some (if s.base.state = LoopState.started then .writing else .joining)))
  | some .writing => some ((s.touch (.destroy place)).goto place (some .joining))
  | some .joining =>
      -- Elsewhere the thread is detached, or it is none of the loop's.
      if enableThread = true ∧ place = .creator ∧ joined s.base = false then none
      else some ((s.touch (.destroy place)).goto place (some .deleting))
  | some .deleting =>
      some ({ s.touch (.destroy place) with
        alive := false
        deletes := s.deletes + 1 }.goto place none)

def State.rebase (s : State ι) (a : RunStop.Act ι) (b' : RunStop.State ι) : State ι :=
  match user s a with
  | some p => { s.touch p with base := b' }
  | none => { s with base := b' }

def step [DecidableEq ι] (enableThread : Bool) (s : State ι) : Act ι → Option (State ι)
  | .base (.thread j ret) =>
      if ready s j then (RunStop.step enableThread s.base (.thread j ret)).map (s.rebase (.thread j ret))
      else none
  | .base a => (RunStop.step enableThread s.base a).map (s.rebase a)
  | .enter j => enter s j
  | .leave j => leave s j
  | .destroy place => destroy s place
  | .proceed place => proceed enableThread s place

/-- As `Create` leaves the loop. -/
def State.start : State ι :=
  { base := .start
    hook := fun _ => .none
    call := fun _ => none
    destructed := false
    alive := true
    deletes := 0
    violations := [] }

/-! ## The property -/

/-- What is asked of every state. -/
structure DestroyedSafely (s : State ι) : Prop where
  untouched : s.violations = []
  once : s.deletes ≤ 1
  /-- When every call of `Destroy` has returned, one of them has deleted the object. -/
  deleted : s.destructed = true → (∀ place, s.call place = none) → s.deletes = 1

/-- No `ThreadMain` will use the object without the call at `place` waiting for it, and no `Run` will
start one. -/
def Settled (enableThread : Bool) (s : State ι) (place : Place) : Prop :=
  (∀ j, place ≠ .callback j) ∧ (∀ i, (s.base.caller i).launches = false) ∧
    ∀ j, (s.base.thread j).executing = true → s.hook j = .stopHandler ∨
      (enableThread = true ∧ place = .creator ∧ j + 1 = s.base.created)

/-- `Destroy` and `Run` are called while the object is there; the first `Destroy` is called where the
loop has settled, and `Run` does not start the loop again after it. -/
def Expected (enableThread : Bool) (s : State ι) : Act ι → Prop
  | .base (.run _ _ _ _) => s.alive = true ∧ (s.destructed = true → s.base.state ≠ .stopped)
  | .proceed place => s.call place = some .entered →
      s.alive = true ∧ (s.destructed = false → Settled enableThread s place)
  | _ => True

/-! ## The invariant -/

/-- The call has set `destructed`, and will delete the object. -/
def DestroyPc.takes : DestroyPc → Bool
  | .entered => false
  | _ => true

/-- The call has not yet waited for the thread. -/
def DestroyPc.awaits : DestroyPc → Bool
  | .stopping => true
  | .writing => true
  | .joining => true
  | _ => false

def State.taking (s : State ι) (place : Place) : Prop := ∃ pc, s.call place = some pc ∧ pc.takes = true

/-- The creator is going to wait for the thread. -/
def Awaited (enableThread : Bool) (s : State ι) (j : Nat) : Prop :=
  enableThread = true ∧ j + 1 = s.base.created ∧
    ∃ pc, s.call .creator = some pc ∧ pc.awaits = true

structure Inv (enableThread : Bool) (s : State ι) : Prop where
  untouched : s.violations = []
  /-- One call at most gets past the flag. -/
  single : ∀ p q, s.taking p → s.taking q → p = q
  taken : ∀ p, s.taking p → s.destructed = true ∧ s.alive = true
  pending : s.destructed = true → s.alive = true → ∃ p, s.taking p
  alive : s.alive = true → s.deletes = 0
  dead : s.alive = false → s.deletes = 1 ∧ s.destructed = true
  /-- Behind the flag, a `ThreadMain` is awaited or does not use the object any more. -/
  launches : s.destructed = true → ∀ i, (s.base.caller i).launches = false
  settled : s.destructed = true → ∀ j, (s.base.thread j).executing = true →
    s.hook j = .stopHandler ∨ Awaited enableThread s j

theorem inv_start (enableThread : Bool) : Inv enableThread (State.start : State ι) := by
  have hnone : ∀ p, ¬ (State.start : State ι).taking p := by
    rintro p ⟨pc, hpc, -⟩
    cases hpc
  exact ⟨rfl, fun p q hp => absurd hp (hnone p), fun p hp => absurd hp (hnone p), nofun,
    fun _ => rfl, nofun, nofun, nofun⟩

theorem Inv.destroyedSafely {enableThread : Bool} {s : State ι} (hs : Inv enableThread s) :
    DestroyedSafely s := by
  refine ⟨hs.untouched, ?_, fun hdestructed hreturned => ?_⟩
  · cases halive : s.alive with
    | true => rw [hs.alive halive]; exact Nat.zero_le 1
    | false => exact Nat.le_of_eq (hs.dead halive).1
  · cases halive : s.alive with
    | true =>
        rcases hs.pending hdestructed halive with ⟨p, pc, hpc, -⟩
        rw [hreturned p] at hpc
        cases hpc
    | false => exact (hs.dead halive).1

theorem touch_of_alive {s : State ι} (h : s.alive = true) (p : Party ι) : s.touch p = s := by
  simp [State.touch, h]

/-- A thread that is awaited is so while the object is there. -/
theorem Inv.alive_of_awaited {enableThread : Bool} {s : State ι} (hs : Inv enableThread s) {j : Nat}
    (h : Awaited enableThread s j) : s.alive = true := by
  rcases h with ⟨-, -, pc, hpc, hawaits⟩
  refine (hs.taken .creator ⟨pc, hpc, ?_⟩).2
  cases pc with
  | entered => cases hawaits
  | _ => rfl

/-- A `ThreadMain` outside its stop handler has the object. -/
theorem Inv.alive_of_executing {enableThread : Bool} {s : State ι} (hs : Inv enableThread s) {j : Nat}
    (hj : (s.base.thread j).executing = true) (hhook : s.hook j ≠ .stopHandler) :
    s.alive = true := by
  cases halive : s.alive with
  | true => rfl
  | false =>
      rcases hs.settled (hs.dead halive).2 j hj with hstop | hawaited
      · exact absurd hstop hhook
      · rw [hs.alive_of_awaited hawaited] at halive
        cases halive

/-! ## Steps of the loop -/

theorem threadStep_frame {b b' : RunStop.State ι} {k : Nat} {ret : Int}
    (h : threadStep b k ret = some b') :
    b'.created = b.created ∧ b'.caller = b.caller ∧ (b.thread k).executing = true ∧
      ∀ j, j ≠ k → b'.thread j = b.thread j := by
  have hset : ∀ (pc : ThreadPc) (j : Nat), j ≠ k →
      Function.update b.thread k pc j = b.thread j := fun pc j hj => Function.update_of_ne hj _ _
  cases hpc : b.thread k with
  | absent => simp [threadStep, hpc] at h
  | ended r => simp [threadStep, hpc] at h
  | _ =>
      simp only [threadStep, hpc] at h
      all_goals (try split at h)
      all_goals cases h
      all_goals exact ⟨rfl, rfl, rfl, hset _⟩

section Settled

variable [DecidableEq ι] {enableThread : Bool} {b b' : RunStop.State ι}

theorem launches_update (hlaunches : ∀ i, (b.caller i).launches = false) (i : ι) {pc : CallPc}
    (hpc : pc.launches = false) (k : ι) : (Function.update b.caller i pc k).launches = false := by
  by_cases hk : k = i
  · subst hk
    rwa [Function.update_self]
  · rw [Function.update_of_ne hk]
    exact hlaunches k

/-- A call that launches nothing goes on. -/
theorem callStep_settled {i : ι} {ret : Int} (hlaunches : ∀ i, (b.caller i).launches = false)
    (h : callStep enableThread b i ret = some b') :
    b'.created = b.created ∧ (∀ i, (b'.caller i).launches = false) ∧ b'.thread = b.thread := by
  have hset : ∀ {pc : CallPc}, pc.launches = false →
      ∀ k, (Function.update b.caller i pc k).launches = false := launches_update hlaunches i
  have hi := hlaunches i
  cases hpc : b.caller i with
  | idle => simp [callStep, hpc] at h
  | destroyingAttr status =>
      simp only [callStep, hpc] at h
      cases h
      exact ⟨rfl, hset rfl, rfl⟩
  | inline j =>
      simp only [callStep, hpc] at h
      split at h
      · cases h
        exact ⟨rfl, hset rfl, rfl⟩
      · cases h
  | writing before =>
      simp only [callStep, hpc] at h
      cases h
      exact ⟨rfl, hset rfl, rfl⟩
  | _ =>
      rw [hpc] at hi
      cases hi

/-- Once no call launches a `ThreadMain` and none may take the loop, no new one starts. -/
theorem base_settled {a : RunStop.Act ι} (hlaunches : ∀ i, (b.caller i).launches = false)
    (hrun : ∀ i w l t, a = .run i w l t → b.state ≠ .stopped)
    (h : RunStop.step enableThread b a = some b') :
    b'.created = b.created ∧ (∀ i, (b'.caller i).launches = false) ∧
      ∀ j, (b'.thread j).executing = true → (b.thread j).executing = true := by
  cases a with
  | run i w l t =>
      simp only [RunStop.step, runCall] at h
      split at h
      · cases h
      · split at h
        · cases h
          exact ⟨rfl, hlaunches, fun _ => id⟩
        · rename_i hstopped
          exact absurd (not_not.1 hstopped) (hrun i w l t rfl)
  | stop i =>
      simp only [RunStop.step, stopCall] at h
      split at h
      · cases h
      · split at h
        · cases h
          exact ⟨rfl, hlaunches, fun _ => id⟩
        · split at h
          · cases h
            exact ⟨rfl, launches_update hlaunches i rfl, fun _ => id⟩
          · cases h
            exact ⟨rfl, hlaunches, fun _ => id⟩
  | call i ret =>
      rcases callStep_settled hlaunches h with ⟨hcreated, hcalls, hthread⟩
      exact ⟨hcreated, hcalls, fun j hj => hthread ▸ hj⟩
  | thread k ret =>
      have hmoved := threadStep_frame h
      refine ⟨hmoved.1, fun i => ?_, fun j hj => ?_⟩
      · rw [hmoved.2.1]
        exact hlaunches i
      · by_cases hjk : j = k
        · subst hjk
          exact hmoved.2.2.1
        · rwa [hmoved.2.2.2 j hjk] at hj

end Settled

theorem inv_base [DecidableEq ι] {enableThread : Bool} {s : State ι} {a : RunStop.Act ι}
    {b' : RunStop.State ι} (hs : Inv enableThread s)
    (huser : ∀ p, user s a = some p → s.alive = true)
    (hrun : s.destructed = true → ∀ i w l t, a = .run i w l t → s.base.state ≠ .stopped)
    (h : RunStop.step enableThread s.base a = some b') : Inv enableThread (s.rebase a b') := by
  have hrebase : s.rebase a b' = { s with base := b' } := by
    unfold State.rebase
    split
    · rename_i p hp
      rw [touch_of_alive (huser p hp)]
    · rfl
  rw [hrebase]
  refine ⟨hs.untouched, hs.single, hs.taken, hs.pending, hs.alive, hs.dead, fun hdestructed => ?_,
    fun hdestructed j hj => ?_⟩
  · exact (base_settled (hs.launches hdestructed) (hrun hdestructed) h).2.1
  · have hsettled := base_settled (hs.launches hdestructed) (hrun hdestructed) h
    refine (hs.settled hdestructed j (hsettled.2.2 j hj)).imp_right fun hawaited => ?_
    exact ⟨hawaited.1, hawaited.2.1.trans hsettled.1.symm, hawaited.2.2⟩

/-! ## Steps into and out of the user's code -/

theorem inv_setHook {enableThread : Bool} {s : State ι} (hs : Inv enableThread s) {j : Nat} {h : Hook}
    (hhook : s.hook j ≠ .stopHandler) : Inv enableThread (s.setHook j h) := by
  refine ⟨hs.untouched, hs.single, hs.taken, hs.pending, hs.alive, hs.dead, hs.launches,
    fun hdestructed k hk => ?_⟩
  rcases hs.settled hdestructed k hk with hstop | hawaited
  · have hkj : k ≠ j := fun heq => hhook (heq ▸ hstop)
    exact .inl (by simpa [State.setHook, Function.update_of_ne hkj] using hstop)
  · exact .inr hawaited

theorem inv_enter {enableThread : Bool} {s s' : State ι} {j : Nat} (hs : Inv enableThread s)
    (h : enter s j = some s') : Inv enableThread s' := by
  unfold enter at h
  split at h
  · rename_i hpc hhook
    have hne : s.hook j ≠ .stopHandler := by simp [hhook]
    rw [touch_of_alive (hs.alive_of_executing (by rw [hpc]; rfl) hne)] at h
    cases h
    exact inv_setHook hs hne
  · rename_i hpc hhook
    have hne : s.hook j ≠ .stopHandler := by simp [hhook]
    rw [touch_of_alive (hs.alive_of_executing (by rw [hpc]; rfl) hne)] at h
    cases h
    exact inv_setHook hs hne
  · cases h

theorem inv_leave {enableThread : Bool} {s s' : State ι} {j : Nat} (hs : Inv enableThread s)
    (h : leave s j = some s') : Inv enableThread s' := by
  unfold leave at h
  split at h
  · rename_i hcallback
    cases h
    exact inv_setHook hs (by simp [hcallback.1])
  · cases h

/-! ## Steps of Destroy -/

theorem taking_goto {s : State ι} {place p : Place} {pc : Option DestroyPc} :
    (s.goto place pc).taking p ↔
      (p = place ∧ ∃ x, pc = some x ∧ x.takes = true) ∨ (p ≠ place ∧ s.taking p) := by
  by_cases hp : p = place
  · subst hp
    simp [State.taking, State.goto]
  · simp [State.taking, State.goto, hp]

theorem awaited_goto_of_ne {enableThread : Bool} {s : State ι} {place : Place}
    {pc : Option DestroyPc} {j : Nat} (hplace : place ≠ .creator)
    (h : Awaited enableThread s j) : Awaited enableThread (s.goto place pc) j := by
  refine ⟨h.1, h.2.1, ?_⟩
  simpa [State.goto, Function.update_of_ne (Ne.symm hplace)] using h.2.2

/-- A call that is not past the flag comes or goes. -/
theorem inv_outside {enableThread : Bool} {s : State ι} (hs : Inv enableThread s) {place : Place}
    {pc : Option DestroyPc} (hbefore : ¬ s.taking place)
    (hafter : ∀ x, pc = some x → x.takes = false) : Inv enableThread (s.goto place pc) := by
  have htaking : ∀ p, (s.goto place pc).taking p ↔ s.taking p := by
    intro p
    rw [taking_goto]
    constructor
    · rintro (⟨-, x, hx, htakes⟩ | ⟨-, hp⟩)
      · rw [hafter x hx] at htakes
        cases htakes
      · exact hp
    · intro hp
      exact .inr ⟨fun heq => hbefore (heq ▸ hp), hp⟩
  refine ⟨hs.untouched, fun p q hp hq => hs.single p q ((htaking p).1 hp) ((htaking q).1 hq),
    fun p hp => hs.taken p ((htaking p).1 hp), fun hd ha => ?_, hs.alive, hs.dead, hs.launches,
    fun hd j hj => ?_⟩
  · rcases hs.pending hd ha with ⟨p, hp⟩
    exact ⟨p, (htaking p).2 hp⟩
  · refine (hs.settled hd j hj).imp_right fun hawaited => awaited_goto_of_ne (fun heq => ?_) hawaited
    rcases hawaited.2.2 with ⟨x, hx, hawaits⟩
    refine hbefore ⟨x, heq ▸ hx, ?_⟩
    cases x with
    | entered => cases hawaits
    | _ => rfl

/-- A call past the flag goes on. -/
theorem inv_inside {enableThread : Bool} {s : State ι} (hs : Inv enableThread s) {place : Place}
    {pc : DestroyPc} (hbefore : s.taking place) (hafter : pc.takes = true)
    (hawaits : place = .creator → pc.awaits = true ∨
      ∀ j, Awaited enableThread s j → (s.base.thread j).executing = false) (state : LoopState) :
    Inv enableThread ({ s with base := { s.base with state := state } }.goto place (some pc)) := by
  have htaking : ∀ p, ({ s with base := { s.base with state := state } }.goto place (some pc)).taking p
      ↔ s.taking p := by
    intro p
    rw [taking_goto]
    constructor
    · rintro (⟨rfl, -⟩ | ⟨-, hp⟩)
      · exact hbefore
      · exact hp
    · intro hp
      by_cases heq : p = place
      · exact .inl ⟨heq, pc, rfl, hafter⟩
      · exact .inr ⟨heq, hp⟩
  refine ⟨hs.untouched, fun p q hp hq => hs.single p q ((htaking p).1 hp) ((htaking q).1 hq),
    fun p hp => hs.taken p ((htaking p).1 hp), fun hd ha => ?_, hs.alive, hs.dead, hs.launches,
    fun hd j hj => ?_⟩
  · rcases hs.pending hd ha with ⟨p, hp⟩
    exact ⟨p, (htaking p).2 hp⟩
  · rcases hs.settled hd j hj with hstop | hawaited
    · exact .inl hstop
    · by_cases hplace : place = .creator
      · rcases hawaits hplace with hpc | hended
        · exact .inr ⟨hawaited.1, hawaited.2.1, pc, by simp [State.goto, hplace], hpc⟩
        · have hnot := hended j hawaited
          rw [show (s.base.thread j).executing = true from hj] at hnot
          cases hnot
      · exact .inr (awaited_goto_of_ne hplace hawaited)

/-- The first call takes the object. -/
theorem inv_take {enableThread : Bool} {s : State ι} (hs : Inv enableThread s) {place : Place}
    (halive : s.alive = true) (hfirst : s.destructed = false)
    (hsettled : Settled enableThread s place) :
    Inv enableThread ({ s with destructed := true }.goto place (some .stopping)) := by
  have hnone : ∀ p, ¬ s.taking p := by
    intro p hp
    rw [(hs.taken p hp).1] at hfirst
    cases hfirst
  have htaking : ∀ p, ({ s with destructed := true }.goto place (some .stopping)).taking p ↔
      p = place := by
    intro p
    rw [taking_goto]
    constructor
    · rintro (⟨heq, -⟩ | ⟨-, hp⟩)
      · exact heq
      · exact absurd hp (hnone p)
    · intro heq
      exact .inl ⟨heq, .stopping, rfl, rfl⟩
  refine ⟨hs.untouched, fun p q hp hq => ?_, fun p _ => ⟨rfl, halive⟩,
    fun _ _ => ⟨place, (htaking place).2 rfl⟩, hs.alive, fun hdead => ?_, fun _ => hsettled.2.1,
    fun _ j hj => ?_⟩
  · rw [(htaking p).1 hp, (htaking q).1 hq]
  · rw [show s.alive = false from hdead] at halive
    cases halive
  · refine (hsettled.2.2 j hj).imp_right fun ⟨hthread, hplace, hlast⟩ => ?_
    exact ⟨hthread, hlast, .stopping, by simp [State.goto, hplace], rfl⟩

theorem inv_delete {enableThread : Bool} {s : State ι} (hs : Inv enableThread s) {place : Place}
    (hpc : s.call place = some .deleting) :
    Inv enableThread ({ s with alive := false, deletes := s.deletes + 1 }.goto place none) := by
  have htakes : s.taking place := ⟨.deleting, hpc, rfl⟩
  have htaken := hs.taken place htakes
  have hnone : ∀ p, ¬ ({ s with alive := false, deletes := s.deletes + 1 }.goto place none).taking p := by
    intro p hp
    rcases taking_goto.1 hp with ⟨-, x, hx, -⟩ | ⟨hne, hp'⟩
    · cases hx
    · exact hne (hs.single p place hp' htakes)
  refine ⟨hs.untouched, fun p _ hp => absurd hp (hnone p), fun p hp => absurd hp (hnone p), nofun,
    nofun, fun _ => ⟨?_, htaken.1⟩, hs.launches, fun hd j hj => ?_⟩
  · rw [show (State.deletes _ : Nat) = s.deletes + 1 from rfl, hs.alive htaken.2]
  · rcases hs.settled hd j hj with hstop | hawaited
    · exact .inl hstop
    · -- The creator would still be waiting, but it is this call that deletes.
      exfalso
      rcases hawaited.2.2 with ⟨x, hx, hawaits⟩
      have hcreator : s.taking .creator := by
        refine ⟨x, hx, ?_⟩
        cases x with
        | entered => cases hawaits
        | _ => rfl
      have hplace := hs.single .creator place hcreator htakes
      rw [hplace, hpc] at hx
      cases hx
      cases hawaits

theorem inv_proceed {enableThread : Bool} {s s' : State ι} {place : Place}
    (hs : Inv enableThread s)
    (hexpected : s.call place = some .entered →
      s.alive = true ∧ (s.destructed = false → Settled enableThread s place))
    (h : proceed enableThread s place = some s') : Inv enableThread s' := by
  have hself : ∀ pc, s.call place = some pc → pc.takes = true → s.touch (.destroy place) = s :=
    fun pc hpc htakes => touch_of_alive (hs.taken place ⟨pc, hpc, htakes⟩).2 _
  cases hpc : s.call place with
  | none => simp [proceed, hpc] at h
  | some pc =>
      cases pc with
      | entered =>
          have hcalled := hexpected hpc
          simp only [proceed, hpc, touch_of_alive hcalled.1] at h
          have houtside : ¬ s.taking place := by
            rintro ⟨x, hx, htakes⟩
            rw [hpc] at hx
            cases hx
            cases htakes
          split at h
          · cases h
            exact inv_outside hs houtside nofun
          · rename_i hfirst
            have hfirst' : s.destructed = false := by simpa using hfirst
            cases h
            exact inv_take hs hcalled.1 hfirst' (hcalled.2 hfirst')
      | stopping =>
          have htakes : s.taking place := ⟨.stopping, hpc, rfl⟩
          simp only [proceed, hpc, hself .stopping hpc rfl] at h
          split at h
          · cases h
            exact inv_inside hs htakes rfl (fun _ => .inl rfl) s.base.state
          · cases h
            by_cases hstarted : s.base.state = .started
            · rw [if_pos hstarted]
              exact inv_inside hs htakes rfl (fun _ => .inl rfl) .stopRequested
            · rw [if_neg hstarted]
              exact inv_inside hs htakes rfl (fun _ => .inl rfl) .stopRequested
      | writing =>
          have htakes : s.taking place := ⟨.writing, hpc, rfl⟩
          simp only [proceed, hpc, hself .writing hpc rfl] at h
          cases h
          exact inv_inside hs htakes rfl (fun _ => .inl rfl) s.base.state
      | joining =>
          have htakes : s.taking place := ⟨.joining, hpc, rfl⟩
          simp only [proceed, hpc, hself .joining hpc rfl] at h
          split at h
          · cases h
          · rename_i hjoined
            cases h
            refine inv_inside hs htakes rfl (fun hplace => .inr fun j hawaited => ?_) s.base.state
            -- `pthread_join` has returned, so the last thread has ended.
            have hreturned : joined s.base = true := by
              rw [← Bool.not_eq_false]
              exact fun hnot => hjoined ⟨hawaited.1, hplace, hnot⟩
            simpa [joined, ← hawaited.2.1] using hreturned
      | deleting =>
          simp only [proceed, hpc, hself .deleting hpc rfl] at h
          cases h
          exact inv_delete hs hpc

theorem inv_step [DecidableEq ι] {enableThread : Bool} {s s' : State ι} {a : Act ι}
    (hs : Inv enableThread s) (hexpected : Expected enableThread s a)
    (h : step enableThread s a = some s') : Inv enableThread s' := by
  cases a with
  | base a =>
      cases a with
      | run i w l t =>
          rcases Option.map_eq_some_iff.1 h with ⟨b', hb, rfl⟩
          exact inv_base hs (fun _ _ => hexpected.1) (fun hd _ _ _ _ _ => hexpected.2 hd) hb
      | stop i =>
          rcases Option.map_eq_some_iff.1 h with ⟨b', hb, rfl⟩
          exact inv_base hs (fun _ hp => nomatch hp) (fun _ _ _ _ _ ha => nomatch ha) hb
      | call i ret =>
          rcases Option.map_eq_some_iff.1 h with ⟨b', hb, rfl⟩
          refine inv_base hs (fun p hp => ?_) (fun _ _ _ _ _ ha => nomatch ha) hb
          cases halive : s.alive with
          | true => rfl
          | false =>
              -- A deleted loop is not launched.
              have hidle := hs.launches (hs.dead halive).2 i
              simp [user, hidle] at hp
      | thread j ret =>
          simp only [step] at h
          split at h
          · rename_i hready
            rcases Option.map_eq_some_iff.1 h with ⟨b', hb, rfl⟩
            have hexecuting := (threadStep_frame hb).2.2.1
            refine inv_base hs (fun p hp => ?_) (fun _ _ _ _ _ ha => nomatch ha) hb
            refine hs.alive_of_executing hexecuting fun hstop => ?_
            unfold ready at hready
            unfold user at hp
            dsimp only at hp
            split at hready
            · rename_i r hpc
              rw [hpc] at hp
              cases hp
            · simp [hstop] at hready
          · cases h
  | enter j => exact inv_enter hs h
  | leave j => exact inv_leave hs h
  | destroy place =>
      simp only [step, destroy] at h
      split at h
      · rename_i hreached
        cases h
        refine inv_outside hs ?_ fun x hx => ?_
        · rintro ⟨x, hx, -⟩
          rw [hreached.2] at hx
          cases hx
        · cases hx
          rfl
      · cases h
  | proceed place => exact inv_proceed hs hexpected h

/-! ## Runs -/

/-- Called where it is expected, `Destroy` deletes the object once, and nobody uses it after that, in
every state of every run. -/
theorem destroyed_safely [DecidableEq ι] (enableThread : Bool) (as : List (Act ι)) (s : State ι)
    (hexpected : Run.Along (step enableThread) (Expected enableThread) State.start as)
    (hexec : Run.exec (step enableThread) State.start as = some s) : DestroyedSafely s :=
  (Run.exec_invariant (fun _ _ _ hs hG h => inv_step hs hG h) (inv_start enableThread) hexpected
    hexec).destroyedSafely

/-- `ThreadMain` is brought into a handler. -/
def intoHandler : List (Act Unit) :=
  [.base (.run () 10 (-1) (-1)), .base (.call () 0), .base (.call () 0), .base (.call () 0),
    .base (.call () 0), .base (.thread 0 0), .base (.thread 0 0), .base (.thread 0 0),
    .base (.thread 0 0), .enter 0]

/-- The handler calls `Destroy`: `WaitEpoll` and `ThreadMain` go on with the deleted object. -/
theorem destroyed_in_handler :
    ∃ s, Run.exec (step true) State.start
        (intoHandler ++ [.destroy (.callback 0), .proceed (.callback 0), .proceed (.callback 0),
          .proceed (.callback 0), .proceed (.callback 0), .proceed (.callback 0), .leave 0,
          .base (.thread 0 0)]) = some s ∧
      s.deletes = 1 ∧ s.violations = [.threadMain 0] ∧ ¬ DestroyedSafely s :=
  ⟨_, rfl, rfl, rfl, fun h => nomatch h.untouched⟩

/-- The creator destroys the loop while it runs, and its stop handler calls `Destroy` as well. -/
def destroyedTwice : List (Act Unit) :=
  intoHandler ++ [.destroy .creator, .proceed .creator, .proceed .creator, .proceed .creator,
    .leave 0, .base (.thread 0 0), .base (.thread 0 0), .base (.thread 0 0), .enter 0,
    .destroy (.stopHandler 0), .proceed (.stopHandler 0), .base (.thread 0 0), .proceed .creator,
    .proceed .creator]

theorem destroyedTwice_safe :
    ∃ s, Run.exec (step true) State.start destroyedTwice = some s ∧ s.deletes = 1 ∧
      DestroyedSafely s := by
  refine ⟨_, rfl, rfl, destroyed_safely true destroyedTwice _ ?_ rfl⟩
  refine Run.along_of_step ⟨rfl, nofun⟩ rfl (Run.along_of_step trivial rfl ?_)
  refine Run.along_of_step trivial rfl (Run.along_of_step trivial rfl ?_)
  refine Run.along_of_step trivial rfl (Run.along_of_step trivial rfl ?_)
  refine Run.along_of_step trivial rfl (Run.along_of_step trivial rfl ?_)
  refine Run.along_of_step trivial rfl (Run.along_of_step trivial rfl ?_)
  -- The creator gets to `pthread_join`.
  refine Run.along_of_step trivial rfl (Run.along_of_step (fun _ => ⟨rfl, fun _ => ?_⟩) rfl ?_)
  · refine ⟨nofun, fun _ => rfl, fun j hj => ?_⟩
    cases j with
    | zero => exact .inr ⟨rfl, rfl, rfl⟩
    | succ j => exact absurd (show false = true from hj) nofun
  refine Run.along_of_step (fun h => nomatch h) rfl (Run.along_of_step (fun h => nomatch h) rfl ?_)
  -- The thread comes to its end, and the stop handler finds the flag set.
  refine Run.along_of_step trivial rfl (Run.along_of_step trivial rfl ?_)
  refine Run.along_of_step trivial rfl (Run.along_of_step trivial rfl ?_)
  refine Run.along_of_step trivial rfl (Run.along_of_step trivial rfl ?_)
  refine Run.along_of_step (fun _ => ⟨rfl, nofun⟩) rfl (Run.along_of_step trivial rfl ?_)
  refine Run.along_of_step (fun h => nomatch h) rfl (Run.along_of_step (fun h => nomatch h) rfl ?_)
  exact Run.along_nil _ _

end Destruction
end EventLoop
end Beyond
